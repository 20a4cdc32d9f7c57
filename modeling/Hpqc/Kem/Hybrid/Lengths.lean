import Hpqc.Kem.Hybrid.Encoding

/-!
# Lengths, shares and sizes

The hybrid checks each input's length against its declared size before it slices, and
then hands the first component exactly the first component's share and the second
exactly the rest. `SplitsAtDeclaredSizes` states this for every method and every hybrid;
`lengthDiscipline_of_components` shows that the exact length discipline passes from the
components to the hybrid.

Two declarations of the source do not match what they describe: the declared shared-key
size is the sum of the components' while every secret is one Blake2b-256 digest, and the
seed is split, not expanded, so a component's keys depend only on its own share.

Decapsulation that never fails on a key of the scheme and a ciphertext of its size (implicit
rejection) passes from the components to the hybrid, and so to every nesting.
-/

namespace Hpqc.Kem.Hybrid.Scheme

variable (blake2b256 : Bytes → Digest) (sch : Scheme)

/-- What the hybrid does with an input of each length: its size error (its panic, for
`DeriveKeyPair`) when the length differs from the declared size, and otherwise the
components' calls on the first component's share and on the rest. -/
structure SplitsAtDeclaredSizes : Prop where
  shareLengths : ∀ {size : Kem.Scheme → Nat} {buf : Bytes}, buf.length = sch.sumSize size →
    (buf.take (size sch.first)).length = size sch.first ∧
      (buf.drop (size sch.first)).length = size sch.second
  deriveKeyPair_ne : ∀ {seed : Bytes}, seed.length ≠ sch.seedSize →
    sch.deriveKeyPair seed =
      .error (.panic (.message ("seed size must be " ++ toString sch.seedSize)))
  deriveKeyPair_eq : ∀ {seed : Bytes}, seed.length = sch.seedSize →
    sch.deriveKeyPair seed = (do
      let (pk1, sk1) ← sch.first.deriveKeyPair (seed.take sch.first.seedSize)
      let (pk2, sk2) ← sch.second.deriveKeyPair (seed.drop sch.first.seedSize)
      return (.hybrid sch.addr pk1 pk2, .hybrid sch.addr sk1 sk2))
  encapsulateDeterministically_ne : ∀ {pk : PublicKey} {seed : Bytes},
    seed.length ≠ sch.encapsulationSeedSize →
    sch.encapsulateDeterministically blake2b256 pk seed = .error (.error .errSeedSize)
  encapsulateDeterministically_eq : ∀ {pk : PublicKey} {seed : Bytes},
    seed.length = sch.encapsulationSeedSize →
    sch.encapsulateDeterministically blake2b256 pk seed = match pk with
      | .hybrid _ pk1 pk2 => do
        let (ct1, ss1) ← sch.first.encapsulateDeterministically pk1
          (seed.take sch.first.encapsulationSeedSize)
        let (ct2, ss2) ← sch.second.encapsulateDeterministically pk2
          (seed.drop sch.first.encapsulationSeedSize)
        return (ct1 ++ ct2, pairSplitPRF blake2b256 ss1 ss2 ct1 ct2)
      | _ => .error (.error .errTypeMismatch)
  decapsulate_ne : ∀ {sk : PrivateKey} {ct : Bytes}, ct.length ≠ sch.ciphertextSize →
    sch.decapsulate blake2b256 sk ct = .error (.error .errCiphertextSize)
  decapsulate_eq : ∀ {sk : PrivateKey} {ct : Bytes}, ct.length = sch.ciphertextSize →
    sch.decapsulate blake2b256 sk ct = match sk with
      | .hybrid _ sk1 sk2 => do
        let ss1 ← sch.first.decapsulate sk1 (ct.take sch.first.ciphertextSize)
        let ss2 ← sch.second.decapsulate sk2 (ct.drop sch.first.ciphertextSize)
        return pairSplitPRF blake2b256 ss1 ss2
          (ct.take sch.first.ciphertextSize) (ct.drop sch.first.ciphertextSize)
      | _ => .error (.error .errTypeMismatch)
  unmarshalBinaryPublicKey_ne : ∀ {buf : Bytes}, buf.length ≠ sch.publicKeySize →
    sch.unmarshalBinaryPublicKey buf = .error (.error .errPubKeySize)
  unmarshalBinaryPublicKey_eq : ∀ {buf : Bytes}, buf.length = sch.publicKeySize →
    sch.unmarshalBinaryPublicKey buf = (do
      let pk1 ← sch.first.unmarshalBinaryPublicKey (buf.take sch.first.publicKeySize)
      let pk2 ← sch.second.unmarshalBinaryPublicKey (buf.drop sch.first.publicKeySize)
      return .hybrid sch.addr pk1 pk2)
  unmarshalBinaryPrivateKey_ne : ∀ {buf : Bytes}, buf.length ≠ sch.privateKeySize →
    sch.unmarshalBinaryPrivateKey buf = .error (.error .errPrivKeySize)
  unmarshalBinaryPrivateKey_eq : ∀ {buf : Bytes}, buf.length = sch.privateKeySize →
    sch.unmarshalBinaryPrivateKey buf = (do
      let sk1 ← sch.first.unmarshalBinaryPrivateKey (buf.take sch.first.privateKeySize)
      let sk2 ← sch.second.unmarshalBinaryPrivateKey (buf.drop sch.first.privateKeySize)
      return .hybrid sch.addr sk1 sk2)

/-- Every hybrid splits its inputs at the declared sizes, whatever its components. -/
theorem splitsAtDeclaredSizes : sch.SplitsAtDeclaredSizes blake2b256 where
  shareLengths := share_lengths _
  deriveKeyPair_ne := deriveKeyPair_of_length_ne
  deriveKeyPair_eq := deriveKeyPair_of_length
  encapsulateDeterministically_ne := encapsulateDeterministically_of_length_ne
  encapsulateDeterministically_eq := fun {pk _} exactLength => by
    cases pk with
    | hybrid => exact encapsulateDeterministically_hybrid exactLength
    | _ => exact encapsulateDeterministically_of_not_hybrid exactLength (by simp)
  decapsulate_ne := decapsulate_of_length_ne
  decapsulate_eq := fun {sk _} exactLength => by
    cases sk with
    | hybrid => exact decapsulate_hybrid exactLength
    | _ => exact decapsulate_of_not_hybrid exactLength (by simp)
  unmarshalBinaryPublicKey_ne := unmarshalPair_of_length_ne
  unmarshalBinaryPublicKey_eq := unmarshalPair_of_length
  unmarshalBinaryPrivateKey_ne := unmarshalPair_of_length_ne
  unmarshalBinaryPrivateKey_eq := unmarshalPair_of_length

variable {blake2b256 sch}

/-- An input of the declared length avoids the failure `e` as long as neither component
fails with `e` on its share. -/
theorem unmarshalPair_ne_error {Key : Type} {size : Kem.Scheme → Nat} {sizeError : Error}
    {unmarshal : Kem.Scheme → Bytes → Go Key} {pair : SchemeRef → Key → Key → Key}
    {buf : Bytes} {e : Failure} (exactLength : buf.length = sch.sumSize size)
    (first : unmarshal sch.first (buf.take (size sch.first)) ≠ .error e)
    (second : unmarshal sch.second (buf.drop (size sch.first)) ≠ .error e) :
    sch.unmarshalPair size sizeError unmarshal pair buf ≠ .error e := by
  rw [unmarshalPair_of_length exactLength]
  exact Go.bind_ne_error first fun _ => Go.bind_ne_error second fun _ => by simp

/-- Both unmarshallers keep the discipline of their components: the size error exactly
on a wrong length, and no slice panic. -/
theorem unmarshalPair_discipline {Key : Type} {size : Kem.Scheme → Nat} {sizeError : Error}
    {unmarshal : Kem.Scheme → Bytes → Go Key} {pair : SchemeRef → Key → Key → Key}
    (first : ∀ buf, (unmarshal sch.first buf = .error (.error sizeError) ↔
      buf.length ≠ size sch.first) ∧ unmarshal sch.first buf ≠ .error (.panic .sliceBounds))
    (second : ∀ buf, (unmarshal sch.second buf = .error (.error sizeError) ↔
      buf.length ≠ size sch.second) ∧ unmarshal sch.second buf ≠ .error (.panic .sliceBounds))
    (buf : Bytes) :
    (sch.unmarshalPair size sizeError unmarshal pair buf = .error (.error sizeError) ↔
      buf.length ≠ sch.sumSize size) ∧
    sch.unmarshalPair size sizeError unmarshal pair buf ≠ .error (.panic .sliceBounds) := by
  by_cases exactLength : buf.length = sch.sumSize size
  · have shares := share_lengths size exactLength
    refine ⟨⟨fun failed => absurd failed ?_, fun wrong => absurd exactLength wrong⟩, ?_⟩
    · exact unmarshalPair_ne_error exactLength (fun h => (first _).1.1 h shares.1)
        fun h => (second _).1.1 h shares.2
    · exact unmarshalPair_ne_error exactLength (first _).2 (second _).2
  · exact ⟨⟨fun _ => exactLength, fun _ => unmarshalPair_of_length_ne exactLength⟩,
      by simp [unmarshalPair_of_length_ne exactLength]⟩

/-- A seed of the declared length avoids a failure `e` other than a type mismatch as long
as neither component's encapsulation fails with `e` on its share. -/
theorem encapsulateDeterministically_ne_error {pk : PublicKey} {seed : Bytes} {e : Failure}
    (exactLength : seed.length = sch.encapsulationSeedSize)
    (notMismatch : e ≠ .error .errTypeMismatch)
    (first : ∀ pk1, sch.first.encapsulateDeterministically pk1
      (seed.take sch.first.encapsulationSeedSize) ≠ .error e)
    (second : ∀ pk2, sch.second.encapsulateDeterministically pk2
      (seed.drop sch.first.encapsulationSeedSize) ≠ .error e) :
    sch.encapsulateDeterministically blake2b256 pk seed ≠ .error e := by
  cases pk with
  | hybrid =>
    rw [encapsulateDeterministically_hybrid exactLength]
    exact Go.bind_ne_error (first _) fun _ => Go.bind_ne_error (second _) fun _ => by simp
  | _ =>
    rw [encapsulateDeterministically_of_not_hybrid exactLength (by simp)]
    exact fun mismatch => notMismatch (Except.error.inj mismatch).symm

/-- A ciphertext of the declared length avoids a failure `e` other than a type mismatch as
long as neither component's decapsulation fails with `e` on its share. -/
theorem decapsulate_ne_error {sk : PrivateKey} {ct : Bytes} {e : Failure}
    (exactLength : ct.length = sch.ciphertextSize) (notMismatch : e ≠ .error .errTypeMismatch)
    (first : ∀ sk1, sch.first.decapsulate sk1 (ct.take sch.first.ciphertextSize) ≠ .error e)
    (second : ∀ sk2, sch.second.decapsulate sk2 (ct.drop sch.first.ciphertextSize) ≠ .error e) :
    sch.decapsulate blake2b256 sk ct ≠ .error e := by
  cases sk with
  | hybrid =>
    rw [decapsulate_hybrid exactLength]
    exact Go.bind_ne_error (first _) fun _ => Go.bind_ne_error (second _) fun _ => by simp
  | _ =>
    rw [decapsulate_of_not_hybrid exactLength (by simp)]
    exact fun mismatch => notMismatch (Except.error.inj mismatch).symm

/-- `UnmarshalBinaryPublicKey` keeps the discipline of the components' unmarshallers. -/
theorem unmarshalBinaryPublicKey_discipline (first : sch.first.LengthDiscipline)
    (second : sch.second.LengthDiscipline) (buf : Bytes) :
    (sch.unmarshalBinaryPublicKey buf = .error (.error .errPubKeySize) ↔
      buf.length ≠ sch.publicKeySize) ∧
    sch.unmarshalBinaryPublicKey buf ≠ .error (.panic .sliceBounds) :=
  unmarshalPair_discipline
    (fun buf => ⟨first.unmarshalBinaryPublicKey buf,
      (first.noSliceBounds .nil .nil [] buf).2.2.1⟩)
    (fun buf => ⟨second.unmarshalBinaryPublicKey buf,
      (second.noSliceBounds .nil .nil [] buf).2.2.1⟩)
    buf

/-- `UnmarshalBinaryPrivateKey` keeps the discipline of the components' unmarshallers. -/
theorem unmarshalBinaryPrivateKey_discipline (first : sch.first.LengthDiscipline)
    (second : sch.second.LengthDiscipline) (buf : Bytes) :
    (sch.unmarshalBinaryPrivateKey buf = .error (.error .errPrivKeySize) ↔
      buf.length ≠ sch.privateKeySize) ∧
    sch.unmarshalBinaryPrivateKey buf ≠ .error (.panic .sliceBounds) :=
  unmarshalPair_discipline
    (fun buf => ⟨first.unmarshalBinaryPrivateKey buf,
      (first.noSliceBounds .nil .nil [] buf).2.2.2⟩)
    (fun buf => ⟨second.unmarshalBinaryPrivateKey buf,
      (second.noSliceBounds .nil .nil [] buf).2.2.2⟩)
    buf

/-- The exact length discipline passes from the two components to the hybrid. -/
theorem lengthDiscipline_of_components (first : sch.first.LengthDiscipline)
    (second : sch.second.LengthDiscipline) : (sch.toKem blake2b256).LengthDiscipline where
  deriveKeyPair seed := by
    refine ⟨fun ⟨p, panicked⟩ exactLength => ?_,
      fun wrong => ⟨_, deriveKeyPair_of_length_ne wrong⟩⟩
    have shares := share_lengths Kem.Scheme.seedSize exactLength
    rw [toKem_deriveKeyPair, deriveKeyPair_of_length exactLength] at panicked
    refine Go.bind_ne_error (fun h => (first.deriveKeyPair _).1 ⟨p, h⟩ shares.1)
      (fun _ => Go.bind_ne_error (fun h => (second.deriveKeyPair _).1 ⟨p, h⟩ shares.2)
        fun _ => by simp) panicked
  encapsulateDeterministically pk seed := by
    refine ⟨fun failed exactLength => ?_, encapsulateDeterministically_of_length_ne⟩
    have shares := share_lengths Kem.Scheme.encapsulationSeedSize exactLength
    rw [toKem_encapsulateDeterministically] at failed
    exact encapsulateDeterministically_ne_error exactLength (by simp)
      (fun _ h => (first.encapsulateDeterministically _ _).1 h shares.1)
      (fun _ h => (second.encapsulateDeterministically _ _).1 h shares.2) failed
  decapsulate sk ct := by
    refine ⟨fun failed exactLength => ?_, decapsulate_of_length_ne⟩
    have shares := share_lengths Kem.Scheme.ciphertextSize exactLength
    rw [toKem_decapsulate] at failed
    exact decapsulate_ne_error exactLength (by simp)
      (fun _ h => (first.decapsulate _ _).1 h shares.1)
      (fun _ h => (second.decapsulate _ _).1 h shares.2) failed
  unmarshalBinaryPublicKey buf := (unmarshalBinaryPublicKey_discipline first second buf).1
  unmarshalBinaryPrivateKey buf := (unmarshalBinaryPrivateKey_discipline first second buf).1
  noSliceBounds pk sk seed buf := by
    refine ⟨?_, ?_, (unmarshalBinaryPublicKey_discipline first second buf).2,
      (unmarshalBinaryPrivateKey_discipline first second buf).2⟩
    · rw [toKem_encapsulateDeterministically]
      by_cases exactLength : seed.length = sch.encapsulationSeedSize
      · exact encapsulateDeterministically_ne_error exactLength (by simp)
          (fun _ => (first.noSliceBounds _ .nil _ []).1)
          (fun _ => (second.noSliceBounds _ .nil _ []).1)
      · simp [encapsulateDeterministically_of_length_ne exactLength]
    · rw [toKem_decapsulate]
      by_cases exactLength : buf.length = sch.ciphertextSize
      · exact decapsulate_ne_error exactLength (by simp)
          (fun _ => (first.noSliceBounds .nil _ [] _).2.1)
          (fun _ => (second.noSliceBounds .nil _ [] _).2.1)
      · simp [decapsulate_of_length_ne exactLength]

variable (blake2b256)

/-- The hybrid's length checks guard every slice it takes. Every hybrid, whatever its
components, returns its size error (or, in `DeriveKeyPair`, panics) on an input whose
length differs from its declared size, the sum of the components' sizes, and otherwise
hands the first component exactly its first share and the second exactly the rest. The
exact discipline (a size error or a panic exactly on a wrong length, no slice panic)
passes from the components to the hybrid, and so holds of every nesting of `hybrid.New`
over schemes that keep it. -/
theorem length_checks_guard_slices :
    (∀ sch : Scheme, sch.SplitsAtDeclaredSizes blake2b256) ∧
    (∀ (addr : SchemeRef) (name : String) (A B : Kem.Scheme),
      A.LengthDiscipline → B.LengthDiscipline →
      ((new addr name A B).toKem blake2b256).LengthDiscipline) ∧
    ∀ nesting : Nesting, (∀ S ∈ nesting.leaves, S.LengthDiscipline) →
      (nesting.toScheme blake2b256).LengthDiscipline :=
  ⟨splitsAtDeclaredSizes blake2b256,
    fun addr name A B => @lengthDiscipline_of_components blake2b256 (new addr name A B),
    Nesting.induction_on_leaves blake2b256 Kem.Scheme.LengthDiscipline
      fun addr name A B => @lengthDiscipline_of_components blake2b256 (new addr name A B)⟩

/-- Both `seedEcho` components, and so their hybrid, keep the length discipline. -/
theorem length_checks_guard_slices_seedEcho :
    (Kem.Scheme.seedEcho 1).LengthDiscipline ∧ (Kem.Scheme.seedEcho 2).LengthDiscipline ∧
      (echoPair.toKem fun _ => Digest.zero).LengthDiscipline :=
  ⟨Kem.Scheme.seedEcho_lengthDiscipline, Kem.Scheme.seedEcho_lengthDiscipline,
    (length_checks_guard_slices fun _ => Digest.zero).2.1 3 "echo-pair" _ _
      Kem.Scheme.seedEcho_lengthDiscipline Kem.Scheme.seedEcho_lengthDiscipline⟩

/-! ## Implicit rejection -/

variable {blake2b256}

/-- The hybrid of two schemes that reject implicitly rejects implicitly: on its own private
key and a ciphertext of its size, each component decapsulates its own share. -/
theorem rejectsImplicitly_of_components (first : sch.first.RejectsImplicitly)
    (second : sch.second.RejectsImplicitly) : (sch.toKem blake2b256).RejectsImplicitly := by
  intro sk ct owned exactLength
  obtain ⟨sk1, sk2, rfl, owned1, owned2⟩ := privateKeyOf_toKem owned
  have shares := share_lengths Kem.Scheme.ciphertextSize exactLength
  obtain ⟨ss1, decapsulated1⟩ := first owned1 shares.1
  obtain ⟨ss2, decapsulated2⟩ := second owned2 shares.2
  rw [toKem_decapsulate, decapsulate_hybrid exactLength, decapsulated1, decapsulated2]
  exact ⟨_, rfl⟩

variable (blake2b256)

/-- Implicit rejection passes from the leaves to every nesting of `hybrid.New`: on each
private key of the nesting and each ciphertext of its `CiphertextSize()` bytes,
`Decapsulate` returns a secret and never an error or a panic. -/
theorem implicit_rejection_under_nesting :
    ∀ nesting : Nesting, (∀ S ∈ nesting.leaves, S.RejectsImplicitly) →
      (nesting.toScheme blake2b256).RejectsImplicitly :=
  Nesting.induction_on_leaves blake2b256 Kem.Scheme.RejectsImplicitly
    fun addr name A B => @rejectsImplicitly_of_components blake2b256 (new addr name A B)

/-- Both leaves of `echoPair` reject implicitly, and so does the nesting. -/
theorem implicit_rejection_under_nesting_seedEcho :
    (∀ S ∈ (Nesting.hybrid 3 "echo-pair" (.leaf (Kem.Scheme.seedEcho 1))
      (.leaf (Kem.Scheme.seedEcho 2))).leaves, S.RejectsImplicitly) ∧
    ((Nesting.hybrid 3 "echo-pair" (.leaf (Kem.Scheme.seedEcho 1))
      (.leaf (Kem.Scheme.seedEcho 2))).toScheme fun _ => Digest.zero).RejectsImplicitly := by
  have atLeaves : ∀ S ∈ (Nesting.hybrid 3 "echo-pair" (.leaf (Kem.Scheme.seedEcho 1))
      (.leaf (Kem.Scheme.seedEcho 2))).leaves, S.RejectsImplicitly := by
    intro S mem
    simp only [Nesting.leaves, List.singleton_append, List.mem_cons, List.mem_singleton,
      List.not_mem_nil, or_false] at mem
    rcases mem with rfl | rfl <;> exact Kem.Scheme.seedEcho_rejectsImplicitly
  exact ⟨atLeaves, implicit_rejection_under_nesting _ _ atLeaves⟩

/-! ## The declared shared-key size -/

variable {blake2b256}

/-- Every shared secret of deterministic encapsulation is one digest long. -/
theorem encapsulateDeterministically_secret_length {pk : PublicKey} {seed ct ss : Bytes}
    (encapsulated : sch.encapsulateDeterministically blake2b256 pk seed = .ok (ct, ss)) :
    ss.length = 32 := by
  obtain ⟨-, _, _, _, _, _, _, _, -, -, -, -, rfl⟩ :=
    encapsulateDeterministically_eq_ok encapsulated
  exact pairSplitPRF_length ..

/-- Every shared secret of decapsulation is one digest long. -/
theorem decapsulate_secret_length {sk : PrivateKey} {ct ss : Bytes}
    (decapsulated : sch.decapsulate blake2b256 sk ct = .ok ss) : ss.length = 32 := by
  by_cases exactLength : ct.length = sch.ciphertextSize
  · cases sk with
    | hybrid =>
      rw [decapsulate_hybrid exactLength] at decapsulated
      obtain ⟨_, -, rest⟩ := Go.bind_eq_ok.1 decapsulated
      obtain ⟨_, -, done⟩ := Go.bind_eq_ok.1 rest
      rw [← Except.ok.inj done, pairSplitPRF_length]
    | _ => simp [decapsulate_of_not_hybrid exactLength] at decapsulated
  · simp [decapsulate_of_length_ne exactLength] at decapsulated

variable (blake2b256)

/-- The hybrid declares the sum of its components' shared-key sizes, while every secret it
returns is one 32-byte digest: for two components of one byte each, the declared size is
2 and the secret of a key pair of the hybrid is 32 bytes long. -/
theorem sharedKeySize_disagrees_with_secrets :
    (echoPair.toKem blake2b256).sharedKeySize = 2 ∧
      (echoPair.toKem blake2b256).deriveKeyPair [0, 0] =
        .ok (.hybrid 3 (.foreign 0 [0]) (.foreign 0 [0]),
          .hybrid 3 (.foreign 1 [0]) (.foreign 1 [0])) ∧
      ∃ ss, (echoPair.toKem blake2b256).encapsulateDeterministically
          (.hybrid 3 (.foreign 0 [0]) (.foreign 0 [0])) [0, 0] = .ok ([0, 0], ss) ∧
        (echoPair.toKem blake2b256).decapsulate
          (.hybrid 3 (.foreign 1 [0]) (.foreign 1 [0])) [0, 0] = .ok ss ∧
        ss.length = 32 :=
  ⟨rfl, rfl, _, rfl, rfl, pairSplitPRF_length ..⟩

/-! ## Splitting, not expanding, the seed -/

variable {blake2b256}

/-- Seeds that agree on their first `first.SeedSize()` bytes hand the first component the
same share, so whenever `DeriveKeyPair` succeeds on both, the first component's keys are
the same in both results; likewise for `EncapsulateDeterministically` and the first
`first.EncapsulationSeedSize()` bytes, whose first ciphertext and secret are the same. -/
theorem first_share_ignores_rest :
    (∀ {seed seed' : Bytes} {pk pk' : PublicKey} {sk sk' : PrivateKey},
      seed.length = sch.seedSize → seed'.length = sch.seedSize →
      seed.take sch.first.seedSize = seed'.take sch.first.seedSize →
      sch.deriveKeyPair seed = .ok (pk, sk) → sch.deriveKeyPair seed' = .ok (pk', sk') →
      ∃ pk1 sk1 pk2 sk2 pk2' sk2',
        sch.first.deriveKeyPair (seed.take sch.first.seedSize) = .ok (pk1, sk1) ∧
        pk = .hybrid sch.addr pk1 pk2 ∧ sk = .hybrid sch.addr sk1 sk2 ∧
        pk' = .hybrid sch.addr pk1 pk2' ∧ sk' = .hybrid sch.addr sk1 sk2') ∧
    ∀ {pk : PublicKey} {seed seed' ct ct' ss ss' : Bytes},
      seed.take sch.first.encapsulationSeedSize = seed'.take sch.first.encapsulationSeedSize →
      sch.encapsulateDeterministically blake2b256 pk seed = .ok (ct, ss) →
      sch.encapsulateDeterministically blake2b256 pk seed' = .ok (ct', ss') →
      ∃ pk1 ct1 ss1 ct2 ss2 ct2' ss2',
        sch.first.encapsulateDeterministically pk1
          (seed.take sch.first.encapsulationSeedSize) = .ok (ct1, ss1) ∧
        ct = ct1 ++ ct2 ∧ ss = pairSplitPRF blake2b256 ss1 ss2 ct1 ct2 ∧
        ct' = ct1 ++ ct2' ∧ ss' = pairSplitPRF blake2b256 ss1 ss2' ct1 ct2' := by
  constructor
  · intro seed seed' pk pk' sk sk' exactLength exactLength' samePrefix derived derived'
    obtain ⟨pk1, sk1, pk2, sk2, rfl, rfl, first, -⟩ := deriveKeyPair_eq_ok exactLength derived
    obtain ⟨pk1', sk1', pk2', sk2', rfl, rfl, first', -⟩ :=
      deriveKeyPair_eq_ok exactLength' derived'
    rw [← samePrefix, first] at first'
    cases first'
    exact ⟨pk1, sk1, pk2, sk2, pk2', sk2', first, rfl, rfl, rfl, rfl⟩
  · intro pk seed seed' ct ct' ss ss' samePrefix encapsulated encapsulated'
    obtain ⟨-, _, pk1, _, ct1, ss1, ct2, ss2, rfl, first, -, rfl, rfl⟩ :=
      encapsulateDeterministically_eq_ok encapsulated
    obtain ⟨-, _, _, _, ct1', ss1', ct2', ss2', ⟨⟩, first', -, rfl, rfl⟩ :=
      encapsulateDeterministically_eq_ok encapsulated'
    rw [← samePrefix, first] at first'
    cases first'
    exact ⟨pk1, ct1, ss1, ct2, ss2, ct2', ss2', first, rfl, rfl, rfl, rfl⟩

/-- The seeds `[0, 0]` and `[0, 1]` give `echoPair` key pairs with one first component, and
`[5, 0]` and `[5, 1]` encapsulate to one first ciphertext byte from one first secret. -/
theorem first_share_ignores_rest_echoPair :
    echoPair.deriveKeyPair [0, 0] =
        .ok (.hybrid 3 (.foreign 0 [0]) (.foreign 0 [0]), .hybrid 3 (.foreign 1 [0]) (.foreign 1 [0])) ∧
      echoPair.deriveKeyPair [0, 1] =
        .ok (.hybrid 3 (.foreign 0 [0]) (.foreign 0 [1]), .hybrid 3 (.foreign 1 [0]) (.foreign 1 [1])) ∧
      (∃ pk1 sk1 pk2 sk2 pk2' sk2',
        echoPair.first.deriveKeyPair ([0, 0].take echoPair.first.seedSize) = .ok (pk1, sk1) ∧
        PublicKey.hybrid 3 (.foreign 0 [0]) (.foreign 0 [0]) = .hybrid echoPair.addr pk1 pk2 ∧
        PrivateKey.hybrid 3 (.foreign 1 [0]) (.foreign 1 [0]) = .hybrid echoPair.addr sk1 sk2 ∧
        PublicKey.hybrid 3 (.foreign 0 [0]) (.foreign 0 [1]) = .hybrid echoPair.addr pk1 pk2' ∧
        PrivateKey.hybrid 3 (.foreign 1 [0]) (.foreign 1 [1]) = .hybrid echoPair.addr sk1 sk2') ∧
      echoPair.encapsulateDeterministically (fun _ => Digest.zero)
          (.hybrid 3 (.foreign 0 [0]) (.foreign 0 [0])) [5, 0] =
        .ok ([5, 0], pairSplitPRF (fun _ => Digest.zero) [5] [0] [5] [0]) ∧
      echoPair.encapsulateDeterministically (fun _ => Digest.zero)
          (.hybrid 3 (.foreign 0 [0]) (.foreign 0 [0])) [5, 1] =
        .ok ([5, 1], pairSplitPRF (fun _ => Digest.zero) [5] [1] [5] [1]) ∧
      ∃ pk1 ct1 ss1 ct2 ss2 ct2' ss2',
        echoPair.first.encapsulateDeterministically pk1
          ([5, 0].take echoPair.first.encapsulationSeedSize) = .ok (ct1, ss1) ∧
        [5, 0] = ct1 ++ ct2 ∧
        pairSplitPRF (fun _ => Digest.zero) [5] [0] [5] [0] =
          pairSplitPRF (fun _ => Digest.zero) ss1 ss2 ct1 ct2 ∧
        [5, 1] = ct1 ++ ct2' ∧
        pairSplitPRF (fun _ => Digest.zero) [5] [1] [5] [1] =
          pairSplitPRF (fun _ => Digest.zero) ss1 ss2' ct1 ct2' := by
  have derived : echoPair.deriveKeyPair [0, 0] =
      .ok (.hybrid 3 (.foreign 0 [0]) (.foreign 0 [0]), .hybrid 3 (.foreign 1 [0]) (.foreign 1 [0])) :=
    rfl
  have derived' : echoPair.deriveKeyPair [0, 1] =
      .ok (.hybrid 3 (.foreign 0 [0]) (.foreign 0 [1]), .hybrid 3 (.foreign 1 [0]) (.foreign 1 [1])) :=
    rfl
  have encapsulated : echoPair.encapsulateDeterministically (fun _ => Digest.zero)
      (.hybrid 3 (.foreign 0 [0]) (.foreign 0 [0])) [5, 0] =
        .ok ([5, 0], pairSplitPRF (fun _ => Digest.zero) [5] [0] [5] [0]) := rfl
  have encapsulated' : echoPair.encapsulateDeterministically (fun _ => Digest.zero)
      (.hybrid 3 (.foreign 0 [0]) (.foreign 0 [0])) [5, 1] =
        .ok ([5, 1], pairSplitPRF (fun _ => Digest.zero) [5] [1] [5] [1]) := rfl
  have samePrefix : ([5, 0] : Bytes).take echoPair.first.encapsulationSeedSize =
      ([5, 1] : Bytes).take echoPair.first.encapsulationSeedSize := rfl
  have firstShare := @first_share_ignores_rest (fun _ => Digest.zero) echoPair
  exact ⟨derived, derived', firstShare.1 (show ([0, 0] : Bytes).length = echoPair.seedSize from rfl)
      (show ([0, 1] : Bytes).length = echoPair.seedSize from rfl) rfl derived derived',
    encapsulated, encapsulated', firstShare.2 samePrefix encapsulated encapsulated'⟩

end Hpqc.Kem.Hybrid.Scheme
