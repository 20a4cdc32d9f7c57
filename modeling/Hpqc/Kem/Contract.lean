import Hpqc.Kem.Hybrid.Keys

/-!
# What a KEM scheme promises

The contracts every scheme of the library is expected to meet, stated for any
`kem.Scheme` value. The keys of a scheme are the keys its own methods hand out. The
hybrid theorems show that a hybrid meets each contract whenever its two components do,
so that it holds for every nesting of `hybrid.New`.
-/

namespace Hpqc.Kem

namespace Scheme

variable (S : Scheme) (rt : Runtime)

/-- The key pairs of `S`: those of `DeriveKeyPair` on a seed of length `SeedSize()`, and
those of `GenerateKeyPair` on any random stream. -/
inductive KeyPairOf : PublicKey → PrivateKey → Prop
  | derive {seed pk sk} (exactLength : seed.length = S.seedSize)
      (derived : S.deriveKeyPair seed = .ok (pk, sk)) : KeyPairOf pk sk
  | generate {rng rng' pk sk} (generated : S.generateKeyPair rng = .ok ((pk, sk), rng')) :
      KeyPairOf pk sk

/-- Decapsulation inverts deterministic encapsulation on every key pair and every seed of
length `EncapsulationSeedSize()`. -/
def Correct : Prop :=
  ∀ {pk sk seed ct ss}, S.KeyPairOf pk sk → seed.length = S.encapsulationSeedSize →
    S.encapsulateDeterministically pk seed = .ok (ct, ss) → S.decapsulate sk ct = .ok ss

/-- Every ciphertext of deterministic encapsulation, as in `Correct`, has length
`CiphertextSize()`. -/
def CiphertextConformant : Prop :=
  ∀ {pk sk seed ct ss}, S.KeyPairOf pk sk → seed.length = S.encapsulationSeedSize →
    S.encapsulateDeterministically pk seed = .ok (ct, ss) → ct.length = S.ciphertextSize

/-- The private keys of `S`: those its key pairs hold and those it unmarshals. -/
inductive PrivateKeyOf : PrivateKey → Prop
  | derive {seed pk sk} (exactLength : seed.length = S.seedSize)
      (derived : S.deriveKeyPair seed = .ok (pk, sk)) : PrivateKeyOf sk
  | generate {rng rng' pk sk} (generated : S.generateKeyPair rng = .ok ((pk, sk), rng')) :
      PrivateKeyOf sk
  | unmarshal {buf sk} (accepted : S.unmarshalBinaryPrivateKey buf = .ok sk) : PrivateKeyOf sk

/-- The public keys of `S`: those its key pairs hold, those it unmarshals, and the
`Public()` of its private keys. -/
inductive PublicKeyOf : PublicKey → Prop
  | derive {seed pk sk} (exactLength : seed.length = S.seedSize)
      (derived : S.deriveKeyPair seed = .ok (pk, sk)) : PublicKeyOf pk
  | generate {rng rng' pk sk} (generated : S.generateKeyPair rng = .ok ((pk, sk), rng')) :
      PublicKeyOf pk
  | unmarshal {buf pk} (accepted : S.unmarshalBinaryPublicKey buf = .ok pk) : PublicKeyOf pk
  | public {sk pk} (owner : S.PrivateKeyOf sk) (derived : sk.public rt = .ok pk) :
      PublicKeyOf pk

/-- The three laws of a binary key encoding of fixed size: every key marshals to `size`
bytes, unmarshalling its encoding gives a key `Equal` to it, and every buffer the
unmarshaller accepts is the encoding of what it returns. -/
structure EncodingLaws {Key : Type} (keyOf : Key → Prop) (marshal : Key → Go Bytes)
    (equal : Key → Key → Go Bool) (unmarshal : Bytes → Go Key) (size : Nat) : Prop where
  marshal_length : ∀ {key}, keyOf key → ∃ buf, marshal key = .ok buf ∧ buf.length = size
  unmarshal_marshal : ∀ {key buf}, keyOf key → marshal key = .ok buf →
    ∃ key', unmarshal buf = .ok key' ∧ equal key' key = .ok true
  marshal_unmarshal : ∀ {buf key}, unmarshal buf = .ok key → marshal key = .ok buf

/-- The encoding laws for the public keys of `S`. -/
def PublicEncoding : Prop :=
  EncodingLaws (S.PublicKeyOf rt) (·.marshalBinary rt) (·.equal rt) S.unmarshalBinaryPublicKey
    S.publicKeySize

/-- The encoding laws for the private keys of `S`. -/
def PrivateEncoding : Prop :=
  EncodingLaws S.PrivateKeyOf (·.marshalBinary rt) (·.equal rt) S.unmarshalBinaryPrivateKey
    S.privateKeySize

/-- The private key of every key pair knows its public key: `sk.Public()` returns `pk`. -/
def PublicOfPrivate : Prop :=
  ∀ {pk sk}, S.KeyPairOf pk sk → sk.public rt = .ok pk

/-- The length discipline of `S`: each size error comes exactly from an input whose length
differs from the declared size, `DeriveKeyPair` panics exactly on such a seed, and no
method panics on a slice bound. -/
structure LengthDiscipline : Prop where
  deriveKeyPair : ∀ seed,
    (∃ p, S.deriveKeyPair seed = .error (.panic p)) ↔ seed.length ≠ S.seedSize
  encapsulateDeterministically : ∀ pk seed,
    S.encapsulateDeterministically pk seed = .error (.error .errSeedSize) ↔
      seed.length ≠ S.encapsulationSeedSize
  decapsulate : ∀ sk ct,
    S.decapsulate sk ct = .error (.error .errCiphertextSize) ↔ ct.length ≠ S.ciphertextSize
  unmarshalBinaryPublicKey : ∀ buf,
    S.unmarshalBinaryPublicKey buf = .error (.error .errPubKeySize) ↔
      buf.length ≠ S.publicKeySize
  unmarshalBinaryPrivateKey : ∀ buf,
    S.unmarshalBinaryPrivateKey buf = .error (.error .errPrivKeySize) ↔
      buf.length ≠ S.privateKeySize
  noSliceBounds : ∀ pk sk seed buf,
    S.encapsulateDeterministically pk seed ≠ .error (.panic .sliceBounds) ∧
    S.decapsulate sk buf ≠ .error (.panic .sliceBounds) ∧
    S.unmarshalBinaryPublicKey buf ≠ .error (.panic .sliceBounds) ∧
    S.unmarshalBinaryPrivateKey buf ≠ .error (.panic .sliceBounds)

/-- `Decapsulate` rejects implicitly: on every private key of `S` and every ciphertext of
`CiphertextSize()` bytes it returns a shared secret, and never fails. -/
def RejectsImplicitly : Prop :=
  ∀ {sk ct}, S.PrivateKeyOf sk → ct.length = S.ciphertextSize →
    ∃ ss, S.decapsulate sk ct = .ok ss

/-! ## A scheme that meets every contract

A one-byte KEM whose keys hold the seed, and whose ciphertext and shared secret are the
encapsulation seed itself. It instantiates the hypotheses of the hybrid theorems. -/

/-- A `kem.Scheme` value at `ref` whose every size is one byte; its public keys are of
dynamic type `0` and its private keys of type `1`, both holding the seed. -/
def seedEcho (ref : SchemeRef) : Scheme where
  ref := ref
  name := "seed-echo"
  publicKeySize := 1
  privateKeySize := 1
  seedSize := 1
  sharedKeySize := 1
  ciphertextSize := 1
  encapsulationSeedSize := 1
  generateKeyPair := do
    let seed ← readFull 1
    return (.foreign 0 seed, .foreign 1 seed)
  deriveKeyPair seed :=
    if seed.length = 1 then pure (.foreign 0 seed, .foreign 1 seed)
    else throw (.panic (.message "seed size must be 1"))
  encapsulate _ := do
    let seed ← readFull 1
    return (seed, seed)
  encapsulateDeterministically _ seed :=
    if seed.length = 1 then pure (seed, seed) else throw (.error .errSeedSize)
  decapsulate _ ct := if ct.length = 1 then pure ct else throw (.error .errCiphertextSize)
  unmarshalBinaryPublicKey buf :=
    if buf.length = 1 then pure (.foreign 0 buf) else throw (.error .errPubKeySize)
  unmarshalBinaryPrivateKey buf :=
    if buf.length = 1 then pure (.foreign 1 buf) else throw (.error .errPrivKeySize)

end Scheme

/-- Key methods that read a foreign key's state: it is its own encoding, two keys are
`Equal` when they are the same value, and the public key of a private key of type `1`
is the key of type `0` with the same state. -/
def Runtime.byState : Runtime where
  marshalPublic _ state := pure state
  marshalPrivate _ state := pure state
  equalPublic kind state other := pure (other == .foreign kind state)
  equalPrivate kind state other := pure (other == .foreign kind state)
  publicOf _ state := pure (.foreign 0 state)

namespace Scheme

variable {ref : SchemeRef}

/-- `seedEcho` decapsulates every ciphertext it encapsulates to the secret it returned. -/
theorem seedEcho_correct : (seedEcho ref).Correct := by
  intro pk sk seed ct ss _ exactLength encapsulated
  obtain ⟨-, ⟨⟩⟩ := Go.ite_pure_throw_eq_ok.1 encapsulated
  exact Go.ite_pure_throw_eq_ok.2 ⟨exactLength, rfl⟩

/-- Every ciphertext `seedEcho` encapsulates is `CiphertextSize()` bytes long. -/
theorem seedEcho_ciphertextConformant : (seedEcho ref).CiphertextConformant := by
  intro pk sk seed ct ss _ exactLength encapsulated
  obtain ⟨-, ⟨⟩⟩ := Go.ite_pure_throw_eq_ok.1 encapsulated
  exact exactLength

/-- Both keys of a key pair of `seedEcho` hold the same single byte. -/
theorem seedEcho_keyPairOf {pk : PublicKey} {sk : PrivateKey}
    (pair : (seedEcho ref).KeyPairOf pk sk) :
    ∃ state, pk = .foreign 0 state ∧ sk = .foreign 1 state ∧ state.length = 1 := by
  cases pair with
  | derive exactLength derived =>
    obtain ⟨-, ⟨⟩⟩ := Go.ite_pure_throw_eq_ok.1 derived
    exact ⟨_, rfl, rfl, exactLength⟩
  | generate generated =>
    obtain ⟨seed, rest, read, built⟩ := Go.stateBind_eq_ok.1 generated
    obtain ⟨inStream, rfl, -⟩ := readFull_eq_ok read
    cases built
    exact ⟨_, rfl, rfl, List.length_take_of_le inStream⟩

/-- Every private key of `seedEcho` is a one-byte key of type `1`. -/
theorem seedEcho_privateKeyOf {sk : PrivateKey} (owned : (seedEcho ref).PrivateKeyOf sk) :
    ∃ state, sk = .foreign 1 state ∧ state.length = 1 := by
  cases owned with
  | derive exactLength derived =>
    obtain ⟨state, -, rfl, length⟩ := seedEcho_keyPairOf (.derive exactLength derived)
    exact ⟨state, rfl, length⟩
  | generate generated =>
    obtain ⟨state, -, rfl, length⟩ := seedEcho_keyPairOf (.generate generated)
    exact ⟨state, rfl, length⟩
  | unmarshal accepted =>
    obtain ⟨length, ⟨⟩⟩ := Go.ite_pure_throw_eq_ok.1 accepted
    exact ⟨_, rfl, length⟩

/-- Every public key of `seedEcho` is a one-byte key of type `0`. -/
theorem seedEcho_publicKeyOf {pk : PublicKey} (owned : (seedEcho ref).PublicKeyOf .byState pk) :
    ∃ state, pk = .foreign 0 state ∧ state.length = 1 := by
  cases owned with
  | derive exactLength derived =>
    obtain ⟨state, rfl, -, length⟩ := seedEcho_keyPairOf (.derive exactLength derived)
    exact ⟨state, rfl, length⟩
  | generate generated =>
    obtain ⟨state, rfl, -, length⟩ := seedEcho_keyPairOf (.generate generated)
    exact ⟨state, rfl, length⟩
  | unmarshal accepted =>
    obtain ⟨length, ⟨⟩⟩ := Go.ite_pure_throw_eq_ok.1 accepted
    exact ⟨_, rfl, length⟩
  | public owner derived =>
    obtain ⟨state, rfl, length⟩ := seedEcho_privateKeyOf owner
    exact ⟨state, (Except.ok.inj derived).symm, length⟩

/-- The private key of each `seedEcho` key pair has the pair's public key as `Public()`. -/
theorem seedEcho_publicOfPrivate : (seedEcho ref).PublicOfPrivate .byState := by
  intro pk sk pair
  obtain ⟨state, rfl, rfl, -⟩ := seedEcho_keyPairOf pair
  rfl

/-- `seedEcho`'s public keys meet the three encoding laws. -/
theorem seedEcho_publicEncoding : (seedEcho ref).PublicEncoding .byState := by
  refine ⟨fun owned => ?_, fun owned marshalled => ?_, fun accepted => ?_⟩
  · obtain ⟨state, rfl, length⟩ := seedEcho_publicKeyOf owned
    exact ⟨state, rfl, length⟩
  · obtain ⟨state, rfl, length⟩ := seedEcho_publicKeyOf owned
    obtain rfl : state = _ := Except.ok.inj marshalled
    exact ⟨.foreign 0 state, by simp [seedEcho, length],
      by simp [PublicKey.equal, Runtime.byState]⟩
  · obtain ⟨-, ⟨⟩⟩ := Go.ite_pure_throw_eq_ok.1 accepted
    rfl

/-- `seedEcho`'s private keys meet the three encoding laws. -/
theorem seedEcho_privateEncoding : (seedEcho ref).PrivateEncoding .byState := by
  refine ⟨fun owned => ?_, fun owned marshalled => ?_, fun accepted => ?_⟩
  · obtain ⟨state, rfl, length⟩ := seedEcho_privateKeyOf owned
    exact ⟨state, rfl, length⟩
  · obtain ⟨state, rfl, length⟩ := seedEcho_privateKeyOf owned
    obtain rfl : state = _ := Except.ok.inj marshalled
    exact ⟨.foreign 1 state, by simp [seedEcho, length],
      by simp [PrivateKey.equal, Runtime.byState]⟩
  · obtain ⟨-, ⟨⟩⟩ := Go.ite_pure_throw_eq_ok.1 accepted
    rfl

/-- `seedEcho` fails on an input of the wrong length, with its size error or panic, and on no
other. -/
theorem seedEcho_lengthDiscipline : (seedEcho ref).LengthDiscipline where
  deriveKeyPair seed := by by_cases h : seed.length = 1 <;> simp [seedEcho, h]
  encapsulateDeterministically _ seed := by by_cases h : seed.length = 1 <;> simp [seedEcho, h]
  decapsulate _ ct := by by_cases h : ct.length = 1 <;> simp [seedEcho, h]
  unmarshalBinaryPublicKey buf := by by_cases h : buf.length = 1 <;> simp [seedEcho, h]
  unmarshalBinaryPrivateKey buf := by by_cases h : buf.length = 1 <;> simp [seedEcho, h]
  noSliceBounds _ _ seed buf := by
    refine ⟨?_, ?_, ?_, ?_⟩ <;> simp only [seedEcho] <;> split <;> simp

/-- `seedEcho` returns a secret for every ciphertext of its `CiphertextSize()`. -/
theorem seedEcho_rejectsImplicitly : (seedEcho ref).RejectsImplicitly :=
  fun _ exactLength => ⟨_, Go.ite_pure_throw_eq_ok.2 ⟨exactLength, rfl⟩⟩

end Scheme

namespace Hybrid

/-- The hybrid of the `seedEcho` schemes at `1` and `2`, at address `3`. -/
def echoPair : Scheme := new 3 "echo-pair" (Kem.Scheme.seedEcho 1) (Kem.Scheme.seedEcho 2)

/-- A second hybrid of the same two components under another name, at address `4`. -/
def echoPairCopy : Scheme := new 4 "echo-pair-copy" (Kem.Scheme.seedEcho 1) (Kem.Scheme.seedEcho 2)

end Hybrid

end Hpqc.Kem
