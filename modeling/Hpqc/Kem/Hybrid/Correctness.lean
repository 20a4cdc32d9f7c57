import Hpqc.Kem.Contract

/-!
# Decapsulation inverts encapsulation

A key pair of a hybrid is a pair of component key pairs, and a ciphertext of its
deterministic encapsulation is the two component ciphertexts back to back. When each
component's ciphertexts have its declared size, `Decapsulate` splits exactly where
`EncapsulateDeterministically` joined, so each component recovers its secret and the
split PRF sees the same inputs on both sides.
-/

namespace Hpqc.Kem.Hybrid.Scheme

variable {blake2b256 : Bytes → Digest} {sch : Scheme}

/-- A successful `DeriveKeyPair` pairs the components' keys from the two shares. -/
theorem deriveKeyPair_eq_ok {seed : Bytes} {pk : PublicKey} {sk : PrivateKey}
    (exactLength : seed.length = sch.seedSize) (derived : sch.deriveKeyPair seed = .ok (pk, sk)) :
    ∃ pk1 sk1 pk2 sk2, pk = .hybrid sch.addr pk1 pk2 ∧ sk = .hybrid sch.addr sk1 sk2 ∧
      sch.first.deriveKeyPair (seed.take sch.first.seedSize) = .ok (pk1, sk1) ∧
      sch.second.deriveKeyPair (seed.drop sch.first.seedSize) = .ok (pk2, sk2) := by
  rw [deriveKeyPair_of_length exactLength] at derived
  obtain ⟨⟨pk1, sk1⟩, first, rest⟩ := Go.bind_eq_ok.1 derived
  obtain ⟨⟨pk2, sk2⟩, second, done⟩ := Go.bind_eq_ok.1 rest
  cases done
  exact ⟨pk1, sk1, pk2, sk2, rfl, rfl, first, second⟩

/-- A successful `GenerateKeyPair` pairs a key pair of each component. -/
theorem generateKeyPair_eq_ok {rng rng' : Rng} {pk : PublicKey} {sk : PrivateKey}
    (generated : sch.generateKeyPair rng = .ok ((pk, sk), rng')) :
    ∃ pk1 sk1 pk2 sk2 rng₁, pk = .hybrid sch.addr pk1 pk2 ∧ sk = .hybrid sch.addr sk1 sk2 ∧
      sch.first.generateKeyPair rng = .ok ((pk1, sk1), rng₁) ∧
      sch.second.generateKeyPair rng₁ = .ok ((pk2, sk2), rng') := by
  obtain ⟨⟨pk1, sk1⟩, rng₁, first, rest⟩ := Go.stateBind_eq_ok.1 generated
  obtain ⟨⟨pk2, sk2⟩, rng₂, second, done⟩ := Go.stateBind_eq_ok.1 rest
  cases done
  exact ⟨pk1, sk1, pk2, sk2, rng₁, rfl, rfl, first, second⟩

/-- Each share of a seed of the hybrid's length has its component's length. -/
theorem share_lengths {seed : Bytes} (size : Kem.Scheme → Nat)
    (exactLength : seed.length = sch.sumSize size) :
    (seed.take (size sch.first)).length = size sch.first ∧
      (seed.drop (size sch.first)).length = size sch.second := by
  simp only [sumSize] at exactLength
  simp [exactLength]

/-- Every key pair of the hybrid is a key pair of the first component beside one of the
second, under the hybrid's own scheme. -/
theorem keyPairOf_toKem {pk : PublicKey} {sk : PrivateKey}
    (pair : (sch.toKem blake2b256).KeyPairOf pk sk) :
    ∃ pk1 sk1 pk2 sk2, pk = .hybrid sch.addr pk1 pk2 ∧ sk = .hybrid sch.addr sk1 sk2 ∧
      sch.first.KeyPairOf pk1 sk1 ∧ sch.second.KeyPairOf pk2 sk2 := by
  cases pair with
  | derive exactLength derived =>
    obtain ⟨pk1, sk1, pk2, sk2, rfl, rfl, first, second⟩ :=
      deriveKeyPair_eq_ok exactLength derived
    have shares := share_lengths Kem.Scheme.seedSize exactLength
    exact ⟨pk1, sk1, pk2, sk2, rfl, rfl, .derive shares.1 first, .derive shares.2 second⟩
  | generate generated =>
    obtain ⟨pk1, sk1, pk2, sk2, _, rfl, rfl, first, second⟩ := generateKeyPair_eq_ok generated
    exact ⟨pk1, sk1, pk2, sk2, rfl, rfl, .generate first, .generate second⟩

/-- A successful deterministic encapsulation had a seed of the right length and a hybrid
key, and joins what its components returned on the two shares. -/
theorem encapsulateDeterministically_eq_ok {pk : PublicKey} {seed ct ss : Bytes}
    (encapsulated : sch.encapsulateDeterministically blake2b256 pk seed = .ok (ct, ss)) :
    seed.length = sch.encapsulationSeedSize ∧
      ∃ scheme pk1 pk2 ct1 ss1 ct2 ss2, pk = .hybrid scheme pk1 pk2 ∧
        sch.first.encapsulateDeterministically pk1
          (seed.take sch.first.encapsulationSeedSize) = .ok (ct1, ss1) ∧
        sch.second.encapsulateDeterministically pk2
          (seed.drop sch.first.encapsulationSeedSize) = .ok (ct2, ss2) ∧
        ct = ct1 ++ ct2 ∧ ss = pairSplitPRF blake2b256 ss1 ss2 ct1 ct2 := by
  by_cases exactLength : seed.length = sch.encapsulationSeedSize
  · refine ⟨exactLength, ?_⟩
    cases pk with
    | hybrid scheme pk1 pk2 =>
      rw [encapsulateDeterministically_hybrid exactLength] at encapsulated
      obtain ⟨⟨ct1, ss1⟩, first, rest⟩ := Go.bind_eq_ok.1 encapsulated
      obtain ⟨⟨ct2, ss2⟩, second, done⟩ := Go.bind_eq_ok.1 rest
      cases done
      exact ⟨scheme, pk1, pk2, ct1, ss1, ct2, ss2, rfl, first, second, rfl, rfl⟩
    | _ => simp [encapsulateDeterministically_of_not_hybrid exactLength] at encapsulated
  · simp [encapsulateDeterministically_of_length_ne exactLength] at encapsulated

/-- `Encapsulate` is `EncapsulateDeterministically` on a seed of `EncapsulationSeedSize()`
bytes, the stream's next bytes padded with zeros after a short read. -/
theorem encapsulate_eq_ok {pk : PublicKey} {rng rng' : Rng} {ct ss : Bytes}
    (encapsulated : sch.encapsulate blake2b256 pk rng = .ok ((ct, ss), rng')) :
    ∃ seed, seed.length = sch.encapsulationSeedSize ∧
      sch.encapsulateDeterministically blake2b256 pk seed = .ok (ct, ss) := by
  obtain ⟨seed, rest, drawn, lifted⟩ := Go.stateBind_eq_ok.1 encapsulated
  exact ⟨seed, (read_eq_ok drawn).1, (Go.lift_eq_ok.1 lifted).1⟩

/-- `Decapsulate` of two component ciphertexts of their declared sizes decapsulates each
with its own key and mixes the secrets with those same two ciphertexts. -/
theorem decapsulate_append {scheme : SchemeRef} {first second : PrivateKey} {ct1 ct2 : Bytes}
    (firstLength : ct1.length = sch.first.ciphertextSize)
    (secondLength : ct2.length = sch.second.ciphertextSize) :
    sch.decapsulate blake2b256 (.hybrid scheme first second) (ct1 ++ ct2) = (do
      let ss1 ← sch.first.decapsulate first ct1
      let ss2 ← sch.second.decapsulate second ct2
      return pairSplitPRF blake2b256 ss1 ss2 ct1 ct2) := by
  rw [decapsulate_hybrid (by simp [firstLength, secondLength])]
  simp only [List.take_left' firstLength, List.drop_left' firstLength]

/-- The hybrid of two correct, ciphertext-length-conformant KEMs is correct and
ciphertext-length-conformant. -/
theorem correct_of_components {A B : Kem.Scheme} (addr : SchemeRef) (name : String)
    (correctFirst : A.Correct) (conformantFirst : A.CiphertextConformant)
    (correctSecond : B.Correct) (conformantSecond : B.CiphertextConformant) :
    ((new addr name A B).toKem blake2b256).Correct ∧
      ((new addr name A B).toKem blake2b256).CiphertextConformant := by
  constructor
  all_goals
    intro pk sk seed ct ss pair seedLength encapsulated
    obtain ⟨pk1, sk1, pk2, sk2, rfl, rfl, pair1, pair2⟩ := keyPairOf_toKem pair
    rw [toKem_encapsulateDeterministically] at encapsulated
    obtain ⟨-, _, _, _, ct1, ss1, ct2, ss2, ⟨⟩, first, second, rfl, rfl⟩ :=
      encapsulateDeterministically_eq_ok encapsulated
    have shares := share_lengths Kem.Scheme.encapsulationSeedSize seedLength
    have firstLength := conformantFirst pair1 shares.1 first
    have secondLength := conformantSecond pair2 shares.2 second
  · rw [toKem_decapsulate, decapsulate_append firstLength secondLength]
    simp [correctFirst pair1 shares.1 first, correctSecond pair2 shares.2 second]
  · simp [firstLength, secondLength]

variable (blake2b256)

/-- Decapsulation inverts deterministic encapsulation, and ciphertexts have the declared
size, for the hybrid of any two KEMs that do so, and therefore for every nesting of
`hybrid.New` over such KEMs. -/
theorem correct_under_nesting :
    (∀ (addr : SchemeRef) (name : String) (A B : Kem.Scheme),
      A.Correct → A.CiphertextConformant → B.Correct → B.CiphertextConformant →
      ((new addr name A B).toKem blake2b256).Correct ∧
        ((new addr name A B).toKem blake2b256).CiphertextConformant) ∧
    ∀ nesting : Nesting, (∀ S ∈ nesting.leaves, S.Correct ∧ S.CiphertextConformant) →
      (nesting.toScheme blake2b256).Correct ∧
        (nesting.toScheme blake2b256).CiphertextConformant :=
  ⟨fun addr name _ _ => correct_of_components addr name,
    Nesting.induction_on_leaves blake2b256 (fun S => S.Correct ∧ S.CiphertextConformant)
      fun addr name _ _ first second =>
        correct_of_components addr name first.1 first.2 second.1 second.2⟩

/-- Two `seedEcho` components are correct and conformant, and so their hybrid is correct. -/
theorem correct_under_nesting_seedEcho :
    ((Kem.Scheme.seedEcho 1).Correct ∧ (Kem.Scheme.seedEcho 1).CiphertextConformant) ∧
      ((Kem.Scheme.seedEcho 2).Correct ∧ (Kem.Scheme.seedEcho 2).CiphertextConformant) ∧
      (echoPair.toKem fun _ => Digest.zero).Correct :=
  ⟨⟨Kem.Scheme.seedEcho_correct, Kem.Scheme.seedEcho_ciphertextConformant⟩,
    ⟨Kem.Scheme.seedEcho_correct, Kem.Scheme.seedEcho_ciphertextConformant⟩,
    ((correct_under_nesting fun _ => Digest.zero).1 3 "echo-pair" _ _
      Kem.Scheme.seedEcho_correct Kem.Scheme.seedEcho_ciphertextConformant
      Kem.Scheme.seedEcho_correct Kem.Scheme.seedEcho_ciphertextConformant).1⟩

variable {blake2b256}

/-- The hybrid's private keys know their public keys whenever its components' do:
`Public()` of a hybrid private key takes each component's public key under the same
scheme. -/
theorem publicOfPrivate_of_components {rt : Runtime} (first : sch.first.PublicOfPrivate rt)
    (second : sch.second.PublicOfPrivate rt) : (sch.toKem blake2b256).PublicOfPrivate rt := by
  intro pk sk pair
  obtain ⟨pk1, sk1, pk2, sk2, rfl, rfl, pair1, pair2⟩ := keyPairOf_toKem pair
  simp [PrivateKey.public, first pair1, second pair2]

variable (blake2b256)

/-- `sk.Public()` returns the public key of its pair for the hybrid of any two KEMs whose
key pairs do so, and therefore for every nesting of `hybrid.New` over such KEMs. -/
theorem public_matches_under_nesting (rt : Runtime) :
    (∀ (addr : SchemeRef) (name : String) (A B : Kem.Scheme),
      A.PublicOfPrivate rt → B.PublicOfPrivate rt →
      ((new addr name A B).toKem blake2b256).PublicOfPrivate rt) ∧
    ∀ nesting : Nesting, (∀ S ∈ nesting.leaves, S.PublicOfPrivate rt) →
      (nesting.toScheme blake2b256).PublicOfPrivate rt :=
  ⟨fun addr name A B => @publicOfPrivate_of_components blake2b256 (new addr name A B) rt,
    Nesting.induction_on_leaves blake2b256 (·.PublicOfPrivate rt)
      fun addr name A B => @publicOfPrivate_of_components blake2b256 (new addr name A B) rt⟩

/-- Both `seedEcho` components, and so their hybrid, give each private key its pair's public
key. -/
theorem public_matches_under_nesting_seedEcho :
    (Kem.Scheme.seedEcho 1).PublicOfPrivate .byState ∧
      (Kem.Scheme.seedEcho 2).PublicOfPrivate .byState ∧
      (echoPair.toKem fun _ => Digest.zero).PublicOfPrivate .byState :=
  ⟨Kem.Scheme.seedEcho_publicOfPrivate, Kem.Scheme.seedEcho_publicOfPrivate,
    (public_matches_under_nesting (fun _ => Digest.zero) .byState).1 3 "echo-pair" _ _
      Kem.Scheme.seedEcho_publicOfPrivate Kem.Scheme.seedEcho_publicOfPrivate⟩

variable {blake2b256}

/-- `Decapsulate` inverts the randomized `Encapsulate` as well, on every key pair of the
hybrid of two correct, conformant KEMs and whatever stream it reads. -/
theorem decapsulate_inverts_encapsulate {A B : Kem.Scheme} {addr : SchemeRef} {name : String}
    (correctFirst : A.Correct) (conformantFirst : A.CiphertextConformant)
    (correctSecond : B.Correct) (conformantSecond : B.CiphertextConformant)
    {pk : PublicKey} {sk : PrivateKey} {rng rng' : Rng} {ct ss : Bytes}
    (pair : ((new addr name A B).toKem blake2b256).KeyPairOf pk sk)
    (encapsulated : (new addr name A B).encapsulate blake2b256 pk rng = .ok ((ct, ss), rng')) :
    (new addr name A B).decapsulate blake2b256 sk ct = .ok ss := by
  obtain ⟨seed, seedLength, deterministic⟩ := encapsulate_eq_ok encapsulated
  exact (correct_of_components addr name correctFirst conformantFirst correctSecond
    conformantSecond).1 pair seedLength deterministic

/-- A derived `echoPair` key pair: `Encapsulate` on the stream `[7, 7]` and `Decapsulate` of
its ciphertext agree on the secret. -/
theorem decapsulate_inverts_encapsulate_echoPair :
    (echoPair.toKem fun _ => Digest.zero).KeyPairOf (.hybrid 3 (.foreign 0 [0]) (.foreign 0 [0]))
        (.hybrid 3 (.foreign 1 [0]) (.foreign 1 [0])) ∧
      echoPair.encapsulate (fun _ => Digest.zero) (.hybrid 3 (.foreign 0 [0]) (.foreign 0 [0]))
          [7, 7] = .ok (([7, 7], pairSplitPRF (fun _ => Digest.zero) [7] [7] [7] [7]), []) ∧
      echoPair.decapsulate (fun _ => Digest.zero) (.hybrid 3 (.foreign 1 [0]) (.foreign 1 [0]))
          [7, 7] = .ok (pairSplitPRF (fun _ => Digest.zero) [7] [7] [7] [7]) := by
  have pair : (echoPair.toKem fun _ => Digest.zero).KeyPairOf
      (.hybrid 3 (.foreign 0 [0]) (.foreign 0 [0])) (.hybrid 3 (.foreign 1 [0]) (.foreign 1 [0])) :=
    @Kem.Scheme.KeyPairOf.derive _ [0, 0] _ _ rfl rfl
  have encapsulated : echoPair.encapsulate (fun _ => Digest.zero)
      (.hybrid 3 (.foreign 0 [0]) (.foreign 0 [0])) [7, 7] =
        .ok (([7, 7], pairSplitPRF (fun _ => Digest.zero) [7] [7] [7] [7]), []) := rfl
  exact ⟨pair, encapsulated, decapsulate_inverts_encapsulate Kem.Scheme.seedEcho_correct
    Kem.Scheme.seedEcho_ciphertextConformant Kem.Scheme.seedEcho_correct
    Kem.Scheme.seedEcho_ciphertextConformant pair encapsulated⟩

end Hpqc.Kem.Hybrid.Scheme
