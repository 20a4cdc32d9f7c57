import Hpqc.Kem.Hybrid.Lengths

/-!
# Scheme identity

The hybrid tells its own keys apart with a Go type assertion to its key type. Every
hybrid scheme shares that type, so a key of any hybrid passes, and its components are
handed to this scheme's components; the `scheme` field of the key is never read. The
lengths are checked before the type, and `Equal` compares components, not schemes.
-/

namespace Hpqc.Kem.Hybrid.Scheme

/-- What the hybrid's type check decides. On a seed (a ciphertext) of the wrong length the
size error comes first. On one of the right length a key that is not a hybrid key is
refused with `ErrTypeMismatch`, and a hybrid key passes whatever scheme it names: the
result is what this scheme's components return on its components and the two shares,
their own `ErrTypeMismatch` included, and the key's scheme appears nowhere in it. `Equal`
is the components' `Equal`, so keys of two hybrids whose components are `Equal` are
`Equal`. -/
theorem type_check_ignores_scheme (blake2b256 : Bytes → Digest) (sch : Scheme)
    (rt : Runtime) :
    (∀ {pk : PublicKey} {seed : Bytes}, seed.length ≠ sch.encapsulationSeedSize →
      sch.encapsulateDeterministically blake2b256 pk seed = .error (.error .errSeedSize)) ∧
    (∀ {pk : PublicKey} {seed : Bytes}, seed.length = sch.encapsulationSeedSize →
      (∀ scheme first second, pk ≠ .hybrid scheme first second) →
      sch.encapsulateDeterministically blake2b256 pk seed = .error (.error .errTypeMismatch)) ∧
    (∀ (scheme : SchemeRef) (first second : PublicKey) {seed : Bytes},
      seed.length = sch.encapsulationSeedSize →
      sch.encapsulateDeterministically blake2b256 (.hybrid scheme first second) seed =
        sch.first.encapsulateDeterministically first (seed.take sch.first.encapsulationSeedSize)
          >>= fun shared1 => sch.second.encapsulateDeterministically second
            (seed.drop sch.first.encapsulationSeedSize) >>= fun shared2 =>
          pure (shared1.1 ++ shared2.1,
            pairSplitPRF blake2b256 shared1.2 shared2.2 shared1.1 shared2.1)) ∧
    (∀ {sk : PrivateKey} {ct : Bytes}, ct.length ≠ sch.ciphertextSize →
      sch.decapsulate blake2b256 sk ct = .error (.error .errCiphertextSize)) ∧
    (∀ {sk : PrivateKey} {ct : Bytes}, ct.length = sch.ciphertextSize →
      (∀ scheme first second, sk ≠ .hybrid scheme first second) →
      sch.decapsulate blake2b256 sk ct = .error (.error .errTypeMismatch)) ∧
    (∀ (scheme : SchemeRef) (first second : PrivateKey) {ct : Bytes},
      ct.length = sch.ciphertextSize →
      sch.decapsulate blake2b256 (.hybrid scheme first second) ct =
        sch.first.decapsulate first (ct.take sch.first.ciphertextSize) >>= fun ss1 =>
          sch.second.decapsulate second (ct.drop sch.first.ciphertextSize) >>= fun ss2 =>
          pure (pairSplitPRF blake2b256 ss1 ss2 (ct.take sch.first.ciphertextSize)
            (ct.drop sch.first.ciphertextSize))) ∧
    (∀ (scheme scheme' : SchemeRef) (a b c d : PublicKey),
      (PublicKey.hybrid scheme a b).equal rt (.hybrid scheme' c d) =
        Hybrid.equalPair (a.equal rt c) (b.equal rt d)) ∧
    (∀ (scheme scheme' : SchemeRef) (a b c d : PrivateKey),
      (PrivateKey.hybrid scheme a b).equal rt (.hybrid scheme' c d) =
        Hybrid.equalPair (a.equal rt c) (b.equal rt d)) ∧
    (∀ (scheme scheme' : SchemeRef) {a b c d : PublicKey}, a.equal rt c = .ok true →
      b.equal rt d = .ok true → (PublicKey.hybrid scheme a b).equal rt (.hybrid scheme' c d) =
        .ok true) ∧
    ∀ (scheme scheme' : SchemeRef) {a b c d : PrivateKey}, a.equal rt c = .ok true →
      b.equal rt d = .ok true → (PrivateKey.hybrid scheme a b).equal rt (.hybrid scheme' c d) =
        .ok true :=
  ⟨encapsulateDeterministically_of_length_ne, encapsulateDeterministically_of_not_hybrid,
    fun _ _ _ _ exactLength => encapsulateDeterministically_hybrid exactLength,
    decapsulate_of_length_ne, decapsulate_of_not_hybrid,
    fun _ _ _ _ exactLength => decapsulate_hybrid exactLength,
    fun _ _ _ _ _ _ => rfl, fun _ _ _ _ _ _ => rfl,
    fun _ _ _ _ _ _ => Hybrid.equalPair_of_true, fun _ _ _ _ _ _ => Hybrid.equalPair_of_true⟩

/-- A key pair derived by one hybrid is accepted by another hybrid of the same components
under another name: it encapsulates to the other scheme's public key, decapsulates with its
private key, and their public keys are `Equal`. A non-hybrid key with a short seed gets the
size error, not `ErrTypeMismatch`. -/
theorem hybrid_accepts_keys_of_another_hybrid :
    echoPairCopy.deriveKeyPair [0, 0] =
        .ok (.hybrid 4 (.foreign 0 [0]) (.foreign 0 [0]),
          .hybrid 4 (.foreign 1 [0]) (.foreign 1 [0])) ∧
      echoPair.encapsulateDeterministically (fun _ => Digest.zero)
          (.hybrid 4 (.foreign 0 [0]) (.foreign 0 [0])) [0, 0] =
        .ok ([0, 0], List.replicate 32 0) ∧
      echoPair.decapsulate (fun _ => Digest.zero) (.hybrid 4 (.foreign 1 [0]) (.foreign 1 [0])) [0, 0] =
        .ok (List.replicate 32 0) ∧
      (PublicKey.hybrid 3 (.foreign 0 [0]) (.foreign 0 [0])).equal .byState
          (.hybrid 4 (.foreign 0 [0]) (.foreign 0 [0])) = .ok true ∧
      echoPair.encapsulateDeterministically (fun _ => Digest.zero) (.foreign 0 [0]) [0] =
        .error (.error .errSeedSize) :=
  ⟨rfl, rfl, rfl, rfl, rfl⟩

end Hpqc.Kem.Hybrid.Scheme
