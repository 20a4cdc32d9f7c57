import Hpqc.Sign.Ed25519.Keys

/-!
# The private key's public half

Every private key the wrapper builds keeps its embedded public key equal to the second
half of its private-key bytes (`WellFormed`). Abstractly such a key is just its 64 bytes
(`KeyBytes`): `NewKeypair` and `UnmarshalBinaryPrivateKey` build representations of 64-byte
keys, and `FromBytes`, accepted or refused, and `Reset` act on a representation as on the
bytes it represents, so every key a program can reach is well formed
(`Reachable.wellFormed`).

That half is copied, never derived: `FromBytes` checks the length alone, so
`UnmarshalBinaryPrivateKey` accepts a 64-byte buffer whatever public key it carries. Only
when the buffer's halves agree, as they do in every key `NewKeypair` returns, are the key's
signatures sure to verify under its own public key.
-/

namespace Hpqc.Sign.Ed25519

/-- Ed25519's correctness, as the wrapper relies on it: a signature made with the private
key `seed ‖ A(seed)` verifies under `A(seed)`. -/
def Primitives.SignsAndVerifies (prims : Primitives) : Prop :=
  ∀ seed message, seed.length = seedSize →
    prims.verify (prims.publicKeyOfSeed seed) message
      (prims.sign (seed ++ prims.publicKeyOfSeed seed) message) = true

/-- Stand-in primitives: the public key of a seed is its reversal, and a signature is the
signer's public key. They meet `SignsAndVerifies` and instantiate the theorems that
assume it. -/
def Primitives.reverseSeed : Primitives where
  publicKeyOfSeed := List.reverse
  publicKeyOfSeed_length := fun _ seedLength => by simpa using seedLength
  sign := fun privateKey _ => publicOfPrivate privateKey
  verify := fun publicKey _ signature => signature == publicKey

/-- The stand-in primitives verify every signature of a key whose halves agree. -/
theorem Primitives.reverseSeed_signsAndVerifies : reverseSeed.SignsAndVerifies := by
  intro seed message seedLength
  simp [reverseSeed, publicOfPrivate, ← seedLength]

namespace PrivateKey

/-- The invariant of the keys the wrapper builds: 64 bytes, and the public key a copy of
the second half. -/
structure WellFormed (key : PrivateKey) : Prop where
  length : key.privKey.length = privateKeySize
  publicHalf : key.pubKey.pubKey = publicOfPrivate key.privKey

/-- The private keys a program can hold: those `NewKeypair` and `UnmarshalBinaryPrivateKey`
return, followed by any `FromBytes`, accepted or refused, and any `Reset`. -/
inductive Reachable (prims : Primitives) : PrivateKey → Prop
  | newKeypair {rng rng' key} : Ed25519.newKeypair prims rng = .ok (key, rng') →
      Reachable prims key
  | unmarshalBinaryPrivateKey {b key} : Scheme.unmarshalBinaryPrivateKey b = .ok key →
      Reachable prims key
  | fromBytes {key} (b : Bytes) : Reachable prims key → Reachable prims (key.fromBytes b).2
  | reset {key} : Reachable prims key → Reachable prims key.reset

/-- A well-formed key is the one `FromBytes` builds from its own bytes. -/
theorem WellFormed.eq_ofBytes {key : PrivateKey} (wf : key.WellFormed) :
    key = ofBytes key.privKey := by
  obtain ⟨⟨pub⟩, priv⟩ := key
  simpa [ofBytes] using wf.publicHalf

end PrivateKey

/-! ## The key the two buffers represent

Abstractly a private key is 64 bytes. The wrapper represents it by the bytes and a copy of
their second half; `FromBytes` and `Reset` act on the representation as their abstract
counterparts act on the bytes, so every reachable key represents some 64 bytes. -/

/-- A private key as the wrapper means it: 64 bytes, a seed followed by its public key. -/
structure KeyBytes where
  bytes : Bytes
  length : bytes.length = privateKeySize

namespace KeyBytes

/-- The wrapper's representation: the bytes and a copy of their second half. -/
def toPrivateKey (k : KeyBytes) : PrivateKey := .ofBytes k.bytes

/-- `FromBytes` on the key itself: a 64-byte buffer replaces it, any other leaves it. -/
def fromBytes (b : Bytes) (k : KeyBytes) : KeyBytes :=
  if exactLength : b.length = privateKeySize then ⟨b, exactLength⟩ else k

/-- `Reset` on the key itself: 64 zero bytes. -/
def reset (_ : KeyBytes) : KeyBytes := ⟨List.replicate 64 0, List.length_replicate 64 0⟩

/-- The representation of abstract key bytes is well formed. -/
theorem toPrivateKey_wellFormed (k : KeyBytes) : k.toPrivateKey.WellFormed := ⟨k.length, rfl⟩

/-- `FromBytes` on a representation represents `FromBytes` on the bytes. -/
theorem toPrivateKey_fromBytes (k : KeyBytes) (b : Bytes) :
    (k.toPrivateKey.fromBytes b).2 = (k.fromBytes b).toPrivateKey := by
  by_cases exactLength : b.length = privateKeySize
  · rw [PrivateKey.fromBytes_of_length _ exactLength, fromBytes, dif_pos exactLength]
    rfl
  · rw [PrivateKey.fromBytes_of_length_ne _ exactLength, fromBytes, dif_neg exactLength]

/-- `Reset` on a representation represents `Reset` on the bytes. -/
theorem toPrivateKey_reset (k : KeyBytes) : k.toPrivateKey.reset = k.reset.toPrivateKey := by
  simp [toPrivateKey, reset, PrivateKey.reset, PublicKey.reset, PrivateKey.ofBytes, explicitBzero,
    publicOfPrivate, k.length, privateKeySize, seedSize]

end KeyBytes

namespace PrivateKey

/-- Every key `NewKeypair` returns represents some 64 key bytes. -/
theorem newKeypair_represented {prims : Primitives} {rng rng' : Rng} {key : PrivateKey}
    (generated : Ed25519.newKeypair prims rng = .ok (key, rng')) :
    ∃ k : KeyBytes, key = k.toPrivateKey := by
  obtain ⟨seed, seedLength, rfl⟩ := newKeypair_eq_ok generated
  refine ⟨⟨seed ++ prims.publicKeyOfSeed seed, ?_⟩, rfl⟩
  simp [seedLength, prims.publicKeyOfSeed_length seed seedLength, seedSize, publicKeySize,
    privateKeySize]

/-- Every key `UnmarshalBinaryPrivateKey` returns represents some 64 key bytes. -/
theorem unmarshalBinaryPrivateKey_represented {b : Bytes} {key : PrivateKey}
    (unmarshalled : Scheme.unmarshalBinaryPrivateKey b = .ok key) :
    ∃ k : KeyBytes, key = k.toPrivateKey := by
  obtain ⟨exactLength, rfl⟩ := Scheme.unmarshalBinaryPrivateKey_eq_ok.1 unmarshalled
  exact ⟨⟨b, exactLength⟩, rfl⟩

/-- Every key a program can reach represents 64 bytes: each way in builds a representation,
and `FromBytes` and `Reset` map representations to representations. -/
theorem Reachable.represented {prims : Primitives} {key : PrivateKey}
    (reachable : key.Reachable prims) : ∃ k : KeyBytes, key = k.toPrivateKey := by
  induction reachable with
  | newKeypair generated => exact newKeypair_represented generated
  | unmarshalBinaryPrivateKey unmarshalled =>
    exact unmarshalBinaryPrivateKey_represented unmarshalled
  | fromBytes b _ ih =>
    obtain ⟨k, rfl⟩ := ih
    exact ⟨k.fromBytes b, k.toPrivateKey_fromBytes b⟩
  | reset _ ih =>
    obtain ⟨k, rfl⟩ := ih
    exact ⟨k.reset, k.toPrivateKey_reset⟩

/-- Every key a program can reach is well formed. -/
theorem Reachable.wellFormed {prims : Primitives} {key : PrivateKey}
    (reachable : key.Reachable prims) : key.WellFormed := by
  obtain ⟨k, rfl⟩ := reachable.represented
  exact k.toPrivateKey_wellFormed

end PrivateKey

open PrivateKey in
/-- On every key a program can reach, `PublicKey().Bytes()` is `Bytes()[32:64]` and so is
`Identity()`, a refused `FromBytes` changes nothing, and both keys survive a round trip
through `Bytes()` and the scheme's unmarshalling. -/
theorem reachable_key_keeps_public_half (prims : Primitives) {key : PrivateKey}
    (reachable : key.Reachable prims) :
    key.publicKey.bytes = (key.bytes.take 64).drop 32 ∧
    key.identity = (key.bytes.take 64).drop 32 ∧
    (∀ b, b.length ≠ privateKeySize → key.fromBytes b = (.error errInvalidKey, key)) ∧
    (∃ key', Scheme.unmarshalBinaryPrivateKey key.bytes = .ok key' ∧
      key'.bytes = key.bytes ∧ key'.publicKey.bytes = key.publicKey.bytes) ∧
    (∃ pub, Scheme.unmarshalBinaryPublicKey key.publicKey.bytes = .ok pub ∧
      pub.equal key.publicKey = true) := by
  have wf := reachable.wellFormed
  have whole : key.bytes.take 64 = key.bytes := List.take_of_length_le wf.length.le
  have half : key.publicKey.bytes = (key.bytes.take 64).drop 32 := by
    rw [whole]
    exact wf.publicHalf
  have halfLength : key.publicKey.bytes.length = publicKeySize := by
    simp [half, whole, bytes, wf.length, privateKeySize, publicKeySize]
  refine ⟨half, half, fun b => fromBytes_of_length_ne key, ⟨key, ?_, rfl, rfl⟩,
    ⟨{ pubKey := key.publicKey.bytes }, ?_, ?_⟩⟩
  · exact Scheme.unmarshalBinaryPrivateKey_eq_ok.2 ⟨wf.length, wf.eq_ofBytes⟩
  · rw [Scheme.unmarshalBinaryPublicKey_eq, if_pos halfLength]
  · exact beq_self_eq_true _

open PrivateKey in
/-- A key unmarshalled from 64 sevens and then reset is reachable, and reports the zero
identity. -/
theorem reachable_key_keeps_public_half_reset :
    (ofBytes (List.replicate 64 7)).reset.Reachable .reverseSeed ∧
      (ofBytes (List.replicate 64 7)).reset.identity = List.replicate 32 0 := by
  have unmarshalled : Scheme.unmarshalBinaryPrivateKey (List.replicate 64 7) =
      .ok (ofBytes (List.replicate 64 7)) := rfl
  have reachable : (ofBytes (List.replicate 64 7)).reset.Reachable .reverseSeed :=
    .reset (.unmarshalBinaryPrivateKey unmarshalled)
  exact ⟨reachable, (reachable_key_keeps_public_half _ reachable).2.1.trans rfl⟩

/-- Whatever public key a seed has, some 64-byte buffer carries another one after that
seed, and `UnmarshalBinaryPrivateKey` accepts it with the carried key as its public key. -/
theorem exists_foreign_half (prims : Primitives) :
    ∃ b key, b.length = 64 ∧ Scheme.unmarshalBinaryPrivateKey b = .ok key ∧
      key.publicKey.bytes ≠ prims.publicKeyOfSeed (b.take 32) := by
  have foreign : ∀ half : Bytes, half.length = 32 →
      half ≠ prims.publicKeyOfSeed (List.replicate 32 0) →
      ∃ b key, b.length = 64 ∧ Scheme.unmarshalBinaryPrivateKey b = .ok key ∧
        key.publicKey.bytes ≠ prims.publicKeyOfSeed (b.take 32) := by
    intro half halfLength differs
    refine ⟨List.replicate 32 0 ++ half, _, by simp [halfLength],
      Scheme.unmarshalBinaryPrivateKey_eq_ok.2 ⟨by simp [halfLength, privateKeySize], rfl⟩, ?_⟩
    simpa using differs
  by_cases zero : prims.publicKeyOfSeed (List.replicate 32 0) = List.replicate 32 0
  · exact foreign (List.replicate 32 1) (List.length_replicate _ _) (by rw [zero]; decide)
  · exact foreign (List.replicate 32 0) (List.length_replicate _ _) (Ne.symm zero)

/-- The all-zero buffer is accepted, with 32 zero bytes as its public key: the encoding of
a point of order four, which is the public key of no seed. And whatever the primitives,
some accepted buffer carries a public key other than its seed's. -/
theorem unmarshalBinaryPrivateKey_accepts_foreign_half :
    Scheme.unmarshalBinaryPrivateKey (List.replicate 64 0) =
        .ok (.ofBytes (List.replicate 64 0)) ∧
      (PrivateKey.ofBytes (List.replicate 64 0)).publicKey.bytes = List.replicate 32 0 ∧
      ∀ prims : Primitives, ∃ b key, b.length = 64 ∧
        Scheme.unmarshalBinaryPrivateKey b = .ok key ∧
        key.publicKey.bytes ≠ prims.publicKeyOfSeed (b.take 32) :=
  ⟨rfl, rfl, exists_foreign_half⟩

/-- Under Ed25519's correctness, a key built from a seed followed by that seed's public key
signs every message without a panic, and its own public key verifies the signature. -/
theorem PrivateKey.ofBytes_signs_and_verifies {prims : Primitives}
    (correct : prims.SignsAndVerifies) {seed : Bytes} (seedLength : seed.length = seedSize)
    (message : Bytes) :
    ∃ signature,
      (ofBytes (seed ++ prims.publicKeyOfSeed seed)).sign prims message = .ok signature ∧
      (ofBytes (seed ++ prims.publicKeyOfSeed seed)).publicKey.verify prims signature message =
        .ok true := by
  have halfLength := prims.publicKeyOfSeed_length seed seedLength
  have ownHalf : (ofBytes (seed ++ prims.publicKeyOfSeed seed)).publicKey =
      { pubKey := prims.publicKeyOfSeed seed } := by
    simp [PrivateKey.publicKey, PrivateKey.ofBytes, publicOfPrivate, ← seedLength]
  refine ⟨_, sign_of_length (by simp [ofBytes, seedLength, halfLength, seedSize, publicKeySize,
    privateKeySize]), ?_⟩
  rw [ownHalf, PublicKey.verify_of_length halfLength]
  exact congrArg Except.ok (correct seed message seedLength)

/-- `UnmarshalBinaryPrivateKey` refuses exactly the buffers that are not 64 bytes long. A
64-byte buffer is kept as the key's bytes, with a copy of its second half as the public key;
when that half is the public key of the seed before it, as in every key `NewKeypair`
returns, the key signs without a panic and its signatures verify under its own public key. -/
theorem unmarshalBinaryPrivateKey_copies_public_half (prims : Primitives)
    (correct : prims.SignsAndVerifies) :
    (∀ b, b.length ≠ 64 → Scheme.unmarshalBinaryPrivateKey b = .error errInvalidKey) ∧
    (∀ b, b.length = 64 → ∃ key, Scheme.unmarshalBinaryPrivateKey b = .ok key ∧
      key.bytes = b ∧ key.publicKey.bytes = b.drop 32) ∧
    (∀ b key message, Scheme.unmarshalBinaryPrivateKey b = .ok key →
      b.drop 32 = prims.publicKeyOfSeed (b.take 32) →
      ∃ signature, key.sign prims message = .ok signature ∧
        key.publicKey.verify prims signature message = .ok true) ∧
    (∀ rng rng' key, newKeypair prims rng = .ok (key, rng') →
      key.bytes.drop 32 = prims.publicKeyOfSeed (key.bytes.take 32)) := by
  refine ⟨fun b wrongLength => Scheme.unmarshalBinaryPrivateKey_eq.trans (if_neg wrongLength),
    fun b exactLength => ⟨_, Scheme.unmarshalBinaryPrivateKey_eq.trans (if_pos exactLength),
      rfl, rfl⟩, ?_, ?_⟩
  · intro b key message unmarshalled halvesAgree
    obtain ⟨exactLength, rfl⟩ := Scheme.unmarshalBinaryPrivateKey_eq_ok.1 unmarshalled
    have seedLength : (b.take 32).length = seedSize := by
      simp [exactLength, privateKeySize, seedSize]
    have split : b = b.take 32 ++ prims.publicKeyOfSeed (b.take 32) := by
      rw [← halvesAgree, List.take_append_drop]
    rw [split]
    exact PrivateKey.ofBytes_signs_and_verifies correct seedLength message
  · intro rng rng' key generated
    obtain ⟨seed, seedLength, rfl⟩ := newKeypair_eq_ok generated
    simp [seedLength, seedSize]

/-- The stand-in primitives sign and verify a key whose halves agree. -/
theorem unmarshalBinaryPrivateKey_copies_public_half_reverseSeed :
    Primitives.reverseSeed.SignsAndVerifies ∧
      ∀ b key message, Scheme.unmarshalBinaryPrivateKey b = .ok key →
        b.drop 32 = (b.take 32).reverse →
        ∃ signature, key.sign .reverseSeed message = .ok signature ∧
          key.publicKey.verify .reverseSeed signature message = .ok true :=
  ⟨Primitives.reverseSeed_signsAndVerifies,
    (unmarshalBinaryPrivateKey_copies_public_half _
      Primitives.reverseSeed_signsAndVerifies).2.2.1⟩

end Hpqc.Sign.Ed25519
