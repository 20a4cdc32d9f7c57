import Hpqc.Kem.Interface
import Hpqc.Kem.Util

/-!
# The hybrid KEM scheme

`hybrid.New(name, first, second)` composes two KEMs. Seeds, keys and ciphertexts are
unframed concatenations of the components', split back at the first component's size,
and the two shared secrets are mixed by the split PRF. Every method keeps the source's
checks in the source's order. `Scheme.toKem` is the `*Scheme` as a `kem.Scheme` value,
which is how one hybrid becomes a component of another.
-/

namespace Hpqc.Kem.Hybrid

/-- `hybrid.Scheme`, at the address `addr` its pointer holds. -/
structure Scheme where
  addr : SchemeRef
  name : String
  first : Kem.Scheme
  second : Kem.Scheme

/-- `hybrid.New(name, first, second)`, allocated at `addr`. -/
@[simps]
def new (addr : SchemeRef) (name : String) (first second : Kem.Scheme) : Scheme :=
  { addr, name, first, second }

namespace Scheme

variable (blake2b256 : Bytes → Digest) (sch : Scheme)

/-- The shape of every size method of the hybrid: the sum of the components' sizes. -/
def sumSize (size : Kem.Scheme → Nat) : Nat := size sch.first + size sch.second

/-- `PublicKeySize()`. -/
def publicKeySize : Nat := sch.sumSize Kem.Scheme.publicKeySize

/-- `PrivateKeySize()`. -/
def privateKeySize : Nat := sch.sumSize Kem.Scheme.privateKeySize

/-- `SeedSize()`. -/
def seedSize : Nat := sch.sumSize Kem.Scheme.seedSize

/-- `SharedKeySize()`. -/
def sharedKeySize : Nat := sch.sumSize Kem.Scheme.sharedKeySize

/-- `CiphertextSize()`. -/
def ciphertextSize : Nat := sch.sumSize Kem.Scheme.ciphertextSize

/-- `EncapsulationSeedSize()`. -/
def encapsulationSeedSize : Nat := sch.sumSize Kem.Scheme.encapsulationSeedSize

attribute [simp] sumSize publicKeySize privateKeySize seedSize sharedKeySize ciphertextSize
  encapsulationSeedSize

/-- `GenerateKeyPair()`: a key pair of the first component, then one of the second. -/
def generateKeyPair : StateT Rng Go (PublicKey × PrivateKey) := do
  let (pk1, sk1) ← sch.first.generateKeyPair
  let (pk2, sk2) ← sch.second.generateKeyPair
  return (.hybrid sch.addr pk1 pk2, .hybrid sch.addr sk1 sk2)

/-- `DeriveKeyPair(seed)`: panics on a seed of the wrong length, and otherwise derives
the first component's keys from the seed's first `SeedSize()` bytes and the second's
from the rest. -/
def deriveKeyPair (seed : Bytes) : Go (PublicKey × PrivateKey) := do
  let size := sch.first.seedSize + sch.second.seedSize
  if seed.length ≠ size then
    throw (.panic (.message ("seed size must be " ++ toString size)))
  let (pk1, sk1) ← sch.first.deriveKeyPair (← sliceTo seed sch.first.seedSize)
  let (pk2, sk2) ← sch.second.deriveKeyPair (← sliceFrom seed sch.first.seedSize)
  return (.hybrid sch.addr pk1 pk2, .hybrid sch.addr sk1 sk2)

/-- `EncapsulateDeterministically(publicKey, seed)`. The seed's length is checked before
the key's type; the type check accepts a hybrid key of any scheme. -/
def encapsulateDeterministically (publicKey : PublicKey) (seed : Bytes) :
    Go (Bytes × Bytes) := do
  if seed.length ≠ sch.encapsulationSeedSize then throw (.error .errSeedSize)
  let first ← sliceTo seed sch.first.encapsulationSeedSize
  let second ← sliceFrom seed sch.first.encapsulationSeedSize
  let .hybrid _ pubFirst pubSecond := publicKey | throw (.error .errTypeMismatch)
  let (ct1, ss1) ← sch.first.encapsulateDeterministically pubFirst first
  let (ct2, ss2) ← sch.second.encapsulateDeterministically pubSecond second
  let ss := pairSplitPRF blake2b256 ss1 ss2 ct1 ct2
  return (ct1 ++ ct2, ss)

/-- `Encapsulate(pk)`: one `rand.Reader.Read` into a zeroed seed of
`EncapsulationSeedSize()` bytes, and `EncapsulateDeterministically` on that seed; only the
read's error stops it, so after a short read the seed keeps its trailing zeros. -/
def encapsulate (pk : PublicKey) : StateT Rng Go (Bytes × Bytes) := do
  let seed ← read sch.encapsulationSeedSize
  sch.encapsulateDeterministically blake2b256 pk seed

/-- `Decapsulate(sk, ct)`. The ciphertext's length is checked before the key's type. -/
def decapsulate (sk : PrivateKey) (ct : Bytes) : Go Bytes := do
  if ct.length ≠ sch.ciphertextSize then throw (.error .errCiphertextSize)
  let .hybrid _ privFirst privSecond := sk | throw (.error .errTypeMismatch)
  let firstSize := sch.first.ciphertextSize
  let ss1 ← sch.first.decapsulate privFirst (← sliceTo ct firstSize)
  let ss2 ← sch.second.decapsulate privSecond (← sliceFrom ct firstSize)
  return pairSplitPRF blake2b256 ss1 ss2 (← sliceTo ct firstSize) (← sliceFrom ct firstSize)

/-- The shape of both `UnmarshalBinary*Key` methods: check the whole length, then
unmarshal the first component's share and the rest, and pair the two keys. -/
def unmarshalPair {Key : Type} (size : Kem.Scheme → Nat) (sizeError : Error)
    (unmarshal : Kem.Scheme → Bytes → Go Key) (pair : SchemeRef → Key → Key → Key)
    (buf : Bytes) : Go Key := do
  if buf.length ≠ sch.sumSize size then throw (.error sizeError)
  let firstSize := size sch.first
  let key1 ← unmarshal sch.first (← sliceTo buf firstSize)
  let key2 ← unmarshal sch.second (← sliceFrom buf firstSize)
  return pair sch.addr key1 key2

/-- `UnmarshalBinaryPublicKey(buf)`. -/
def unmarshalBinaryPublicKey : Bytes → Go PublicKey :=
  sch.unmarshalPair Kem.Scheme.publicKeySize .errPubKeySize
    Kem.Scheme.unmarshalBinaryPublicKey .hybrid

/-- `UnmarshalBinaryPrivateKey(buf)`. -/
def unmarshalBinaryPrivateKey : Bytes → Go PrivateKey :=
  sch.unmarshalPair Kem.Scheme.privateKeySize .errPrivKeySize
    Kem.Scheme.unmarshalBinaryPrivateKey .hybrid

/-- The `*Scheme` as a `kem.Scheme` value. -/
@[simps]
def toKem : Kem.Scheme where
  ref := sch.addr
  name := sch.name
  publicKeySize := sch.publicKeySize
  privateKeySize := sch.privateKeySize
  seedSize := sch.seedSize
  sharedKeySize := sch.sharedKeySize
  ciphertextSize := sch.ciphertextSize
  encapsulationSeedSize := sch.encapsulationSeedSize
  generateKeyPair := sch.generateKeyPair
  deriveKeyPair := sch.deriveKeyPair
  encapsulate := sch.encapsulate blake2b256
  encapsulateDeterministically := sch.encapsulateDeterministically blake2b256
  decapsulate := sch.decapsulate blake2b256
  unmarshalBinaryPublicKey := sch.unmarshalBinaryPublicKey
  unmarshalBinaryPrivateKey := sch.unmarshalBinaryPrivateKey

/-! ## Each method as its hand-off to the components -/

variable {blake2b256 sch}

/-- A seed of the wrong length makes `DeriveKeyPair` panic with the size it expects. -/
theorem deriveKeyPair_of_length_ne {seed : Bytes} (wrongLength : seed.length ≠ sch.seedSize) :
    sch.deriveKeyPair seed =
      .error (.panic (.message ("seed size must be " ++ toString sch.seedSize))) := by
  simp_all [deriveKeyPair]

/-- On a seed of the right length the first component gets exactly the first
`first.SeedSize()` bytes and the second exactly the rest. -/
theorem deriveKeyPair_of_length {seed : Bytes} (exactLength : seed.length = sch.seedSize) :
    sch.deriveKeyPair seed = (do
      let (pk1, sk1) ← sch.first.deriveKeyPair (seed.take sch.first.seedSize)
      let (pk2, sk2) ← sch.second.deriveKeyPair (seed.drop sch.first.seedSize)
      return (.hybrid sch.addr pk1 pk2, .hybrid sch.addr sk1 sk2)) := by
  have inRange : sch.first.seedSize ≤ seed.length := by simp [exactLength]
  simp [deriveKeyPair, exactLength, inRange]

/-- A seed of the wrong length is refused with `ErrSeedSize`, before the key is looked at. -/
theorem encapsulateDeterministically_of_length_ne {pk : PublicKey} {seed : Bytes}
    (wrongLength : seed.length ≠ sch.encapsulationSeedSize) :
    sch.encapsulateDeterministically blake2b256 pk seed = .error (.error .errSeedSize) := by
  simp_all [encapsulateDeterministically]

/-- On a seed of the right length a key that is not a hybrid key is refused with
`ErrTypeMismatch`. -/
theorem encapsulateDeterministically_of_not_hybrid {pk : PublicKey} {seed : Bytes}
    (exactLength : seed.length = sch.encapsulationSeedSize)
    (notHybrid : ∀ scheme first second, pk ≠ .hybrid scheme first second) :
    sch.encapsulateDeterministically blake2b256 pk seed = .error (.error .errTypeMismatch) := by
  have inRange : sch.first.encapsulationSeedSize ≤ seed.length := by simp [exactLength]
  cases pk <;> simp_all [encapsulateDeterministically]

/-- A hybrid key of any scheme passes the type check; its components are encapsulated
to with the two shares of the seed. -/
theorem encapsulateDeterministically_hybrid {scheme : SchemeRef} {first second : PublicKey}
    {seed : Bytes} (exactLength : seed.length = sch.encapsulationSeedSize) :
    sch.encapsulateDeterministically blake2b256 (.hybrid scheme first second) seed = (do
      let (ct1, ss1) ← sch.first.encapsulateDeterministically first
        (seed.take sch.first.encapsulationSeedSize)
      let (ct2, ss2) ← sch.second.encapsulateDeterministically second
        (seed.drop sch.first.encapsulationSeedSize)
      return (ct1 ++ ct2, pairSplitPRF blake2b256 ss1 ss2 ct1 ct2)) := by
  have inRange : sch.first.encapsulationSeedSize ≤ seed.length := by simp [exactLength]
  simp [encapsulateDeterministically, exactLength, inRange]

/-- A ciphertext of the wrong length is refused with `ErrCiphertextSize`, before the key is
looked at. -/
theorem decapsulate_of_length_ne {sk : PrivateKey} {ct : Bytes}
    (wrongLength : ct.length ≠ sch.ciphertextSize) :
    sch.decapsulate blake2b256 sk ct = .error (.error .errCiphertextSize) := by
  simp_all [decapsulate]

/-- On a ciphertext of the right length a key that is not a hybrid key is refused with
`ErrTypeMismatch`. -/
theorem decapsulate_of_not_hybrid {sk : PrivateKey} {ct : Bytes}
    (exactLength : ct.length = sch.ciphertextSize)
    (notHybrid : ∀ scheme first second, sk ≠ .hybrid scheme first second) :
    sch.decapsulate blake2b256 sk ct = .error (.error .errTypeMismatch) := by
  cases sk <;> simp_all [decapsulate]

/-- The ciphertext is split at `first.CiphertextSize()`, and the split PRF sees the same
two shares the components decapsulated. -/
theorem decapsulate_hybrid {scheme : SchemeRef} {first second : PrivateKey} {ct : Bytes}
    (exactLength : ct.length = sch.ciphertextSize) :
    sch.decapsulate blake2b256 (.hybrid scheme first second) ct = (do
      let ss1 ← sch.first.decapsulate first (ct.take sch.first.ciphertextSize)
      let ss2 ← sch.second.decapsulate second (ct.drop sch.first.ciphertextSize)
      return pairSplitPRF blake2b256 ss1 ss2
        (ct.take sch.first.ciphertextSize) (ct.drop sch.first.ciphertextSize)) := by
  have inRange : sch.first.ciphertextSize ≤ ct.length := by simp [exactLength]
  simp [decapsulate, exactLength, inRange]

section unmarshal

variable {Key : Type} {size : Kem.Scheme → Nat} {sizeError : Error}
  {unmarshal : Kem.Scheme → Bytes → Go Key} {pair : SchemeRef → Key → Key → Key}
  {buf : Bytes}

/-- A buffer of the wrong length is refused with the size error. -/
theorem unmarshalPair_of_length_ne (wrongLength : buf.length ≠ sch.sumSize size) :
    sch.unmarshalPair size sizeError unmarshal pair buf = .error (.error sizeError) := by
  simp_all [unmarshalPair]

/-- A buffer of the right length is split at the first component's size, each share
unmarshalled by its component. -/
theorem unmarshalPair_of_length (exactLength : buf.length = sch.sumSize size) :
    sch.unmarshalPair size sizeError unmarshal pair buf = (do
      let key1 ← unmarshal sch.first (buf.take (size sch.first))
      let key2 ← unmarshal sch.second (buf.drop (size sch.first))
      return pair sch.addr key1 key2) := by
  have inRange : size sch.first ≤ buf.length := by simp [exactLength]
  simp [unmarshalPair, exactLength, inRange]

end unmarshal

end Scheme

/-- A scheme built by nesting `hybrid.New`, with any schemes at its leaves. -/
inductive Nesting where
  | leaf (S : Kem.Scheme)
  | hybrid (addr : SchemeRef) (name : String) (first second : Nesting)

namespace Nesting

/-- The `kem.Scheme` value a nesting builds. -/
def toScheme (blake2b256 : Bytes → Digest) : Nesting → Kem.Scheme
  | .leaf S => S
  | .hybrid addr name first second =>
    (new addr name (first.toScheme blake2b256) (second.toScheme blake2b256)).toKem blake2b256

/-- The schemes at the leaves of a nesting. -/
def leaves : Nesting → List Kem.Scheme
  | .leaf S => [S]
  | .hybrid _ _ first second => first.leaves ++ second.leaves

/-- A property every hybrid passes on from its components holds of a whole nesting as soon
as it holds at the leaves. -/
theorem induction_on_leaves (blake2b256 : Bytes → Digest) (P : Kem.Scheme → Prop)
    (passesOn : ∀ addr name A B, P A → P B → P ((new addr name A B).toKem blake2b256))
    (nesting : Nesting) (atLeaves : ∀ S ∈ nesting.leaves, P S) :
    P (nesting.toScheme blake2b256) := by
  induction nesting with
  | leaf S => exact atLeaves S (List.mem_singleton_self S)
  | hybrid addr name first second firstHolds secondHolds =>
    exact passesOn addr name _ _
      (firstHolds fun S mem => atLeaves S (List.mem_append_left _ mem))
      (secondHolds fun S mem => atLeaves S (List.mem_append_right _ mem))

end Nesting

end Hpqc.Kem.Hybrid
