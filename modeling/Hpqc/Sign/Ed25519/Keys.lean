import Hpqc.Go

/-!
# The Ed25519 wrapper's keys

Package `ed25519` wraps `crypto/ed25519`. A `PrivateKey` holds the 64-byte private key of
`crypto/ed25519` (the seed, then the public key) and, in a buffer of its own, the
`PublicKey` that `PublicKey()` returns. `FromBytes` checks only the length and copies the
public key out of the second half; `Reset` zeroes both buffers. `Sign` and `Verify` call
`crypto/ed25519`, which panics on a key of the wrong length. The scheme's `NewKeypair`
panics on the reader's error and returns, beside its key, the pointer `PublicKey()` into
it.

The keys a program can hold are those `NewKeypair` and `UnmarshalBinaryPrivateKey` return,
followed by any `FromBytes` and `Reset`. On all of them the embedded public key is the
private key's second half (`WellFormed`).
-/

namespace Hpqc.Sign.Ed25519

/-- `PublicKeySize`. -/
def publicKeySize : Nat := 32

/-- `PrivateKeySize`. -/
def privateKeySize : Nat := 64

/-- `ed25519.SeedSize`, the entropy `GenerateKey` reads. -/
def seedSize : Nat := 32

/-- `errInvalidKey`. -/
def errInvalidKey : Error := .new "eddsa: invalid key"

/-- The functions of `crypto/ed25519` the wrapper relies on: the public key of a 32-byte
seed (the half `NewKeyFromSeed` appends to it), and `Sign(privateKey, message)` and
`Verify(publicKey, message, signature)` on keys of the right lengths, past the length
check that `keyLengthGuard` models. -/
structure Primitives where
  publicKeyOfSeed : Bytes → Bytes
  publicKeyOfSeed_length : ∀ seed, seed.length = seedSize →
    (publicKeyOfSeed seed).length = publicKeySize
  sign : Bytes → Bytes → Bytes
  verify : Bytes → Bytes → Bytes → Bool

/-- The length check `crypto/ed25519`'s `Sign` and `Verify` make first: a panic that names
the kind of key and its length when the key is not `size` bytes. -/
def keyLengthGuard (kind : String) (size : Nat) (key : Bytes) : Go Unit :=
  if key.length ≠ size then
    throw (.panic (.message ("ed25519: bad " ++ kind ++ " key length: " ++ toString key.length)))
  else pure ()

/-- A key of the right length passes the guard. -/
theorem keyLengthGuard_of_length {kind : String} {size : Nat} {key : Bytes}
    (exactLength : key.length = size) : keyLengthGuard kind size key = .ok () :=
  if_neg (not_not.2 exactLength)

/-- `ed25519.PrivateKey.Public()`: a copy of the private key's bytes after the seed. -/
def publicOfPrivate (privateKey : Bytes) : Bytes := privateKey.drop seedSize

/-- Modelled from the spec: `util.ExplicitBzero` (package `util`, not among the sources)
overwrites a buffer with zeros in place. -/
def explicitBzero (buffer : Bytes) : Bytes := List.replicate buffer.length 0

/-- `PublicKey`, by its key bytes. -/
structure PublicKey where
  pubKey : Bytes
  deriving DecidableEq, Repr

/-- `PrivateKey`: the embedded public key and the 64-byte private key. -/
structure PrivateKey where
  pubKey : PublicKey
  privKey : Bytes
  deriving DecidableEq, Repr

namespace PublicKey

/-- `Bytes()`. -/
def bytes (p : PublicKey) : Bytes := p.pubKey

/-- `Equal(pubKey)`: `hmac.Equal` of the two key buffers. -/
def equal (p other : PublicKey) : Bool := p.pubKey == other.pubKey

/-- `Verify(signature, message)`: `ed25519.Verify`, which panics on a key that is not 32
bytes, such as the empty key. -/
def verify (prims : Primitives) (p : PublicKey) (signature message : Bytes) : Go Bool := do
  keyLengthGuard "public" publicKeySize p.pubKey
  return prims.verify p.pubKey message signature

/-- `Reset()`: zero the key bytes. -/
def reset (p : PublicKey) : PublicKey := { pubKey := explicitBzero p.pubKey }

/-- `FromBytes(data)` on the receiver `p`: its error and the receiver afterwards. -/
def fromBytes (data : Bytes) (p : PublicKey) : Except Error Unit × PublicKey :=
  if data.length ≠ publicKeySize then (.error errInvalidKey, p)
  else (.ok (), { pubKey := data })

/-- `ByteArray()`: the key copied into a 32-byte array. -/
def byteArray (p : PublicKey) : Bytes :=
  p.pubKey.take publicKeySize ++ List.replicate (publicKeySize - p.pubKey.length) 0

/-- `MarshalBinary()`: the key bytes, and no error. -/
def marshalBinary (p : PublicKey) : Except Error Bytes := .ok p.bytes

end PublicKey

namespace PrivateKey

/-- `Bytes()`. -/
def bytes (p : PrivateKey) : Bytes := p.privKey

/-- `PublicKey()`. -/
def publicKey (p : PrivateKey) : PublicKey := p.pubKey

/-- `Identity()`: the public key's bytes. -/
def identity (p : PrivateKey) : Bytes := p.publicKey.bytes

/-- `Sign(message)`: `ed25519.Sign`, which panics on a key that is not 64 bytes, such as
`new(PrivateKey)`. -/
def sign (prims : Primitives) (p : PrivateKey) (message : Bytes) : Go Bytes := do
  keyLengthGuard "private" privateKeySize p.privKey
  return prims.sign p.privKey message

/-- `Reset()`: zero the embedded public key, then the private key. -/
def reset (p : PrivateKey) : PrivateKey :=
  { pubKey := p.pubKey.reset, privKey := explicitBzero p.privKey }

/-- `FromBytes(b)` on the receiver `p`: only the length is checked, and the public key is
copied out of the second half of `b`. -/
def fromBytes (b : Bytes) (p : PrivateKey) : Except Error Unit × PrivateKey :=
  if b.length ≠ privateKeySize then (.error errInvalidKey, p)
  else
    let privKey := b
    (.ok (), { privKey, pubKey := { pubKey := publicOfPrivate privKey } })

end PrivateKey

/-- `new(PublicKey)`, which `NewEmptyPublicKey` returns. -/
def PublicKey.empty : PublicKey := { pubKey := [] }

/-- `new(PrivateKey)`. -/
def PrivateKey.empty : PrivateKey := { pubKey := .empty, privKey := [] }

/-- The key `FromBytes` leaves from a 64-byte buffer: the buffer, and a copy of its
second half as the public key. -/
def PrivateKey.ofBytes (b : Bytes) : PrivateKey :=
  { pubKey := { pubKey := publicOfPrivate b }, privKey := b }

/-- A key built from `b` has `b` as its `Bytes()`. -/
@[simp] theorem PrivateKey.ofBytes_bytes (b : Bytes) : (PrivateKey.ofBytes b).bytes = b := rfl

/-- A key built from `b` reports `b[32:]` as its public key. -/
@[simp] theorem PrivateKey.ofBytes_publicKey_bytes (b : Bytes) :
    (PrivateKey.ofBytes b).publicKey.bytes = b.drop 32 := rfl

namespace PublicKey

/-- `FromBytes` refuses a buffer of the wrong length and leaves the key as it was. -/
theorem fromBytes_of_length_ne {data : Bytes} (p : PublicKey)
    (wrongLength : data.length ≠ publicKeySize) :
    p.fromBytes data = (.error errInvalidKey, p) := if_pos wrongLength

/-- `FromBytes` takes a 32-byte buffer as the key. -/
theorem fromBytes_of_length {data : Bytes} (p : PublicKey)
    (exactLength : data.length = publicKeySize) :
    p.fromBytes data = (.ok (), { pubKey := data }) := if_neg (not_not.2 exactLength)

/-- A 32-byte key verifies as `crypto/ed25519` does, without a panic. -/
theorem verify_of_length {prims : Primitives} {p : PublicKey} {signature message : Bytes}
    (exactLength : p.pubKey.length = publicKeySize) :
    p.verify prims signature message = .ok (prims.verify p.pubKey message signature) := by
  rw [verify, keyLengthGuard_of_length exactLength]
  rfl

end PublicKey

namespace PrivateKey

/-- `FromBytes` refuses a buffer of the wrong length and leaves the key as it was. -/
theorem fromBytes_of_length_ne {b : Bytes} (p : PrivateKey)
    (wrongLength : b.length ≠ privateKeySize) :
    p.fromBytes b = (.error errInvalidKey, p) := if_pos wrongLength

/-- `FromBytes` takes a 64-byte buffer as the key, with a copy of its second half as the
public key. -/
theorem fromBytes_of_length {b : Bytes} (p : PrivateKey)
    (exactLength : b.length = privateKeySize) :
    p.fromBytes b = (.ok (), ofBytes b) := if_neg (not_not.2 exactLength)

/-- A 64-byte key signs as `crypto/ed25519` does, without a panic. -/
theorem sign_of_length {prims : Primitives} {p : PrivateKey} {message : Bytes}
    (exactLength : p.privKey.length = privateKeySize) :
    p.sign prims message = .ok (prims.sign p.privKey message) := by
  rw [sign, keyLengthGuard_of_length exactLength]
  rfl

end PrivateKey

/-- `NewKeypair(r)`: `ed25519.GenerateKey` reads a seed and appends its public key; the
wrapper's public key is a copy of that second half. -/
def newKeypair (prims : Primitives) : StateT Rng Go PrivateKey := do
  let seed ← readFull seedSize
  let privateKey := seed ++ prims.publicKeyOfSeed seed
  let publicKey := publicOfPrivate privateKey
  return { privKey := privateKey, pubKey := { pubKey := publicKey } }

/-- A key `NewKeypair` returns is a seed read from the stream followed by its public key,
and its public key is that second half. -/
theorem newKeypair_eq_ok {prims : Primitives} {rng rng' : Rng} {key : PrivateKey}
    (generated : newKeypair prims rng = .ok (key, rng')) :
    ∃ seed, seed.length = seedSize ∧
      key = PrivateKey.ofBytes (seed ++ prims.publicKeyOfSeed seed) := by
  obtain ⟨seed, rest, read, built⟩ := Go.stateBind_eq_ok.1 generated
  obtain ⟨inStream, rfl, -⟩ := readFull_eq_ok read
  cases built
  exact ⟨_, List.length_take_of_le inStream, rfl⟩

/-! ## The methods of `scheme`, the wrapper's `sign.Scheme` -/

namespace Scheme

/-- `NewKeypair()`: `NewKeypair(rand.Reader)`, panicking with its error. The public key it
returns beside the private key is `privKey.PublicKey()`, a pointer into the private key, not
a value of its own: what it reports at any later point is the private key's embedded public
key then (`PrivateKey.publicKey`), and a call made through it is a call on the private key
(`KeyCall`). So the result is the private key alone. -/
def newKeypair (prims : Primitives) : StateT Rng Go PrivateKey := fun rng =>
  match Ed25519.newKeypair prims rng with
  | .error (.error err) => throw (.panic (.errorValue err))
  | .error (.panic p) => throw (.panic p)
  | .ok (key, rng') => pure (key, rng')

/-- `NewKeypair()` returns what the package's `NewKeypair` returns. -/
theorem newKeypair_eq_ok {prims : Primitives} {rng rng' : Rng} {key : PrivateKey}
    (generated : newKeypair prims rng = .ok (key, rng')) :
    Ed25519.newKeypair prims rng = .ok (key, rng') := by
  unfold newKeypair at generated
  split at generated <;> cases generated
  assumption

/-- `UnmarshalBinaryPublicKey(b)`: `UnmarshalBinary`, that is `FromBytes`, on a new key. -/
def unmarshalBinaryPublicKey (b : Bytes) : Except Error PublicKey :=
  match PublicKey.empty.fromBytes b with
  | (.error err, _) => .error err
  | (.ok (), pubKey) => .ok pubKey

/-- `UnmarshalBinaryPrivateKey(b)`: `FromBytes` on a new key. -/
def unmarshalBinaryPrivateKey (b : Bytes) : Except Error PrivateKey :=
  match PrivateKey.empty.fromBytes b with
  | (.error err, _) => .error err
  | (.ok (), privKey) => .ok privKey

/-- `UnmarshalBinaryPublicKey` accepts exactly the 32-byte strings, and keeps them. -/
theorem unmarshalBinaryPublicKey_eq {b : Bytes} :
    unmarshalBinaryPublicKey b =
      if b.length = publicKeySize then .ok { pubKey := b } else .error errInvalidKey := by
  by_cases exactLength : b.length = publicKeySize
  · simp [unmarshalBinaryPublicKey, PublicKey.fromBytes_of_length _ exactLength, exactLength]
  · simp [unmarshalBinaryPublicKey, PublicKey.fromBytes_of_length_ne _ exactLength, exactLength]

/-- `UnmarshalBinaryPrivateKey` accepts exactly the 64-byte strings, and builds the key
`FromBytes` leaves from them. -/
theorem unmarshalBinaryPrivateKey_eq {b : Bytes} :
    unmarshalBinaryPrivateKey b =
      if b.length = privateKeySize then .ok (.ofBytes b) else .error errInvalidKey := by
  by_cases exactLength : b.length = privateKeySize
  · simp [unmarshalBinaryPrivateKey, PrivateKey.fromBytes_of_length _ exactLength, exactLength]
  · simp [unmarshalBinaryPrivateKey, PrivateKey.fromBytes_of_length_ne _ exactLength, exactLength]

/-- The keys `UnmarshalBinaryPrivateKey` returns are those `FromBytes` builds from 64-byte
buffers. -/
theorem unmarshalBinaryPrivateKey_eq_ok {b : Bytes} {key : PrivateKey} :
    unmarshalBinaryPrivateKey b = .ok key ↔ b.length = privateKeySize ∧ key = .ofBytes b := by
  rw [unmarshalBinaryPrivateKey_eq]
  split <;> simp_all [eq_comm]

end Scheme

end Hpqc.Sign.Ed25519
