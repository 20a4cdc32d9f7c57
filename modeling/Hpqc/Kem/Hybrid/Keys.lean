import Hpqc.Kem.Hybrid.Scheme

/-!
# Key methods

A method called on a `kem.PublicKey` or `kem.PrivateKey` value runs the method of the
value's dynamic type. For a hybrid key that is the code of package `hybrid`, which calls
the same method on its two component keys; for the key of another implementation the
`Runtime` answers; through the nil interface the call panics.

`UnmarshalText` is modelled over its receiver's fields as state, so that what it leaves
in its receiver can be read off.
-/

namespace Hpqc.Kem

namespace Hybrid

/-- `hybrid.ErrUninitialized`. -/
def errUninitialized : Error := .new "public or private key not initialized"

/-- The shape of both hybrid `MarshalBinary` methods: `ErrUninitialized` when a component
is nil, else the first component's encoding followed by the second's. -/
def marshalPair (uninitialized : Bool) (first second : Go Bytes) : Go Bytes := do
  if uninitialized then throw (.error errUninitialized)
  let first ← first
  let second ← second
  return first ++ second

/-- The shape of both hybrid `Equal` methods once `other` is a hybrid key:
`pk.first.Equal(oth.first) && pk.second.Equal(oth.second)`. -/
def equalPair (first second : Go Bool) : Go Bool := do
  if ← first then second else return false

/-- Two components that are `Equal` make the pair `Equal`. -/
theorem equalPair_of_true {first second : Go Bool} (firstEqual : first = .ok true)
    (secondEqual : second = .ok true) : equalPair first second = .ok true := by
  rw [firstEqual, secondEqual]
  rfl

end Hybrid

variable (rt : Runtime)

/-- `pk.MarshalBinary()`. -/
def PublicKey.marshalBinary : PublicKey → Go Bytes
  | .nil => throw (.panic .nilDereference)
  | .hybrid _ first second =>
    Hybrid.marshalPair (first == .nil || second == .nil) first.marshalBinary
      second.marshalBinary
  | .foreign kind state => rt.marshalPublic kind state

/-- `sk.MarshalBinary()`. -/
def PrivateKey.marshalBinary : PrivateKey → Go Bytes
  | .nil => throw (.panic .nilDereference)
  | .hybrid _ first second =>
    Hybrid.marshalPair (first == .nil || second == .nil) first.marshalBinary
      second.marshalBinary
  | .foreign kind state => rt.marshalPrivate kind state

/-- `pk.Equal(other)`. A hybrid key asserts that `other` is a hybrid key, of any scheme,
and compares the components only. -/
def PublicKey.equal : PublicKey → PublicKey → Go Bool
  | .nil, _ => throw (.panic .nilDereference)
  | .hybrid _ first second, .hybrid _ otherFirst otherSecond =>
    Hybrid.equalPair (first.equal otherFirst) (second.equal otherSecond)
  | .hybrid _ _ _, _ => pure false
  | .foreign kind state, other => rt.equalPublic kind state other

/-- `sk.Equal(other)`, the private-key twin of `PublicKey.equal`. -/
def PrivateKey.equal : PrivateKey → PrivateKey → Go Bool
  | .nil, _ => throw (.panic .nilDereference)
  | .hybrid _ first second, .hybrid _ otherFirst otherSecond =>
    Hybrid.equalPair (first.equal otherFirst) (second.equal otherSecond)
  | .hybrid _ _ _, _ => pure false
  | .foreign kind state, other => rt.equalPrivate kind state other

/-- `sk.Public()`: a hybrid key's public key keeps its scheme and takes each component's
public key, the first one's first. -/
def PrivateKey.public : PrivateKey → Go PublicKey
  | .nil => throw (.panic .nilDereference)
  | .hybrid scheme first second => do
    let first ← first.public
    let second ← second.public
    return .hybrid scheme first second
  | .foreign kind state => rt.publicOf kind state

namespace Hybrid

/-- The functions of package `kem/pem`, not among the sources, that the hybrid calls. -/
structure PemCodec where
  toPublicPEMBytes : PublicKey → Go Bytes
  fromPublicPEMToBytes : Bytes → Kem.Scheme → Go Bytes

/-- `(*PublicKey).MarshalText()` of the hybrid key `sk`. -/
def marshalText (pem : PemCodec) (sk : PublicKey) : Go Bytes :=
  pem.toPublicPEMBytes sk

/-- `(*PublicKey).UnmarshalText(text)` on a receiver whose `scheme` field points to `sch`.
The state is the receiver's fields. The decoded key is assigned to `sk`, the method's own
copy of the receiver pointer, and not through it. -/
def Scheme.unmarshalText (blake2b256 : Bytes → Digest) (pem : PemCodec) (sch : Scheme)
    (text : Bytes) : StateT PublicKey Go Unit := do
  let blob ← pem.fromPublicPEMToBytes text (sch.toKem blake2b256)
  let pubkey ← (sch.toKem blake2b256).unmarshalBinaryPublicKey blob
  let .hybrid scheme first second := pubkey | throw (.error (.new "type assertion failed"))
  let _sk : PublicKey := .hybrid scheme first second
  return ()

end Hybrid

end Hpqc.Kem
