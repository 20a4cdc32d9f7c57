import Hpqc.Go

/-!
# The KEM interfaces

Package `kem` declares the interfaces `Scheme`, `PublicKey` and `PrivateKey` that
every KEM of the library implements, and the hybrid of package `hybrid` holds its
components only through them. A `Scheme` value is the record of its methods. A key
value is one of the dynamic types behind a key interface: nil, a `*hybrid.PublicKey`
(or `*hybrid.PrivateKey`) with its three fields, or a key of another implementation,
whose methods a `Runtime` supplies.

Sizes are the `int`s the size methods return, taken non-negative, and their sums are
taken to fit in an `int`.
-/

namespace Hpqc.Kem

/-- The identity of a scheme value: the pointer a key's `Scheme()` returns. -/
abbrev SchemeRef := Nat

/-- A `kem.PublicKey` interface value. -/
inductive PublicKey where
  /-- The nil interface. -/
  | nil
  /-- A `*hybrid.PublicKey` with its fields `scheme`, `first` and `second`. -/
  | hybrid (scheme : SchemeRef) (first second : PublicKey)
  /-- A key of another implementation: its dynamic type and its state. -/
  | foreign (kind : Nat) (state : Bytes)
  deriving DecidableEq, Repr

/-- A `kem.PrivateKey` interface value. -/
inductive PrivateKey where
  /-- The nil interface. -/
  | nil
  /-- A `*hybrid.PrivateKey` with its fields `scheme`, `first` and `second`. -/
  | hybrid (scheme : SchemeRef) (first second : PrivateKey)
  /-- A key of another implementation: its dynamic type and its state. -/
  | foreign (kind : Nat) (state : Bytes)
  deriving DecidableEq, Repr

/-- A `kem.Scheme` value, as the record of its methods. `GenerateKeyPair` and
`Encapsulate` read the random stream; `DeriveKeyPair` returns no error but may panic. -/
structure Scheme where
  ref : SchemeRef
  name : String
  publicKeySize : Nat
  privateKeySize : Nat
  seedSize : Nat
  sharedKeySize : Nat
  ciphertextSize : Nat
  encapsulationSeedSize : Nat
  generateKeyPair : StateT Rng Go (PublicKey × PrivateKey)
  deriveKeyPair : Bytes → Go (PublicKey × PrivateKey)
  encapsulate : PublicKey → StateT Rng Go (Bytes × Bytes)
  encapsulateDeterministically : PublicKey → Bytes → Go (Bytes × Bytes)
  decapsulate : PrivateKey → Bytes → Go Bytes
  unmarshalBinaryPublicKey : Bytes → Go PublicKey
  unmarshalBinaryPrivateKey : Bytes → Go PrivateKey

/-- The key methods of every implementation other than the hybrid's, by dynamic type:
`MarshalBinary`, `Equal` and, for private keys, `Public`. -/
structure Runtime where
  marshalPublic : Nat → Bytes → Go Bytes
  marshalPrivate : Nat → Bytes → Go Bytes
  equalPublic : Nat → Bytes → PublicKey → Go Bool
  equalPrivate : Nat → Bytes → PrivateKey → Go Bool
  publicOf : Nat → Bytes → Go PublicKey

end Hpqc.Kem
