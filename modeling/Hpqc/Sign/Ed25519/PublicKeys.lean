import Hpqc.Sign.Ed25519.PublicHalf

/-!
# Public keys over their lifetime, and the alias `PublicKey()` hands out

A public key starts empty from `NewEmptyPublicKey`, filled by `UnmarshalBinaryPublicKey`, or
as the public key of a private key, and changes only by `FromBytes` and `Reset`. So it always
holds 32 bytes or none (`Sized`). A key of 32 bytes comes back from its `MarshalBinary` and
from its `ByteArray`, and two such keys have the same `ByteArray` exactly when they are
`Equal`. The empty key is different: its encoding is refused by `UnmarshalBinaryPublicKey`,
and its `ByteArray` is that of the all-zero key, which `Equal` tells apart from it.

`PrivateKey.PublicKey()` returns a pointer into the private key, so `FromBytes` and `Reset`
called through it rewrite the private key's embedded public key, which `Identity()` reports,
and leave alone the private-key bytes it signs with. Over any run that interleaves calls on
the key and calls through the pointer, the key is the representation of an abstract state of
64 bytes and a 32-byte identity, and the bytes follow the 64-byte model `KeyBytes` driven by
the calls on the key alone (`private_key_runs_refine_keyState`).
-/

namespace Hpqc.Sign.Ed25519

namespace PublicKey

/-- The invariant of public keys: 32 bytes, or none. -/
def Sized (p : PublicKey) : Prop := p.pubKey = [] ∨ p.pubKey.length = publicKeySize

/-- The public keys a program can hold: a new empty key, a key `UnmarshalBinaryPublicKey`
returns or the public key of a reachable private key, followed by any `FromBytes`, accepted
or refused, and any `Reset`. -/
inductive Reachable (prims : Primitives) : PublicKey → Prop
  | newEmptyPublicKey : Reachable prims .empty
  | unmarshalBinaryPublicKey {b p} : Scheme.unmarshalBinaryPublicKey b = .ok p →
      Reachable prims p
  | ofPrivateKey {key : PrivateKey} : key.Reachable prims → Reachable prims key.publicKey
  | fromBytes {p} (b : Bytes) : Reachable prims p → Reachable prims (p.fromBytes b).2
  | reset {p} : Reachable prims p → Reachable prims p.reset

/-- `FromBytes` keeps a public key empty or 32 bytes long. -/
theorem Sized.fromBytes {p : PublicKey} (sized : p.Sized) (b : Bytes) : (p.fromBytes b).2.Sized := by
  by_cases exactLength : b.length = publicKeySize
  · rw [fromBytes_of_length _ exactLength]
    exact .inr exactLength
  · rwa [fromBytes_of_length_ne _ exactLength]

/-- `Reset` keeps a public key empty or 32 bytes long. -/
theorem Sized.reset {p : PublicKey} (sized : p.Sized) : p.reset.Sized := by
  rcases sized with empty | full
  · exact .inl (by simp [PublicKey.reset, explicitBzero, empty])
  · exact .inr (by simp [PublicKey.reset, explicitBzero, full])

/-- Every public key a program can hold is sized. -/
theorem Reachable.sized {prims : Primitives} {p : PublicKey} (reachable : p.Reachable prims) :
    p.Sized := by
  induction reachable with
  | newEmptyPublicKey => exact .inl rfl
  | unmarshalBinaryPublicKey unmarshalled =>
    rw [Scheme.unmarshalBinaryPublicKey_eq] at unmarshalled
    split at unmarshalled <;> cases unmarshalled
    exact .inr ‹_›
  | ofPrivateKey owner =>
    have wf := owner.wellFormed
    refine .inr ?_
    simp [PrivateKey.publicKey, wf.publicHalf, publicOfPrivate, wf.length, privateKeySize,
      seedSize, publicKeySize]
  | fromBytes b _ ih => exact ih.fromBytes b
  | reset _ ih => exact ih.reset

/-- A 32-byte key is its own `ByteArray()`. -/
theorem byteArray_of_full {p : PublicKey} (full : p.pubKey.length = publicKeySize) :
    p.byteArray = p.pubKey := by
  simp [byteArray, full, List.take_of_length_le]

/-- An empty key's `ByteArray()` is 32 zero bytes. -/
theorem byteArray_of_empty {p : PublicKey} (empty : p.pubKey = []) :
    p.byteArray = List.replicate 32 0 := by
  simp [byteArray, empty, publicKeySize]

/-- `Equal` compares the key bytes. -/
theorem equal_iff {p q : PublicKey} : p.equal q = true ↔ p.pubKey = q.pubKey := by
  simp [equal]

end PublicKey

/-- A public key a program holds either has 32 bytes, and then both its `MarshalBinary` and
its `ByteArray` unmarshal back to it, or is empty, and then its encoding is refused with
`errInvalidKey` and its `ByteArray` is 32 zero bytes. -/
theorem reachable_publicKey_round_trips (prims : Primitives) {p : PublicKey}
    (reachable : p.Reachable prims) :
    (p.pubKey.length = 32 ∧ (p.marshalBinary >>= Scheme.unmarshalBinaryPublicKey) = .ok p ∧
      Scheme.unmarshalBinaryPublicKey p.byteArray = .ok p) ∨
    (p.pubKey = [] ∧
      (p.marshalBinary >>= Scheme.unmarshalBinaryPublicKey) = .error errInvalidKey ∧
      p.byteArray = List.replicate 32 0) := by
  rcases reachable.sized with empty | full
  · refine .inr ⟨empty, ?_, PublicKey.byteArray_of_empty empty⟩
    simp [PublicKey.marshalBinary, PublicKey.bytes, bind, Except.bind,
      Scheme.unmarshalBinaryPublicKey_eq, empty, publicKeySize]
  · refine .inl ⟨full, ?_, ?_⟩
    · simp [PublicKey.marshalBinary, PublicKey.bytes, bind, Except.bind,
        Scheme.unmarshalBinaryPublicKey_eq, full]
    · rw [PublicKey.byteArray_of_full full, Scheme.unmarshalBinaryPublicKey_eq, if_pos full]

/-- `NewEmptyPublicKey` gives the empty key, whose encoding is refused and whose `ByteArray()`
is zero. -/
theorem reachable_publicKey_round_trips_empty :
    (PublicKey.empty.pubKey.length = 32 ∧
      (PublicKey.empty.marshalBinary >>= Scheme.unmarshalBinaryPublicKey) = .ok .empty ∧
      Scheme.unmarshalBinaryPublicKey PublicKey.empty.byteArray = .ok .empty) ∨
    (PublicKey.empty.pubKey = [] ∧
      (PublicKey.empty.marshalBinary >>= Scheme.unmarshalBinaryPublicKey) = .error errInvalidKey ∧
      PublicKey.empty.byteArray = List.replicate 32 0) :=
  reachable_publicKey_round_trips .reverseSeed .newEmptyPublicKey

/-- `ByteArray` is a faithful map key for `Equal` among the public keys a program holds, but
for one collision: two such keys have the same `ByteArray` exactly when they are `Equal`, or
one of them is empty and the other is all zeros. -/
theorem byteArray_agrees_with_equal (prims : Primitives) {p q : PublicKey}
    (reachableP : p.Reachable prims) (reachableQ : q.Reachable prims) :
    p.byteArray = q.byteArray ↔ p.equal q = true ∨ p.bytes ++ q.bytes = List.replicate 32 0 := by
  have noDoubleZero : ∀ a b : Bytes, a.length = 32 → b.length = 32 →
      a ++ b ≠ List.replicate 32 0 := fun a b lengthA lengthB zero => by
    simpa [lengthA, lengthB] using congrArg List.length zero
  rw [PublicKey.equal_iff]
  rcases reachableP.sized with emptyP | fullP <;> rcases reachableQ.sized with emptyQ | fullQ
  · simp [PublicKey.byteArray_of_empty, emptyP, emptyQ]
  · have notEmpty : q.pubKey ≠ [] := List.ne_nil_of_length_pos (by simp [fullQ, publicKeySize])
    simp [PublicKey.byteArray_of_empty emptyP, PublicKey.byteArray_of_full fullQ,
      PublicKey.bytes, emptyP, notEmpty.symm, eq_comm]
  · have notEmpty : p.pubKey ≠ [] := List.ne_nil_of_length_pos (by simp [fullP, publicKeySize])
    simp [PublicKey.byteArray_of_full fullP, PublicKey.byteArray_of_empty emptyQ,
      PublicKey.bytes, emptyQ, notEmpty]
  · rw [PublicKey.byteArray_of_full fullP, PublicKey.byteArray_of_full fullQ]
    exact (or_iff_left (noDoubleZero _ _ fullP fullQ)).symm

/-- The empty key and the all-zero key share a `ByteArray`. -/
theorem byteArray_agrees_with_equal_zero :
    PublicKey.empty.byteArray = ({ pubKey := List.replicate 32 0 } : PublicKey).byteArray := by
  have zero : Scheme.unmarshalBinaryPublicKey (List.replicate 32 0) =
      .ok { pubKey := List.replicate 32 0 } := rfl
  exact (byteArray_agrees_with_equal .reverseSeed .newEmptyPublicKey
    (.unmarshalBinaryPublicKey zero)).2 (.inr rfl)

/-- `k.PublicKey().FromBytes(b)`: `PublicKey()` points into `k`, so the call rewrites `k`'s
embedded public key. -/
def PrivateKey.publicKeyFromBytes (b : Bytes) (key : PrivateKey) : Except Error Unit × PrivateKey :=
  ((key.pubKey.fromBytes b).1, { key with pubKey := (key.pubKey.fromBytes b).2 })

/-- `k.PublicKey().Reset()`: zeroes `k`'s embedded public key. -/
def PrivateKey.publicKeyReset (key : PrivateKey) : PrivateKey :=
  { key with pubKey := key.pubKey.reset }

/-! ## Runs of calls on a private key and through its public key

Abstractly, a private key reached both directly and through `PublicKey()` is what it signs
with and what it reports: 64 bytes and a 32-byte identity (`KeyState`). The calls on the key
act on both; the calls through the pointer on the identity alone. -/

/-- A call on a private key `k`: on `k` itself, or through the pointer `k.PublicKey()`. -/
inductive KeyCall where
  | fromBytes (b : Bytes)
  | reset
  | publicKeyFromBytes (b : Bytes)
  | publicKeyReset

/-- A private key as both paths to it see it: the 64 bytes it signs with and the 32-byte
identity it reports. -/
structure KeyState where
  key : KeyBytes
  identity : Bytes
  identity_length : identity.length = publicKeySize

namespace KeyState

/-- The wrapper's state that stands for `s`. -/
def toPrivateKey (s : KeyState) : PrivateKey :=
  { pubKey := { pubKey := s.identity }, privKey := s.key.bytes }

/-- The state `FromBytes` leaves from `k`: the identity is the second half. -/
def ofKeyBytes (k : KeyBytes) : KeyState :=
  ⟨k, publicOfPrivate k.bytes, by
    simp [publicOfPrivate, k.length, privateKeySize, seedSize, publicKeySize]⟩

/-- The key `k` with the zero identity a `Reset` leaves. -/
def withZeroIdentity (k : KeyBytes) : KeyState :=
  ⟨k, List.replicate 32 0, List.length_replicate 32 0⟩

end KeyState

namespace KeyCall

/-- What the call leaves in `k`. -/
def apply : KeyCall → PrivateKey → PrivateKey
  | .fromBytes b, key => (key.fromBytes b).2
  | .reset, key => key.reset
  | .publicKeyFromBytes b, key => (key.publicKeyFromBytes b).2
  | .publicKeyReset, key => key.publicKeyReset

/-- What the call does to the state `k` stands for. -/
def applyState : KeyCall → KeyState → KeyState
  | .fromBytes b, s =>
    if exactLength : b.length = privateKeySize then .ofKeyBytes ⟨b, exactLength⟩ else s
  | .reset, s => .withZeroIdentity s.key.reset
  | .publicKeyFromBytes b, s =>
    if exactLength : b.length = publicKeySize then ⟨s.key, b, exactLength⟩ else s
  | .publicKeyReset, s => .withZeroIdentity s.key

/-- What the call does to the 64 bytes `k` stands for: only calls on `k` itself change
them. -/
def applyBytes : KeyCall → KeyBytes → KeyBytes
  | .fromBytes b, k => k.fromBytes b
  | .reset, k => k.reset
  | .publicKeyFromBytes _, k => k
  | .publicKeyReset, k => k

/-- A call moves the abstract key bytes as it moves the key. -/
theorem applyState_key (call : KeyCall) (s : KeyState) :
    (call.applyState s).key = call.applyBytes s.key := by
  cases call with
  | fromBytes b =>
    by_cases exactLength : b.length = privateKeySize <;>
      simp [applyState, applyBytes, KeyBytes.fromBytes, KeyState.ofKeyBytes, exactLength]
  | publicKeyFromBytes b =>
    by_cases exactLength : b.length = publicKeySize <;> simp [applyState, applyBytes, exactLength]
  | reset | publicKeyReset => rfl

/-- One call on the wrapper's state is the call on the state it stands for. -/
theorem apply_toPrivateKey (call : KeyCall) (s : KeyState) :
    call.apply s.toPrivateKey = (call.applyState s).toPrivateKey := by
  cases call with
  | fromBytes b =>
    by_cases exactLength : b.length = privateKeySize
    · rw [apply, PrivateKey.fromBytes_of_length _ exactLength, applyState, dif_pos exactLength]
      rfl
    · rw [apply, PrivateKey.fromBytes_of_length_ne _ exactLength, applyState, dif_neg exactLength]
  | reset =>
    simp [apply, applyState, PrivateKey.reset, PublicKey.reset, KeyState.toPrivateKey,
      KeyState.withZeroIdentity, KeyBytes.reset, explicitBzero, s.key.length, privateKeySize,
      s.identity_length, publicKeySize]
  | publicKeyFromBytes b =>
    by_cases exactLength : b.length = publicKeySize
    · simp only [apply, PrivateKey.publicKeyFromBytes, PublicKey.fromBytes_of_length _ exactLength,
        applyState, dif_pos exactLength]
      rfl
    · simp only [apply, PrivateKey.publicKeyFromBytes,
        PublicKey.fromBytes_of_length_ne _ exactLength, applyState, dif_neg exactLength]
  | publicKeyReset =>
    have zeroIdentity : explicitBzero s.identity = List.replicate 32 0 := by
      simp [explicitBzero, s.identity_length, publicKeySize]
    simp only [apply, PrivateKey.publicKeyReset, PublicKey.reset, applyState,
      KeyState.toPrivateKey, zeroIdentity]
    rfl

end KeyCall

/-- The key a sequence of calls leaves. -/
def PrivateKey.run (calls : List KeyCall) (key : PrivateKey) : PrivateKey :=
  calls.foldl (fun key call => call.apply key) key

/-- The state a sequence of calls leaves. -/
def KeyState.run (calls : List KeyCall) (s : KeyState) : KeyState :=
  calls.foldl (fun s call => call.applyState s) s

/-- The 64 bytes a sequence of calls leaves. -/
def KeyBytes.run (calls : List KeyCall) (k : KeyBytes) : KeyBytes :=
  calls.foldl (fun k call => call.applyBytes k) k

/-- Running calls on a representation represents running them on the abstract state. -/
theorem KeyState.run_toPrivateKey (calls : List KeyCall) (s : KeyState) :
    s.toPrivateKey.run calls = (s.run calls).toPrivateKey := by
  induction calls generalizing s with
  | nil => rfl
  | cons call rest ih =>
    exact (congrArg (PrivateKey.run rest) (call.apply_toPrivateKey s)).trans (ih _)

/-- The abstract key bytes after a run are those the calls on the key alone produce. -/
theorem KeyState.run_key (calls : List KeyCall) (s : KeyState) :
    (s.run calls).key = s.key.run calls := by
  induction calls generalizing s with
  | nil => rfl
  | cons call rest ih => exact (ih _).trans (congrArg (KeyBytes.run rest) (call.applyState_key s))

/-- However calls on a reachable private key and calls through its `PublicKey()` pointer
interleave, the key stays the representation of a `KeyState`, moved by each call as
`applyState` says; and its 64 bytes, which `Bytes()` and every signature read, are those
the calls on the key itself produce: calls through the pointer never reach them. -/
theorem private_key_runs_refine_keyState (prims : Primitives) {key : PrivateKey}
    (reachable : key.Reachable prims) :
    ∃ s : KeyState, key = s.toPrivateKey ∧ ∀ calls,
      key.run calls = (s.run calls).toPrivateKey ∧
      (key.run calls).bytes = (s.key.run calls).bytes := by
  obtain ⟨k, rfl⟩ := reachable.represented
  have refines : ∀ calls, k.toPrivateKey.run calls =
      ((KeyState.ofKeyBytes k).run calls).toPrivateKey :=
    fun calls => KeyState.run_toPrivateKey calls (.ofKeyBytes k)
  refine ⟨.ofKeyBytes k, rfl, fun calls => ⟨refines calls, ?_⟩⟩
  rw [refines calls, ← KeyState.run_key]
  rfl

/-- A key unmarshalled from 64 sevens is reachable, and every run of calls on it refines the
abstract state. -/
theorem private_key_runs_refine_keyState_sevens :
    (PrivateKey.ofBytes (List.replicate 64 7)).Reachable .reverseSeed ∧
      ∃ s : KeyState, PrivateKey.ofBytes (List.replicate 64 7) = s.toPrivateKey ∧ ∀ calls,
        (PrivateKey.ofBytes (List.replicate 64 7)).run calls = (s.run calls).toPrivateKey ∧
        ((PrivateKey.ofBytes (List.replicate 64 7)).run calls).bytes =
          (s.key.run calls).bytes := by
  have unmarshalled : Scheme.unmarshalBinaryPrivateKey (List.replicate 64 7) =
      .ok (.ofBytes (List.replicate 64 7)) := rfl
  have reachable : (PrivateKey.ofBytes (List.replicate 64 7)).Reachable .reverseSeed :=
    .unmarshalBinaryPrivateKey unmarshalled
  exact ⟨reachable, private_key_runs_refine_keyState .reverseSeed reachable⟩

end Hpqc.Sign.Ed25519
