import Hpqc.Kem.Hybrid.Correctness

/-!
# The binary key encoding of a hybrid

A hybrid key marshals to its components' encodings back to back, with no framing, and
unmarshals by splitting at the first component's declared size. When each component's
encodings have its declared size, the split falls on the boundary the concatenation
made, so the hybrid's encoding is a bijection whenever its components' are.

Public and private keys run the same code, so `pairEncoding` proves the three laws once
for any key type, and the two instances follow.
-/

namespace Hpqc.Kem.Hybrid.Scheme

variable {blake2b256 : Bytes → Digest} {sch : Scheme}

/-- A buffer the hybrid unmarshals has the declared length, and its two shares are what
the components unmarshalled. -/
theorem unmarshalPair_eq_ok {Key : Type} {size : Kem.Scheme → Nat} {sizeError : Error}
    {unmarshal : Kem.Scheme → Bytes → Go Key} {pair : SchemeRef → Key → Key → Key}
    {buf : Bytes} {key : Key}
    (unmarshalled : sch.unmarshalPair size sizeError unmarshal pair buf = .ok key) :
    buf.length = sch.sumSize size ∧ ∃ key1 key2,
      unmarshal sch.first (buf.take (size sch.first)) = .ok key1 ∧
      unmarshal sch.second (buf.drop (size sch.first)) = .ok key2 ∧
      key = pair sch.addr key1 key2 := by
  by_cases exactLength : buf.length = sch.sumSize size
  · rw [unmarshalPair_of_length exactLength] at unmarshalled
    obtain ⟨key1, first, rest⟩ := Go.bind_eq_ok.1 unmarshalled
    obtain ⟨key2, second, done⟩ := Go.bind_eq_ok.1 rest
    exact ⟨exactLength, key1, key2, first, second, (Except.ok.inj done).symm⟩
  · simp [unmarshalPair_of_length_ne exactLength] at unmarshalled

section pairEncoding

variable {Key : Type} [DecidableEq Key] {nil : Key} {wrap : SchemeRef → Key → Key → Key}
  {marshal : Key → Go Bytes} {equal : Key → Key → Go Bool}

/-- The encoding laws pass from the components to the hybrid, for either kind of key:
`marshal` and `equal` are a hybrid key's methods, which call themselves on the
components, and every key of the hybrid pairs a key of each component. -/
theorem pairEncoding {size : Kem.Scheme → Nat} {sizeError : Error}
    {unmarshal : Kem.Scheme → Bytes → Go Key} {keyOfFirst keyOfSecond keyOf : Key → Prop}
    (marshal_nil : marshal nil = .error (.panic .nilDereference))
    (marshal_wrap : ∀ scheme a b,
      marshal (wrap scheme a b) = marshalPair (a == nil || b == nil) (marshal a) (marshal b))
    (equal_wrap : ∀ scheme a b scheme' c d,
      equal (wrap scheme a b) (wrap scheme' c d) = equalPair (equal a c) (equal b d))
    (keyOf_wrap : ∀ {key}, keyOf key →
      ∃ a b, key = wrap sch.addr a b ∧ keyOfFirst a ∧ keyOfSecond b)
    (first : Kem.Scheme.EncodingLaws keyOfFirst marshal equal (unmarshal sch.first)
      (size sch.first))
    (second : Kem.Scheme.EncodingLaws keyOfSecond marshal equal (unmarshal sch.second)
      (size sch.second)) :
    Kem.Scheme.EncodingLaws keyOf marshal equal (sch.unmarshalPair size sizeError unmarshal wrap)
      (sch.sumSize size) := by
  have nonNil : ∀ {key buf}, marshal key = .ok buf → key ≠ nil := by
    rintro key buf marshalled rfl
    simp [marshal_nil] at marshalled
  have marshal_wrap_ok : ∀ {scheme a b bufA bufB}, marshal a = .ok bufA →
      marshal b = .ok bufB → marshal (wrap scheme a b) = .ok (bufA ++ bufB) := by
    intro scheme a b bufA bufB marshalledA marshalledB
    simp [marshal_wrap, marshalPair, nonNil marshalledA, nonNil marshalledB, marshalledA,
      marshalledB]
  refine ⟨fun owned => ?_, fun owned marshalled => ?_, fun unmarshalled => ?_⟩
  · obtain ⟨a, b, rfl, ownedA, ownedB⟩ := keyOf_wrap owned
    obtain ⟨bufA, marshalledA, lengthA⟩ := first.marshal_length ownedA
    obtain ⟨bufB, marshalledB, lengthB⟩ := second.marshal_length ownedB
    exact ⟨bufA ++ bufB, marshal_wrap_ok marshalledA marshalledB, by simp [lengthA, lengthB]⟩
  · obtain ⟨a, b, rfl, ownedA, ownedB⟩ := keyOf_wrap owned
    obtain ⟨bufA, marshalledA, lengthA⟩ := first.marshal_length ownedA
    obtain ⟨bufB, marshalledB, lengthB⟩ := second.marshal_length ownedB
    obtain rfl : bufA ++ bufB = _ :=
      Except.ok.inj ((marshal_wrap_ok marshalledA marshalledB).symm.trans marshalled)
    obtain ⟨a', unmarshalledA, equalA⟩ := first.unmarshal_marshal ownedA marshalledA
    obtain ⟨b', unmarshalledB, equalB⟩ := second.unmarshal_marshal ownedB marshalledB
    refine ⟨wrap sch.addr a' b', ?_, by simp [equal_wrap, equalPair, equalA, equalB]⟩
    rw [unmarshalPair_of_length (by simp [lengthA, lengthB])]
    simp [List.take_left' lengthA, List.drop_left' lengthA, unmarshalledA, unmarshalledB]
  · obtain ⟨-, a, b, unmarshalledA, unmarshalledB, rfl⟩ := unmarshalPair_eq_ok unmarshalled
    rw [marshal_wrap_ok (first.marshal_unmarshal unmarshalledA)
      (second.marshal_unmarshal unmarshalledB), List.take_append_drop]

end pairEncoding

/-- Every private key of the hybrid pairs a private key of each component under the
hybrid's scheme. -/
theorem privateKeyOf_toKem {sk : PrivateKey} (owned : (sch.toKem blake2b256).PrivateKeyOf sk) :
    ∃ sk1 sk2, sk = .hybrid sch.addr sk1 sk2 ∧
      sch.first.PrivateKeyOf sk1 ∧ sch.second.PrivateKeyOf sk2 := by
  cases owned with
  | derive exactLength derived =>
    obtain ⟨_, sk1, _, sk2, -, rfl, first, second⟩ := deriveKeyPair_eq_ok exactLength derived
    have shares := share_lengths Kem.Scheme.seedSize exactLength
    exact ⟨sk1, sk2, rfl, .derive shares.1 first, .derive shares.2 second⟩
  | generate generated =>
    obtain ⟨_, sk1, _, sk2, _, -, rfl, first, second⟩ := generateKeyPair_eq_ok generated
    exact ⟨sk1, sk2, rfl, .generate first, .generate second⟩
  | unmarshal accepted =>
    obtain ⟨-, sk1, sk2, first, second, rfl⟩ := unmarshalPair_eq_ok accepted
    exact ⟨sk1, sk2, rfl, .unmarshal first, .unmarshal second⟩

/-- Every public key of the hybrid pairs a public key of each component under the
hybrid's scheme. -/
theorem publicKeyOf_toKem {rt : Runtime} {pk : PublicKey}
    (owned : (sch.toKem blake2b256).PublicKeyOf rt pk) :
    ∃ pk1 pk2, pk = .hybrid sch.addr pk1 pk2 ∧
      sch.first.PublicKeyOf rt pk1 ∧ sch.second.PublicKeyOf rt pk2 := by
  cases owned with
  | derive exactLength derived =>
    obtain ⟨pk1, _, pk2, _, rfl, -, first, second⟩ := deriveKeyPair_eq_ok exactLength derived
    have shares := share_lengths Kem.Scheme.seedSize exactLength
    exact ⟨pk1, pk2, rfl, .derive shares.1 first, .derive shares.2 second⟩
  | generate generated =>
    obtain ⟨pk1, _, pk2, _, _, rfl, -, first, second⟩ := generateKeyPair_eq_ok generated
    exact ⟨pk1, pk2, rfl, .generate first, .generate second⟩
  | unmarshal accepted =>
    obtain ⟨-, pk1, pk2, first, second, rfl⟩ := unmarshalPair_eq_ok accepted
    exact ⟨pk1, pk2, rfl, .unmarshal first, .unmarshal second⟩
  | public owner derived =>
    obtain ⟨sk1, sk2, rfl, owned1, owned2⟩ := privateKeyOf_toKem owner
    obtain ⟨pk1, first, rest⟩ := Go.bind_eq_ok.1 derived
    obtain ⟨pk2, second, done⟩ := Go.bind_eq_ok.1 rest
    exact ⟨pk1, pk2, (Except.ok.inj done).symm, .public owned1 first, .public owned2 second⟩

/-- The hybrid's public-key encoding is a bijection whenever its components' are. -/
theorem publicEncoding_of_components {rt : Runtime} (first : sch.first.PublicEncoding rt)
    (second : sch.second.PublicEncoding rt) : (sch.toKem blake2b256).PublicEncoding rt :=
  pairEncoding (show PublicKey.marshalBinary rt .nil = _ from rfl) (fun _ _ _ => rfl)
    (fun _ _ _ _ _ _ => rfl) publicKeyOf_toKem first second

/-- The hybrid's private-key encoding is a bijection whenever its components' are. -/
theorem privateEncoding_of_components {rt : Runtime} (first : sch.first.PrivateEncoding rt)
    (second : sch.second.PrivateEncoding rt) : (sch.toKem blake2b256).PrivateEncoding rt :=
  pairEncoding (show PrivateKey.marshalBinary rt .nil = _ from rfl) (fun _ _ _ => rfl)
    (fun _ _ _ _ _ _ => rfl) privateKeyOf_toKem first second

variable (blake2b256)

/-- The hybrid's binary key encoding is a bijection between its keys and the buffers of
its declared sizes, for public and for private keys, whenever its components' encodings
are; unmarshalling returns a key of the hybrid's own scheme. So the laws hold for every
nesting of `hybrid.New` over such schemes. -/
theorem encoding_under_nesting (rt : Runtime) :
    (∀ (addr : SchemeRef) (name : String) (A B : Kem.Scheme),
      A.PublicEncoding rt → A.PrivateEncoding rt →
      B.PublicEncoding rt → B.PrivateEncoding rt →
      ((new addr name A B).toKem blake2b256).PublicEncoding rt ∧
      ((new addr name A B).toKem blake2b256).PrivateEncoding rt ∧
      (∀ buf pk, ((new addr name A B).toKem blake2b256).unmarshalBinaryPublicKey buf = .ok pk →
        ∃ first second, pk = .hybrid addr first second) ∧
      (∀ buf sk, ((new addr name A B).toKem blake2b256).unmarshalBinaryPrivateKey buf = .ok sk →
        ∃ first second, sk = .hybrid addr first second)) ∧
    ∀ nesting : Nesting, (∀ S ∈ nesting.leaves, S.PublicEncoding rt ∧ S.PrivateEncoding rt) →
      (nesting.toScheme blake2b256).PublicEncoding rt ∧
        (nesting.toScheme blake2b256).PrivateEncoding rt := by
  refine ⟨fun addr name A B publicA privateA publicB privateB =>
    ⟨publicEncoding_of_components publicA publicB,
      privateEncoding_of_components privateA privateB, ?_, ?_⟩, ?_⟩
  · intro buf pk unmarshalled
    obtain ⟨-, first, second, -, -, rfl⟩ := unmarshalPair_eq_ok unmarshalled
    exact ⟨first, second, rfl⟩
  · intro buf sk unmarshalled
    obtain ⟨-, first, second, -, -, rfl⟩ := unmarshalPair_eq_ok unmarshalled
    exact ⟨first, second, rfl⟩
  · exact Nesting.induction_on_leaves blake2b256
      (fun S => S.PublicEncoding rt ∧ S.PrivateEncoding rt) fun _ _ _ _ first second =>
        ⟨publicEncoding_of_components first.1 second.1,
          privateEncoding_of_components first.2 second.2⟩

/-- Both `seedEcho` components meet the encoding laws, and so their hybrid's public keys do. -/
theorem encoding_under_nesting_seedEcho :
    ((Kem.Scheme.seedEcho 1).PublicEncoding .byState ∧
      (Kem.Scheme.seedEcho 1).PrivateEncoding .byState) ∧
    ((Kem.Scheme.seedEcho 2).PublicEncoding .byState ∧
      (Kem.Scheme.seedEcho 2).PrivateEncoding .byState) ∧
    (echoPair.toKem fun _ => Digest.zero).PublicEncoding .byState :=
  ⟨⟨Kem.Scheme.seedEcho_publicEncoding, Kem.Scheme.seedEcho_privateEncoding⟩,
    ⟨Kem.Scheme.seedEcho_publicEncoding, Kem.Scheme.seedEcho_privateEncoding⟩,
    ((encoding_under_nesting (fun _ => Digest.zero) .byState).1 3 "echo-pair" _ _
      Kem.Scheme.seedEcho_publicEncoding Kem.Scheme.seedEcho_privateEncoding
      Kem.Scheme.seedEcho_publicEncoding Kem.Scheme.seedEcho_privateEncoding).1⟩

end Scheme

/-! ## The text encoding -/

/-- A PEM codec with no armour: the text of a key is its binary encoding, and decoding
returns the text. It meets the round trip that `UnmarshalText` relies on. -/
def PemCodec.bare (rt : Runtime) : PemCodec where
  toPublicPEMBytes pk := pk.marshalBinary rt
  fromPublicPEMToBytes text _ := pure text

/-- `UnmarshalText` of a key's own text succeeds into a receiver holding a different key of
the same hybrid, and leaves it holding that different key, which is not `Equal` to the
decoded one and marshals differently. -/
theorem unmarshalText_leaves_receiver_stale :
    marshalText (.bare .byState) (.hybrid 3 (.foreign 0 [1]) (.foreign 0 [1])) = .ok [1, 1] ∧
      (PemCodec.bare .byState).fromPublicPEMToBytes [1, 1] (echoPair.toKem fun _ => Digest.zero) =
        (PublicKey.hybrid 3 (.foreign 0 [1]) (.foreign 0 [1])).marshalBinary .byState ∧
      echoPair.unmarshalText (fun _ => Digest.zero) (.bare .byState) [1, 1]
          (.hybrid 3 (.foreign 0 [0]) (.foreign 0 [0])) =
        .ok ((), .hybrid 3 (.foreign 0 [0]) (.foreign 0 [0])) ∧
      (PublicKey.hybrid 3 (.foreign 0 [0]) (.foreign 0 [0])).equal .byState
          (.hybrid 3 (.foreign 0 [1]) (.foreign 0 [1])) = .ok false ∧
      (PublicKey.hybrid 3 (.foreign 0 [0]) (.foreign 0 [0])).marshalBinary .byState =
        .ok [0, 0] :=
  ⟨rfl, rfl, rfl, rfl, rfl⟩

end Hpqc.Kem.Hybrid
