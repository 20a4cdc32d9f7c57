import Hpqc.Kem.Contract

/-!
# Key generation as derivation from the bytes drawn

A hybrid's `GenerateKeyPair` asks its first component for a key pair, then its second, each
drawing from the random stream, while `DeriveKeyPair` hands the two components the two
shares of one seed. When each component's `GenerateKeyPair` is its `DeriveKeyPair` on the
next `SeedSize()` bytes of the stream, and fails with one of `io.ReadFull`'s short-read
errors when fewer are left (`DerivesGenerated`), the two draws one after the other are
exactly the two shares of the hybrid's `SeedSize()` bytes, so the hybrid's `GenerateKeyPair`
is its own `DeriveKeyPair` on them, and a stream too short for either draw is too short for
the whole. It follows for every nesting of `hybrid.New` over such schemes
(`generateKeyPair_derives_under_nesting`): a generated key pair is the one derived from the
randomness it consumed.

Which of the two short-read errors comes back is not kept: a stream that ends exactly
between the two draws gives `io.EOF` from the second component, where one read of the
whole seed would give `io.ErrUnexpectedEOF`.
-/

namespace Hpqc.Kem

namespace Scheme

/-- `GenerateKeyPair` is `DeriveKeyPair` on the next `SeedSize()` bytes of the random
stream, which it consumes, and fails with a short-read error when fewer are left; and
`DeriveKeyPair` accepts every seed of that length. -/
structure DerivesGenerated (S : Scheme) : Prop where
  derive_ok : ∀ {seed}, seed.length = S.seedSize → ∃ keys, S.deriveKeyPair seed = .ok keys
  generate_of_le : ∀ {rng : Rng}, S.seedSize ≤ rng.length →
    S.generateKeyPair rng = (S.deriveKeyPair (rng.take S.seedSize)).map (·, rng.drop S.seedSize)
  generate_of_lt : ∀ {rng : Rng}, rng.length < S.seedSize →
    ∃ e : Error, e.ShortRead ∧ S.generateKeyPair rng = .error (.error e)

variable {S : Scheme}

/-- On a long enough stream a generated pair is a derived one, and the rest of the stream is
left. -/
theorem DerivesGenerated.generateKeyPair_ok (derives : S.DerivesGenerated) {rng : Rng}
    (inStream : S.seedSize ≤ rng.length) :
    ∃ keys, S.deriveKeyPair (rng.take S.seedSize) = .ok keys ∧
      S.generateKeyPair rng = .ok (keys, rng.drop S.seedSize) := by
  obtain ⟨keys, derived⟩ := derives.derive_ok (List.length_take_of_le inStream)
  exact ⟨keys, derived, by rw [derives.generate_of_le inStream, derived]; rfl⟩

/-- `seedEcho` generates its keys from the one byte it reads. -/
theorem seedEcho_derivesGenerated (ref : SchemeRef) : (seedEcho ref).DerivesGenerated where
  derive_ok exactLength := ⟨_, if_pos exactLength⟩
  generate_of_le {rng} inStream := by
    have drawn : (rng.take 1).length = 1 := List.length_take_of_le inStream
    simp only [seedEcho, bind, StateT.bind, readFull, if_pos (show 1 ≤ rng.length from inStream),
      if_pos drawn]
    rfl
  generate_of_lt {rng} short := by
    refine ⟨_, readFull_error_shortRead rng, ?_⟩
    simp only [seedEcho, bind, StateT.bind, readFull_of_lt (show rng.length < 1 from short)]
    rfl

end Scheme

namespace Hybrid.Scheme

variable {blake2b256 : Bytes → Digest} {sch : Scheme}

/-- On a seed of `SeedSize()` bytes, components that accept their shares derive the hybrid
pair of their pairs. -/
theorem deriveKeyPair_of_components (first : sch.first.DerivesGenerated)
    (second : sch.second.DerivesGenerated) {seed : Bytes} (exactLength : seed.length = sch.seedSize) :
    ∃ pk1 sk1 pk2 sk2, sch.first.deriveKeyPair (seed.take sch.first.seedSize) = .ok (pk1, sk1) ∧
      sch.second.deriveKeyPair (seed.drop sch.first.seedSize) = .ok (pk2, sk2) ∧
      sch.deriveKeyPair seed = .ok (.hybrid sch.addr pk1 pk2, .hybrid sch.addr sk1 sk2) := by
  have firstLength : (seed.take sch.first.seedSize).length = sch.first.seedSize := by
    simp [exactLength]
  have secondLength : (seed.drop sch.first.seedSize).length = sch.second.seedSize := by
    simp [exactLength]
  obtain ⟨⟨pk1, sk1⟩, derived1⟩ := first.derive_ok firstLength
  obtain ⟨⟨pk2, sk2⟩, derived2⟩ := second.derive_ok secondLength
  refine ⟨pk1, sk1, pk2, sk2, derived1, derived2, ?_⟩
  rw [deriveKeyPair_of_length exactLength, derived1, derived2]
  rfl

/-- The first component's draw and then the second's take the same bytes as one draw of
`SeedSize()`, split at `first.SeedSize()`. -/
theorem generateKeyPair_of_le (first : sch.first.DerivesGenerated)
    (second : sch.second.DerivesGenerated) {rng : Rng} (inStream : sch.seedSize ≤ rng.length) :
    sch.generateKeyPair rng =
      (sch.deriveKeyPair (rng.take sch.seedSize)).map (·, rng.drop sch.seedSize) := by
  simp only [seedSize, sumSize] at inStream
  have inFirst : sch.first.seedSize ≤ rng.length := by omega
  have inSecond : sch.second.seedSize ≤ (rng.drop sch.first.seedSize).length := by
    simp only [List.length_drop]
    omega
  obtain ⟨⟨pk1, sk1⟩, derived1, generated1⟩ := first.generateKeyPair_ok inFirst
  obtain ⟨⟨pk2, sk2⟩, derived2, generated2⟩ := second.generateKeyPair_ok inSecond
  rw [deriveKeyPair_of_length (List.length_take_of_le inStream)]
  simp only [generateKeyPair, bind, StateT.bind, Except.bind, generated1, generated2, seedSize,
    sumSize, List.take_take, List.drop_take, List.drop_drop, min_eq_left (Nat.le_add_right _ _),
    Nat.add_sub_cancel_left, derived1, derived2]
  rfl

/-- A stream too short for the hybrid's seed is too short for one of the two draws, and
that draw's short-read error is the result. -/
theorem generateKeyPair_of_lt (first : sch.first.DerivesGenerated)
    (second : sch.second.DerivesGenerated) {rng : Rng} (short : rng.length < sch.seedSize) :
    ∃ e : Error, e.ShortRead ∧ sch.generateKeyPair rng = .error (.error e) := by
  simp only [seedSize, sumSize] at short
  by_cases inFirst : sch.first.seedSize ≤ rng.length
  · obtain ⟨_, -, generated1⟩ := first.generateKeyPair_ok inFirst
    have secondShort : (rng.drop sch.first.seedSize).length < sch.second.seedSize := by
      simp only [List.length_drop]
      omega
    obtain ⟨e, shortRead, failed⟩ := second.generate_of_lt secondShort
    refine ⟨e, shortRead, ?_⟩
    simp only [generateKeyPair, bind, StateT.bind, Except.bind, generated1, failed]
  · obtain ⟨e, shortRead, failed⟩ := first.generate_of_lt (Nat.lt_of_not_le inFirst)
    refine ⟨e, shortRead, ?_⟩
    simp only [generateKeyPair, bind, StateT.bind, failed]
    rfl

/-- The hybrid of two schemes that generate by deriving from the bytes they draw does so
too. -/
theorem derivesGenerated_of_components (first : sch.first.DerivesGenerated)
    (second : sch.second.DerivesGenerated) : (sch.toKem blake2b256).DerivesGenerated where
  derive_ok exactLength := by
    obtain ⟨_, _, _, _, -, -, derived⟩ := deriveKeyPair_of_components first second exactLength
    exact ⟨_, derived⟩
  generate_of_le inStream := generateKeyPair_of_le first second inStream
  generate_of_lt short := generateKeyPair_of_lt first second short

end Hybrid.Scheme

namespace Hybrid

/-- For every nesting of `hybrid.New` over schemes whose `GenerateKeyPair` is their
`DeriveKeyPair` on the next `SeedSize()` bytes of the random stream, the nested scheme's
`GenerateKeyPair` is its own `DeriveKeyPair` on the next `SeedSize()` bytes. -/
theorem generateKeyPair_derives_under_nesting (blake2b256 : Bytes → Digest) (nesting : Nesting)
    (atLeaves : ∀ S ∈ nesting.leaves, S.DerivesGenerated) :
    (nesting.toScheme blake2b256).DerivesGenerated :=
  Nesting.induction_on_leaves blake2b256 Kem.Scheme.DerivesGenerated
    (fun addr name A B => @Scheme.derivesGenerated_of_components blake2b256 (new addr name A B))
    nesting atLeaves

/-- Both leaves of `echoPair` generate by deriving, and so does the nesting. -/
theorem generateKeyPair_derives_under_nesting_echoPair :
    (∀ S ∈ (Nesting.hybrid 3 "echo-pair" (.leaf (Kem.Scheme.seedEcho 1))
      (.leaf (Kem.Scheme.seedEcho 2))).leaves, S.DerivesGenerated) ∧
    ((Nesting.hybrid 3 "echo-pair" (.leaf (Kem.Scheme.seedEcho 1))
      (.leaf (Kem.Scheme.seedEcho 2))).toScheme fun _ => Digest.zero).DerivesGenerated := by
  have atLeaves : ∀ S ∈ (Nesting.hybrid 3 "echo-pair" (.leaf (Kem.Scheme.seedEcho 1))
      (.leaf (Kem.Scheme.seedEcho 2))).leaves, S.DerivesGenerated := by
    intro S mem
    simp only [Nesting.leaves, List.singleton_append, List.mem_cons, List.mem_singleton,
      List.not_mem_nil, or_false] at mem
    rcases mem with rfl | rfl <;> exact Kem.Scheme.seedEcho_derivesGenerated _
  exact ⟨atLeaves, generateKeyPair_derives_under_nesting _ _ atLeaves⟩

end Hybrid

end Hpqc.Kem
