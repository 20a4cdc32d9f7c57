import Hpqc.Kem.Contract
import Mathlib.Algebra.BigOperators.Group.List
import Mathlib.Algebra.Order.Ring.Nat

/-!
# The layout of nested keys

A hybrid key's `MarshalBinary` refuses a nil component with `ErrUninitialized`, else
marshals its first component, then its second, and concatenates them; a component may
itself be a hybrid key. So a key tree of any depth with no nil component is encoded as the
keys at its leaves, those of other implementations, marshalled one after another from left
to right (`marshalBinary_flattens_key_trees`). A tree with a nil component at some depth is
refused with `ErrUninitialized`, and marshalling a tree never dereferences nil below its
root (`marshalBinary_refuses_partial_trees`).

The sizes a nesting of `hybrid.New` declares add up the same way: each is the sum of that
size over the leaves (`nested_sizes_sum_leaves`), so the length of every encoding is the
total over the leaf implementations. Ciphertexts are laid out the same way: the ciphertext
of a nested deterministic encapsulation is the leaves' ciphertexts one after another, each
leaf encapsulating with its own consecutive share of the seed
(`nested_ciphertext_concatenates_leaves`).

Public and private keys have the same shape and the same `MarshalBinary`, so both are read
as a `KeyTree`, and each fact is proved once for trees.
-/

namespace Hpqc.Kem

namespace Hybrid

/-- Marshal each leaf in turn with `marshal` and concatenate; the first failure is the
result. -/
def marshalLeaves (marshal : Nat → Bytes → Go Bytes) : List (Nat × Bytes) → Go Bytes
  | [] => pure []
  | (kind, state) :: rest => do
    let first ← marshal kind state
    let rest ← marshalLeaves marshal rest
    return first ++ rest

variable {marshal : Nat → Bytes → Go Bytes}

/-- Marshalling two runs of leaves one after the other concatenates their encodings. -/
theorem marshalLeaves_append (leaves leaves' : List (Nat × Bytes)) :
    marshalLeaves marshal (leaves ++ leaves') = (do
      let first ← marshalLeaves marshal leaves
      let second ← marshalLeaves marshal leaves'
      return first ++ second) := by
  induction leaves with
  | nil =>
    simp only [marshalLeaves, List.nil_append, pure_bind]
    exact (bind_pure _).symm
  | cons leaf rest ih => simp [marshalLeaves, ih, List.append_assoc]

/-- A single leaf marshals as its own key. -/
theorem marshalLeaves_singleton (kind : Nat) (state : Bytes) :
    marshalLeaves marshal [(kind, state)] = marshal kind state := by
  simp only [marshalLeaves, List.append_nil, pure_bind]
  exact bind_pure _

/-- Leaves that all marshal give an encoding. -/
theorem marshalLeaves_ok {leaves : List (Nat × Bytes)}
    (each : ∀ leaf ∈ leaves, ∃ bytes, marshal leaf.1 leaf.2 = .ok bytes) :
    ∃ bytes, marshalLeaves marshal leaves = .ok bytes := by
  induction leaves with
  | nil => exact ⟨[], rfl⟩
  | cons leaf rest ih =>
    obtain ⟨first, marshalled⟩ := each leaf (List.mem_cons_self _ _)
    obtain ⟨second, restMarshalled⟩ := ih fun leaf' mem => each leaf' (List.mem_cons_of_mem _ mem)
    exact ⟨first ++ second, by simp [marshalLeaves, marshalled, restMarshalled]⟩

/-- A pair with a nil component is refused with `ErrUninitialized`. -/
theorem marshalPair_true (first second : Go Bytes) :
    marshalPair true first second = .error (.error errUninitialized) := rfl

/-- A pair with no nil component marshals its first component, then its second. -/
theorem marshalPair_false (first second : Go Bytes) :
    marshalPair false first second = (do
      let first ← first
      let second ← second
      return first ++ second) := rfl

/-- A node with both components marshals its subtrees' leaves in order. -/
theorem marshalPair_marshalLeaves (leaves leaves' : List (Nat × Bytes)) :
    marshalPair false (marshalLeaves marshal leaves) (marshalLeaves marshal leaves') =
      marshalLeaves marshal (leaves ++ leaves') := by
  rw [marshalPair_false, marshalLeaves_append]

/-- A size that every hybrid declares as the sum over its two components is, for a whole
nesting, the sum over its leaves. -/
theorem Nesting.toScheme_size (blake2b256 : Bytes → Digest) (size : Kem.Scheme → Nat)
    (additive : ∀ sch : Scheme, size (sch.toKem blake2b256) = size sch.first + size sch.second)
    (nesting : Nesting) : size (nesting.toScheme blake2b256) = (nesting.leaves.map size).sum := by
  induction nesting with
  | leaf S => simp [Nesting.toScheme, Nesting.leaves]
  | hybrid addr name first second firstSum secondSum =>
    rw [Nesting.toScheme, additive, Nesting.leaves, List.map_append, List.sum_append]
    exact congrArg₂ (· + ·) firstSum secondSum

/-- Every size a nesting of `hybrid.New` declares is the sum of that size over its leaf
schemes. -/
theorem nested_sizes_sum_leaves (blake2b256 : Bytes → Digest) (nesting : Nesting) :
    (nesting.toScheme blake2b256).publicKeySize =
      (nesting.leaves.map Kem.Scheme.publicKeySize).sum ∧
    (nesting.toScheme blake2b256).privateKeySize =
      (nesting.leaves.map Kem.Scheme.privateKeySize).sum ∧
    (nesting.toScheme blake2b256).seedSize = (nesting.leaves.map Kem.Scheme.seedSize).sum ∧
    (nesting.toScheme blake2b256).sharedKeySize =
      (nesting.leaves.map Kem.Scheme.sharedKeySize).sum ∧
    (nesting.toScheme blake2b256).ciphertextSize =
      (nesting.leaves.map Kem.Scheme.ciphertextSize).sum ∧
    (nesting.toScheme blake2b256).encapsulationSeedSize =
      (nesting.leaves.map Kem.Scheme.encapsulationSeedSize).sum :=
  ⟨Nesting.toScheme_size _ _ (fun _ => rfl) _, Nesting.toScheme_size _ _ (fun _ => rfl) _,
    Nesting.toScheme_size _ _ (fun _ => rfl) _, Nesting.toScheme_size _ _ (fun _ => rfl) _,
    Nesting.toScheme_size _ _ (fun _ => rfl) _, Nesting.toScheme_size _ _ (fun _ => rfl) _⟩

/-- The public keys of `pk` at the places where `nesting` has its leaves, when `pk` is a
hybrid key, of any scheme, wherever `nesting` has a hybrid scheme. -/
def Nesting.publicLeaves : Nesting → PublicKey → Option (List PublicKey)
  | .leaf _, pk => some [pk]
  | .hybrid _ _ first second, .hybrid _ pk1 pk2 => do
    let keys1 ← first.publicLeaves pk1
    let keys2 ← second.publicLeaves pk2
    return keys1 ++ keys2
  | .hybrid _ _ _ _, .nil => none
  | .hybrid _ _ _ _, .foreign _ _ => none

/-- `EncapsulateDeterministically` at each scheme in turn, with its key and the next
`EncapsulationSeedSize()` bytes of the seed; the first failure is the result. -/
def encapsulateLeaves : List Kem.Scheme → List PublicKey → Bytes → Go (List (Bytes × Bytes))
  | [], _, _ => pure []
  | _ :: _, [], _ => pure []
  | S :: schemes, pk :: keys, seed => do
    let result ← S.encapsulateDeterministically pk (seed.take S.encapsulationSeedSize)
    let results ← encapsulateLeaves schemes keys (seed.drop S.encapsulationSeedSize)
    return result :: results

/-- A key of a nesting's shape has one key at each of the nesting's leaf schemes. -/
theorem Nesting.publicLeaves_length {nesting : Nesting} {pk : PublicKey}
    {keys : List PublicKey} (found : nesting.publicLeaves pk = some keys) :
    keys.length = nesting.leaves.length := by
  induction nesting generalizing pk keys with
  | leaf S =>
    cases found
    rfl
  | hybrid addr name first second ihFirst ihSecond =>
    cases pk with
    | hybrid scheme pk1 pk2 =>
      simp only [publicLeaves, Option.bind_eq_bind, Option.bind_eq_some, Option.pure_def,
        Option.some.injEq] at found
      obtain ⟨keys1, found1, keys2, found2, rfl⟩ := found
      simp [leaves, ihFirst found1, ihSecond found2]
    | nil => cases found
    | foreign => cases found

/-- The leaves read only the first `EncapsulationSeedSize()` bytes of the seed, their sum. -/
theorem encapsulateLeaves_take (schemes : List Kem.Scheme) (keys : List PublicKey)
    {seed : Bytes} {n : Nat} (enough : (schemes.map (·.encapsulationSeedSize)).sum ≤ n) :
    encapsulateLeaves schemes keys (seed.take n) = encapsulateLeaves schemes keys seed := by
  induction schemes generalizing keys seed n with
  | nil => cases keys <;> rfl
  | cons S schemes ih =>
    cases keys with
    | nil => rfl
    | cons pk keys =>
      simp only [List.map_cons, List.sum_cons] at enough
      simp only [encapsulateLeaves, List.take_take, List.drop_take,
        min_eq_left (Nat.le_of_add_right_le enough), ih keys (Nat.le_sub_of_add_le' enough)]

/-- The leaves of two subtrees in turn: the first's read the seed from its start, the
second's from the end of the first's shares. -/
theorem encapsulateLeaves_append (schemes schemes' : List Kem.Scheme) {keys : List PublicKey}
    (keys' : List PublicKey) (seed : Bytes) (sameLength : keys.length = schemes.length) :
    encapsulateLeaves (schemes ++ schemes') (keys ++ keys') seed = (do
      let results ← encapsulateLeaves schemes keys seed
      let results' ← encapsulateLeaves schemes' keys'
        (seed.drop (schemes.map (·.encapsulationSeedSize)).sum)
      return results ++ results') := by
  induction schemes generalizing keys seed with
  | nil =>
    cases keys with
    | nil =>
      simp only [encapsulateLeaves, List.nil_append, pure_bind, List.map_nil, List.sum_nil,
        List.drop_zero]
      exact (bind_pure _).symm
    | cons => cases sameLength
  | cons S schemes ih =>
    cases keys with
    | nil => cases sameLength
    | cons pk keys =>
      simp only [List.length_cons, Nat.add_right_cancel_iff] at sameLength
      simp [encapsulateLeaves, ih _ sameLength, List.drop_drop]

/-- A deterministic encapsulation by a nesting of `hybrid.New` that succeeds on a seed of its
`EncapsulationSeedSize()` was given a key of the nesting's shape, and its ciphertext is the
leaves' ciphertexts one after another from left to right, each leaf encapsulating to its
own key with the next `EncapsulationSeedSize()` bytes of the seed. -/
theorem nested_ciphertext_concatenates_leaves (blake2b256 : Bytes → Digest) (nesting : Nesting)
    {pk : PublicKey} {seed ct ss : Bytes}
    (seedLength : seed.length = (nesting.toScheme blake2b256).encapsulationSeedSize)
    (encapsulated :
      (nesting.toScheme blake2b256).encapsulateDeterministically pk seed = .ok (ct, ss)) :
    ∃ keys results, nesting.publicLeaves pk = some keys ∧
      encapsulateLeaves nesting.leaves keys seed = .ok results ∧
      ct = (results.map Prod.fst).flatten := by
  induction nesting generalizing pk seed ct ss with
  | leaf S =>
    refine ⟨[pk], [(ct, ss)], rfl, ?_, by simp⟩
    simp only [Nesting.toScheme] at seedLength encapsulated
    simp [encapsulateLeaves, Nesting.leaves, List.take_of_length_le seedLength.le, encapsulated]
  | hybrid addr name first second ihFirst ihSecond =>
    simp only [Nesting.toScheme, Scheme.toKem_encapsulateDeterministically,
      Scheme.toKem_encapsulationSeedSize] at encapsulated seedLength
    cases pk with
    | hybrid scheme pk1 pk2 =>
      rw [Scheme.encapsulateDeterministically_hybrid seedLength, new_first, new_second]
        at encapsulated
      obtain ⟨⟨ct1, ss1⟩, firstEncapsulated, rest⟩ := Go.bind_eq_ok.1 encapsulated
      obtain ⟨⟨ct2, ss2⟩, secondEncapsulated, done⟩ := Go.bind_eq_ok.1 rest
      cases done
      simp only [Scheme.encapsulationSeedSize, Scheme.sumSize, new_first, new_second] at seedLength
      obtain ⟨keys1, results1, found1, leaves1, rfl⟩ :=
        ihFirst (by simp [seedLength]) firstEncapsulated
      obtain ⟨keys2, results2, found2, leaves2, rfl⟩ :=
        ihSecond (by simp [seedLength]) secondEncapsulated
      have firstSize : (first.leaves.map (·.encapsulationSeedSize)).sum =
          (first.toScheme blake2b256).encapsulationSeedSize :=
        (Nesting.toScheme_size _ _ (fun _ => rfl) first).symm
      refine ⟨keys1 ++ keys2, results1 ++ results2, by simp [Nesting.publicLeaves, found1, found2],
        ?_, by simp⟩
      rw [Nesting.leaves, encapsulateLeaves_append _ _ _ _ (Nesting.publicLeaves_length found1),
        ← encapsulateLeaves_take _ _ firstSize.le, leaves1, firstSize]
      simp [leaves2]
    | nil | foreign _ _ =>
      rw [Scheme.encapsulateDeterministically_of_not_hybrid seedLength
        fun _ _ _ same => PublicKey.noConfusion same]
        at encapsulated
      cases encapsulated

/-- The nesting that builds `echoPair`. -/
def Nesting.echoPair : Nesting :=
  .hybrid 3 "echo-pair" (.leaf (Kem.Scheme.seedEcho 1)) (.leaf (Kem.Scheme.seedEcho 2))

/-- `echoPair` on the seed `[7, 8]`: the ciphertext is the leaves' ciphertexts in order. -/
theorem nested_ciphertext_concatenates_leaves_echoPair :
    [7, 8].length = (Nesting.echoPair.toScheme fun _ => Digest.zero).encapsulationSeedSize ∧
    (Nesting.echoPair.toScheme fun _ => Digest.zero).encapsulateDeterministically
        (.hybrid 3 (.foreign 0 [0]) (.foreign 0 [0])) [7, 8] =
      .ok ([7, 8], pairSplitPRF (fun _ => Digest.zero) [7] [8] [7] [8]) ∧
    ∃ keys results, Nesting.echoPair.publicLeaves (.hybrid 3 (.foreign 0 [0]) (.foreign 0 [0])) =
        some keys ∧ encapsulateLeaves Nesting.echoPair.leaves keys [7, 8] = .ok results ∧
      [7, 8] = (results.map Prod.fst).flatten := by
  have encapsulated : (Nesting.echoPair.toScheme fun _ => Digest.zero).encapsulateDeterministically
        (.hybrid 3 (.foreign 0 [0]) (.foreign 0 [0])) [7, 8] =
      .ok ([7, 8], pairSplitPRF (fun _ => Digest.zero) [7] [8] [7] [8]) := rfl
  exact ⟨rfl, encapsulated, nested_ciphertext_concatenates_leaves _ _ rfl encapsulated⟩
end Hybrid

/-- The shape both kinds of key value share: nil, a hybrid key with its scheme and two
components, or the key of another implementation. -/
inductive KeyTree where
  | nil
  | hybrid (scheme : SchemeRef) (first second : KeyTree)
  | foreign (kind : Nat) (state : Bytes)
  deriving DecidableEq

namespace KeyTree

/-- The keys of other implementations at the leaves, left to right. -/
def leaves : KeyTree → List (Nat × Bytes)
  | .nil => []
  | .hybrid _ first second => first.leaves ++ second.leaves
  | .foreign kind state => [(kind, state)]

/-- Whether no component, at any depth, is nil. -/
def initialized : KeyTree → Bool
  | .nil => false
  | .hybrid _ first second => first.initialized && second.initialized
  | .foreign _ _ => true

/-- `MarshalBinary` on a key tree, with `marshal` the method of the keys at the leaves. -/
def marshalBinary (marshal : Nat → Bytes → Go Bytes) : KeyTree → Go Bytes
  | .nil => throw (.panic .nilDereference)
  | .hybrid _ first second =>
    Hybrid.marshalPair (first == .nil || second == .nil) (first.marshalBinary marshal)
      (second.marshalBinary marshal)
  | .foreign kind state => marshal kind state

/-- An initialized tree is not nil. -/
theorem ne_nil_of_initialized {tree : KeyTree} (complete : tree.initialized = true) :
    tree ≠ .nil := by
  rintro rfl
  cases complete

variable (marshal : Nat → Bytes → Go Bytes)

/-- A tree with no nil component marshals as its leaves, one after another. -/
theorem marshalBinary_of_initialized {tree : KeyTree} (complete : tree.initialized = true) :
    tree.marshalBinary marshal = Hybrid.marshalLeaves marshal tree.leaves := by
  induction tree with
  | nil => cases complete
  | hybrid _ first second ihFirst ihSecond =>
    simp only [initialized, Bool.and_eq_true] at complete
    have present : (first == .nil || second == .nil) = false := by
      simp [ne_nil_of_initialized complete.1, ne_nil_of_initialized complete.2]
    rw [marshalBinary, present, ihFirst complete.1, ihSecond complete.2,
      Hybrid.marshalPair_marshalLeaves]
    rfl
  | foreign kind state => exact (Hybrid.marshalLeaves_singleton kind state).symm

/-- A tree that is not nil but has a nil component somewhere is refused with
`ErrUninitialized`, as long as its leaves marshal. -/
theorem marshalBinary_of_not_initialized {tree : KeyTree} (notNil : tree ≠ .nil)
    (incomplete : tree.initialized = false)
    (each : ∀ leaf ∈ tree.leaves, ∃ bytes, marshal leaf.1 leaf.2 = .ok bytes) :
    tree.marshalBinary marshal = .error (.error Hybrid.errUninitialized) := by
  induction tree with
  | nil => exact absurd rfl notNil
  | hybrid _ first second ihFirst ihSecond =>
    rw [marshalBinary]
    cases missing : (first == .nil || second == .nil)
    · simp only [Bool.or_eq_false_iff, beq_eq_false_iff_ne] at missing
      simp only [leaves, List.mem_append] at each
      rw [Hybrid.marshalPair_false]
      cases firstComplete : first.initialized
      · rw [ihFirst missing.1 firstComplete fun leaf mem => each leaf (.inl mem)]
        rfl
      · have secondIncomplete : second.initialized = false := by
          simpa [initialized, firstComplete] using incomplete
        obtain ⟨bytes, marshalled⟩ := Hybrid.marshalLeaves_ok fun leaf mem => each leaf (.inl mem)
        rw [marshalBinary_of_initialized marshal firstComplete, marshalled,
          ihSecond missing.2 secondIncomplete fun leaf mem => each leaf (.inr mem)]
        rfl
    · exact Hybrid.marshalPair_true _ _
  | foreign => cases incomplete

/-- Marshalling a tree that is not nil dereferences nil only where a leaf's own method
does. -/
theorem marshalBinary_ne_nilDereference {tree : KeyTree} (notNil : tree ≠ .nil)
    (leafSafe : ∀ kind state, marshal kind state ≠ .error (.panic .nilDereference)) :
    tree.marshalBinary marshal ≠ .error (.panic .nilDereference) := by
  induction tree with
  | nil => exact absurd rfl notNil
  | hybrid _ first second ihFirst ihSecond =>
    rw [marshalBinary]
    cases missing : (first == .nil || second == .nil)
    · simp only [Bool.or_eq_false_iff, beq_eq_false_iff_ne] at missing
      rw [Hybrid.marshalPair_false]
      exact Go.bind_ne_error (ihFirst missing.1) fun _ =>
        Go.bind_ne_error (ihSecond missing.2) fun _ => by simp
    · simp [Hybrid.marshalPair_true]
  | foreign kind state => exact leafSafe kind state

end KeyTree

/-- A public key value as a key tree. -/
def PublicKey.toTree : PublicKey → KeyTree
  | .nil => .nil
  | .hybrid scheme first second => .hybrid scheme first.toTree second.toTree
  | .foreign kind state => .foreign kind state

/-- A private key value as a key tree. -/
def PrivateKey.toTree : PrivateKey → KeyTree
  | .nil => .nil
  | .hybrid scheme first second => .hybrid scheme first.toTree second.toTree
  | .foreign kind state => .foreign kind state

/-- A public key's tree is nil exactly when the key is. -/
theorem PublicKey.toTree_beq_nil (pk : PublicKey) : (pk.toTree == .nil) = (pk == .nil) := by
  cases pk <;> rfl

/-- A private key's tree is nil exactly when the key is. -/
theorem PrivateKey.toTree_beq_nil (sk : PrivateKey) : (sk.toTree == .nil) = (sk == .nil) := by
  cases sk <;> rfl

/-- A public key that is not nil has a tree that is not nil. -/
theorem PublicKey.toTree_ne_nil {pk : PublicKey} (notNil : pk ≠ .nil) : pk.toTree ≠ .nil := by
  cases pk <;> simp_all [toTree]

/-- A private key that is not nil has a tree that is not nil. -/
theorem PrivateKey.toTree_ne_nil {sk : PrivateKey} (notNil : sk ≠ .nil) : sk.toTree ≠ .nil := by
  cases sk <;> simp_all [toTree]

/-- The public-key `MarshalBinary` is the tree's. -/
theorem PublicKey.marshalBinary_eq_tree (rt : Runtime) (pk : PublicKey) :
    pk.marshalBinary rt = pk.toTree.marshalBinary rt.marshalPublic := by
  induction pk with
  | nil => rfl
  | hybrid _ first second ihFirst ihSecond =>
    simp only [marshalBinary, toTree, KeyTree.marshalBinary, ihFirst, ihSecond, toTree_beq_nil]
  | foreign => rfl

/-- The private-key `MarshalBinary` is the tree's. -/
theorem PrivateKey.marshalBinary_eq_tree (rt : Runtime) (sk : PrivateKey) :
    sk.marshalBinary rt = sk.toTree.marshalBinary rt.marshalPrivate := by
  induction sk with
  | nil => rfl
  | hybrid _ first second ihFirst ihSecond =>
    simp only [marshalBinary, toTree, KeyTree.marshalBinary, ihFirst, ihSecond, toTree_beq_nil]
  | foreign => rfl

/-- Every key value with no nil component at any depth, public or private, is encoded as
the keys at its leaves marshalled one after another from left to right and concatenated;
the first leaf that fails decides the result. -/
theorem marshalBinary_flattens_key_trees (rt : Runtime) :
    (∀ pk : PublicKey, pk.toTree.initialized = true →
      pk.marshalBinary rt = Hybrid.marshalLeaves rt.marshalPublic pk.toTree.leaves) ∧
    ∀ sk : PrivateKey, sk.toTree.initialized = true →
      sk.marshalBinary rt = Hybrid.marshalLeaves rt.marshalPrivate sk.toTree.leaves :=
  ⟨fun pk complete =>
    (pk.marshalBinary_eq_tree rt).trans (KeyTree.marshalBinary_of_initialized _ complete),
   fun sk complete =>
    (sk.marshalBinary_eq_tree rt).trans (KeyTree.marshalBinary_of_initialized _ complete)⟩

/-- A key nested two deep marshals as its three leaves from left to right. -/
theorem marshalBinary_flattens_key_trees_nested :
    (PublicKey.hybrid 3 (.hybrid 4 (.foreign 0 [1]) (.foreign 0 [2])) (.foreign 0 [3])).marshalBinary
      .byState = .ok [1, 2, 3] :=
  ((marshalBinary_flattens_key_trees .byState).1
    (.hybrid 3 (.hybrid 4 (.foreign 0 [1]) (.foreign 0 [2])) (.foreign 0 [3])) rfl).trans rfl

/-- A key value, public or private, that is not nil itself but has a nil component at some
depth is refused with `ErrUninitialized` whenever its leaves marshal; and marshalling a key
value that is not nil never dereferences nil unless the method of a key at a leaf does. -/
theorem marshalBinary_refuses_partial_trees (rt : Runtime) :
    (∀ pk : PublicKey, pk ≠ .nil → pk.toTree.initialized = false →
      (∀ leaf ∈ pk.toTree.leaves, ∃ bytes, rt.marshalPublic leaf.1 leaf.2 = .ok bytes) →
      pk.marshalBinary rt = .error (.error Hybrid.errUninitialized)) ∧
    (∀ sk : PrivateKey, sk ≠ .nil → sk.toTree.initialized = false →
      (∀ leaf ∈ sk.toTree.leaves, ∃ bytes, rt.marshalPrivate leaf.1 leaf.2 = .ok bytes) →
      sk.marshalBinary rt = .error (.error Hybrid.errUninitialized)) ∧
    ((∀ kind state, rt.marshalPublic kind state ≠ .error (.panic .nilDereference)) →
      ∀ pk : PublicKey, pk ≠ .nil → pk.marshalBinary rt ≠ .error (.panic .nilDereference)) ∧
    ((∀ kind state, rt.marshalPrivate kind state ≠ .error (.panic .nilDereference)) →
      ∀ sk : PrivateKey, sk ≠ .nil → sk.marshalBinary rt ≠ .error (.panic .nilDereference)) := by
  refine ⟨fun pk notNil incomplete each => ?_, fun sk notNil incomplete each => ?_,
    fun leafSafe pk notNil => ?_, fun leafSafe sk notNil => ?_⟩
  · rw [pk.marshalBinary_eq_tree rt]
    exact KeyTree.marshalBinary_of_not_initialized _ (PublicKey.toTree_ne_nil notNil) incomplete each
  · rw [sk.marshalBinary_eq_tree rt]
    exact KeyTree.marshalBinary_of_not_initialized _ (PrivateKey.toTree_ne_nil notNil) incomplete
      each
  · rw [pk.marshalBinary_eq_tree rt]
    exact KeyTree.marshalBinary_ne_nilDereference _ (PublicKey.toTree_ne_nil notNil) leafSafe
  · rw [sk.marshalBinary_eq_tree rt]
    exact KeyTree.marshalBinary_ne_nilDereference _ (PrivateKey.toTree_ne_nil notNil) leafSafe

/-- A key with a nil component one level down is refused with `ErrUninitialized`. -/
theorem marshalBinary_refuses_partial_trees_nested :
    (PublicKey.hybrid 3 (.hybrid 4 .nil (.foreign 0 [1])) (.foreign 0 [2])).marshalBinary
      .byState = .error (.error Hybrid.errUninitialized) :=
  (marshalBinary_refuses_partial_trees .byState).1 _ (by decide) rfl fun _ _ => ⟨_, rfl⟩

end Hpqc.Kem
