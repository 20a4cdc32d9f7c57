import Hpqc.Go

/-!
# The split PRF

The hybrid mixes its two shared secrets with `util.PairSplitPRF` of package
`kem/util`, which is not among the sources. Its Blake2b-256 hash is a parameter here:
a function onto 32-byte digests.
-/

namespace Hpqc.Kem

/-- A Blake2b-256 digest. -/
def Digest := {digest : Bytes // digest.length = 32}

/-- The all-zero digest. -/
def Digest.zero : Digest := ⟨List.replicate 32 0, List.length_replicate 32 0⟩

/-- Modelled from the spec: `util.PairSplitPRF(ss1, ss2, cct1, cct2)`, the split PRF of
§4.3 for two components. Each shared secret is hashed with the whole concatenated
ciphertext, and the two digests are XORed byte by byte. -/
def pairSplitPRF (blake2b256 : Bytes → Digest) (ss1 ss2 cct1 cct2 : Bytes) : Bytes :=
  let cct := cct1 ++ cct2
  List.zipWith (· ^^^ ·) (blake2b256 (ss1 ++ cct)).1 (blake2b256 (ss2 ++ cct)).1

/-- The split PRF yields one digest's worth of bytes, whatever its inputs. -/
@[simp] theorem pairSplitPRF_length (blake2b256 : Bytes → Digest) (ss1 ss2 cct1 cct2 : Bytes) :
    (pairSplitPRF blake2b256 ss1 ss2 cct1 cct2).length = 32 := by
  simp [pairSplitPRF, (blake2b256 _).2]

end Hpqc.Kem
