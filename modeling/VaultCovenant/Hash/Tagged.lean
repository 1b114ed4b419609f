import VaultCovenant.Hash.Sha256

/-!
# Tagged hashes

Domain-separated hashing as in BIP-340: the digest of a tag, twice, stands before the data. The
string that is hashed is a definition of its own, so that a statement can speak of a collision
among the strings hashed.
-/

namespace VaultCovenant

/-- The string hashed for `data` under `tag`. -/
def taggedPreimage (tag : String) (data : Bytes) : Bytes :=
  let tagDigest := (sha256 (Bytes.ofText tag)).bytes
  tagDigest ++ tagDigest ++ data

/-- The hash of `data` in the domain `tag`. -/
def taggedHash (tag : String) (data : Bytes) : Digest := sha256 (taggedPreimage tag data)

end VaultCovenant
