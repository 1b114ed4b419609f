import VaultCovenant.Hash.Tagged
import VaultCovenant.Transaction.Basic

/-!
# Script trees

Binary trees with scripts at the leaves, their root hash and the openings of their leaves as in
BIP-341.

Results:
* `Branching.openings_map_fst`: the openings of a tree are those of its leaves, left to right.
-/

namespace VaultCovenant

/-! ## Hashes of leaves and joints -/

/-- The version of a leaf whose script is run under the current rules. -/
def leafVersion : UInt8 := 0xc0

/-- The data hashed for a leaf. -/
def leafData (script : Script) : Bytes := leafVersion :: script.serialize

/-- The hash of a leaf. -/
def leafHash (script : Script) : Digest := taggedHash "TapLeaf" (leafData script)

/-- The data hashed for a joint: the two hashes below it, the smaller first. -/
def joinData (a b : Digest) : Bytes :=
  if a.le b then a.bytes ++ b.bytes else b.bytes ++ a.bytes

/-- The hash of a joint. -/
def joinHash (a b : Digest) : Digest := taggedHash "TapBranch" (joinData a b)

/-! ## Trees -/

/-- A nonempty binary tree of scripts. -/
inductive Branching where
  | leaf (script : Script)
  | join (left right : Branching)
  deriving DecidableEq

namespace Branching

/-- The root hash. -/
def root : Branching → Digest
  | leaf script => leafHash script
  | join left right => joinHash left.root right.root

/-- The scripts from left to right. -/
def scripts : Branching → List Script
  | leaf script => [script]
  | join left right => left.scripts ++ right.scripts

/-- Every leaf from left to right with the hashes beside its way up, the deepest first. -/
def openings : Branching → List (Script × List Digest)
  | leaf script => [(script, [])]
  | join left right =>
    let leftRoot := left.root
    let rightRoot := right.root
    left.openings.map (fun (script, branch) => (script, branch ++ [rightRoot]))
      ++ right.openings.map fun (script, branch) => (script, branch ++ [leftRoot])

theorem openings_map_fst (tree : Branching) : tree.openings.map Prod.fst = tree.scripts := by
  induction tree with
  | leaf script => rfl
  | join left right ihl ihr =>
    simp [openings, scripts, ← ihl, ← ihr, Function.comp_def]

end Branching

end VaultCovenant
