import VaultCovenant.Taproot.Branching

/-!
# The layout of scripts as a tree

A list of scripts is laid out by halving: every list of two or more is split in half. What is
computed is the depth of every leaf, from left to right, and the tree is put together leaf by leaf.
A finished tree waits at its depth until the one beside it is finished; then the two are joined one
level up. Depths that no tree has are refused.

Results:
* `leafDepths_length`: a list of `n` scripts has `n` depths.
* `Waiting.place_of_length_le`: a tree that is put below all that wait is not joined.
-/

namespace VaultCovenant

/-! ## Depths -/

/-- The depths of `count` leaves below `depth`, from left to right: one leaf stands at `depth`,
more are split into two halves, the second the larger. -/
def leafDepths (count depth : Nat) : List Nat :=
  if count = 0 then []
  else if count = 1 then [depth]
  else leafDepths (count / 2) (depth + 1) ++ leafDepths (count - count / 2) (depth + 1)
termination_by count
decreasing_by all_goals omega

theorem leafDepths_length (count depth : Nat) : (leafDepths count depth).length = count := by
  fun_induction leafDepths count depth with
  | case1 => rfl
  | case2 => rfl
  | case3 count depth h0 h1 ih1 ih2 => simp only [List.length_append, ih1, ih2]; omega

@[simp] theorem leafDepths_one (depth : Nat) : leafDepths 1 depth = [depth] := by
  unfold leafDepths
  rfl

theorem leafDepths_of_two_le {count : Nat} (h : 2 ≤ count) (depth : Nat) :
    leafDepths count depth =
      leafDepths (count / 2) (depth + 1) ++ leafDepths (count - count / 2) (depth + 1) := by
  rw [leafDepths, if_neg (by omega), if_neg (by omega)]

/-- Scripts with their depths below `depth`, from left to right. -/
def laidOut (scripts : List Script) (depth : Nat) : List (Nat × Script) :=
  (leafDepths scripts.length depth).zip scripts

/-- The greatest depth of a leaf: a control block shows at most so many hashes. -/
def maxLeafDepth : Nat := 128

/-! ## Trees that wait -/

/-- Why leaves at given depths make no tree. -/
inductive LayoutError where
  /-- A leaf stands deeper than a control block can show. -/
  | tooDeep (depth : Nat)
  /-- A leaf stands above a tree that still waits. -/
  | notInOrder
  /-- A leaf is added when the tree is finished. -/
  | overComplete
  /-- When all leaves are added a tree still waits. -/
  | unfinished
  deriving DecidableEq

/-- The wording of a failure. -/
def LayoutError.message : LayoutError → String
  | tooDeep depth => "Taproot builder error: InvalidMerkleTreeDepth(" ++ toString depth ++ ")"
  | notInOrder => "Taproot builder error: NodeNotInDfsOrder"
  | overComplete => "Taproot builder error: OverCompleteTree"
  | unfinished => "Taproot finalization error: unfinished"

/-- The finished trees that wait for the one beside them. There is one place for every depth down
to that of the latest tree, the deepest first. -/
abbrev Waiting := List (Option Branching)

namespace Waiting

/-- Puts a finished tree at its depth. Where one waits there already the two are joined, and the
joint is put one level up. -/
def place (depth : Nat) (tree : Branching) : Waiting → Except LayoutError Waiting
  | [] => .ok (some tree :: List.replicate depth none)
  | beside :: above =>
    if above.length < depth then
      .ok (some tree :: (List.replicate (depth - (above.length + 1)) none ++ beside :: above))
    else
      match beside with
      | none => .ok (some tree :: above)
      | some earlier =>
        if depth = 0 then .error .overComplete
        else place (depth - 1) (.join earlier tree) above

theorem place_of_length_le {depth : Nat} (tree : Branching) {waiting : Waiting}
    (h : waiting.length ≤ depth) :
    place depth tree waiting =
      .ok (some tree :: (List.replicate (depth - waiting.length) none ++ waiting)) := by
  cases waiting with
  | nil => simp [place]
  | cons beside above =>
    unfold place
    exact if_pos h

/-- Adds the next leaf at its depth. -/
def add (waiting : Waiting) (leaf : Nat × Script) : Except LayoutError Waiting :=
  if maxLeafDepth < leaf.1 then .error (.tooDeep leaf.1)
  else if leaf.1 + 1 < waiting.length then .error .notInOrder
  else waiting.place leaf.1 (.leaf leaf.2)

end Waiting

/-! ## Putting a tree together -/

namespace Branching

/-- The tree with these scripts at these depths. -/
def ofDepths (leaves : List (Nat × Script)) : Except LayoutError Branching := do
  match ← leaves.foldlM Waiting.add [] with
  | [some tree] => return tree
  | _ => throw .unfinished

/-- The tree of a list of scripts laid out by halving. -/
def ofScripts (scripts : List Script) : Except LayoutError Branching :=
  ofDepths (laidOut scripts 0)

end Branching

end VaultCovenant
