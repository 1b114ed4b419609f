import VaultCovenant.Failure
import VaultCovenant.Key.Schnorr
import VaultCovenant.Taproot.Layout

/-!
# Taproot outputs

An internal key with named script leaves. The output key commits to all leaves; a control block
shows that one of them is among them.

Results:
* `TaprootTree.length_scriptPubkey`: the script of an output has 34 bytes.
* `TaprootTree.leafScript_eq_error_iff`: looking up a leaf fails only for a name not in the tree.
-/

namespace VaultCovenant

/-! ## Control blocks -/

/-- The proof that a script is a leaf of an output: the parity of the output key, the internal key,
and the hashes beside the way from the leaf to the root. -/
structure ControlBlock where
  oddY : Bool
  internalKey : XOnlyKey
  branch : List Digest
  deriving DecidableEq

namespace ControlBlock

/-- The bytes of a control block; the first holds the leaf version and the parity. -/
def bytes (c : ControlBlock) : Bytes :=
  (if c.oddY then leafVersion ||| 1 else leafVersion)
    :: c.internalKey.bytes ++ c.branch.flatMap (·.bytes)

/-- The root hash of every tree in which `script` is the leaf opened. -/
def root (c : ControlBlock) (script : Script) : Digest := c.branch.foldl joinHash (leafHash script)

/-- The output key of every output that the control block opens at `script`. -/
def outputKey (c : ControlBlock) (script : Script) : TweakedKey :=
  c.internalKey.tweak (some (c.root script))

end ControlBlock

/-! ## Trees with named leaves -/

/-- A taproot output: an internal key and its leaves in order. Without leaves the key alone can
spend. -/
structure TaprootTree where
  internalKey : XOnlyKey
  leaves : List (String × Script)
  deriving DecidableEq

namespace TaprootTree

/-- The output that only its key can spend. -/
def keyOnly (key : XOnlyKey) : TaprootTree := ⟨key, []⟩

/-- The output with an internal key and named leaves in the order in which they are laid out. -/
def ofLeaves (key : XOnlyKey) (leaves : List (String × Script)) : Except VaultError TaprootTree :=
  if leaves.isEmpty then .ok (keyOnly key)
  else
    match Branching.ofScripts (leaves.map Prod.snd) with
    | .ok _ => .ok ⟨key, leaves⟩
    | .error e => .error (.taproot e.message)

/-- The tree of the leaves' scripts. -/
def branching? (t : TaprootTree) : Option Branching :=
  (Branching.ofScripts (t.leaves.map Prod.snd)).toOption

/-- The root hash of the leaves, if there are any. -/
def merkleRoot (t : TaprootTree) : Option Digest := t.branching?.map Branching.root

/-- The key of the output. -/
def outputKey (t : TaprootTree) : TweakedKey := t.internalKey.tweak t.merkleRoot

/-- The script of the output. -/
def scriptPubkey (t : TaprootTree) : Script := Script.taproot t.outputKey.key.bytes

@[simp] theorem length_scriptPubkey (t : TaprootTree) : t.scriptPubkey.bytes.length = 34 := by
  simp [scriptPubkey, Script.taproot, Script.ofInstructions, Instruction.encode,
    Instruction.pushHeader, XOnlyKey.length_bytes]

/-- The script of the first leaf with a name. -/
def leafScript (t : TaprootTree) (name : String) : Except VaultError Script :=
  match t.leaves.find? fun leaf => leaf.1 == name with
  | some (_, script) => .ok script
  | none => .error (.taproot ("no leaf named '" ++ name ++ "'"))

/-- The hash of the first leaf with a name. -/
def leafHash (t : TaprootTree) (name : String) : Except VaultError Digest :=
  (t.leafScript name).map VaultCovenant.leafHash

/-- Whether one opening is chosen over another: it is shorter, or as long and not greater in byte
order. -/
def prefers (a b : List Digest) : Bool :=
  a.length < b.length
    || a.length == b.length && decide (a.flatMap (·.bytes) ≤ b.flatMap (·.bytes))

/-- The opening chosen among several. -/
def preferred : List (List Digest) → Option (List Digest)
  | [] => none
  | b :: bs =>
    match preferred bs with
    | none => some b
    | some c => if prefers b c then some b else some c

/-- The ways to open a script: one for every leaf that holds it. -/
def openingsOf (t : TaprootTree) (script : Script) : List (List Digest) :=
  (t.branching?.map Branching.openings).getD []
    |>.filterMap fun (leaf, branch) => if leaf = script then some branch else none

/-- The control block of a leaf's script, by the shortest of its openings. -/
def controlBlock (t : TaprootTree) (name : String) : Except VaultError ControlBlock := do
  let script ← t.leafScript name
  match preferred (t.openingsOf script) with
  | some branch => return ⟨t.outputKey.oddY, t.internalKey, branch⟩
  | none => throw (.taproot ("no control block for leaf '" ++ name ++ "'"))

theorem leafScript_eq_error_iff {t : TaprootTree} {name : String} :
    (∃ e, t.leafScript name = .error e) ↔ ∀ leaf ∈ t.leaves, leaf.1 ≠ name := by
  unfold leafScript
  split
  · rename_i found
    have member := List.mem_of_find?_eq_some found
    have named := List.find?_some found
    exact ⟨fun ⟨_, h⟩ => (by cases h), fun h => absurd (by simpa using named) (h _ member)⟩
  · rename_i missing
    simp only [List.find?_eq_none, beq_iff_eq] at missing
    simpa using missing

end TaprootTree

end VaultCovenant
