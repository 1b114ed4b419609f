import Mathlib.Data.List.Forall2
import VaultCovenant.Proofs.Taproot.Layout

/-!
# Opening a taproot output at a leaf

The check of BIP-341 on the last two items of a witness, and the control
blocks of a tree, which pass it.

Results:
* `Branching.root_of_mem_openings`: every opening of a tree leads from its
  leaf to the root, whichever side the hashes beside the way are on.
* `ControlBlock.ofBytes?_bytes`: reading the bytes of a control block gives
  the control block back.
* `TaprootTree.opens_of_controlBlock`: a leaf with its control block opens the
  output of its tree.
-/

namespace VaultCovenant

/-! ## The check -/

/-- A byte string as digests, if it is a whole number of them. -/
def digests? (bytes : Bytes) : Option (List Digest) :=
  if _h : bytes = [] then some []
  else do
    let digest ← Bytes32.ofBytes? (bytes.take 32)
    let rest ← digests? (bytes.drop 32)
    return digest :: rest
termination_by bytes.length
decreasing_by
  have := List.length_pos_iff.mpr _h
  simp only [List.length_drop]
  omega

/-- Reads a control block: a byte with the leaf version and the parity, the
internal key, and at most 128 digests. -/
def ControlBlock.ofBytes? : Bytes → Option ControlBlock
  | [] => none
  | head :: rest => do
    let key ← Bytes32.ofBytes? (rest.take 32)
    let branch ← digests? (rest.drop 32)
    if head &&& 0xfe = leafVersion ∧ branch.length ≤ 128 then
      return ⟨head &&& 1 = 1, ⟨key⟩, branch⟩
    else none

/-- The rule for spending an output through a script: the last two items of
the witness are a leaf and a control block. Hashing the leaf, folding the
branch and tweaking the internal key gives the output's key with the parity
that the control block names. -/
def OpensOutput (witness : List Bytes) (output : Script) : Prop :=
  ∃ front leaf control block,
    witness = front ++ [leaf, control] ∧
    ControlBlock.ofBytes? control = some block ∧
    output = Script.taproot (block.outputKey ⟨leaf⟩).key.bytes ∧
    block.oddY = (block.outputKey ⟨leaf⟩).oddY

/-! ## Reading a control block back -/

theorem ofBytes?_bytes32 (a : Bytes32) : Bytes32.ofBytes? a.bytes = some a := by
  simp [Bytes32.ofBytes?, a.length_eq]

theorem digests?_flatMap (ds : List Digest) : digests? (ds.flatMap (·.bytes)) = some ds := by
  induction ds with
  | nil => rw [List.flatMap_nil, digests?, dif_pos rfl]
  | cons d ds ih =>
    have hne : d.bytes ++ ds.flatMap (·.bytes) ≠ [] := by
      have := d.length_eq
      intro h
      rw [(List.append_eq_nil_iff.mp h).1] at this
      simp at this
    rw [List.flatMap_cons, digests?, dif_neg hne, List.take_left' d.length_eq,
      List.drop_left' d.length_eq, ofBytes?_bytes32, ih]
    rfl

theorem ControlBlock.length_bytes (c : ControlBlock) :
    c.bytes.length = 33 + 32 * c.branch.length := by
  have hbranch : (c.branch.flatMap (·.bytes)).length = 32 * c.branch.length := by
    rw [List.length_flatMap, List.map_congr_left fun d _ => d.length_eq, List.map_const',
      List.sum_replicate_nat, Nat.mul_comm]
  rw [bytes, List.length_append, List.length_cons, c.internalKey.length_bytes, hbranch]

theorem ControlBlock.ofBytes?_bytes (c : ControlBlock) (h : c.branch.length ≤ 128) :
    ofBytes? c.bytes = some c := by
  obtain ⟨oddY, key, branch⟩ := c
  have hlen := key.length_bytes
  simp only [bytes, ofBytes?, List.cons_append, List.take_left' hlen, List.drop_left' hlen]
  rw [XOnlyKey.bytes, ofBytes?_bytes32, digests?_flatMap]
  have hversion : (leafVersion ||| 1) &&& 0xfe = leafVersion := by decide
  have hodd : (leafVersion ||| 1) &&& 1 = 1 := by decide
  have heven : leafVersion &&& 0xfe = leafVersion := by decide
  have hzero : leafVersion &&& 1 ≠ 1 := by decide
  simp only at h
  cases oddY <;> simp [hversion, hodd, heven, hzero, h]

/-! ## Joints do not depend on the order of what they join -/

theorem joinHash_comm (a b : Digest) : joinHash a b = joinHash b a := by
  unfold joinHash joinData Bytes32.le
  have htotal := List.le_total a.bytes b.bytes
  by_cases hab : a.bytes ≤ b.bytes <;> by_cases hba : b.bytes ≤ a.bytes
  · rw [List.le_antisymm hab hba]
  · simp [hab, hba]
  · simp [hab, hba]
  · tauto

/-- Going up from any leaf along the hashes beside the way leads to the root. -/
theorem Branching.root_of_mem_openings {tree : Branching} {script : Script}
    {branch : List Digest} (h : (script, branch) ∈ tree.openings) :
    branch.foldl joinHash (leafHash script) = tree.root := by
  induction tree generalizing branch with
  | leaf s =>
    simp only [openings, List.mem_singleton, Prod.mk.injEq] at h
    obtain ⟨rfl, rfl⟩ := h
    rfl
  | join left right ihl ihr =>
    simp only [openings, List.mem_append, List.mem_map, Prod.mk.injEq, Prod.exists] at h
    rcases h with ⟨s, b, hb, rfl, rfl⟩ | ⟨s, b, hb, rfl, rfl⟩
    · rw [List.foldl_append, ihl hb]
      rfl
    -- from the right the last joint is made the other way round
    · rw [List.foldl_append, ihr hb, List.foldl_cons, List.foldl_nil, joinHash_comm]
      rfl

/-! ## The control blocks of a tree -/

namespace TaprootTree

theorem preferred_eq_none_iff {bs : List (List Digest)} : preferred bs = none ↔ bs = [] := by
  cases bs with
  | nil => simp [preferred]
  | cons b bs =>
    simp only [preferred, reduceCtorEq, iff_false]
    split
    · simp
    · split_ifs <;> simp

theorem mem_of_preferred {bs : List (List Digest)} {b : List Digest}
    (h : preferred bs = some b) : b ∈ bs := by
  induction bs generalizing b with
  | nil => cases h
  | cons c bs ih =>
    simp only [preferred] at h
    split at h
    · cases h
      exact List.mem_cons_self
    · rename_i d hd
      split_ifs at h with hp
      · cases h
        exact List.mem_cons_self
      · cases h
        exact List.mem_cons_of_mem _ (ih hd)

theorem mem_openingsOf {t : TaprootTree} {script : Script} {branch : List Digest} :
    branch ∈ t.openingsOf script ↔
      ∃ tree, t.branching? = some tree ∧ (script, branch) ∈ tree.openings := by
  unfold openingsOf
  cases t.branching? with
  | none => simp
  | some tree => simp [List.mem_filterMap]

/-- A control block names the internal key and the parity of its tree, and its
branch is the opening chosen for the leaf. -/
theorem controlBlock_eq_ok {t : TaprootTree} {name : String} {c : ControlBlock}
    (h : t.controlBlock name = .ok c) :
    ∃ script, t.leafScript name = .ok script ∧
      preferred (t.openingsOf script) = some c.branch ∧
      c.internalKey = t.internalKey ∧ c.oddY = t.outputKey.oddY := by
  obtain ⟨script, hs, h⟩ := bind_eq_ok_iff.mp h
  split at h
  · rename_i branch hb
    cases h
    exact ⟨script, hs, hb, rfl, rfl⟩
  · cases h

/-- A leaf of the tree has a control block. -/
theorem controlBlock_isOk {t : TaprootTree} {name : String} {script : Script} {tree : Branching}
    (hs : t.leafScript name = .ok script) (htree : t.branching? = some tree)
    (hscript : script ∈ tree.scripts) : ∃ c, t.controlBlock name = .ok c := by
  rw [← tree.openings_map_fst] at hscript
  obtain ⟨⟨_, branch⟩, hopen, rfl⟩ := List.mem_map.mp hscript
  have hne : preferred (t.openingsOf _) ≠ none :=
    preferred_eq_none_iff.not.mpr (List.ne_nil_of_mem (mem_openingsOf.mpr ⟨tree, htree, hopen⟩))
  obtain ⟨chosen, hchosen⟩ := Option.ne_none_iff_exists'.mp hne
  exact ⟨⟨t.outputKey.oddY, t.internalKey, chosen⟩,
    bind_eq_ok_iff.mpr ⟨_, hs, by rw [hchosen]; rfl⟩⟩

theorem leafScript_eq_error {t : TaprootTree} {name : String} {e : VaultError}
    (h : t.leafScript name = .error e) : ∃ text, e = .taproot text := by
  unfold leafScript at h
  split at h <;> cases h
  exact ⟨_, rfl⟩

theorem controlBlock_eq_error {t : TaprootTree} {name : String} {e : VaultError}
    (h : t.controlBlock name = .error e) : ∃ text, e = .taproot text := by
  rcases bind_eq_error_iff.mp h with h | ⟨script, -, h⟩
  · exact leafScript_eq_error h
  · split at h <;> cases h
    exact ⟨_, rfl⟩

theorem outputKey_controlBlock {t : TaprootTree} {name : String} {c : ControlBlock}
    {script : Script} (h : t.controlBlock name = .ok c) (hs : t.leafScript name = .ok script) :
    c.outputKey script = t.outputKey ∧ c.oddY = t.outputKey.oddY := by
  obtain ⟨script', hs', hchosen, hkey, hodd⟩ := controlBlock_eq_ok h
  rw [hs] at hs'
  cases hs'
  obtain ⟨tree, htree, hopen⟩ := mem_openingsOf.mp (mem_of_preferred hchosen)
  refine ⟨?_, hodd⟩
  unfold ControlBlock.outputKey ControlBlock.root TaprootTree.outputKey merkleRoot
  rw [hkey, Branching.root_of_mem_openings hopen, htree]
  rfl

/-- A leaf with its control block opens the output of its tree. -/
theorem opens_of_controlBlock {t : TaprootTree} {name : String} {c : ControlBlock}
    {script : Script} (h : t.controlBlock name = .ok c) (hs : t.leafScript name = .ok script)
    (hlen : c.branch.length ≤ 128) (front : List Bytes) :
    OpensOutput (front ++ [script.bytes, c.bytes]) t.scriptPubkey := by
  obtain ⟨hkey, hodd⟩ := outputKey_controlBlock h hs
  exact ⟨front, script.bytes, c.bytes, c, rfl, c.ofBytes?_bytes hlen,
    by rw [hkey]; rfl, by rw [hkey, hodd]⟩

/-! ## Trees of two leaves -/

section Pair

variable {key : XOnlyKey} {n m : String} {a b : Script}

theorem branching?_pair :
    (⟨key, [(n, a), (m, b)]⟩ : TaprootTree).branching? = some (.join (.leaf a) (.leaf b)) := by
  have hlen : [a, b].length ≤ 2 ^ maxLeafDepth := by simp [maxLeafDepth]
  show (Branching.ofScripts [a, b]).toOption = _
  rw [Branching.ofScripts_of_halved (halved_pair a b) hlen]
  rfl

theorem openings_join_leaf :
    (Branching.join (.leaf a) (.leaf b)).openings =
      [(a, [VaultCovenant.leafHash b]), (b, [VaultCovenant.leafHash a])] :=
  rfl

theorem leafScript_pair_left :
    (⟨key, [(n, a), (m, b)]⟩ : TaprootTree).leafScript n = .ok a := by
  simp [leafScript]

theorem leafScript_pair_right (h : n ≠ m) :
    (⟨key, [(n, a), (m, b)]⟩ : TaprootTree).leafScript m = .ok b := by
  simp [leafScript, h]

/-- Both leaves have a control block. -/
theorem controlBlock_pair_isOk {name : String} {script : Script}
    (hs : (⟨key, [(n, a), (m, b)]⟩ : TaprootTree).leafScript name = .ok script)
    (hscript : script = a ∨ script = b) :
    ∃ c, (⟨key, [(n, a), (m, b)]⟩ : TaprootTree).controlBlock name = .ok c :=
  controlBlock_isOk hs branching?_pair (by simpa [Branching.scripts] using hscript)

theorem length_branch_pair {name : String} {c : ControlBlock}
    (h : (⟨key, [(n, a), (m, b)]⟩ : TaprootTree).controlBlock name = .ok c) :
    c.branch.length = 1 := by
  obtain ⟨script, -, hchosen, -, -⟩ := controlBlock_eq_ok h
  obtain ⟨tree, htree, hopen⟩ := mem_openingsOf.mp (mem_of_preferred hchosen)
  rw [branching?_pair] at htree
  cases htree
  rw [openings_join_leaf] at hopen
  simp only [List.mem_cons, Prod.mk.injEq, List.not_mem_nil, or_false] at hopen
  rcases hopen with ⟨-, h⟩ | ⟨-, h⟩ <;> rw [h] <;> rfl

end Pair

end TaprootTree

end VaultCovenant
