import Mathlib.Order.Bounds.Basic
import VaultCovenant.Proofs.Taproot.Opening

/-!
# Every leaf of an assembled tree opens

Any list of named scripts makes a taproot output. Its root is that of the tree
by halving, every name in the list opens at the first leaf that bears it, and
no other name opens anything.

Results:
* `Branching.openings_map_length`: an opening shows as many hashes as its leaf
  is deep.
* `TaprootTree.prefers_of_preferred`: the opening chosen is preferred to every
  other.
* `TaprootTree.ofLeaves_opens`: what the output of a list of leaves shows.
-/

namespace VaultCovenant

/-! ## Depths in a tree -/

namespace Branching

/-- The scripts from left to right, each with the depth at which it stands. -/
def levels : Branching → List (ℕ × Script)
  | leaf script => [(0, script)]
  | join left right =>
    (left.levels ++ right.levels).map fun (depth, script) => (depth + 1, script)

theorem openings_map_length (tree : Branching) :
    tree.openings.map (fun (script, branch) => (branch.length, script)) = tree.levels := by
  induction tree with
  | leaf script => rfl
  | join left right ihl ihr =>
    simp [openings, levels, ← ihl, ← ihr, Function.comp_def]

theorem mem_levels {tree : Branching} {depth : ℕ} {script : Script} :
    (depth, script) ∈ tree.levels ↔
      ∃ branch, (script, branch) ∈ tree.openings ∧ branch.length = depth := by
  rw [← openings_map_length]
  simp only [List.mem_map, Prod.mk.injEq, Prod.exists]
  constructor
  · rintro ⟨_, branch, hopen, hdepth, rfl⟩
    exact ⟨branch, hopen, hdepth⟩
  · rintro ⟨branch, hopen, hdepth⟩
    exact ⟨script, branch, hopen, hdepth, rfl⟩

end Branching

namespace TaprootTree

/-! ## The opening that is chosen -/

theorem prefers_iff {a b : List Digest} :
    prefers a b = true ↔ a.length < b.length ∨
      a.length = b.length ∧ a.flatMap (·.bytes) ≤ b.flatMap (·.bytes) := by
  simp [prefers]

theorem prefers_total (a b : List Digest) : prefers a b = true ∨ prefers b a = true := by
  rw [prefers_iff, prefers_iff]
  rcases Nat.lt_trichotomy a.length b.length with h | h | h
  · exact .inl (.inl h)
  · rcases List.le_total (a.flatMap (·.bytes)) (b.flatMap (·.bytes)) with hle | hle
    · exact .inl (.inr ⟨h, hle⟩)
    · exact .inr (.inr ⟨h.symm, hle⟩)
  · exact .inr (.inl h)

theorem prefers_trans {a b c : List Digest} (hab : prefers a b = true) (hbc : prefers b c = true) :
    prefers a c = true := by
  rw [prefers_iff] at *
  rcases hab with hab | ⟨hab, hab'⟩ <;> rcases hbc with hbc | ⟨hbc, hbc'⟩
  · exact .inl (Nat.lt_trans hab hbc)
  · exact .inl (hbc ▸ hab)
  · exact .inl (hab ▸ hbc)
  · exact .inr ⟨hab.trans hbc, List.le_trans hab' hbc'⟩

/-- The opening chosen is preferred to every other. -/
theorem prefers_of_preferred {bs : List (List Digest)} {b : List Digest}
    (h : preferred bs = some b) : ∀ c ∈ bs, prefers b c = true := by
  induction bs generalizing b with
  | nil => cases h
  | cons first bs ih =>
    have hself : prefers b b = true := (prefers_total b b).elim id id
    simp only [preferred] at h
    split at h
    · rename_i hnone
      cases h
      rw [preferred_eq_none_iff.mp hnone]
      simpa using hself
    · rename_i chosen hchosen
      intro c hc
      rcases List.mem_cons.mp hc with rfl | hc <;> split_ifs at h with hfirst <;> cases h
      · exact hself
      · exact (prefers_total _ _).resolve_left hfirst
      · exact prefers_trans hfirst (ih hchosen c hc)
      · exact ih hchosen c hc

/-! ## Names -/

/-- No leaf has the name: nothing can be looked up under it. -/
structure LacksLeaf (t : TaprootTree) (name : String) : Prop where
  leafScript : t.leafScript name = .error (.taproot ("no leaf named '" ++ name ++ "'"))
  leafHash : t.leafHash name = .error (.taproot ("no leaf named '" ++ name ++ "'"))
  controlBlock : t.controlBlock name = .error (.taproot ("no leaf named '" ++ name ++ "'"))

/-- The name opens the output at `script`: its control block leads from the leaf
to the root of `tree`, along as few hashes as any leaf with that script needs. -/
structure OpensAt (t : TaprootTree) (tree : Branching) (name : String) (script : Script) :
    Prop where
  leafScript : t.leafScript name = .ok script
  leafHash : t.leafHash name = .ok (VaultCovenant.leafHash script)
  controlBlock : ∃ c, t.controlBlock name = .ok c ∧
    c.internalKey = t.internalKey ∧ c.oddY = t.outputKey.oddY ∧
    c.branch.foldl joinHash (VaultCovenant.leafHash script) = tree.root ∧
    IsLeast {depth | (depth, script) ∈ tree.levels} c.branch.length

theorem lacksLeaf {t : TaprootTree} {name : String} (h : name ∉ t.leaves.map Prod.fst) :
    t.LacksLeaf name := by
  have hfind : t.leaves.find? (fun leaf => leaf.1 == name) = none := by
    rw [List.find?_eq_none]
    rintro leaf hleaf hname
    exact h (List.mem_map.mpr ⟨leaf, hleaf, by simpa using hname⟩)
  have hscript : t.leafScript name = .error (.taproot ("no leaf named '" ++ name ++ "'")) := by
    rw [leafScript, hfind]
  refine ⟨hscript, ?_, ?_⟩
  · rw [leafHash, hscript]
    rfl
  · rw [controlBlock, hscript]
    rfl

/-- A name in the list is looked up at the first leaf that bears it. -/
theorem leafScript_of_first {t : TaprootTree} {before after : List (String × Script)}
    {name : String} {script : Script} (hleaves : t.leaves = before ++ (name, script) :: after)
    (hfirst : name ∉ before.map Prod.fst) : t.leafScript name = .ok script := by
  have hfind : t.leaves.find? (fun leaf => leaf.1 == name) = some (name, script) := by
    rw [List.find?_eq_some_iff_append]
    refine ⟨by simp, before, after, hleaves, fun leaf hleaf => ?_⟩
    have hne : leaf.1 ≠ name := fun h => hfirst (List.mem_map.mpr ⟨leaf, hleaf, h⟩)
    simpa using hne
  rw [leafScript, hfind]

theorem exists_first {leaves : List (String × Script)} {name : String}
    (h : name ∈ leaves.map Prod.fst) :
    ∃ before script after,
      leaves = before ++ (name, script) :: after ∧ name ∉ before.map Prod.fst := by
  obtain ⟨leaf, hfind⟩ : ∃ leaf, leaves.find? (fun leaf => leaf.1 == name) = some leaf := by
    obtain ⟨leaf, hleaf, rfl⟩ := List.mem_map.mp h
    exact Option.isSome_iff_exists.mp (List.find?_isSome.mpr ⟨leaf, hleaf, by simp⟩)
  obtain ⟨hname, before, after, rfl, hbefore⟩ := List.find?_eq_some_iff_append.mp hfind
  obtain rfl : leaf.1 = name := by simpa using hname
  refine ⟨before, leaf.2, after, rfl, fun hmem => ?_⟩
  obtain ⟨other, hother, hsame⟩ := List.mem_map.mp hmem
  simpa [hsame] using hbefore other hother

theorem opensAt {t : TaprootTree} {tree : Branching} {name : String} {script : Script}
    (htree : t.branching? = some tree) (hs : t.leafScript name = .ok script)
    (hscript : script ∈ tree.scripts) : t.OpensAt tree name script := by
  refine ⟨hs, by rw [leafHash, hs]; rfl, ?_⟩
  obtain ⟨c, hc⟩ := controlBlock_isOk hs htree hscript
  obtain ⟨script', hs', hchosen, hkey, hodd⟩ := controlBlock_eq_ok hc
  rw [hs] at hs'
  cases hs'
  have hopenings : ∀ {branch}, branch ∈ t.openingsOf script ↔ (script, branch) ∈ tree.openings := by
    intro branch
    rw [mem_openingsOf, htree]
    simp
  have hopen := hopenings.mp (mem_of_preferred hchosen)
  refine ⟨c, hc, hkey, hodd, Branching.root_of_mem_openings hopen,
    Branching.mem_levels.mpr ⟨_, hopen, rfl⟩, ?_⟩
  rintro depth hdepth
  obtain ⟨branch, hbranch, rfl⟩ := Branching.mem_levels.mp hdepth
  rcases prefers_iff.mp (prefers_of_preferred hchosen branch (hopenings.mpr hbranch)) with h | h
  · exact Nat.le_of_lt h
  · exact Nat.le_of_eq h.1

/-! ## The output of a list of leaves -/

theorem merkleRoot_keyOnly (key : XOnlyKey) : (keyOnly key).merkleRoot = none := by
  have hempty : Branching.ofScripts [] = .error .unfinished := by
    rw [Branching.ofScripts, laidOut, List.zip_nil_right]
    rfl
  show ((Branching.ofScripts []).toOption.map Branching.root) = none
  rw [hempty]
  rfl

/-- Fewer than `2 ^ 64` named scripts always make an output: without any, one
that only the key spends; else one whose root is that of the tree by halving,
which every name opens at the first leaf that bears it. No other name opens it. -/
theorem ofLeaves_opens (key : XOnlyKey) (leaves : List (String × Script))
    (hlen : leaves.length < 2 ^ 64) :
    ∃ t, ofLeaves key leaves = .ok t ∧ t.internalKey = key ∧
      (∀ name, name ∉ leaves.map Prod.fst → t.LacksLeaf name) ∧
      (leaves = [] → t = keyOnly key ∧ t.merkleRoot = none ∧ t.outputKey = key.tweak none) ∧
      (leaves ≠ [] → ∃ tree, Halved (leaves.map Prod.snd) tree ∧
        t.merkleRoot = some tree.root ∧ t.outputKey = key.tweak (some tree.root) ∧
        ∀ name ∈ leaves.map Prod.fst, ∃ before script after,
          leaves = before ++ (name, script) :: after ∧ name ∉ before.map Prod.fst ∧
          t.OpensAt tree name script) := by
  rcases eq_or_ne leaves [] with rfl | hne
  · exact ⟨keyOnly key, rfl, rfl, fun name h => lacksLeaf h,
      fun _ => ⟨rfl, merkleRoot_keyOnly key, by rw [outputKey, merkleRoot_keyOnly]; rfl⟩,
      fun h => absurd rfl h⟩
  · obtain ⟨tree, htree⟩ := exists_halved (List.map_eq_nil_iff.not.mpr hne)
    have hscripts : (leaves.map Prod.snd).length ≤ 2 ^ maxLeafDepth := by
      have hpow : 2 ^ 64 ≤ 2 ^ maxLeafDepth := Nat.pow_le_pow_right (by omega) (by decide)
      rw [List.length_map]
      omega
    have hlaid := Branching.ofScripts_of_halved htree hscripts
    have hbranching : (⟨key, leaves⟩ : TaprootTree).branching? = some tree := by
      rw [branching?, hlaid]
      rfl
    have hroot : (⟨key, leaves⟩ : TaprootTree).merkleRoot = some tree.root := by
      rw [merkleRoot, hbranching]
      rfl
    refine ⟨⟨key, leaves⟩, ?_, rfl, fun name h => lacksLeaf h, fun h => absurd h hne,
      fun _ => ⟨tree, htree, hroot, by rw [outputKey, hroot], fun name hname => ?_⟩⟩
    · rw [ofLeaves, if_neg (by simpa using hne), hlaid]
    · obtain ⟨before, script, after, rfl, hfirst⟩ := exists_first hname
      refine ⟨before, script, after, rfl, hfirst,
        opensAt hbranching (leafScript_of_first rfl hfirst) ?_⟩
      rw [htree.scripts_eq]
      simp

/-- Of three leaves the last is two levels down, but if the first holds the
same script, which is one level down, one hash opens either. -/
theorem ofLeaves_opens_shortest :
    ∃ t c, ofLeaves (.ofPoint Curve.generator) [("a", ⟨[0x51]⟩), ("b", ⟨[0x52]⟩), ("c", ⟨[0x51]⟩)]
        = .ok t ∧ t.controlBlock "c" = .ok c ∧ c.branch.length = 1 := by
  obtain ⟨t, hok, -, -, -, hleaves⟩ := ofLeaves_opens (.ofPoint Curve.generator)
    [("a", ⟨[0x51]⟩), ("b", ⟨[0x52]⟩), ("c", ⟨[0x51]⟩)] (by simp)
  obtain ⟨tree, htree, -, -, hnames⟩ := hleaves (by simp)
  obtain rfl : tree = .join (.leaf ⟨[0x51]⟩) (.join (.leaf ⟨[0x52]⟩) (.leaf ⟨[0x51]⟩)) :=
    htree.unique (.join (by simp) (.leaf _) (halved_pair _ _))
  obtain ⟨before, script, after, hsplit, -, hopens⟩ := hnames "c" (by simp)
  obtain rfl : script = ⟨[0x51]⟩ := by
    have hmem : ("c", script) ∈ [("a", (⟨[0x51]⟩ : Script)), ("b", ⟨[0x52]⟩), ("c", ⟨[0x51]⟩)] := by
      rw [hsplit]
      simp
    simpa using hmem
  obtain ⟨c, hc, -, -, -, hmem, hleast⟩ := hopens.controlBlock
  have hle : c.branch.length ≤ 1 := hleast (by simp [Branching.levels])
  have hlevel : c.branch.length = 1 ∨ c.branch.length = 2 := by
    simpa [Branching.levels] using hmem
  exact ⟨t, c, hok, hc, by omega⟩

end TaprootTree

end VaultCovenant
