import Mathlib.Algebra.Field.Rat
import Mathlib.Data.Nat.Log
import Mathlib.Tactic.Ring
import VaultCovenant.Proofs.Taproot.Assembly

/-!
# The depths of a layout by halving

Halving keeps a layout balanced: all leaves of one list stand on the same level
or on two levels beside each other. The depths are counted in 8 bits and a list
is counted in 64, and no list that can be counted has a depth that cannot.

Results:
* `leafDepths_add`: further down every depth grows by as much.
* `le_leafDepths`, `mem_leafDepths`: the levels of the leaves.
* `sum_leafDepths`: the leaves fill the tree, each as much of it as is left at
  its depth.
* `Halved.levels_eq`: the depths are those of the leaves of a tree, from left
  to right.
* `AppendsDepths.unique`, `appendsDepths_leafDepths`: the recursion on counters of 64 and
  8 bits ends with these depths.
* `appendsDepths_balanced`: all of it, for every list that 64 bits count.
-/

namespace VaultCovenant

/-! ## The levels of the leaves -/

theorem leafDepths_add (count depth more : ℕ) :
    leafDepths count (more + depth) = (leafDepths count depth).map (more + ·) := by
  fun_induction leafDepths count depth with
  | case1 => simp [leafDepths]
  | case2 => simp
  | case3 count depth h0 h1 ihleft ihright =>
    rw [leafDepths_of_two_le (by omega), List.map_append, ← ihleft, ← ihright, Nat.add_assoc]

/-- From `2 ^ m` leaves on every leaf is at least `m` deep. -/
theorem le_leafDepths {count depth m : ℕ} (h : 2 ^ m ≤ count) :
    ∀ d ∈ leafDepths count depth, depth + m ≤ d := by
  fun_induction leafDepths count depth generalizing m with
  | case1 => simp
  | case2 =>
    cases m with
    | zero => simp
    | succ m =>
      have := Nat.one_le_two_pow (n := m)
      rw [Nat.pow_succ] at h
      omega
  | case3 count depth h0 h1 ihleft ihright =>
    -- either half has leaves enough for one level less, below one level more
    have hhalf : 2 ^ (m - 1) ≤ count / 2 := by
      cases m with
      | zero =>
        rw [Nat.zero_sub, Nat.pow_zero]
        omega
      | succ m =>
        rw [Nat.pow_succ] at h
        rw [Nat.add_sub_cancel]
        omega
    intro d hd
    rcases List.mem_append.mp hd with hd | hd
    · have := ihleft hhalf d hd
      omega
    · have := ihright (m := m - 1) (by omega) d hd
      omega

/-- All leaves stand on one level, or on two that differ by one. -/
theorem mem_leafDepths {count depth d : ℕ} (h0 : count ≠ 0) (hd : d ∈ leafDepths count depth) :
    d = depth + Nat.log 2 count ∨ d = depth + Nat.clog 2 count := by
  have hleast := le_leafDepths (Nat.pow_log_le_self 2 h0) d hd
  have hmost := leafDepths_le (Nat.le_pow_clog (by omega) count) d hd
  have hnext : Nat.clog 2 count ≤ Nat.log 2 count + 1 :=
    Nat.clog_le_of_le_pow (Nat.le_of_lt (Nat.lt_pow_succ_log_self (by omega) count))
  omega

/-- The leaves fill the tree: each takes up as much as is left at its depth. -/
theorem sum_leafDepths {count : ℕ} (depth : ℕ) (h0 : count ≠ 0) :
    ((leafDepths count depth).map fun d => (1 / 2 : ℚ) ^ d).sum = (1 / 2) ^ depth := by
  fun_induction leafDepths count depth with
  | case1 => omega
  | case2 => simp
  | case3 count depth _ h1 ihleft ihright =>
    rw [List.map_append, List.sum_append, ihleft (by omega), ihright (by omega)]
    ring

/-! ## The tree of the depths -/

/-- A layout lists the leaves of the tree by halving, each with its level. -/
theorem Halved.levels_eq {scripts : List Script} {tree : Branching} (h : Halved scripts tree)
    (depth : ℕ) : tree.levels.map (Prod.map (depth + ·) id) = laidOut scripts depth := by
  induction h generalizing depth with
  | leaf script => simp [Branching.levels, laidOut]
  | join htwo _ _ ihleft ihright =>
    rw [laidOut_of_two_le htwo, ← ihleft, ← ihright, Branching.levels, List.map_map,
      ← List.map_append]
    refine List.map_congr_left fun p _ => Prod.ext ?_ rfl
    show depth + (p.1 + 1) = depth + 1 + p.1
    omega

theorem Halved.levels_eq_zip {scripts : List Script} {tree : Branching} (h : Halved scripts tree) :
    tree.levels = (leafDepths scripts.length 0).zip scripts := by
  have hid : Prod.map (0 + ·) id = (id : ℕ × Script → ℕ × Script) :=
    funext fun p => Prod.ext (Nat.zero_add p.1) rfl
  have hlevels := h.levels_eq 0
  rwa [hid, List.map_id] at hlevels

/-! ## The recursion on its counters -/

/-- The recursion as it runs: `count` leaves are laid out below `depth`, and
their depths added behind those that are there. There is no end where a depth
has no next one in 8 bits, and none for no leaves at all, whose second half
again has none. -/
inductive AppendsDepths : UInt64 → UInt8 → List UInt8 → List UInt8 → Prop
  | leaf {count : UInt64} {depth : UInt8} {out : List UInt8} (one : count = 1) :
      AppendsDepths count depth out (out ++ [depth])
  | halves {count : UInt64} {depth : UInt8} {out between after : List UInt8} (more : count ≠ 1)
      (fits : depth.toNat + 1 < 2 ^ 8)
      (firsts : AppendsDepths (count / 2) (depth + 1) out between)
      (rest : AppendsDepths (count - count / 2) (depth + 1) between after) :
      AppendsDepths count depth out after

theorem AppendsDepths.unique {count : UInt64} {depth : UInt8} {out after other : List UInt8}
    (h : AppendsDepths count depth out after) (hother : AppendsDepths count depth out other) :
    after = other := by
  induction h generalizing other with
  | leaf one =>
    cases hother with
    | leaf => rfl
    | halves more => exact absurd one more
  | halves more _ _ _ ihfirsts ihrest =>
    cases hother with
    | leaf one => exact absurd one more
    | halves _ _ firsts rest =>
      obtain rfl := ihfirsts firsts
      exact ihrest rest

/-- Without leaves the recursion has no end. -/
theorem not_appendsDepths_zero {depth : UInt8} {out after : List UInt8} :
    ¬ AppendsDepths 0 depth out after := by
  intro h
  generalize hcount : (0 : UInt64) = count at h
  induction h with
  | leaf one => subst hcount; exact absurd one (by decide)
  | halves _ _ _ _ ihfirsts => subst hcount; exact ihfirsts (by decide)

/-- Up to `2 ^ m` leaves the recursion ends where the depth has room for `m`
more, and what it adds are the depths by halving. -/
theorem appendsDepths_leafDepths {count : UInt64} {depth : UInt8} {m : ℕ} (h0 : count ≠ 0)
    (hm : count.toNat ≤ 2 ^ m) (hroom : depth.toNat + m < 2 ^ 8) (out : List UInt8) :
    AppendsDepths count depth out
      (out ++ (leafDepths count.toNat depth.toNat).map UInt8.ofNat) := by
  rw [Ne, ← UInt64.toNat_inj, UInt64.toNat_zero] at h0
  induction m generalizing count depth out with
  | zero =>
    have hone : count = 1 := by
      rw [← UInt64.toNat_inj, UInt64.toNat_one]
      omega
    have hleaf : AppendsDepths count depth out (out ++ [depth]) := .leaf hone
    simpa [hone] using hleaf
  | succ m ih =>
    by_cases hone : count = 1
    · have hleaf : AppendsDepths count depth out (out ++ [depth]) := .leaf hone
      simpa [hone] using hleaf
    · have htwo : 2 ≤ count.toNat := by
        rw [← UInt64.toNat_inj, UInt64.toNat_one] at hone
        omega
      rw [Nat.pow_succ] at hm
      have hfirsts : (count / 2).toNat = count.toNat / 2 := UInt64.toNat_div _ _
      have hrest : (count - count / 2).toNat = count.toNat - count.toNat / 2 := by
        rw [UInt64.toNat_sub_of_le _ _ (UInt64.le_iff_toNat_le.mpr (by omega)), hfirsts]
      have hnext : (depth + 1).toNat = depth.toNat + 1 := by
        rw [UInt8.toNat_add, UInt8.toNat_one]
        exact Nat.mod_eq_of_lt (by omega)
      have hhalf (half : UInt64) (before : List UInt8) (hpos : half.toNat ≠ 0)
          (hhalf : half.toNat ≤ 2 ^ m) : AppendsDepths half (depth + 1) before
            (before ++ (leafDepths half.toNat (depth + 1).toNat).map UInt8.ofNat) :=
        ih hpos hhalf (by omega) before
      rw [leafDepths_of_two_le htwo, List.map_append, ← List.append_assoc, ← hrest, ← hfirsts,
        ← hnext]
      exact .halves hone (by omega) (hhalf _ _ (by omega) (by omega))
        (hhalf _ _ (by omega) (by omega))

/-! ## Every list that can be counted -/

/-- Of the depths that 8 bits hold none is changed by them. -/
theorem toNat_leafDepths {count depth m : ℕ} (hm : count ≤ 2 ^ m) (hroom : depth + m < 2 ^ 8) :
    ((leafDepths count depth).map UInt8.ofNat).map UInt8.toNat = leafDepths count depth := by
  rw [List.map_map]
  conv_rhs => rw [← List.map_id (leafDepths count depth)]
  apply List.map_congr_left
  intro d hd
  have := leafDepths_le hm d hd
  rw [Function.comp_apply, UInt8.toNat_ofNat', id_eq]
  omega

/-- Any list of leaves that 64 bits count is laid out, below a depth that leaves
room for 64 more. The recursion ends, in one way, and adds as many depths as
there are leaves behind those that were there. All of them are on the level of
the logarithm of their number, rounded down or up; together they fill a tree,
and from left to right they are the levels of its leaves. Below the root none is
more than 64 deep, and so the tree of any scripts is put together. -/
theorem appendsDepths_balanced {count : UInt64} {depth : UInt8} (hcount : count ≠ 0)
    (hdepth : depth.toNat ≤ 191) (out : List UInt8) :
    ∃ added : List UInt8,
      (∀ after, AppendsDepths count depth out after ↔ after = out ++ added) ∧
      added.map UInt8.toNat = leafDepths count.toNat depth.toNat ∧
      added.length = count.toNat ∧
      (∀ d ∈ added, d.toNat = depth.toNat + Nat.log 2 count.toNat ∨
        d.toNat = depth.toNat + Nat.clog 2 count.toNat) ∧
      (added.map fun d => (1 / 2 : ℚ) ^ (d.toNat - depth.toNat)).sum = 1 ∧
      (depth = 0 → ∀ d ∈ added, d.toNat ≤ 64 ∧ d.toNat ≤ maxLeafDepth) ∧
      ∀ scripts : List Script, scripts.length = count.toNat →
        ∃ tree : Branching,
          tree.levels = (added.map fun d => d.toNat - depth.toNat).zip scripts ∧
          Branching.ofScripts scripts = .ok tree := by
  have hpos : count.toNat ≠ 0 := by
    rwa [Ne, ← UInt64.toNat_inj, UInt64.toNat_zero] at hcount
  have hm : count.toNat ≤ 2 ^ 64 := Nat.le_of_lt count.toNat_lt
  have hroom : depth.toNat + 64 < 2 ^ 8 := by omega
  obtain ⟨added, hends, hadded⟩ : ∃ added : List UInt8,
      AppendsDepths count depth out (out ++ added) ∧
        added.map UInt8.toNat = leafDepths count.toNat depth.toNat :=
    ⟨_, appendsDepths_leafDepths hcount hm hroom out, toNat_leafDepths hm hroom⟩
  have hmem : ∀ d ∈ added, d.toNat ∈ leafDepths count.toNat depth.toNat := by
    intro d hd
    rw [← hadded]
    exact List.mem_map_of_mem hd
  have hlevels : added.map (fun d => d.toNat - depth.toNat) = leafDepths count.toNat 0 := by
    have hbelow := congrArg (List.map (· - depth.toNat)) hadded
    rw [← Nat.add_zero depth.toNat, leafDepths_add] at hbelow
    simpa [Function.comp_def] using hbelow
  refine ⟨added, fun after => ⟨fun h => h.unique hends, ?_⟩, hadded, ?_, ?_, ?_, ?_, ?_⟩
  · rintro rfl
    exact hends
  · rw [← List.length_map (f := UInt8.toNat), hadded, leafDepths_length]
  · intro d hd
    exact mem_leafDepths hpos (hmem d hd)
  · have hsum := sum_leafDepths 0 hpos
    rwa [← hlevels, List.map_map, pow_zero] at hsum
  · rintro rfl d hd
    have hle := leafDepths_le hm d.toNat (hmem d hd)
    rw [UInt8.toNat_zero, Nat.zero_add] at hle
    unfold maxLeafDepth
    omega
  · intro scripts hscripts
    obtain ⟨tree, htree⟩ := exists_halved (List.ne_nil_of_length_pos (l := scripts) (by omega))
    refine ⟨tree, ?_, Branching.ofScripts_of_halved htree ?_⟩
    · rw [htree.levels_eq_zip, hlevels, hscripts]
    · unfold maxLeafDepth
      omega

/-- Five leaves below the last depth that leaves room for every list: none
reaches the end of the counter, which the largest list reaches exactly. -/
theorem appendsDepths_balanced_five :
    (5 : UInt64) ≠ 0 ∧ (191 : UInt8).toNat ≤ 191 ∧
      (∀ after, AppendsDepths 5 191 [7] after ↔ after = [7, 193, 193, 193, 194, 194]) ∧
      ∃ after, AppendsDepths 0xffffffffffffffff 191 [] after ∧ after.length = 0xffffffffffffffff ∧
        ∀ d ∈ after, d = 254 ∨ d = 255 := by
  obtain ⟨five, hfive, hdepths, -⟩ := @appendsDepths_balanced 5 191 (by decide) (by decide) [7]
  obtain ⟨all, hall, -, hlength, hlevels, -⟩ :=
    @appendsDepths_balanced 0xffffffffffffffff 191 (by decide) (by decide) []
  have hcount : (0xffffffffffffffff : UInt64).toNat = 0xffffffffffffffff := rfl
  have hleast : 63 ≤ Nat.log 2 0xffffffffffffffff := Nat.le_log_of_pow_le (by omega) (by omega)
  have hmost : Nat.clog 2 0xffffffffffffffff ≤ 64 := Nat.clog_le_of_le_pow (by omega)
  have hbetween : Nat.log 2 0xffffffffffffffff ≤ Nat.clog 2 0xffffffffffffffff :=
    Nat.log_le_clog 2 _
  have hlist : five = [193, 193, 193, 194, 194] := by
    apply List.map_injective_iff.mpr fun _ _ => UInt8.toNat_inj.mp
    rw [hdepths]
    show leafDepths 5 191 = _
    simp [leafDepths_of_two_le]
  refine ⟨by decide, by decide, fun after => ?_, all, (hall all).mpr rfl, hlength, fun d hd => ?_⟩
  · rw [hfive, hlist]
    rfl
  · have hlevel := hlevels d hd
    rw [hcount, show (191 : UInt8).toNat = 191 from rfl] at hlevel
    rw [← UInt8.toNat_inj, ← UInt8.toNat_inj]
    show d.toNat = 254 ∨ d.toNat = 255
    omega

end VaultCovenant
