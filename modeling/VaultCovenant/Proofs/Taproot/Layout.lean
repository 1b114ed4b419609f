import Mathlib.Algebra.GroupWithZero.Nat
import Mathlib.Tactic.Set
import VaultCovenant.Proofs.Sequencing
import VaultCovenant.Taproot.Tree

/-!
# The tree of a layout

Depths are computed and trees put together leaf by leaf, but what comes out is
the tree that halving describes.

Results:
* `exists_halved`, `Halved.unique`: every nonempty list of scripts has one tree
  by halving.
* `leafDepths_le`: up to `2 ^ m` leaves no leaf is deeper than `m`.
* `foldlM_add_of_halved`: adding the leaves of a tree one by one puts the tree
  where it belongs, whatever waits above.
* `Branching.ofScripts_of_halved`: the tree put together is that by halving.
-/

namespace VaultCovenant

/-! ## Trees by halving -/

/-- The tree of a nonempty list of scripts by halving: one script is a leaf; of
more, the first half, rounded down, is on the left and the rest on the right. -/
inductive Halved : List Script → Branching → Prop
  | leaf (script : Script) : Halved [script] (.leaf script)
  | join {scripts : List Script} {left right : Branching} (length_le : 2 ≤ scripts.length)
      (firsts : Halved (scripts.take (scripts.length / 2)) left)
      (rest : Halved (scripts.drop (scripts.length / 2)) right) :
      Halved scripts (.join left right)

theorem exists_halved {scripts : List Script} (h : scripts ≠ []) :
    ∃ tree, Halved scripts tree := by
  -- by induction on the length, since the halves are no tails
  induction hlen : scripts.length using Nat.strongRecOn generalizing scripts with
  | ind count ih =>
    subst hlen
    match scripts with
    | [] => exact absurd rfl h
    | [script] => exact ⟨_, .leaf script⟩
    | first :: second :: rest =>
      set scripts := first :: second :: rest
      have htwo : 2 ≤ scripts.length := by simp [scripts]
      have hfirsts : (scripts.take (scripts.length / 2)).length = scripts.length / 2 := by
        rw [List.length_take]
        omega
      have hrest : (scripts.drop (scripts.length / 2)).length =
          scripts.length - scripts.length / 2 := List.length_drop
      obtain ⟨left, hleft⟩ := ih _ (by omega) (List.ne_nil_of_length_pos (by omega)) hfirsts
      obtain ⟨right, hright⟩ := ih _ (by omega) (List.ne_nil_of_length_pos (by omega)) hrest
      exact ⟨_, .join htwo hleft hright⟩

/-- Halving leaves no choice. -/
theorem Halved.unique {scripts : List Script} {tree other : Branching} (h : Halved scripts tree)
    (hother : Halved scripts other) : tree = other := by
  induction h generalizing other with
  | leaf script =>
    cases hother with
    | leaf => rfl
    | join htwo => exact absurd htwo (by simp)
  | join htwo _ _ ihleft ihright =>
    cases hother with
    | leaf => exact absurd htwo (by simp)
    | join _ hleft hright => rw [ihleft hleft, ihright hright]

theorem Halved.scripts_eq {scripts : List Script} {tree : Branching} (h : Halved scripts tree) :
    tree.scripts = scripts := by
  induction h with
  | leaf => rfl
  | join _ _ _ ihleft ihright =>
    rw [Branching.scripts, ihleft, ihright, List.take_append_drop]

theorem halved_pair (a b : Script) : Halved [a, b] (.join (.leaf a) (.leaf b)) :=
  .join (Nat.le_refl 2) (by simpa using Halved.leaf a) (by simpa using Halved.leaf b)

/-! ## Depths -/

theorem leafDepths_le {count depth m : ℕ} (h : count ≤ 2 ^ m) :
    ∀ d ∈ leafDepths count depth, d ≤ depth + m := by
  fun_induction leafDepths count depth generalizing m with
  | case1 => simp
  | case2 => simp
  | case3 count depth h0 h1 ihleft ihright =>
    cases m with
    | zero =>
      rw [Nat.pow_zero] at h
      omega
    | succ m =>
      rw [Nat.pow_succ] at h
      intro d hd
      rcases List.mem_append.mp hd with hd | hd
      · have := ihleft (m := m) (by omega) d hd
        omega
      · have := ihright (m := m) (by omega) d hd
        omega

/-- The leaves of either half stand one level further down. -/
theorem laidOut_of_two_le {scripts : List Script} (h : 2 ≤ scripts.length) (depth : ℕ) :
    laidOut scripts depth =
      laidOut (scripts.take (scripts.length / 2)) (depth + 1)
        ++ laidOut (scripts.drop (scripts.length / 2)) (depth + 1) := by
  have hfirsts : (scripts.take (scripts.length / 2)).length = scripts.length / 2 := by
    rw [List.length_take]
    omega
  unfold laidOut
  rw [hfirsts, List.length_drop, leafDepths_of_two_le h,
    ← List.zip_append ((leafDepths_length _ _).trans hfirsts.symm), List.take_append_drop]

/-! ## Putting the tree together -/

/-- Two trees put side by side are joined where their joint would be put. -/
theorem Waiting.place_beside {depth : ℕ} {left : Branching} (right : Branching)
    {waiting between : Waiting} (hwaiting : waiting.length ≤ depth + 1)
    (hleft : place (depth + 1) left waiting = .ok between) :
    between.length = depth + 2 ∧
      place (depth + 1) right between = place depth (.join left right) waiting := by
  rw [place_of_length_le left hwaiting] at hleft
  cases hleft
  have hlen : (List.replicate (depth + 1 - waiting.length) none ++ waiting).length =
      depth + 1 := by
    rw [List.length_append, List.length_replicate]
    omega
  refine ⟨by rw [List.length_cons, hlen], ?_⟩
  rw [place, hlen, if_neg (Nat.lt_irrefl _)]
  show place depth (.join left right) _ = _
  rcases Nat.lt_or_eq_of_le hwaiting with hlt | heq
  -- nothing waits where the joint is put, only places that are still empty
  · obtain ⟨k, hk⟩ : ∃ k, depth - waiting.length = k := ⟨_, rfl⟩
    have hpad : depth + 1 - waiting.length = k + 1 := by omega
    have habove : (List.replicate k none ++ waiting).length = depth := by
      rw [List.length_append, List.length_replicate]
      omega
    rw [hpad, List.replicate_succ, List.cons_append, place, habove,
      if_neg (Nat.lt_irrefl _), place_of_length_le _ (by omega), hk]
  · rw [heq, Nat.sub_self]
    rfl

/-- Adding the leaves of a tree one by one is putting the finished tree at the
depth of its root, whatever waits above. -/
theorem foldlM_add_of_halved {scripts : List Script} {tree : Branching} (h : Halved scripts tree)
    {depth : ℕ} {waiting : Waiting}
    (hdepth : ∀ leaf ∈ laidOut scripts depth, leaf.1 ≤ maxLeafDepth)
    (hwaiting : waiting.length ≤ depth + 1) :
    (laidOut scripts depth).foldlM Waiting.add waiting = waiting.place depth tree := by
  induction h generalizing depth waiting with
  | leaf script =>
    have hleaf : laidOut [script] depth = [(depth, script)] := by simp [laidOut]
    rw [hleaf] at hdepth ⊢
    have hmax : depth ≤ maxLeafDepth := hdepth _ (List.mem_singleton_self _)
    rw [List.foldlM_cons, Waiting.add, if_neg (by omega), if_neg (by omega)]
    exact bind_pure _
  | @join scripts left right htwo _ _ ihleft ihright =>
    rw [laidOut_of_two_le htwo] at hdepth ⊢
    rw [List.forall_mem_append] at hdepth
    have hplaced := Waiting.place_of_length_le left hwaiting
    obtain ⟨hlen, hjoin⟩ := Waiting.place_beside right hwaiting hplaced
    rw [List.foldlM_append, ihleft hdepth.1 (by omega), hplaced]
    exact (ihright hdepth.2 (Nat.le_of_eq hlen)).trans hjoin

/-- The tree put together from a list of scripts is that by halving. -/
theorem Branching.ofScripts_of_halved {scripts : List Script} {tree : Branching}
    (h : Halved scripts tree) (hlen : scripts.length ≤ 2 ^ maxLeafDepth) :
    ofScripts scripts = .ok tree := by
  have hdepth : ∀ leaf ∈ laidOut scripts 0, leaf.1 ≤ maxLeafDepth := by
    intro leaf hleaf
    have := leafDepths_le hlen leaf.1 (List.of_mem_zip hleaf).1
    omega
  unfold ofScripts ofDepths
  rw [foldlM_add_of_halved h hdepth (Nat.zero_le _)]
  rfl

end VaultCovenant
