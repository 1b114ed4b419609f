import Mathlib.Data.List.Forall2
import Mathlib.Data.List.Induction
import Mathlib.Data.List.Nodup

/-!
# Values in the order in which they are first seen

Reading a list from its front and keeping every value once.

Results:
* `eraseDups_concat`: a further value is added only if it is new.
* `nodup_eraseDups`: no value is kept twice.
* `eraseDups_perm`: in another order the same values are kept.
* `find?_of_forall₂`: in two lists that go together the first members with a
  property do too.
-/

namespace VaultCovenant

variable {α : Type} [BEq α] [LawfulBEq α]

theorem eraseDups_concat_of_mem {as : List α} {a : α} (h : a ∈ as) :
    (as ++ [a]).eraseDups = as.eraseDups := by
  rw [List.eraseDups_append]
  simp [List.removeAll, h]

theorem eraseDups_concat_of_not_mem {as : List α} {a : α} (h : a ∉ as) :
    (as ++ [a]).eraseDups = as.eraseDups ++ [a] := by
  rw [List.eraseDups_append]
  simp [List.removeAll, h, List.eraseDups_cons]

theorem eraseDups_concat (as : List α) (a : α) :
    (as ++ [a]).eraseDups = as.eraseDups ++ [a].filter fun b => !as.eraseDups.contains b := by
  by_cases h : a ∈ as
  · rw [eraseDups_concat_of_mem h]
    simp [h]
  · rw [eraseDups_concat_of_not_mem h]
    simp [h]

theorem nodup_eraseDups (as : List α) : as.eraseDups.Nodup := by
  induction as using List.reverseRecOn with
  | nil => exact List.nodup_nil
  | append_singleton as a ih =>
    by_cases h : a ∈ as
    · rw [eraseDups_concat_of_mem h]
      exact ih
    · rw [eraseDups_concat_of_not_mem h]
      refine List.nodup_append.mpr ⟨ih, List.nodup_singleton a, ?_⟩
      intro b hb c hc
      rw [List.mem_singleton] at hc
      rw [List.mem_eraseDups] at hb
      rintro rfl
      exact h (hc ▸ hb)

theorem eraseDups_perm {as bs : List α} (h : as.Perm bs) : as.eraseDups.Perm bs.eraseDups := by
  rw [List.perm_ext_iff_of_nodup (nodup_eraseDups as) (nodup_eraseDups bs)]
  intro a
  rw [List.mem_eraseDups, List.mem_eraseDups, h.mem_iff]

theorem length_eraseDups_le (as : List α) : as.eraseDups.length ≤ as.length := by
  induction as using List.reverseRecOn with
  | nil => exact Nat.le_refl _
  | append_singleton as a ih =>
    rw [List.length_append, List.length_singleton]
    by_cases h : a ∈ as
    · rw [eraseDups_concat_of_mem h]
      omega
    · rw [eraseDups_concat_of_not_mem h, List.length_append, List.length_singleton]
      omega

/-- Values that are seen later do not move those seen before. -/
theorem idxOf_eraseDups_append {as : List α} {a : α} (h : a ∈ as) (bs : List α) :
    (as ++ bs).eraseDups.idxOf a = as.eraseDups.idxOf a := by
  rw [List.eraseDups_append, List.idxOf_append, if_pos (List.mem_eraseDups.mpr h)]

theorem find?_of_forall₂ {α β : Type} {R : α → β → Prop} {p : α → Bool} {q : β → Bool}
    {xs : List α} {ys : List β} (h : List.Forall₂ R xs ys) (hpq : ∀ x y, R x y → p x = q y)
    {y : β} (hy : ys.find? q = some y) : ∃ x, xs.find? p = some x ∧ R x y := by
  induction h with
  | nil => cases hy
  | @cons x' y' xs ys hr _ ih =>
    rw [List.find?_cons] at hy
    rw [List.find?_cons, hpq x' y' hr]
    cases hq : q y' with
    | true =>
      rw [hq] at hy
      cases hy
      exact ⟨x', rfl, hr⟩
    | false =>
      rw [hq] at hy
      exact ih hy

end VaultCovenant
