import Mathlib.Data.List.Basic
import VaultCovenant.Bytes

/-!
# Records one after the other

A code is prefix-free when no record begins another: whatever follows, the
first record and the rest are told by the bytes.

Results:
* `PrefixFree.flatMap_inj`: records that stand one after the other are
  determined by their bytes.
-/

namespace VaultCovenant

variable {α : Type} {P : α → Prop} {write : α → Bytes}

/-- What begins with a record of the kind `P` begins with no other such
record. -/
def PrefixFree (P : α → Prop) (write : α → Bytes) : Prop :=
  ∀ a b, P a → P b → ∀ rest rest', write a ++ rest = write b ++ rest' → a = b ∧ rest = rest'

/-- Records that stand one after the other are determined by their bytes. -/
theorem PrefixFree.flatMap_inj (hfree : PrefixFree P write) (hne : ∀ a, write a ≠ [])
    {as bs : List α} (has : ∀ a ∈ as, P a) (hbs : ∀ b ∈ bs, P b)
    (h : as.flatMap write = bs.flatMap write) : as = bs := by
  induction as generalizing bs with
  | nil =>
    cases bs with
    | nil => rfl
    | cons b bs =>
      rw [List.flatMap_nil, List.flatMap_cons] at h
      exact absurd (List.append_eq_nil_iff.mp h.symm).1 (hne b)
  | cons a as ih =>
    cases bs with
    | nil =>
      rw [List.flatMap_nil, List.flatMap_cons] at h
      exact absurd (List.append_eq_nil_iff.mp h).1 (hne a)
    | cons b bs =>
      rw [List.flatMap_cons, List.flatMap_cons] at h
      have ha : P a := has a List.mem_cons_self
      have hb : P b := hbs b List.mem_cons_self
      obtain ⟨rfl, hrest⟩ := hfree a b ha hb _ _ h
      rw [ih (fun c hc => has c (List.mem_cons_of_mem a hc))
        (fun c hc => hbs c (List.mem_cons_of_mem a hc)) hrest]

end VaultCovenant
