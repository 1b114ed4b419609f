/-!
# Fragments of a text

Whether one text stands somewhere inside another.

Results:
* `occurs_iff`: a list occurs in another iff that is the list between two others.
-/

namespace VaultCovenant.Text

/-- Whether `fragment` stands somewhere in a list of characters. -/
def occurs (fragment : List Char) : List Char → Bool
  | [] => fragment.isEmpty
  | c :: cs => fragment.isPrefixOf (c :: cs) || occurs fragment cs

/-- Whether `fragment` stands somewhere in `text`. -/
def hasFragment (text fragment : String) : Bool := occurs fragment.toList text.toList

theorem occurs_iff {fragment text : List Char} :
    occurs fragment text = true ↔ ∃ before after, text = before ++ fragment ++ after := by
  induction text with
  | nil =>
    simp only [occurs, List.isEmpty_iff]
    constructor
    · rintro rfl
      exact ⟨[], [], rfl⟩
    · rintro ⟨before, after, h⟩
      simp_all
  | cons c cs ih =>
    simp only [occurs, Bool.or_eq_true, List.isPrefixOf_iff_prefix, ih]
    constructor
    · rintro (⟨after, h⟩ | ⟨before, after, rfl⟩)
      · exact ⟨[], after, h.symm⟩
      · exact ⟨c :: before, after, rfl⟩
    · rintro ⟨before, after, h⟩
      cases before with
      | nil => exact .inl ⟨after, h.symm⟩
      | cons d before =>
        simp only [List.cons_append, List.cons.injEq] at h
        exact .inr ⟨before, after, h.2⟩

end VaultCovenant.Text
