import Mathlib.Algebra.BigOperators.Group.List.Basic
import VaultCovenant.Json.Printer
import VaultCovenant.Proofs.Room
import VaultCovenant.Proofs.Text.Reading

/-!
# Lengths of JSON text

A string is longest when every byte of it is written by its number, and as long
as it is when nothing in it is escaped. The indented text of a value is as long
as its parts, each on a line of its own, in whatever order the fields stand.

Results:
* `utf8ByteSize_quote_le`: six bytes for each of a string's, and the quotes.
* `utf8ByteSize_quote_of_bare`: a bare string is as long as it is written.
* `sortedFields_perm`: sorting moves fields and loses none.
* `shownSize_arr_le`, `shownSize_obj_le`: a value is as long as its parts and
  the lines they stand on.
-/

namespace VaultCovenant.Json

/-! ## Strings -/

theorem escape_cases (c : Char) :
    escape c = [c] ∨ Text.Plain (escape c) ∧ (escape c).length ≤ 6 := by
  unfold escape
  split_ifs
  iterate 7 exact Or.inr ⟨by decide, by decide⟩
  · have hlow : (Bytes.hexDigit (c.toNat / 16)).utf8Size = 1 := Bytes.utf8Size_hexDigit (by omega)
    have hhigh : (Bytes.hexDigit (c.toNat % 16)).utf8Size = 1 := Bytes.utf8Size_hexDigit (by omega)
    have hfront : Text.Plain ['\\', 'u', '0', '0'] := by decide
    have hdigits : Text.Plain [Bytes.hexDigit (c.toNat / 16), Bytes.hexDigit (c.toNat % 16)] := by
      simp [Text.Plain, hlow, hhigh]
    exact Or.inr ⟨hfront.append hdigits, Nat.le_refl 6⟩
  · exact Or.inl rfl

theorem utf8Len_escape_le (c : Char) : String.utf8Len (escape c) ≤ 6 * c.utf8Size := by
  have hsize := c.utf8Size_pos
  rcases escape_cases c with h | ⟨hplain, hlen⟩
  · rw [h]
    show 0 + c.utf8Size ≤ _
    omega
  · rw [hplain.utf8Len]
    omega

theorem utf8ByteSize_quote (text : String) :
    (quote text).utf8ByteSize = String.utf8Len (text.toList.flatMap escape) + 2 := by
  rw [quote, String.utf8ByteSize_ofList, String.utf8Len_append, String.utf8Len_cons]
  rfl

theorem utf8ByteSize_quote_le (text : String) :
    (quote text).utf8ByteSize ≤ 6 * text.utf8ByteSize + 2 := by
  rw [utf8ByteSize_quote, Text.utf8ByteSize_eq]
  refine Nat.add_le_add_right ?_ 2
  induction text.toList with
  | nil => exact Nat.le_refl 0
  | cons c cs ih =>
    have hc := utf8Len_escape_le c
    rw [List.flatMap_cons, String.utf8Len_append, String.utf8Len_cons]
    omega

/-- Every character is written as it is. -/
def Bare (cs : List Char) : Prop := ∀ c ∈ cs, escape c = [c]

instance (cs : List Char) : Decidable (Bare cs) :=
  List.decidableBAll (fun c => escape c = [c]) cs

theorem Bare.append {cs ds : List Char} (hcs : Bare cs) (hds : Bare ds) : Bare (cs ++ ds) := by
  intro c hc
  exact (List.mem_append.mp hc).elim (hcs c) (hds c)

theorem escape_of_isDigit {c : Char} (h : c.isDigit = true) : escape c = [c] := by
  have hrange : 48 ≤ c.toNat ∧ c.toNat ≤ 57 := by
    rwa [Char.isDigit, Bool.and_eq_true, decide_eq_true_iff, decide_eq_true_iff] at h
  refine escape_of_plain ?_ ?_ (by omega)
  · rintro rfl
    cases h
  · rintro rfl
    cases h

theorem bare_toHex (bs : Bytes) : Bare bs.toHex.toList := by
  intro c hc
  rw [Bytes.toHex, String.toList_ofList] at hc
  obtain ⟨n, hn, rfl⟩ := Bytes.exists_hexDigit hc
  interval_cases n <;> rfl

theorem utf8ByteSize_quote_of_bare {text : String} (h : Bare text.toList) :
    (quote text).utf8ByteSize = text.utf8ByteSize + 2 := by
  have hsame : text.toList.flatMap escape = text.toList :=
    (List.flatMap_congr h).trans (List.flatMap_singleton' _)
  rw [utf8ByteSize_quote, hsame, Text.utf8ByteSize_eq]

/-! ## Lines -/

theorem utf8ByteSize_newline (level : ℕ) : (newline level).utf8ByteSize = 2 * level + 1 := by
  have hplain : Text.Plain ('\n' :: List.replicate (2 * level) ' ') := by
    intro c hc
    rcases List.mem_cons.mp hc with rfl | hc
    · rfl
    · rw [List.eq_of_mem_replicate hc]
      rfl
  rw [newline, String.utf8ByteSize_ofList, hplain.utf8Len, List.length_cons,
    List.length_replicate]

theorem utf8ByteSize_intercalate (sep : String) {parts : List String} (h : parts ≠ []) :
    (sep.intercalate parts).utf8ByteSize + sep.utf8ByteSize =
      (parts.map fun part => part.utf8ByteSize + sep.utf8ByteSize).sum := by
  induction parts with
  | nil => exact absurd rfl h
  | cons part rest ih =>
    rw [List.map_cons, List.sum_cons]
    cases rest with
    | nil => simp
    | cons next rest =>
      rw [String.intercalate_cons_cons, String.utf8ByteSize_append, String.utf8ByteSize_append,
        ← ih (List.cons_ne_nil _ _)]
      omega

/-- Every part stands on a line of its own with a comma or a bracket. -/
theorem utf8ByteSize_bracketed_le (first last : String) (level : ℕ) (parts : List String) :
    (bracketed first last level parts).utf8ByteSize ≤
      first.utf8ByteSize + last.utf8ByteSize + 2 * level + 1 +
        (parts.map fun part => part.utf8ByteSize + (2 * level + 4)).sum := by
  unfold bracketed
  by_cases hempty : parts = []
  · subst hempty
    rw [List.isEmpty_nil, if_pos rfl, String.utf8ByteSize_append]
    omega
  · have hsep : ("," ++ newline (level + 1)).utf8ByteSize = 2 * level + 4 := by
      rw [String.utf8ByteSize_append, utf8ByteSize_newline]
      show 1 + _ = _
      omega
    have hparts := utf8ByteSize_intercalate ("," ++ newline (level + 1)) hempty
    rw [if_neg (by simpa using hempty)]
    simp only [String.utf8ByteSize_append, utf8ByteSize_newline]
    simp only [hsep] at hparts
    omega

/-! ## Indented text -/

theorem prettyItems_eq_map (level : ℕ) (items : List Json) :
    prettyItems level items = items.map (prettyAt level) := by
  induction items with
  | nil => rfl
  | cons item rest ih => rw [prettyItems, List.map_cons, ih]

theorem prettyFields_eq_map (level : ℕ) (fields : List (String × Json)) :
    prettyFields level fields =
      fields.map fun (name, value) => quote name ++ ": " ++ prettyAt level value := by
  induction fields with
  | nil => rfl
  | cons field rest ih =>
    obtain ⟨name, value⟩ := field
    rw [prettyFields, List.map_cons, ih]

theorem sortedItems_eq_map (items : List Json) : sortedItems items = items.map sorted := by
  induction items with
  | nil => rfl
  | cons item rest ih => rw [sortedItems, List.map_cons, ih]

theorem insertField_perm (field : String × Json) (fields : List (String × Json)) :
    (insertField field fields).Perm (field :: fields) := by
  induction fields with
  | nil => exact List.Perm.refl _
  | cons f rest ih =>
    unfold insertField
    split
    · exact (ih.cons f).trans (List.Perm.swap field f rest)
    · exact List.Perm.refl _

theorem sortedFields_perm (fields : List (String × Json)) :
    (sortedFields fields).Perm (fields.map fun (name, value) => (name, value.sorted)) := by
  induction fields with
  | nil => exact List.Perm.refl _
  | cons field rest ih =>
    obtain ⟨name, value⟩ := field
    exact (insertField_perm _ _).trans (ih.cons _)

/-- The length of a value's text at a level, its fields in order of their names. -/
def shownSize (level : ℕ) (value : Json) : ℕ := (prettyAt level value.sorted).utf8ByteSize

theorem shownSize_arr_le (level : ℕ) (items : List Json) :
    shownSize level (arr items) ≤ 2 * level + 3 + items.length * (2 * level + 4) +
      (items.map (shownSize (level + 1))).sum := by
  have hlines := utf8ByteSize_bracketed_le "[" "]" level
    ((items.map sorted).map (prettyAt (level + 1)))
  have hparts : (((items.map sorted).map (prettyAt (level + 1))).map fun part =>
      part.utf8ByteSize + (2 * level + 4)).sum ≤
      items.length * (2 * level + 4) + (items.map (shownSize (level + 1))).sum := by
    rw [List.map_map, List.map_map]
    exact Room.sum_map_le fun item _ => Nat.le_refl _
  rw [shownSize, sorted, prettyAt, prettyItems_eq_map, sortedItems_eq_map]
  refine hlines.trans ?_
  show 1 + 1 + 2 * level + 1 + _ ≤ _
  omega

/-- Strings of a bounded length, one a line. -/
theorem shownSize_texts_le (level : ℕ) {items : List String} {k : ℕ}
    (h : ∀ text ∈ items, (quote text).utf8ByteSize ≤ k) :
    shownSize level (texts items) ≤ 2 * level + 3 + items.length * (k + 2 * level + 4) := by
  have hitems : ((items.map str).map (shownSize (level + 1))).sum ≤ items.length * k := by
    rw [List.map_map]
    exact Room.sum_map_le_mul h
  have harr := shownSize_arr_le level (items.map str)
  rw [List.length_map] at harr
  rw [Nat.add_assoc k, Nat.mul_add items.length k]
  exact harr.trans (by omega)

/-- Every field stands behind its name, all of whose bytes may be escaped. -/
theorem shownSize_obj_le (level : ℕ) {fields : List (String × Json)} {k : ℕ}
    (h : ∀ field ∈ fields, field.1.utf8ByteSize ≤ k) :
    shownSize level (obj fields) ≤ 2 * level + 3 + fields.length * (6 * k + 2 * level + 8) +
      (fields.map fun field => shownSize (level + 1) field.2).sum := by
  have hlines := utf8ByteSize_bracketed_le "\x7b" "\x7d" level
    ((sortedFields fields).map fun field => quote field.1 ++ ": " ++ prettyAt (level + 1) field.2)
  have hparts : (((sortedFields fields).map fun field =>
      quote field.1 ++ ": " ++ prettyAt (level + 1) field.2).map fun part =>
      part.utf8ByteSize + (2 * level + 4)).sum ≤
      fields.length * (6 * k + 2 * level + 8) +
        (fields.map fun field => shownSize (level + 1) field.2).sum := by
    rw [List.map_map, ((sortedFields_perm fields).map _).sum_eq, List.map_map]
    refine Room.sum_map_le fun field hfield => ?_
    have hname := utf8ByteSize_quote_le field.1
    have hshort := h field hfield
    show (quote field.1 ++ ": " ++ prettyAt (level + 1) field.2.sorted).utf8ByteSize + _ ≤ _
    rw [String.utf8ByteSize_append, String.utf8ByteSize_append]
    show _ + 2 + shownSize (level + 1) field.2 + _ ≤ _
    omega
  rw [shownSize, sorted, prettyAt, prettyFields_eq_map]
  refine hlines.trans ?_
  show 1 + 1 + 2 * level + 1 + _ ≤ _
  omega

theorem shownSize_str (level : ℕ) (text : String) :
    shownSize level (str text) = (quote text).utf8ByteSize :=
  rfl

theorem shownSize_str_le (level : ℕ) {text : String} {bound : ℕ}
    (h : text.utf8ByteSize ≤ bound) : shownSize level (str text) ≤ 6 * bound + 2 := by
  have hquote := utf8ByteSize_quote_le text
  rw [shownSize_str]
  omega

/-- An integer takes its digits and maybe a sign. -/
theorem shownSize_int_le (level : ℕ) {value : ℤ} {k : ℕ} (h : value.natAbs < 10 ^ (k + 1)) :
    shownSize level (int value) ≤ k + 2 := by
  have hdigits : (Nat.toDigits 10 value.natAbs).length ≤ k + 1 :=
    (Nat.length_toDigits_le_iff (by decide) (Nat.succ_pos k)).mpr h
  show (toString value).utf8ByteSize ≤ _
  cases value with
  | ofNat n =>
    show (toString n).utf8ByteSize ≤ _
    rw [Text.Numeral.utf8ByteSize_toString]
    exact hdigits.trans (Nat.le_succ _)
  | negSucc n =>
    show ("-" ++ toString (n + 1)).utf8ByteSize ≤ _
    rw [String.utf8ByteSize_append, Text.Numeral.utf8ByteSize_toString]
    show 1 + _ ≤ _
    exact (Nat.add_comm ..).trans_le (Nat.succ_le_succ hdigits)

end VaultCovenant.Json
