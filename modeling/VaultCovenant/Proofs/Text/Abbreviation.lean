import Mathlib.Data.String.Basic
import Mathlib.Tactic.IntervalCases
import VaultCovenant.Text.Abbreviation
import VaultCovenant.Transaction.Basic

/-!
# Short forms of outpoints

A text can be shortened by bytes when each of its characters takes one byte,
and so it is with ids in hexadecimal and with indices.

Results:
* `Text.splitBytes_of_plain`: such a text can be cut anywhere.
* `Text.utf8ByteSize_abbreviate_le`: no short form has more than 19 bytes.
* `Outpoint.abbreviate_isSome`: an outpoint always has a short form.
-/

namespace VaultCovenant

namespace Text

/-- Every character takes one byte. -/
def Plain (cs : List Char) : Prop := ∀ c ∈ cs, c.utf8Size = 1

instance (cs : List Char) : Decidable (Plain cs) :=
  List.decidableBAll (fun c : Char => c.utf8Size = 1) cs

theorem Plain.append {cs ds : List Char} (hcs : Plain cs) (hds : Plain ds) : Plain (cs ++ ds) := by
  intro c hc
  rcases List.mem_append.mp hc with hc | hc
  · exact hcs c hc
  · exact hds c hc

theorem utf8ByteSize_eq (text : String) : text.utf8ByteSize = String.utf8Len text.toList := by
  rw [← String.utf8ByteSize_ofList, String.ofList_toList]

theorem Plain.utf8Len {cs : List Char} (h : Plain cs) : String.utf8Len cs = cs.length := by
  induction cs with
  | nil => rfl
  | cons c cs ih =>
    rw [String.utf8Len_cons, h c List.mem_cons_self, List.length_cons,
      ih fun d hd => h d (List.mem_cons_of_mem _ hd)]

/-- A plain text can be cut anywhere. -/
theorem splitBytes_of_plain {cs : List Char} (h : Plain cs) {count : Nat}
    (hcount : count ≤ cs.length) :
    splitBytes count cs = some (cs.take count, cs.drop count) := by
  induction cs generalizing count with
  | nil =>
    obtain rfl := Nat.le_zero.mp hcount
    rfl
  | cons c cs ih =>
    cases count with
    | zero => rfl
    | succ n =>
      have hsize : c.utf8Size = 1 := h c List.mem_cons_self
      have hrest := ih (fun d hd => h d (List.mem_cons_of_mem _ hd))
        (Nat.le_of_succ_le_succ hcount)
      simp [splitBytes, hsize, hrest]

/-- What is cut off takes as many bytes as are asked for. -/
theorem splitBytes_eq_some {count : Nat} {cs front back : List Char}
    (h : splitBytes count cs = some (front, back)) :
    front ++ back = cs ∧ String.utf8Len front = count := by
  induction cs generalizing count front back with
  | nil =>
    unfold splitBytes at h
    split at h <;> cases h
    exact ⟨rfl, Eq.symm ‹count = 0›⟩
  | cons c cs ih =>
    unfold splitBytes at h
    split at h
    · cases h
      exact ⟨rfl, Eq.symm ‹count = 0›⟩
    · split at h
      · obtain ⟨⟨front', back'⟩, hrest, hsplit⟩ := Option.map_eq_some_iff.mp h
        cases hsplit
        obtain ⟨happend, hlen⟩ := ih hrest
        refine ⟨congrArg (c :: ·) happend, ?_⟩
        rw [String.utf8Len_cons, hlen]
        omega
      · cases h

/-- A short form has at most 19 bytes. -/
theorem utf8ByteSize_abbreviate_le {text short : String} (h : abbreviate text = some short) :
    short.utf8ByteSize ≤ wholeLength := by
  unfold abbreviate at h
  dsimp only at h
  split at h
  · cases h
    assumption
  · rename_i hlong
    obtain ⟨⟨front, rest⟩, hfront, h⟩ := Option.bind_eq_some_iff.mp h
    obtain ⟨⟨rest', back⟩, hback, h⟩ := Option.bind_eq_some_iff.mp h
    cases h
    obtain ⟨-, hfront⟩ := splitBytes_eq_some hfront
    obtain ⟨happend, hrest⟩ := splitBytes_eq_some hback
    have hsize := utf8ByteSize_eq text
    rw [← happend, String.utf8Len_append, hrest] at hsize
    have hlong : 19 < text.utf8ByteSize := Nat.lt_of_not_le hlong
    simp only [String.utf8ByteSize_append, String.utf8ByteSize_ofList, hfront]
    show 8 + 3 + String.utf8Len back ≤ 19
    omega

theorem abbreviate_isSome {text : String} (h : Plain text.toList) :
    ∃ short, abbreviate text = some short := by
  have hsize : text.utf8ByteSize = text.toList.length := by
    rw [utf8ByteSize_eq, h.utf8Len]
  unfold abbreviate
  by_cases hshort : text.utf8ByteSize ≤ wholeLength
  · exact ⟨_, if_pos hshort⟩
  · have hlong : 19 < text.toList.length := by
      rw [← hsize]
      exact Nat.lt_of_not_le hshort
    rw [if_neg hshort, splitBytes_of_plain h (by omega), hsize,
      splitBytes_of_plain h (Nat.sub_le _ 8)]
    exact ⟨_, rfl⟩

end Text

theorem Bytes.utf8Size_hexDigit {n : Nat} (h : n < 16) : (hexDigit n).utf8Size = 1 := by
  interval_cases n <;> rfl

/-- Hexadecimal text is made of hexadecimal digits. -/
theorem Bytes.exists_hexDigit {bs : Bytes} {c : Char} (h : c ∈ hexChars bs) :
    ∃ n < 16, c = hexDigit n := by
  induction bs with
  | nil => exact absurd h List.not_mem_nil
  | cons b bs ih =>
    have hb := b.toNat_lt
    rw [hexChars, List.mem_cons, List.mem_cons] at h
    rcases h with h | h | h
    · exact ⟨_, by omega, h⟩
    · exact ⟨_, by omega, h⟩
    · exact ih h

theorem Bytes.plain_toHex (bs : Bytes) : Text.Plain bs.toHex.toList := by
  intro c hc
  rw [toHex, String.toList_ofList] at hc
  obtain ⟨n, hn, rfl⟩ := exists_hexDigit hc
  exact utf8Size_hexDigit hn

theorem Text.utf8Size_of_isDigit {c : Char} (h : c.isDigit = true) : c.utf8Size = 1 := by
  rw [Char.isDigit, Bool.and_eq_true, decide_eq_true_iff, decide_eq_true_iff] at h
  rw [Char.utf8Size_eq_one_iff]
  exact UInt32.le_trans h.2 (by decide)

theorem Text.plain_repr (n : Nat) : Plain (toString n).toList := fun _ hc =>
  utf8Size_of_isDigit (Nat.isDigit_of_mem_toDigits (by decide) (by decide) (Nat.toList_repr ▸ hc))

/-- An outpoint always has a short form. -/
theorem Outpoint.abbreviate_isSome (o : Outpoint) :
    ∃ short, Text.abbreviate o.text = some short := by
  apply Text.abbreviate_isSome
  rw [text, String.toList_append, String.toList_append]
  refine .append (.append (Bytes.plain_toHex _) ?_) (Text.plain_repr _)
  intro c hc
  rw [List.mem_singleton.mp hc]
  rfl

end VaultCovenant
