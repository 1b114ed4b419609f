import VaultCovenant.Proofs.Sequencing
import VaultCovenant.Proofs.Text.Abbreviation
import VaultCovenant.Transaction.Text

/-!
# Outpoints read back

The text of an outpoint is an id in hexadecimal, a colon and an index in
decimal. Each part is read back as what it was written from.

Results:
* `Bytes.ofHex?_toHex`: hexadecimal text stands for its bytes.
* `Text.Numeral.natural?_toDigits`: decimal digits stand for their number.
* `Outpoint.ofText_text`: an outpoint is read back from its text.
-/

namespace VaultCovenant

/-! ## Hexadecimal text -/

namespace Bytes

theorem hexValue?_hexDigit {n : ℕ} (h : n < 16) : hexValue? (hexDigit n) = some n := by
  interval_cases n <;> rfl

theorem ofHexChars?_hexChars (bs : Bytes) : ofHexChars? (hexChars bs) = some bs := by
  induction bs with
  | nil => rfl
  | cons b bs ih =>
    have hb := b.toNat_lt
    have hhalves : UInt8.ofNat (16 * (b.toNat / 16) + b.toNat % 16) = b := by
      rw [Nat.div_add_mod, UInt8.ofNat_toNat]
    rw [hexChars, ofHexChars?, hexValue?_hexDigit (show b.toNat / 16 < 16 by omega),
      hexValue?_hexDigit (show b.toNat % 16 < 16 by omega), ih]
    exact congrArg (fun c => some (c :: bs)) hhalves

theorem ofHex?_toHex (bs : Bytes) : ofHex? bs.toHex = some bs := by
  rw [ofHex?, toHex, String.toList_ofList, ofHexChars?_hexChars]

theorem length_hexChars (bs : Bytes) : (hexChars bs).length = 2 * bs.length := by
  induction bs with
  | nil => rfl
  | cons b bs ih =>
    simp only [hexChars, List.length_cons, ih]
    omega

theorem utf8ByteSize_toHex (bs : Bytes) : bs.toHex.utf8ByteSize = 2 * bs.length := by
  have hplain := bs.plain_toHex
  rw [toHex, String.toList_ofList] at hplain
  rw [toHex, String.utf8ByteSize_ofList, hplain.utf8Len, length_hexChars]

/-- No hexadecimal digit is a colon. -/
theorem colon_not_mem_hexChars (bs : Bytes) : ':' ∉ hexChars bs := by
  intro hc
  obtain ⟨n, hn, h⟩ := exists_hexDigit hc
  have hdigit : ':' ≠ hexDigit n := by
    interval_cases n <;> decide
  exact hdigit h

end Bytes

theorem Bytes32.utf8ByteSize_toHex (a : Bytes32) : a.toHex.utf8ByteSize = 64 := by
  rw [toHex, Bytes.utf8ByteSize_toHex, a.length_eq]

theorem Script.utf8ByteSize_toHex (s : Script) : s.toHex.utf8ByteSize = 2 * s.bytes.length :=
  Bytes.utf8ByteSize_toHex s.bytes

/-! ## Decimal digits -/

namespace Text.Numeral

theorem isDigit_of_mem {n : ℕ} {c : Char} (h : c ∈ Nat.toDigits 10 n) : c.isDigit = true :=
  Nat.isDigit_of_mem_toDigits (by decide) (by decide) h

theorem digits?_toDigits (n : ℕ) : digits? (Nat.toDigits 10 n) = some n := by
  have hall : (Nat.toDigits 10 n).all Char.isDigit = true :=
    List.all_eq_true.mpr fun _ hc => isDigit_of_mem hc
  have hne : (Nat.toDigits 10 n).isEmpty = false :=
    List.isEmpty_eq_false_iff.mpr Nat.toDigits_ne_nil
  rw [digits?, hall, hne]
  exact congrArg some Nat.ofDigitChars_ten_toDigits

theorem natural?_toDigits (n : ℕ) : natural? (Nat.toDigits 10 n) = some n := by
  rw [natural?.eq_def]
  split
  · rename_i cs h
    have hplus := isDigit_of_mem (n := n) (h ▸ List.mem_cons_self)
    cases hplus
  · exact digits?_toDigits n

theorem utf8ByteSize_toString (n : ℕ) :
    (toString n).utf8ByteSize = (Nat.toDigits 10 n).length := by
  have hplain := plain_repr n
  rw [Nat.toString_eq_ofList_toDigits, String.toList_ofList] at hplain
  rw [Nat.toString_eq_ofList_toDigits, String.utf8ByteSize_ofList, hplain.utf8Len]

/-- Only zero has a zero in front. -/
theorem head?_toDigits_ne {n : ℕ} (h : n ≠ 0) : (Nat.toDigits 10 n).head? ≠ some '0' := by
  induction n using Nat.strongRecOn with
  | _ n ih =>
    by_cases hn : n < 10
    · rw [Nat.toDigits_of_lt_base hn]
      simpa using h
    · have hrest := ih (n / 10) (by omega) (by omega)
      rw [Nat.toDigits_of_base_le (by decide) (by omega),
        List.head?_append_of_ne_nil _ Nat.toDigits_ne_nil]
      exact hrest

end Text.Numeral

/-! ## Outpoints -/

theorem Txid.utf8ByteSize_text (t : Txid) : t.text.utf8ByteSize = 64 :=
  t.digest.reversed.utf8ByteSize_toHex

theorem Txid.ofText_text (t : Txid) : ofText t.text = .ok t := by
  have hsize := t.utf8ByteSize_text
  obtain ⟨digest⟩ := t
  have hback : Bytes32.ofBytes? digest.reversed.bytes = some digest.reversed :=
    dif_pos digest.reversed.length_eq
  have hrev : digest.reversed.reversed = digest :=
    Bytes32.ext_bytes (List.reverse_reverse digest.bytes)
  rw [ofText, if_neg (not_not.mpr hsize), text, Bytes32.toHex, Bytes.ofHex?_toHex]
  simp only [Option.bind_some, ofShownBytes?, hback, Option.map_some, hrev]

namespace Outpoint

theorem voutOfText_toDigits (vout : UInt32) :
    voutOfText (Nat.toDigits 10 vout.toNat) = .ok vout := by
  have hunpadded : ¬ (1 < (Nat.toDigits 10 vout.toNat).length ∧
      ((Nat.toDigits 10 vout.toNat).head? = some '0' ∨
        (Nat.toDigits 10 vout.toNat).head? = some '+')) := by
    rintro ⟨hlong, hzero | hplus⟩
    · refine Text.Numeral.head?_toDigits_ne ?_ hzero
      rintro h
      rw [h] at hlong
      exact absurd hlong (by decide)
    · have hdigit := Text.Numeral.isDigit_of_mem (List.mem_of_mem_head? hplus)
      exact absurd hdigit (by decide)
  rw [voutOfText, if_neg hunpadded, Text.Numeral.natural?_toDigits]
  exact (if_pos vout.toNat_lt).trans (congrArg Except.ok UInt32.ofNat_toNat)

/-- An id, a colon and ten digits. -/
theorem utf8ByteSize_text_le (o : Outpoint) : o.text.utf8ByteSize ≤ 75 := by
  have hdigits : (Nat.toDigits 10 o.vout.toNat).length ≤ 10 :=
    (Nat.length_toDigits_le_iff (by decide) (by decide)).mpr
      (Nat.lt_trans o.vout.toNat_lt (by decide))
  rw [text, String.utf8ByteSize_append, String.utf8ByteSize_append, o.txid.utf8ByteSize_text,
    Text.Numeral.utf8ByteSize_toString]
  show 64 + 1 + _ ≤ 75
  omega

/-- An outpoint is read back from its text. -/
theorem ofText_text (o : Outpoint) : ofText o.text = .ok o := by
  obtain ⟨txid, vout⟩ := o
  let front := txid.text.toList
  let back := Nat.toDigits 10 vout.toNat
  have htext : (text ⟨txid, vout⟩).toList = front ++ ':' :: back := by
    rw [text, String.toList_append, String.toList_append, List.append_assoc]
    exact congrArg (fun cs => front ++ (':' :: cs)) Nat.toList_repr
  have hfront : ∀ c ∈ front, (c != ':') = true := by
    intro c hc
    rw [bne_iff_ne]
    rintro rfl
    rw [show front = _ from String.toList_ofList] at hc
    exact Bytes.colon_not_mem_hexChars _ hc
  have hback : ':' ∉ back := fun hc => absurd (Text.Numeral.isDigit_of_mem hc) (by decide)
  have hshort : ¬ 75 < (text ⟨txid, vout⟩).utf8ByteSize :=
    Nat.not_lt.mpr (utf8ByteSize_text_le ⟨txid, vout⟩)
  have htake : (front ++ ':' :: back).takeWhile (· != ':') = front := by
    rw [List.takeWhile_append_of_pos hfront]
    exact List.append_nil front
  have hdrop : ((front ++ ':' :: back).dropWhile (· != ':')).drop 1 = back := by
    rw [List.dropWhile_append_of_pos hfront]
    rfl
  have hformat : ¬ (front.isEmpty ∨ back.isEmpty ∨ back.contains ':') := by
    have hsome : front ≠ [] := by
      intro hnil
      have hsize := txid.utf8ByteSize_text
      rw [← String.ofList_toList (s := txid.text), show txid.text.toList = [] from hnil] at hsize
      exact absurd hsize (by decide)
    have hnumber : back ≠ [] := Nat.toDigits_ne_nil
    simp [hsome, hnumber, hback]
  have htxid : (Txid.ofText (String.ofList front)).mapError OutpointError.txid = .ok txid := by
    rw [String.ofList_toList, txid.ofText_text]
    rfl
  rw [ofText, if_neg hshort, htext, htake, hdrop]
  simp only [if_neg hformat]
  exact bind_eq_ok_iff.mpr ⟨txid, htxid, bind_eq_ok_iff.mpr ⟨vout, voutOfText_toDigits vout, rfl⟩⟩

end Outpoint

end VaultCovenant
