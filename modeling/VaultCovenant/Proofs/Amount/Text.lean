import Mathlib.Algebra.GroupWithZero.Nat
import VaultCovenant.Amount.Text
import VaultCovenant.Proofs.Json.Length

/-!
# Amounts are short

Whole coins are shown as the number of 53 binary digits nearest to the amount.
Rounding keeps the significand within 54 binary digits and the exponent near
that of the quotient, so that no amount has a long text.

Results:
* `Binary64.fst_ratio_ofRatio_le`: what is rounded stays within its digits.
* `Sats.coins_shifted_lt`: the coins of any amount in their smallest unit.
* `Sats.utf8ByteSize_text_le`, `Sats.bare_text`: an amount takes at most 38 bytes,
  and none of them is escaped.
-/

namespace VaultCovenant

theorem roundHalfEven_le (num den : ℕ) : roundHalfEven num den ≤ num / den + 1 := by
  unfold roundHalfEven
  dsimp only
  split_ifs <;> omega

namespace Binary64

/-- From the least exponent on that is tried, a quotient has at most 54 binary
digits before the point. -/
theorem scaled_lt {num den : ℕ} {exponent : ℤ} (hden : 0 < den)
    (hlow : (num.log2 : ℤ) - den.log2 - 53 ≤ exponent) :
    (scaled num den exponent).1 < 2 ^ 54 * (scaled num den exponent).2 := by
  have hnum : num < 2 ^ (num.log2 + 1) := Nat.lt_log2_self
  have hself : 2 ^ den.log2 ≤ den := Nat.log2_self_le hden.ne'
  unfold scaled
  by_cases hneg : exponent < 0
  · rw [if_pos hneg]
    calc num * 2 ^ exponent.natAbs
        < 2 ^ (num.log2 + 1) * 2 ^ exponent.natAbs := Nat.mul_lt_mul_of_pos_right hnum (by simp)
      _ = 2 ^ (num.log2 + 1 + exponent.natAbs) := (Nat.pow_add ..).symm
      _ ≤ 2 ^ (54 + den.log2) := Nat.pow_le_pow_right (by decide) (by omega)
      _ = 2 ^ 54 * 2 ^ den.log2 := Nat.pow_add ..
      _ ≤ 2 ^ 54 * den := Nat.mul_le_mul_left _ hself
  · rw [if_neg hneg]
    calc num
        < 2 ^ (num.log2 + 1) := hnum
      _ ≤ 2 ^ (54 + (den.log2 + exponent.natAbs)) := Nat.pow_le_pow_right (by decide) (by omega)
      _ = 2 ^ 54 * (2 ^ den.log2 * 2 ^ exponent.natAbs) := by rw [Nat.pow_add, Nat.pow_add]
      _ ≤ 2 ^ 54 * (den * 2 ^ exponent.natAbs) :=
        Nat.mul_le_mul_left _ (Nat.mul_le_mul_right _ hself)

/-- One of two exponents is taken, and one more if the significand is rounded
up to a power of two. -/
theorem ofRatio_eq {num : ℕ} (den : ℕ) (hnum : num ≠ 0) :
    ∃ exponent : ℤ, (num.log2 : ℤ) - den.log2 - 53 ≤ exponent ∧
      exponent ≤ (num.log2 : ℤ) - den.log2 - 52 ∧
      ofRatio num den =
        let significand := roundHalfEven (scaled num den exponent).1 (scaled num den exponent).2
        if significand = 2 * least then ⟨least, exponent + 1⟩ else ⟨significand, exponent⟩ := by
  unfold ofRatio
  rw [if_neg hnum]
  refine ⟨_, ?_, ?_, rfl⟩
  · split <;> omega
  · split <;> omega

theorem ofRatio_le {num den k : ℕ} (hden : 0 < den) (hnum : num < 2 ^ (k + 52)) :
    (ofRatio num den).significand ≤ 2 ^ 54 ∧ (ofRatio num den).exponent ≤ k := by
  by_cases hzero : num = 0
  · rw [ofRatio, if_pos hzero]
    exact ⟨Nat.zero_le _, Int.natCast_nonneg k⟩
  obtain ⟨exponent, hlow, hhigh, heq⟩ := ofRatio_eq den hzero
  have hlog : num.log2 < k + 52 := (Nat.log2_lt hzero).mpr hnum
  rw [heq]
  dsimp only
  split
  · refine ⟨?_, ?_⟩
    · show 2 ^ 52 ≤ 2 ^ 54
      decide
    · show exponent + 1 ≤ k
      omega
  · have hquotient := Nat.div_lt_of_lt_mul ((scaled_lt hden hlow).trans_eq (Nat.mul_comm ..))
    refine ⟨(roundHalfEven_le _ _).trans hquotient, ?_⟩
    show exponent ≤ k
    omega

/-- What is rounded stays within its digits. -/
theorem fst_ratio_ofRatio_le {num den k : ℕ} (hden : 0 < den) (hnum : num < 2 ^ (k + 52)) :
    (ofRatio num den).ratio.1 ≤ 2 ^ (54 + k) := by
  obtain ⟨hsignificand, hexponent⟩ := ofRatio_le hden hnum
  unfold ratio
  by_cases hneg : (ofRatio num den).exponent < 0
  · rw [if_pos hneg]
    exact hsignificand.trans (Nat.pow_le_pow_right (by decide) (Nat.le_add_right ..))
  · rw [if_neg hneg, Nat.pow_add]
    exact Nat.mul_le_mul hsignificand (Nat.pow_le_pow_right (by decide) (by omega))

theorem snd_ratio_pos (x : Binary64) : 0 < x.ratio.2 := by
  unfold ratio
  dsimp only
  split
  · exact Nat.two_pow_pos _
  · exact Nat.one_pos

end Binary64

/-! ## The text of a number -/

theorem toList_fixedPoint (places n : ℕ) : (fixedPoint places n).toList =
    Nat.toDigits 10 (n / 10 ^ places) ++
      '.' :: padded places (Nat.toDigits 10 (n % 10 ^ places)) :=
  String.toList_ofList

theorem length_fixedPoint_le {places n k : ℕ} (hplaces : 0 < places) (hk : 0 < k)
    (h : n < 10 ^ (places + k)) : (fixedPoint places n).toList.length ≤ k + 1 + places := by
  have hfront : (Nat.toDigits 10 (n / 10 ^ places)).length ≤ k :=
    (Nat.length_toDigits_le_iff (by decide) hk).mpr
      (Nat.div_lt_of_lt_mul (Nat.pow_add 10 places k ▸ h))
  have hback : (Nat.toDigits 10 (n % 10 ^ places)).length ≤ places :=
    (Nat.length_toDigits_le_iff (by decide) hplaces).mpr (Nat.mod_lt _ (Nat.pow_pos (by decide)))
  rw [toList_fixedPoint, List.length_append, List.length_cons, length_padded]
  omega

/-- A number with places is made of digits and a point. -/
theorem mem_fixedPoint {places n : ℕ} {c : Char} (h : c ∈ (fixedPoint places n).toList) :
    c.isDigit = true ∨ c = '.' := by
  rw [toList_fixedPoint, List.mem_append, List.mem_cons, padded, List.mem_append] at h
  rcases h with h | h | h | h
  · exact Or.inl (Text.Numeral.isDigit_of_mem h)
  · exact Or.inr h
  · rw [List.eq_of_mem_replicate h]
    exact Or.inl rfl
  · exact Or.inl (Text.Numeral.isDigit_of_mem h)

/-! ## Amounts -/

namespace Sats

theorem coins_shifted_lt (amount : Sats) : amount.coins.shifted 8 < 10 ^ 30 := by
  have hamount : amount.toNat < 2 ^ (12 + 52) := amount.toNat_lt
  have hwhole := Binary64.fst_ratio_ofRatio_le Nat.one_pos hamount
  have hcoins : amount.coins.ratio.1 ≤ 2 ^ (54 + 15) :=
    Binary64.fst_ratio_ofRatio_le (Nat.mul_pos (Binary64.snd_ratio_pos _) (by decide))
      (hwhole.trans_lt (by decide))
  have hquotient := Nat.div_le_self (amount.coins.ratio.1 * 10 ^ 8) amount.coins.ratio.2
  have hround := roundHalfEven_le (amount.coins.ratio.1 * 10 ^ 8) amount.coins.ratio.2
  show roundHalfEven (amount.coins.ratio.1 * 10 ^ 8) amount.coins.ratio.2 < 10 ^ 30
  omega

/-- An amount is shown by a number and a unit. -/
theorem text_eq (amount : Sats) : ∃ number unit : String, amount.text = number ++ unit ∧
    (∀ c ∈ number.toList, c.isDigit = true ∨ c = '.') ∧ number.toList.length ≤ 31 ∧
    unit ∈ [" sats", " K sats", " BTC"] := by
  unfold text
  split_ifs with hsmall hmiddle
  · refine ⟨toString amount.toNat, " sats", rfl, fun c hc => ?_, ?_, by simp⟩
    · exact Or.inl (Text.Numeral.isDigit_of_mem (Nat.toList_repr ▸ hc))
    · have hdigits := (Nat.length_toDigits_le_iff (b := 10) (k := 3) (by decide) (by decide)).mpr
        hsmall
      rw [show (toString amount.toNat).toList = _ from Nat.toList_repr]
      omega
  · refine ⟨fixedPoint 3 amount.toNat, " K sats", rfl, fun c hc => mem_fixedPoint hc, ?_, by simp⟩
    have hlen : (fixedPoint 3 amount.toNat).toList.length ≤ 5 + 1 + 3 :=
      length_fixedPoint_le (by decide) (by decide) hmiddle
    omega
  · exact ⟨fixedPoint 8 (amount.coins.shifted 8), " BTC", rfl, fun c hc => mem_fixedPoint hc,
      length_fixedPoint_le (by decide) (by decide) amount.coins_shifted_lt, by simp⟩

theorem utf8ByteSize_text_le (amount : Sats) : amount.text.utf8ByteSize ≤ 38 := by
  obtain ⟨number, unit, htext, hnumber, hlen, hunit⟩ := amount.text_eq
  have hplain : Text.Plain number.toList := fun c hc =>
    (hnumber c hc).elim Text.utf8Size_of_isDigit fun h => h ▸ rfl
  have hsize : unit.utf8ByteSize ≤ 7 := by
    simp only [List.mem_cons, List.not_mem_nil, or_false] at hunit
    rcases hunit with rfl | rfl | rfl <;> decide
  rw [htext, String.utf8ByteSize_append, Text.utf8ByteSize_eq, hplain.utf8Len]
  omega

theorem bare_text (amount : Sats) : Json.Bare amount.text.toList := by
  obtain ⟨number, unit, htext, hnumber, -, hunit⟩ := amount.text_eq
  have hbare : Json.Bare unit.toList := by
    simp only [List.mem_cons, List.not_mem_nil, or_false] at hunit
    rcases hunit with rfl | rfl | rfl <;> decide
  rw [htext, String.toList_append]
  exact Json.Bare.append
    (fun c hc => (hnumber c hc).elim Json.escape_of_isDigit fun h => h ▸ rfl) hbare

end Sats

end VaultCovenant
