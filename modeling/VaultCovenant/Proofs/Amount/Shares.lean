import Mathlib.Algebra.GroupWithZero.Nat
import VaultCovenant.Amount.Basic

/-!
# Shares of an amount

An amount without a fee is divided into parts with a difference that stops at
zero, a division that rounds down, and a product that is taken away again. In 64
bits each of these could go wrong, and none does: on the naturals the shares are
the quotient, and the last of them is the quotient and the remainder.

* `Sats.toNat_remainder`, `Sats.toNat_last`: what the product leaves over is the
  remainder of the division, and the last share takes it.
* `Sats.checkedShares`: the division with a check at every step that could wrap.
  No check ever fails (`Sats.checkedShares_eq`).
* `Sats.shares_divides`: there are as many shares as parts, they add up to what
  is left after the fee, and they differ by less than the number of parts.
-/

namespace VaultCovenant

namespace Sats

/-! ## On the naturals -/

theorem minus_zero (total : Sats) : total.minus 0 = total := by
  simp [minus]

/-- What the equal parts take does not exceed the whole, so the product fits. -/
theorem div_mul_le (spendable : Sats) (parts : UInt64) :
    (spendable / parts).toNat * parts.toNat ≤ spendable.toNat := by
  rw [UInt64.toNat_div]
  exact Nat.div_mul_le_self _ _

theorem toNat_div_mul (spendable : Sats) (parts : UInt64) :
    (spendable / parts * parts).toNat = (spendable / parts).toNat * parts.toNat := by
  have hle := div_mul_le spendable parts
  have hlt := spendable.toNat_lt
  rw [UInt64.toNat_mul, Nat.mod_eq_of_lt (by omega)]

theorem div_mul_le_self (spendable : Sats) (parts : UInt64) :
    spendable / parts * parts ≤ spendable := by
  rw [UInt64.le_iff_toNat_le, toNat_div_mul]
  exact div_mul_le spendable parts

/-- The product that is taken away leaves the remainder of the division. -/
theorem toNat_remainder (spendable : Sats) (parts : UInt64) :
    (spendable - spendable / parts * parts).toNat = spendable.toNat % parts.toNat := by
  have hdiv := Nat.div_add_mod' spendable.toNat parts.toNat
  rw [UInt64.toNat_sub_of_le _ _ (div_mul_le_self spendable parts), toNat_div_mul,
    UInt64.toNat_div]
  omega

section Positive

variable {parts : UInt64}

/-- A part and the remainder are together no more than the whole, so the sum fits. -/
theorem div_add_remainder_le (spendable : Sats) (h : parts ≠ 0) :
    (spendable / parts).toNat + (spendable - spendable / parts * parts).toNat ≤
      spendable.toNat := by
  have hpos := Nat.pos_of_ne_zero (toNat_ne_zero h)
  have hdiv := Nat.div_add_mod' spendable.toNat parts.toNat
  have hle : spendable.toNat / parts.toNat ≤ spendable.toNat / parts.toNat * parts.toNat :=
    Nat.le_mul_of_pos_right _ hpos
  rw [toNat_remainder, UInt64.toNat_div]
  omega

theorem toNat_last (spendable : Sats) (h : parts ≠ 0) :
    (spendable / parts + (spendable - spendable / parts * parts)).toNat =
      spendable.toNat / parts.toNat + spendable.toNat % parts.toNat := by
  have hle := div_add_remainder_le spendable h
  have hlt := spendable.toNat_lt
  rw [UInt64.toNat_add, Nat.mod_eq_of_lt (by omega), toNat_remainder, UInt64.toNat_div]

end Positive

/-! ## The shares -/

/-- No product, difference or sum on the way to the shares leaves 64 bits. -/
theorem checkedShares_eq (total : Sats) (parts : UInt64) (fee : Sats) :
    total.checkedShares parts fee = .ok (total.shares parts fee) := by
  unfold checkedShares shares
  by_cases h : parts = 0
  · rw [if_pos h, if_pos h]
    rfl
  · rw [if_neg h, if_neg h]
    have hlt := (total.minus fee).toNat_lt
    have hfits := div_mul_le (total.minus fee) parts
    have hproduct : product (total.minus fee / parts) parts =
        .ok (total.minus fee / parts * parts) := by
      refine if_pos ?_
      unfold bound
      omega
    have hdifference : difference (total.minus fee) (total.minus fee / parts * parts) =
        .ok (total.minus fee - total.minus fee / parts * parts) :=
      if_pos (div_mul_le_self _ _)
    have hroom := div_add_remainder_le (total.minus fee) h
    have hsum : add (total.minus fee / parts)
        (total.minus fee - total.minus fee / parts * parts) =
          .ok (total.minus fee / parts + (total.minus fee - total.minus fee / parts * parts)) := by
      refine if_pos ?_
      unfold bound
      omega
    simp only [hproduct, hdifference, hsum, bind, Except.bind, pure, Except.pure]

/-- Amounts that divide a whole: all but the last are equal, and the last also
takes what cannot be divided. -/
structure Divides (amounts : List Sats) (whole parts : Nat) : Prop where
  length_eq : amounts.length = parts
  sum_eq : (amounts.map UInt64.toNat).sum = whole
  nearly_equal : ∃ each last : Sats, amounts = List.replicate (parts - 1) each ++ [last] ∧
    each ≤ last ∧ last.toNat - each.toNat < parts

theorem shares_divides (total fee : Sats) {parts : UInt64} (h : parts ≠ 0) :
    Divides (total.shares parts fee) (total.toNat - fee.toNat) parts.toNat := by
  have hpos := Nat.pos_of_ne_zero (toNat_ne_zero h)
  have hlast := toNat_last (total.minus fee) h
  have hmod := Nat.mod_lt (total.minus fee).toNat hpos
  refine ⟨length_shares total parts fee, ?_, _, _, if_neg h, ?_, ?_⟩
  · have hdiv := Nat.div_add_mod' (total.minus fee).toNat parts.toNat
    have hparts : (parts.toNat - 1) * ((total.minus fee).toNat / parts.toNat) +
        (total.minus fee).toNat / parts.toNat =
          (total.minus fee).toNat / parts.toNat * parts.toNat := by
      rw [← Nat.succ_mul, Nat.succ_eq_add_one, Nat.sub_add_cancel hpos, Nat.mul_comm]
    rw [shares, if_neg h, List.map_append, List.map_replicate, List.sum_append,
      List.sum_replicate_nat, List.map_singleton, List.sum_singleton, hlast, UInt64.toNat_div,
      ← toNat_minus]
    omega
  · rw [UInt64.le_iff_toNat_le, hlast, UInt64.toNat_div]
    omega
  · rw [hlast, UInt64.toNat_div]
    omega

/-- The shares add up to what is left after the fee. -/
theorem sum_shares (total : Sats) {parts : UInt64} (fee : Sats) (h : parts ≠ 0) :
    ((total.shares parts fee).map UInt64.toNat).sum = (total.minus fee).toNat := by
  rw [(shares_divides total fee h).sum_eq, toNat_minus]

end Sats

end VaultCovenant
