import VaultCovenant.Proofs.Outcome
import VaultCovenant.Proofs.Vault.Output
import VaultCovenant.Trigger

/-!
# Coins that pay

A coin that pays for a transaction leaves a change to anyone. It cannot pay when
it is worth less than the fee.

Results:
* `Coin.change_eq_ok_iff`: what a coin leaves.
* `Coin.failureOf_change`: when it cannot pay.
-/

namespace VaultCovenant

/-- More than there is cannot be spent. -/
theorem Sats.failureOf_spend (available required : Sats) :
    failureOf (available.spend required) =
      if available.toNat < required.toNat then some (.insufficientFunds required available)
      else none := by
  unfold spend
  by_cases h : required ≤ available
  · rw [if_pos h]
    rw [UInt64.le_iff_toNat_le] at h
    rw [if_neg (Nat.not_lt.mpr h)]
    rfl
  · rw [if_neg h]
    rw [UInt64.le_iff_toNat_le] at h
    rw [if_pos (Nat.not_le.mp h)]
    rfl

namespace Coin

/-- The change of a coin is what the fee leaves of it. -/
theorem change_eq_ok_iff {coin : Coin} {out : TxOut} :
    coin.change = .ok out ↔
      out.scriptPubkey = Script.anyone ∧
        coin.spent.value.toNat = payingFee.toNat + out.value.toNat := by
  unfold change
  rw [bind_eq_ok_iff]
  simp only [Sats.spend_eq_ok_iff]
  constructor
  · rintro ⟨rest, hrest, h⟩
    cases h
    exact ⟨rfl, hrest⟩
  · rintro ⟨hscript, hvalue⟩
    refine ⟨out.value, hvalue, ?_⟩
    rw [← hscript]
    rfl

/-- Why a coin cannot pay. -/
def shortfall (coin : Coin) : Option VaultError :=
  if coin.spent.value.toNat < 10000 then some (.insufficientFunds 10000 coin.spent.value)
  else none

theorem failureOf_change (coin : Coin) : failureOf coin.change = shortfall coin := by
  unfold change
  rw [failureOf_bind_of_ok fun _ _ => rfl, Sats.failureOf_spend]
  rfl

end Coin

end VaultCovenant
