import VaultCovenant.Proofs.Batch.Build
import VaultCovenant.Withdrawal

/-!
# The withdrawal of a batch

Completing the template of a batch sets the outpoint and the witness of its
one input, and the template hash looks at neither.

Results:
* `Batch.toNat_templateSequence`: the sequence number is the delay, brought
  between one and what 32 bits hold.
* `Withdrawal.build_isOk`: the withdrawal of a batch can always be built.
* `Withdrawal.build_input`: its one input spends the given outpoint through
  the withdraw leaf.
-/

namespace VaultCovenant

theorem Batch.toNat_templateSequence (delay : Int64) :
    ((templateSequence delay).toNat : ℤ) = max 1 (min delay.toInt 0xffffffff) := by
  unfold templateSequence
  rw [UInt32.toNat_ofNat']
  omega

theorem Batch.templateSequence_ne_zero (delay : Int64) : templateSequence delay ≠ 0 := by
  intro hzero
  have hnat := toNat_templateSequence delay
  rw [hzero, UInt32.toNat_zero] at hnat
  omega

namespace Withdrawal

variable {members : List Vault} {targets : List TxOut} {revault : Option Sats}
  {shaping faults : FaultSet} {first : Vault} {total : Sats} {b : Batch} {o : Outpoint}
  {c : ControlBlock} {tx : Transaction}

theorem toNat_lowerSequence (n : UInt32) : (if n = 0 then 0 else n - 1).toNat = n.toNat - 1 := by
  split
  · rename_i h
    rw [h]
    rfl
  · rename_i h
    have hone : (1 : UInt32) ≤ n := by
      rw [UInt32.le_iff_toNat_le]
      exact Nat.pos_of_ne_zero fun hzero => h (UInt32.toNat_inj.mp hzero)
    exact UInt32.toNat_sub_of_le _ _ hone

/-- The one input of a withdrawal. -/
def input (o : Outpoint) (b : Batch) (c : ControlBlock) : TxIn :=
  ⟨o, Script.empty, Batch.templateSequence b.spendDelay, [b.withdrawScript.bytes, c.bytes]⟩

theorem complete_eq (h : Batch.Made members targets revault shaping first total b)
    (hc : b.tree.controlBlock withdrawLeaf = .ok c) :
    complete o b = .ok { b.template with inputs := [input o b c] } := by
  unfold complete
  rw [hc, h.template_eq]
  rfl

theorem templateHash_complete (h : Batch.Made members targets revault shaping first total b) :
    ({ b.template with inputs := [input o b c] } : Transaction).templateHash 0 =
      b.withdrawalHash := by
  rw [h.hash_eq, h.template_eq]
  rfl

theorem build_eq (h : Batch.Made members targets revault shaping first total b)
    (hc : b.tree.controlBlock withdrawLeaf = .ok c) :
    build o b faults = .ok (applyFaults faults { b.template with inputs := [input o b c] }) := by
  unfold build
  rw [complete_eq h hc]
  show (if _ then _ else _) = _
  rw [if_pos (templateHash_complete h)]
  rfl

theorem build_isOk (o : Outpoint) (faults : FaultSet)
    (h : Batch.Made members targets revault shaping first total b) :
    ∃ tx, build o b faults = .ok tx := by
  obtain ⟨c, hc⟩ := h.controlBlock_withdraw_isOk
  exact ⟨_, build_eq h hc⟩

/-- Faults change neither the outpoint nor the witness. -/
theorem build_input (h : Batch.Made members targets revault shaping first total b)
    (hbuild : build o b faults = .ok tx) :
    ∃ i c, tx.inputs = [i] ∧ i.previousOutput = o ∧
      b.tree.controlBlock withdrawLeaf = .ok c ∧
      i.witness = [b.withdrawScript.bytes, c.bytes] := by
  obtain ⟨c, hc⟩ := h.controlBlock_withdraw_isOk
  rw [build_eq h hc] at hbuild
  cases hbuild
  unfold applyFaults
  by_cases hf : faults.contains .withdrawalSequenceTooLow = true
  · exact ⟨_, c, if_pos hf, rfl, hc, rfl⟩
  · exact ⟨_, c, if_neg hf, rfl, hc, rfl⟩

end Withdrawal

end VaultCovenant
