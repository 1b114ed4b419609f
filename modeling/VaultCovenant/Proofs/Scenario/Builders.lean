import VaultCovenant.Proofs.Recovery.Triggered
import VaultCovenant.Proofs.Scenario.Evidence
import VaultCovenant.Proofs.Scenario.Targets
import VaultCovenant.Proofs.Withdrawal

/-!
# What scenarios build

The transactions of a scenario can all be built when the amounts of its vaults
are within bounds, whichever single fault is made on the way.

Results:
* `Vault.total_isOk`: vaults with bounded amounts have a sum with bounds.
* `Batch.build_isOk_of_bounds`, `triggerWithFault_isOk`: a batch can be built
  and triggered with any faults.
* `Trigger.revaulted_alone`: a batch that returns an amount funds one vault.
-/

namespace VaultCovenant

/-! ## Amounts -/

/-- The vault holds a coin worth an amount between two bounds. -/
def Vault.Holds (least most : ℕ) (v : Vault) : Prop :=
  ∃ f, v.funding = .ok f ∧ least ≤ f.amount.toNat ∧ f.amount.toNat ≤ most

theorem Vault.total_isOk {vs : List Vault} {least most : ℕ} (h : ∀ v ∈ vs, v.Holds least most)
    (hbound : vs.length * most < Sats.bound) :
    ∃ sum, total vs = .ok sum ∧ vs.length * least ≤ sum.toNat ∧
      sum.toNat ≤ vs.length * most := by
  obtain ⟨fs, hfs, hleast, hmost⟩ : ∃ fs, List.Forall₂ (fun v f => v.funding = .ok f) vs fs ∧
      vs.length * least ≤ worth fs ∧ worth fs ≤ vs.length * most := by
    clear hbound
    induction vs with
    | nil => exact ⟨[], .nil, by simp [worth], by simp [worth]⟩
    | cons v vs ih =>
      obtain ⟨f, hf, hleast, hmost⟩ := h v List.mem_cons_self
      obtain ⟨fs, hfs, hleast', hmost'⟩ := ih fun u hu => h u (List.mem_cons_of_mem _ hu)
      refine ⟨f :: fs, .cons hf hfs, ?_, ?_⟩
      · rw [List.length_cons, Nat.succ_mul, worth, List.map_cons, List.sum_cons]
        unfold worth at hleast'
        omega
      · rw [List.length_cons, Nat.succ_mul, worth, List.map_cons, List.sum_cons]
        unfold worth at hmost'
        omega
  have hsum : (UInt64.ofNat (worth fs)).toNat = worth fs := Sats.toNat_ofNat (by omega)
  refine ⟨UInt64.ofNat (worth fs), ?_, ?_, ?_⟩
  · exact total_eq_ok_iff.mpr ⟨fs, fundings_eq_ok_iff.mpr hfs, hsum⟩
  · rw [hsum]
    exact hleast
  · rw [hsum]
    exact hmost

/-! ## Batches -/

namespace Batch

theorem perturbed_isOk (tooHigh tooLow : Bool) {amount : Sats}
    (h : amount.toNat + 1 < Sats.bound) : ∃ value, perturbed tooHigh tooLow amount = .ok value := by
  cases tooHigh with
  | false => exact ⟨_, rfl⟩
  | true =>
    have hraised : amount.add 1 = .ok (amount + 1) := if_pos h
    exact ⟨_, bind_eq_ok_iff.mpr ⟨_, hraised, rfl⟩⟩

theorem delayUnder_isOk (faults : FaultSet) {delay : Int64} (h : delay ≠ Int64.maxValue) :
    ∃ delay', delayUnder faults delay = .ok delay' := by
  unfold delayUnder
  rw [if_neg h]
  split <;> exact ⟨_, rfl⟩

/-- Whatever the faults, a batch can be built if there is room for one more
unit of value and one more block of delay. -/
theorem build_isOk_of_bounds (targets : List TxOut) {revault : Option Sats} (faults : FaultSet)
    {first : Vault} {rest : List Vault} {total : Sats}
    (htotal : Vault.total (first :: rest) = .ok total)
    (hdelay : first.policy.spendDelay ≠ Int64.maxValue) (hrevault : revault.getD 0 ≤ total)
    (hbound : total.toNat + 1 < Sats.bound) :
    ∃ b, build (first :: rest) targets revault faults = .ok b := by
  obtain ⟨delay, hdelay⟩ := delayUnder_isOk faults hdelay
  have hspend : total.spend (revault.getD 0) = .ok (total - revault.getD 0) := if_pos hrevault
  have hremaining := Sats.spend_eq_ok_iff.mp hspend
  have hroom : (total - revault.getD 0).toNat + 1 < Sats.bound := by omega
  obtain ⟨value, hvalue⟩ := perturbed_isOk (faults.contains .triggerAmountTooHigh)
    (faults.contains .triggerAmountTooLow) hroom
  have hout : ∃ out, revaultOutputUnder faults first.policy revault = .ok out := by
    cases revault with
    | none => exact ⟨none, rfl⟩
    | some amount =>
      have hamount : amount ≤ total := hrevault
      rw [UInt64.le_iff_toNat_le] at hamount
      have hroom : amount.toNat + 1 < Sats.bound := by omega
      obtain ⟨value, hvalue⟩ := perturbed_isOk (faults.contains .revaultAmountTooHigh)
        (faults.contains .revaultAmountTooLow) hroom
      exact ⟨_, bind_eq_ok_iff.mpr ⟨value, hvalue, rfl⟩⟩
  obtain ⟨out, hout⟩ := hout
  exact build_isOk_under targets revault faults htotal hdelay hout hspend hvalue

end Batch

theorem triggerWithFault_isOk (targets : List TxOut) {revault : Option Sats} (fault : Fault)
    {first : Vault} {rest : List Vault} {total : Sats}
    (htotal : Vault.total (first :: rest) = .ok total)
    (hdelay : first.policy.spendDelay ≠ Int64.maxValue) (hrevault : revault.getD 0 ≤ total)
    (hbound : total.toNat + 1 < Sats.bound) :
    ∃ tx, triggerWithFault (first :: rest) targets revault fault = .ok tx := by
  obtain ⟨b, hb⟩ := Batch.build_isOk_of_bounds targets (.only fault) htotal hdelay hrevault hbound
  obtain ⟨t, ht⟩ := Trigger.build_alone_isOk (.only fault) hb
  exact ⟨t.tx, bind_eq_ok_iff.mpr ⟨b, hb, bind_eq_ok_iff.mpr ⟨t, lift_eq_ok_iff.mpr ht, rfl⟩⟩⟩

/-! ## Value that returns -/

/-- The trigger of one batch that returns an amount funds one vault with it. -/
theorem Trigger.revaulted_alone {members : List Vault} {targets : List TxOut} {amount : Sats}
    {b : Batch} {t : Trigger} (hb : Batch.build members targets (some amount) .none = .ok b)
    (ht : build [b] none .none = .ok t) (ids : ℕ → VaultId) :
    ∃ v f, t.revaulted ids = .ok [v] ∧ v.funding = .ok f ∧ f.amount = amount := by
  obtain ⟨first, total, hmade⟩ := Batch.build_eq_ok hb
  obtain ⟨fundings, change, witnesses, htmade⟩ := build_eq_ok ht
  have hout : b.revaultOutput = some ⟨amount, first.policy.vaultSpk⟩ :=
    (Except.ok.inj hmade.revault_eq).symm
  obtain ⟨o, hreturns⟩ : ∃ o, t.returns = [(b, o, ⟨amount, first.policy.vaultSpk⟩)] := by
    unfold returns revaultOutpoint
    rw [htmade.batches_eq, htmade.positions_eq]
    simp [positionsFrom, hout]
  refine ⟨first.returned (ids 0) o ⟨amount, first.policy.vaultSpk⟩, _, ?_, rfl, rfl⟩
  unfold revaulted
  rw [hreturns]
  exact mapM_eq_ok_iff.mpr (.cons (bind_eq_ok_iff.mpr ⟨first, hmade.canonical, rfl⟩) .nil)

end VaultCovenant
