import VaultCovenant.Proofs.Vault.Output
import VaultCovenant.Batch

/-!
# What a batch is made of

Every part of a batch that was built, and the leaves of its trigger output,
which can be opened like those of a vault.

Results:
* `Batch.build_eq_ok`: the parts of a batch that was built.
* `Batch.build_isOk`: without faults a batch can be built once its amounts are
  there.
* `Batch.Made.opens`: a leaf of the trigger output with its control block
  opens it.
-/

namespace VaultCovenant

namespace Batch

variable {members : List Vault} {targets : List TxOut} {revault : Option Sats}
  {faults : FaultSet} {b : Batch}

/-- The parts of a batch that was built from its members. -/
structure Made (members : List Vault) (targets : List TxOut) (revault : Option Sats)
    (faults : FaultSet) (first : Vault) (total : Sats) (b : Batch) : Prop where
  total_eq : Vault.total members = .ok total
  first_eq : members.head? = some first
  members_eq : b.members = members
  targets_eq : b.targets = targets
  delay_eq : delayUnder faults first.policy.spendDelay = .ok b.spendDelay
  template_eq : b.template = withdrawalTemplate b.spendDelay targets
  hash_eq : b.withdrawalHash = b.template.templateHash 0
  withdrawScript_eq : b.withdrawScript = withdrawScriptUnder faults b.spendDelay b.withdrawalHash
  tree_eq : b.tree = triggerTree first.policy (recoverScriptUnder faults first.policy)
    b.withdrawScript
  revault_eq : revaultOutputUnder faults first.policy revault = .ok b.revaultOutput
  trigger_eq : ∃ remaining, total.spend (revault.getD 0) = .ok remaining ∧
    perturbed (faults.contains .triggerAmountTooHigh) (faults.contains .triggerAmountTooLow)
      remaining = .ok b.triggerOutput.value
  output_eq : b.triggerOutput.scriptPubkey = b.tree.scriptPubkey

theorem build_eq_ok (h : build members targets revault faults = .ok b) :
    ∃ first total, Made members targets revault faults first total b := by
  cases members with
  | nil => cases h
  | cons first rest =>
    obtain ⟨total, htotal, h⟩ := bind_eq_ok_iff.mp h
    obtain ⟨delay, hdelay, h⟩ := bind_eq_ok_iff.mp h
    obtain ⟨revaultOutput, hrevault, h⟩ := bind_eq_ok_iff.mp h
    obtain ⟨remaining, hremaining, h⟩ := bind_eq_ok_iff.mp h
    obtain ⟨value, hvalue, h⟩ := bind_eq_ok_iff.mp h
    cases h
    exact ⟨first, total, htotal, rfl, rfl, rfl, lift_eq_ok_iff.mp hdelay, rfl, rfl, rfl, rfl,
      hrevault, ⟨remaining, lift_eq_ok_iff.mp hremaining, hvalue⟩, rfl⟩

/-- A batch can be built once its amounts are there and its faults leave them
and the delay within bounds. -/
theorem build_isOk_under (targets : List TxOut) (revault : Option Sats) (faults : FaultSet)
    {first : Vault} {rest : List Vault} {total remaining value : Sats} {delay : Int64}
    {out : Option TxOut}
    (htotal : Vault.total (first :: rest) = .ok total)
    (hdelay : delayUnder faults first.policy.spendDelay = .ok delay)
    (hrevault : revaultOutputUnder faults first.policy revault = .ok out)
    (hspend : total.spend (revault.getD 0) = .ok remaining)
    (hvalue : perturbed (faults.contains .triggerAmountTooHigh)
      (faults.contains .triggerAmountTooLow) remaining = .ok value) :
    ∃ b, build (first :: rest) targets revault faults = .ok b :=
  ⟨_, bind_eq_ok_iff.mpr ⟨total, htotal, bind_eq_ok_iff.mpr ⟨delay, lift_eq_ok_iff.mpr hdelay,
    bind_eq_ok_iff.mpr ⟨out, hrevault, bind_eq_ok_iff.mpr ⟨remaining, lift_eq_ok_iff.mpr hspend,
    bind_eq_ok_iff.mpr ⟨value, hvalue, rfl⟩⟩⟩⟩⟩⟩

/-- Without faults nothing fails once the amounts are there. -/
theorem build_isOk (targets : List TxOut) (revault : Option Sats) {first : Vault}
    {rest : List Vault} {total remaining : Sats}
    (htotal : Vault.total (first :: rest) = .ok total)
    (hspend : total.spend (revault.getD 0) = .ok remaining) :
    ∃ b, build (first :: rest) targets revault .none = .ok b := by
  have hrevault : ∃ out, revaultOutputUnder .none first.policy revault = .ok out := by
    cases revault <;> exact ⟨_, rfl⟩
  obtain ⟨out, hout⟩ := hrevault
  exact build_isOk_under targets revault .none htotal rfl hout hspend rfl

/-- Any policy can have a batch of one vault, of any amount that suffices for
what is to be returned. -/
theorem exists_build_singleton (p : Policy) (targets : List TxOut) {revault : Option Sats}
    {amount : Sats} (h : revault.getD 0 ≤ amount) :
    ∃ (v : Vault) (b : Batch), v.policy = p ∧ v.amount = some amount ∧
      build [v] targets revault .none = .ok b := by
  obtain ⟨v, f, -, hp, hf, -, hamount, -⟩ := Vault.exists_funded 1 p .null amount
  have htotal : Vault.total [v] = .ok amount := hamount ▸ Vault.total_singleton hf
  obtain ⟨b, hb⟩ := build_isOk targets revault htotal (if_pos h)
  exact ⟨v, b, hp, hamount ▸ (Vault.funding_eq_ok_iff.mp hf).2.2, hb⟩

/-- There is a batch for any delay. -/
theorem exists_build_delay (delay : Int64) (targets : List TxOut) :
    ∃ (v : Vault) (b : Batch), v.policy.spendDelay = delay ∧
      build [v] targets none .none = .ok b ∧ b.spendDelay = delay := by
  obtain ⟨p, hp⟩ : ∃ p, Policy.ofParams { spendDelay := delay } = .ok p := ⟨_, rfl⟩
  obtain ⟨v, b, hvp, -, hb⟩ := exists_build_singleton p targets
    (show (none : Option Sats).getD 0 ≤ 990000 by decide)
  have hdelay : v.policy.spendDelay = delay := by rw [hvp, (Policy.ofParams_eq_ok hp).1]
  obtain ⟨first, total, hmade⟩ := build_eq_ok hb
  obtain rfl : v = first := Option.some.inj hmade.first_eq
  exact ⟨v, b, hdelay, hb, (Except.ok.inj hmade.delay_eq).symm.trans hdelay⟩

theorem revaultOutputUnder_eq_ok {policy : Policy} {out : Option TxOut}
    (h : revaultOutputUnder faults policy revault = .ok out) :
    (revault = none ∧ out = none) ∨
    ∃ amount value, revault = some amount ∧ out = some ⟨value, policy.vaultSpk⟩ ∧
      perturbed (faults.contains .revaultAmountTooHigh) (faults.contains .revaultAmountTooLow)
        amount = .ok value := by
  cases revault with
  | none => cases h; exact Or.inl ⟨rfl, rfl⟩
  | some amount =>
    obtain ⟨value, hvalue, h⟩ := bind_eq_ok_iff.mp h
    cases h
    exact Or.inr ⟨amount, value, rfl, rfl, hvalue⟩

namespace Made

variable {first : Vault} {total : Sats} {c : ControlBlock}

theorem canonical (h : Made members targets revault faults first total b) :
    b.canonical = .ok first := by
  unfold Batch.canonical
  rw [h.members_eq]
  have := h.first_eq
  cases members with
  | nil => cases this
  | cons v rest => cases this; rfl

theorem scriptPubkey_revaultOutput (h : Made members targets revault faults first total b)
    {out : TxOut} (hout : b.revaultOutput = some out) :
    out.scriptPubkey = first.policy.vaultSpk := by
  rcases revaultOutputUnder_eq_ok h.revault_eq with ⟨-, hnone⟩ | ⟨_, value, -, hsome, -⟩
  · rw [hnone] at hout
    cases hout
  · rw [hsome] at hout
    cases hout
    rfl

theorem leafScript_recover (h : Made members targets revault faults first total b) :
    b.tree.leafScript recoverLeaf = .ok (recoverScriptUnder faults first.policy) := by
  rw [h.tree_eq]
  exact TaprootTree.leafScript_pair_left

theorem leafScript_withdraw (h : Made members targets revault faults first total b) :
    b.tree.leafScript withdrawLeaf = .ok b.withdrawScript := by
  rw [h.tree_eq]
  exact TaprootTree.leafScript_pair_right (by decide)

theorem length_branch (h : Made members targets revault faults first total b) {name : String}
    (hc : b.tree.controlBlock name = .ok c) : c.branch.length = 1 := by
  rw [h.tree_eq] at hc
  exact TaprootTree.length_branch_pair hc

theorem controlBlock_recover_isOk (h : Made members targets revault faults first total b) :
    ∃ c, b.tree.controlBlock recoverLeaf = .ok c := by
  have hs := h.leafScript_recover
  rw [h.tree_eq] at hs ⊢
  exact TaprootTree.controlBlock_pair_isOk hs (Or.inl rfl)

theorem controlBlock_withdraw_isOk (h : Made members targets revault faults first total b) :
    ∃ c, b.tree.controlBlock withdrawLeaf = .ok c := by
  have hs := h.leafScript_withdraw
  rw [h.tree_eq] at hs ⊢
  exact TaprootTree.controlBlock_pair_isOk hs (Or.inr rfl)

/-- A leaf of the trigger output with its control block opens it. -/
theorem opens (h : Made members targets revault faults first total b) {name : String}
    {script : Script} (hc : b.tree.controlBlock name = .ok c)
    (hs : b.tree.leafScript name = .ok script) (front : List Bytes) :
    OpensOutput (front ++ [script.bytes, c.bytes]) b.triggerOutput.scriptPubkey := by
  have hlen := h.length_branch hc
  rw [h.output_eq]
  exact TaprootTree.opens_of_controlBlock hc hs (by omega) front

end Made

end Batch

end VaultCovenant
