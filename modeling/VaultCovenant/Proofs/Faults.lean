import VaultCovenant.Proofs.Faults.Recovery
import VaultCovenant.Proofs.Faults.Trigger
import VaultCovenant.Proofs.Withdrawal

/-!
# Faults take effect

A transaction that is built with one fault of the catalog differs from the one
that is built from the same input without faults, unless the fault would lower
an amount that is zero or an output that is not there, or hashes or signatures
coincide.

Results:
* `Withdrawal.fault_takes_effect`: the faults of a withdrawal.
* `faults_take_effect`: all faults of the catalog.
* `lowering_nothing`: faults that lower an amount leave zero alone.
-/

namespace VaultCovenant

/-! ## Withdrawals -/

namespace Withdrawal

variable {members : List Vault} {targets : List TxOut} {revault : Option Sats}
  {shaping : FaultSet} {b : Batch} {o : Outpoint} {tx tx' : Transaction} {fault : Fault}

/-- What a fault needs: a first output that is not zero where it is to be
lowered. -/
def Admits (targets : List TxOut) : Fault → Prop
  | .withdrawalOutputChanged => ∃ out, targets.head? = some out ∧ out.value ≠ 0
  | _ => True

/-- A withdrawal with one fault differs from the one without. -/
theorem fault_takes_effect (hstage : fault.stage = .withdrawal)
    (hbatch : Batch.build members targets revault shaping = .ok b)
    (h : build o b .none = .ok tx) (h' : build o b (.only fault) = .ok tx')
    (hadmits : Admits targets fault) : tx' ≠ tx := by
  obtain ⟨first, total, hmade⟩ := Batch.build_eq_ok hbatch
  obtain ⟨c, hc⟩ := hmade.controlBlock_withdraw_isOk
  rw [build_eq hmade hc] at h h'
  cases h
  cases h'
  intro hsame
  cases fault with
  | withdrawalSequenceTooLow =>
    have hinputs := congrArg Transaction.inputs hsame
    have hsequence : (if Batch.templateSequence b.spendDelay = 0 then 0
        else Batch.templateSequence b.spendDelay - 1) = Batch.templateSequence b.spendDelay :=
      congrArg TxIn.sequence (List.cons.inj hinputs).1
    rw [if_neg (Batch.templateSequence_ne_zero _)] at hsequence
    grind
  | withdrawalOutputChanged =>
    obtain ⟨out, hout, hne⟩ := hadmits
    have houtputs := congrArg Transaction.outputs hsame
    have htemplate : b.template.outputs = targets := by
      rw [hmade.template_eq]
      rfl
    change modifyFirst _ b.template.outputs = b.template.outputs at houtputs
    rw [htemplate] at houtputs
    cases targets with
    | nil => cases hout
    | cons first rest =>
      cases hout
      exact Sats.lowered_ne hne (congrArg TxOut.value (List.cons.inj houtputs).1)
  | _ => cases hstage

/-- Where there is no output, none is lowered. -/
theorem build_outputChanged_of_nil
    (hbatch : Batch.build members [] revault shaping = .ok b) (h : build o b .none = .ok tx) :
    build o b (.only .withdrawalOutputChanged) = .ok tx := by
  obtain ⟨first, total, hmade⟩ := Batch.build_eq_ok hbatch
  obtain ⟨c, hc⟩ := hmade.controlBlock_withdraw_isOk
  rw [← h, build_eq hmade hc, build_eq hmade hc, hmade.template_eq]
  rfl

end Withdrawal

/-! ## All faults -/

/-- A transaction with one fault can be built and differs from the one without.
For the trigger stage some batches of a trigger, or all, are built with the
fault; for the other stages the fault is made in a withdrawal of any batch and
in any recovery. Faults that lower an amount need one that is not zero, those
that change what returns to the vault need something that returns, and a forged
authorization needs one to forge. Where a leaf changes, the trees may be
confused or the true commitment be the bogus one; where a key is forged, the
signatures may coincide. -/
theorem faults_take_effect :
    (∀ (fault : Fault) (batches batches' : List Batch) (fee : Option Coin) (t : Trigger),
      fault.stage = .trigger →
      List.Forall₂ (fun b b' => b' = b ∨ b.Shaped fault b') batches batches' →
      Trigger.build batches fee .none = .ok t →
      ∃ t' fundings, Trigger.build batches' fee (.only fault) = .ok t' ∧
        Vault.fundings (batches.flatMap Batch.members) = .ok fundings ∧
        ∀ (k : ℕ) (b b' : Batch), batches[k]? = some b → batches'[k]? = some b' →
          b.Shaped fault b' → b.Admits fault →
          t'.tx ≠ t.tx ∨ t.Coincidence (Trigger.prevouts fundings fee) b b' fault) ∧
    (∀ (fault : Fault) (members : List Vault) (targets : List TxOut) (revault : Option Sats)
      (shaping : FaultSet) (b : Batch) (o : Outpoint), fault.stage = .withdrawal →
      Batch.build members targets revault shaping = .ok b → Withdrawal.Admits targets fault →
      ∃ tx tx', Withdrawal.build o b .none = .ok tx ∧
        Withdrawal.build o b (.only fault) = .ok tx' ∧ tx' ≠ tx) ∧
    ∀ (fault : Fault) (r : RecoveryRequest) (t : Recovery), fault.stage = .recovery →
      Recovery.build { r with faults := .none } = .ok t →
      ∃ t' sources, Recovery.build { r with faults := .only fault } = .ok t' ∧
        Recovery.distinctSources r = .ok sources ∧
        (Recovery.Admits r t sources fault →
          t'.tx ≠ t.tx ∨ t.Coincidence (Recovery.prevouts r sources) sources fault) := by
  refine ⟨?_, ?_, ?_⟩
  · intro fault batches batches' fee t hstage hshaped h
    obtain ⟨fundings, change, witnesses, hmade⟩ := Trigger.build_eq_ok h
    obtain ⟨t', h'⟩ := Trigger.build_shaped_isOk (.only fault) hshaped h
    exact ⟨t', fundings, h', hmade.fundings_eq, fun k b b' hb hb' hbatch hadmits =>
      Trigger.fault_takes_effect hstage hshaped h h' hmade.fundings_eq hb hb' hbatch hadmits⟩
  · intro fault members targets revault shaping b o hstage hbatch hadmits
    obtain ⟨first, total, hmade⟩ := Batch.build_eq_ok hbatch
    obtain ⟨tx, h⟩ := Withdrawal.build_isOk o .none hmade
    obtain ⟨tx', h'⟩ := Withdrawal.build_isOk o (.only fault) hmade
    exact ⟨tx, tx', h, h', Withdrawal.fault_takes_effect hstage hbatch h h' hadmits⟩
  · intro fault r t hstage h
    obtain ⟨sources, _, _, _, _, hmade⟩ := Recovery.build_eq_ok h
    obtain ⟨t', h'⟩ := Recovery.build_faults_isOk (.only fault) h
    exact ⟨t', sources, h', hmade.sources_eq, Recovery.fault_takes_effect hstage h h'
      hmade.sources_eq⟩

/-- A vault of which a part is triggered. The trigger is another when the amount
returned is lowered, the withdrawal when its output is lowered, and a recovery
from the trigger output when it has an extra output. -/
theorem faults_take_effect_on_part :
    ∃ (p : Policy) (v : Vault) (b b' : Batch) (t t' : Trigger) (o : Outpoint)
      (tx tx' : Transaction) (recovery recovery' : Recovery),
      Policy.ofParams {} = .ok p ∧ v.policy = p ∧
      Batch.build [v] [⟨700000, Script.anyone⟩] (some 200000) .none = .ok b ∧
      Batch.build [v] [⟨700000, Script.anyone⟩] (some 200000) (.only .revaultAmountTooLow) =
        .ok b' ∧
      Trigger.build [b] none .none = .ok t ∧
      Trigger.build [b'] none (.only .revaultAmountTooLow) = .ok t' ∧ t'.tx ≠ t.tx ∧
      Withdrawal.build o b .none = .ok tx ∧
      Withdrawal.build o b (.only .withdrawalOutputChanged) = .ok tx' ∧ tx' ≠ tx ∧
      Recovery.build ⟨[(v, o)], some t, none, false, .none⟩ = .ok recovery ∧
      Recovery.build ⟨[(v, o)], some t, none, false, .only .recoveryExtraOutput⟩ = .ok recovery' ∧
      recovery'.tx ≠ recovery.tx := by
  obtain ⟨-, p, v, f, b, t, o, -, hp, hvp, -, -, -, hb, ht, -, -, hrecovers⟩ :=
    Session.exists_triggered {} (by decide) (by decide)
  obtain ⟨first, total, hmade⟩ := Batch.build_eq_ok hb
  obtain ⟨remaining, hremaining, hvalue⟩ := hmade.trigger_eq
  obtain rfl : v = first := Option.some.inj hmade.first_eq
  have hlowered : Batch.revaultOutputUnder (.only .revaultAmountTooLow) v.policy (some 200000) =
      .ok (some ⟨199999, v.policy.vaultSpk⟩) := rfl
  obtain ⟨b', hb'⟩ := Batch.build_isOk_under [⟨700000, Script.anyone⟩] (some 200000)
    (.only .revaultAmountTooLow) hmade.total_eq hmade.delay_eq hlowered hremaining hvalue
  have hrevault : b.revaultOutput = some ⟨200000, v.policy.vaultSpk⟩ :=
    (Except.ok.inj hmade.revault_eq).symm
  obtain ⟨recovery, hrecovery⟩ := hrecovers none none false .none
    (optionMapM_none_eq_ok_iff.mpr rfl)
  obtain ⟨htriggers, hwithdrawals, hrecoveries⟩ := faults_take_effect
  have hshaped : b.Shaped .revaultAmountTooLow b' := ⟨⟨[v], _, _, .none⟩, hb, hb'⟩
  obtain ⟨t', fundings, ht', -, htrigger⟩ := htriggers .revaultAmountTooLow [b] [b'] none t rfl
    (.cons (.inr hshaped) .nil) ht
  obtain ⟨tx, tx', htx, htx', hwithdrawal⟩ := hwithdrawals .withdrawalOutputChanged [v]
    [⟨700000, Script.anyone⟩] (some 200000) .none b o rfl hb ⟨_, rfl, by decide⟩
  obtain ⟨recovery', sources, hrecovery', -, hrecover⟩ := hrecoveries .recoveryExtraOutput
    { sources := [(v, o)], trigger := some t } recovery rfl hrecovery
  have hamount : (200000 : Sats) ≠ 0 := by decide
  have htrigger := (htrigger 0 b b' rfl rfl hshaped ⟨_, hrevault, hamount⟩).resolve_right id
  have hrecover := (hrecover trivial).resolve_right id
  exact ⟨p, v, b, b', t, t', o, tx, tx', recovery, recovery', hp, hvp, hb, hb', ht, ht', htrigger,
    htx, htx', hwithdrawal, hrecovery, hrecovery', hrecover⟩

/-- Where nothing is left for the trigger output it cannot be lowered, and where
a withdrawal has no outputs none is changed: with these faults trigger and
withdrawal are what they are without. -/
theorem lowering_nothing :
    ∃ (p : Policy) (v : Vault) (b : Batch) (t : Trigger) (tx : Transaction),
      Policy.ofParams {} = .ok p ∧
      v = (Vault.empty 1 p).withFunding ⟨.null, ⟨990000, p.vaultSpk⟩, 990000⟩ ∧
      Batch.build [v] [] (some 990000) .none = .ok b ∧
      Batch.build [v] [] (some 990000) (.only .triggerAmountTooLow) = .ok b ∧
      Trigger.build [b] none .none = .ok t ∧
      Trigger.build [b] none (.only .triggerAmountTooLow) = .ok t ∧
      Withdrawal.build .null b .none = .ok tx ∧
      Withdrawal.build .null b (.only .withdrawalOutputChanged) = .ok tx := by
  obtain ⟨p, hp⟩ := Policy.ofParams_isOk (show ({} : VaultParams).recoverySecret ≠ 0 by decide)
    (by decide)
  obtain ⟨v, f, hv, hf, hamount⟩ : ∃ (v : Vault) (f : Funding),
      v = (Vault.empty 1 p).withFunding ⟨.null, ⟨990000, p.vaultSpk⟩, 990000⟩ ∧
      v.funding = .ok f ∧ f.amount = 990000 := ⟨_, _, rfl, rfl, rfl⟩
  have htotal : Vault.total [v] = .ok 990000 := hamount ▸ Vault.total_singleton hf
  have hspend : (990000 : Sats).spend ((some 990000 : Option Sats).getD 0) = .ok 0 := by decide
  obtain ⟨b, hb⟩ := Batch.build_isOk [] (some 990000) htotal hspend
  have hdelay : Batch.delayUnder (.only .triggerAmountTooLow) v.policy.spendDelay =
      .ok v.policy.spendDelay := rfl
  have hrevault : Batch.revaultOutputUnder (.only .triggerAmountTooLow) v.policy (some 990000) =
      .ok (some ⟨990000, v.policy.vaultSpk⟩) := rfl
  have hlowered : Batch.perturbed false true 0 = .ok 0 := by decide
  obtain ⟨b', hb'⟩ := Batch.build_isOk_under [] (some 990000) (.only .triggerAmountTooLow) htotal
    hdelay hrevault hspend hlowered
  obtain ⟨first, total, hmade⟩ := Batch.build_eq_ok hb
  have hshaped : b.Shaped .triggerAmountTooLow b' := ⟨⟨[v], [], some 990000, .none⟩, hb, hb'⟩
  have hzero : b.triggerOutput.value = 0 := by
    obtain ⟨remaining, hremaining, hvalue⟩ := hmade.trigger_eq
    cases htotal.symm.trans hmade.total_eq
    cases hspend.symm.trans hremaining
    exact (Except.ok.inj hvalue).symm
  obtain rfl := hshaped.eq_of_zero hzero
  have hfundings : Vault.fundings ([b'].flatMap Batch.members) = .ok [f] := by
    rw [List.flatMap_singleton, hmade.members_eq]
    exact Vault.fundings_eq_ok_iff.mpr (.cons hf .nil)
  obtain ⟨t, ht⟩ := Trigger.build_isOk .none hfundings (optionMapM_none_eq_ok_iff.mpr rfl)
  obtain ⟨tx, htx⟩ := Withdrawal.build_isOk .null .none hmade
  have ht' : Trigger.build [b'] none (.only .triggerAmountTooLow) = .ok t := by
    rw [← ht]
    exact Trigger.build_congr rfl rfl
  exact ⟨p, v, b', t, tx, hp, hv, hb, hb', ht, ht', htx,
    Withdrawal.build_outputChanged_of_nil hb htx⟩

end VaultCovenant
