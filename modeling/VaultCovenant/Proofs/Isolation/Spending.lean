import VaultCovenant.Proofs.Faults.Trigger
import VaultCovenant.Proofs.Withdrawal.Commitment

/-!
# Faults of triggers and withdrawals stay apart

A trigger and a withdrawal under any set of faults against the same without.
What is signed and what is committed to are as they were, since a trigger takes
its faults only into the witnesses, and a withdrawal only after it was checked.

Results:
* `Trigger.Isolated`, `Withdrawal.Isolated`: every part of either transaction
  with the faults that change it.
* `Withdrawal.build_eq_map`: the faults of a withdrawal are applied to what is
  built without them.
* `spending_isolated`: either transaction can be built exactly when it can
  without faults, and is isolated from that.
-/

namespace VaultCovenant

/-! ## Triggers -/

namespace Trigger

/-- The input for a member under faults against the same without, where `spent`
are the outputs that are spent. Of the six items of the witness one fault
changes the second, which names the trigger output, and one the fourth, the
signature. -/
def SpendIsolated (faults : FaultSet) (spent : List TxOut) (clean tx : Transaction) (i : ℕ)
    (s : Spend) : Prop :=
  ∃ (bare : TxIn) (returned signature signature' control : Bytes),
    clean.inputs[i]? = some { bare with
      witness := [returned, ScriptNumber.encode s.position.trigger.toNat,
        s.batch.withdrawalHash.bytes, signature, s.vault.policy.triggerScript.bytes, control] } ∧
    tx.inputs[i]? = some { bare with
      witness := [returned, ScriptNumber.encode (s.position.trigger.toNat +
          if faults.contains .triggerVoutOffByOne then 1 else 0),
        s.batch.withdrawalHash.bytes, signature', s.vault.policy.triggerScript.bytes, control] } ∧
    signScriptPath clean i spent (leafHash s.vault.policy.triggerScript)
      s.vault.policy.triggerSecret = .ok signature ∧
    if faults.contains .triggerWrongKey then
      signScriptPath clean i spent (leafHash s.vault.policy.triggerScript) forgingSecret =
        .ok signature'
    else signature' = signature

/-- A trigger under faults against the same without. -/
structure Isolated (faults : FaultSet) (spent : List TxOut) (clean t : Trigger) : Prop where
  txid_eq : t.txid = clean.txid
  version_eq : t.tx.version = clean.tx.version
  lockTime_eq : t.tx.lockTime = clean.tx.lockTime
  bareInputs_eq : t.tx.bareInputs = clean.tx.bareInputs
  outputs_eq : t.tx.outputs = clean.tx.outputs
  batches_eq : t.batches = clean.batches
  positions_eq : t.positions = clean.positions
  feeChange_eq : t.feeChange = clean.feeChange
  spend : ∀ (i : ℕ) (s : Spend), (spends clean.batches clean.positions)[i]? = some s →
    SpendIsolated faults spent clean.tx t.tx i s
  /-- Behind the members' inputs nothing is changed, witnesses included. -/
  feeInput_eq : t.tx.inputs.drop (spends clean.batches clean.positions).length =
    clean.tx.inputs.drop (spends clean.batches clean.positions).length

variable {batches : List Batch} {fee : Option Coin} {faults faults' : FaultSet}
  {fundings : List Funding} {change : Option TxOut} {witnesses witnesses' : List (List Bytes)}
  {clean t : Trigger}

theorem witnessItems_none (s : Spend) (signature : Bytes) (control : ControlBlock) :
    witnessItems .none s signature control =
      [ScriptNumber.encode ((s.position.revault.map fun vout => (vout.toNat : Int)).getD noOutput),
        ScriptNumber.encode s.position.trigger.toNat, s.batch.withdrawalHash.bytes, signature,
        s.vault.policy.triggerScript.bytes, control.bytes] := by
  simp [witnessItems, FaultSet.none]

theorem Made.length_spends (h : Made batches fee faults fundings change witnesses t) :
    (spends t.batches t.positions).length = fundings.length := by
  rw [h.batches_eq, h.positions_eq, ← List.length_map Spend.vault, map_vault_spends]
  exact (Vault.fundings_eq_ok_iff.mp h.fundings_eq).length_eq

/-- Behind the members' inputs stands that of the coin that pays. -/
theorem Made.drop_inputs (h : Made batches fee faults fundings change witnesses t) :
    t.tx.inputs.drop fundings.length = (fee.map Coin.input).toList := by
  rw [h.inputs_eq, List.drop_left']
  rw [Transaction.length_attach, List.length_map]

theorem Made.spendIsolated (h : Made batches fee .none fundings change witnesses clean)
    (h' : Made batches fee faults fundings change witnesses' t) {i : ℕ} {s : Spend}
    (hs : (spends clean.batches clean.positions)[i]? = some s) :
    SpendIsolated faults (prevouts fundings fee) clean.tx t.tx i s := by
  rw [h.batches_eq, h.positions_eq] at hs
  obtain ⟨f, signature, control, -, hf, hsign, hcontrol, hinput⟩ := h.input_spend hs
  obtain ⟨f', signature', control', -, hf', hsign', hcontrol', hinput'⟩ := h'.input_spend hs
  obtain rfl : f = f' := Option.some.inj (hf.symm.trans hf')
  obtain rfl : control = control' := Except.ok.inj (hcontrol.symm.trans hcontrol')
  rw [witnessItems_none] at hinput
  refine ⟨TxIn.spending f.outpoint, _, signature, signature', control.bytes, hinput, hinput', ?_⟩
  -- both keys sign the one transaction that has no witnesses yet
  rw [h.tx_eq, Transaction.signScriptPath_withWitnesses, Transaction.signScriptPath_withWitnesses]
  refine ⟨hsign, ?_⟩
  unfold signer at hsign'
  split
  · rename_i hwrong
    rwa [if_pos hwrong] at hsign'
  · rename_i hown
    rw [if_neg hown] at hsign'
    exact Except.ok.inj (hsign'.symm.trans hsign)

theorem isolated (hclean : build batches fee .none = .ok clean)
    (h : build batches fee faults = .ok t) :
    ∃ fundings, Vault.fundings (batches.flatMap Batch.members) = .ok fundings ∧
      Isolated faults (prevouts fundings fee) clean t := by
  obtain ⟨fundings, change, witnesses, hmade⟩ := build_eq_ok hclean
  obtain ⟨fundings', change', witnesses', hmade'⟩ := build_eq_ok h
  obtain rfl : fundings = fundings' :=
    Except.ok.inj (hmade.fundings_eq.symm.trans hmade'.fundings_eq)
  obtain rfl : change = change' := Except.ok.inj (hmade.change_eq.symm.trans hmade'.change_eq)
  refine ⟨fundings, hmade.fundings_eq, ?_⟩
  exact {
    txid_eq := by
      rw [txid, txid, hmade.tx_eq, hmade'.tx_eq, Transaction.withWitnesses_txid,
        Transaction.withWitnesses_txid]
    version_eq := by
      rw [hmade.tx_eq, hmade'.tx_eq]
      rfl
    lockTime_eq := by
      rw [hmade.tx_eq, hmade'.tx_eq]
      rfl
    bareInputs_eq := by
      rw [hmade.tx_eq, hmade'.tx_eq, Transaction.bareInputs_withWitnesses,
        Transaction.bareInputs_withWitnesses]
    outputs_eq := hmade'.outputs_eq.trans hmade.outputs_eq.symm
    batches_eq := hmade'.batches_eq.trans hmade.batches_eq.symm
    positions_eq := hmade'.positions_eq.trans hmade.positions_eq.symm
    feeChange_eq := hmade'.feeChange_eq.trans hmade.feeChange_eq.symm
    spend := fun _ _ hs => hmade.spendIsolated hmade' hs
    feeInput_eq := by
      rw [hmade.length_spends, hmade.drop_inputs, hmade'.drop_inputs] }

/-- No fault decides whether a trigger can be built. -/
theorem build_isOk_iff (faults faults' : FaultSet) :
    (∃ t, build batches fee faults = .ok t) ↔ ∃ t, build batches fee faults' = .ok t := by
  have hstep : ∀ {faults} faults', (∃ t, build batches fee faults = .ok t) →
      ∃ t, build batches fee faults' = .ok t := by
    rintro _ faults' ⟨t, ht⟩
    obtain ⟨fundings, change, witnesses, hmade⟩ := build_eq_ok ht
    exact build_isOk faults' hmade.fundings_eq hmade.change_eq
  exact ⟨hstep faults', hstep faults⟩

end Trigger

/-! ## Withdrawals -/

namespace Withdrawal

/-- A withdrawal under faults against the same without. One fault lowers the
sequence number of the first input, one the value of the first output, and
neither below zero. -/
structure Isolated (faults : FaultSet) (clean tx : Transaction) : Prop where
  version_eq : tx.version = clean.version
  lockTime_eq : tx.lockTime = clean.lockTime
  length_inputs : tx.inputs.length = clean.inputs.length
  length_outputs : tx.outputs.length = clean.outputs.length
  input : ∀ (k : ℕ) (i : TxIn), clean.inputs[k]? = some i → ∃ sequence,
    tx.inputs[k]? = some { i with sequence } ∧ sequence.toNat =
      i.sequence.toNat - (faults.contains .withdrawalSequenceTooLow && k == 0).toNat
  output : ∀ (k : ℕ) (out : TxOut), clean.outputs[k]? = some out → ∃ value,
    tx.outputs[k]? = some { out with value } ∧ value.toNat =
      out.value.toNat - (faults.contains .withdrawalOutputChanged && k == 0).toNat

variable {faults faults' : FaultSet} {o : Outpoint} {b : Batch}

theorem length_modifyFirst {α : Type} (f : α → α) (as : List α) :
    (modifyFirst f as).length = as.length := by
  cases as <;> rfl

/-- A fault that makes the first of a list smaller leaves the others alone. -/
theorem getElem?_lowered {α : Type} (lower : α → α) (size : α → ℕ)
    (hlower : ∀ a, size (lower a) = size a - 1) (faulty : Bool) {as : List α} {k : ℕ} {a : α}
    (h : as[k]? = some a) :
    ∃ a', (if faulty then modifyFirst lower as else as)[k]? = some a' ∧
      (a' = a ∨ a' = lower a) ∧ size a' = size a - (faulty && k == 0).toNat := by
  cases faulty with
  | false => exact ⟨a, h, .inl rfl, rfl⟩
  | true =>
    cases as with
    | nil => cases h
    | cons first rest =>
      cases k with
      | zero =>
        cases h
        exact ⟨lower a, rfl, .inr rfl, hlower a⟩
      | succ k => exact ⟨a, h, .inl rfl, rfl⟩

/-- Faults are applied to the withdrawal that is built without them. -/
theorem build_eq_map (o : Outpoint) (b : Batch) (faults : FaultSet) :
    build o b faults = (build o b .none).map (applyFaults faults) := by
  unfold build
  cases complete o b with
  | error e => rfl
  | ok tx =>
    show (if _ then _ else _) = Except.map _ (if _ then _ else _)
    split <;> rfl

theorem isolated_applyFaults (faults : FaultSet) (clean : Transaction) :
    Isolated faults clean (applyFaults faults clean) where
  version_eq := rfl
  lockTime_eq := rfl
  length_inputs := by
    unfold applyFaults
    dsimp only
    split
    · exact length_modifyFirst _ _
    · rfl
  length_outputs := by
    unfold applyFaults
    dsimp only
    split
    · exact length_modifyFirst _ _
    · rfl
  input := by
    intro k i hi
    obtain ⟨_, hget, rfl | rfl, hsize⟩ := getElem?_lowered
      (fun i : TxIn => { i with sequence := if i.sequence = 0 then 0 else i.sequence - 1 })
      (fun i => i.sequence.toNat) (fun _ => toNat_lowerSequence _)
      (faults.contains .withdrawalSequenceTooLow) hi
    · exact ⟨_, hget, hsize⟩
    · exact ⟨_, hget, hsize⟩
  output := by
    intro k out hout
    obtain ⟨_, hget, rfl | rfl, hsize⟩ := getElem?_lowered
      (fun out : TxOut => { out with value := out.value.lowered }) (fun out => out.value.toNat)
      (fun _ => Sats.toNat_lowered _) (faults.contains .withdrawalOutputChanged) hout
    · exact ⟨_, hget, hsize⟩
    · exact ⟨_, hget, hsize⟩

theorem build_isOk_iff (o : Outpoint) (b : Batch) (faults : FaultSet) :
    (∃ tx, build o b faults = .ok tx) ↔ ∃ tx, build o b .none = .ok tx := by
  rw [build_eq_map]
  cases build o b .none <;> simp [Except.map]

theorem isolated {clean tx : Transaction} (hclean : build o b .none = .ok clean)
    (h : build o b faults = .ok tx) : Isolated faults clean tx := by
  rw [build_eq_map, hclean] at h
  cases h
  exact isolated_applyFaults faults clean

/-- Of the faults only two have an effect on a withdrawal. -/
theorem build_congr
    (hsequence : faults'.contains .withdrawalSequenceTooLow =
      faults.contains .withdrawalSequenceTooLow)
    (houtput : faults'.contains .withdrawalOutputChanged =
      faults.contains .withdrawalOutputChanged) :
    build o b faults' = build o b faults := by
  have hsame : applyFaults faults' = applyFaults faults := by
    funext tx
    unfold applyFaults
    rw [hsequence, houtput]
  rw [build_eq_map, hsame, ← build_eq_map]

end Withdrawal

/-! ## Both -/

/-- No fault decides whether a trigger or a withdrawal can be built. What is
built under faults is isolated from what is built without, and of the faults
only two have an effect on either. -/
theorem spending_isolated :
    (∀ (batches : List Batch) (fee : Option Coin) (faults : FaultSet),
      ((∃ t, Trigger.build batches fee faults = .ok t) ↔
        ∃ clean, Trigger.build batches fee .none = .ok clean) ∧
      (∀ clean t, Trigger.build batches fee .none = .ok clean →
        Trigger.build batches fee faults = .ok t →
        ∃ fundings, Vault.fundings (batches.flatMap Batch.members) = .ok fundings ∧
          Trigger.Isolated faults (Trigger.prevouts fundings fee) clean t) ∧
      ∀ faults' : FaultSet,
        faults'.contains .triggerVoutOffByOne = faults.contains .triggerVoutOffByOne →
        faults'.contains .triggerWrongKey = faults.contains .triggerWrongKey →
        Trigger.build batches fee faults' = Trigger.build batches fee faults) ∧
    ∀ (o : Outpoint) (b : Batch) (faults : FaultSet),
      ((∃ tx, Withdrawal.build o b faults = .ok tx) ↔
        ∃ clean, Withdrawal.build o b .none = .ok clean) ∧
      (∀ clean tx, Withdrawal.build o b .none = .ok clean → Withdrawal.build o b faults = .ok tx →
        Withdrawal.Isolated faults clean tx) ∧
      ∀ faults' : FaultSet,
        faults'.contains .withdrawalSequenceTooLow = faults.contains .withdrawalSequenceTooLow →
        faults'.contains .withdrawalOutputChanged = faults.contains .withdrawalOutputChanged →
        Withdrawal.build o b faults' = Withdrawal.build o b faults :=
  ⟨fun _ _ faults => ⟨Trigger.build_isOk_iff faults .none, fun _ _ => Trigger.isolated,
      fun _ => Trigger.build_congr⟩,
    fun o b faults => ⟨Withdrawal.build_isOk_iff o b faults, fun _ _ => Withdrawal.isolated,
      fun _ => Withdrawal.build_congr⟩⟩

/-- A vault triggered with a coin that pays, in one batch. Under both faults the
witness names the output behind the trigger output, and the transaction keeps
its id. The withdrawal under both faults pays one unit less. -/
theorem spending_isolated_twice :
    ∃ (b : Batch) (coin : Coin) (clean t : Trigger) (o : Outpoint) (cleanTx tx : Transaction),
      Trigger.build [b] (some coin) .none = .ok clean ∧
      Trigger.build [b] (some coin) (.ofList [.triggerVoutOffByOne, .triggerWrongKey]) = .ok t ∧
      t.txid = clean.txid ∧ clean.positions = [⟨1, none⟩] ∧
      (clean.tx.inputs.head?.bind (·.witness[1]?)) = some (ScriptNumber.encode 1) ∧
      (t.tx.inputs.head?.bind (·.witness[1]?)) = some (ScriptNumber.encode 2) ∧
      Withdrawal.build o b .none = .ok cleanTx ∧
      Withdrawal.build o b (.ofList [.withdrawalSequenceTooLow, .withdrawalOutputChanged]) =
        .ok tx ∧
      cleanTx.outputs = [⟨980000, Script.anyone⟩] ∧ tx.outputs = [⟨979999, Script.anyone⟩] := by
  obtain ⟨policy, -⟩ : ∃ p : Policy, p.scriptPathOnly = true :=
    ⟨⟨.nothingUpMySleeve, Trigger.forgingSecret, 10, .anyone, true⟩, rfl⟩
  obtain ⟨v, f, -, -, hf, -, hamount, -⟩ := Vault.exists_funded 7 policy .null 990000
  obtain ⟨coin, change, hchange⟩ : ∃ (coin : Coin) (change : TxOut),
      (some coin).mapM Coin.change = .ok (some change) :=
    ⟨⟨TxIn.spending .null, ⟨50000, Script.anyone⟩⟩, ⟨40000, Script.anyone⟩, by decide⟩
  obtain ⟨b, hb⟩ := Batch.build_isOk [⟨980000, Script.anyone⟩] none (Vault.total_singleton hf)
    (show _ = Except.ok 990000 by rw [hamount]; decide)
  obtain ⟨first, total, hbmade⟩ := Batch.build_eq_ok hb
  have hreturned : b.revaultOutput = none := (Except.ok.inj hbmade.revault_eq).symm
  have hmembers : b.members = [v] := hbmade.members_eq
  have hfundings : Vault.fundings ([b].flatMap Batch.members) = .ok [f] := by
    rw [List.flatMap_singleton, hmembers, Vault.fundings_eq_ok_iff]
    exact .cons hf .nil
  obtain ⟨htriggers, hwithdrawals⟩ := spending_isolated
  -- the trigger
  obtain ⟨clean, hclean⟩ := Trigger.build_isOk .none hfundings hchange
  obtain ⟨hbuilt, hisolated, -⟩ :=
    htriggers [b] (some coin) (.ofList [.triggerVoutOffByOne, .triggerWrongKey])
  obtain ⟨t, ht⟩ := hbuilt.mpr ⟨clean, hclean⟩
  obtain ⟨fundings, -, hisolated⟩ := hisolated clean t hclean ht
  obtain ⟨_, change', witnesses, hmade⟩ := Trigger.build_eq_ok hclean
  obtain rfl : some change = change' := Except.ok.inj (hchange.symm.trans hmade.change_eq)
  have hpositions : clean.positions = [⟨1, none⟩] := by
    rw [hmade.positions_eq, Trigger.positionsFrom, hreturned]
    rfl
  obtain ⟨_, _, _, _, _, hinput, hinput', -⟩ := hisolated.spend 0 ⟨v, b, ⟨1, none⟩⟩ (by
    rw [hpositions, hmade.batches_eq]
    simp [Trigger.spends, hmembers])
  rw [← List.head?_eq_getElem?] at hinput hinput'
  -- the withdrawal
  obtain ⟨hbuilt, hlowered, -⟩ :=
    hwithdrawals .null b (.ofList [.withdrawalSequenceTooLow, .withdrawalOutputChanged])
  obtain ⟨control, hcontrol⟩ := hbmade.controlBlock_withdraw_isOk
  have hcleanTx : Withdrawal.build .null b .none = .ok _ := Withdrawal.build_eq hbmade hcontrol
  obtain ⟨tx, htx⟩ := hbuilt.mpr ⟨_, hcleanTx⟩
  have hlowered := hlowered _ tx hcleanTx htx
  have houtputs : ({ b.template with inputs := [Withdrawal.input .null b control] } :
      Transaction).outputs = [⟨980000, Script.anyone⟩] := hbmade.outputs_template
  obtain ⟨value, hget, hvalue⟩ := hlowered.output 0 ⟨980000, Script.anyone⟩ (by
    rw [Withdrawal.applyFaults_none, houtputs]
    rfl)
  obtain ⟨out, hout⟩ := List.length_eq_one_iff.mp (hlowered.length_outputs.trans (by
    rw [Withdrawal.applyFaults_none, houtputs]
    rfl))
  rw [hout] at hget
  obtain rfl : out = ⟨value, Script.anyone⟩ := Option.some.inj hget
  obtain rfl : value = 979999 := UInt64.toNat_inj.mp hvalue
  exact ⟨b, coin, clean, t, .null, _, tx, hclean, ht, hisolated.txid_eq, hpositions,
    by rw [hinput]; rfl, by rw [hinput']; rfl, hcleanTx, htx, houtputs, hout⟩

end VaultCovenant
