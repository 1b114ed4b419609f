import VaultCovenant.CommandLine.Outcome
import VaultCovenant.Proofs.Amount.Shares
import VaultCovenant.Proofs.Recovery.Sweep
import VaultCovenant.Proofs.Recovery.Triggered
import VaultCovenant.Proofs.Withdrawal

/-!
# Plans are chains

A plan is made of transactions that were never sent. Each of them spends an
output of one before it, and what was locked goes on whole: into the trigger
output, into the shares of the withdrawal, and into either recovery.

Results:
* `Recovery.build_moves`: the recovery of one coin moves all of it.
* `Plan.build_chained`: a coin that is worth the fee can be planned for, and
  the plan is a chain.
* `Plan.build_overflow`: there is no plan with more outputs than the template
  hash can be taken of.
-/

namespace VaultCovenant

/-! ## One coin recovered -/

/-- The transaction spends one outpoint, and into these outputs. -/
def Transaction.Moves (tx : Transaction) (spent : Outpoint) (outputs : List TxOut) : Prop :=
  tx.inputs.map (·.previousOutput) = [spent] ∧ tx.outputs = outputs

/-- Without faults and without a coin that pays, the recovery of one coin moves all of it. -/
theorem Recovery.build_moves {r : RecoveryRequest} {v : Vault} {o : Outpoint} {s : Source}
    (hsources : r.sources = [(v, o)]) (hfee : r.fee = none) (hanchor : r.anchor = false)
    (hfaults : r.faults = .none) (hsource : source r.trigger v o = .ok s) :
    ∃ t, build r = .ok t ∧ t.tx.Moves o [⟨s.spent.value, s.recoverySpk⟩] := by
  have hnone : r.fee.mapM Coin.change = .ok none := by
    rw [hfee]
    rfl
  obtain ⟨t, ht⟩ := build_singleton_isOk hsources hsource hnone
  obtain ⟨sources, swept, positions, change, witnesses, hmade⟩ := build_eq_ok ht
  have hsingle : sources = [s] :=
    Except.ok.inj (hmade.sources_eq.symm.trans (distinctSources_singleton hsources hsource))
  have hchange : change = none := Except.ok.inj (hmade.change_eq.symm.trans hnone)
  have hswept := hmade.swept_eq
  rw [hsingle] at hswept
  obtain ⟨rfl, rfl⟩ := Prod.mk.inj (Except.ok.inj hswept)
  refine ⟨t, ht, ?_, ?_⟩
  · rw [hmade.previousOutputs, hsingle, hfee]
    exact congrArg (fun o => [o]) (source_eq_ok hsource).1
  · rw [hmade.outputs_eq, hchange, hfaults, hanchor]
    rfl

/-! ## From choices to a plan -/

theorem CommandLine.VaultChoices.build_isOk {choices : VaultChoices} (id : VaultId)
    (hrecovery : choices.recoverySecret ≠ 0) (htrigger : choices.triggerSecret ≠ 0) :
    ∃ v, choices.build id = .ok v := by
  obtain ⟨recoverySecret, triggerSecret, delay, choice, scriptPathOnly⟩ := choices
  have hvault (authorization : Authorization) : ∃ v, Vault.ofParams id
      ⟨recoverySecret, triggerSecret, delay, authorization, scriptPathOnly⟩ = .ok v :=
    Vault.ofParams_isOk id hrecovery htrigger
  cases choice with
  | none => exact hvault .anyone
  | key =>
    obtain ⟨secret, hsecret⟩ := SecretKey.ofScalar_isOk hrecovery
    obtain ⟨v, hv⟩ := hvault (.keySignature secret)
    refine ⟨v, bind_eq_ok_iff.mpr ⟨_, bind_eq_ok_iff.mpr ⟨secret, hsecret, rfl⟩, hv⟩⟩

namespace Plan

/-- Every transaction of a plan spends an output that was made before it, and
`locked` goes on from each to the next. -/
structure Chained (p : Plan) (coin : Outpoint) (locked : Sats) (parts : UInt64) : Prop where
  lock : p.lock.Moves coin [⟨locked, p.vault.policy.vaultSpk⟩]
  trigger : p.trigger.Moves ⟨p.lock.txid, 0⟩ [⟨locked, p.batch.tree.scriptPubkey⟩]
  triggerOutpoint : p.triggerOutpoint = ⟨p.trigger.txid, 0⟩
  withdrawal : ∃ amounts : List Sats, amounts.length = parts.toNat ∧
    (amounts.map UInt64.toNat).sum = locked.toNat ∧
    p.withdrawal.Moves ⟨p.trigger.txid, 0⟩
      (amounts.map fun amount => ⟨amount, p.vault.policy.recoverySpk⟩)
  vaultRecovery : p.vaultRecovery.Moves ⟨p.lock.txid, 0⟩
    [⟨locked, p.vault.policy.recoverySpk⟩]
  triggerRecovery : p.triggerRecovery.Moves ⟨p.trigger.txid, 0⟩
    [⟨locked, p.vault.policy.recoverySpk⟩]

section Parts

variable {v : Vault} {f : Funding} {b : Batch} {t : Trigger} {outputs : List TxOut}

/-- The trigger of a vault alone in a batch, before it is signed. -/
theorem trigger_signed (hf : v.funding = .ok f)
    (hb : Batch.build [v] outputs none .none = .ok b) (ht : Trigger.build [b] none .none = .ok t) :
    ∃ witnesses, t.tx = (Transaction.plain [TxIn.spending f.outpoint]
      [⟨f.amount, b.tree.scriptPubkey⟩]).withWitnesses witnesses := by
  obtain ⟨first, total, hmade⟩ := Batch.build_eq_ok hb
  obtain ⟨fundings, change, witnesses, htmade⟩ := Trigger.build_eq_ok ht
  have hchange : change = none := (Except.ok.inj htmade.change_eq).symm
  have hfundings : fundings = [f] := by
    have hall := Vault.fundings_eq_ok_iff.mp htmade.fundings_eq
    rw [List.flatMap_singleton, hmade.members_eq] at hall
    obtain ⟨g, gs, hg, hgs, rfl⟩ := List.forall₂_cons_left_iff.mp hall
    rw [List.forall₂_nil_left_iff.mp hgs, Except.ok.inj (hg.symm.trans hf)]
  have hrevault : b.revaultOutput = none := (Except.ok.inj hmade.revault_eq).symm
  have houtput : b.triggerOutput = ⟨f.amount, b.tree.scriptPubkey⟩ := by
    obtain ⟨remaining, hremaining, hvalue⟩ := hmade.trigger_eq
    have htotal : total = f.amount :=
      Except.ok.inj (hmade.total_eq.symm.trans (Vault.total_singleton hf))
    have hall : remaining = total := by
      have hspend := Sats.spend_eq_ok_iff.mp hremaining
      exact UInt64.toNat_inj.mp (by simpa using hspend.symm)
    have hvalue : remaining = b.triggerOutput.value := Except.ok.inj hvalue
    rw [← hmade.output_eq, ← htotal, ← hall, hvalue]
  refine ⟨witnesses, ?_⟩
  rw [htmade.tx_eq, hfundings, hchange, ← houtput]
  simp [Trigger.unsigned, Trigger.outputs, Batch.outputs, hrevault]

/-- A vault alone in a batch alone in a trigger. -/
theorem trigger_moves (hf : v.funding = .ok f)
    (hb : Batch.build [v] outputs none .none = .ok b) (ht : Trigger.build [b] none .none = .ok t) :
    t.tx.Moves f.outpoint [⟨f.amount, b.tree.scriptPubkey⟩] ∧
      t.outpoint 0 = .ok ⟨t.tx.txid, 0⟩ := by
  obtain ⟨witnesses, hsigned⟩ := trigger_signed hf hb ht
  obtain ⟨_, change, _, htmade⟩ := Trigger.build_eq_ok ht
  have hchange : change = none := (Except.ok.inj htmade.change_eq).symm
  refine ⟨⟨?_, ?_⟩, ?_⟩
  · rw [hsigned, Transaction.map_previousOutput_withWitnesses]
    rfl
  · rw [hsigned]
    rfl
  · unfold Trigger.outpoint
    rw [htmade.positions_eq, hchange]
    rfl

theorem withdrawal_moves (hb : Batch.build [v] outputs none .none = .ok b) (o : Outpoint) :
    ∃ tx, Withdrawal.build o b .none = .ok tx ∧ tx.Moves o outputs := by
  obtain ⟨first, total, hmade⟩ := Batch.build_eq_ok hb
  obtain ⟨c, hc⟩ := hmade.controlBlock_withdraw_isOk
  refine ⟨_, Withdrawal.build_eq hmade hc, rfl, ?_⟩
  show b.template.outputs = _
  rw [hmade.template_eq]
  rfl

/-- The vault can be recovered alone before its trigger. -/
theorem vaultRecovery_moves (hf : v.funding = .ok f) :
    ∃ r, Recovery.build ⟨[(v, f.outpoint)], none, none, false, .none⟩ = .ok r ∧
      r.tx.Moves f.outpoint [⟨f.output.value, v.policy.recoverySpk⟩] := by
  obtain ⟨c, -, hsource⟩ := Recovery.source_own none hf
  exact Recovery.build_moves (r := ⟨[(v, f.outpoint)], none, none, false, .none⟩) rfl rfl rfl rfl
    hsource

/-- At the trigger output a vault is swept with all that it held, to its own
recovery output. -/
theorem source_triggered (hf : v.funding = .ok f) (hvalue : f.output.value = f.amount)
    (hb : Batch.build [v] outputs none .none = .ok b) (ht : Trigger.build [b] none .none = .ok t) :
    ∃ s, Recovery.source (some t) v ⟨t.tx.txid, 0⟩ = .ok s ∧ s.spent.value = f.amount ∧
      s.recoverySpk = v.policy.recoverySpk := by
  obtain ⟨⟨-, hout⟩, hpoint⟩ := trigger_moves hf hb ht
  obtain ⟨first, total, hmade⟩ := Batch.build_eq_ok hb
  obtain ⟨_, _, _, htmade⟩ := Trigger.build_eq_ok ht
  have hids : ([b].flatMap Batch.memberIds).Nodup := by
    rw [List.flatMap_singleton, Batch.memberIds, hmade.members_eq]
    exact List.nodup_singleton _
  obtain ⟨s, hs⟩ := Recovery.source_triggered_isOk hb ht hids (k := 0) rfl hpoint
    (List.mem_singleton_self v)
  refine ⟨s, hs, ?_⟩
  rcases Recovery.resolves_of_source hs with ⟨-, hspent, hspk⟩ |
    ⟨-, t', i, b', first', ht', hof, -, hhead, hspent, hspk⟩
  · have hown := (Vault.funding_eq_ok_iff.mp hf).2.1
    rw [hown] at hspent
    exact ⟨Option.some.inj hspent ▸ hvalue, hspk⟩
  · obtain rfl := Option.some.inj ht'
    have hbatch := (Trigger.batchOf_eq_some hof).1
    rw [htmade.batches_eq] at hbatch
    obtain rfl : b = b' := List.mem_singleton.mp (List.mem_of_getElem? hbatch) |>.symm
    rw [hmade.members_eq] at hhead
    rw [hout] at hspent
    cases hhead
    have hspent : (⟨f.amount, b.tree.scriptPubkey⟩ : TxOut) = s.spent := Option.some.inj hspent
    exact ⟨hspent ▸ rfl, hspk⟩

/-- The vault can be recovered alone after its trigger. -/
theorem triggerRecovery_moves (hf : v.funding = .ok f) (hvalue : f.output.value = f.amount)
    (hb : Batch.build [v] outputs none .none = .ok b) (ht : Trigger.build [b] none .none = .ok t) :
    ∃ r, Recovery.build ⟨[(v, ⟨t.tx.txid, 0⟩)], some t, none, false, .none⟩ = .ok r ∧
      r.tx.Moves ⟨t.tx.txid, 0⟩ [⟨f.amount, v.policy.recoverySpk⟩] := by
  obtain ⟨s, hs, hspent, hspk⟩ := source_triggered hf hvalue hb ht
  obtain ⟨r, hr, hmoves⟩ := Recovery.build_moves
    (r := ⟨[(v, ⟨t.tx.txid, 0⟩)], some t, none, false, .none⟩) rfl rfl rfl rfl hs
  rw [hspent, hspk] at hmoves
  exact ⟨r, hr, hmoves⟩

end Parts

/-- The outputs are the shares unless the list of either has no room. -/
theorem targets_eq (v : Vault) (amount : Sats) (parts : UInt64) :
    targets v amount parts =
      if parts.toNat ≤ Room.most TxOut.size then .ok ((amount.shares parts 0).map (target v))
      else .error .overflow := by
  by_cases hroom : parts.toNat ≤ Room.most TxOut.size
  · have hamounts : parts.toNat ≤ Room.most Sats.size := Nat.le_trans hroom (by decide)
    have hcheck : Room.check (Room.most TxOut.size) (amount.shares parts 0).length = .ok () :=
      Room.check_eq_ok_iff.mpr (Sats.length_shares .. ▸ hroom)
    rw [if_pos hroom]
    exact bind_eq_ok_iff.mpr ⟨_, Sats.split_eq_ok_iff.mpr ⟨hamounts, rfl⟩,
      bind_eq_ok_iff.mpr ⟨(), hcheck, rfl⟩⟩
  · rw [if_neg hroom]
    by_cases hamounts : parts.toNat ≤ Room.most Sats.size
    · have hcheck : Room.check (Room.most TxOut.size) (amount.shares parts 0).length =
          .error .overflow :=
        Room.check_eq_overflow_iff.mpr (Sats.length_shares .. ▸ Nat.not_le.mp hroom)
      exact bind_eq_error_iff.mpr (Or.inr ⟨_, Sats.split_eq_ok_iff.mpr ⟨hamounts, rfl⟩,
        bind_eq_error_iff.mpr (Or.inl hcheck)⟩)
    · exact bind_eq_error_iff.mpr
        (Or.inl (Sats.split_eq_overflow_iff.mpr (Nat.not_le.mp hamounts)))

theorem build_chained (empty : Vault) (coin : Outpoint) {value : Sats} {parts : UInt64}
    (hvalue : Vault.lockFee ≤ value) (hparts : parts ≠ 0)
    (hbound : parts.toNat ≤ Room.mostGrown targetLength) :
    ∃ p locked, build empty coin value parts = .ok p ∧ p.vault.policy = empty.policy ∧
      value.toNat = Vault.lockFee.toNat + locked.toNat ∧ p.Chained coin locked parts := by
  obtain ⟨locked, hlocked, hlock⟩ :=
    empty.lock_isOk (show Vault.lockFee ≤ (Plan.coin coin value).spent.value from hvalue)
  let lock := empty.lockTransaction (Plan.coin coin value) locked
  let f : Funding := ⟨⟨lock.txid, 0⟩, ⟨locked, empty.policy.vaultSpk⟩, locked⟩
  let v := empty.withFunding f
  have hf : v.funding = .ok f := Vault.funding_withFunding _ _
  let amounts := locked.shares parts 0
  let outputs := amounts.map (target v)
  have houtputs : targets v f.amount parts = .ok outputs := by
    rw [targets_eq, if_pos (Nat.le_trans hbound (by decide))]
  have hcommitted : Room.check (Room.mostGrown targetLength) outputs.length = .ok () := by
    rw [Room.check_eq_ok_iff, List.length_map, Sats.length_shares]
    exact hbound
  obtain ⟨b, hb⟩ := Batch.build_isOk outputs none (Vault.total_singleton hf) (if_pos UInt64.zero_le)
  obtain ⟨t, ht⟩ := Trigger.build_alone_isOk .none hb
  obtain ⟨htrigger, hpoint⟩ := trigger_moves hf hb ht
  obtain ⟨withdrawal, hwithdrawal, hwithdrawalMoves⟩ := withdrawal_moves hb ⟨t.tx.txid, 0⟩
  obtain ⟨fromVault, hfromVault, hvaultMoves⟩ := vaultRecovery_moves hf
  obtain ⟨fromTrigger, hfromTrigger, htriggerMoves⟩ := triggerRecovery_moves hf rfl hb ht
  refine ⟨⟨v, b, ⟨t.tx.txid, 0⟩, lock, t.tx, withdrawal, fromVault.tx, fromTrigger.tx⟩, locked, ?_,
    rfl, hlocked, ?_⟩
  · refine bind_eq_ok_iff.mpr ⟨(lock, v), lift_eq_ok_iff.mpr hlock, ?_⟩
    refine bind_eq_ok_iff.mpr ⟨f, lift_eq_ok_iff.mpr hf, ?_⟩
    refine bind_eq_ok_iff.mpr ⟨outputs, houtputs, ?_⟩
    refine bind_eq_ok_iff.mpr ⟨(), hcommitted, ?_⟩
    refine bind_eq_ok_iff.mpr ⟨b, hb, ?_⟩
    refine bind_eq_ok_iff.mpr ⟨t, lift_eq_ok_iff.mpr ht, ?_⟩
    refine bind_eq_ok_iff.mpr ⟨_, lift_eq_ok_iff.mpr hpoint, ?_⟩
    refine bind_eq_ok_iff.mpr ⟨withdrawal, lift_eq_ok_iff.mpr hwithdrawal, ?_⟩
    refine bind_eq_ok_iff.mpr ⟨⟨[(v, f.outpoint)], none, none, false, .none⟩, rfl, ?_⟩
    refine bind_eq_ok_iff.mpr ⟨fromVault, hfromVault, ?_⟩
    exact bind_eq_ok_iff.mpr ⟨fromTrigger, hfromTrigger, rfl⟩
  · refine ⟨⟨rfl, rfl⟩, htrigger, rfl, ⟨amounts, Sats.length_shares .., ?_, hwithdrawalMoves⟩,
      hvaultMoves, htriggerMoves⟩
    rw [Sats.sum_shares _ _ hparts, Sats.minus_zero]

/-- The byte string that is hashed has the least room of all that hold the outputs. -/
theorem build_overflow (empty : Vault) (coin : Outpoint) {value : Sats} {parts : UInt64}
    (hvalue : Vault.lockFee ≤ value) (hparts : Room.mostGrown targetLength < parts.toNat) :
    build empty coin value parts = .error .overflow := by
  obtain ⟨locked, -, hlock⟩ :=
    empty.lock_isOk (show Vault.lockFee ≤ (Plan.coin coin value).spent.value from hvalue)
  refine bind_eq_error_iff.mpr (Or.inr ⟨_, lift_eq_ok_iff.mpr hlock, ?_⟩)
  refine bind_eq_error_iff.mpr (Or.inr ⟨_, lift_eq_ok_iff.mpr (Vault.funding_withFunding _ _), ?_⟩)
  by_cases hroom : parts.toNat ≤ Room.most TxOut.size
  · refine bind_eq_error_iff.mpr (Or.inr ⟨_, (targets_eq ..).trans (if_pos hroom), ?_⟩)
    refine bind_eq_error_iff.mpr (Or.inl (Room.check_eq_overflow_iff.mpr ?_))
    rw [List.length_map, Sats.length_shares]
    exact hparts
  · exact bind_eq_error_iff.mpr (Or.inl ((targets_eq ..).trans (if_neg hroom)))

end Plan

end VaultCovenant
