import VaultCovenant.Proofs.Records
import VaultCovenant.Proofs.Script.Minimal

/-!
# Positions of a trigger

A trigger tells twice where the outputs of its batches are: by the positions
it reports and by the first two items of every witness. Both count the outputs
of the finished transaction, the change of the coin that pays included.

Results:
* `Trigger.map_toNat_positionsFrom`: the positions of all batches count
  through the outputs without a gap.
* `Trigger.Made.positions_lead`: every position leads to the output it stands
  for.
* `Trigger.Made.input_places`: what the witness of a member says of positions.
* `Trigger.build_places`: all of it, for a trigger without faults.
-/

namespace VaultCovenant

/-- The positions of the outputs of one batch. -/
def BatchPosition.vouts (p : BatchPosition) : List UInt32 := p.trigger :: p.revault.toList

/-- What a witness says of the output that returns value: where it is, or minus
one. -/
def BatchPosition.returned (p : BatchPosition) : ℤ :=
  match p.revault with
  | some vout => vout.toNat
  | none => -1

namespace Trigger

/-! ## Counting through the outputs -/

theorem map_toNat_positionsFrom (start : ℕ) (batches : List Batch)
    (h : start + (batches.flatMap Batch.outputs).length ≤ outputLimit) :
    ((positionsFrom start batches).flatMap BatchPosition.vouts).map UInt32.toNat =
      List.range' start (batches.flatMap Batch.outputs).length := by
  induction batches generalizing start with
  | nil => rfl
  | cons b rest ih =>
    rw [List.flatMap_cons, List.length_append] at h
    have hhead : (BatchPosition.vouts ⟨UInt32.ofNat start,
        b.revaultOutput.map fun _ => UInt32.ofNat (start + 1)⟩).map UInt32.toNat =
        List.range' start b.outputs.length := by
      unfold outputLimit at h
      unfold BatchPosition.vouts
      unfold Batch.outputs at h ⊢
      cases hrevault : b.revaultOutput with
      | none =>
        simp only [hrevault, Option.toList_none, List.length_singleton] at h
        have hstart : (UInt32.ofNat start).toNat = start := by
          rw [UInt32.toNat_ofNat']
          omega
        simp [hstart]
      | some out =>
        simp only [hrevault, Option.toList_some, List.length_cons, List.length_nil] at h
        have hstart : (UInt32.ofNat start).toNat = start := by
          rw [UInt32.toNat_ofNat']
          omega
        have hnext : (UInt32.ofNat (start + 1)).toNat = start + 1 := by
          rw [UInt32.toNat_ofNat']
          omega
        simp only [Option.map_some, Option.toList_some, List.map_cons, List.map_nil, hstart, hnext]
        rfl
    rw [positionsFrom, List.flatMap_cons, List.map_append, hhead, ih _ (by omega),
      List.flatMap_cons, List.length_append, List.range'_append_1]

namespace Made

variable {batches : List Batch} {fee : Option Coin} {faults : FaultSet} {fundings : List Funding}
  {change : Option TxOut} {witnesses : List (List Bytes)} {t : Trigger}

/-- The positions that are reported are those of all outputs, in order. -/
theorem vouts_eq_range (h : Made batches fee faults fundings change witnesses t)
    (hlen : t.tx.outputs.length < outputLimit) :
    (t.feeChange.toList ++ t.positions.flatMap BatchPosition.vouts).map UInt32.toNat =
      List.range t.tx.outputs.length := by
  have houtputs := h.outputs_eq
  unfold Trigger.outputs at houtputs
  rw [houtputs, List.length_append] at hlen ⊢
  rw [h.feeChange_eq, h.positions_eq, List.map_append, map_toNat_positionsFrom _ _ (by omega)]
  cases change with
  | none => simp [List.range_eq_range']
  | some out =>
    show 0 :: List.range' 1 _ = _
    rw [List.range_eq_range', Option.toList_some, List.length_singleton, Nat.add_comm,
      List.range'_succ]

/-- Every position leads to the output it stands for. -/
theorem positions_lead (h : Made batches fee faults fundings change witnesses t)
    (hlen : t.tx.outputs.length < outputLimit) :
    List.Forall₂ (fun (b : Batch) (p : BatchPosition) =>
      t.tx.outputs[p.trigger.toNat]? = some b.triggerOutput ∧
      (p.revault.isSome = b.revaultOutput.isSome) ∧
      ∀ vout, p.revault = some vout → t.tx.outputs[vout.toNat]? = b.revaultOutput)
      batches t.positions := by
  rw [h.outputs_eq] at hlen ⊢
  rw [h.positions_eq]
  apply forall₂_of_getElem? (length_positions _ _).symm
  intro k b hb
  have hp := getElem?_positionsFrom change.toList.length batches k
  rw [hb, Option.map_some] at hp
  refine ⟨_, hp, getElem?_outputs_trigger hb hp hlen, ?_, ?_⟩
  · cases b.revaultOutput <;> rfl
  · intro vout hvout
    obtain ⟨out, hout, hget⟩ := getElem?_outputs_revault hb hp hlen hvout
    rw [hget, hout]

/-- The input of a member spends its coin, and the first items of its witness
are the positions of its batch and the template hash. -/
theorem input_places (h : Made batches fee .none fundings change witnesses t) {i : ℕ} {s : Spend}
    (hs : (spends batches (positionsFrom change.toList.length batches))[i]? = some s) :
    ∃ input first second signature leaf control, t.tx.inputs[i]? = some input ∧
      s.vault.outpoint = some input.previousOutput ∧
      input.witness = [first, second, s.batch.withdrawalHash.bytes, signature, leaf, control] ∧
      ScriptNumber.decodeMinimal? first = some s.position.returned ∧
      ScriptNumber.decodeMinimal? second = some (s.position.trigger.toNat : ℤ) := by
  obtain ⟨f, signature, control, hf, -, -, -, hinput⟩ := h.input_spend hs
  obtain ⟨houtpoint, -⟩ := Vault.funding_eq_ok_iff.mp hf
  refine ⟨_, _, _, signature, _, control.bytes, hinput, houtpoint, rfl, ?_, ?_⟩
  · rw [ScriptNumber.decodeMinimal?_eq_some_iff]
    unfold BatchPosition.returned noOutput
    cases s.position.revault <;> rfl
  · rw [ScriptNumber.decodeMinimal?_eq_some_iff]
    show ScriptNumber.encode (_ + 0) = _
    rw [Int.add_zero]

end Made

/-! ## Outpoints -/

variable {t : Trigger} {k : ℕ}

theorem outpoint_of_position {p : BatchPosition} (h : t.positions[k]? = some p) :
    t.outpoint k = .ok ⟨t.tx.txid, p.trigger⟩ := by
  unfold Trigger.outpoint
  rw [h]
  rfl

theorem revaultOutpoint_of_position {p : BatchPosition} (h : t.positions[k]? = some p) :
    t.revaultOutpoint k = p.revault.map fun vout => ⟨t.tx.txid, vout⟩ := by
  obtain ⟨trigger, revault⟩ := p
  unfold Trigger.revaultOutpoint
  rw [h]
  cases revault <;> rfl

/-- The vaults to which value returned are at the outpoints that are reported
for it. -/
theorem revaulted_outpoints {batches : List Batch} {fee : Option Coin} {faults : FaultSet}
    {fundings : List Funding} {change : Option TxOut} {witnesses : List (List Bytes)}
    (h : Made batches fee faults fundings change witnesses t) {ids : ℕ → VaultId}
    {returned : List Vault} (hreturned : t.revaulted ids = .ok returned) (o : Outpoint) :
    (∃ w ∈ returned, w.outpoint = some o) ↔ ∃ k, t.revaultOutpoint k = some o := by
  have hkeeps := revaulted_keeps hreturned
  constructor
  · rintro ⟨w, hw, ho⟩
    obtain ⟨⟨b, o', out⟩, hr, first, -, -, hfunding⟩ := forall₂_mem_right hkeeps hw
    obtain ⟨hwo, -⟩ := Vault.funding_eq_ok_iff.mp hfunding
    rw [ho] at hwo
    cases hwo
    obtain ⟨k, -, hk, -⟩ := mem_returns.mp hr
    exact ⟨k, hk⟩
  · rintro ⟨k, hk⟩
    obtain ⟨p, hp, hpk⟩ := Option.bind_eq_some_iff.mp hk
    obtain ⟨vout, hvout, -⟩ := Option.bind_eq_some_iff.mp hpk
    -- a position that is reported belongs to a batch with such an output
    rw [h.positions_eq, getElem?_positionsFrom] at hp
    obtain ⟨b, hb, rfl⟩ := Option.map_eq_some_iff.mp hp
    obtain ⟨out, hout, -⟩ := Option.map_eq_some_iff.mp hvout
    have hmem : (b, o, out) ∈ t.returns :=
      mem_returns.mpr ⟨k, by rw [h.batches_eq, hb], hk, hout⟩
    obtain ⟨j, hj⟩ := List.mem_iff_getElem?.mp hmem
    obtain ⟨w, hw, first, -, -, hfunding⟩ := forall₂_getElem? hkeeps hj
    exact ⟨w, List.mem_iff_getElem?.mpr ⟨j, hw⟩, (Vault.funding_eq_ok_iff.mp hfunding).1⟩

/-! ## All positions of a trigger -/

/-- In a trigger without faults the members' coins are spent in order, then
the coin that pays; the outputs are its change, then the trigger output of
every batch with what the batch returns. The positions that are reported lead
to these outputs, are all different and leave no output out. Every witness has
six items, of which the first two give the positions of the member's batch and
the third its template hash. The outpoints name the finished transaction and
these positions. -/
theorem build_places {batches : List Batch} {fee : Option Coin}
    (h : build batches fee .none = .ok t) (hlen : t.tx.outputs.length < outputLimit) :
    ∃ spending change,
      t.tx.inputs = spending ++ (fee.map Coin.input).toList ∧
      fee.mapM Coin.change = .ok change ∧ t.feeChange = change.map (fun _ => 0) ∧
      t.tx.outputs =
        change.toList ++ batches.flatMap (fun b => b.triggerOutput :: b.revaultOutput.toList) ∧
      List.Forall₂ (fun (b : Batch) (p : BatchPosition) =>
        t.tx.outputs[p.trigger.toNat]? = some b.triggerOutput ∧
        (p.revault.isSome = b.revaultOutput.isSome) ∧
        ∀ vout, p.revault = some vout → t.tx.outputs[vout.toNat]? = b.revaultOutput)
        batches t.positions ∧
      (t.feeChange.toList ++ t.positions.flatMap BatchPosition.vouts).map UInt32.toNat =
        List.range t.tx.outputs.length ∧
      (spends batches t.positions).map Spend.vault = batches.flatMap Batch.members ∧
      List.Forall₂ (fun (s : Spend) (i : TxIn) => s.vault.outpoint = some i.previousOutput ∧
        ∃ first second signature leaf control,
          i.witness = [first, second, s.batch.withdrawalHash.bytes, signature, leaf, control] ∧
          ScriptNumber.decodeMinimal? first = some s.position.returned ∧
          ScriptNumber.decodeMinimal? second = some (s.position.trigger.toNat : ℤ))
        (spends batches t.positions) spending ∧
      t.batches = batches ∧
      (∀ k p, t.positions[k]? = some p → t.outpoint k = .ok ⟨t.tx.txid, p.trigger⟩ ∧
        t.revaultOutpoint k = p.revault.map fun vout => ⟨t.tx.txid, vout⟩) ∧
      ∀ ids returned, t.revaulted ids = .ok returned → ∀ o,
        (∃ w ∈ returned, w.outpoint = some o) ↔ ∃ k, t.revaultOutpoint k = some o := by
  obtain ⟨fundings, change, witnesses, hmade⟩ := build_eq_ok h
  have hvaults := map_vault_spends change.toList.length batches
  refine ⟨_, change, hmade.inputs_eq, hmade.change_eq, hmade.feeChange_eq, hmade.outputs_eq,
    hmade.positions_lead hlen, hmade.vouts_eq_range hlen, ?_, ?_, hmade.batches_eq, ?_, ?_⟩
  · rw [hmade.positions_eq]
    exact hvaults
  · rw [hmade.positions_eq]
    have hspends : (spends batches (positionsFrom change.toList.length batches)).length =
        fundings.length := by
      rw [← (Vault.fundings_eq_ok_iff.mp hmade.fundings_eq).length_eq, ← hvaults, List.length_map]
    apply forall₂_of_getElem?
    · rw [hspends, Transaction.length_attach, List.length_map]
    · intro i s hs
      obtain ⟨input, first, second, signature, leaf, control, hinput, ho, hwitness, hfirst,
        hsecond⟩ := hmade.input_places hs
      have hi : i < fundings.length := by
        rw [← hspends]
        exact (List.getElem?_eq_some_iff.mp hs).1
      rw [hmade.inputs_eq, List.getElem?_append_left (by simpa using hi)] at hinput
      exact ⟨input, hinput, ho, first, second, signature, leaf, control, hwitness, hfirst, hsecond⟩
  · intro k p hp
    exact ⟨outpoint_of_position hp, revaultOutpoint_of_position hp⟩
  · intro ids returned hreturned o
    exact revaulted_outpoints hmade hreturned o

/-- Two vaults are triggered each for itself, and only the first returns
value; a coin pays, so that its change comes first. -/
theorem build_places_two_batches :
    ∃ (b b' : Batch) (coin : Coin) (t : Trigger) (input input' : TxIn) (out : TxOut),
      b.revaultOutput = some out ∧ b'.revaultOutput = none ∧
      build [b, b'] (some coin) .none = .ok t ∧ t.tx.outputs.length < outputLimit ∧
      t.tx.inputs = [input, input', coin.input] ∧ t.feeChange = some 0 ∧
      t.positions = [⟨1, some 2⟩, ⟨3, none⟩] ∧ t.tx.outputs[2]? = some out ∧
      t.tx.outputs[3]? = some b'.triggerOutput ∧
      input.witness.head?.bind ScriptNumber.decodeMinimal? = some 2 ∧
      input'.witness.head?.bind ScriptNumber.decodeMinimal? = some (-1) := by
  obtain ⟨policy, -⟩ : ∃ p : Policy, p.scriptPathOnly = true :=
    ⟨⟨.nothingUpMySleeve, forgingSecret, 10, .anyone, true⟩, rfl⟩
  obtain ⟨v, f, -, -, hf, -, hamount, -⟩ := Vault.exists_funded 7 policy ⟨.zero, 0⟩ 990000
  obtain ⟨v', f', -, -, hf', -, hamount', -⟩ := Vault.exists_funded 8 policy ⟨.zero, 1⟩ 500000
  obtain ⟨coin, change, hchange⟩ : ∃ (coin : Coin) (change : TxOut), coin.change = .ok change :=
    ⟨⟨TxIn.spending .null, ⟨50000, Script.anyone⟩⟩, ⟨40000, Script.anyone⟩, by decide⟩
  obtain ⟨b, hb⟩ := Batch.build_isOk [] (some 200000) (Vault.total_singleton hf)
    (show _ = Except.ok 790000 by rw [hamount]; decide)
  obtain ⟨b', hb'⟩ := Batch.build_isOk [] none (Vault.total_singleton hf')
    (show _ = Except.ok 500000 by rw [hamount']; decide)
  obtain ⟨first, total, hmade⟩ := Batch.build_eq_ok hb
  obtain ⟨first', total', hmade'⟩ := Batch.build_eq_ok hb'
  have hout : b.revaultOutput = some ⟨200000, first.policy.vaultSpk⟩ :=
    (Except.ok.inj hmade.revault_eq).symm
  have hout' : b'.revaultOutput = none := (Except.ok.inj hmade'.revault_eq).symm
  have hmembers : [b, b'].flatMap Batch.members = [v, v'] := by
    simp [hmade.members_eq, hmade'.members_eq]
  have hfundings : Vault.fundings ([b, b'].flatMap Batch.members) = .ok [f, f'] := by
    rw [hmembers, Vault.fundings_eq_ok_iff]
    exact .cons hf (.cons hf' .nil)
  obtain ⟨t, ht⟩ := build_isOk .none hfundings (optionMapM_some_eq_ok_iff.mpr ⟨change, hchange, rfl⟩)
  obtain ⟨_, change', _, htmade⟩ := build_eq_ok ht
  obtain ⟨_, hok, rfl⟩ := optionMapM_some_eq_ok_iff.mp htmade.change_eq
  cases hchange.symm.trans hok
  have hpositions : t.positions = [⟨1, some 2⟩, ⟨3, none⟩] := by
    rw [htmade.positions_eq]
    simp only [positionsFrom, Batch.outputs, hout, hout']
    rfl
  have hlen : t.tx.outputs.length < outputLimit := by
    rw [htmade.outputs_eq]
    simp [Trigger.outputs, Batch.outputs, hout, hout', outputLimit]
  obtain ⟨spending, -, hinputs, -, hfee, -, hlead, -, hvaults, hspends, -⟩ := build_places ht hlen
  rw [hpositions] at hlead hspends
  -- the two members and their places
  have hlist : spends [b, b'] [⟨1, some 2⟩, ⟨3, none⟩] =
      [⟨v, b, ⟨1, some 2⟩⟩, ⟨v', b', ⟨3, none⟩⟩] := by
    simp [spends, hmade.members_eq, hmade'.members_eq]
  rw [hlist] at hspends
  obtain ⟨input, _, ⟨-, _, _, _, _, _, hw, hfirst, -⟩, htail, rfl⟩ :=
    List.forall₂_cons_left_iff.mp hspends
  obtain ⟨input', _, ⟨-, _, _, _, _, _, hw', hfirst', -⟩, hnil, rfl⟩ :=
    List.forall₂_cons_left_iff.mp htail
  cases hnil
  obtain ⟨⟨-, -, hreturn⟩, hlead'⟩ := List.forall₂_cons.mp hlead
  obtain ⟨⟨htrigger, -⟩, -⟩ := List.forall₂_cons.mp hlead'
  refine ⟨b, b', coin, t, input, input', _, hout, hout', ht, hlen, hinputs, ?_, hpositions, ?_,
    htrigger, ?_, ?_⟩
  · rw [htmade.feeChange_eq]
    rfl
  · rw [← hout]
    exact hreturn 2 rfl
  · rw [hw]
    exact hfirst
  · rw [hw']
    exact hfirst'

end Trigger

end VaultCovenant
