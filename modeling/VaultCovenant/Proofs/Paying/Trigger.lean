import VaultCovenant.Proofs.Isolation.Spending
import VaultCovenant.Proofs.Trigger.Positions

/-!
# A coin that pays for a trigger

A trigger with a coin that pays against the one of the same batches without.
The input of the coin stands behind the others and its change in front of the
other outputs, so that every position is one higher and nothing else changes
but the signatures, which are made over all of it.

Results:
* `BatchPosition.Behind`, `Trigger.Paid`: every part of either trigger.
* `Trigger.forall₂_positionsFrom`: the positions of all batches move by one.
* `Trigger.build_paid`: a coin that pays changes nothing else.
-/

namespace VaultCovenant

/-- The input with its witness taken off. -/
def TxIn.bare (i : TxIn) : TxIn := { i with witness := [] }

/-- The positions of a batch behind one more output. -/
structure BatchPosition.Behind (p p' : BatchPosition) : Prop where
  trigger : p'.trigger.toNat = p.trigger.toNat + 1
  revault : p'.revault.map UInt32.toNat = p.revault.map (·.toNat + 1)

namespace BatchPosition.Behind

variable {p p' : BatchPosition}

/-- What a witness says of the output that returns value is one more, unless
there is none. -/
theorem returned (h : Behind p p') :
    p'.returned = if p.revault = none then -1 else p.returned + 1 := by
  have hrevault := h.revault
  unfold BatchPosition.returned
  cases hp : p.revault <;> cases hp' : p'.revault <;> rw [hp, hp'] at hrevault
  · rfl
  · cases hrevault
  · cases hrevault
  · rw [Option.map_some, Option.map_some, Option.some.injEq] at hrevault
    simp [hrevault]

end BatchPosition.Behind

namespace Trigger

/-! ## The parts of a trigger that is paid for -/

/-- The input for a member in a trigger without a coin that pays and with
`coin`. Each of the first two items of the witness is one more, unless the first
stands for an output that does not exist. The fourth item is in either trigger
the signature of the same key for that trigger. -/
def SpendPaid (coin : Coin) (faults : FaultSet) (spent : List TxOut) (plain paid : Transaction)
    (i : ℕ) (s : Spend) : Prop :=
  ∃ (bare : TxIn) (place : ℤ) (signature signature' control : Bytes),
    place = s.position.trigger.toNat + (if faults.contains .triggerVoutOffByOne then 1 else 0) ∧
    plain.inputs[i]? = some { bare with
      witness := [ScriptNumber.encode s.position.returned, ScriptNumber.encode place,
        s.batch.withdrawalHash.bytes, signature, s.vault.policy.triggerScript.bytes, control] } ∧
    paid.inputs[i]? = some { bare with
      witness := [
        ScriptNumber.encode (if s.position.revault = none then -1 else s.position.returned + 1),
        ScriptNumber.encode (place + 1),
        s.batch.withdrawalHash.bytes, signature', s.vault.policy.triggerScript.bytes, control] } ∧
    signScriptPath plain i spent (leafHash s.vault.policy.triggerScript) (signer faults s.vault) =
      .ok signature ∧
    signScriptPath paid i (spent ++ [coin.spent]) (leafHash s.vault.policy.triggerScript)
      (signer faults s.vault) = .ok signature'

/-- A trigger with a coin that pays against the one without. -/
structure Paid (coin : Coin) (faults : FaultSet) (spent : List TxOut) (plain paid : Trigger) :
    Prop where
  version_eq : paid.tx.version = plain.tx.version
  lockTime_eq : paid.tx.lockTime = plain.tx.lockTime
  bareInputs_eq : paid.tx.bareInputs = plain.tx.bareInputs ++ [coin.input.bare]
  /-- The input of the coin is the last, its witness included. -/
  coinInput : paid.tx.inputs.drop plain.tx.inputs.length = [coin.input]
  outputs_eq : ∃ change, coin.change = .ok change ∧ paid.tx.outputs = change :: plain.tx.outputs
  batches_eq : paid.batches = plain.batches
  positions : List.Forall₂ BatchPosition.Behind plain.positions paid.positions
  feeChange_eq : plain.feeChange = none ∧ paid.feeChange = some 0
  length_inputs : plain.tx.inputs.length = (spends plain.batches plain.positions).length
  spend : ∀ (i : ℕ) (s : Spend), (spends plain.batches plain.positions)[i]? = some s →
    SpendPaid coin faults spent plain.tx paid.tx i s

/-! ## Positions -/

theorem forall₂_positionsFrom (start : ℕ) (batches : List Batch)
    (h : start + (batches.flatMap Batch.outputs).length < outputLimit) :
    List.Forall₂ BatchPosition.Behind (positionsFrom start batches)
      (positionsFrom (start + 1) batches) := by
  induction batches generalizing start with
  | nil => exact .nil
  | cons b rest ih =>
    rw [List.flatMap_cons, List.length_append] at h
    have hpos : 0 < b.outputs.length := Nat.succ_pos _
    refine .cons ⟨?_, ?_⟩ ?_
    · show (UInt32.ofNat _).toNat = (UInt32.ofNat _).toNat + 1
      rw [Transaction.toNat_vout (by omega), Transaction.toNat_vout (by omega)]
    · show Option.map _ (Option.map _ _) = Option.map _ (Option.map _ _)
      cases hrevault : b.revaultOutput with
      | none => rfl
      | some out =>
        simp only [Option.map_some]
        rw [Transaction.toNat_vout (by omega), Transaction.toNat_vout (by omega)]
    · rw [Nat.add_right_comm]
      exact ih _ (by omega)

/-- The members to be spent are the same, each with its batch, behind one more
output. -/
theorem forall₂_spends {positions positions' : List BatchPosition}
    (h : List.Forall₂ BatchPosition.Behind positions positions') (batches : List Batch) :
    List.Forall₂ (fun s s' => s'.vault = s.vault ∧ s'.batch = s.batch ∧
      s.position.Behind s'.position) (spends batches positions) (spends batches positions') := by
  induction h generalizing batches with
  | nil => cases batches <;> exact .nil
  | @cons p p' positions positions' hp _ ih =>
    cases batches with
    | nil => exact .nil
    | cons b rest =>
      unfold spends at ih ⊢
      rw [List.zip_cons_cons, List.zip_cons_cons, List.flatMap_cons, List.flatMap_cons]
      refine List.rel_append ?_ (ih rest)
      rw [List.forall₂_map_left_iff, List.forall₂_map_right_iff, List.forall₂_same]
      exact fun v _ => ⟨rfl, rfl, hp⟩

/-! ## With and without a coin that pays -/

theorem returned_eq (p : BatchPosition) :
    (p.revault.map fun vout => (vout.toNat : ℤ)).getD noOutput = p.returned := by
  unfold BatchPosition.returned noOutput
  cases p.revault <;> rfl

theorem prevouts_paid (fundings : List Funding) (coin : Coin) :
    prevouts fundings (some coin) = prevouts fundings none ++ [coin.spent] := by
  simp [prevouts]

section

variable {batches : List Batch} {faults : FaultSet} {coin : Coin} {fundings : List Funding}
  {change : TxOut} {witnesses witnesses' : List (List Bytes)} {plain paid : Trigger}

/-- Positions that fit their 32 bits fit them with the change in front. -/
theorem Made.behind (h : Made batches none faults fundings none witnesses plain)
    (h' : Made batches (some coin) faults fundings (some change) witnesses' paid)
    (hlen : plain.tx.outputs.length < outputLimit) :
    List.Forall₂ BatchPosition.Behind plain.positions paid.positions := by
  rw [h.positions_eq, h'.positions_eq]
  refine forall₂_positionsFrom 0 batches ?_
  rw [h.outputs_eq] at hlen
  rw [Nat.zero_add]
  exact hlen

theorem Made.spendPaid (h : Made batches none faults fundings none witnesses plain)
    (h' : Made batches (some coin) faults fundings (some change) witnesses' paid)
    (hlen : plain.tx.outputs.length < outputLimit) {i : ℕ} {s : Spend}
    (hs : (spends plain.batches plain.positions)[i]? = some s) :
    SpendPaid coin faults (prevouts fundings none) plain.tx paid.tx i s := by
  obtain ⟨s', hs', hvault, hbatch, hbehind⟩ :=
    forall₂_getElem? (forall₂_spends (h.behind h' hlen) plain.batches) hs
  rw [h.batches_eq, h.positions_eq] at hs
  rw [h.batches_eq, h'.positions_eq] at hs'
  obtain ⟨f, signature, control, -, hf, hsign, hcontrol, hinput⟩ := h.input_spend hs
  obtain ⟨f', signature', control', -, hf', hsign', hcontrol', hinput'⟩ := h'.input_spend hs'
  rw [hvault] at hsign' hcontrol'
  obtain rfl : f = f' := Option.some.inj (hf.symm.trans hf')
  obtain rfl : control = control' := Except.ok.inj (hcontrol.symm.trans hcontrol')
  unfold witnessItems at hinput hinput'
  rw [returned_eq] at hinput hinput'
  -- the positions are one higher, and all else is that of the same member
  rw [hvault, hbatch, hbehind.returned, hbehind.trigger, Int.natCast_succ,
    Int.add_right_comm] at hinput'
  refine ⟨TxIn.spending f.outpoint, _, signature, signature', control.bytes, rfl, hinput, hinput',
    ?_, ?_⟩
  · rw [h.tx_eq, Transaction.signScriptPath_withWitnesses]
    exact hsign
  · rw [h'.tx_eq, Transaction.signScriptPath_withWitnesses, ← prevouts_paid]
    exact hsign'

/-- A coin that pays changes nothing of a trigger but what follows from its
change standing in front. -/
theorem build_paid (hplain : build batches none faults = .ok plain)
    (hpaid : build batches (some coin) faults = .ok paid)
    (hlen : plain.tx.outputs.length < outputLimit) :
    ∃ fundings, Vault.fundings (batches.flatMap Batch.members) = .ok fundings ∧
      Paid coin faults (fundings.map Funding.output) plain paid := by
  obtain ⟨fundings, nothing, witnesses, hmade⟩ := build_eq_ok hplain
  obtain ⟨fundings', change', witnesses', hmade'⟩ := build_eq_ok hpaid
  obtain rfl : fundings = fundings' :=
    Except.ok.inj (hmade.fundings_eq.symm.trans hmade'.fundings_eq)
  obtain rfl := optionMapM_none_eq_ok_iff.mp hmade.change_eq
  obtain ⟨change, hchange, rfl⟩ := optionMapM_some_eq_ok_iff.mp hmade'.change_eq
  have hspent : prevouts fundings none = fundings.map Funding.output := List.append_nil _
  have hlength : plain.tx.inputs.length = fundings.length := by
    rw [← hmade.length_inputs, hspent, List.length_map]
  refine ⟨fundings, hmade.fundings_eq, ?_⟩
  exact {
    version_eq := by
      rw [hmade.tx_eq, hmade'.tx_eq]
      rfl
    lockTime_eq := by
      rw [hmade.tx_eq, hmade'.tx_eq]
      rfl
    bareInputs_eq := by
      rw [hmade.tx_eq, hmade'.tx_eq, Transaction.bareInputs_withWitnesses,
        Transaction.bareInputs_withWitnesses]
      simp [Transaction.bareInputs, unsigned, Transaction.plain, TxIn.bare]
    coinInput := by
      rw [hlength, hmade'.drop_inputs]
      rfl
    outputs_eq := by
      refine ⟨change, hchange, ?_⟩
      rw [hmade.outputs_eq, hmade'.outputs_eq]
      rfl
    batches_eq := hmade'.batches_eq.trans hmade.batches_eq.symm
    positions := hmade.behind hmade' hlen
    feeChange_eq := ⟨hmade.feeChange_eq, hmade'.feeChange_eq⟩
    length_inputs := hlength.trans hmade.length_spends.symm
    spend := fun i s hs => hspent ▸ hmade.spendPaid hmade' hlen hs }

end

end Trigger

end VaultCovenant
