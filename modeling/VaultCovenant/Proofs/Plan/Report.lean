import Mathlib.Algebra.Order.BigOperators.Group.List
import VaultCovenant.CommandLine.Outcome
import VaultCovenant.Proofs.Amount.Text
import VaultCovenant.Proofs.Plan.Brevity

/-!
# Reports of plans

The report of a plan shows every output of its transactions twice: on a line of
its own and within the transaction. It is the longest text that has to be put
together for a plan, and it has room up to `2^54` outputs of the withdrawal.

Results:
* `Vault.shownSize_summary_le`: the summary of a vault is short.
* `Plan.shownSize_stepJson_le`: what is shown of a transaction.
* `Plan.utf8ByteSize_report_le`: the length of a report.
* `CommandLine.planVault_chained`: the command ends well and shows the chain.
-/

namespace VaultCovenant

/-! ## Vaults -/

theorem Policy.shownSize_summaryFields_le {p : Policy} (hauth : p.authorization.Simple)
    (level : ℕ) : ∀ field ∈ p.summaryFields, Json.shownSize level field.2 ≤ 1000 := by
  have htext {text : String} (h : text.utf8ByteSize ≤ 160) :
      Json.shownSize level (.str text) ≤ 1000 :=
    (Json.shownSize_str_le level h).trans (by decide)
  have hkey (a : Bytes32) : a.toHex.utf8ByteSize ≤ 160 := a.utf8ByteSize_toHex.trans_le (by decide)
  have hscript {s : Script} (h : s.bytes.length ≤ 80) : s.toHex.utf8ByteSize ≤ 160 := by
    rw [s.utf8ByteSize_toHex]
    omega
  have htaproot (t : TaprootTree) : t.scriptPubkey.toHex.utf8ByteSize ≤ 160 :=
    hscript (t.length_scriptPubkey.trans_le (by decide))
  have hlabel : p.authorization.label.utf8ByteSize ≤ 160 := by
    rcases hauth with h | ⟨secret, h⟩ <;> rw [h, Authorization.label] <;> decide
  have hrecover : p.recoverScript.bytes.length ≤ 80 := by
    have hcheck := hauth.length_script_le
    rw [p.length_recoverScript]
    omega
  have hdelay : p.spendDelay.toInt.natAbs < 10 ^ 20 := by
    have hlow := p.spendDelay.le_toInt
    have hhigh := p.spendDelay.toInt_lt
    omega
  simp only [summaryFields, List.forall_mem_cons]
  exact ⟨(Json.shownSize_int_le level hdelay).trans (by decide), htext hlabel, htext (hkey _),
    htext (htaproot _), htext (hkey _), htext (hscript hrecover), htext (hkey _),
    htext (hscript (p.length_triggerScript_le.trans (by decide))), htext (hkey _), htext (hkey _),
    htext (htaproot _), by simp⟩

/-- The summary of a vault is short. -/
theorem Vault.shownSize_summary_le {v : Vault} (hauth : v.policy.authorization.Simple) :
    Json.shownSize 1 v.summary ≤ 0x10000 := by
  have hnat (n : UInt64) : Json.shownSize 2 (.nat n.toNat) ≤ 1000 :=
    (Json.shownSize_int_le 2 (k := 19) (Nat.lt_trans n.toNat_lt (by decide))).trans (by decide)
  have hvalues : ∀ field ∈ v.summaryFields, Json.shownSize 2 field.2 ≤ 1000 := by
    simp only [summaryFields, List.forall_mem_append, List.forall_mem_cons]
    refine ⟨⟨hnat v.id, v.policy.shownSize_summaryFields_le hauth 2⟩, ?_, ?_, by simp⟩
    · cases v.outpoint with
      | none => decide
      | some o => exact (Json.shownSize_str_le 2 o.utf8ByteSize_text_le).trans (by decide)
    · cases v.amount with
      | none => decide
      | some amount => exact hnat amount
  have hnames : ∀ field ∈ v.summaryFields, field.1.utf8ByteSize ≤ 20 := by
    simp only [summaryFields, Policy.summaryFields, List.forall_mem_append, List.forall_mem_cons]
    decide
  have hsum := Room.sum_map_le_mul hvalues
  have hobj := Json.shownSize_obj_le 1 hnames
  rw [show v.summaryFields.length = 14 from rfl] at hsum hobj
  exact hobj.trans ((Nat.add_le_add_left hsum _).trans (by decide))

/-! ## Transactions -/

namespace Plan

/-- An output takes 110 bytes on its line: an amount, an arrow and a script. -/
theorem quote_outputText_le {o : TxOut} (h : o.scriptPubkey.bytes.length = 34) :
    (Json.quote (outputText o)).utf8ByteSize ≤ 112 := by
  have hbare : Json.Bare (outputText o).toList := by
    rw [outputText, String.toList_append, String.toList_append]
    exact (o.value.bare_text.append (by decide)).append (Json.bare_toHex _)
  have hvalue := o.value.utf8ByteSize_text_le
  rw [Json.utf8ByteSize_quote_of_bare hbare, outputText, String.utf8ByteSize_append,
    String.utf8ByteSize_append, Script.utf8ByteSize_toHex, h]
  show _ + 4 + _ + 2 ≤ 112
  omega

theorem quote_itemText_le {item : Bytes} (h : item.length ≤ 80) :
    (Json.quote (itemText item)).utf8ByteSize ≤ 1000 := by
  have hquote := Json.utf8ByteSize_quote_le (itemText item)
  have hitem : (itemText item).utf8ByteSize ≤ 160 := by
    unfold itemText
    split
    · decide
    · rw [Bytes.utf8ByteSize_toHex]
      omega
  omega

section Step

variable {tx : Transaction} (h : tx.Brief)
include h

theorem shownSize_outputs_le :
    Json.shownSize 3 (.texts (tx.outputs.map outputText)) ≤ 9 + tx.outputs.length * 122 := by
  have htexts := Json.shownSize_texts_le 3
    (List.forall_mem_map.mpr fun o ho => quote_outputText_le (h.outputs o ho))
  rwa [List.length_map] at htexts

theorem shownSize_witness_le : Json.shownSize 3
    (.texts ((tx.inputs.head?.map fun i => witnessTexts i.witness).getD [])) ≤ 7000 := by
  obtain ⟨i, hinputs, -, hcount, hitems⟩ := h.input
  have htexts := Json.shownSize_texts_le 3
    (List.forall_mem_map.mpr fun item hitem => quote_itemText_le (hitems item hitem))
  have hlen := Nat.mul_le_mul_right (1000 + 2 * 3 + 4) hcount
  rw [List.length_map] at htexts
  rw [hinputs]
  exact htexts.trans ((Nat.add_le_add_left hlen _).trans (by decide))

theorem shownSize_hex_le :
    Json.shownSize 3 (.str tx.toHex) ≤ 2050 + tx.outputs.length * 102 := by
  have htx := h.length_serialize_le
  rw [Json.shownSize_str, Transaction.toHex, Json.utf8ByteSize_quote_of_bare (Json.bare_toHex _),
    Bytes.utf8ByteSize_toHex]
  omega

/-- What is shown of a transaction: 122 bytes for the line of an output, and
102 bytes for the output within the transaction. -/
theorem shownSize_stepJson_le {name : String} (hname : name.utf8ByteSize ≤ 20) :
    Json.shownSize 2 (stepJson name tx) ≤ 0x10000 + tx.outputs.length * 224 := by
  have hnames : ∀ field ∈ [
      ("step", Json.str name),
      ("txid", .str tx.txid.text),
      ("inputs", .nat tx.inputs.length),
      ("outputs", .texts (tx.outputs.map outputText)),
      ("witness", .texts ((tx.inputs.head?.map fun i => witnessTexts i.witness).getD [])),
      ("hex", .str tx.toHex)], field.1.utf8ByteSize ≤ 7 := by
    simp only [List.forall_mem_cons]
    decide
  have hinputs : Json.shownSize 3 (.nat tx.inputs.length) ≤ 2 := by
    obtain ⟨i, hi, -⟩ := h.input
    rw [hi]
    show Json.shownSize 3 (.int 1) ≤ 2
    exact Json.shownSize_int_le 3 (by decide)
  have hvalues : List.Forall₂ (· ≤ ·) _
      [6 * 20 + 2, 6 * 64 + 2, 2, 9 + tx.outputs.length * 122, 7000,
        2050 + tx.outputs.length * 102] :=
    .cons (Json.shownSize_str_le 3 hname)
      (.cons (Json.shownSize_str_le 3 tx.txid.utf8ByteSize_text.le)
      (.cons hinputs (.cons (shownSize_outputs_le h) (.cons (shownSize_witness_le h)
      (.cons (shownSize_hex_le h) .nil)))))
  refine (Json.shownSize_obj_le 2 hnames).trans
    ((Nat.add_le_add_left hvalues.sum_le_sum _).trans ?_)
  simp only [List.length_cons, List.length_nil, List.sum_cons, List.sum_nil]
  omega

end Step

/-! ## The report -/

theorem json_eq (p : Plan) : p.json = (Json.obj [
    ("vault", p.vault.summary),
    ("withdrawal_hash", .str p.batch.withdrawalHash.toHex),
    ("trigger_outpoint", .str (outpointText p.triggerOutpoint)),
    ("transactions", .arr (p.transactions.map fun step => stepJson step.1 step.2))]).sorted :=
  rfl

/-- The transactions of a plan are shown one below the other. -/
theorem shownSize_transactions_le {p : Plan} (hbrief : ∀ step ∈ p.transactions, step.2.Brief) :
    Json.shownSize 1 (.arr (p.transactions.map fun step => stepJson step.1 step.2)) ≤
      0x60000 + (p.transactions.map fun step => step.2.outputs.length * 224).sum := by
  have hnames : ∀ step ∈ p.transactions, step.1.utf8ByteSize ≤ 20 := by
    simp only [transactions, List.forall_mem_cons]
    decide
  have hsteps : ∀ step ∈ p.transactions,
      (Json.shownSize (1 + 1) ∘ fun step => stepJson step.1 step.2) step ≤
        step.2.outputs.length * 224 + 0x10000 := by
    intro step hstep
    rw [Function.comp_apply]
    exact (shownSize_stepJson_le (hbrief step hstep) (hnames step hstep)).trans_eq
      (Nat.add_comm ..)
  have hlen : p.transactions.length = 5 := rfl
  have hsum := Room.sum_map_le hsteps
  have hitems := Json.shownSize_arr_le 1 (p.transactions.map fun step => stepJson step.1 step.2)
  rw [List.map_map, List.length_map, hlen] at hitems
  rw [hlen] at hsum
  refine hitems.trans ((Nat.add_le_add_left hsum _).trans ?_)
  omega

/-- The length of a report: what is shown of its outputs, and not much more. -/
theorem utf8ByteSize_report_le {p : Plan} (hauth : p.vault.policy.authorization.Simple)
    (hbrief : ∀ step ∈ p.transactions, step.2.Brief) :
    p.json.pretty.utf8ByteSize ≤
      0x80000 + (p.transactions.map fun step => step.2.outputs.length * 224).sum := by
  have hnames : ∀ field ∈ [
      ("vault", p.vault.summary),
      ("withdrawal_hash", .str p.batch.withdrawalHash.toHex),
      ("trigger_outpoint", .str (outpointText p.triggerOutpoint)),
      ("transactions", .arr (p.transactions.map fun step => stepJson step.1 step.2))],
      field.1.utf8ByteSize ≤ 20 := by
    simp only [List.forall_mem_cons]
    decide
  have houtpoint : (outpointText p.triggerOutpoint).utf8ByteSize ≤ 75 := by
    obtain ⟨short, hshort⟩ := p.triggerOutpoint.abbreviate_isSome
    rw [outpointText, hshort]
    exact (Text.utf8ByteSize_abbreviate_le hshort).trans (by decide)
  have hvalues := List.Forall₂.cons (Vault.shownSize_summary_le hauth)
    (.cons (Json.shownSize_str_le 1 p.batch.withdrawalHash.utf8ByteSize_toHex.le)
    (.cons (Json.shownSize_str_le 1 houtpoint)
    (.cons (shownSize_transactions_le hbrief) .nil)))
  rw [json_eq]
  refine (Json.shownSize_obj_le 0 hnames).trans
    ((Nat.add_le_add_left hvalues.sum_le_sum _).trans ?_)
  simp only [List.length_cons, List.length_nil, List.sum_cons, List.sum_nil]
  omega

/-- Up to `2^54` outputs of the withdrawal a report has room in a text that
grows. -/
theorem Chained.report_fits {p : Plan} {outpoint : Outpoint} {locked : Sats} {parts : UInt64}
    (h : p.Chained outpoint locked parts) (hauth : p.vault.policy.authorization.Simple)
    (hbrief : ∀ step ∈ p.transactions, step.2.Brief) (hparts : parts.toNat ≤ 2 ^ 54) :
    p.json.pretty.utf8ByteSize ≤ Room.mostGrown 1 := by
  obtain ⟨amounts, hamounts, -, -, hwithdrawal⟩ := h.withdrawal
  have hlen := utf8ByteSize_report_le hauth hbrief
  have hroom : Room.mostGrown 1 = 2 ^ 62 := by decide
  simp only [transactions, List.map_cons, List.map_nil, List.sum_cons, List.sum_nil, h.lock.2,
    h.trigger.2, hwithdrawal, h.vaultRecovery.2, h.triggerRecovery.2, List.length_map,
    hamounts, List.length_cons, List.length_nil] at hlen
  omega

end Plan

namespace CommandLine

theorem VaultChoices.simple_of_build {choices : VaultChoices} {id : VaultId} {v : Vault}
    (h : choices.build id = .ok v) : v.policy.authorization.Simple := by
  obtain ⟨recoverySecret, triggerSecret, delay, choice, scriptPathOnly⟩ := choices
  have hparams {authorization : Authorization} (hv : Vault.ofParams id
      ⟨recoverySecret, triggerSecret, delay, authorization, scriptPathOnly⟩ = .ok v) :
      v.policy.authorization = authorization := by
    obtain ⟨p, hp, rfl⟩ := map_eq_ok_iff.mp hv
    exact (Policy.ofParams_eq_ok hp).2
  cases choice with
  | none => exact Or.inl (hparams h)
  | key =>
    obtain ⟨_, hauthorization, hv⟩ := bind_eq_ok_iff.mp h
    obtain ⟨secret, -, rfl⟩ := map_eq_ok_iff.mp hauthorization
    exact Or.inr ⟨secret, hparams hv⟩

/-- The report is the longest of what is put together: up to `2^54` outputs of
the withdrawal it has room in a text that grows. -/
theorem planVault_chained (choices : VaultChoices) (id : VaultId) (coin : Outpoint) (value : Sats)
    (parts : UInt64) (hrecovery : choices.recoverySecret ≠ 0) (htrigger : choices.triggerSecret ≠ 0)
    (hvalue : 10000 ≤ value) (hparts : 1 ≤ parts) (hbound : parts ≤ 0x40000000000000) :
    ∃ v p locked, choices.build id = .ok v ∧ Plan.build v coin value parts = .ok p ∧
      p.vault.policy = v.policy ∧ value.toNat = 10000 + locked.toNat ∧
      p.Chained coin locked parts ∧
      (∃ short, Text.abbreviate p.triggerOutpoint.text = some short) ∧
      p.json.pretty.utf8ByteSize ≤ Room.mostGrown 1 ∧
      ∀ utxo, Outpoint.ofText utxo = .ok coin →
        planVault choices utxo value parts id = .success [p.json.pretty] := by
  obtain ⟨v, hv⟩ := choices.build_isOk id hrecovery htrigger
  have hne : parts ≠ 0 := by
    rintro rfl
    exact absurd hparts (by decide)
  have hfew : parts.toNat ≤ 2 ^ 54 := UInt64.le_iff_toNat_le.mp hbound
  obtain ⟨p, locked, hp, hpolicy, hlocked, hchained⟩ := Plan.build_chained v coin hvalue hne
    (hfew.trans (by decide))
  obtain ⟨f, outputs, t, fromVault, fromTrigger, hmade⟩ := Plan.build_eq_ok hp
  have hauth : p.vault.policy.authorization.Simple := hpolicy ▸ VaultChoices.simple_of_build hv
  refine ⟨v, p, locked, hv, hp, hpolicy, hlocked, hchained, p.triggerOutpoint.abbreviate_isSome,
    hchained.report_fits hauth (hmade.brief hauth) hfew, ?_⟩
  intro utxo hutxo
  rw [planVault, hv]
  simp only [hutxo, hp]
  rfl

/-- The least amount that can be locked and a little more, in seven parts, for a vault with a
negative delay that can only be spent through its leaves. -/
theorem planVault_chained_seven :
    ∃ v p locked,
      VaultChoices.build ⟨2, 3, -1, .key, true⟩ 5 = .ok v ∧
      Plan.build v .null 10003 7 = .ok p ∧ locked.toNat = 3 ∧ p.Chained .null locked 7 ∧
      (∃ amounts : List Sats, amounts.length = 7 ∧ (amounts.map UInt64.toNat).sum = 3 ∧
        p.withdrawal.outputs =
          amounts.map fun amount => ⟨amount, p.vault.policy.recoverySpk⟩) ∧
      planVault ⟨2, 3, -1, .key, true⟩ Outpoint.null.text 10003 7 5 =
        .success [p.json.pretty] := by
  obtain ⟨v, p, locked, hv, hp, -, hlocked, hchained, -, -, hshown⟩ :=
    planVault_chained ⟨2, 3, -1, .key, true⟩ 5 .null 10003 7 (by decide) (by decide) (by decide)
      (by decide) (by decide)
  have hthree : locked.toNat = 3 := by
    have hvalue : (10003 : Sats).toNat = 10003 := rfl
    omega
  obtain ⟨amounts, hlen, hsum, hmoves⟩ := hchained.withdrawal
  exact ⟨v, p, locked, hv, hp, hthree, hchained, ⟨amounts, hlen, hthree ▸ hsum, hmoves.2⟩,
    hshown _ (Outpoint.ofText_text .null)⟩

/-- A coin cannot be withdrawn to `2^60` outputs, although one output could be and nothing else is
wrong. -/
theorem planVault_overflow :
    planVault ⟨2, 3, 10, .none, false⟩
      "0101010101010101010101010101010101010101010101010101010101010101:0" 100000000
      0x1000000000000000 5 = .overflow := by
  let choices : VaultChoices := ⟨2, 3, 10, .none, false⟩
  have hsecrets : choices.recoverySecret ≠ 0 ∧ choices.triggerSecret ≠ 0 := by decide
  obtain ⟨v, hv⟩ := choices.build_isOk 5 hsecrets.1 hsecrets.2
  have hcoin : Outpoint.ofText
      "0101010101010101010101010101010101010101010101010101010101010101:0" =
        .ok ⟨⟨Bytes32.filled 1⟩, 0⟩ := rfl
  have hplan := Plan.build_overflow v ⟨⟨Bytes32.filled 1⟩, 0⟩
    (show Vault.lockFee ≤ 100000000 by decide)
    (show Room.mostGrown Plan.targetLength < (0x1000000000000000 : UInt64).toNat by decide)
  rw [planVault, hv]
  simp only [hcoin, hplan]
  rfl

end CommandLine

end VaultCovenant
