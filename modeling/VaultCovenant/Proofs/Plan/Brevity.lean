import VaultCovenant.Proofs.Plan
import VaultCovenant.Proofs.Recovery.Check
import VaultCovenant.Proofs.Transaction.Length

/-!
# The transactions of a plan are brief

A vault whose recovery asks for a signature at most has short leaves, and each
of its transactions is satisfied by a few short items. Only the withdrawal may
have many outputs.

Results:
* `Trigger.length_le_of_mem_witnessItems`,
  `Recovery.length_le_of_mem_witnessItems`: the items of a witness take at most
  80 bytes each.
* `Plan.build_eq_ok`: the parts of a plan that was built.
* `Plan.Made.brief`: all transactions of a plan are brief.
-/

namespace VaultCovenant

theorem length_of_signScriptPath {tx : Transaction} {index : ℕ} {spent : List TxOut}
    {leaf : Digest} {secret : SecretKey} {signature : Bytes}
    (h : signScriptPath tx index spent leaf secret = .ok signature) : signature.length = 64 := by
  unfold signScriptPath at h
  split at h
  · cases h
    exact Schnorr.length_sign _ _
  · cases h

/-! ## Authorizations -/

namespace Authorization

/-- At most a signature is asked for. -/
def Simple (auth : Authorization) : Prop := auth = .anyone ∨ ∃ secret, auth = .keySignature secret

variable {auth : Authorization}

theorem Simple.length_script_le (h : auth.Simple) : auth.script.bytes.length ≤ 34 := by
  rcases h with rfl | ⟨secret, rfl⟩
  · exact Nat.zero_le _
  · have hkey : (Instruction.push secret.xOnly.bytes).encode.length = 33 := by
      simp [XOnlyKey.bytes, Bytes32.length_eq]
    show (_ ++ ([Opcode.checkSigVerify] ++ []) : Bytes).length ≤ 34
    rw [List.length_append, hkey]
    exact Nat.le_refl 34

theorem Simple.stack_eq (h : auth.Simple) : auth.stack = [] := by
  rcases h with rfl | ⟨secret, rfl⟩ <;> rfl

end Authorization

/-! ## Witnesses -/

theorem Trigger.length_le_of_mem_witnessItems {s : Spend} {signature : Bytes}
    {control : ControlBlock} (hsignature : signature.length = 64)
    (hcontrol : control.branch.length = 1) :
    ∀ item ∈ witnessItems .none s signature control, item.length ≤ 80 := by
  have hposition {vout : UInt32} : (ScriptNumber.encode vout.toNat).length ≤ 5 :=
    ScriptNumber.length_encode_natCast_le (Nat.le_of_lt_succ vout.toNat_lt)
  have hreturned : (ScriptNumber.encode
      ((s.position.revault.map fun vout => (vout.toNat : ℤ)).getD noOutput)).length ≤ 9 := by
    cases s.position.revault with
    | none => exact ScriptNumber.length_encode_le (-1)
    | some vout => exact hposition.trans (by decide)
  have htrigger : (ScriptNumber.encode (s.position.trigger.toNat + 0)).length ≤ 5 := by
    rw [Int.add_zero]
    exact hposition
  have hscript := s.vault.policy.length_triggerScript_le
  have hblock := control.length_bytes
  simp only [witnessItems, List.forall_mem_cons]
  refine ⟨by omega, htrigger.trans (by decide), ?_, by omega, by omega, by omega, by simp⟩
  rw [s.batch.withdrawalHash.length_eq]
  decide

theorem Recovery.length_le_of_mem_witnessItems {tx : Transaction} {spent : List TxOut}
    {index position : ℕ} {s : Source} {passing : List Bytes} {p : Policy} (hp : s.OfPolicy p)
    (hauth : p.authorization.Simple) (hcontrol : s.control.branch.length = 1)
    (hpasses : Passes tx spent .none index s passing) (hposition : position ≤ 0xffffffff) :
    (witnessItems .none s position passing).length ≤ 6 ∧
      ∀ item ∈ witnessItems .none s position passing, item.length ≤ 80 := by
  have hpassing : passing.length ≤ 1 ∧ ∀ item ∈ passing, item.length ≤ 80 := by
    rcases hpasses with ⟨-, rfl⟩ | ⟨secret, signature, -, hsign, rfl⟩
    · exact ⟨Nat.zero_le _, by simp⟩
    · have hlen := length_of_signScriptPath hsign
      rw [hp.authorization_eq, hauth.stack_eq]
      exact ⟨Nat.le_refl 1, by simp [hlen]⟩
  have hitem : (ScriptNumber.encode (position + 0)).length ≤ 5 := by
    rw [Int.add_zero]
    exact ScriptNumber.length_encode_natCast_le hposition
  have hscript := p.length_recoverScript
  have hcheck := hauth.length_script_le
  have hblock := s.control.length_bytes
  refine ⟨?_, ?_⟩
  · rw [witnessItems, List.length_append, List.length_cons]
    show _ + 1 + 2 ≤ 6
    omega
  · simp only [witnessItems, List.cons_append, List.forall_mem_cons, List.forall_mem_append]
    rw [hp.recoverScript_eq]
    exact ⟨hitem.trans (by decide), hpassing.2, by omega, by omega, by simp⟩

theorem Recovery.length_branch_source {trigger : Option Trigger} {v : Vault} {o : Outpoint}
    {s : Source} (h : source trigger v o = .ok s)
    (hkeeps : ∀ t, trigger = some t → ∀ b ∈ t.batches, b.KeepsRecoverLeaf) :
    s.control.branch.length = 1 := by
  unfold source at h
  by_cases ho : v.outpoint = some o
  · rw [if_pos ho] at h
    obtain ⟨f, c, -, hc, rfl⟩ := vaultSource_eq_ok_iff.mp h
    exact TaprootTree.length_branch_pair hc
  · rw [if_neg ho] at h
    obtain ⟨t, k, b, first, spent, script, c, rfl, hbatch, -, -, -, -, hc, rfl⟩ :=
      triggerSource_eq_ok_iff.mp h
    have hb := List.mem_iff_getElem?.mpr ⟨k, (Trigger.batchOf_eq_some hbatch).1⟩
    obtain ⟨members, targets, revault, faults, hbuild, -, -⟩ := hkeeps t rfl b hb
    obtain ⟨first', total, hmade⟩ := Batch.build_eq_ok hbuild
    exact hmade.length_branch hc

/-! ## Transactions -/

theorem Transaction.Moves.brief {tx : Transaction} {o : Outpoint} {outputs : List TxOut} {i : TxIn}
    (h : tx.Moves o outputs) (hi : tx.inputs[0]? = some i) (hscriptSig : i.scriptSig = Script.empty)
    (hwitness : i.witness.length ≤ 6 ∧ ∀ item ∈ i.witness, item.length ≤ 80)
    (houtputs : ∀ o ∈ outputs, o.scriptPubkey.bytes.length = 34) : tx.Brief := by
  have hlen : tx.inputs.length = 1 := by
    have hmap := congrArg List.length h.1
    rwa [List.length_map] at hmap
  obtain ⟨j, hj⟩ := List.length_eq_one_iff.mp hlen
  rw [hj] at hi
  cases hi
  exact ⟨⟨i, hj, hscriptSig, hwitness⟩, by rwa [h.2]⟩

theorem TaprootTree.length_of_mem_singleton {t : TaprootTree} {value : Sats} :
    ∀ o ∈ [TxOut.mk value t.scriptPubkey], o.scriptPubkey.bytes.length = 34 := by
  intro o ho
  rw [List.mem_singleton.mp ho]
  exact t.length_scriptPubkey

namespace Plan

section Parts

variable {v : Vault} {f : Funding} {b : Batch} {t : Trigger} {outputs : List TxOut}

theorem trigger_brief (hf : v.funding = .ok f)
    (hb : Batch.build [v] outputs none .none = .ok b) (ht : Trigger.build [b] none .none = .ok t) :
    t.tx.Brief := by
  obtain ⟨hmoves, -⟩ := trigger_moves hf hb ht
  obtain ⟨first, total, hmade⟩ := Batch.build_eq_ok hb
  obtain ⟨fundings, change, witnesses, htmade⟩ := Trigger.build_eq_ok ht
  have hmember : ([b].flatMap Batch.members)[0]? = some v := by
    rw [List.flatMap_singleton, hmade.members_eq]
    rfl
  obtain ⟨g, s, signature, control, -, -, -, hsign, hcontrol, hinput⟩ := htmade.input hmember
  refine hmoves.brief hinput rfl ⟨Nat.le_refl 6, ?_⟩ TaprootTree.length_of_mem_singleton
  exact Trigger.length_le_of_mem_witnessItems (length_of_signScriptPath hsign)
    (TaprootTree.length_branch_pair hcontrol)

theorem withdrawal_brief {o : Outpoint} {tx : Transaction}
    (hb : Batch.build [v] outputs none .none = .ok b)
    (htx : Withdrawal.build o b .none = .ok tx)
    (houtputs : ∀ o ∈ outputs, o.scriptPubkey.bytes.length = 34) : tx.Brief := by
  obtain ⟨first, total, hmade⟩ := Batch.build_eq_ok hb
  obtain ⟨c, hc⟩ := hmade.controlBlock_withdraw_isOk
  obtain ⟨tx', htx', hmoves⟩ := withdrawal_moves hb o
  obtain rfl : tx' = tx := Except.ok.inj (htx'.symm.trans htx)
  rw [Withdrawal.build_eq hmade hc] at htx
  have hscript : b.withdrawScript.bytes.length ≤ 46 := by
    rw [hmade.withdrawScript_eq]
    exact Batch.length_withdrawScriptFor_le _ _
  have hblock := c.length_bytes
  have hbranch := hmade.length_branch hc
  have hinputs : tx'.inputs = [Withdrawal.input o b c] := by
    rw [← Except.ok.inj htx]
    rfl
  refine hmoves.brief (i := Withdrawal.input o b c) (by rw [hinputs]; rfl) rfl
    ⟨Nat.le_add_left 2 4, ?_⟩ houtputs
  simp only [Withdrawal.input, List.forall_mem_cons]
  exact ⟨by omega, by omega, by simp⟩

/-- The recovery of a vault from where it is locked, or from a trigger of its own. -/
theorem recovery_brief {trigger : Option Trigger} {o : Outpoint} {r : Recovery}
    (hauth : v.policy.authorization.Simple)
    (hbatches : ∀ t, trigger = some t → ∀ b ∈ t.batches, ∃ outputs,
      Batch.build [v] outputs none .none = .ok b)
    (hr : Recovery.build ⟨[(v, o)], trigger, none, false, .none⟩ = .ok r) : r.tx.Brief := by
  obtain ⟨sources, swept, positions, change, witnesses, hmade⟩ := Recovery.build_eq_ok hr
  obtain ⟨s, hsource, rfl⟩ := Recovery.distinctSources_singleton_eq_ok rfl hmade.sources_eq
  have hkeeps : ∀ t, trigger = some t → ∀ b ∈ t.batches, b.KeepsRecoverLeaf := by
    intro t ht b hb
    obtain ⟨outputs, hbuild⟩ := hbatches t ht b hb
    exact ⟨_, _, _, _, hbuild, rfl, rfl⟩
  have hp : s.OfPolicy v.policy := by
    obtain ⟨w, hw, rfl | ⟨t, b, ht, hb, hcanonical⟩⟩ := Recovery.source_ofPolicy hsource hkeeps
    · exact hw
    · obtain ⟨outputs, hbuild⟩ := hbatches t ht b hb
      obtain ⟨first, total, hbmade⟩ := Batch.build_eq_ok hbuild
      rw [hbmade.canonical, ← Option.some.inj hbmade.first_eq] at hcanonical
      rwa [Except.ok.inj hcanonical]
  obtain ⟨r', hr', hmoves⟩ := Recovery.build_moves
    (r := ⟨[(v, o)], trigger, none, false, .none⟩) rfl rfl rfl rfl hsource
  obtain rfl : r' = r := Except.ok.inj (hr'.symm.trans hr)
  obtain ⟨passing, hpasses, hinput⟩ := hmade.input_creditedAt (i := 0) (s := s) rfl
  have hchange : change = none := (Except.ok.inj hmade.change_eq).symm
  have hposition : Recovery.creditedAt change swept s ≤ 0xffffffff := by
    obtain ⟨rfl, -⟩ := Prod.mk.inj (Except.ok.inj hmade.swept_eq)
    have hindex := List.idxOf_le_length (a := s.recoverySpk)
      (l := Recovery.scripts [⟨s.spent.value, s.recoverySpk⟩])
    rw [hchange]
    refine hindex.trans ?_
    show 1 ≤ 0xffffffff
    decide
  refine hmoves.brief hinput rfl ?_ ?_
  · exact Recovery.length_le_of_mem_witnessItems hp hauth
      (Recovery.length_branch_source hsource hkeeps) hpasses hposition
  · rw [hp.recoverySpk_eq]
    exact TaprootTree.length_of_mem_singleton

end Parts

/-! ## Plans -/

/-- The parts of a plan that was built. -/
structure Made (empty : Vault) (outpoint : Outpoint) (value : Sats) (parts : UInt64) (p : Plan)
    (f : Funding) (outputs : List TxOut) (t : Trigger) (fromVault fromTrigger : Recovery) :
    Prop where
  lock_eq : empty.lock (coin outpoint value) none = .ok (p.lock, p.vault)
  funding_eq : p.vault.funding = .ok f
  targets_eq : targets p.vault f.amount parts = .ok outputs
  batch_eq : Batch.build [p.vault] outputs none .none = .ok p.batch
  trigger_eq : Trigger.build [p.batch] none .none = .ok t
  outpoint_eq : t.outpoint 0 = .ok p.triggerOutpoint
  withdrawal_eq : Withdrawal.build p.triggerOutpoint p.batch .none = .ok p.withdrawal
  vaultRecovery_eq : Recovery.build ⟨[(p.vault, f.outpoint)], none, none, false, .none⟩ =
    .ok fromVault
  triggerRecovery_eq : Recovery.build ⟨[(p.vault, p.triggerOutpoint)], some t, none, false, .none⟩ =
    .ok fromTrigger
  txs_eq : p.trigger = t.tx ∧ p.vaultRecovery = fromVault.tx ∧ p.triggerRecovery = fromTrigger.tx

variable {empty : Vault} {outpoint : Outpoint} {value : Sats} {parts : UInt64} {p : Plan}

theorem build_eq_ok (h : build empty outpoint value parts = .ok p) :
    ∃ f outputs t fromVault fromTrigger,
      Made empty outpoint value parts p f outputs t fromVault fromTrigger := by
  obtain ⟨⟨lock, vault⟩, hlock, h⟩ := bind_eq_ok_iff.mp h
  obtain ⟨f, hf, h⟩ := bind_eq_ok_iff.mp h
  obtain ⟨outputs, houtputs, h⟩ := bind_eq_ok_iff.mp h
  obtain ⟨_, -, h⟩ := bind_eq_ok_iff.mp h
  obtain ⟨b, hb, h⟩ := bind_eq_ok_iff.mp h
  obtain ⟨t, ht, h⟩ := bind_eq_ok_iff.mp h
  obtain ⟨o, ho, h⟩ := bind_eq_ok_iff.mp h
  obtain ⟨withdrawal, hwithdrawal, h⟩ := bind_eq_ok_iff.mp h
  obtain ⟨request, hrequest, h⟩ := bind_eq_ok_iff.mp h
  obtain ⟨fromVault, hfromVault, h⟩ := bind_eq_ok_iff.mp h
  obtain ⟨fromTrigger, hfromTrigger, h⟩ := bind_eq_ok_iff.mp h
  cases h
  have hf := lift_eq_ok_iff.mp hf
  have hnamed : request = ⟨[(vault, f.outpoint)], none, none, false, .none⟩ := by
    obtain ⟨g, hg, hrequest⟩ := bind_eq_ok_iff.mp (lift_eq_ok_iff.mp hrequest)
    cases Except.ok.inj (hg.symm.trans hf)
    cases hrequest
    rfl
  exact ⟨f, outputs, t, fromVault, fromTrigger, lift_eq_ok_iff.mp hlock, hf, houtputs, hb,
    lift_eq_ok_iff.mp ht, lift_eq_ok_iff.mp ho, lift_eq_ok_iff.mp hwithdrawal, hnamed ▸ hfromVault,
    hfromTrigger, rfl, rfl, rfl⟩

variable {f : Funding} {outputs : List TxOut} {t : Trigger} {fromVault fromTrigger : Recovery}

theorem Made.lock_brief (h : Made empty outpoint value parts p f outputs t fromVault fromTrigger) :
    p.lock.Brief := by
  obtain ⟨total, -, heq⟩ := bind_eq_ok_iff.mp h.lock_eq
  obtain ⟨hlock, -⟩ := Prod.mk.inj (Except.ok.inj heq)
  have hmoves : p.lock.Moves outpoint [⟨total, empty.policy.vaultSpk⟩] := by
    rw [← hlock]
    exact ⟨rfl, rfl⟩
  have hinput : p.lock.inputs[0]? = some (TxIn.spending outpoint) := by
    rw [← hlock]
    rfl
  exact hmoves.brief hinput rfl ⟨Nat.zero_le 6, by simp [TxIn.spending]⟩
    TaprootTree.length_of_mem_singleton

theorem Made.length_targets
    (h : Made empty outpoint value parts p f outputs t fromVault fromTrigger) :
    ∀ o ∈ outputs, o.scriptPubkey.bytes.length = 34 := by
  have heq := h.targets_eq
  rw [Plan.targets_eq] at heq
  split at heq <;> cases heq
  intro o ho
  obtain ⟨part, -, rfl⟩ := List.mem_map.mp ho
  exact TaprootTree.length_scriptPubkey _

/-- All transactions of a plan are brief. -/
theorem Made.brief (h : Made empty outpoint value parts p f outputs t fromVault fromTrigger)
    (hauth : p.vault.policy.authorization.Simple) :
    ∀ step ∈ p.transactions, step.2.Brief := by
  obtain ⟨htrigger, hvaultRecovery, htriggerRecovery⟩ := h.txs_eq
  have hbatches : ∀ u, some t = some u → ∀ b ∈ u.batches, ∃ outputs,
      Batch.build [p.vault] outputs none .none = .ok b := by
    intro u hu b hb
    cases hu
    obtain ⟨_, _, _, hmade⟩ := Trigger.build_eq_ok h.trigger_eq
    rw [hmade.batches_eq, List.mem_singleton] at hb
    exact ⟨outputs, hb ▸ h.batch_eq⟩
  simp only [transactions, List.forall_mem_cons]
  refine ⟨h.lock_brief, ?_, withdrawal_brief h.batch_eq h.withdrawal_eq h.length_targets, ?_, ?_,
    by simp⟩
  · exact htrigger ▸ trigger_brief h.funding_eq h.batch_eq h.trigger_eq
  · exact hvaultRecovery ▸ recovery_brief hauth (by simp) h.vaultRecovery_eq
  · exact htriggerRecovery ▸ recovery_brief hauth hbatches h.triggerRecovery_eq

end Plan

end VaultCovenant
