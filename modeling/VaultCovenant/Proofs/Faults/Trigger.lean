import VaultCovenant.Proofs.Faults.Batch
import VaultCovenant.Proofs.Trigger.Build

/-!
# What one fault does to a trigger

A trigger whose batches, some or all, are built with one fault, and which is
itself built with that fault, against the trigger without faults. A fault that
shapes batches changes the outputs; the others change the witnesses.

Results:
* `Trigger.forall₂_outputs_eq`: the outputs of a trigger tell those of its
  batches.
* `Trigger.Made.witness_alike`: where two triggers of the same batches are the
  same, what their faults change in the witnesses coincides.
* `Trigger.fault_takes_effect`: the trigger with a fault differs.
-/

namespace VaultCovenant.Trigger

variable {batches batches' : List Batch} {fee : Option Coin} {faults faults' : FaultSet}
  {fault : Fault} {t t' : Trigger} {fundings fundings' : List Funding}
  {change change' : Option TxOut} {witnesses witnesses' : List (List Bytes)}

/-! ## Outputs -/

/-- Batches with as many outputs each can be told by all outputs together. -/
theorem forall₂_outputs_eq
    (hlen : List.Forall₂ (fun b b' => b'.outputs.length = b.outputs.length) batches batches')
    (h : batches'.flatMap Batch.outputs = batches.flatMap Batch.outputs) :
    List.Forall₂ (fun b b' => b'.outputs = b.outputs) batches batches' := by
  induction hlen with
  | nil => exact .nil
  | cons hb _ ih =>
    rw [List.flatMap_cons, List.flatMap_cons] at h
    obtain ⟨hfirst, hrest⟩ := List.append_inj h hb
    exact .cons hfirst (ih hrest)

theorem Made.outputs_alike (h : Made batches fee faults fundings change witnesses t)
    (h' : Made batches' fee faults' fundings' change' witnesses' t') (htx : t'.tx = t.tx) :
    batches'.flatMap Batch.outputs = batches.flatMap Batch.outputs := by
  have houtputs := congrArg Transaction.outputs htx
  obtain rfl : change = change' := Except.ok.inj (h.change_eq.symm.trans h'.change_eq)
  rw [h.outputs_eq, h'.outputs_eq, outputs, outputs] at houtputs
  exact List.append_cancel_left houtputs

/-! ## Witnesses -/

theorem Made.exists_spend (h : Made batches fee faults fundings change witnesses t) {k : ℕ}
    {b : Batch} (hb : batches[k]? = some b) {v : Vault} (hv : v ∈ b.members) :
    ∃ (i : ℕ) (s : Spend), (spends t.batches t.positions)[i]? = some s ∧ s.vault = v := by
  have hmem : v ∈ (spends t.batches t.positions).map Spend.vault := by
    rw [h.batches_eq, h.positions_eq, map_vault_spends]
    exact List.mem_flatMap.mpr ⟨b, List.mem_iff_getElem?.mpr ⟨k, hb⟩, hv⟩
  obtain ⟨s, hs, hvault⟩ := List.mem_map.mp hmem
  obtain ⟨i, hi⟩ := List.mem_iff_getElem?.mp hs
  exact ⟨i, s, hi, hvault⟩

/-- Where two triggers of the same batches are the same, both sign alike for
every member and name the same position. -/
theorem Made.witness_alike (h : Made batches fee faults fundings change witnesses t)
    (h' : Made batches fee faults' fundings' change' witnesses' t') (htx : t'.tx = t.tx) {i : ℕ}
    {s : Spend} (hs : (spends t.batches t.positions)[i]? = some s) :
    signScriptPath t.tx i (prevouts fundings fee) (leafHash s.vault.policy.triggerScript)
        (signer faults' s.vault) =
      signScriptPath t.tx i (prevouts fundings fee) (leafHash s.vault.policy.triggerScript)
        (signer faults s.vault) ∧
    faults'.contains .triggerVoutOffByOne = faults.contains .triggerVoutOffByOne := by
  obtain rfl : change = change' := Except.ok.inj (h.change_eq.symm.trans h'.change_eq)
  obtain rfl : fundings = fundings' := Except.ok.inj (h.fundings_eq.symm.trans h'.fundings_eq)
  rw [h.batches_eq, h.positions_eq] at hs
  obtain ⟨f, signature, control, -, hf, hsign, -, hinput⟩ := h.input_spend hs
  obtain ⟨f', signature', control', -, hf', hsign', -, hinput'⟩ := h'.input_spend hs
  cases hf.symm.trans hf'
  rw [htx, hinput] at hinput'
  have hwitness := congrArg TxIn.witness (Option.some.inj hinput')
  simp only [witnessItems, List.cons.injEq] at hwitness
  obtain ⟨-, hvout, -, hsignature, -⟩ := hwitness
  constructor
  · rw [h.tx_eq, Transaction.signScriptPath_withWitnesses,
      Transaction.signScriptPath_withWitnesses, hsign, hsign', hsignature]
  · have hskew := congrArg ScriptNumber.decode hvout
    rw [ScriptNumber.decode_encode, ScriptNumber.decode_encode, Int.add_right_inj] at hskew
    revert hskew
    cases faults.contains .triggerVoutOffByOne <;> cases faults'.contains .triggerVoutOffByOne <;>
      decide

/-! ## Faults -/

/-- The forging key signs for every member just as the member's own key. -/
def SignsAlike (t : Trigger) (spent : List TxOut) : Prop :=
  ∀ (i : ℕ) (s : Spend), (spends t.batches t.positions)[i]? = some s →
    signScriptPath t.tx i spent (leafHash s.vault.policy.triggerScript) forgingSecret =
      signScriptPath t.tx i spent (leafHash s.vault.policy.triggerScript)
        s.vault.policy.triggerSecret

/-- What has to coincide for a fault of a batch to leave a trigger as it is. -/
def Coincidence (t : Trigger) (spent : List TxOut) (b b' : Batch) : Fault → Prop
  | .triggerBadRecoveryCommitment =>
    b.tree.Confused b'.tree ∨
      ∃ first, b.canonical = .ok first ∧ first.policy.recoveryHash = Batch.bogusCommitment
  | .triggerBadSpendDelay | .triggerWithdrawLeafWrongOpcode | .triggerRecoverLeafWrongOpcode =>
    b.tree.Confused b'.tree
  | .triggerWrongKey => t.SignsAlike spent
  | _ => False

theorem coincidence_of_confused {spent : List TxOut} {b b' : Batch}
    (hleaf : fault.changesLeaf = true) (h : b.tree.Confused b'.tree) :
    t.Coincidence spent b b' fault := by
  cases fault with
  | triggerBadRecoveryCommitment => exact Or.inl h
  | triggerBadSpendDelay | triggerWithdrawLeafWrongOpcode | triggerRecoverLeafWrongOpcode => exact h
  | _ => cases hleaf

/-- Of the faults only those of the witnesses have an effect on a trigger once
its batches are there. -/
theorem build_congr
    (hvout : faults'.contains .triggerVoutOffByOne = faults.contains .triggerVoutOffByOne)
    (hkey : faults'.contains .triggerWrongKey = faults.contains .triggerWrongKey) :
    build batches fee faults' = build batches fee faults := by
  have hwitness : ∀ tx spent, witness tx spent faults' = witness tx spent faults := by
    intro tx spent
    funext index s
    unfold witness
    rw [hvout, hkey]
  unfold build
  simp only [witnessesFrom_eq_mapM, hwitness]

/-- Once the batches are there, faults do not keep a trigger from being
built. -/
theorem build_shaped_isOk (faults' : FaultSet)
    (hshaped : List.Forall₂ (fun b b' => b' = b ∨ b.Shaped fault b') batches batches')
    (h : build batches fee faults = .ok t) : ∃ t', build batches' fee faults' = .ok t' := by
  obtain ⟨fundings, change, witnesses, hmade⟩ := build_eq_ok h
  have hmembers : batches'.flatMap Batch.members = batches.flatMap Batch.members := by
    clear hmade h
    induction hshaped with
    | nil => rfl
    | cons hb _ ih =>
      rw [List.flatMap_cons, List.flatMap_cons, ih]
      rcases hb with rfl | hb
      · rfl
      · rw [hb.members_eq]
  exact build_isOk faults' (hmembers ▸ hmade.fundings_eq) hmade.change_eq

/-- A trigger with one fault differs from the one without, whichever of its
batches are built with the fault, as long as some batch with what the fault
needs is. -/
theorem fault_takes_effect (hstage : fault.stage = .trigger)
    (hshaped : List.Forall₂ (fun b b' => b' = b ∨ b.Shaped fault b') batches batches')
    (h : build batches fee .none = .ok t) (h' : build batches' fee (.only fault) = .ok t')
    (hfundings : Vault.fundings (batches.flatMap Batch.members) = .ok fundings) {k : ℕ}
    {b b' : Batch} (hb : batches[k]? = some b) (hb' : batches'[k]? = some b')
    (hbatch : b.Shaped fault b') (hadmits : b.Admits fault) :
    t'.tx ≠ t.tx ∨ t.Coincidence (prevouts fundings fee) b b' fault := by
  obtain ⟨_, change, witnesses, hmade⟩ := build_eq_ok h
  obtain ⟨_, change', witnesses', hmade'⟩ := build_eq_ok h'
  cases hfundings.symm.trans hmade.fundings_eq
  refine or_iff_not_imp_left.mpr fun htx => ?_
  rw [not_ne_iff] at htx
  by_cases hshapes : fault.shapesBatch = true
  · have houtputs : b'.outputs = b.outputs := by
      have hlen : List.Forall₂ (fun b b' => b'.outputs.length = b.outputs.length)
          batches batches' := by
        refine hshaped.imp ?_
        rintro b b' (rfl | hshaped)
        · rfl
        · exact hshaped.length_outputs
      obtain ⟨_, hget, houtputs⟩ :=
        forall₂_getElem? (forall₂_outputs_eq hlen (hmade.outputs_alike hmade' htx)) hb
      cases hget.symm.trans hb'
      exact houtputs
    rw [fault.shapesBatch_eq, Bool.or_eq_true] at hshapes
    rcases hshapes with hamount | hleaf
    · exact absurd houtputs (hbatch.outputs_ne_of_amount hamount hadmits)
    · rcases hbatch.triggerOutput_ne_of_leaf hleaf with hne | hconfused | ⟨rfl, hbogus⟩
      · exact absurd (List.cons.inj houtputs).1 hne
      · exact coincidence_of_confused hleaf hconfused
      · exact Or.inr hbogus
  · rw [Bool.not_eq_true] at hshapes
    obtain rfl : batches = batches' := by
      rw [← List.forall₂_eq_eq_eq]
      refine hshaped.imp ?_
      rintro b b' (rfl | hshaped)
      · rfl
      · exact (hshaped.eq_of_not_shapesBatch hshapes).symm
    rcases fault.eq_of_not_shapesBatch hstage hshapes with rfl | rfl
    · obtain ⟨v, hv⟩ := hbatch.exists_member
      obtain ⟨i, s, hs, -⟩ := hmade.exists_spend hb hv
      exact absurd (hmade.witness_alike hmade' htx hs).2 (by decide)
    · intro i s hs
      exact (hmade.witness_alike hmade' htx hs).1

end VaultCovenant.Trigger
