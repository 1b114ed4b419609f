import VaultCovenant.Proofs.Recovery.Check
import VaultCovenant.Proofs.Scenario.History
import VaultCovenant.Proofs.Trigger.Positions

/-!
# What a node has to grant

A vault stands where transactions have brought it that a node took. What these
transactions are is said here for every state, in terms of the calls to the
node alone.

Results:
* `triggeredAt_of_build`: the trigger of one batch spends every member into
  the trigger output.
* `Recovery.sweeps_of_build`: a recovery sweeps every outpoint to the script of
  the vault that names it first.
* `Trigger.returned_of_build`: value that returned is at an output of the
  trigger.
-/

namespace VaultCovenant

/-! ## Transactions that bring a vault to a state -/

/-- The position of the trigger output, as the witness of an input that is
triggered names it. -/
def TxIn.triggered? (i : TxIn) : Option ℤ := i.witness[1]?.bind ScriptNumber.decodeMinimal?

/-- An input of the transaction spends the outpoint and names an output with
the script. -/
def Transaction.Sweeps (tx : Transaction) (o : Outpoint) (spk : Script) : Prop :=
  ∃ i ∈ tx.inputs, i.previousOutput = o ∧
    ∃ (position : ℕ) (out : TxOut), i.named? = some (position : ℤ) ∧
      tx.outputs[position]? = some out ∧ out.scriptPubkey = spk

/-- A vault that came into being under the next name that was free. Either the
coin that the node handed out for it was locked in it and the node took the
transaction, or it was returned value by a trigger that the node took. -/
inductive Opened (name : ℕ → VaultId) (calls : History) : Vault → Prop
  | locked {v : Vault} (before after : History) (coin : Coin) (policy : Policy) (tx : Transaction)
      (txid : Txid) :
      calls = before ++ .spendableCoin (.ok coin) :: .broadcast tx (.ok (.accepted txid)) :: after →
      (Vault.empty (name (coins before).length) policy).lock coin none = .ok (tx, v) →
      Opened name calls v
  | returned {v : Vault} (before after : History) (t : Trigger) (txid : Txid) (b : Batch)
      (o : Outpoint) (out : TxOut) (vaults : List Vault) :
      calls = before ++ .broadcast t.tx (.ok (.accepted txid)) :: after →
      Trigger.build t.batches none .none = .ok t → b ∈ t.batches →
      b.revaultOutput = some out → v.outpoint = some o → v.output = some out →
      o.txid = t.tx.txid → t.tx.outputs[o.vout.toNat]? = some out →
      t.revaulted (fun k => name ((coins before).length + k)) = .ok vaults → v ∈ vaults →
      Opened name calls v

/-- The node took a trigger with a batch of which the vault is a member. It
spends the coin on record for the vault and names the trigger output of the
batch, which is at the outpoint. -/
structure TriggeredAt (calls : History) (v : Vault) (t : Trigger) (b : Batch) (o : Outpoint) :
    Prop where
  taken : t.tx ∈ accepted calls
  built : Trigger.build t.batches none .none = .ok t
  batch_built : ∃ targets revault, Batch.build b.members targets revault .none = .ok b
  reported : ∃ k, t.batches[k]? = some b ∧ t.outpoint k = .ok o
  member : v ∈ b.members
  spent : ∃ i ∈ t.tx.inputs, v.outpoint = some i.previousOutput ∧
    i.triggered? = some (o.vout.toNat : ℤ)
  paid : o.txid = t.tx.txid ∧ t.tx.outputs[o.vout.toNat]? = some b.triggerOutput

/-- What the node has to have granted for a vault with the id to stand in a
state. -/
def Granted (name : ℕ → VaultId) (calls : History) (id : VaultId) : VaultState → Prop
  | .unfunded => False
  | .vaulted => ∃ v, v.id = id ∧ Opened name calls v
  | .triggered => ∃ v t b o, v.id = id ∧ Opened name calls v ∧ TriggeredAt calls v t b o
  | .withdrawn => ∃ v t b o tx i, v.id = id ∧ Opened name calls v ∧ TriggeredAt calls v t b o ∧
      tx ∈ accepted calls ∧ Withdrawal.build o b .none = .ok tx ∧ tx.inputs = [i] ∧
      i.previousOutput = o
  | .recovered => ∃ v o tx, v.id = id ∧ Opened name calls v ∧
      (v.outpoint = some o ∨ ∃ t b, TriggeredAt calls v t b o) ∧
      tx ∈ accepted calls ∧ tx.Sweeps o v.policy.recoverySpk

/-! ## Triggers of one batch -/

section

variable {members : List Vault} {targets : List TxOut} {revault : Option Sats} {b : Batch}
  {t : Trigger} {o : Outpoint} {v : Vault} {calls : History}

/-- The trigger of one batch spends every member into the trigger output. -/
theorem triggeredAt_of_build (hb : Batch.build members targets revault .none = .ok b)
    (ht : Trigger.build [b] none .none = .ok t) (ho : t.outpoint 0 = .ok o) (hv : v ∈ members)
    (htaken : t.tx ∈ accepted calls) : TriggeredAt calls v t b o := by
  obtain ⟨first, total, hmade⟩ := Batch.build_eq_ok hb
  obtain ⟨fundings, change, witnesses, htmade⟩ := Trigger.build_eq_ok ht
  have hbatch : t.batches[0]? = some b := by
    rw [htmade.batches_eq]
    rfl
  refine ⟨htaken, ?_, ⟨targets, revault, ?_⟩, ⟨0, hbatch, ho⟩, ?_, ?_,
    htmade.outpoint (Trigger.length_outputs_singleton ht) hbatch ho⟩
  · rw [htmade.batches_eq]
    exact ht
  · rw [hmade.members_eq]
    exact hb
  · rw [hmade.members_eq]
    exact hv
  · -- all members of the one batch share its position
    obtain ⟨p, hp⟩ : ∃ p, Trigger.positionsFrom change.toList.length [b] = [p] := ⟨_, rfl⟩
    have hspends : Trigger.spends [b] (Trigger.positionsFrom change.toList.length [b]) =
        members.map fun w => ⟨w, b, p⟩ := by
      simp [Trigger.spends, hp, hmade.members_eq]
    obtain ⟨k, hk⟩ := List.mem_iff_getElem?.mp hv
    obtain ⟨i, first, second, signature, leaf, control, hi, hspent, hwitness, -, hsecond⟩ :=
      htmade.input_places (i := k) (s := ⟨v, b, _⟩) (by rw [hspends, List.getElem?_map, hk]; rfl)
    refine ⟨i, List.mem_iff_getElem?.mpr ⟨k, hi⟩, hspent, ?_⟩
    rw [Trigger.outpoint_of_position (p := p) (by rw [htmade.positions_eq, hp]; rfl)] at ho
    cases ho
    unfold TxIn.triggered?
    rw [hwitness]
    exact hsecond

theorem Trigger.exists_outpoint_singleton (ht : Trigger.build [b] none .none = .ok t) :
    ∃ o, t.outpoint 0 = .ok o := by
  obtain ⟨fundings, change, witnesses, hmade⟩ := build_eq_ok ht
  exact hmade.exists_outpoint rfl

/-! ## Value that returned -/

/-- A vault to which value returned has an output of the trigger on record. -/
theorem Trigger.returned_of_build (ht : Trigger.build [b] none .none = .ok t)
    {ids : ℕ → VaultId} {vaults : List Vault} (hvaults : t.revaulted ids = .ok vaults)
    (hv : v ∈ vaults) :
    ∃ o out, b.revaultOutput = some out ∧ v.outpoint = some o ∧ v.output = some out ∧
      o.txid = t.tx.txid ∧ t.tx.outputs[o.vout.toNat]? = some out := by
  obtain ⟨fundings, change, witnesses, hmade⟩ := build_eq_ok ht
  obtain ⟨⟨b', o, out⟩, hr, first, -, -, hfunding⟩ :=
    forall₂_mem_right (revaulted_keeps hvaults) hv
  obtain ⟨hvo, hvout, -⟩ := Vault.funding_eq_ok_iff.mp hfunding
  obtain ⟨k, hk, ho, hout⟩ := mem_returns.mp hr
  obtain ⟨htxid, out', hout', hget⟩ :=
    hmade.revaultOutpoint (length_outputs_singleton ht) hk ho
  have hb' : b' = b := by
    have hmem := List.mem_iff_getElem?.mpr ⟨k, hk⟩
    rw [hmade.batches_eq] at hmem
    exact List.mem_singleton.mp hmem
  rw [hout] at hout'
  cases hout'
  exact ⟨o, out, hb' ▸ hout, hvo, hvout, htxid, hget⟩

/-- The vaults to which value returned are named in order. -/
theorem Trigger.map_id_revaulted {ids : ℕ → VaultId} {vaults : List Vault}
    (h : t.revaulted ids = .ok vaults) :
    vaults.map Vault.id = (List.range t.returns.length).map ids := by
  have hall := mapM_eq_ok_iff.mp h
  have hlen := hall.length_eq
  rw [List.length_zipIdx] at hlen
  apply List.ext_getElem?
  intro k
  rw [List.getElem?_map, List.getElem?_map]
  by_cases hk : k < t.returns.length
  · obtain ⟨w, hw, hok⟩ := forall₂_getElem? hall (i := k) (x := (t.returns[k], k))
      (by rw [List.getElem?_zipIdx, List.getElem?_eq_getElem hk]; simp)
    obtain ⟨first, -, hok⟩ := bind_eq_ok_iff.mp hok
    cases hok
    rw [hw, List.getElem?_range hk]
    rfl
  · rw [List.getElem?_eq_none (by omega), List.getElem?_eq_none (by simpa using hk)]
    rfl

end

/-! ## Recoveries -/

namespace Recovery

variable {r : RecoveryRequest} {recovery : Recovery} {v : Vault} {o : Outpoint} {s : Source}

/-- Every outpoint is swept to the script of the source that is found for the
vault that names it first. -/
theorem sweeps_of_build (h : build r = .ok recovery) (hfaults : r.faults = .none)
    (hv : (v, o) ∈ r.sources) :
    ∃ w s, r.sources.find? (fun p => p.2 = o) = some (w, o) ∧ source r.trigger w o = .ok s ∧
      recovery.tx.Sweeps o s.recoverySpk := by
  obtain ⟨sources, swept, positions, change, witnesses, hmade⟩ := build_eq_ok h
  have hmem : o ∈ (r.sources.map Prod.snd).eraseDups :=
    List.mem_eraseDups.mpr (List.mem_map_of_mem hv)
  obtain ⟨k, hk⟩ := List.mem_iff_getElem?.mp hmem
  obtain ⟨_, hc, w, s, hfind, hsource, rfl⟩ :=
    forall₂_getElem? (distinctSources_eq_ok hmade.sources_eq) hk
  obtain ⟨i, hi, hspent, hnamed, -⟩ := hmade.input_named hfaults hc
  obtain ⟨-, out, -, -, hout, hscript⟩ :=
    hmade.creditedAt hfaults (List.mem_iff_getElem?.mpr ⟨k, hc⟩)
  rw [(source_eq_ok hsource).1] at hspent
  exact ⟨w, s, hfind, hsource, i, List.mem_iff_getElem?.mpr ⟨k, hi⟩, hspent, _, out, hnamed, hout,
    hscript⟩

theorem recoverySpk_of_own {trigger : Option Trigger} (ho : v.outpoint = some o)
    (h : source trigger v o = .ok s) : s.recoverySpk = v.policy.recoverySpk := by
  unfold source at h
  rw [if_pos ho] at h
  obtain ⟨f, c, -, -, rfl⟩ := vaultSource_eq_ok_iff.mp h
  rfl

theorem recoverySpk_of_triggered {targets : List TxOut} {revault : Option Sats} {b : Batch}
    {t : Trigger} (hb : Batch.build [v] targets revault .none = .ok b)
    (ht : Trigger.build [b] none .none = .ok t) (h : source (some t) v o = .ok s) :
    s.recoverySpk = v.policy.recoverySpk := by
  by_cases ho : v.outpoint = some o
  · exact recoverySpk_of_own ho h
  · unfold source at h
    rw [if_neg ho] at h
    obtain ⟨t', k, b', first, spent, script, c, ht', hbatch, -, hfirst, -, -, -, rfl⟩ :=
      triggerSource_eq_ok_iff.mp h
    cases ht'
    obtain ⟨fundings, change, witnesses, htmade⟩ := Trigger.build_eq_ok ht
    obtain ⟨first', total, hmade⟩ := Batch.build_eq_ok hb
    have hmem := List.mem_iff_getElem?.mpr ⟨k, (Trigger.batchOf_eq_some hbatch).1⟩
    rw [htmade.batches_eq, List.mem_singleton] at hmem
    rw [hmem, hmade.canonical] at hfirst
    cases hfirst
    rw [← Option.some.inj hmade.first_eq]

/-- One vault alone is swept to its own script. -/
theorem sweeps_singleton (h : build r = .ok recovery) (hfaults : r.faults = .none)
    (hsources : r.sources = [(v, o)])
    (hspk : ∀ s, source r.trigger v o = .ok s → s.recoverySpk = v.policy.recoverySpk) :
    recovery.tx.Sweeps o v.policy.recoverySpk := by
  have hv : (v, o) ∈ r.sources := by
    rw [hsources]
    exact List.mem_singleton_self _
  obtain ⟨w, s, hfind, hsource, hsweeps⟩ := sweeps_of_build h hfaults hv
  have hw := List.mem_of_find?_eq_some hfind
  rw [hsources, List.mem_singleton] at hw
  cases hw
  rw [← hspk s hsource]
  exact hsweeps

/-- If all vaults but the last are swept to one script, and there is more than
one output beside the change, then nobody names the outpoint of the last vault
before it. -/
theorem find?_last (h : build r = .ok recovery) (hfaults : r.faults = .none)
    (hanchor : r.anchor = false) {front : List (Vault × Outpoint)} {spk : Script}
    (hsources : r.sources = front ++ [(v, o)])
    (hfront : ∀ p ∈ front, ∀ s, source r.trigger p.1 p.2 = .ok s → s.recoverySpk = spk)
    (hlen : r.fee.toList.length + 1 < recovery.tx.outputs.length) :
    r.sources.find? (fun p => p.2 = o) = some (v, o) := by
  obtain ⟨sources, swept, positions, change, witnesses, hmade⟩ := build_eq_ok h
  cases hfind : front.find? fun p => p.2 = o with
  | none =>
    rw [hsources, List.find?_append, hfind]
    simp
  | some p =>
    exfalso
    -- then every source is found among the others, and there is one output
    have hone : ∀ c ∈ sources, c.recoverySpk = spk := by
      intro c hc
      obtain ⟨o', -, w, s, hw, hsource, rfl⟩ :=
        forall₂_mem_right (distinctSources_eq_ok hmade.sources_eq) hc
      rw [hsources, List.find?_append] at hw
      cases hw' : front.find? fun p => p.2 = o' with
      | some p' =>
        rw [hw'] at hw
        cases hw
        exact hfront _ (List.mem_of_find?_eq_some hw') s hsource
      | none =>
        rw [hw', Option.none_or] at hw
        have hlast := List.mem_of_find?_eq_some hw
        rw [List.mem_singleton] at hlast
        cases hlast
        rw [hfind] at hw'
        cases hw'
    have hscripts : (scripts swept).length ≤ 1 := by
      rw [hmade.scripts_swept]
      have hsub : (sources.map Source.recoverySpk).eraseDups ⊆ [spk] := by
        intro script hscript
        obtain ⟨c, hc, rfl⟩ := List.mem_map.mp (List.mem_eraseDups.mp hscript)
        exact List.mem_singleton.mpr (hone c hc)
      exact (List.subperm_of_subset (nodup_eraseDups _) hsub).length_le
    have hchange : change.toList.length = r.fee.toList.length := by
      rcases hmade.changed with ⟨hfee, rfl, -⟩ | ⟨coin, value, hfee, rfl, -⟩ <;> rw [hfee] <;> rfl
    have houtputs := (hmade.payouts_eq hfaults).2
    rw [hanchor, if_neg Bool.false_ne_true, List.append_nil] at houtputs
    rw [houtputs, List.length_append, hchange] at hlen
    rw [scripts, List.length_map] at hscripts
    omega

/-- Behind vaults that are all swept to one script, a last vault with an output
of its own is swept to its own script. -/
theorem sweeps_of_last (h : build r = .ok recovery) (hfaults : r.faults = .none)
    (hanchor : r.anchor = false) {front : List (Vault × Outpoint)} {spk : Script}
    (hsources : r.sources = front ++ [(v, o)])
    (hfront : ∀ p ∈ front, ∀ s, source r.trigger p.1 p.2 = .ok s → s.recoverySpk = spk)
    (hlen : r.fee.toList.length + 1 < recovery.tx.outputs.length) (ho : v.outpoint = some o) :
    recovery.tx.Sweeps o v.policy.recoverySpk := by
  have hmem : (v, o) ∈ r.sources := by
    rw [hsources]
    exact List.mem_append_right _ (List.mem_singleton_self _)
  obtain ⟨u, s, hu, hsource, hsweeps⟩ := sweeps_of_build h hfaults hmem
  rw [find?_last h hfaults hanchor hsources hfront hlen] at hu
  cases hu
  rw [← recoverySpk_of_own ho hsource]
  exact hsweeps

/-- Vaults that come first and are all swept to one script are swept to that
script, whoever else names their outpoints. -/
theorem sweeps_of_front (h : build r = .ok recovery) (hfaults : r.faults = .none)
    {front rest : List (Vault × Outpoint)} {spk : Script} (hsources : r.sources = front ++ rest)
    (hfront : ∀ p ∈ front, ∀ s, source r.trigger p.1 p.2 = .ok s → s.recoverySpk = spk)
    (hv : (v, o) ∈ front) : recovery.tx.Sweeps o spk := by
  have hmem : (v, o) ∈ r.sources := by
    rw [hsources]
    exact List.mem_append_left _ hv
  obtain ⟨u, s, hfind, hsource, hsweeps⟩ := sweeps_of_build h hfaults hmem
  rw [hsources, List.find?_append] at hfind
  cases hu : front.find? fun p => p.2 = o with
  | none => exact absurd (decide_eq_true rfl) (List.find?_eq_none.mp hu (v, o) hv)
  | some p =>
    rw [hu] at hfind
    cases hfind
    rw [← hfront _ (List.mem_of_find?_eq_some hu) s hsource]
    exact hsweeps

end Recovery

end VaultCovenant
