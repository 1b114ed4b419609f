import VaultCovenant.Proofs.Recovery.Build
import VaultCovenant.Proofs.Session
import VaultCovenant.Proofs.Withdrawal

/-!
# Spending through scripts

Whatever is triggered, withdrawn or recovered in a session, the witness opens
the output that is spent: it shows a leaf of that output and a control block
that leads from the leaf to the output's key.

Results:
* `Session.Reachable.spends_open`: in every session that can be reached, every
  input of a vault or of a trigger output opens what it spends.
-/

namespace VaultCovenant

/-- The input spends an output of one of the transactions and opens it. -/
def TxIn.OpensIn (transactions : List Transaction) (i : TxIn) : Prop :=
  ∃ out, CreatedAt transactions i.previousOutput out ∧ OpensOutput i.witness out.scriptPubkey

namespace Session

variable {s : Session}

/-! ## Triggers -/

theorem Coherent.member_opens (h : s.Coherent) {v : Vault} (hv : v ∈ s.vaults) {f : Funding}
    (hf : v.funding = .ok f) {control : ControlBlock}
    (hc : v.policy.tree.controlBlock triggerLeaf = .ok control) {i : TxIn}
    (hprevious : i.previousOutput = f.outpoint)
    (hwitness : ∃ front, i.witness = front ++ [v.policy.triggerScript.bytes, control.bytes]) :
    i.OpensIn s.transactions := by
  obtain ⟨hout, hcreated⟩ := (h.recorded v hv).output hf
  obtain ⟨front, hwitness⟩ := hwitness
  refine ⟨f.output, hprevious ▸ hcreated, ?_⟩
  rw [hwitness, hout]
  exact Policy.opens_trigger hc front

theorem Coherent.trigger_opens (h : s.Coherent) {batches : List Batch} {fee : Option Coin}
    {faults : FaultSet} {t : Trigger} (hbatches : ∀ b ∈ batches, b.BuiltFrom s.vaults)
    (hbuild : Trigger.build batches fee faults = .ok t) :
    ∃ spending, t.tx.inputs = spending ++ (fee.map Coin.input).toList ∧
      List.Forall₂ (fun v i => v.outpoint = some i.previousOutput ∧ i.OpensIn s.transactions)
        (batches.flatMap Batch.members) spending := by
  obtain ⟨fundings, change, witnesses, hmade⟩ := Trigger.build_eq_ok hbuild
  refine ⟨_, hmade.inputs_eq, forall₂_of_getElem? ?_ ?_⟩
  · have := (Vault.fundings_eq_ok_iff.mp hmade.fundings_eq).length_eq
    rw [Transaction.length_attach, List.length_map]
    exact this
  · intro i _ hv
    obtain ⟨f, spend, signature, control, hf, hfi, rfl, -, hcontrol, hinput⟩ := hmade.input hv
    have hmember : spend.vault ∈ s.vaults := by
      obtain ⟨b, hb, hvb⟩ := List.mem_flatMap.mp (List.mem_iff_getElem?.mpr ⟨i, hv⟩)
      exact (hbatches b hb).member hvb
    have hi : i < fundings.length := (List.getElem?_eq_some_iff.mp hfi).1
    rw [hmade.inputs_eq, List.getElem?_append_left (by simpa using hi)] at hinput
    refine ⟨_, hinput, (Vault.funding_eq_ok_iff.mp hf).1, ?_⟩
    exact h.member_opens hmember hf hcontrol rfl
      (Trigger.witnessItems_eq faults spend signature control)

/-! ## Withdrawals -/

theorem Coherent.withdrawal_opens (h : s.Coherent) {t : Trigger} (ht : t ∈ s.triggers) {k : ℕ}
    {b : Batch} {o : Outpoint} {faults : FaultSet} {tx : Transaction}
    (hb : t.batches[k]? = some b) (ho : t.outpoint k = .ok o)
    (hbuild : Withdrawal.build o b faults = .ok tx) :
    ∃ i, tx.inputs = [i] ∧ i.previousOutput = o ∧ i.OpensIn s.transactions := by
  obtain ⟨hid, hout⟩ := (h.built t ht).outpoint hb ho
  obtain ⟨_, _, _, _, _, _, -, hmade⟩ := ((h.built t ht).batch hb).made
  obtain ⟨i, c, hinputs, hprevious, hc, hwitness⟩ := Withdrawal.build_input hmade hbuild
  refine ⟨i, hinputs, hprevious, b.triggerOutput, ?_, ?_⟩
  · rw [hprevious]
    exact ⟨t.tx, h.sent t ht, hid.symm, hout⟩
  · rw [hwitness]
    exact hmade.opens hc hmade.leafScript_withdraw []

/-! ## Recoveries -/

/-- A source is an output of the session, and its recover leaf opens it. -/
theorem Coherent.source_opens (h : s.Coherent) {v : Vault} (hv : v ∈ s.vaults)
    {trigger : Option Trigger} (ht : ∀ t, trigger = some t → t ∈ s.triggers) {o : Outpoint}
    {source : Recovery.Source} (hsource : Recovery.source trigger v o = .ok source)
    (front : List Bytes) :
    CreatedAt s.transactions o source.spent ∧
      OpensOutput (front ++ [source.recoverScript.bytes, source.control.bytes])
        source.spent.scriptPubkey := by
  unfold Recovery.source at hsource
  by_cases ho : v.outpoint = some o
  · rw [if_pos ho] at hsource
    obtain ⟨f, c, hf, hc, rfl⟩ := Recovery.vaultSource_eq_ok_iff.mp hsource
    obtain ⟨hfo, -⟩ := Vault.funding_eq_ok_iff.mp hf
    rw [ho] at hfo
    cases hfo
    obtain ⟨hout, hcreated⟩ := (h.recorded v hv).output hf
    refine ⟨hcreated, ?_⟩
    show OpensOutput _ f.output.scriptPubkey
    rw [hout]
    exact Policy.opens_recover hc front
  · rw [if_neg ho] at hsource
    obtain ⟨t, k, b, first, spent, script, c, rfl, hbatch, hto, -, hspent, hscript, hc, rfl⟩ :=
      Recovery.triggerSource_eq_ok_iff.mp hsource
    have htrigger := ht t rfl
    obtain ⟨hb, -⟩ := Trigger.batchOf_eq_some hbatch
    obtain ⟨hid, hout⟩ := (h.built t htrigger).outpoint hb hto
    rw [hspent] at hout
    cases hout
    refine ⟨⟨t.tx, h.sent t htrigger, hid.symm, hspent⟩, ?_⟩
    obtain ⟨_, _, _, _, _, _, -, hmade⟩ := ((h.built t htrigger).batch hb).made
    exact hmade.opens hc hscript front

theorem Coherent.recovery_opens (h : s.Coherent) {r : RecoveryRequest}
    (hvaults : ∀ p ∈ r.sources, p.1 ∈ s.vaults)
    (ht : ∀ t, r.trigger = some t → t ∈ s.triggers) {recovery : Recovery}
    (hbuild : Recovery.build r = .ok recovery) :
    ∃ spending, recovery.tx.inputs = spending ++ (r.fee.map Coin.input).toList ∧
      List.Forall₂ (fun o i => i.previousOutput = o ∧ i.OpensIn s.transactions)
        (r.sources.map Prod.snd).eraseDups spending := by
  obtain ⟨sources, swept, positions, change, witnesses, hmade⟩ := Recovery.build_eq_ok hbuild
  have hsources := Recovery.distinctSources_eq_ok hmade.sources_eq
  refine ⟨_, hmade.inputs_eq, forall₂_of_getElem? ?_ ?_⟩
  · rw [Transaction.length_attach, List.length_map]
    exact hsources.length_eq
  · intro k o ho
    obtain ⟨source, hsource, v, source', hfind, hresolved, rfl⟩ := forall₂_getElem? hsources ho
    obtain ⟨position, passing, -, hinput⟩ := hmade.input hsource
    have hk : k < sources.length := (List.getElem?_eq_some_iff.mp hsource).1
    rw [hmade.inputs_eq, List.getElem?_append_left (by simpa using hk)] at hinput
    have hv : v ∈ s.vaults := hvaults (v, o) (List.mem_of_find?_eq_some hfind)
    obtain ⟨hcreated, hopens⟩ := h.source_opens hv ht hresolved
      (ScriptNumber.encode (position + if r.faults.contains .recoveryVoutOffByOne then 1 else 0)
        :: passing)
    have houtpoint := (Recovery.source_eq_ok hresolved).1
    refine ⟨_, hinput, houtpoint, source'.spent, ?_, hopens⟩
    show CreatedAt _ source'.outpoint _
    rw [houtpoint]
    exact hcreated

/-! ## Everything a session can build -/

/-- Every input that spends through a script opens the output it spends: those
of the members of any trigger, that of the withdrawal of any batch that was
triggered, and those of any recovery, of vaults and of trigger outputs alike. -/
theorem Reachable.spends_open (h : s.Reachable) :
    (∀ batches fee faults t, (∀ b ∈ batches, b.BuiltFrom s.vaults) →
      Trigger.build batches fee faults = .ok t →
      ∃ spending, t.tx.inputs = spending ++ (fee.map Coin.input).toList ∧
        List.Forall₂ (fun v i => v.outpoint = some i.previousOutput ∧ i.OpensIn s.transactions)
          (batches.flatMap Batch.members) spending) ∧
    (∀ t ∈ s.triggers, ∀ k b o faults tx, t.batches[k]? = some b → t.outpoint k = .ok o →
      Withdrawal.build o b faults = .ok tx →
      ∃ i, tx.inputs = [i] ∧ i.previousOutput = o ∧ i.OpensIn s.transactions) ∧
    (∀ r recovery, (∀ p ∈ r.sources, p.1 ∈ s.vaults) →
      (∀ t, r.trigger = some t → t ∈ s.triggers) → Recovery.build r = .ok recovery →
      ∃ spending, recovery.tx.inputs = spending ++ (r.fee.map Coin.input).toList ∧
        List.Forall₂ (fun o i => i.previousOutput = o ∧ i.OpensIn s.transactions)
          (r.sources.map Prod.snd).eraseDups spending) :=
  ⟨fun _ _ _ _ hbatches hbuild => h.coherent.trigger_opens hbatches hbuild,
    fun _ ht _ _ _ _ _ hb ho hbuild => h.coherent.withdrawal_opens ht hb ho hbuild,
    fun _ _ hvaults ht hbuild => h.coherent.recovery_opens hvaults ht hbuild⟩

/-- A coin is locked, part of it triggered and the rest collected; then the
trigger output is withdrawn, or recovered. -/
theorem spends_open_after_return :
    ∃ (s : Session) (t : Trigger) (b : Batch) (v : Vault) (o : Outpoint) (withdrawal : Transaction)
      (recovery : Recovery),
      s.Reachable ∧ t ∈ s.triggers ∧ t.batches = [b] ∧ b.members = [v] ∧ t.outpoint 0 = .ok o ∧
      Withdrawal.build o b .none = .ok withdrawal ∧
      Recovery.build { sources := [(v, o)], trigger := some t } = .ok recovery ∧
      (∃ i, t.tx.inputs = [i] ∧ v.outpoint = some i.previousOutput ∧ i.OpensIn s.transactions) ∧
      (∃ i, withdrawal.inputs = [i] ∧ i.previousOutput = o ∧ i.OpensIn s.transactions) ∧
      ∃ i, recovery.tx.inputs = [i] ∧ i.previousOutput = o ∧ i.OpensIn s.transactions := by
  -- the coin and its trigger
  have hstart : start.Reachable := .refl
  obtain ⟨s, v, f, hs, hv, -, hf, hamount⟩ := hstart.lock 7 {}
    ⟨TxIn.spending Outpoint.null, ⟨1000000, Script.anyone⟩⟩ none (by decide) (by decide)
    (by decide)
  have hpart : 200000 ≤ f.amount := by
    rw [hamount]
    decide
  obtain ⟨b, t, hb, ht, hbuilt, hs'⟩ := hs.trigger hv hf hpart [⟨700000, Script.anyone⟩]
  obtain ⟨returned, hreturned⟩ := hbuilt.revaulted_isOk fun k => UInt64.ofNat (8 + k)
  have hs'' : Reachable _ := hs'.tail (.collect List.mem_cons_self hreturned)
  obtain ⟨first, total, hbmade⟩ := Batch.build_eq_ok hb
  obtain ⟨_, _, _, hmade⟩ := Trigger.build_eq_ok ht
  have hbatch : t.batches[0]? = some b := by
    rw [hmade.batches_eq]
    rfl
  obtain ⟨o, ho⟩ : ∃ o, t.outpoint 0 = .ok o := by
    unfold Trigger.outpoint
    rw [hmade.positions_eq]
    exact ⟨_, rfl⟩
  -- what spends the trigger output
  obtain ⟨withdrawal, hwithdrawal⟩ := Withdrawal.build_isOk o .none hbmade
  have hof : t.batchOf v.id = some (0, b) := by
    unfold Trigger.batchOf Batch.contains Batch.memberIds
    rw [hmade.batches_eq]
    simp [hbmade.members_eq]
  obtain ⟨source, hsource⟩ : ∃ source, Recovery.source (some t) v o = .ok source := by
    unfold Recovery.source
    by_cases hvo : v.outpoint = some o
    · rw [if_pos hvo]
      exact Recovery.vaultSource_isOk hf
    · rw [if_neg hvo]
      exact Recovery.triggerSource_isOk hbmade hof ho (hbuilt.outpoint hbatch ho).2
  obtain ⟨recovery, hrecovery⟩ :=
    Recovery.build_singleton_isOk (r := { sources := [(v, o)], trigger := some t }) rfl hsource rfl
  -- all three open what they spend
  obtain ⟨htriggers, hwithdraws, hrecovers⟩ := hs''.spends_open
  have hfrom : b.BuiltFrom (returned ++ s.vaults) :=
    ⟨[v], _, _, _, by simpa using List.mem_append_right returned hv, hb⟩
  obtain ⟨spending, hinputs, hopen⟩ := htriggers [b] none .none t (by simpa using hfrom) ht
  obtain ⟨spending', hinputs', hopen'⟩ := hrecovers _ recovery
    (by simpa using List.mem_append_right returned hv) (by simp) hrecovery
  simp only [List.flatMap_cons, List.flatMap_nil, hbmade.members_eq, List.append_nil] at hopen
  obtain ⟨i, _, hi, hnil, rfl⟩ := List.forall₂_cons_left_iff.mp hopen
  obtain ⟨i', _, hi', hnil', rfl⟩ := List.forall₂_cons_left_iff.mp hopen'
  cases hnil
  cases hnil'
  exact ⟨_, t, b, v, o, withdrawal, recovery, hs'', List.mem_cons_self, hmade.batches_eq,
    hbmade.members_eq, ho, hwithdrawal, hrecovery, ⟨i, hinputs, hi⟩,
    hwithdraws t List.mem_cons_self 0 b o .none withdrawal hbatch ho hwithdrawal,
    i', hinputs', hi'⟩

end Session

end VaultCovenant
