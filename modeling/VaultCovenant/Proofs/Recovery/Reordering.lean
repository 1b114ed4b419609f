import VaultCovenant.Proofs.Paying.Recovery
import VaultCovenant.Proofs.Recovery.Several

/-!
# The order of the sources

A recovery takes its sources as they are listed: an outpoint is resolved as by
the vault that names it first, and a script gets its output when it is first
asked for. In another order the inputs and the outputs stand elsewhere, and so
do the positions that are reported; but what is spent, what every script is
paid and what every vault is credited stay the same, as long as the vaults
that name one outpoint resolve it alike.

Results:
* `Recovery.holdings_perm`: the same outpoints are spent, resolved alike.
* `Recovery.alike_of_batchOf`: vaults of one batch agree about its trigger
  output.
* `Recovery.swept_eq`, `Recovery.Made.reports`: the outputs and the report of
  a recovery, by what its sources claim.
* `Recovery.build_isOk_iff`: when a recovery is built.
* `Recovery.build_reordered`: two orders of the same sources.
-/

namespace VaultCovenant.Recovery

/-! ## What is spent -/

/-- Of a source, what says where its value comes from and goes to. -/
structure Holding where
  outpoint : Outpoint
  spent : TxOut
  recoverySpk : Script

/-- Where the value of a source comes from and goes to. -/
def Source.holding (s : Source) : Holding := ⟨s.outpoint, s.spent, s.recoverySpk⟩

/-- Vaults that name one outpoint resolve it to one output and one recovery
script, where they resolve it. -/
def Agrees (r : RecoveryRequest) : Prop :=
  ∀ p ∈ r.sources, ∀ q ∈ r.sources, p.2 = q.2 →
    ∀ s s', source r.trigger p.1 p.2 = .ok s → source r.trigger q.1 q.2 = .ok s' →
      s.spent = s'.spent ∧ s.recoverySpk = s'.recoverySpk

section

variable {r : RecoveryRequest} {named : List (Vault × Outpoint)} {sources sources' : List Source}

theorem Agrees.perm (h : Agrees r) (hperm : named.Perm r.sources) :
    Agrees { r with sources := named } :=
  fun p hp q hq => h p (hperm.subset hp) q (hperm.subset hq)

/-- Where the vaults agree, it does not matter which of them names an outpoint
first. -/
theorem mem_holdings_iff (hagree : Agrees r) (h : distinctSources r = .ok sources) {c : Holding} :
    c ∈ sources.map Source.holding ↔
      ∃ p ∈ r.sources, ∃ s, source r.trigger p.1 p.2 = .ok s ∧ s.holding = c := by
  have hall := distinctSources_eq_ok h
  constructor
  · intro hc
    obtain ⟨s, hs, rfl⟩ := List.mem_map.mp hc
    obtain ⟨o, -, v, s', hfind, hsource, rfl⟩ := forall₂_mem_right hall hs
    exact ⟨(v, o), List.mem_of_find?_eq_some hfind, s', hsource, rfl⟩
  · rintro ⟨p, hp, s, hs, rfl⟩
    have ho : p.2 ∈ (r.sources.map Prod.snd).eraseDups :=
      List.mem_eraseDups.mpr (List.mem_map_of_mem hp)
    obtain ⟨first, hfirst, v, s', hfind, hsource, rfl⟩ := forall₂_mem_right hall.flip ho
    obtain ⟨hspent, hspk⟩ := hagree p hp (v, p.2) (List.mem_of_find?_eq_some hfind) rfl s s' hs
      hsource
    have hsame : s.holding = s'.holding := by
      unfold Source.holding
      rw [(source_eq_ok hs).1, (source_eq_ok hsource).1, hspent, hspk]
    rw [hsame]
    exact List.mem_map.mpr ⟨_, hfirst, rfl⟩

theorem nodup_holdings (h : distinctSources r = .ok sources) :
    (sources.map Source.holding).Nodup := by
  refine List.Nodup.of_map Holding.outpoint ?_
  have hmap : (sources.map Source.holding).map Holding.outpoint =
      (r.sources.map Prod.snd).eraseDups := by
    rw [List.map_map]
    exact map_outpoint_distinctSources h
  rw [hmap]
  exact nodup_eraseDups _

/-- In another order the same outpoints are spent, and resolved alike. -/
theorem holdings_perm (hagree : Agrees r) (hperm : named.Perm r.sources)
    (h : distinctSources r = .ok sources)
    (h' : distinctSources { r with sources := named } = .ok sources') :
    (sources.map Source.holding).Perm (sources'.map Source.holding) := by
  rw [List.perm_ext_iff_of_nodup (nodup_holdings h) (nodup_holdings h')]
  intro c
  rw [mem_holdings_iff hagree h, mem_holdings_iff (hagree.perm hperm) h']
  simp only [hperm.mem_iff]

theorem namedAt_perm {others : List (Vault × Outpoint)} (h : named.Perm others) (o : Outpoint) :
    (namedAt named o).Perm (namedAt others o) :=
  eraseDups_perm ((h.filter _).map _)

end

/-! ## Where vaults agree -/

section

variable {r : RecoveryRequest}

/-- Vaults agree where the value at an outpoint and its recovery script are
the same for all that name it. -/
theorem agrees_of_value (value : Outpoint → TxOut × Script)
    (h : ∀ p ∈ r.sources, ∀ s, source r.trigger p.1 p.2 = .ok s →
      s.spent = (value p.2).1 ∧ s.recoverySpk = (value p.2).2) : Agrees r := by
  intro p hp q hq ho s s' hs hs'
  obtain ⟨hspent, hspk⟩ := h p hp s hs
  obtain ⟨hspent', hspk'⟩ := h q hq s' hs'
  rw [hspent, hspk, hspent', hspk', ho]
  exact ⟨rfl, rfl⟩

/-- Vaults whose first batch is the same agree about its trigger output, unless
it is the outpoint of one of them. -/
theorem alike_of_batchOf {t : Trigger} {v w : Vault} {o : Outpoint} {s s' : Source}
    (hbatch : t.batchOf v.id = t.batchOf w.id) (hv : v.outpoint ≠ some o)
    (hw : w.outpoint ≠ some o) (hs : source (some t) v o = .ok s)
    (hs' : source (some t) w o = .ok s') :
    s.spent = s'.spent ∧ s.recoverySpk = s'.recoverySpk := by
  rcases resolves_of_source hs with ⟨ho, -⟩ | ⟨-, _, i, b, first, ht, hb, -, hfirst, hspent, hspk⟩
  · exact absurd ho hv
  rcases resolves_of_source hs' with
    ⟨ho, -⟩ | ⟨-, _, i', b', first', ht', hb', -, hfirst', hspent', hspk'⟩
  · exact absurd ho hw
  cases ht
  cases ht'
  rw [← hbatch, hb] at hb'
  cases hb'
  rw [hfirst] at hfirst'
  cases hfirst'
  rw [hspent] at hspent'
  exact ⟨Option.some.inj hspent', hspk.trans hspk'.symm⟩

end

/-! ## What is paid -/

section

variable {sources sources' : List Source} {swept : List TxOut} {positions : List ℕ}

theorem claimed_eq_holdings (sources : List Source) (spk : Script) :
    claimed sources spk = (((sources.map Source.holding).filter fun c => c.recoverySpk = spk).map
      (·.spent.value.toNat)).sum := by
  unfold claimed
  rw [List.filter_map, List.map_map]
  rfl

theorem claimed_perm (h : (sources.map Source.holding).Perm (sources'.map Source.holding))
    (spk : Script) : claimed sources spk = claimed sources' spk := by
  rw [claimed_eq_holdings, claimed_eq_holdings]
  exact ((h.filter _).map _).sum_nat

/-- The output that pays a script what sources claim for it. -/
def paidOutput (sources : List Source) (spk : Script) : TxOut :=
  ⟨UInt64.ofNat (claimed sources spk), spk⟩

theorem eq_paidOutput (h : creditAll [] sources = .ok (swept, positions)) {o : TxOut}
    (ho : o ∈ swept) : o = paidOutput sources o.scriptPubkey := by
  unfold paidOutput
  rw [← value_creditAll h ho, UInt64.ofNat_toNat]

theorem swept_eq (h : creditAll [] sources = .ok (swept, positions)) :
    swept = (sources.map Source.recoverySpk).eraseDups.map (paidOutput sources) := by
  have hscripts := scripts_creditAll scripts_nil h
  rw [List.nil_append] at hscripts
  rw [← hscripts, scripts, List.map_map]
  conv_lhs => rw [← List.map_id swept]
  exact List.map_congr_left fun o ho => eq_paidOutput h ho

theorem paidOutput_perm (h : (sources.map Source.holding).Perm (sources'.map Source.holding)) :
    paidOutput sources = paidOutput sources' := by
  funext spk
  rw [paidOutput, paidOutput, claimed_perm h]

theorem swept_perm {swept' : List TxOut} {positions' : List ℕ}
    (hholdings : (sources.map Source.holding).Perm (sources'.map Source.holding))
    (h : creditAll [] sources = .ok (swept, positions))
    (h' : creditAll [] sources' = .ok (swept', positions')) : swept.Perm swept' := by
  have hscripts : (sources.map Source.recoverySpk).Perm (sources'.map Source.recoverySpk) := by
    have hmap := hholdings.map Holding.recoverySpk
    rw [List.map_map, List.map_map] at hmap
    exact hmap
  rw [swept_eq h, swept_eq h', paidOutput_perm hholdings]
  exact (eraseDups_perm hscripts).map _

end

/-! ## What is reported -/

/-- A vault, the output to which it is credited, and where that is. -/
structure Credit where
  vault : VaultId
  position : ℕ
  output : TxOut

/-- What is reported of a recovery leads to these outputs. -/
structure Reports (t : Recovery) (credits : List Credit) : Prop where
  credited_eq : t.credited = credits.map fun c => (c.vault, UInt32.ofNat c.position)
  output : ∀ c ∈ credits, t.tx.outputs[c.position]? = some c.output

/-- Within reach of the positions, the report itself leads there. -/
theorem Reports.map_credited {t : Recovery} {credits : List Credit} (h : Reports t credits)
    (hlen : t.tx.outputs.length < outputLimit) :
    (t.credited.map fun c => (c.1, t.tx.outputs[c.2.toNat]?)) =
      credits.map fun c => (c.vault, some c.output) := by
  rw [h.credited_eq, List.map_map]
  refine List.map_congr_left fun c hc => ?_
  have hget := h.output c hc
  show (c.vault, t.tx.outputs[(UInt32.ofNat c.position).toNat]?) = _
  rw [Transaction.toNat_vout_of_getElem? hget hlen, hget]

section

variable {r : RecoveryRequest} {named : List (Vault × Outpoint)} {sources sources' : List Source}
  {swept : List TxOut} {positions : List ℕ} {change : Option TxOut}
  {witnesses : List (List Bytes)} {t : Recovery}

/-- The credits of a recovery, in the order of its sources. -/
def creditsOf (change : Option TxOut) (swept : List TxOut) (sources : List Source) :
    List Credit :=
  sources.flatMap fun s => s.vaultIds.map fun id =>
    ⟨id, creditedAt change swept s, paidOutput sources s.recoverySpk⟩

theorem Made.reports (h : Made r sources swept positions change witnesses t)
    (hfaults : r.faults = .none) : Reports t (creditsOf change swept sources) where
  credited_eq := by
    unfold creditsOf
    rw [h.credited_flatMap, List.map_flatMap]
    simp only [List.map_map]
    rfl
  output := by
    intro c hc
    obtain ⟨s, hs, hc⟩ := List.mem_flatMap.mp hc
    obtain ⟨id, -, rfl⟩ := List.mem_map.mp hc
    obtain ⟨k, o, -, ho, hget, hspk⟩ := h.creditedAt hfaults hs
    rw [← hspk, ← eq_paidOutput h.swept_eq (List.mem_of_getElem? ho)]
    exact hget

/-- What the vaults of a request are credited, by the outpoints that they name. -/
theorem map_creditsOf (h : distinctSources r = .ok sources) (change : Option TxOut)
    (swept : List TxOut) :
    (creditsOf change swept sources).map (fun c => (c.vault, c.output)) =
      (sources.map Source.holding).flatMap fun c =>
        (namedAt r.sources c.outpoint).map fun id => (id, paidOutput sources c.recoverySpk) := by
  unfold creditsOf
  rw [List.map_flatMap, List.flatMap_map]
  refine List.flatMap_congr fun s hs => ?_
  rw [vaultIds_of_mem h hs, List.map_map]
  rfl

theorem credits_perm (hagree : Agrees r) (hperm : named.Perm r.sources)
    (h : distinctSources r = .ok sources)
    (h' : distinctSources { r with sources := named } = .ok sources')
    (change : Option TxOut) (swept swept' : List TxOut) :
    ((creditsOf change swept sources).map fun c => (c.vault, c.output)).Perm
      ((creditsOf change swept' sources').map fun c => (c.vault, c.output)) := by
  have hholdings := holdings_perm hagree hperm h h'
  rw [map_creditsOf h, map_creditsOf h', paidOutput_perm hholdings]
  exact hholdings.flatMap fun c _ => (namedAt_perm hperm.symm c.outpoint).map _

end

/-! ## Vaults triggered together -/

section

variable {v : Vault} {b : Batch} {t : Trigger} {o : Outpoint} {s : Source}

/-- The trigger output of a batch that is triggered alone and without a coin is
the first. -/
theorem vout_of_triggered_alone (ht : Trigger.build [b] none .none = .ok t)
    (ho : t.outpoint 0 = .ok o) : o.vout = 0 := by
  obtain ⟨_, change, _, hmade⟩ := Trigger.build_eq_ok ht
  obtain rfl := optionMapM_none_eq_ok_iff.mp hmade.change_eq
  unfold Trigger.outpoint at ho
  rw [hmade.positions_eq] at ho
  cases ho
  rfl

theorem outpoint_ne_of_vout {f : Funding} (hf : v.funding = .ok f)
    (hvout : f.outpoint.vout ≠ o.vout) : v.outpoint ≠ some o := by
  rw [(Vault.funding_eq_ok_iff.mp hf).1]
  rintro ⟨⟩
  exact hvout rfl

/-- A vault that is swept at the outpoint of a batch spends its trigger
output, unless the outpoint is its own. -/
theorem spent_of_triggered_alone (ht : Trigger.build [b] none .none = .ok t)
    (ho : t.outpoint 0 = .ok o) (hv : v.outpoint ≠ some o) (hs : source (some t) v o = .ok s) :
    s.spent = b.triggerOutput := by
  obtain ⟨_, _, _, hmade⟩ := Trigger.build_eq_ok ht
  have hget : t.batches[0]? = some b := by
    rw [hmade.batches_eq]
    rfl
  have hout := (hmade.outpoint (Trigger.length_outputs_singleton ht) hget ho).2
  rcases resolves_of_source hs with ⟨hown, -⟩ | ⟨-, _, _, _, _, ⟨⟩, -, -, -, hspent, -⟩
  · exact absurd hown hv
  · exact Option.some.inj (hspent.symm.trans hout)

/-- A batch that returns nothing holds all that its vaults are worth. -/
theorem value_triggerOutput {members : List Vault} {targets : List TxOut} {first : Vault}
    {total : Sats} (h : Batch.Made members targets none .none first total b) :
    b.triggerOutput.value = total := by
  obtain ⟨remaining, hremaining, hvalue⟩ := h.trigger_eq
  have hall : total.toNat = 0 + remaining.toNat := Sats.spend_eq_ok_iff.mp hremaining
  have hvalue : remaining = b.triggerOutput.value := Except.ok.inj hvalue
  rw [Nat.zero_add] at hall
  rw [← hvalue, UInt64.toNat_inj.mp hall]

/-- Two vaults of 990000 sats are triggered together. Either can be swept at
the trigger output, and they agree about it. -/
theorem exists_triggered_pair (p : Policy) :
    ∃ (v w : Vault) (b : Batch) (t : Trigger) (o : Outpoint) (s s' : Source),
      v.id = 1 ∧ w.id = 2 ∧ Batch.build [v, w] [] none .none = .ok b ∧
      Trigger.build [b] none .none = .ok t ∧ t.outpoint 0 = .ok o ∧ o.vout = 0 ∧
      source (some t) v o = .ok s ∧ source (some t) w o = .ok s' ∧ s.spent.value = 1980000 ∧
      s'.spent = s.spent ∧ s'.recoverySpk = s.recoverySpk := by
  obtain ⟨v, f, hvid, -, hvf, hvo, hva, -⟩ := Vault.exists_funded 1 p ⟨Txid.zero, 1⟩ 990000
  obtain ⟨w, g, hwid, -, hwf, hwo, hwa, -⟩ := Vault.exists_funded 2 p ⟨Txid.zero, 2⟩ 990000
  have htotal : Vault.total [v, w] = .ok 1980000 := by
    refine Vault.total_eq_ok_iff.mpr ⟨[f, g], Vault.fundings_eq_ok_iff.mpr
      (.cons hvf (.cons hwf .nil)), ?_⟩
    simp only [Vault.worth, List.map_cons, List.map_nil, List.sum_cons, List.sum_nil, hva, hwa]
    rfl
  obtain ⟨b, hb⟩ := Batch.build_isOk [] none htotal (show _ = Except.ok 1980000 by decide)
  obtain ⟨t, ht⟩ := Trigger.build_alone_isOk .none hb
  obtain ⟨first, total, hmade⟩ := Batch.build_eq_ok hb
  obtain rfl : 1980000 = total := Except.ok.inj (htotal.symm.trans hmade.total_eq)
  obtain ⟨_, _, _, htmade⟩ := Trigger.build_eq_ok ht
  obtain ⟨o, ho⟩ := htmade.exists_outpoint (k := 0) (b := b) rfl
  have hids : ([b].flatMap Batch.memberIds).Nodup := by
    simp only [List.flatMap_cons, List.flatMap_nil, Batch.memberIds, hmade.members_eq,
      List.map_cons, List.map_nil, hvid, hwid]
    decide
  obtain ⟨s, hs⟩ := source_triggered_isOk hb ht hids rfl ho (show v ∈ [v, w] by simp)
  obtain ⟨s', hs'⟩ := source_triggered_isOk hb ht hids rfl ho (show w ∈ [v, w] by simp)
  -- the trigger output is the first, and neither vault has its coin there
  have hvout : o.vout = 0 := vout_of_triggered_alone ht ho
  have hv : v.outpoint ≠ some o := outpoint_ne_of_vout hvf (by rw [hvo, hvout]; decide)
  have hw : w.outpoint ≠ some o := outpoint_ne_of_vout hwf (by rw [hwo, hvout]; decide)
  have hbatch : ∀ m ∈ [v, w], t.batchOf m.id = some (0, b) := by
    intro m hm
    refine Trigger.batchOf_of_mem ?_ (b := b) ?_ ?_
    · rw [htmade.batches_eq]
      exact hids
    · rw [htmade.batches_eq]
      rfl
    · rw [hmade.members_eq]
      exact hm
  obtain ⟨hspent, hspk⟩ := alike_of_batchOf ((hbatch w (by simp)).trans (hbatch v (by simp)).symm)
    hw hv hs' hs
  have hvalue : s.spent.value = 1980000 := by
    rw [spent_of_triggered_alone ht ho hv hs, value_triggerOutput hmade]
  exact ⟨v, w, b, t, o, s, s', hvid, hwid, hb, ht, ho, hvout, hs, hs', hvalue, hspent, hspk⟩

end

/-! ## Two orders -/

/-- Two recoveries of the same sources in different orders. -/
structure Reordered (r : RecoveryRequest) (t t' : Recovery) : Prop where
  inputs : t.tx.bareInputs.Perm t'.tx.bareInputs
  /-- The change stands first and the anchor last in both, and between them the
  outputs with the recovery scripts. -/
  outputs : ∃ change swept swept', r.fee.mapM Coin.change = .ok change ∧ swept.Perm swept' ∧
    t.tx.outputs = change.toList ++ swept ++ (if r.anchor then [⟨0, Script.anchor⟩] else []) ∧
    t'.tx.outputs = change.toList ++ swept' ++ if r.anchor then [⟨0, Script.anchor⟩] else []
  feeChange_eq : t'.feeChange = t.feeChange
  anchorVout_eq : t'.anchorVout = t.anchorVout
  credited : ∃ credits credits', Reports t credits ∧ Reports t' credits' ∧
    (credits.map fun c => (c.vault, c.output)).Perm (credits'.map fun c => (c.vault, c.output))
  /-- So every vault is credited the same outputs at the positions reported. -/
  reported : t.tx.outputs.length < outputLimit →
    (t.credited.map fun c => (c.1, t.tx.outputs[c.2.toNat]?)).Perm
      (t'.credited.map fun c => (c.1, t'.tx.outputs[c.2.toNat]?))

section

variable {r : RecoveryRequest} {named : List (Vault × Outpoint)} {t t' : Recovery}

theorem build_isOk_iff :
    (∃ t, build r = .ok t) ↔ ∃ sources change, distinctSources r = .ok sources ∧ sources ≠ [] ∧
      (∀ spk, claimed sources spk < Sats.bound) ∧ r.fee.mapM Coin.change = .ok change := by
  constructor
  · rintro ⟨t, ht⟩
    obtain ⟨sources, swept, positions, change, witnesses, hmade⟩ := build_eq_ok ht
    exact ⟨sources, change, hmade.sources_eq, hmade.sources_ne,
      claimed_lt_of_creditAll hmade.swept_eq, hmade.change_eq⟩
  · rintro ⟨sources, change, hsources, hne, hclaimed, hchange⟩
    obtain ⟨swept, positions, hswept⟩ : ∃ swept positions,
        creditAll [] sources = .ok (swept, positions) := by
      refine creditAll_isOk_of_claimed fun spk => ?_
      rw [balance_nil, Nat.zero_add]
      exact hclaimed spk
    exact build_isOk hsources hne hswept hchange

theorem build_isOk_of_perm (hagree : Agrees r) (hperm : named.Perm r.sources)
    (h : ∃ t, build r = .ok t) : ∃ t, build { r with sources := named } = .ok t := by
  obtain ⟨sources, change, hsources, hne, hclaimed, hchange⟩ := build_isOk_iff.mp h
  obtain ⟨sources', hsources'⟩ : ∃ sources',
      distinctSources { r with sources := named } = .ok sources' := by
    have hresolve := distinctSources_isOk_iff.mp ⟨sources, hsources⟩
    exact distinctSources_isOk_iff.mpr fun p hp => hresolve p (hperm.subset hp)
  have hholdings := holdings_perm hagree hperm hsources hsources'
  refine build_isOk_iff.mpr ⟨sources', change, hsources', ?_, fun spk => ?_, hchange⟩
  · rintro rfl
    have hnil := hholdings.eq_nil
    exact hne (List.map_eq_nil_iff.mp hnil)
  · rw [← claimed_perm hholdings]
    exact hclaimed spk

theorem reordered (hfaults : r.faults = .none) (hagree : Agrees r)
    (hperm : named.Perm r.sources) (h : build r = .ok t)
    (h' : build { r with sources := named } = .ok t') : Reordered r t t' := by
  obtain ⟨sources, swept, positions, change, witnesses, hmade⟩ := build_eq_ok h
  obtain ⟨sources', swept', positions', change', witnesses', hmade'⟩ := build_eq_ok h'
  obtain rfl : change = change' := Except.ok.inj (hmade.change_eq.symm.trans hmade'.change_eq)
  have hfaults' : { r with sources := named }.faults = .none := hfaults
  have hholdings := holdings_perm hagree hperm hmade.sources_eq hmade'.sources_eq
  have hswept := swept_perm hholdings hmade.swept_eq hmade'.swept_eq
  obtain ⟨hpayouts, houtputs⟩ := hmade.payouts_eq hfaults
  obtain ⟨hpayouts', houtputs'⟩ := hmade'.payouts_eq hfaults'
  have hcredits := credits_perm hagree hperm hmade.sources_eq hmade'.sources_eq change swept swept'
  exact {
    inputs := by
      have hspending := hholdings.map fun c => TxIn.spending c.outpoint
      rw [List.map_map, List.map_map] at hspending
      rw [hmade.bareInputs_eq, hmade'.bareInputs_eq]
      exact (hspending.append_right _).map _
    outputs := ⟨change, swept, swept', hmade.change_eq, hswept, houtputs, houtputs'⟩
    feeChange_eq := hmade'.feeChange_eq.trans hmade.feeChange_eq.symm
    anchorVout_eq := by
      rw [hmade.anchorVout_eq, hmade'.anchorVout_eq, hmade.beforeAnchor_eq, hmade'.beforeAnchor_eq,
        hpayouts, hpayouts', List.length_append, List.length_append, hswept.length_eq]
    credited := ⟨_, _, hmade.reports hfaults, hmade'.reports hfaults', hcredits⟩
    reported := by
      intro hlen
      have hlen' : t'.tx.outputs.length < outputLimit := by
        rw [houtputs, List.length_append, List.length_append, hswept.length_eq] at hlen
        rw [houtputs', List.length_append, List.length_append]
        exact hlen
      rw [(hmade.reports hfaults).map_credited hlen, (hmade'.reports hfaults').map_credited hlen']
      have hsome := hcredits.map fun c => (c.1, some c.2)
      rw [List.map_map, List.map_map] at hsome
      exact hsome }

/-- The order in which the sources are listed does not matter for a recovery
without faults whose vaults agree about the outpoints that several of them
name. In any other order it is built exactly if it is built in the one given;
and then both spend the same outpoints, pay every recovery script the same, and
have the same change and anchor, and every vault is credited the same
outputs. -/
theorem build_reordered (hfaults : r.faults = .none) (hagree : Agrees r)
    (hperm : named.Perm r.sources) :
    ((∃ t, build r = .ok t) ↔ ∃ t', build { r with sources := named } = .ok t') ∧
      ∀ t t', build r = .ok t → build { r with sources := named } = .ok t' →
        Reordered r t t' := by
  refine ⟨⟨build_isOk_of_perm hagree hperm, ?_⟩, fun t t' => reordered hfaults hagree hperm⟩
  exact build_isOk_of_perm (hagree.perm hperm) hperm.symm

/-- Two vaults that were triggered together are swept at their trigger output,
and a third one at its own outpoint between them, with a coin that pays and an
anchor; and in the opposite order. -/
theorem build_reordered_pair :
    ∃ (v w u : Vault) (b : Batch) (t : Trigger) (o own : Outpoint) (r : RecoveryRequest)
      (recovery recovery' : Recovery),
      Batch.build [v, w] [] none .none = .ok b ∧ Trigger.build [b] none .none = .ok t ∧
      t.outpoint 0 = .ok o ∧ o ≠ own ∧ r.sources = [(v, o), (u, own), (w, o)] ∧
      r.trigger = some t ∧ r.fee.isSome = true ∧ r.anchor = true ∧ r.faults = .none ∧ Agrees r ∧
      [(w, o), (u, own), (v, o)].Perm r.sources ∧ build r = .ok recovery ∧
      build { r with sources := [(w, o), (u, own), (v, o)] } = .ok recovery' ∧
      Reordered r recovery recovery' := by
  obtain ⟨policy, -⟩ := Policy.ofParams_isOk (show ({} : VaultParams).recoverySecret ≠ 0 by decide)
    (by decide)
  obtain ⟨v, w, b, t, o, s, s', -, -, hb, ht, ho, hvout, hs, hs', hvalue, hspent, hspk⟩ :=
    exists_triggered_pair policy
  obtain ⟨u, f, -, -, hf, hown, -, hamount⟩ := Vault.exists_funded 3 policy ⟨Txid.zero, 3⟩ 250000
  obtain ⟨c, -, hu⟩ := source_own (some t) hf
  have hne : o ≠ f.outpoint := by
    rw [hown]
    rintro rfl
    exact absurd hvout (by decide)
  obtain ⟨coin, change, hchange⟩ : ∃ coin change, (some coin).mapM Coin.change = .ok change :=
    ⟨⟨TxIn.spending .null, ⟨50000, Script.anyone⟩⟩, some ⟨40000, Script.anyone⟩, by decide⟩
  let r : RecoveryRequest :=
    { sources := [(v, o), (u, f.outpoint), (w, o)], trigger := some t, fee := some coin,
      anchor := true }
  have hagree : Agrees r := by
    refine agrees_of_value (fun p => if p = o then (s.spent, s.recoverySpk)
      else (f.output, u.policy.recoverySpk)) ?_
    simp only [r, List.forall_mem_cons, hs, hs', hu, Except.ok.injEq, forall_eq', if_pos, hspent,
      hspk, if_neg (Ne.symm hne), and_self, List.not_mem_nil, false_implies, implies_true]
  have hresolvable : Resolvable r 1980000 := by
    simp only [Resolvable, r, List.forall_mem_cons, hs, hs', hu, Except.ok.injEq,
      exists_eq_left', hspent, hvalue, hamount, List.not_mem_nil, false_implies, implies_true]
    decide
  have hperm : [(w, o), (u, f.outpoint), (v, o)].Perm r.sources :=
    List.reverse_perm [(v, o), (u, f.outpoint), (w, o)]
  obtain ⟨recovery, hrecovery⟩ :=
    build_isOk_of_bounds hresolvable (List.cons_ne_nil _ _)
      (show 3 * 1980000 < Sats.bound by decide) hchange
  obtain ⟨hbuilt, hreordered⟩ := build_reordered rfl hagree hperm
  obtain ⟨recovery', hrecovery'⟩ := hbuilt.mp ⟨recovery, hrecovery⟩
  exact ⟨v, w, u, b, t, o, f.outpoint, r, recovery, recovery', hb, ht, ho, hne, rfl, rfl, rfl, rfl,
    rfl, hagree, hperm, hrecovery, hrecovery', hreordered _ _ hrecovery hrecovery'⟩

end

end VaultCovenant.Recovery
