import VaultCovenant.Proofs.Recovery.Build
import VaultCovenant.Proofs.Trigger.Layout

/-!
# Where a recovery sweeps the coins

Without faults a recovery moves every coin that it is asked for once, to the
output with the recovery script of the coin.

Results:
* `Recovery.resolves_of_source`: what a source spends and where it is swept.
* `Recovery.build_sweeps`: the inputs, the outputs and the reported positions
  of a recovery without faults.
-/

namespace VaultCovenant.Recovery

/-- What is spent at an outpoint that a vault names, and the script to which it
has to go: the vault's own coin to its recovery script, and the trigger output
of its batch to that of the batch's first member. -/
def Resolves (trigger : Option Trigger) (v : Vault) (o : Outpoint) (spent : TxOut)
    (spk : Script) : Prop :=
  (v.outpoint = some o ∧ v.output = some spent ∧ spk = v.policy.recoverySpk) ∨
  (v.outpoint ≠ some o ∧ ∃ t i b first, trigger = some t ∧ t.batchOf v.id = some (i, b) ∧
    t.outpoint i = .ok o ∧ b.members.head? = some first ∧
    t.tx.outputs[o.vout.toNat]? = some spent ∧ spk = first.policy.recoverySpk)

theorem resolves_of_source {trigger : Option Trigger} {v : Vault} {o : Outpoint} {s : Source}
    (h : source trigger v o = .ok s) : Resolves trigger v o s.spent s.recoverySpk := by
  unfold source at h
  by_cases ho : v.outpoint = some o
  · rw [if_pos ho] at h
    obtain ⟨f, c, hf, -, rfl⟩ := vaultSource_eq_ok_iff.mp h
    exact Or.inl ⟨ho, (Vault.funding_eq_ok_iff.mp hf).2.1, rfl⟩
  · rw [if_neg ho] at h
    obtain ⟨t, i, b, first, spent, script, c, ht, hb, hto, hfirst, hspent, -, -, rfl⟩ :=
      triggerSource_eq_ok_iff.mp h
    refine Or.inr ⟨ho, t, i, b, first, ht, hb, hto, ?_, hspent, rfl⟩
    unfold Batch.canonical at hfirst
    split at hfirst <;> cases hfirst
    rename_i hmembers
    rw [hmembers]
    rfl

/-- A recovery of some coins with given change and given swept outputs: every
outpoint is spent once, every script is paid once, and what is reported leads
to the outputs. -/
structure Sweeps (r : RecoveryRequest) (coins : List Source) (change : Option TxOut)
    (swept : List TxOut) (t : Recovery) : Prop where
  outpoints : coins.map (·.outpoint) = (r.sources.map Prod.snd).eraseDups
  resolved : ∀ c ∈ coins, ∃ v, r.sources.find? (fun p => p.2 = c.outpoint) = some (v, c.outpoint) ∧
    Resolves r.trigger v c.outpoint c.spent c.recoverySpk
  inputs : t.tx.inputs.map (·.previousOutput) =
    coins.map (·.outpoint) ++ (r.fee.map (·.input.previousOutput)).toList
  outputs : t.tx.outputs =
    change.toList ++ swept ++ if r.anchor then [⟨0, Script.anchor⟩] else []
  changed : (r.fee = none ∧ change = none ∧ t.feeChange = none) ∨
    ∃ coin value, r.fee = some coin ∧ change = some ⟨value, Script.anyone⟩ ∧
      coin.spent.value.toNat = 10000 + value.toNat ∧ t.feeChange = some 0
  anchored : t.anchorVout = none ∧ r.anchor = false ∨
    ∃ vout, t.anchorVout = some vout ∧ r.anchor = true ∧ vout.toNat + 1 = t.tx.outputs.length
  paid : swept.map (·.scriptPubkey) = (coins.map (·.recoverySpk)).eraseDups
  values : ∀ o ∈ swept, o.value.toNat =
    ((coins.filter fun c => c.recoverySpk = o.scriptPubkey).map (·.spent.value.toNat)).sum
  sum : (swept.map (·.value.toNat)).sum = (coins.map (·.spent.value.toNat)).sum
  credited : ∃ vouts : List UInt32,
    t.credited = (coins.zip vouts).flatMap (fun (c, vout) =>
      ((r.sources.filter fun p => p.2 = c.outpoint).map (·.1.id)).eraseDups.map fun id =>
        (id, vout)) ∧
    List.Forall₂ (fun c vout => ∃ k o, vout.toNat = change.toList.length + k ∧
      swept[k]? = some o ∧ t.tx.outputs[vout.toNat]? = some o ∧
      o.scriptPubkey = c.recoverySpk) coins vouts

section

variable {r : RecoveryRequest} {coins : List Source} {change : Option TxOut} {swept : List TxOut}
  {positions : List ℕ} {witnesses : List (List Bytes)} {t : Recovery}

theorem Made.payouts_eq (h : Made r coins swept positions change witnesses t)
    (hfaults : r.faults = .none) :
    payouts r.faults change swept positions = change.toList ++ swept ∧
      t.tx.outputs = change.toList ++ swept ++ if r.anchor then [⟨0, Script.anchor⟩] else [] := by
  have hpayouts : payouts r.faults change swept positions = change.toList ++ swept := by
    rw [hfaults]
    rfl
  have houtputs := h.outputs_eq
  rw [hpayouts] at houtputs
  exact ⟨hpayouts, houtputs⟩

theorem Made.scripts_swept (h : Made r coins swept positions change witnesses t) :
    scripts swept = (coins.map Source.recoverySpk).eraseDups :=
  scripts_creditAll scripts_nil h.swept_eq

/-- The change, if there is any, stands first. -/
theorem Made.changed (h : Made r coins swept positions change witnesses t) :
    (r.fee = none ∧ change = none ∧ t.feeChange = none) ∨
    ∃ coin value, r.fee = some coin ∧ change = some ⟨value, Script.anyone⟩ ∧
      coin.spent.value.toNat = 10000 + value.toNat ∧ t.feeChange = some 0 := by
  rw [h.eq]
  rcases optionMapM_eq_ok_iff.mp h.change_eq with ⟨hfee, rfl⟩ | ⟨coin, out, hfee, hout, rfl⟩
  · exact Or.inl ⟨hfee, rfl, rfl⟩
  · obtain ⟨hscript, hvalue⟩ := Coin.change_eq_ok_iff.mp hout
    exact Or.inr ⟨coin, out.value, hfee, by rw [← hscript], hvalue, rfl⟩

/-- The anchor, if there is one, stands last. -/
theorem Made.anchored (h : Made r coins swept positions change witnesses t)
    (hfaults : r.faults = .none) (hlen : t.tx.outputs.length < outputLimit) :
    (t.anchorVout = none ∧ r.anchor = false) ∨
    ∃ vout, t.anchorVout = some vout ∧ r.anchor = true ∧
      vout.toNat + 1 = t.tx.outputs.length := by
  obtain ⟨hpayouts, houtputs⟩ := h.payouts_eq hfaults
  have hvout : t.anchorVout =
      if r.anchor then some (UInt32.ofNat (change.toList ++ swept).length) else none := by
    rw [h.eq, assembled, hpayouts]
  cases hanchor : r.anchor with
  | false =>
    rw [hanchor, if_neg Bool.false_ne_true] at hvout
    exact Or.inl ⟨hvout, rfl⟩
  | true =>
    rw [hanchor, if_pos rfl] at hvout houtputs
    have hlast : t.tx.outputs[(change.toList ++ swept).length]? = some ⟨0, Script.anchor⟩ := by
      rw [houtputs, List.getElem?_concat_length]
    refine Or.inr ⟨_, hvout, rfl, ?_⟩
    rw [Transaction.toNat_vout_of_getElem? hlast hlen, houtputs]
    simp only [List.length_append, List.length_singleton]

/-- A coin is credited to an output with its script. -/
theorem Made.creditedAt (h : Made r coins swept positions change witnesses t)
    (hfaults : r.faults = .none) {c : Source} (hc : c ∈ coins) :
    ∃ k o, creditedAt change swept c = change.toList.length + k ∧ swept[k]? = some o ∧
      t.tx.outputs[creditedAt change swept c]? = some o ∧ o.scriptPubkey = c.recoverySpk := by
  have hmem : c.recoverySpk ∈ scripts swept := by
    rw [h.scripts_swept, List.mem_eraseDups]
    exact List.mem_map_of_mem hc
  obtain ⟨o, ho, hscript⟩ := getElem?_idxOf_scripts hmem
  have hlt := (List.getElem?_eq_some_iff.mp ho).1
  refine ⟨(scripts swept).idxOf c.recoverySpk, o, Nat.add_comm _ _, ho, ?_, hscript⟩
  rw [(h.payouts_eq hfaults).2, Recovery.creditedAt, List.append_assoc,
    List.getElem?_append_right (by omega), Nat.add_sub_cancel, List.getElem?_append_left hlt, ho]

/-- Its position is within reach of the 32 bits that report it. -/
theorem Made.vout (h : Made r coins swept positions change witnesses t)
    (hfaults : r.faults = .none) (hlen : t.tx.outputs.length < outputLimit) {c : Source}
    (hc : c ∈ coins) :
    ∃ k o, (UInt32.ofNat (Recovery.creditedAt change swept c)).toNat = change.toList.length + k ∧
      swept[k]? = some o ∧
      t.tx.outputs[(UInt32.ofNat (Recovery.creditedAt change swept c)).toNat]? = some o ∧
      o.scriptPubkey = c.recoverySpk := by
  obtain ⟨k, o, hk, ho, hget, hscript⟩ := h.creditedAt hfaults hc
  rw [Transaction.toNat_vout_of_getElem? hget hlen]
  exact ⟨k, o, hk, ho, hget, hscript⟩

theorem Made.length_outputs_le (h : Made r coins swept positions change witnesses t)
    (hfaults : r.faults = .none) : t.tx.outputs.length ≤ coins.length + 2 := by
  have hswept : swept.length ≤ coins.length := by
    have hlen := length_eraseDups_le (coins.map Source.recoverySpk)
    rw [← h.scripts_swept, scripts, List.length_map, List.length_map] at hlen
    exact hlen
  rw [(h.payouts_eq hfaults).2, List.length_append, List.length_append]
  have hchange : change.toList.length ≤ 1 := by cases change <;> simp
  split
  · rw [List.length_singleton]
    omega
  · rw [List.length_nil]
    omega

theorem build_sweeps (hfaults : r.faults = .none) (h : build r = .ok t)
    (hlen : t.tx.outputs.length < outputLimit) :
    ∃ coins change swept, Sweeps r coins change swept t := by
  obtain ⟨coins, swept, positions, change, witnesses, hmade⟩ := build_eq_ok h
  have hdistinct := distinctSources_eq_ok hmade.sources_eq
  refine ⟨coins, change, swept, {
    outpoints := map_outpoint_distinctSources hmade.sources_eq
    resolved := ?_
    inputs := hmade.previousOutputs
    outputs := (hmade.payouts_eq hfaults).2
    changed := hmade.changed
    anchored := hmade.anchored hfaults hlen
    paid := hmade.scripts_swept
    values := fun o ho => value_creditAll hmade.swept_eq ho
    sum := by simpa using sum_creditAll hmade.swept_eq
    credited := ⟨(placed change positions).map UInt32.ofNat, ?_, ?_⟩ }⟩
  · intro c hc
    obtain ⟨o, -, v, s, hfind, hsource, rfl⟩ := forall₂_mem_right hdistinct hc
    have ho : s.outpoint = o := (source_eq_ok hsource).1
    subst ho
    exact ⟨v, hfind, resolves_of_source (s := s) hsource⟩
  · rw [hmade.eq, assembled, List.zip_map_right, List.flatMap_map]
    refine List.flatMap_congr ?_
    rintro ⟨c, position⟩ hmem
    obtain ⟨o, -, v, s, -, hsource, rfl⟩ :=
      forall₂_mem_right hdistinct (List.of_mem_zip hmem).1
    have ho : s.outpoint = o := (source_eq_ok hsource).1
    subst ho
    rfl
  · rw [hmade.placed_eq, List.map_map, List.forall₂_map_right_iff, List.forall₂_same]
    intro c hc
    exact hmade.vout hfaults hlen hc

/-- Two vaults are recovered to one output, one of them named twice, with a
coin that pays and an anchor. -/
theorem build_sweeps_repeated :
    ∃ (v w : Vault) (o p : Outpoint) (r : RecoveryRequest) (t : Recovery) (coins : List Source)
      (change : Option TxOut) (swept : List TxOut),
      r.sources = [(v, o), (w, p), (v, o)] ∧ o ≠ p ∧ r.fee.isSome = true ∧ r.anchor = true ∧
      r.faults = .none ∧ build r = .ok t ∧ t.tx.outputs.length < outputLimit ∧
      Sweeps r coins change swept t := by
  obtain ⟨o, p, hne⟩ : ∃ o p : Outpoint, o ≠ p :=
    ⟨⟨Txid.zero, 0⟩, ⟨Txid.zero, 1⟩, by decide⟩
  obtain ⟨coin, change, hchange⟩ : ∃ coin change, (some coin).mapM Coin.change = .ok change :=
    ⟨⟨TxIn.spending .null, ⟨50000, Script.anyone⟩⟩, some ⟨40000, Script.anyone⟩, by decide⟩
  obtain ⟨policy, -⟩ := Policy.ofParams_isOk (show ({} : VaultParams).recoverySecret ≠ 0 by decide)
    (by decide)
  have hvault : ∀ (id : VaultId) (o : Outpoint) (amount : Sats), ∃ v s,
      source none v o = .ok s ∧ s.vaultIds = [id] ∧ s.outpoint = o ∧ s.spent.value = amount := by
    intro id o amount
    obtain ⟨v, f, rfl, -, hf, rfl, -, hvalue⟩ := Vault.exists_funded id policy o amount
    obtain ⟨c, hc⟩ := v.policy.controlBlock_recover_isOk
    exact ⟨v, _, (if_pos (Vault.funding_eq_ok_iff.mp hf).1).trans
      (vaultSource_eq_ok_iff.mpr ⟨f, c, hf, hc, rfl⟩), rfl, rfl, hvalue⟩
  obtain ⟨v, s, hs, hids, hso, hvalue⟩ := hvault 1 o 990000
  obtain ⟨w, s', hs', -, hso', hvalue'⟩ := hvault 2 p 250000
  have hdistinct : distinctSources
      { sources := [(v, o), (w, p), (v, o)], fee := some coin, anchor := true } =
      .ok [s, s'] := by
    refine bind_eq_ok_iff.mpr ⟨[s, s', s],
      mapM_eq_ok_iff.mpr (.cons hs (.cons hs' (.cons hs .nil))), ?_⟩
    simp only [List.foldl_cons, List.foldl_nil, merge, hso, hso', if_neg hne, if_true, hids]
    obtain ⟨ids, _, _, _, _, _, _⟩ := s
    cases hids
    cases hso
    rfl
  obtain ⟨swept, positions, hswept⟩ : ∃ swept positions,
      creditAll [] [s, s'] = .ok (swept, positions) := by
    refine creditAll_isOk ?_
    simp only [List.map_nil, List.map_cons, List.sum_nil, List.sum_cons, hvalue, hvalue']
    decide
  obtain ⟨t, ht⟩ := build_isOk hdistinct (List.cons_ne_nil _ _) hswept hchange
  obtain ⟨coins, swept', positions', change', witnesses, hmade⟩ := build_eq_ok ht
  have hcoins := hmade.sources_eq
  rw [hdistinct] at hcoins
  cases hcoins
  have hlen := hmade.length_outputs_le rfl
  have hlimit : t.tx.outputs.length < outputLimit := by
    rw [List.length_cons, List.length_singleton] at hlen
    unfold outputLimit
    omega
  obtain ⟨coins, change, swept, hsweeps⟩ := build_sweeps rfl ht hlimit
  exact ⟨v, w, o, p, _, t, coins, change, swept, rfl, hne, rfl, rfl, rfl, ht, hlimit, hsweeps⟩

end

end VaultCovenant.Recovery
