import Mathlib.Algebra.BigOperators.Group.Finset.Basic
import VaultCovenant.Proofs.Paying.Recovery
import VaultCovenant.Proofs.Trigger.Conservation

/-!
# Which coins are spent twice

A recovery spends every outpoint that its sources name once. A trigger spends
the coin of a member as often as the member is named, and counts it as often.
Neither looks at where the coin is that pays.

Results:
* `Trigger.Made.spendsOnce_iff`, `Recovery.Made.spendsOnce_iff`: when no coin is
  spent twice.
* `Batch.Order.worth_eq_counted`: the members of a batch are worth their coins,
  each as often as it is named.
* `Recovery.Made.worth_drop`: a recovery pays what its coins are worth, each once.
* `spendsOnce_iff_named_once`: all of it.
-/

namespace VaultCovenant

/-- No coin is spent twice. -/
def Transaction.SpendsOnce (tx : Transaction) : Prop := (tx.inputs.map (·.previousOutput)).Nodup

/-- The outpoints at which vaults have their coins, in order. -/
def Vault.coins (vs : List Vault) : List Outpoint := vs.filterMap Vault.outpoint

/-- What coins are worth, each as often as it stands in a list. -/
def counted (coins : List Outpoint) (value : Outpoint → ℕ) : ℕ :=
  ∑ o ∈ coins.toFinset, coins.count o * value o

theorem Vault.coins_of_fundings {vs : List Vault} {fs : List Funding} (h : fundings vs = .ok fs) :
    coins vs = fs.map Funding.outpoint :=
  filterMap_of_forall₂ ((fundings_eq_ok_iff.mp h).imp fun _ _ hf => (funding_eq_ok_iff.mp hf).1)

/-- Inputs for some coins and then for the one that pays. -/
theorem nodup_append_coin (coins : List Outpoint) (fee : Option Coin) :
    (coins ++ (fee.map (·.input.previousOutput)).toList).Nodup ↔
      coins.Nodup ∧ ∀ coin, fee = some coin → coin.input.previousOutput ∉ coins := by
  cases fee with
  | none => simp
  | some coin =>
    simp [← List.concat_eq_append, List.nodup_concat, and_comm]

/-! ## Triggers -/

section

variable {batches : List Batch} {fee : Option Coin} {faults : FaultSet} {fundings : List Funding}
  {change : Option TxOut} {witnesses : List (List Bytes)} {t : Trigger}

/-- A trigger spends no coin twice when no member is named twice and the coin
that pays is not that of a member. -/
theorem Trigger.Made.spendsOnce_iff
    (h : Trigger.Made batches fee faults fundings change witnesses t) :
    t.tx.SpendsOnce ↔ (Vault.coins (batches.flatMap Batch.members)).Nodup ∧
      ∀ coin, fee = some coin →
        coin.input.previousOutput ∉ Vault.coins (batches.flatMap Batch.members) := by
  rw [Transaction.SpendsOnce, h.previousOutputs, Vault.coins_of_fundings h.fundings_eq,
    nodup_append_coin]

end

/-- The members of a batch are worth their coins, each as often as it is
named. -/
theorem Batch.Order.worth_eq_counted {q : Batch.Order} {b : Batch} (h : q.build = .ok b)
    {value : Outpoint → ℕ}
    (hvalue : ∀ v ∈ q.members, ∀ f, v.funding = .ok f → value f.outpoint = f.amount.toNat) :
    q.worth = counted (Vault.coins q.members) value := by
  obtain ⟨first, total, hmade⟩ := build_eq_ok h
  obtain ⟨fs, hfs, -⟩ := Vault.total_eq_ok_iff.mp hmade.total_eq
  have hworth : q.worth = Vault.worth fs := (Vault.worth_eq_of_fundings hfs).symm
  have hsame : Vault.worth fs = ((fs.map Funding.outpoint).map value).sum := by
    rw [Vault.worth, List.map_map]
    refine congrArg List.sum (List.map_congr_left fun f hf => ?_)
    obtain ⟨v, hv, hvf⟩ := forall₂_mem_right (Vault.fundings_eq_ok_iff.mp hfs) hf
    exact (hvalue v hv f hvf).symm
  rw [hworth, hsame, Vault.coins_of_fundings hfs, counted, Finset.sum_list_map_count]
  rfl

/-! ## Recoveries -/

namespace Recovery

theorem worth_lowerAt_le (k : ℕ) (outputs : List TxOut) :
    TxOut.worth (lowerAt k outputs) ≤ TxOut.worth outputs := by
  unfold lowerAt TxOut.worth
  induction outputs generalizing k with
  | nil =>
    rw [List.modify_nil]
  | cons out rest ih =>
    cases k with
    | zero =>
      simp only [List.modify_zero_cons, List.map_cons, List.sum_cons, Sats.toNat_lowered]
      omega
    | succ k =>
      simp only [List.modify_succ_cons, List.map_cons, List.sum_cons]
      exact Nat.add_le_add_left (ih k) _

/-- Faults take from the outputs that pay sources but add nothing to them. -/
theorem worth_loweredUnder_le (faults : FaultSet) (positions : List ℕ) (outputs : List TxOut) :
    TxOut.worth (loweredUnder faults positions outputs) ≤ TxOut.worth outputs := by
  have hstep : ∀ (faulty : Bool) k outs,
      TxOut.worth (if faulty then lowerAt k outs else outs) ≤ TxOut.worth outs := by
    intro faulty k outs
    split
    · exact worth_lowerAt_le k outs
    · exact Nat.le_refl _
  exact (hstep _ _ _).trans (hstep _ _ _)

theorem loweredUnder_of_not {faults : FaultSet}
    (hfirst : faults.contains .recoveryOutputTooLow = false)
    (hlast : faults.contains .recoveryLastOutputTooLow = false) (positions : List ℕ)
    (outputs : List TxOut) : loweredUnder faults positions outputs = outputs := by
  simp [loweredUnder, hfirst, hlast]

section

variable {r : RecoveryRequest} {sources : List Source} {swept : List TxOut} {positions : List ℕ}
  {change : Option TxOut} {witnesses : List (List Bytes)} {t : Recovery}

/-- A recovery spends no coin twice when the coin that pays is not among those
that are swept. -/
theorem Made.spendsOnce_iff (h : Made r sources swept positions change witnesses t) :
    t.tx.SpendsOnce ↔
      ∀ coin, r.fee = some coin → coin.input.previousOutput ∉ r.sources.map Prod.snd := by
  rw [Transaction.SpendsOnce, h.previousOutputs, nodup_append_coin,
    map_outpoint_distinctSources h.sources_eq]
  simp only [nodup_eraseDups, true_and, List.mem_eraseDups]

/-- Behind the change stand the outputs of the same recovery without a coin that
pays. -/
theorem Made.drop_outputs (h : Made r sources swept positions change witnesses t) :
    t.tx.outputs.drop r.fee.toList.length = payouts r.faults none swept positions ++
      if r.anchor then [⟨0, Script.anchor⟩] else [] := by
  rw [h.outputs_eq, ← h.length_change]
  cases change with
  | none => rfl
  | some out =>
    rw [payouts_some _ _ _ h.positions_ne]
    rfl

/-- A recovery pays what its coins are worth, each once, less what faults take
from it. -/
theorem Made.worth_drop (h : Made r sources swept positions change witnesses t) :
    TxOut.worth (t.tx.outputs.drop r.fee.toList.length) ≤
        TxOut.worth (sources.map Source.spent) ∧
      (r.faults.contains .recoveryOutputTooLow = false →
        r.faults.contains .recoveryLastOutputTooLow = false →
        TxOut.worth (t.tx.outputs.drop r.fee.toList.length) =
          TxOut.worth (sources.map Source.spent)) := by
  have hspent : TxOut.worth (sources.map Source.spent) = TxOut.worth swept := by
    have hsum := sum_creditAll h.swept_eq
    rw [List.map_nil, List.sum_nil, Nat.zero_add] at hsum
    rw [TxOut.worth, TxOut.worth, List.map_map, hsum]
    rfl
  -- what a fault adds and what the anchor holds is nothing
  have hpaid : TxOut.worth (t.tx.outputs.drop r.fee.toList.length) =
      TxOut.worth (loweredUnder r.faults (placed none positions) swept) := by
    have hnothing : ∀ (there : Bool) spk,
        TxOut.worth (if there then [⟨0, spk⟩] else []) = 0 := by
      intro there spk
      cases there <;> rfl
    rw [h.drop_outputs, payouts, applyFaults_eq, TxOut.worth_append, TxOut.worth_append,
      hnothing, hnothing]
    rfl
  rw [hspent, hpaid]
  refine ⟨worth_loweredUnder_le _ _ _, fun hfirst hlast => ?_⟩
  rw [loweredUnder_of_not hfirst hlast]

/-- The coins of a recovery are those at the outpoints that are named, each
resolved for a vault that names it. -/
theorem Made.spent_resolved (h : Made r sources swept positions change witnesses t) :
    List.Forall₂ (fun o out => ∃ v spk, (v, o) ∈ r.sources ∧ Resolves r.trigger v o out spk)
      (r.sources.map Prod.snd).eraseDups (sources.map Source.spent) := by
  rw [List.forall₂_map_right_iff]
  refine (distinctSources_eq_ok h.sources_eq).imp ?_
  rintro o s ⟨v, s', hfind, hsource, rfl⟩
  have hresolves := resolves_of_source hsource
  exact ⟨v, s'.recoverySpk, List.mem_of_find?_eq_some hfind, hresolves⟩

/-- A vault that is named twice makes one source. -/
theorem distinctSources_twice {v : Vault} {o : Outpoint} {s : Source}
    (hsources : r.sources = [(v, o), (v, o)]) (hsource : source r.trigger v o = .ok s) :
    distinctSources r = .ok [s] := by
  obtain ⟨-, hids⟩ := source_eq_ok hsource
  refine bind_eq_ok_iff.mpr ⟨[s, s], ?_, ?_⟩
  · rw [hsources]
    exact mapM_eq_ok_iff.mpr (.cons hsource (.cons hsource .nil))
  · obtain ⟨ids, _, _, _, _, _, _⟩ := s
    cases hids
    simp [merge, pure, Except.pure]

end

end Recovery

/-! ## Both -/

/-- When coins are spent twice. A trigger spends the coins of its members as they
are named, so each once only if no member is named twice and the coin that pays
is not one of theirs. Before faults shift them, the amounts of a batch are what
its coins are worth, each as often as it is named. A recovery spends every
outpoint that is named once, and pays what is found there once, but does not look
at where the coin is that pays. -/
theorem spendsOnce_iff_named_once (fee : Option Coin) :
    (∀ batches faults t, Trigger.build batches fee faults = .ok t →
      (t.tx.SpendsOnce ↔ (Vault.coins (batches.flatMap Batch.members)).Nodup ∧
        ∀ coin, fee = some coin →
          coin.input.previousOutput ∉ Vault.coins (batches.flatMap Batch.members))) ∧
    (∀ (q : Batch.Order) b (value : Outpoint → ℕ), q.build = .ok b →
      (∀ v ∈ q.members, ∀ f, v.funding = .ok f → value f.outpoint = f.amount.toNat) →
      b.triggerOutput.value.toNat =
          counted (Vault.coins q.members) value - (q.revault.getD 0).toNat
            + (q.faults.contains .triggerAmountTooHigh).toNat
            - (q.faults.contains .triggerAmountTooLow).toNat ∧
        b.revaultOutput.map (·.value.toNat) = q.revault.map fun amount =>
          amount.toNat + (q.faults.contains .revaultAmountTooHigh).toNat
            - (q.faults.contains .revaultAmountTooLow).toNat) ∧
    ∀ (r : RecoveryRequest) t, Recovery.build { r with fee } = .ok t →
      (t.tx.SpendsOnce ↔
        ∀ coin, fee = some coin → coin.input.previousOutput ∉ r.sources.map Prod.snd) ∧
      ∃ spent : List TxOut,
        List.Forall₂ (fun o out => ∃ v spk, (v, o) ∈ r.sources ∧
          Recovery.Resolves r.trigger v o out spk) (r.sources.map Prod.snd).eraseDups spent ∧
        TxOut.worth (t.tx.outputs.drop fee.toList.length) ≤ TxOut.worth spent ∧
        (r.faults.contains .recoveryOutputTooLow = false →
          r.faults.contains .recoveryLastOutputTooLow = false →
          TxOut.worth (t.tx.outputs.drop fee.toList.length) = TxOut.worth spent) := by
  refine ⟨fun batches faults t h => ?_, fun q b value h hvalue => ?_, fun r t h => ?_⟩
  · obtain ⟨_, _, _, hmade⟩ := Trigger.build_eq_ok h
    exact hmade.spendsOnce_iff
  · rw [← Batch.Order.worth_eq_counted h hvalue]
    exact (Batch.Order.amounts h).2
  · obtain ⟨sources, _, _, _, _, hmade⟩ := Recovery.build_eq_ok h
    exact ⟨hmade.spendsOnce_iff, sources.map Recovery.Source.spent, hmade.spent_resolved,
      hmade.worth_drop⟩

/-- A vault of 990000 sats that is named twice. Its trigger spends the coin twice
and creates 1980000 sats of it; a recovery spends it once, unless it is also the
coin that pays. -/
theorem spendsOnce_iff_named_once_repeated :
    ∃ (v : Vault) (o : Outpoint) (b : Batch) (t : Trigger) (coin : Coin)
      (recovery paid : Recovery),
      v.outpoint = some o ∧ v.amount = some 990000 ∧ coin.input.previousOutput = o ∧
      Batch.build [v, v] [] none .none = .ok b ∧ b.triggerOutput.value = 1980000 ∧
      Trigger.build [b] none .none = .ok t ∧ ¬ t.tx.SpendsOnce ∧
      Recovery.build { sources := [(v, o), (v, o)] } = .ok recovery ∧ recovery.tx.SpendsOnce ∧
      Recovery.build { sources := [(v, o), (v, o)], fee := some coin } = .ok paid ∧
      ¬ paid.tx.SpendsOnce := by
  obtain ⟨policy, -⟩ := Policy.ofParams_isOk (show ({} : VaultParams).recoverySecret ≠ 0 by decide)
    (by decide)
  obtain ⟨v, f, -, -, hf, -, hamount, hvalue⟩ := Vault.exists_funded 7 policy .null 990000
  obtain ⟨hown, -, hrecorded⟩ := Vault.funding_eq_ok_iff.mp hf
  have htotal : Vault.total [v, v] = .ok 1980000 := by
    refine Vault.total_eq_ok_iff.mpr ⟨[f, f], Vault.fundings_eq_ok_iff.mpr
      (.cons hf (.cons hf .nil)), ?_⟩
    simp only [Vault.worth, List.map_cons, List.map_nil, List.sum_cons, List.sum_nil, hamount]
    rfl
  obtain ⟨b, hb⟩ := Batch.build_isOk [] none htotal (show _ = Except.ok 1980000 by decide)
  obtain ⟨t, ht⟩ := Trigger.build_alone_isOk .none hb
  obtain ⟨first, total, hmade⟩ := Batch.build_eq_ok hb
  have hcoins : Vault.coins [v, v] = [f.outpoint, f.outpoint] := by
    simp [Vault.coins, hown]
  have hunpaid := spendsOnce_iff_named_once none
  have htwice : ¬ t.tx.SpendsOnce := by
    rw [hunpaid.1 _ _ _ ht, List.flatMap_singleton, hmade.members_eq, hcoins]
    simp
  have hvalue : b.triggerOutput.value = 1980000 := by
    have hworth := (hunpaid.2.1 ⟨[v, v], [], none, .none⟩ b (fun _ => 990000) hb
      (by simp [hf, hamount])).1
    rw [hcoins] at hworth
    exact UInt64.toNat_inj.mp (hworth.trans (by simp [counted, FaultSet.none]))
  -- the sources of both recoveries
  obtain ⟨c, -, hsource⟩ := Recovery.source_own none hf
  have hrecovers : ∀ {fee : Option Coin} {change : Option TxOut},
      fee.mapM Coin.change = .ok change → ∃ recovery, Recovery.build
        { sources := [(v, f.outpoint), (v, f.outpoint)], fee } = .ok recovery := by
    intro fee change hchange
    have hdistinct := Recovery.distinctSources_twice
      (r := { sources := [(v, f.outpoint), (v, f.outpoint)], fee }) rfl hsource
    exact Recovery.build_isOk hdistinct (List.cons_ne_nil _ _) rfl hchange
  obtain ⟨coin, change, hsame, hchange⟩ : ∃ (coin : Coin) (change : TxOut),
      coin.input.previousOutput = f.outpoint ∧ coin.change = .ok change :=
    ⟨⟨TxIn.spending f.outpoint, ⟨50000, Script.anyone⟩⟩, ⟨40000, Script.anyone⟩, rfl,
      Coin.change_eq_ok_iff.mpr ⟨rfl, rfl⟩⟩
  obtain ⟨recovery, hrecovery⟩ := hrecovers (optionMapM_none_eq_ok_iff.mpr rfl)
  obtain ⟨paid, hpaid⟩ := hrecovers (optionMapM_some_eq_ok_iff.mpr ⟨change, hchange, rfl⟩)
  refine ⟨v, f.outpoint, b, t, coin, recovery, paid, hown, hamount ▸ hrecorded, hsame, hb, hvalue,
    ht, htwice, hrecovery, ?_, hpaid, ?_⟩
  · rw [(hunpaid.2.2 { sources := [(v, f.outpoint), (v, f.outpoint)] } _ hrecovery).1]
    rintro _ ⟨⟩
  · rw [((spendsOnce_iff_named_once (some coin)).2.2
      { sources := [(v, f.outpoint), (v, f.outpoint)] } _ hpaid).1]
    exact fun hnot => hnot coin rfl (hsame ▸ List.mem_cons_self)

end VaultCovenant
