import VaultCovenant.Proofs.Batch.Outcome
import VaultCovenant.Proofs.Recovery.Sweep
import VaultCovenant.Proofs.Recovery.Triggered

/-!
# When a recovery is refused

A recovery looks at its sources in order, then at what they pay to each script,
then at the coin that pays. The first that does not fit decides. Trees, leaves
and signatures are never refused.

Results:
* `Recovery.failureOf_source`: when a vault cannot be swept at an outpoint.
* `Recovery.payments_eq`: the sources pay what is found at the outpoints that
  are named, each once.
* `Recovery.failureOf_creditAll`: when 64 bits do not hold what a script is
  paid.
* `Recovery.failureOf_build`: how a recovery ends.
-/

namespace VaultCovenant

/-! ## Where a trigger leads -/

namespace Trigger

/-- The trigger output of the first batch with a vault. -/
def outpointOf (t : Trigger) (id : VaultId) : Option Outpoint := do
  let (index, _) ← t.batchOf id
  (t.outpoint index).toOption

/-- A trigger of batches that were built, all of its outputs within reach of
their positions. -/
def OfBuilt (t : Trigger) : Prop :=
  t.tx.outputs.length < outputLimit ∧
    ∃ (orders : List Batch.Order) (batches : List Batch) (fee : Option Coin) (faults : FaultSet),
      List.Forall₂ (fun q b => q.build = .ok b) orders batches ∧ build batches fee faults = .ok t

namespace OfBuilt

variable {t : Trigger} {i : ℕ} {b : Batch} {id : VaultId}

/-- The first batch with a vault was built, its outpoint is known, and what is
there is its trigger output. -/
theorem batchOf (h : t.OfBuilt) (hb : t.batchOf id = some (i, b)) :
    ∃ o members targets revault shaping first total,
      Batch.Made members targets revault shaping first total b ∧ t.outpoint i = .ok o ∧
      t.tx.outputs[o.vout.toNat]? = some b.triggerOutput := by
  obtain ⟨hlen, orders, batches, fee, faults, horders, hbuild⟩ := h
  obtain ⟨fundings, change, witnesses, hmade⟩ := build_eq_ok hbuild
  obtain ⟨hget, -⟩ := batchOf_eq_some hb
  have hget' := hget
  rw [hmade.batches_eq] at hget'
  obtain ⟨q, -, hq⟩ := forall₂_getElem? horders.flip hget'
  obtain ⟨first, total, hbatch⟩ := Batch.build_eq_ok hq
  obtain ⟨o, ho⟩ := hmade.exists_outpoint hget'
  exact ⟨o, _, _, _, _, first, total, hbatch, ho, (hmade.outpoint hlen hget ho).2⟩

end OfBuilt

end Trigger

namespace Recovery

/-! ## One source -/

/-- Why a vault cannot be swept at an outpoint: at its own outpoint a part of
its coin is not on record, elsewhere no trigger leads there. -/
def sourceRefusal (trigger : Option Trigger) (v : Vault) (o : Outpoint) : Option VaultError :=
  if v.outpoint = some o then
    if v.output.isSome && v.amount.isSome then none else some (.notInitialized v.id)
  else if (trigger.bind fun t => t.outpointOf v.id) = some o then none
  else some (.missingSpendContext v.id o.text)

/-- What sweeping a vault at an outpoint pays, and the script that is paid: the
vault's own coin its recovery script, the trigger output of its batch that of
the batch's first member. -/
def payment (trigger : Option Trigger) (v : Vault) (o : Outpoint) : Option TxOut :=
  if v.outpoint = some o then v.output.map fun out => ⟨out.value, v.policy.recoverySpk⟩
  else do
    let (_, b) ← (← trigger).batchOf v.id
    let first ← b.members.head?
    return ⟨b.triggerOutput.value, first.policy.recoverySpk⟩

section

variable {trigger : Option Trigger}

theorem failureOf_vaultSource (v : Vault) :
    failureOf (vaultSource v) = failureOf v.funding := by
  cases hf : v.funding with
  | ok f =>
    obtain ⟨s, hs⟩ := vaultSource_isOk hf
    rw [hs]
    rfl
  | error e =>
    unfold vaultSource
    rw [hf]
    rfl

theorem failureOf_triggerSource (h : ∀ t, trigger = some t → t.OfBuilt) (v : Vault)
    (o : Outpoint) :
    failureOf (triggerSource v o trigger) =
      if (trigger.bind fun t => t.outpointOf v.id) = some o then none
      else some (.missingSpendContext v.id o.text) := by
  cases trigger with
  | none => rfl
  | some t =>
    rw [Option.bind_some]
    cases hb : t.batchOf v.id with
    | none => simp [triggerSource, Trigger.outpointOf, hb, throw, throwThe, MonadExceptOf.throw]
    | some found =>
      obtain ⟨i, b⟩ := found
      obtain ⟨expected, _, _, _, _, _, _, hmade, hexpected, hspent⟩ := (h t rfl).batchOf hb
      have hleads : t.outpointOf v.id = some expected := by
        simp [Trigger.outpointOf, hb, hexpected, Except.toOption]
      simp only [hleads, Option.some.injEq]
      by_cases ho : expected = o
      · subst ho
        obtain ⟨s, hs⟩ := triggerSource_isOk hmade hb hexpected hspent
        rw [hs, if_pos rfl]
        rfl
      · rw [if_neg ho]
        unfold triggerSource
        simp only [hb, hexpected]
        show failureOf (if expected ≠ o then _ else _) = _
        rw [if_pos ho]
        rfl

theorem failureOf_source (h : ∀ t, trigger = some t → t.OfBuilt) (v : Vault) (o : Outpoint) :
    failureOf (source trigger v o) = sourceRefusal trigger v o := by
  unfold source sourceRefusal
  by_cases ho : v.outpoint = some o
  · rw [if_pos ho, if_pos ho, failureOf_vaultSource]
    unfold Vault.funding
    rw [ho]
    cases v.output <;> cases v.amount <;> rfl
  · rw [if_neg ho, if_neg ho, failureOf_triggerSource h]

/-- A source pays what is found at its outpoint. -/
theorem payment_of_source (h : ∀ t, trigger = some t → t.OfBuilt) {v : Vault} {o : Outpoint}
    {s : Source} (hs : source trigger v o = .ok s) :
    payment trigger v o = some ⟨s.spent.value, s.recoverySpk⟩ := by
  unfold payment
  rcases resolves_of_source hs with
    ⟨ho, hout, hspk⟩ | ⟨ho, t, i, b, first, rfl, hb, hto, hfirst, hspent, hspk⟩
  · rw [if_pos ho, hout, hspk]
    rfl
  · obtain ⟨_, _, _, _, _, _, _, -, hexpected, hget⟩ := (h t rfl).batchOf hb
    cases hto.symm.trans hexpected
    have hvalue : s.spent = b.triggerOutput := Option.some.inj (hspent.symm.trans hget)
    rw [if_neg ho, hvalue, hspk]
    simp [hb, hfirst]

end

/-! ## All sources -/

/-- What sweeping the outpoints of a request pays, each outpoint once and as for
the vault that names it first. -/
def payments (r : RecoveryRequest) : List TxOut :=
  (r.sources.map Prod.snd).eraseDups.filterMap fun o =>
    (r.sources.find? fun p => p.2 = o).bind fun p => payment r.trigger p.1 o

section

variable {r : RecoveryRequest} {sources : List Source}

theorem failureOf_distinctSources (h : ∀ t, r.trigger = some t → t.OfBuilt) :
    failureOf (distinctSources r) =
      r.sources.findSome? fun p => sourceRefusal r.trigger p.1 p.2 := by
  unfold distinctSources
  rw [failureOf_bind_of_ok fun _ _ => rfl, failureOf_mapM]
  congr 1
  funext p
  exact failureOf_source h p.1 p.2

theorem isEmpty_distinctSources (h : distinctSources r = .ok sources) :
    sources.isEmpty = r.sources.isEmpty := by
  have hmap := map_outpoint_distinctSources h
  rw [← List.isEmpty_map (f := (·.outpoint)), hmap]
  cases r.sources with
  | nil => rfl
  | cons p rest => rw [List.map_cons, List.eraseDups_cons]; rfl

/-- The sources pay what is found at the outpoints that are named. -/
theorem payments_eq (h : ∀ t, r.trigger = some t → t.OfBuilt)
    (hsources : distinctSources r = .ok sources) :
    payments r = sources.map fun s => ⟨s.spent.value, s.recoverySpk⟩ := by
  refine filterMap_of_forall₂ ((distinctSources_eq_ok hsources).imp ?_)
  rintro o s ⟨v, s', hfind, hsource, rfl⟩
  have hpaid := payment_of_source h hsource
  rw [hfind]
  exact hpaid

theorem balance_payments (sources : List Source) (spk : Script) :
    balance (sources.map fun s => ⟨s.spent.value, s.recoverySpk⟩) spk = claimed sources spk := by
  unfold balance claimed
  rw [List.filter_map, List.map_map]
  rfl

theorem claimed_of_not_mem {spk : Script} (h : spk ∉ sources.map Source.recoverySpk) :
    claimed sources spk = 0 := by
  rw [← balance_payments]
  refine balance_of_not_mem ?_
  rw [scripts, List.map_map]
  exact h

/-- What a script is paid has to fit 64 bits, script by script. -/
theorem failureOf_creditAll (sources : List Source) :
    failureOf (creditAll [] sources) =
      if ∃ s ∈ sources, Sats.bound ≤ claimed sources s.recoverySpk then some .overflow
      else none := by
  split
  · rename_i hover
    obtain ⟨s, -, hover⟩ := hover
    cases hcredit : creditAll [] sources with
    | error e => rw [creditAll_eq_error hcredit, failureOf_error]
    | ok credited => exact absurd hover (Nat.not_le.mpr (claimed_lt_of_creditAll hcredit _))
  · rename_i hfits
    rw [failureOf_eq_none_iff, Prod.exists]
    refine creditAll_isOk_of_claimed fun spk => ?_
    rw [balance_nil, Nat.zero_add]
    by_cases hmem : spk ∈ sources.map Source.recoverySpk
    · obtain ⟨s, hs, rfl⟩ := List.mem_map.mp hmem
      exact Nat.not_le.mp fun hover => hfits ⟨s, hs, hover⟩
    · rw [claimed_of_not_mem hmem]
      decide

end

/-! ## The recovery -/

/-- Why a recovery is refused, in the order in which its parts are looked at:
the first source that does not resolve, then no source, then a script that is
paid more than 64 bits hold, then the coin that pays. -/
def refusal (r : RecoveryRequest) : Option Failure :=
  ((r.sources.findSome? fun p => sourceRefusal r.trigger p.1 p.2).map Failure.error).or <|
    if r.sources.isEmpty then some (.error (.transaction "recovery needs at least one input"))
    else if ∃ paid ∈ payments r, Sats.bound ≤ balance (payments r) paid.scriptPubkey then
      some .overflow
    else (r.fee.bind Coin.shortfall).map Failure.error

section

variable {r : RecoveryRequest} {sources : List Source}

theorem failureOf_credited (h : ∀ t, r.trigger = some t → t.OfBuilt)
    (hsources : distinctSources r = .ok sources) :
    failureOf (creditAll [] sources) =
      if ∃ paid ∈ payments r, Sats.bound ≤ balance (payments r) paid.scriptPubkey then
        some .overflow
      else none := by
  rw [failureOf_creditAll, payments_eq h hsources]
  simp only [List.mem_map, exists_exists_and_eq_and, balance_payments]

theorem failureOf_fee (r : RecoveryRequest) :
    failureOf (Failure.lift (r.fee.mapM Coin.change)) =
      (r.fee.bind Coin.shortfall).map Failure.error := by
  rw [failureOf_lift, failureOf_optionMapM]
  simp only [Coin.failureOf_change]

theorem failureOf_build (h : ∀ t, r.trigger = some t → t.OfBuilt) :
    failureOf (build r) = refusal r := by
  unfold build refusal
  rw [← failureOf_distinctSources h, ← failureOf_lift]
  refine failureOf_bind fun sources hlift => ?_
  have hsources := lift_eq_ok_iff.mp hlift
  have hempty := isEmpty_distinctSources hsources
  by_cases hnone : r.sources.isEmpty = true
  · rw [if_pos hnone, if_pos (hempty.trans hnone)]
    rfl
  rw [if_neg hnone, if_neg (hempty ▸ hnone), ← or_of_ite, ← failureOf_credited h hsources]
  refine failureOf_bind fun credited _ => ?_
  rw [← failureOf_fee]
  refine failureOf_bind_of_ok fun change _ => ?_
  -- with the sources, their outputs and the change there is a witness for all
  obtain ⟨ws, hws⟩ := witnessesFrom_isOk r.faults 0 (sources.zip (placed change credited.2))
    (length_prevouts r sources (payouts r.faults change credited.1 credited.2))
  rw [failureOf_eq_none_iff]
  exact ⟨_, bind_eq_ok_iff.mpr ⟨ws, lift_eq_ok_iff.mpr hws, rfl⟩⟩

/-- Only these causes are reported. -/
theorem cause_of_refusal {cause : VaultError} (h : refusal r = some (.error cause)) :
    (∃ id, cause = .notInitialized id) ∨ (∃ id place, cause = .missingSpendContext id place) ∨
      cause = .transaction "recovery needs at least one input" ∨
      ∃ available, cause = .insufficientFunds 10000 available := by
  unfold refusal at h
  cases hfirst : r.sources.findSome? fun p => sourceRefusal r.trigger p.1 p.2 with
  | some first =>
    rw [hfirst] at h
    cases h
    obtain ⟨p, -, hp⟩ := List.exists_of_findSome?_eq_some hfirst
    unfold sourceRefusal at hp
    split_ifs at hp <;> cases hp
    · exact Or.inl ⟨_, rfl⟩
    · exact Or.inr (Or.inl ⟨_, _, rfl⟩)
  | none =>
    rw [hfirst, Option.map_none, Option.none_or] at h
    split_ifs at h
    · cases h
      exact Or.inr (Or.inr (Or.inl rfl))
    · cases h
    · obtain ⟨_, hshort, hcause⟩ := Option.map_eq_some_iff.mp h
      cases hcause
      obtain ⟨coin, -, hcoin⟩ := Option.bind_eq_some_iff.mp hshort
      unfold Coin.shortfall at hcoin
      split_ifs at hcoin
      cases hcoin
      exact Or.inr (Or.inr (Or.inr ⟨_, rfl⟩))

/-- A recovery accepts exactly the sources that it can spend. With a trigger of
batches that were built, or without one, it ends as its sources, what they pay
to each script and the coin that pays say: a refusal that applies is met, whether
or not another source was accepted at the same outpoint, and without one the
recovery is built, under any faults. No other cause is reported, so that trees,
leaves, keys and signatures are always there. -/
theorem accepts_exactly (h : ∀ t, r.trigger = some t → t.OfBuilt) :
    (∀ e, build r = .error e ↔ refusal r = some e) ∧
    ((∃ t, build r = .ok t) ↔ refusal r = none) ∧
    ∀ cause, build r = .error (.error cause) →
      (∃ id, cause = .notInitialized id) ∨ (∃ id place, cause = .missingSpendContext id place) ∨
        cause = .transaction "recovery needs at least one input" ∨
        ∃ available, cause = .insufficientFunds 10000 available := by
  have hends := failureOf_build h
  refine ⟨fun e => ?_, ?_, fun cause hcause => ?_⟩
  · rw [← hends, failureOf_eq_some_iff]
  · rw [← hends, failureOf_eq_none_iff]
  · have hrefused : refusal r = some (.error cause) := by
      rw [← hends, failureOf_eq_some_iff, hcause]
    exact cause_of_refusal hrefused

end

/-- A vault of 990000 sats is triggered. Another vault that nothing was locked
in cannot be swept at the trigger output, although the first can, and a vault
whose output is not on record is refused before it. The first vault is swept at
its own outpoint, named twice, unless the coin that pays is too small. -/
theorem accepts_exactly_in_order :
    ∃ (v u w : Vault) (o own missing : Outpoint) (t : Trigger),
      u.id = 2 ∧ w.id = 3 ∧ t.outpoint 0 = .ok o ∧
      build { sources := [(v, o), (u, o)], trigger := some t } =
        .error (.error (.missingSpendContext 2 o.text)) ∧
      build { sources := [(v, o), (w, missing), (u, o)], trigger := some t } =
        .error (.error (.notInitialized 3)) ∧
      build { sources := [], trigger := some t } =
        .error (.error (.transaction "recovery needs at least one input")) ∧
      build { sources := [(v, own), (v, own)], trigger := some t,
              fee := some ⟨TxIn.spending .null, ⟨9999, Script.anyone⟩⟩ } =
        .error (.error (.insufficientFunds 10000 9999)) ∧
      ∃ recovery, build { sources := [(v, own), (v, own)], trigger := some t } = .ok recovery := by
  obtain ⟨p, -⟩ := Policy.ofParams_isOk (show ({} : VaultParams).recoverySecret ≠ 0 by decide)
    (by decide)
  obtain ⟨v, f, hid, -, hf, -, hamount, hvalue⟩ := Vault.exists_funded 1 p .null 990000
  obtain ⟨hown, hout, hrecorded⟩ := Vault.funding_eq_ok_iff.mp hf
  obtain ⟨b, hb⟩ := Batch.build_isOk [] none (Vault.total_singleton hf)
    (show _ = Except.ok 990000 by rw [hamount]; decide)
  obtain ⟨t, ht⟩ := Trigger.build_alone_isOk .none hb
  obtain ⟨first, total, hmade⟩ := Batch.build_eq_ok hb
  obtain ⟨_, _, _, htmade⟩ := Trigger.build_eq_ok ht
  obtain ⟨o, ho⟩ := htmade.exists_outpoint (k := 0) (b := b) rfl
  have hlen := Trigger.length_outputs_singleton ht
  have hbuilt : ∀ t', some t = some t' → t'.OfBuilt := by
    rintro t' ⟨⟩
    exact ⟨hlen, [⟨[v], [], none, .none⟩], [b], none, .none, .cons hb .nil, ht⟩
  -- the first vault is found at both of its outpoints
  have hbatch : t.batchOf v.id = some (0, b) := by
    simp [Trigger.batchOf, htmade.batches_eq, Batch.contains, Batch.memberIds, hmade.members_eq]
  have hthere : sourceRefusal (some t) v o = none := by
    unfold sourceRefusal
    split
    · simp [hout, hrecorded]
    · simp [Trigger.outpointOf, hbatch, ho, Except.toOption]
  have hhere : sourceRefusal (some t) v f.outpoint = none := by
    simp [sourceRefusal, hown, hout, hrecorded]
  have hother : t.batchOf 2 = none := by
    simp [Trigger.batchOf, htmade.batches_eq, Batch.contains, Batch.memberIds, hmade.members_eq,
      hid]
  have hpaid : ∀ fee : Option Coin, payments
      { sources := [(v, f.outpoint), (v, f.outpoint)], trigger := some t, fee } =
        [⟨990000, v.policy.recoverySpk⟩] := by
    intro fee
    simp [payments, payment, hown, hout, hvalue, List.eraseDups_cons]
  have hroom : ¬ Sats.bound ≤
      balance [⟨990000, v.policy.recoverySpk⟩] v.policy.recoverySpk := by
    rw [balance_cons, if_pos rfl, balance_nil]
    exact show ¬ Sats.bound ≤ 990000 + 0 by decide
  have habsent : sourceRefusal (some t) (.empty 2 p) o =
      some (.missingSpendContext 2 o.text) := by
    simp [sourceRefusal, Vault.empty, Trigger.outpointOf, hother]
  have hpartial : sourceRefusal (some t) { Vault.empty 3 p with outpoint := some .null } .null =
      some (.notInitialized 3) := by
    simp [sourceRefusal, Vault.empty]
  refine ⟨v, .empty 2 p, { Vault.empty 3 p with outpoint := some .null }, o, f.outpoint, .null, t,
    rfl, rfl, ho, ?_, ?_, ?_, ?_, ?_⟩
  · refine ((accepts_exactly hbuilt).1 _).mpr ?_
    simp [refusal, hthere, habsent]
  · refine ((accepts_exactly hbuilt).1 _).mpr ?_
    simp [refusal, hthere, hpartial]
  · exact ((accepts_exactly hbuilt).1 _).mpr rfl
  · refine ((accepts_exactly hbuilt).1 _).mpr ?_
    simp only [refusal, hpaid]
    simp [hhere, hroom, Coin.shortfall]
  · refine (accepts_exactly hbuilt).2.1.mpr ?_
    simp only [refusal, hpaid]
    simp [hhere, hroom]

end Recovery

end VaultCovenant
