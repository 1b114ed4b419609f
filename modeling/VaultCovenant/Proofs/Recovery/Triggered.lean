import Mathlib.Data.List.Nodup
import VaultCovenant.Proofs.Records
import VaultCovenant.Proofs.Recovery.Build

/-!
# Recovering what was triggered

A member of a batch that was triggered can be recovered from the trigger
output, whatever else was triggered with it, as long as no id is used twice.

Results:
* `Trigger.batchOf_of_mem`: a member leads to its batch.
* `Recovery.build_triggered_isOk`: a member can be recovered alone, with or
  without a coin that pays.
* `Session.exists_triggered`: a vault can be triggered and then recovered.
-/

namespace VaultCovenant

/-! ## From a member to its batch -/

namespace Trigger

variable {batches : List Batch} {fee : Option Coin} {faults : FaultSet} {t : Trigger} {k : ℕ}
  {b : Batch} {v : Vault}

theorem eq_of_contains (hids : (t.batches.flatMap Batch.memberIds).Nodup) {i j : ℕ} {c d : Batch}
    (hc : t.batches[i]? = some c) (hd : t.batches[j]? = some d) {id : VaultId}
    (hci : c.contains id = true) (hdi : d.contains id = true) : i = j := by
  rw [Batch.contains, List.contains_iff_mem] at hci hdi
  have hdisjoint := List.pairwise_iff_getElem.mp (List.nodup_flatMap.mp hids).2
  obtain ⟨hi, rfl⟩ := List.getElem?_eq_some_iff.mp hc
  obtain ⟨hj, rfl⟩ := List.getElem?_eq_some_iff.mp hd
  rcases Nat.lt_trichotomy i j with hlt | heq | hgt
  · exact absurd hdi (hdisjoint i j hi hj hlt hci)
  · exact heq
  · exact absurd hci (hdisjoint j i hj hi hgt hdi)

/-- Where no id is used twice a member leads to its batch. -/
theorem batchOf_of_mem (hids : (t.batches.flatMap Batch.memberIds).Nodup)
    (hb : t.batches[k]? = some b) (hv : v ∈ b.members) : t.batchOf v.id = some (k, b) := by
  have hcontains : b.contains v.id = true := by
    rw [Batch.contains, List.contains_iff_mem]
    exact List.mem_map_of_mem hv
  have hmem : (b, k) ∈ t.batches.zipIdx := List.mem_zipIdx_iff_getElem?.mpr hb
  cases hfind : t.batches.zipIdx.find? fun p => p.1.contains v.id with
  | none => exact absurd hcontains (List.find?_eq_none.mp hfind (b, k) hmem)
  | some p =>
    have hp := List.mem_zipIdx_iff_getElem?.mp (List.mem_of_find?_eq_some hfind)
    have hpcontains := List.find?_some hfind
    have hk : p.2 = k := eq_of_contains hids hp hb hpcontains hcontains
    rw [hk, hb] at hp
    unfold Trigger.batchOf
    rw [hfind, Option.map_some]
    exact congrArg some (Prod.ext hk (Option.some.inj hp).symm)

/-- There is an output at every outpoint that a trigger reports. -/
theorem Made.exists_spent {fundings : List Funding} {change : Option TxOut}
    {witnesses : List (List Bytes)} (h : Made batches fee faults fundings change witnesses t)
    (hb : t.batches[k]? = some b) {o : Outpoint} (ho : t.outpoint k = .ok o) :
    ∃ spent, t.tx.outputs[o.vout.toNat]? = some spent := by
  rw [h.batches_eq] at hb
  have hget := getElem?_outputs change hb (k := 0) (by simp [Batch.outputs])
  rw [← h.outputs_eq] at hget
  have hlt := (List.getElem?_eq_some_iff.mp (hget.trans rfl)).1
  unfold Trigger.outpoint at ho
  rw [h.positions_eq, getElem?_positionsFrom, hb] at ho
  cases ho
  -- a position too large for its 32 bits leads to an earlier output
  have hle : (UInt32.ofNat (offset change.toList.length batches k)).toNat ≤
      offset change.toList.length batches k := by
    rw [UInt32.toNat_ofNat']
    exact Nat.mod_le _ _
  exact ⟨_, List.getElem?_eq_getElem (by show (UInt32.ofNat _).toNat < _; omega)⟩

theorem Made.exists_outpoint {fundings : List Funding} {change : Option TxOut}
    {witnesses : List (List Bytes)} (h : Made batches fee faults fundings change witnesses t)
    (hb : batches[k]? = some b) : ∃ o, t.outpoint k = .ok o := by
  unfold Trigger.outpoint
  rw [h.positions_eq, getElem?_positionsFrom, hb]
  exact ⟨_, rfl⟩

end Trigger

/-! ## From a member to its recovery -/

namespace Recovery

variable {batches : List Batch} {fee : Option Coin} {faults : FaultSet} {t : Trigger} {k : ℕ}
  {b : Batch} {v : Vault} {o : Outpoint}

theorem source_triggered_isOk {members : List Vault} {targets : List TxOut}
    {revault : Option Sats} {shaping : FaultSet}
    (hbatch : Batch.build members targets revault shaping = .ok b)
    (hbuild : Trigger.build batches fee faults = .ok t)
    (hids : (batches.flatMap Batch.memberIds).Nodup) (hb : batches[k]? = some b)
    (ho : t.outpoint k = .ok o) (hv : v ∈ members) : ∃ s, source (some t) v o = .ok s := by
  obtain ⟨first, total, hmade⟩ := Batch.build_eq_ok hbatch
  obtain ⟨fundings, change, witnesses, htmade⟩ := Trigger.build_eq_ok hbuild
  unfold source
  by_cases hvo : v.outpoint = some o
  · rw [if_pos hvo]
    obtain ⟨fs, hfs, -⟩ := Vault.total_eq_ok_iff.mp hmade.total_eq
    obtain ⟨i, hi⟩ := List.mem_iff_getElem?.mp hv
    obtain ⟨f, -, hf⟩ := forall₂_getElem? (Vault.fundings_eq_ok_iff.mp hfs) hi
    exact vaultSource_isOk hf
  · rw [if_neg hvo]
    rw [← htmade.batches_eq] at hids hb
    rw [← hmade.members_eq] at hv
    obtain ⟨spent, hspent⟩ := htmade.exists_spent hb ho
    exact triggerSource_isOk hmade (Trigger.batchOf_of_mem hids hb hv) ho hspent

/-- A member can be recovered alone from the trigger output of its batch. -/
theorem build_triggered_isOk {members : List Vault} {targets : List TxOut}
    {revault : Option Sats} {shaping : FaultSet}
    (hbatch : Batch.build members targets revault shaping = .ok b)
    (hbuild : Trigger.build batches fee faults = .ok t)
    (hids : (batches.flatMap Batch.memberIds).Nodup) (hb : batches[k]? = some b)
    (ho : t.outpoint k = .ok o) (hv : v ∈ members) {coin : Option Coin} {change : Option TxOut}
    (hchange : coin.mapM Coin.change = .ok change) (anchor : Bool) (made : FaultSet) :
    ∃ recovery, build ⟨[(v, o)], some t, coin, anchor, made⟩ = .ok recovery := by
  obtain ⟨s, hs⟩ := source_triggered_isOk hbatch hbuild hids hb ho hv
  exact build_singleton_isOk rfl hs hchange

end Recovery

/-! ## A session in which a vault was triggered -/

/-- A coin can be locked and part of it triggered, and the trigger output
recovered, with or without a coin that pays. -/
theorem Session.exists_triggered (params : VaultParams) (hrecovery : params.recoverySecret ≠ 0)
    (htrigger : params.triggerSecret ≠ 0) :
    ∃ (s : Session) (p : Policy) (v : Vault) (f : Funding) (b : Batch) (t : Trigger)
      (o : Outpoint),
      s.Reachable ∧ Policy.ofParams params = .ok p ∧ v.policy = p ∧ v ∈ s.vaults ∧
      v.funding = .ok f ∧ t ∈ s.triggers ∧
      Batch.build [v] [⟨700000, Script.anyone⟩] (some 200000) .none = .ok b ∧
      Trigger.build [b] none .none = .ok t ∧ t.batches = [b] ∧ t.outpoint 0 = .ok o ∧
      ∀ coin change anchor made, coin.mapM Coin.change = .ok change →
        ∃ recovery, Recovery.build ⟨[(v, o)], some t, coin, anchor, made⟩ = .ok recovery := by
  obtain ⟨p, hp⟩ := Policy.ofParams_isOk hrecovery htrigger
  have hcreate : Vault.ofParams 7 params = .ok (.empty 7 p) := map_eq_ok_iff.mpr ⟨p, hp, rfl⟩
  obtain ⟨tx, v, f, hlock, hf, hamount, hpolicy⟩ : ∃ tx v f,
      (Vault.empty 7 p).lock ⟨TxIn.spending Outpoint.null, ⟨1000000, Script.anyone⟩⟩ none =
        .ok (tx, v) ∧ v.funding = .ok f ∧ f.amount = 990000 ∧ v.policy = p :=
    ⟨_, _, _, bind_eq_ok_iff.mpr ⟨990000, by decide, rfl⟩, Vault.funding_withFunding _ _, rfl, rfl⟩
  have hstart : start.Reachable := .refl
  have hs : Reachable _ := (hstart.tail (.create hcreate)).tail (.lock List.mem_cons_self hlock)
  have hpart : 200000 ≤ f.amount := by
    rw [hamount]
    decide
  obtain ⟨b, t, hb, ht, -, hs'⟩ := hs.trigger List.mem_cons_self hf hpart [⟨700000, Script.anyone⟩]
  obtain ⟨first, total, hmade⟩ := Batch.build_eq_ok hb
  obtain ⟨_, _, _, htmade⟩ := Trigger.build_eq_ok ht
  obtain ⟨o, ho⟩ := htmade.exists_outpoint (k := 0) (b := b) rfl
  have hids : ([b].flatMap Batch.memberIds).Nodup := by
    rw [List.flatMap_singleton, Batch.memberIds, hmade.members_eq]
    exact List.nodup_singleton _
  exact ⟨_, p, v, f, b, t, o, hs', hp, hpolicy, List.mem_cons_self, hf, List.mem_cons_self, hb, ht,
    htmade.batches_eq, ho, fun coin change anchor made hchange =>
      Recovery.build_triggered_isOk hb ht hids rfl ho (List.mem_singleton_self v) hchange anchor
        made⟩

end VaultCovenant
