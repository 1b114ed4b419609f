import Mathlib.Algebra.Group.Action.Defs
import Mathlib.Algebra.Order.BigOperators.Group.List
import Mathlib.Algebra.Order.Ring.Nat
import VaultCovenant.Proofs.FirstSeen
import VaultCovenant.Proofs.Recovery.Sweep
import VaultCovenant.Proofs.Scenario.Evidence

/-!
# Recoveries of several coins

A recovery of coins that can be resolved is built as long as their sum fits
into 64 bits. It has one output for each recovery script, beside the change.

Results:
* `Recovery.build_isOk_of_bounds`: coins that can be resolved and are worth
  little enough are recovered together.
* `Recovery.length_outputs_of_last`: where all coins but the last have one
  recovery script, and the last has an outpoint and a script of its own, there
  are two outputs beside the change.
-/

namespace VaultCovenant.Recovery

variable {r : RecoveryRequest} {recovery : Recovery}

/-- Every coin of the request can be resolved and is worth no more than a bound. -/
def Resolvable (r : RecoveryRequest) (most : ℕ) : Prop :=
  ∀ p ∈ r.sources, ∃ s, source r.trigger p.1 p.2 = .ok s ∧ s.spent.value.toNat ≤ most

theorem Resolvable.distinct {most : ℕ} (h : Resolvable r most) {sources : List Source}
    (hsources : distinctSources r = .ok sources) : ∀ s ∈ sources, s.spent.value.toNat ≤ most := by
  intro s hs
  obtain ⟨o, -, v, s', hfind, hs', rfl⟩ :=
    forall₂_mem_right (distinctSources_eq_ok hsources) hs
  obtain ⟨s'', hs'', hle⟩ := h _ (List.mem_of_find?_eq_some hfind)
  rw [Except.ok.inj (hs'.symm.trans hs'')]
  exact hle

/-- No more sources are spent than were asked for. -/
theorem length_distinctSources_le {sources : List Source}
    (h : distinctSources r = .ok sources) : sources.length ≤ r.sources.length := by
  have hmap := congrArg List.length (map_outpoint_distinctSources h)
  have hle := length_eraseDups_le (r.sources.map Prod.snd)
  rw [List.length_map] at hmap hle
  omega

theorem build_isOk_of_bounds {most : ℕ} {change : Option TxOut} (h : Resolvable r most)
    (hne : r.sources ≠ []) (hbound : r.sources.length * most < Sats.bound)
    (hchange : r.fee.mapM Coin.change = .ok change) : ∃ recovery, build r = .ok recovery := by
  obtain ⟨sources, hsources⟩ := distinctSources_isOk_iff.mpr fun p hp =>
    (h p hp).imp fun _ hs => hs.1
  have hsome : sources ≠ [] := by
    rintro rfl
    have hmap := map_outpoint_distinctSources hsources
    obtain ⟨p, rest, hp⟩ := List.exists_cons_of_ne_nil hne
    have hmem : p.2 ∈ (r.sources.map Prod.snd).eraseDups := by
      rw [hp]
      exact List.mem_eraseDups.mpr List.mem_cons_self
    rw [← hmap] at hmem
    cases hmem
  have hsum : (sources.map (·.spent.value.toNat)).sum ≤ sources.length * most := by
    have hle := List.sum_le_card_nsmul (sources.map (·.spent.value.toNat)) most fun n hn => by
      obtain ⟨s, hs, rfl⟩ := List.mem_map.mp hn
      exact h.distinct hsources s hs
    rw [List.length_map, smul_eq_mul] at hle
    exact hle
  have hfew := Nat.mul_le_mul_right most (length_distinctSources_le hsources)
  have hroom : (([] : List TxOut).map (·.value.toNat)).sum +
      (sources.map (·.spent.value.toNat)).sum < Sats.bound := by
    rw [List.map_nil, List.sum_nil]
    omega
  obtain ⟨swept, positions, hswept⟩ := creditAll_isOk hroom
  exact build_isOk hsources hsome hswept hchange

/-- Two different recovery scripts make two outputs beside the change. -/
theorem length_outputs_of_last (h : build r = .ok recovery) (hfaults : r.faults = .none)
    (hanchor : r.anchor = false) {first : Vault × Outpoint} {front : List (Vault × Outpoint)}
    {v : Vault} {o : Outpoint} {spk : Script} (hsources : r.sources = first :: front ++ [(v, o)])
    (hfront : ∀ p ∈ first :: front, ∀ s, source r.trigger p.1 p.2 = .ok s → s.recoverySpk = spk)
    (ho : v.outpoint = some o) (hspk : spk ≠ v.policy.recoverySpk)
    (hfresh : o ∉ (first :: front).map Prod.snd) :
    recovery.tx.outputs.length = r.fee.toList.length + 2 := by
  obtain ⟨sources, swept, positions, change, witnesses, hmade⟩ := build_eq_ok h
  have hall := distinctSources_eq_ok hmade.sources_eq
  -- a source is found for every outpoint, and only the last vault names its own
  have hfound : ∀ p ∈ r.sources, ∃ c ∈ sources, ∃ q ∈ r.sources, q.2 = p.2 ∧
      ∃ s, source r.trigger q.1 q.2 = .ok s ∧ c.recoverySpk = s.recoverySpk := by
    intro p hp
    have hmem : p.2 ∈ (r.sources.map Prod.snd).eraseDups :=
      List.mem_eraseDups.mpr (List.mem_map_of_mem hp)
    obtain ⟨k, hk⟩ := List.mem_iff_getElem?.mp hmem
    obtain ⟨_, hc, w, s, hfind, hsource, rfl⟩ := forall₂_getElem? hall hk
    exact ⟨_, List.mem_iff_getElem?.mpr ⟨k, hc⟩, (w, p.2), List.mem_of_find?_eq_some hfind, rfl, s,
      hsource, rfl⟩
  have hcases : ∀ q ∈ r.sources, q ∈ first :: front ∨ q = (v, o) := by
    intro q hq
    rw [hsources] at hq
    exact (List.mem_append.mp hq).imp_right List.mem_singleton.mp
  have hscripts : ∀ script, script ∈ sources.map Source.recoverySpk ↔
      script ∈ [spk, v.policy.recoverySpk] := by
    intro script
    rw [List.mem_cons, List.mem_singleton]
    constructor
    · intro hscript
      obtain ⟨c, hc, rfl⟩ := List.mem_map.mp hscript
      obtain ⟨o', -, w, s, hfind, hsource, rfl⟩ := forall₂_mem_right hall hc
      rcases hcases _ (List.mem_of_find?_eq_some hfind) with hq | hq
      · exact Or.inl (hfront _ hq s hsource)
      · obtain ⟨rfl, rfl⟩ := Prod.mk.inj hq
        have hown : s.recoverySpk = w.policy.recoverySpk := recoverySpk_of_own ho hsource
        exact Or.inr hown
    · rintro (rfl | rfl)
      · obtain ⟨c, hc, q, hq, hqo, s, hsource, hcs⟩ := hfound first (by
          rw [hsources]
          exact List.mem_append_left _ List.mem_cons_self)
        rcases hcases q hq with hq | rfl
        · rw [← hfront q hq s hsource, ← hcs]
          exact List.mem_map_of_mem hc
        · exact absurd (List.mem_map.mpr ⟨first, List.mem_cons_self, hqo.symm⟩) hfresh
      · obtain ⟨c, hc, q, hq, hqo, s, hsource, hcs⟩ := hfound (v, o) (by
          rw [hsources]
          exact List.mem_append_right _ (List.mem_singleton_self _))
        rcases hcases q hq with hq | rfl
        · exact absurd (List.mem_map.mpr ⟨q, hq, hqo⟩) hfresh
        · rw [← recoverySpk_of_own ho hsource, ← hcs]
          exact List.mem_map_of_mem hc
  have htwo : (scripts swept).length = 2 := by
    rw [hmade.scripts_swept]
    have hnodup : [spk, v.policy.recoverySpk].Nodup := by
      simp [hspk]
    refine ((List.perm_ext_iff_of_nodup (nodup_eraseDups _) hnodup).mpr fun script => ?_).length_eq
    rw [List.mem_eraseDups]
    exact hscripts script
  have hchange : change.toList.length = r.fee.toList.length := by
    rcases hmade.changed with ⟨hfee, rfl, -⟩ | ⟨coin, value, hfee, rfl, -⟩ <;> rw [hfee] <;> rfl
  rw [(hmade.payouts_eq hfaults).2, hanchor, if_neg Bool.false_ne_true, List.append_nil,
    List.length_append, hchange, ← htwo, scripts, List.length_map]

end VaultCovenant.Recovery
