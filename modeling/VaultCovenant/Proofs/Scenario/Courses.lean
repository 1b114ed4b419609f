import VaultCovenant.Proofs.Scenario.Locking

/-!
# Watching every scenario

For each scenario the books stay right to its end, whatever the node answers:
a vault is moved only after the transaction that brings it there was taken.

Results:
* `Opened.granted_triggered`, `Opened.granted_withdrawn`,
  `Opened.granted_recovered`: what a transaction that was taken grants.
* `Ensures.triggerAll`, `Ensures.withdrawAll`, `Ensures.trackReturned`: the
  parts that scenarios share.
* `Ensures.course`: every scenario.
-/

namespace VaultCovenant

open Run

/-! ## Requests -/

namespace RecoveryRequest

variable {r r' : RecoveryRequest}

theorem vaulted_eq_ok {v : Vault} (h : r.vaulted v = .ok r') :
    ∃ o, v.outpoint = some o ∧ r' = r.spend v o := by
  obtain ⟨f, hf, h⟩ := bind_eq_ok_iff.mp h
  cases h
  exact ⟨f.outpoint, (Vault.funding_eq_ok_iff.mp hf).1, rfl⟩

theorem foldlM_vaulted_eq_ok {vs : List Vault} (h : vs.foldlM vaulted r = .ok r') :
    ∃ os, List.Forall₂ (fun (v : Vault) o => v.outpoint = some o) vs os ∧
      r' = { r with sources := r.sources ++ vs.zip os } := by
  induction vs generalizing r with
  | nil =>
    cases h
    exact ⟨[], .nil, by rw [List.zip_nil_left, List.append_nil]⟩
  | cons v vs ih =>
    rw [List.foldlM_cons] at h
    obtain ⟨r₁, hfirst, hrest⟩ := bind_eq_ok_iff.mp h
    obtain ⟨o, ho, rfl⟩ := vaulted_eq_ok hfirst
    obtain ⟨os, hos, rfl⟩ := ih hrest
    refine ⟨o :: os, .cons ho hos, ?_⟩
    rw [List.zip_cons_cons, spend, List.append_assoc, List.singleton_append]

end RecoveryRequest

/-- A triggered vault and others that are not are each swept to their own
script, where all but the last have one script and the last one is credited to
an output of its own. -/
theorem Recovery.sweeps_mixed {first last : Vault} {others : List Vault} {targets : List TxOut}
    {b : Batch} {t : Trigger} {o : Outpoint} {coin : Coin} {request : RecoveryRequest}
    {recovery : Recovery} (hb : Batch.build [first] targets none .none = .ok b)
    (ht : Trigger.build [b] none .none = .ok t)
    (hrequest : (others ++ [last]).foldlM RecoveryRequest.vaulted
      (({ trigger := some t, fee := some coin } : RecoveryRequest).spend first o) = .ok request)
    (hspk : ∀ v ∈ others, v.policy.recoverySpk = first.policy.recoverySpk)
    (hrecovery : build request = .ok recovery) (hlen : recovery.tx.outputs.length = 3) :
    recovery.tx.Sweeps o first.policy.recoverySpk ∧
      ∀ v ∈ others ++ [last], ∃ o', v.outpoint = some o' ∧
        recovery.tx.Sweeps o' v.policy.recoverySpk := by
  rw [List.foldlM_append] at hrequest
  obtain ⟨r, hothers, hlast⟩ := bind_eq_ok_iff.mp hrequest
  obtain ⟨os, hos, rfl⟩ := RecoveryRequest.foldlM_vaulted_eq_ok hothers
  obtain ⟨r', hr', hpure⟩ := bind_eq_ok_iff.mp hlast
  cases hpure
  obtain ⟨o', ho', rfl⟩ := RecoveryRequest.vaulted_eq_ok hr'
  have hzip : ∀ p ∈ others.zip os, p.1.outpoint = some p.2 := by
    rintro ⟨v, u⟩ hp
    exact (List.forall₂_iff_zip.mp hos).2 hp
  have hfront : ∀ p ∈ (first, o) :: others.zip os, ∀ s, source (some t) p.1 p.2 = .ok s →
      s.recoverySpk = first.policy.recoverySpk := by
    rintro ⟨v, o⟩ hp s hs
    rcases List.mem_cons.mp hp with hp | hp
    · cases hp
      exact recoverySpk_of_triggered hb ht hs
    · rw [recoverySpk_of_own (hzip _ hp) hs]
      exact hspk v (List.of_mem_zip hp).1
  refine ⟨sweeps_of_front hrecovery rfl rfl hfront List.mem_cons_self, ?_⟩
  intro v hv
  rcases List.mem_append.mp hv with hv | hv
  · obtain ⟨k, hk⟩ := List.mem_iff_getElem?.mp hv
    obtain ⟨u, hu, hvu⟩ := forall₂_getElem? hos hk
    have hmem : (v, u) ∈ others.zip os :=
      List.mem_iff_getElem?.mpr ⟨k, List.getElem?_zip_eq_some.mpr ⟨hk, hu⟩⟩
    refine ⟨u, hvu, ?_⟩
    rw [hspk v hv]
    exact sweeps_of_front hrecovery rfl rfl hfront (List.mem_cons_of_mem _ hmem)
  · rw [List.mem_singleton.mp hv]
    have hlen' : 1 + 1 < recovery.tx.outputs.length := hlen ▸ Nat.lt_succ_self 2
    exact ⟨o', ho', sweeps_of_last hrecovery rfl rfl rfl hfront hlen' ho'⟩

/-- The recovery output depends on the recovery secret alone. -/
theorem Policy.recoverySpk_of_ofParams {p q : VaultParams} {P Q : Policy}
    (hP : ofParams p = .ok P) (hQ : ofParams q = .ok Q)
    (h : p.recoverySecret = q.recoverySecret) : P.recoverySpk = Q.recoverySpk := by
  obtain ⟨secret, hsecret, hP⟩ := bind_eq_ok_iff.mp hP
  obtain ⟨secret', hsecret', hQ⟩ := bind_eq_ok_iff.mp hQ
  obtain ⟨_, -, hP⟩ := bind_eq_ok_iff.mp hP
  obtain ⟨_, -, hQ⟩ := bind_eq_ok_iff.mp hQ
  rw [h, hsecret'] at hsecret
  cases hsecret
  cases hP
  cases hQ
  rfl

theorem Batch.memberIds_of_build {members : List Vault} {targets : List TxOut}
    {revault : Option Sats} {faults : FaultSet} {b : Batch}
    (h : build members targets revault faults = .ok b) :
    b.memberIds = members.map Vault.id := by
  obtain ⟨first, total, hmade⟩ := build_eq_ok h
  rw [memberIds, hmade.members_eq]

/-! ## Grants -/

section

variable {w : Watch} {v : Vault} {members : List Vault} {targets : List TxOut}
  {revault : Option Sats} {b : Batch} {t : Trigger} {o : Outpoint} {tx : Transaction}
  {done : History}

theorem Opened.granted_vaulted (h : Opened w.name w.calls v) :
    Granted w.name w.calls v.id .vaulted := ⟨v, rfl, h⟩

/-- A member of a batch is triggered by the trigger of the batch. -/
theorem Opened.granted_triggered (h : Opened w.name w.calls v)
    (hb : Batch.build members targets revault .none = .ok b)
    (ht : Trigger.build [b] none .none = .ok t) (hv : v ∈ members) (htook : w.Took done t.tx) :
    Granted w.name w.calls v.id .triggered := by
  obtain ⟨o, ho⟩ := Trigger.exists_outpoint_singleton ht
  exact ⟨v, t, b, o, rfl, h, triggeredAt_of_build hb ht ho hv htook.mem⟩

/-- A member of a batch is withdrawn by the withdrawal from its trigger. -/
theorem Opened.granted_withdrawn (h : Opened w.name w.calls v)
    (hb : Batch.build members targets revault .none = .ok b)
    (ht : Trigger.build [b] none .none = .ok t) (ho : t.outpoint 0 = .ok o) (hv : v ∈ members)
    (htook : w.Took done t.tx) {later : History} (htx : Withdrawal.build o b .none = .ok tx)
    (htook' : w.Took later tx) : Granted w.name w.calls v.id .withdrawn := by
  obtain ⟨first, total, hmade⟩ := Batch.build_eq_ok hb
  obtain ⟨i, c, hinputs, hspent, -⟩ := Withdrawal.build_input hmade htx
  exact ⟨v, t, b, o, tx, i, rfl, h, triggeredAt_of_build hb ht ho hv htook.mem, htook'.mem, htx,
    hinputs, hspent⟩

/-- A vault is recovered by a recovery that sweeps its own outpoint. -/
theorem Opened.granted_recovered (h : Opened w.name w.calls v) (ho : v.outpoint = some o)
    (htook : w.Took done tx) (hsweeps : tx.Sweeps o v.policy.recoverySpk) :
    Granted w.name w.calls v.id .recovered :=
  ⟨v, o, tx, rfl, h, Or.inl ho, htook.mem, hsweeps⟩

/-- A member of a batch is recovered by a recovery that sweeps the trigger
output. -/
theorem Opened.granted_recovered_triggered (h : Opened w.name w.calls v)
    (hb : Batch.build members targets revault .none = .ok b)
    (ht : Trigger.build [b] none .none = .ok t) (ho : t.outpoint 0 = .ok o) (hv : v ∈ members)
    {before : History} (htrigger : w.Took before t.tx) (htook : w.Took done tx)
    (hsweeps : tx.Sweeps o v.policy.recoverySpk) : Granted w.name w.calls v.id .recovered :=
  ⟨v, o, tx, rfl, h, Or.inr ⟨t, b, triggeredAt_of_build hb ht ho hv htrigger.mem⟩, htook.mem,
    hsweeps⟩

/-- Vaults to which value returned from a trigger that was taken. -/
theorem Opened.of_returned {vaults : List Vault} (ht : Trigger.build [b] none .none = .ok t)
    (htook : w.Took done t.tx)
    (hvaults : t.revaulted (fun k => w.name ((coins done).length + k)) = .ok vaults)
    (hv : v ∈ vaults) : Opened w.name w.calls v := by
  obtain ⟨txid, after, hcalls⟩ := htook
  obtain ⟨fundings, change, witnesses, hmade⟩ := Trigger.build_eq_ok ht
  obtain ⟨o, out, hout, hvo, hvout, htxid, hget⟩ := Trigger.returned_of_build ht hvaults hv
  refine .returned done after t txid b o out vaults hcalls ?_ ?_ hout hvo hvout htxid hget hvaults
    hv
  · rw [hmade.batches_eq]
    exact ht
  · rw [hmade.batches_eq]
    exact List.mem_singleton_self b

end

/-- Between two points of a run value returned to vaults, which have new names. -/
structure Returned (w : Watch) (vs : List Vault) (s s' : RunState) : Prop where
  grown : s.named ≤ s'.named
  play : ∀ v ∈ vs, w.InPlay s' .vaulted v
  kept : ∀ state v, w.InPlay s state v → w.InPlay s' state v
  nodup : w.Distinct s'.named → (vs.map Vault.id).Nodup
  apart : w.Distinct s'.named → ∀ v, w.Known s v → v.id ∉ vs.map Vault.id

namespace Ensures

variable {w : Watch} {s : RunState} {done : History}

/-! ## Whole batches -/

section

variable {members : List Vault} {targets : List TxOut} {revault : Option Sats} {b : Batch}
  {t : Trigger} {before : History}

/-- The members of a batch whose trigger was taken are triggered. -/
theorem triggerAll (hb : Batch.build members targets revault .none = .ok b)
    (ht : Trigger.build [b] none .none = .ok t) (htrigger : w.Took before t.tx)
    (hplay : ∀ v ∈ members, w.InPlay s .vaulted v)
    (hnodup : w.Distinct s.named → (members.map Vault.id).Nodup) :
    Ensures w (Run.transitionAll (members.map Vault.id) .triggered) s done fun _ s' _ =>
      w.Moved .triggered (members.map Vault.id) s s' ∧ ∀ v ∈ members, w.InPlay s' .triggered v := by
  refine imp (transitionAll (fun v hv => ⟨.vaulted, rfl, hplay v hv⟩) hnodup ?_) ?_
  · intro v hv
    exact (hplay v hv).opened.granted_triggered hb ht hv htrigger
  · rintro _ s' _ ⟨-, hmoved⟩
    exact ⟨hmoved, fun v hv => (hplay v hv).moved hmoved (List.mem_map_of_mem hv)⟩

/-- The members of a batch whose withdrawal was taken are withdrawn. -/
theorem withdrawAll {o : Outpoint} {tx : Transaction} {later : History}
    (hb : Batch.build members targets revault .none = .ok b)
    (ht : Trigger.build [b] none .none = .ok t) (ho : t.outpoint 0 = .ok o)
    (htrigger : w.Took before t.tx) (htx : Withdrawal.build o b .none = .ok tx)
    (htook : w.Took later tx) (hplay : ∀ v ∈ members, w.InPlay s .triggered v)
    (hnodup : w.Distinct s.named → (members.map Vault.id).Nodup) :
    Ensures w (Run.transitionAll (members.map Vault.id) .withdrawn) s done fun _ _ _ => True := by
  refine imp (transitionAll (fun v hv => ⟨.triggered, rfl, hplay v hv⟩) hnodup ?_)
    fun _ _ _ _ => trivial
  intro v hv
  exact (hplay v hv).opened.granted_withdrawn hb ht ho hv htrigger htx htook

end

/-! ## One vault -/

theorem sweepFromVault (h : w.Aligned s done) :
    Ensures w w.runner.sweepFromVault s done fun _ _ _ => True := by
  unfold Runner.sweepFromVault
  refine bind (lockCoin _ h) fun v s₁ done₁ hlocked => ?_
  refine aside (w.quiet_mine 1) fun _ _ _ _ => ?_
  refine ofExcept (RecoveryRequest.stateless_vaulted _ _) fun request hrequest => ?_
  refine aside (w.quiet_showRecoveryFaults _ _) fun _ _ _ _ => ?_
  refine ofFailure (Recovery.stateless_build _) fun recovery hrecovery => ?_
  refine took (w.quiet_confirm _ _) fun htook _ _ _ _ => ?_
  have hplay := hlocked.play v (List.mem_singleton_self v)
  obtain ⟨o, ho, rfl⟩ := RecoveryRequest.vaulted_eq_ok hrequest
  have hsweeps := Recovery.sweeps_singleton hrecovery rfl rfl fun _ hs =>
    Recovery.recoverySpk_of_own ho hs
  refine imp (transition (hplay.later _) rfl ?_) fun _ _ _ _ => trivial
  exact hplay.opened.granted_recovered ho htook hsweeps

/-- After a vault was triggered alone it is in play, and the node has taken its
trigger. -/
theorem triggerOne (h : w.Aligned s done) :
    Ensures w w.runner.triggerOne s done fun (v, b, t, _) s' _ =>
      w.InPlay s' .triggered v ∧ (∃ targets, Batch.build [v] targets none .none = .ok b) ∧
        Trigger.build [b] none .none = .ok t ∧ ∃ before, w.Took before t.tx := by
  unfold Runner.triggerOne
  refine bind (lockCoin _ h) fun v s₁ done₁ hlocked => ?_
  refine aside (w.quiet_mine 1) fun _ _ _ _ => ?_
  refine ofExcept v.stateless_funding fun funding _ => ?_
  refine ofFailure (stateless_withdrawalTargets _ _) fun targets _ => ?_
  refine aside (w.quiet_showTriggerFaults _ _ _ _) fun _ _ _ _ => ?_
  refine buildTrigger fun b t hb ht => ?_
  refine took (w.quiet_expectAccept _ _) fun htook txid _ _ _ => ?_
  rw [transition_eq]
  refine bind (triggerAll hb ht htook (fun u hu => (hlocked.play u hu).later _) hlocked.nodup) ?_
  rintro _ s₂ done₂ ⟨-, hplay⟩
  exact pure ⟨hplay v (List.mem_singleton_self v), ⟨targets, hb⟩, ht, _, htook⟩

theorem sweepFromTrigger (h : w.Aligned s done) :
    Ensures w w.runner.sweepFromTrigger s done fun _ _ _ => True := by
  unfold Runner.sweepFromTrigger
  refine bind (triggerOne h) ?_
  rintro ⟨v, b, t, txid⟩ s₁ done₁ ⟨hplay, ⟨targets, hb⟩, ht, before, htrigger⟩
  refine ofExcept (t.stateless_outpoint 0) fun o ho => ?_
  refine ofFailure (Recovery.stateless_build _) fun short _ => ?_
  refine aside (w.quiet_expectReject _ _ _) fun _ _ _ _ => ?_
  refine aside (w.quiet_showRecoveryFaults _ _) fun _ _ _ _ => ?_
  refine ofFailure (Recovery.stateless_build _) fun recovery hrecovery => ?_
  refine took (w.quiet_confirm _ _) fun htook _ _ _ _ => ?_
  have hsweeps := Recovery.sweeps_singleton hrecovery rfl rfl fun _ hs =>
    Recovery.recoverySpk_of_triggered hb ht hs
  refine imp (transition (hplay.later _) rfl ?_) fun _ _ _ _ => trivial
  exact hplay.opened.granted_recovered_triggered hb ht ho (List.mem_singleton_self v) htrigger
    htook hsweeps

theorem singleVault (h : w.Aligned s done) :
    Ensures w w.runner.singleVault s done fun _ _ _ => True := by
  unfold Runner.singleVault
  refine bind (triggerOne h) ?_
  rintro ⟨v, b, t, txid⟩ s₁ done₁ ⟨hplay, ⟨targets, hb⟩, ht, before, htrigger⟩
  refine ofExcept (t.stateless_outpoint 0) fun o ho => ?_
  refine ofExcept (Withdrawal.stateless_build _ _ _) fun withdrawal hwithdrawal => ?_
  refine aside (w.quiet_expectReject _ _ _) fun _ _ _ _ => ?_
  refine aside (w.quiet_bumpFee _) fun _ _ _ _ => ?_
  refine aside (w.quiet_mine _) fun _ _ _ _ => ?_
  refine aside (w.quiet_expectReject _ _ _) fun _ _ _ _ => ?_
  refine aside (w.quiet_mine 1) fun _ _ _ _ => ?_
  refine aside (w.quiet_showWithdrawalFaults _ _ _) fun _ _ _ _ => ?_
  refine took (w.quiet_confirm _ _) fun htook _ _ _ _ => ?_
  refine imp (transition (hplay.later _) rfl ?_) fun _ _ _ _ => trivial
  exact hplay.opened.granted_withdrawn hb ht ho (List.mem_singleton_self v) htrigger hwithdrawal
    htook

/-! ## Vaults that a validator has to treat with care -/

theorem negativeDelay (h : w.Aligned s done) :
    Ensures w w.runner.negativeDelay s done fun _ _ _ => True := by
  unfold Runner.negativeDelay
  refine bind (lockCoin _ h) fun v s₁ done₁ hlocked => ?_
  refine aside (w.quiet_mine 1) fun _ _ _ _ => ?_
  refine ofFailure (Vault.stateless_total _) fun total _ => ?_
  refine ofFailure (stateless_withdrawalTargets _ _) fun targets _ => ?_
  refine buildTrigger fun b t _ _ => ?_
  refine aside (w.quiet_expectReject _ _ _) fun _ _ _ _ => ?_
  refine ofExcept (RecoveryRequest.stateless_vaulted _ _) fun request hrequest => ?_
  refine ofFailure (Recovery.stateless_build _) fun recovery hrecovery => ?_
  refine took (w.quiet_confirm _ _) fun htook _ _ _ _ => ?_
  have hplay := hlocked.play v (List.mem_singleton_self v)
  obtain ⟨o, ho, rfl⟩ := RecoveryRequest.vaulted_eq_ok hrequest
  have hsweeps := Recovery.sweeps_singleton hrecovery rfl rfl fun _ hs =>
    Recovery.recoverySpk_of_own ho hs
  refine imp (transition (hplay.later _) rfl ?_) fun _ _ _ _ => trivial
  exact hplay.opened.granted_recovered ho htook hsweeps

theorem recursiveRecoveryWitness (h : w.Aligned s done) :
    Ensures w w.runner.recursiveRecoveryWitness s done fun _ _ _ => True := by
  unfold Runner.recursiveRecoveryWitness
  refine ofExcept Runner.stateless_reenteringAuthorization fun authorization _ => ?_
  refine bind (lockCoin _ h) fun v s₁ done₁ _ => ?_
  refine aside (w.quiet_mine 1) fun _ _ _ _ => ?_
  refine ofExcept (RecoveryRequest.stateless_vaulted _ _) fun request _ => ?_
  refine ofFailure (Recovery.stateless_build _) fun recovery _ => ?_
  exact last (w.quiet_expectReject _ _ _)

/-! ## Several vaults -/

theorem batchTrigger (h : w.Aligned s done) :
    Ensures w w.runner.batchTrigger s done fun _ _ _ => True := by
  unfold Runner.batchTrigger
  refine bind (lockCoins _ h) fun vaults s₁ done₁ hlocked => ?_
  refine ofFailure (Vault.stateless_total _) fun total _ => ?_
  refine ofFailure (stateless_withdrawalTargets _ _) fun targets _ => ?_
  refine aside (Quiet.forM fun extra => (Quiet.buildTrigger _ _ _).andThen fun _ =>
    w.quiet_expectReject _ _ _) fun _ _ _ _ => ?_
  refine buildTrigger fun b t hb ht => ?_
  refine took (w.quiet_confirm _ _) fun htrigger _ _ _ _ => ?_
  have hplay : ∀ v ∈ vaults.take 3, w.InPlay s₁ .vaulted v :=
    fun v hv => hlocked.play v (List.mem_of_mem_take hv)
  have hnodup : w.Distinct s₁.named → ((vaults.take 3).map Vault.id).Nodup := fun hdistinct =>
    (hlocked.nodup hdistinct).sublist ((List.take_sublist 3 vaults).map _)
  rw [Batch.memberIds_of_build hb]
  refine bind (triggerAll hb ht htrigger (fun v hv => (hplay v hv).later _) hnodup) ?_
  rintro _ s₂ done₂ ⟨hmoved, hplay'⟩
  refine ofExcept (t.stateless_outpoint 0) fun o ho => ?_
  refine ofExcept (Withdrawal.stateless_build _ _ _) fun withdrawal hwithdrawal => ?_
  refine aside (w.quiet_expectReject _ _ _) fun _ _ _ _ => ?_
  refine aside (w.quiet_mine _) fun _ _ _ _ => ?_
  refine took (w.quiet_confirm _ _) fun htook _ _ _ _ => ?_
  refine withdrawAll hb ht ho htrigger hwithdrawal htook (fun v hv => (hplay' v hv).later _) ?_
  intro hdistinct
  apply hnodup
  exact hdistinct.mono (Nat.le_of_eq hmoved.named.symm)

theorem batchRecovery (h : w.Aligned s done) :
    Ensures w w.runner.batchRecovery s done fun _ _ _ => True := by
  unfold Runner.batchRecovery
  refine bind (lockCoin _ h) fun first s₁ done₁ hfirst => ?_
  refine bind (lockCoins _ hfirst.aligned) fun others s₂ done₂ hothers => ?_
  have hall := hfirst.append hothers
  have hplay := hall.play first List.mem_cons_self
  refine buildTrigger fun b t hb ht => ?_
  refine took (w.quiet_confirm _ _) fun htrigger _ _ _ _ => ?_
  rw [transition_eq]
  refine bind (triggerAll hb ht htrigger
    (fun v hv => (hothers.kept v (hfirst.play v hv)).later _)
    fun _ => List.nodup_singleton _) ?_
  rintro _ s₃ done₃ ⟨hmoved, hplay₃⟩
  refine spendableCoin fun coin _ => ?_
  refine ofExcept (t.stateless_outpoint 0) fun o ho => ?_
  refine ofExcept (.foldlM RecoveryRequest.stateless_vaulted _) fun request hrequest => ?_
  refine ofFailure (Recovery.stateless_build _) fun recovery hrecovery => ?_
  show Ensures w (if recovery.tx.outputs.length ≠ 3 then _ else _) _ _ _
  split
  · refine ofExcept (.error nofun) fun _ ha => ?_
    cases ha
  rename_i hlen
  refine aside (w.quiet_showRecoveryFaults _ _) fun _ _ _ _ => ?_
  refine took (w.quiet_confirm _ _) fun htook _ _ _ _ => ?_
  -- the first vault is triggered, the others still have their coins
  have hnodup : w.Distinct s₂.named → ((first :: others).map Vault.id).Nodup := hall.nodup
  have hfirst' : w.InPlay s₃ .triggered first := hplay₃ first (List.mem_singleton_self _)
  have hothers' : ∀ v ∈ others, w.InPlay s₃ .vaulted v := by
    intro v hv
    refine (hothers.play v hv).kept (hmoved.since rfl rfl) fun hdistinct hmem => ?_
    have hnot := (List.nodup_cons.mp (hnodup hdistinct)).1
    rw [← List.mem_singleton.mp hmem] at hnot
    exact hnot (List.mem_map_of_mem hv)
  -- each of them is swept to its own script
  obtain _ | ⟨hpolicy, -⟩ := hfirst.policies
  obtain _ | ⟨hpolicy₂, _ | ⟨hpolicy₃, _ | ⟨-, _ | -⟩⟩⟩ := hothers.policies
  rename_i v₂ v₃ v₄
  have hspk : ∀ v ∈ [v₂, v₃], v.policy.recoverySpk = first.policy.recoverySpk := by
    intro v hv
    rcases List.mem_cons.mp hv with rfl | hv
    · exact Policy.recoverySpk_of_ofParams hpolicy₂ hpolicy rfl
    · rw [List.mem_singleton.mp hv]
      exact Policy.recoverySpk_of_ofParams hpolicy₃ hpolicy rfl
  obtain ⟨hsweeps, hsweeps'⟩ := Recovery.sweeps_mixed hb ht
    (show ([v₂, v₃] ++ [v₄]).foldlM _ _ = _ from hrequest) hspk hrecovery (not_not.mp hlen)
  refine imp (transitionAll ?_ ?_ ?_) fun _ _ _ _ => trivial
  · intro v hv
    rcases List.mem_cons.mp hv with rfl | hv
    · exact ⟨.triggered, rfl, hfirst'.later _⟩
    · exact ⟨.vaulted, rfl, (hothers' v hv).later _⟩
  · intro hdistinct
    apply hnodup
    exact hdistinct.mono (Nat.le_of_eq hmoved.named.symm)
  · intro v hv
    rcases List.mem_cons.mp hv with rfl | hv
    · exact hplay.opened.granted_recovered_triggered hb ht ho (List.mem_singleton_self v) htrigger
        htook hsweeps
    · obtain ⟨o', ho', hswept⟩ := hsweeps' v hv
      exact (hothers' v hv).opened.granted_recovered ho' htook hswept

/-- Value that returns to vaults is named and kept track of. -/
theorem trackReturned {β : Type} {post : β → RunState → History → Prop}
    {g : List Vault → Run Calling β} {b : Batch} {t : Trigger} {before : History}
    (ht : Trigger.build [b] none .none = .ok t) (htook : w.Took before t.tx)
    (hnamed : s.named = w.named + (coins before).length)
    (hg : ∀ returned s', Returned w returned s s' → Ensures w (g returned) s' done post) :
    Ensures w (do
      let name ← Run.takeNames t.returns.length
      let returned ← Run.ofExcept (t.revaulted fun k => w.runner.ids (name + k))
      returned.forM fun v => Run.track v.id .vaulted
      g returned) s done post := by
  refine takeNames _ (ofExcept (t.stateless_revaulted _) fun returned hreturned => ?_)
  have hname : (fun k => w.runner.ids (s.named + k)) =
      fun k => w.name ((coins before).length + k) := by
    funext k
    unfold Watch.name
    rw [hnamed, Nat.add_assoc]
    rfl
  rw [hname] at hreturned
  have hids : returned.map Vault.id =
      (List.range' (coins before).length t.returns.length).map w.name := by
    rw [Trigger.map_id_revaulted hreturned, List.range'_eq_map_range, List.map_map]
    rfl
  have hnew : ∀ v ∈ returned, ∃ i, s.named ≤ i ∧ i < s.named + t.returns.length ∧
      v.id = w.ids i := by
    intro v hv
    have hmem := List.mem_map_of_mem (f := Vault.id) hv
    rw [hids] at hmem
    obtain ⟨k, hk, hvk⟩ := List.mem_map.mp hmem
    obtain ⟨hle, hlt⟩ := List.mem_range'_1.mp hk
    exact ⟨w.named + k, by omega, by omega, hvk.symm⟩
  have hopened : ∀ v ∈ returned, Opened w.name w.calls v :=
    fun v hv => Opened.of_returned ht htook hreturned hv
  have hknown : ∀ v ∈ returned, w.Known { s with named := s.named + t.returns.length } v := by
    intro v hv
    obtain ⟨i, hi, hlt, hvi⟩ := hnew v hv
    exact ⟨i, by omega, hlt, hvi⟩
  refine bind (trackAll (fun v hv => (hopened v hv).granted_vaulted) hknown) ?_
  rintro _ s' _ ⟨rfl, hmoved⟩
  have hnamed' : s'.named = s.named + t.returns.length := hmoved.named
  -- a vault that was known before has an earlier name
  have hapart : w.Distinct s'.named → ∀ v, w.Known s v → v.id ∉ returned.map Vault.id := by
    intro hdistinct v hv hmem
    obtain ⟨u, hu, huv⟩ := List.mem_map.mp hmem
    obtain ⟨i, hi, hlt, hvi⟩ := hv
    obtain ⟨j, hj, hlt', huj⟩ := hnew u hu
    rw [hvi, huj] at huv
    exact hdistinct i j hi (by omega) (by omega) huv.symm
  refine hg returned s' ⟨?_, ?_, ?_, ?_, hapart⟩
  · rw [hnamed']
    exact Nat.le_add_right _ _
  · intro v hv
    exact hmoved.inPlay (hopened v hv) (hknown v hv) (List.mem_map_of_mem hv)
  · intro state v hv
    have hlater : w.InPlay { s with named := s.named + t.returns.length } state v :=
      hv.mono rfl (Nat.le_add_right _ _)
    refine hlater.kept hmoved fun hdistinct => hapart ?_ v hv.known
    rw [hnamed']
    exact hdistinct
  · intro hdistinct
    rw [hids]
    apply hdistinct.nodup
    omega

theorem revault (h : w.Aligned s done) :
    Ensures w w.runner.revault s done fun _ _ _ => True := by
  unfold Runner.revault
  refine bind (lockCoins _ h) fun vaults s₁ done₁ hlocked => ?_
  refine ofFailure (Vault.stateless_total _) fun total _ => ?_
  refine ofExcept (Sats.stateless_spend _ _) fun withdrawn _ => ?_
  refine ofFailure (stateless_withdrawalTargets _ _) fun targets _ => ?_
  refine aside (w.quiet_showTriggerFaults _ _ _ _) fun _ _ done₂ hdone₂ => ?_
  refine buildTrigger fun b t hb ht => ?_
  refine took (w.quiet_confirm _ _) fun htrigger _ _ done₃ hdone₃ => ?_
  rw [Batch.memberIds_of_build hb]
  refine bind (triggerAll hb ht htrigger (fun v hv => (hlocked.play v hv).later _)
    hlocked.nodup) ?_
  rintro _ s₂ done₄ ⟨hmoved, hplay⟩
  refine ofExcept (t.stateless_outpoint 0) fun o ho => ?_
  refine ofExcept (Withdrawal.stateless_build _ _ _) fun withdrawal hwithdrawal => ?_
  refine aside (w.quiet_expectReject _ _ _) fun _ _ done₅ _ => ?_
  refine trackReturned ht htrigger ?_ fun returned s₃ hreturned => ?_
  · rw [hdone₂]
    exact hmoved.named.trans hlocked.aligned
  have hmembers : ∀ v ∈ vaults, w.InPlay s₃ .triggered v := fun v hv =>
    hreturned.kept _ v ((hplay v hv).later _)
  refine buildTrigger fun b₂ t₂ hb₂ ht₂ => ?_
  refine took (w.quiet_confirm _ _) fun htrigger₂ _ _ _ _ => ?_
  refine bind (triggerAll hb₂ ht₂ htrigger₂ (fun v hv => (hreturned.play v hv).later _)
    hreturned.nodup) ?_
  rintro _ s₄ done₆ ⟨hmoved₂, -⟩
  refine aside (w.quiet_mine _) fun _ _ _ _ => ?_
  refine took (w.quiet_confirm _ _) fun htook _ _ _ _ => ?_
  have hmembers' : ∀ v ∈ vaults, w.InPlay s₄ .triggered v := fun v hv =>
    (hmembers v hv).kept (hmoved₂.since rfl rfl) fun hdistinct =>
      hreturned.apart hdistinct v (hplay v hv).known
  refine withdrawAll hb ht ho htrigger hwithdrawal htook (fun v hv => (hmembers' v hv).later _) ?_
  intro hdistinct
  refine hlocked.nodup (hdistinct.mono ?_)
  have hgrown := hreturned.grown
  have hnamed := hmoved.named
  have hnamed₂ := hmoved₂.named
  simp only at hgrown hnamed hnamed₂ ⊢
  omega

/-! ## Every scenario -/

/-- Whatever the node answers, the books are right at the end of every
scenario. -/
theorem course (h : w.Aligned s done) (scenario : Scenario) :
    Ensures w (w.runner.course scenario) s done fun _ _ _ => True := by
  cases scenario with
  | singleVault => exact singleVault h
  | sweepFromVault => exact sweepFromVault h
  | sweepFromTrigger => exact sweepFromTrigger h
  | batchRecovery => exact batchRecovery h
  | batchTrigger => exact batchTrigger h
  | revault => exact revault h
  | negativeDelay => exact negativeDelay h
  | recursiveRecoveryWitness => exact recursiveRecoveryWitness h

end Ensures

end VaultCovenant
