import VaultCovenant.Proofs.Scenario.History

/-!
# Runs that record what they ask

A run is orderly if the steps it adds are those of its calls, and if it ends
where a node does not answer as expected. Every statement of a scenario is
orderly, and what is put together from orderly parts is orderly too.

Results:
* `Run.Orderly.bind`: one part after the other.
* `Runner.expectAccept_eq`, `Runner.expectReject_eq`: what offering a
  transaction does, by the answer of the node.
* `Runner.orderly_course`: every scenario is orderly.
-/

namespace VaultCovenant

namespace Run

variable {α β : Type} {x : Run Calling α} {f : α → Run Calling β} {s s' s₁ : RunState}
  {past calls front : History}

/-! ## One part after the other -/

theorem bind_ok {a : α} (h : x s past = ((.ok a, s₁), front)) :
    (x >>= f) s past =
      ((f a s₁ (past ++ front)).1, front ++ (f a s₁ (past ++ front)).2) := by
  have hbind : (x >>= f) s past =
      ((x s : Calling _) >>= fun p => ExceptT.bindCont f p.1 p.2) past := rfl
  rw [hbind, Calling.bind_apply, h]
  rfl

theorem bind_error {e : Failure} (h : x s past = ((.error e, s₁), front)) :
    (x >>= f) s past = ((.error e, s₁), front) := by
  have hbind : (x >>= f) s past =
      ((x s : Calling _) >>= fun p => ExceptT.bindCont f p.1 p.2) past := rfl
  rw [hbind, Calling.bind_apply, h]
  exact congrArg _ (List.append_nil front)

/-- Either both parts were run, or the first has failed. -/
theorem bind_cases {result : Except Failure β} (h : (x >>= f) s past = ((result, s'), calls)) :
    (∃ a s₁ front back, x s past = ((.ok a, s₁), front) ∧
      f a s₁ (past ++ front) = ((result, s'), back) ∧ calls = front ++ back) ∨
    ∃ e, x s past = ((.error e, s'), calls) ∧ result = .error e := by
  obtain ⟨⟨⟨first, s₁⟩, front⟩, hx⟩ : ∃ outcome, x s past = outcome := ⟨_, rfl⟩
  cases first with
  | ok a =>
    rw [bind_ok hx] at h
    obtain ⟨hrest, rfl⟩ := Prod.mk.inj h
    exact Or.inl ⟨a, s₁, front, _, hx, Prod.ext hrest rfl, rfl⟩
  | error e =>
    rw [bind_error hx] at h
    cases h
    exact Or.inr ⟨e, hx, rfl⟩

theorem call_apply (c : Calling (Except VaultError α)) (s : RunState) (past : History) :
    Run.call c s past = ((Failure.lift (c past).1, s), (c past).2) :=
  congrArg (Prod.mk _) (List.append_nil (c past).2)

/-! ## Orderly runs -/

/-- The steps that the run adds are those of its calls, and after a call that
was not answered as expected it has failed. -/
def Orderly (x : Run Calling α) : Prop :=
  ∀ s past result s' calls, x s past = ((result, s'), calls) →
    ∃ steps, s'.steps = s.steps ++ steps ∧
      (Conforming steps calls ∨ Surprised steps calls ∧ ∃ e, result = .error e)

namespace Orderly

theorem bind (hx : Orderly x) (hf : ∀ a, Orderly (f a)) : Orderly (x >>= f) := by
  intro s past result s' calls h
  rcases bind_cases h with ⟨a, s₁, front, back, hfirst, hrest, rfl⟩ | ⟨e, hfirst, rfl⟩
  · obtain ⟨steps, hsteps, hconforming | ⟨-, e, he⟩⟩ := hx _ _ _ _ _ hfirst
    · obtain ⟨more, hmore, hrest⟩ := hf a _ _ _ _ _ hrest
      refine ⟨steps ++ more, by rw [hmore, hsteps, List.append_assoc], ?_⟩
      rcases hrest with hrest | ⟨hrest, hfailed⟩
      · exact Or.inl (hconforming.append hrest)
      · exact Or.inr ⟨hconforming.surprised hrest, hfailed⟩
    · cases he
  · obtain ⟨steps, hsteps, hrest⟩ := hx _ _ _ _ _ hfirst
    refine ⟨steps, hsteps, ?_⟩
    rcases hrest with hrest | ⟨hrest, -⟩
    · exact Or.inl hrest
    · exact Or.inr ⟨hrest, e, rfl⟩

/-- A part that calls nobody and adds no step. -/
theorem of_silent (h : ∀ s past, (x s past).2 = [] ∧ (x s past).1.2.steps = s.steps) :
    Orderly x := by
  intro s past result s' calls hx
  obtain ⟨hcalls, hsteps⟩ := h s past
  rw [hx] at hcalls hsteps
  subst hcalls
  exact ⟨[], by rw [List.append_nil]; exact hsteps, Or.inl conforming_nil⟩

theorem pure (a : α) : Orderly (Pure.pure a) := of_silent fun _ _ => ⟨rfl, rfl⟩

theorem ofExcept (result : Except VaultError α) : Orderly (Run.ofExcept result) :=
  of_silent fun _ _ => ⟨rfl, rfl⟩

theorem ofFailure (result : Except Failure α) : Orderly (Run.ofFailure result) :=
  of_silent fun _ _ => ⟨rfl, rfl⟩

theorem track (id : VaultId) (state : VaultState) : Orderly (Run.track id state) :=
  of_silent fun _ _ => ⟨rfl, rfl⟩

theorem takeNames (count : ℕ) : Orderly (Run.takeNames count) :=
  of_silent fun _ _ => ⟨rfl, rfl⟩

theorem transition (id : VaultId) (next : VaultState) : Orderly (Run.transition id next) := by
  apply of_silent
  intro s past
  unfold Run.transition
  cases s.lifecycle.transition id next <;> exact ⟨rfl, rfl⟩

theorem transitionAll (ids : List VaultId) (next : VaultState) :
    Orderly (Run.transitionAll ids next) := of_silent fun _ _ => ⟨rfl, rfl⟩

/-- A call by which no transaction is offered. -/
theorem call {c : Calling (Except VaultError α)}
    (h : ∀ past, ∃ x : Exchange, (c past).2 = [x] ∧ x.verdict? = none) : Orderly (Run.call c) := by
  intro s past result s' calls hcall
  obtain ⟨x, hx, hverdict⟩ := h past
  rw [call_apply, hx] at hcall
  cases hcall
  exact ⟨[], by rw [List.append_nil], Or.inl (conforming_call hverdict)⟩

theorem forM {as : List α} {g : α → Run Calling Unit} (h : ∀ a, Orderly (g a)) :
    Orderly (as.forM g) := by
  induction as with
  | nil => exact .pure ()
  | cons a as ih => exact .bind (h a) fun _ => ih

theorem mapM {as : List α} {g : α → Run Calling β} (h : ∀ a, Orderly (g a)) :
    Orderly (as.mapM g) := by
  induction as with
  | nil =>
    rw [List.mapM_nil]
    exact .pure []
  | cons a as ih =>
    rw [List.mapM_cons]
    exact .bind (h a) fun _ => .bind ih fun _ => .pure _

end Orderly

end Run

/-! ## Statements of a scenario -/

namespace Runner

open Run

/-- A runner on the node that behaves so. -/
def on (b : Behaviour) (ids : ℕ → VaultId) (authorization : Authorization) : Runner Calling :=
  ⟨b.node, ids, authorization⟩

variable (b : Behaviour) (ids : ℕ → VaultId) (authorization : Authorization)

theorem broadcast_eq (label : String) (tx : Transaction) (expected : Expectation) (s : RunState)
    (past : History) :
    (on b ids authorization).broadcast label tx expected s past =
      match b.broadcast past tx with
      | .error e => ((.error (.error e), s), [.broadcast tx (.error e)])
      | .ok verdict =>
        ((.ok verdict, { s with steps := s.steps ++ [Step.record label tx.txid expected verdict] }),
          [.broadcast tx (.ok verdict)]) := by
  have hcall : (Run.call ((on b ids authorization).node.broadcast tx)) s past =
      ((Failure.lift (b.broadcast past tx), s), [.broadcast tx (b.broadcast past tx)]) := rfl
  unfold broadcast
  cases hb : b.broadcast past tx with
  | error e =>
    rw [hb] at hcall
    exact bind_error hcall
  | ok verdict =>
    rw [hb] at hcall
    exact (bind_ok hcall).trans rfl

theorem expectAccept_eq (label : String) (tx : Transaction) (s : RunState) (past : History) :
    (on b ids authorization).expectAccept label tx s past =
      match b.broadcast past tx with
      | .error e => ((.error (.error e), s), [.broadcast tx (.error e)])
      | .ok verdict =>
        ((match verdict with
          | .accepted txid => .ok txid
          | .rejected reason => .error (.error (.operationFailed label reason)),
          { s with steps := s.steps ++ [Step.record label tx.txid .accept verdict] }),
        [.broadcast tx (.ok verdict)]) := by
  have hbroadcast := broadcast_eq b ids authorization label tx .accept s past
  unfold expectAccept
  cases hb : b.broadcast past tx with
  | error e =>
    rw [hb] at hbroadcast
    exact bind_error hbroadcast
  | ok verdict =>
    rw [hb] at hbroadcast
    rw [bind_ok hbroadcast]
    cases verdict <;> rfl

theorem expectReject_eq (label : String) (tx : Transaction) (rejection : Rejection) (s : RunState)
    (past : History) :
    (on b ids authorization).expectReject label tx rejection s past =
      match b.broadcast past tx with
      | .error e => ((.error (.error e), s), [.broadcast tx (.error e)])
      | .ok verdict =>
        ((match verdict with
          | .accepted txid => .error (.error (.operationFailed label
              (txid.text ++ " was accepted but should have been rejected")))
          | .rejected _ => .ok (),
          { s with steps := s.steps ++ [Step.record label tx.txid (.reject rejection) verdict] }),
        [.broadcast tx (.ok verdict)]) := by
  have hbroadcast := broadcast_eq b ids authorization label tx (.reject rejection) s past
  unfold expectReject
  cases hb : b.broadcast past tx with
  | error e =>
    rw [hb] at hbroadcast
    exact bind_error hbroadcast
  | ok verdict =>
    rw [hb] at hbroadcast
    rw [bind_ok hbroadcast]
    cases verdict <;> rfl

theorem orderly_expectAccept (label : String) (tx : Transaction) :
    Orderly ((on b ids authorization).expectAccept label tx) := by
  intro s past result s' calls h
  rw [expectAccept_eq] at h
  cases hb : b.broadcast past tx with
  | error e =>
    rw [hb] at h
    cases h
    exact ⟨[], (List.append_nil _).symm, Or.inl (conforming_call rfl)⟩
  | ok verdict =>
    rw [hb] at h
    cases verdict with
    | accepted txid =>
      cases h
      exact ⟨_, rfl, Or.inl (conforming_broadcast label tx rfl)⟩
    | rejected reason =>
      cases h
      exact ⟨_, rfl, Or.inr ⟨surprised_broadcast label tx rfl, _, rfl⟩⟩

theorem orderly_expectReject (label : String) (tx : Transaction) (rejection : Rejection) :
    Orderly ((on b ids authorization).expectReject label tx rejection) := by
  intro s past result s' calls h
  rw [expectReject_eq] at h
  cases hb : b.broadcast past tx with
  | error e =>
    rw [hb] at h
    cases h
    exact ⟨[], (List.append_nil _).symm, Or.inl (conforming_call rfl)⟩
  | ok verdict =>
    rw [hb] at h
    cases verdict with
    | accepted txid =>
      cases h
      exact ⟨_, rfl, Or.inr ⟨surprised_broadcast label tx rfl, _, rfl⟩⟩
    | rejected reason =>
      cases h
      exact ⟨_, rfl, Or.inl (conforming_broadcast label tx rfl)⟩

theorem orderly_mine (blocks : UInt64) : Orderly ((on b ids authorization).mine blocks) :=
  .call fun past => ⟨.mine blocks (b.mine past blocks), rfl, rfl⟩

theorem orderly_bumpFee (txid : Txid) : Orderly ((on b ids authorization).bumpFee txid) :=
  .call fun past => ⟨.bumpFee txid feeDelta (b.bumpFee past txid feeDelta), rfl, rfl⟩

theorem orderly_mempoolSize : Orderly (Run.call (on b ids authorization).node.mempoolSize) :=
  .call fun past => ⟨.mempoolSize (b.mempoolSize past), rfl, rfl⟩

theorem orderly_spendableCoin : Orderly (Run.call (on b ids authorization).node.spendableCoin) :=
  .call fun past => by
    refine ⟨.spendableCoin (b.spendableCoin past), rfl, ?_⟩
    cases b.spendableCoin past <;> rfl

theorem orderly_confirm (label : String) (tx : Transaction) :
    Orderly ((on b ids authorization).confirm label tx) := by
  unfold confirm
  refine .bind (orderly_expectAccept b ids authorization label tx) fun txid => ?_
  refine .bind (orderly_bumpFee b ids authorization txid) fun _ => ?_
  refine .bind (orderly_mine b ids authorization 1) fun _ => ?_
  exact .bind (orderly_mempoolSize b ids authorization) fun _ => .pure ()

theorem orderly_lockCoin (params : VaultParams) :
    Orderly ((on b ids authorization).lockCoin params) := by
  unfold lockCoin
  refine .bind (.ofExcept _) fun policy => .bind (.takeNames 1) fun name => ?_
  refine .bind (orderly_spendableCoin b ids authorization) fun coin => ?_
  refine .bind (.ofExcept _) fun locked => ?_
  refine .bind (orderly_expectAccept b ids authorization _ _) fun _ => ?_
  exact .bind (.transition _ _) fun _ => .pure _

theorem orderly_lockCoins (params : List VaultParams) :
    Orderly ((on b ids authorization).lockCoins params) := by
  unfold lockCoins
  refine .bind (.mapM (orderly_lockCoin b ids authorization)) fun vaults => ?_
  exact .bind (orderly_mine b ids authorization 1) fun _ => .pure vaults

theorem orderly_showTriggerFaults (faults : List Fault) (vaults : List Vault)
    (targets : List TxOut) (revault : Option Sats) :
    Orderly ((on b ids authorization).showTriggerFaults faults vaults targets revault) :=
  .forM fun _ => .bind (.ofFailure _) fun _ => orderly_expectReject b ids authorization _ _ _

theorem orderly_showRecoveryFaults (faults : List Fault) (request : RecoveryRequest) :
    Orderly ((on b ids authorization).showRecoveryFaults faults request) :=
  .forM fun _ => .bind (.ofFailure _) fun _ => orderly_expectReject b ids authorization _ _ _

theorem orderly_showWithdrawalFaults (faults : List Fault) (outpoint : Outpoint) (batch : Batch) :
    Orderly ((on b ids authorization).showWithdrawalFaults faults outpoint batch) :=
  .forM fun _ => .bind (.ofExcept _) fun _ => orderly_expectReject b ids authorization _ _ _

/-- What comes after a trigger that is built, in one sequence with its parts. -/
theorem buildTrigger_bind {β : Type} (vaults : List Vault) (targets : List TxOut)
    (revault : Option Sats) (g : Batch × Trigger → Run Calling β) :
    (buildTrigger vaults targets revault >>= g) = (do
      let batch ← Run.ofFailure (Batch.build vaults targets revault .none)
      let t ← Run.ofExcept (Trigger.build [batch] none .none)
      g (batch, t)) := by
  unfold buildTrigger
  simp only [bind_assoc, pure_bind]

theorem orderly_buildTrigger (vaults : List Vault) (targets : List TxOut)
    (revault : Option Sats) :
    Orderly (buildTrigger vaults targets revault : Run Calling (Batch × Trigger)) :=
  .bind (.ofFailure _) fun _ => .bind (.ofExcept _) fun _ => .pure _

/-! ## Scenarios -/

theorem orderly_sweepFromVault : Orderly (on b ids authorization).sweepFromVault := by
  unfold sweepFromVault
  refine .bind (orderly_lockCoin b ids authorization _) fun vault => ?_
  refine .bind (orderly_mine b ids authorization 1) fun _ => ?_
  refine .bind (.ofExcept _) fun request => ?_
  refine .bind (orderly_showRecoveryFaults b ids authorization _ _) fun _ => ?_
  refine .bind (.ofFailure _) fun recovery => ?_
  refine .bind (orderly_confirm b ids authorization _ _) fun _ => ?_
  exact .transition _ _

theorem orderly_triggerOne : Orderly (on b ids authorization).triggerOne := by
  unfold triggerOne
  refine .bind (orderly_lockCoin b ids authorization _) fun vault => ?_
  refine .bind (orderly_mine b ids authorization 1) fun _ => ?_
  refine .bind (.ofExcept _) fun funding => .bind (.ofFailure _) fun targets => ?_
  refine .bind (orderly_showTriggerFaults b ids authorization _ _ _ _) fun _ => ?_
  refine .bind (orderly_buildTrigger _ _ _) fun built => ?_
  refine .bind (orderly_expectAccept b ids authorization _ _) fun txid => ?_
  exact .bind (.transition _ _) fun _ => .pure _

theorem orderly_sweepFromTrigger : Orderly (on b ids authorization).sweepFromTrigger := by
  unfold sweepFromTrigger
  refine .bind (orderly_triggerOne b ids authorization) fun triggered => ?_
  refine .bind (.ofExcept _) fun outpoint => .bind (.ofFailure _) fun short => ?_
  refine .bind (orderly_expectReject b ids authorization _ _ _) fun _ => ?_
  refine .bind (orderly_showRecoveryFaults b ids authorization _ _) fun _ => ?_
  refine .bind (.ofFailure _) fun recovery => ?_
  refine .bind (orderly_confirm b ids authorization _ _) fun _ => ?_
  exact .transition _ _

theorem orderly_singleVault : Orderly (on b ids authorization).singleVault := by
  unfold singleVault
  refine .bind (orderly_triggerOne b ids authorization) fun triggered => ?_
  refine .bind (.ofExcept _) fun outpoint => .bind (.ofExcept _) fun withdrawal => ?_
  refine .bind (orderly_expectReject b ids authorization _ _ _) fun _ => ?_
  refine .bind (orderly_bumpFee b ids authorization _) fun _ => ?_
  refine .bind (orderly_mine b ids authorization _) fun _ => ?_
  refine .bind (orderly_expectReject b ids authorization _ _ _) fun _ => ?_
  refine .bind (orderly_mine b ids authorization 1) fun _ => ?_
  refine .bind (orderly_showWithdrawalFaults b ids authorization _ _ _) fun _ => ?_
  refine .bind (orderly_confirm b ids authorization _ _) fun _ => ?_
  exact .transition _ _

theorem orderly_batchRecovery : Orderly (on b ids authorization).batchRecovery := by
  unfold batchRecovery
  refine .bind (orderly_lockCoin b ids authorization _) fun first => ?_
  refine .bind (orderly_lockCoins b ids authorization _) fun others => ?_
  refine .bind (orderly_buildTrigger _ _ _) fun built => ?_
  refine .bind (orderly_confirm b ids authorization _ _) fun _ => ?_
  refine .bind (.transition _ _) fun _ => ?_
  refine .bind (orderly_spendableCoin b ids authorization) fun coin => ?_
  refine .bind (.ofExcept _) fun outpoint => .bind (.ofExcept _) fun request => ?_
  refine .bind (.ofFailure _) fun recovery => ?_
  have hrest : Orderly (do
      (on b ids authorization).showRecoveryFaults batchRecoveryFaults request
      (on b ids authorization).confirm "batch recovery" recovery.tx
      Run.transitionAll ((first :: others).map Vault.id) .recovered) :=
    .bind (orderly_showRecoveryFaults b ids authorization _ _) fun _ =>
      .bind (orderly_confirm b ids authorization _ _) fun _ => .transitionAll _ _
  show Orderly (if recovery.tx.outputs.length ≠ 3 then _ else _)
  split
  · exact .bind (.ofExcept _) fun _ => hrest
  · exact hrest

theorem orderly_batchTrigger : Orderly (on b ids authorization).batchTrigger := by
  unfold batchTrigger
  refine .bind (orderly_lockCoins b ids authorization _) fun vaults => ?_
  refine .bind (.ofFailure _) fun total => .bind (.ofFailure _) fun targets => ?_
  refine .bind (.forM fun extra => .bind (orderly_buildTrigger _ _ _) fun built =>
    orderly_expectReject b ids authorization _ _ _) fun _ => ?_
  refine .bind (orderly_buildTrigger _ _ _) fun built => ?_
  refine .bind (orderly_confirm b ids authorization _ _) fun _ => ?_
  refine .bind (.transitionAll _ _) fun _ => ?_
  refine .bind (.ofExcept _) fun outpoint => .bind (.ofExcept _) fun withdrawal => ?_
  refine .bind (orderly_expectReject b ids authorization _ _ _) fun _ => ?_
  refine .bind (orderly_mine b ids authorization _) fun _ => ?_
  refine .bind (orderly_confirm b ids authorization _ _) fun _ => ?_
  exact .transitionAll _ _

theorem orderly_revault : Orderly (on b ids authorization).revault := by
  unfold revault
  refine .bind (orderly_lockCoins b ids authorization _) fun vaults => ?_
  refine .bind (.ofFailure _) fun total => .bind (.ofExcept _) fun withdrawn => ?_
  refine .bind (.ofFailure _) fun targets => ?_
  refine .bind (orderly_showTriggerFaults b ids authorization _ _ _ _) fun _ => ?_
  refine .bind (orderly_buildTrigger _ _ _) fun built => ?_
  refine .bind (orderly_confirm b ids authorization _ _) fun _ => ?_
  refine .bind (.transitionAll _ _) fun _ => ?_
  refine .bind (.ofExcept _) fun outpoint => .bind (.ofExcept _) fun withdrawal => ?_
  refine .bind (orderly_expectReject b ids authorization _ _ _) fun _ => ?_
  refine .bind (.takeNames _) fun name => .bind (.ofExcept _) fun returned => ?_
  refine .bind (.forM fun vault => .track _ _) fun _ => ?_
  refine .bind (orderly_buildTrigger _ _ _) fun second => ?_
  refine .bind (orderly_confirm b ids authorization _ _) fun _ => ?_
  refine .bind (.transitionAll _ _) fun _ => ?_
  refine .bind (orderly_mine b ids authorization _) fun _ => ?_
  refine .bind (orderly_confirm b ids authorization _ _) fun _ => ?_
  exact .transitionAll _ _

theorem orderly_negativeDelay : Orderly (on b ids authorization).negativeDelay := by
  unfold negativeDelay
  refine .bind (orderly_lockCoin b ids authorization _) fun vault => ?_
  refine .bind (orderly_mine b ids authorization 1) fun _ => ?_
  refine .bind (.ofFailure _) fun total => .bind (.ofFailure _) fun targets => ?_
  refine .bind (orderly_buildTrigger _ _ _) fun built => ?_
  refine .bind (orderly_expectReject b ids authorization _ _ _) fun _ => ?_
  refine .bind (.ofExcept _) fun request => .bind (.ofFailure _) fun recovery => ?_
  refine .bind (orderly_confirm b ids authorization _ _) fun _ => ?_
  exact .transition _ _

theorem orderly_recursiveRecoveryWitness :
    Orderly (on b ids authorization).recursiveRecoveryWitness := by
  unfold recursiveRecoveryWitness
  refine .bind (.ofExcept _) fun authorization' => ?_
  refine .bind (orderly_lockCoin b ids authorization _) fun vault => ?_
  refine .bind (orderly_mine b ids authorization 1) fun _ => ?_
  refine .bind (.ofExcept _) fun request => .bind (.ofFailure _) fun recovery => ?_
  exact orderly_expectReject b ids authorization _ _ _

/-- Every scenario is orderly, whatever the node answers. -/
theorem orderly_course (scenario : Scenario) :
    Orderly ((on b ids authorization).course scenario) := by
  cases scenario with
  | singleVault => exact orderly_singleVault b ids authorization
  | sweepFromVault => exact orderly_sweepFromVault b ids authorization
  | sweepFromTrigger => exact orderly_sweepFromTrigger b ids authorization
  | batchRecovery => exact orderly_batchRecovery b ids authorization
  | batchTrigger => exact orderly_batchTrigger b ids authorization
  | revault => exact orderly_revault b ids authorization
  | negativeDelay => exact orderly_negativeDelay b ids authorization
  | recursiveRecoveryWitness => exact orderly_recursiveRecoveryWitness b ids authorization

end Runner

end VaultCovenant
