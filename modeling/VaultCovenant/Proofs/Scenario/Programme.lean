import VaultCovenant.Proofs.Scenario.Orderly
import VaultCovenant.Proofs.Trigger.Build

/-!
# Programmes

What a scenario shows to a node, and what it expects of it, is settled before
the run. A run shows its programme up to the place where it ends, and all of it
if it comes to its end.

Results:
* `Run.Follows.bind`: one part after the other.
* `Runner.follows_course`: every scenario follows its programme, and names no
  more than five vaults.
-/

namespace VaultCovenant

/-! ## What is to be shown -/

/-- Transactions that are to be shown to a node: under which label, and what is
expected of it. -/
abbrev Programme := List (String × Expectation)

/-- What a step shows: its label, and what is expected of the node. -/
def Step.item (step : Step) : String × Expectation := (step.label, step.expected)

namespace Scenario

/-- A transaction that has to be taken. -/
def taken (label : String) : Programme := [(label, .accept)]

/-- A transaction that has to be refused. -/
def refused (label : String) (rejection : Rejection) : Programme :=
  [(label, .reject rejection)]

/-- Transactions with a fault each. -/
def faulty (faults : List Fault) : Programme :=
  faults.flatMap fun fault => refused fault.description fault.expectedRejection

theorem mem_faulty {fault : Fault} {faults : List Fault} (h : fault ∈ faults) :
    (fault.description, .reject fault.expectedRejection) ∈ faulty faults :=
  List.mem_flatMap.mpr ⟨fault, h, List.mem_singleton_self _⟩

/-- The recovery with a forged authorization, where one is required. -/
def forged (authorization : Authorization) : Programme :=
  faulty (if authorization.isRequired then [.recoveryAuthWrongKey] else [])

/-- Coins that are locked in vaults. -/
def locking (n : ℕ) : Programme :=
  (List.replicate n "initialize vault").flatMap taken

/-- A vault that is triggered, after all faults of its trigger. -/
def triggering : Programme :=
  locking 1 ++ faulty Runner.plainTriggerFaults ++ taken "trigger"

/-- What a scenario shows under an authorization, in order. -/
def programme (authorization : Authorization) : Scenario → Programme
  | singleVault =>
    triggering ++ refused "withdraw before trigger confirms" .notFinal ++
      refused "withdraw one block early" .notFinal ++
      faulty [.withdrawalSequenceTooLow, .withdrawalOutputChanged] ++ taken "final withdrawal"
  | sweepFromVault => locking 1 ++ forged authorization ++ taken "recover from vault"
  | sweepFromTrigger =>
    triggering ++ refused "recover from trigger with short output" .scriptFailure ++
      forged authorization ++ taken "recover from trigger"
  | batchRecovery =>
    locking 1 ++ locking 3 ++ taken "trigger first vault" ++ faulty Runner.batchRecoveryFaults ++
      taken "batch recovery"
  | batchTrigger =>
    locking 5 ++ (List.replicate 3 "trigger incompatible batch").flatMap
      (refused · .incompatible) ++ taken "trigger compatible batch" ++
      refused "withdraw before delay" .notFinal ++ taken "batch withdrawal"
  | revault =>
    locking 3 ++ faulty [.revaultAmountTooHigh, .revaultAmountTooLow] ++
      taken "trigger with revault" ++ refused "withdraw before delay" .notFinal ++
      taken "trigger revaulted output" ++ taken "withdrawal after revault"
  | negativeDelay =>
    locking 1 ++ refused "trigger with negative delay" .invalidDelay ++
      taken "recover negative-delay vault"
  | recursiveRecoveryWitness =>
    locking 1 ++ refused "recursive recovery witness" .recursionLimit

end Scenario

/-! ## Answers of a node -/

namespace Behaviour

/-- The call is answered as the node behaves after the calls before. -/
def Answers (b : Behaviour) (past : History) : Exchange → Prop
  | .broadcast tx answer => answer = b.broadcast past tx
  | .mine blocks answer => answer = b.mine past blocks
  | .spendableCoin answer => answer = b.spendableCoin past
  | .bumpFee txid delta answer => answer = b.bumpFee past txid delta
  | .mempoolSize answer => answer = b.mempoolSize past

/-- All calls are answered as the node behaves. -/
def Gives (b : Behaviour) : History → History → Prop
  | _, [] => True
  | past, x :: calls => b.Answers past x ∧ b.Gives (past ++ [x]) calls

theorem gives_append {b : Behaviour} {past calls more : History} :
    b.Gives past (calls ++ more) ↔ b.Gives past calls ∧ b.Gives (past ++ calls) more := by
  induction calls generalizing past with
  | nil => simp [Gives]
  | cons x calls ih => simp [Gives, ih, and_assoc]

theorem gives_singleton {b : Behaviour} {past : History} {x : Exchange} :
    b.Gives past [x] ↔ b.Answers past x := by simp [Gives]

end Behaviour

namespace Run

variable {α β : Type} {b : Behaviour} {x : Run Calling α} {f : α → Run Calling β}
  {items more : Programme} {n m : ℕ}

/-- On the node the run shows the items in order, all of them if it does not
fail, and takes at most so many names. -/
def Follows (b : Behaviour) (x : Run Calling α) (items : Programme) (n : ℕ) : Prop :=
  ∀ s past result s' calls, x s past = ((result, s'), calls) →
    b.Gives past calls ∧ s'.named ≤ s.named + n ∧
      ∃ shown, s'.steps.map Step.item = s.steps.map Step.item ++ shown ∧ shown <+: items ∧
        ∀ a, result = .ok a → shown = items

namespace Follows

/-! ## One part after the other -/

theorem bind (hx : Follows b x items n) (hf : ∀ a, Follows b (f a) more m) :
    Follows b (x >>= f) (items ++ more) (m + n) := by
  intro s past result s' calls h
  rcases bind_cases h with ⟨a, s₁, front, back, hfirst, hrest, rfl⟩ | ⟨e, hfirst, rfl⟩
  -- the first part has shown all of its items before the second begins
  · obtain ⟨hfront, hnamed, shown, hshown, -, hall⟩ := hx _ _ _ _ _ hfirst
    obtain ⟨hback, hnamed', shown', hshown', hprefix, hall'⟩ := hf a _ _ _ _ _ hrest
    obtain rfl := hall a rfl
    refine ⟨Behaviour.gives_append.mpr ⟨hfront, hback⟩, by omega, shown ++ shown', ?_,
      (List.prefix_append_right_inj shown).mpr hprefix, ?_⟩
    · rw [hshown', hshown, List.append_assoc]
    · intro a' ha'
      rw [hall' a' ha']
  · obtain ⟨hcalls, hnamed, shown, hshown, hprefix, -⟩ := hx _ _ _ _ _ hfirst
    refine ⟨hcalls, by omega, shown, hshown, hprefix.trans (List.prefix_append _ _), ?_⟩
    intro a ha
    cases ha

/-- A part that shows nothing and takes no name. -/
theorem aside (hx : Follows b x [] 0) (hf : ∀ a, Follows b (f a) items n) :
    Follows b (x >>= f) items n := hx.bind hf

theorem mono (h : Follows b x items n) (hnm : n ≤ m) : Follows b x items m := by
  intro s past result s' calls hrun
  obtain ⟨hcalls, hnamed, hshown⟩ := h _ _ _ _ _ hrun
  exact ⟨hcalls, by omega, hshown⟩

/-- A part that calls nobody and adds no step. -/
theorem of_silent (h : ∀ s past, (x s past).2 = [] ∧ (x s past).1.2.steps = s.steps ∧
    (x s past).1.2.named = s.named) : Follows b x [] 0 := by
  intro s past result s' calls hrun
  obtain ⟨hcalls, hsteps, hnamed⟩ := h s past
  rw [hrun] at hcalls hsteps hnamed
  subst hcalls
  refine ⟨trivial, Nat.le_of_eq hnamed, [], ?_, List.prefix_rfl, fun _ _ => rfl⟩
  rw [List.append_nil]
  exact congrArg (List.map Step.item) hsteps

theorem pure (a : α) : Follows b (Pure.pure a) [] 0 := of_silent fun _ _ => ⟨rfl, rfl, rfl⟩

/-- What a result that is there goes on with. -/
theorem ofFailure {result : Except Failure α} (hf : ∀ a, result = .ok a → Follows b (f a) items n) :
    Follows b (Run.ofFailure result >>= f) items n := by
  cases result with
  | ok a =>
    have hfirst (s : RunState) (past : History) :
        (Run.ofFailure (.ok a) : Run Calling α) s past = ((.ok a, s), []) := rfl
    intro s past result s' calls hrun
    rw [bind_ok (hfirst s past), List.append_nil] at hrun
    exact hf a rfl _ _ _ _ _ hrun
  | error e =>
    have hfirst (s : RunState) (past : History) :
        (Run.ofFailure (.error e) : Run Calling α) s past = ((.error e, s), []) := rfl
    intro s past result s' calls hrun
    rw [bind_error (hfirst s past)] at hrun
    cases hrun
    exact ⟨trivial, Nat.le_add_right _ _, [], (List.append_nil _).symm, List.nil_prefix, nofun⟩

theorem ofExcept {result : Except VaultError α}
    (hf : ∀ a, result = .ok a → Follows b (f a) items n) :
    Follows b (Run.ofExcept result >>= f) items n :=
  ofFailure fun a ha => hf a (lift_eq_ok_iff.mp ha)

theorem takeNames (count : ℕ) : Follows b (Run.takeNames count) [] count := by
  intro s past result s' calls hrun
  cases hrun
  exact ⟨trivial, Nat.le_refl _, [], (List.append_nil _).symm, List.prefix_rfl, fun _ _ => rfl⟩

theorem transitionAll (ids : List VaultId) (next : VaultState) :
    Follows b (Run.transitionAll ids next) [] 0 := of_silent fun _ _ => ⟨rfl, rfl, rfl⟩

theorem transition (id : VaultId) (next : VaultState) :
    Follows b (Run.transition id next) [] 0 := by
  apply of_silent
  intro s past
  unfold Run.transition
  cases s.lifecycle.transition id next <;> exact ⟨rfl, rfl, rfl⟩

theorem track (id : VaultId) (state : VaultState) : Follows b (Run.track id state) [] 0 :=
  of_silent fun _ _ => ⟨rfl, rfl, rfl⟩

theorem forM {as : List α} {g : α → Run Calling Unit} {shows : α → Programme}
    (h : ∀ a, Follows b (g a) (shows a) 0) :
    Follows b (as.forM g) (as.flatMap shows) 0 := by
  induction as with
  | nil => exact pure ()
  | cons a as ih => exact (h a).bind fun _ => ih

theorem forM_aside {as : List α} {g : α → Run Calling Unit} (h : ∀ a, Follows b (g a) [] 0) :
    Follows b (as.forM g) [] 0 := by
  have hall : Follows b (as.forM g) (as.flatMap fun _ => []) 0 := forM h
  rwa [List.flatMap_eq_nil_iff.mpr fun _ _ => rfl] at hall

/-- A call by which no transaction is offered. -/
theorem call {c : Calling (Except VaultError α)}
    (h : ∀ past, ∃ x : Exchange, (c past).2 = [x] ∧ b.Answers past x) :
    Follows b (Run.call c) [] 0 := by
  intro s past result s' calls hrun
  obtain ⟨x, hx, hanswer⟩ := h past
  rw [call_apply, hx] at hrun
  cases hrun
  exact ⟨Behaviour.gives_singleton.mpr hanswer, Nat.le_refl _, [], (List.append_nil _).symm,
    List.prefix_rfl, fun _ _ => rfl⟩

end Follows

end Run

/-- A trigger of one batch returns value to the vault once at most. -/
theorem Trigger.length_returns_le {batch : Batch} {t : Trigger} {fee : Option Coin}
    {faults : FaultSet} (h : build [batch] fee faults = .ok t) : t.returns.length ≤ 1 := by
  obtain ⟨fundings, change, witnesses, hmade⟩ := build_eq_ok h
  calc t.returns.length
    _ ≤ t.batches.zipIdx.length := List.length_filterMap_le _ _
    _ = 1 := by rw [List.length_zipIdx, hmade.batches_eq]; rfl

/-! ## Statements of a scenario -/

namespace Runner

open Run Scenario

variable (b : Behaviour) (ids : ℕ → VaultId) (authorization : Authorization)

theorem follows_broadcast (label : String) (tx : Transaction) (expected : Expectation) :
    Follows b ((on b ids authorization).broadcast label tx expected) [(label, expected)] 0 := by
  intro s past result s' calls h
  rw [broadcast_eq] at h
  cases hb : b.broadcast past tx with
  | error e =>
    rw [hb] at h
    cases h
    refine ⟨Behaviour.gives_singleton.mpr hb.symm, Nat.le_refl _, [], (List.append_nil _).symm,
      List.nil_prefix, nofun⟩
  | ok verdict =>
    rw [hb] at h
    cases h
    refine ⟨Behaviour.gives_singleton.mpr hb.symm, Nat.le_refl _, [(label, expected)], ?_,
      List.prefix_rfl, fun _ _ => rfl⟩
    simp [Step.item, Step.record]

theorem follows_expectAccept (label : String) (tx : Transaction) :
    Follows b ((on b ids authorization).expectAccept label tx) (taken label) 0 := by
  refine (follows_broadcast b ids authorization label tx .accept).bind fun verdict => ?_
  cases verdict with
  | accepted txid => exact .pure txid
  | rejected reason => exact .of_silent fun _ _ => ⟨rfl, rfl, rfl⟩

theorem follows_expectReject (label : String) (tx : Transaction) (rejection : Rejection) :
    Follows b ((on b ids authorization).expectReject label tx rejection)
      (refused label rejection) 0 := by
  refine (follows_broadcast b ids authorization label tx (.reject rejection)).bind
    fun verdict => ?_
  cases verdict with
  | accepted txid => exact .of_silent fun _ _ => ⟨rfl, rfl, rfl⟩
  | rejected reason => exact .pure ()

theorem follows_mine (blocks : UInt64) :
    Follows b ((on b ids authorization).mine blocks) [] 0 :=
  .call fun past => ⟨.mine blocks (b.mine past blocks), rfl, rfl⟩

theorem follows_bumpFee (txid : Txid) : Follows b ((on b ids authorization).bumpFee txid) [] 0 :=
  .call fun past => ⟨.bumpFee txid feeDelta (b.bumpFee past txid feeDelta), rfl, rfl⟩

theorem follows_mempoolSize :
    Follows b (Run.call (on b ids authorization).node.mempoolSize) [] 0 :=
  .call fun past => ⟨.mempoolSize (b.mempoolSize past), rfl, rfl⟩

theorem follows_spendableCoin :
    Follows b (Run.call (on b ids authorization).node.spendableCoin) [] 0 :=
  .call fun past => ⟨.spendableCoin (b.spendableCoin past), rfl, rfl⟩

theorem follows_confirm (label : String) (tx : Transaction) :
    Follows b ((on b ids authorization).confirm label tx) (taken label) 0 := by
  refine (follows_expectAccept b ids authorization label tx).bind fun txid => ?_
  refine (follows_bumpFee b ids authorization txid).aside fun _ => ?_
  refine (follows_mine b ids authorization 1).aside fun _ => ?_
  exact (follows_mempoolSize b ids authorization).aside fun _ => .pure ()

theorem follows_lockCoin (params : VaultParams) :
    Follows b ((on b ids authorization).lockCoin params) (locking 1) 1 := by
  unfold lockCoin
  refine .ofExcept fun policy _ => (Follows.takeNames 1).bind fun name => ?_
  refine (follows_spendableCoin b ids authorization).aside fun coin => ?_
  refine .ofExcept fun locked _ => ?_
  refine (follows_expectAccept b ids authorization "initialize vault" locked.1).bind fun _ => ?_
  exact (Follows.transition _ _).aside fun _ => .pure _

theorem follows_mapM_lockCoin (params : List VaultParams) :
    Follows b (params.mapM (on b ids authorization).lockCoin) (locking params.length)
      params.length := by
  induction params with
  | nil =>
    rw [List.mapM_nil]
    exact .pure []
  | cons p params ih =>
    rw [List.mapM_cons]
    have hrest (v : Vault) : Follows b (do
        let vs ← params.mapM (on b ids authorization).lockCoin
        Pure.pure (v :: vs)) (locking params.length ++ []) (0 + params.length) :=
      ih.bind fun vs => .pure (v :: vs)
    rw [List.append_nil, Nat.zero_add] at hrest
    exact (follows_lockCoin b ids authorization p).bind hrest

theorem follows_lockCoins {params : List VaultParams} {n : ℕ} (h : params.length = n) :
    Follows b ((on b ids authorization).lockCoins params) (locking n) n := by
  subst h
  have hrest : Follows b ((on b ids authorization).lockCoins params)
      (locking params.length ++ []) (0 + params.length) :=
    (follows_mapM_lockCoin b ids authorization params).bind fun vaults =>
      (follows_mine b ids authorization 1).aside fun _ => .pure vaults
  rwa [List.append_nil, Nat.zero_add] at hrest

theorem follows_showTriggerFaults (faults : List Fault) (vaults : List Vault)
    (targets : List TxOut) (revault : Option Sats) :
    Follows b ((on b ids authorization).showTriggerFaults faults vaults targets revault)
      (faulty faults) 0 :=
  .forM fun _ => .ofFailure fun _ _ => follows_expectReject b ids authorization _ _ _

theorem follows_showRecoveryFaults (faults : List Fault) (request : RecoveryRequest) :
    Follows b ((on b ids authorization).showRecoveryFaults faults request) (faulty faults) 0 :=
  .forM fun _ => .ofFailure fun _ _ => follows_expectReject b ids authorization _ _ _

theorem follows_showWithdrawalFaults (faults : List Fault) (outpoint : Outpoint) (batch : Batch) :
    Follows b ((on b ids authorization).showWithdrawalFaults faults outpoint batch)
      (faulty faults) 0 :=
  .forM fun _ => .ofExcept fun _ _ => follows_expectReject b ids authorization _ _ _

/-- A trigger that is built goes on, with its batch. -/
theorem follows_buildTrigger {b : Behaviour} {β : Type} {g : Batch × Trigger → Run Calling β}
    {items : Programme} {n : ℕ} {vaults : List Vault} {targets : List TxOut}
    {revault : Option Sats}
    (hg : ∀ batch t, Trigger.build [batch] none .none = .ok t → Follows b (g (batch, t)) items n) :
    Follows b (buildTrigger vaults targets revault >>= g) items n := by
  rw [buildTrigger_bind]
  exact .ofFailure fun batch _ => .ofExcept fun t ht => hg batch t ht

/-! ## Scenarios -/

theorem follows_sweepFromVault :
    Follows b (on b ids authorization).sweepFromVault (programme authorization .sweepFromVault)
      1 := by
  simp only [programme, List.append_assoc]
  unfold sweepFromVault
  refine (follows_lockCoin b ids authorization _).bind fun vault => ?_
  refine (follows_mine b ids authorization 1).aside fun _ => .ofExcept fun request _ => ?_
  refine (follows_showRecoveryFaults b ids authorization _ _).bind fun _ => ?_
  refine .ofFailure fun recovery _ => ?_
  exact (follows_confirm b ids authorization _ _).bind fun _ => .transition _ _

theorem follows_triggerOne : Follows b (on b ids authorization).triggerOne triggering 1 := by
  simp only [triggering, List.append_assoc]
  unfold triggerOne
  refine (follows_lockCoin b ids authorization _).bind fun vault => ?_
  refine (follows_mine b ids authorization 1).aside fun _ => .ofExcept fun funding _ => ?_
  refine .ofFailure fun targets _ => ?_
  refine (follows_showTriggerFaults b ids authorization _ _ _ _).bind fun _ => ?_
  refine follows_buildTrigger fun batch t _ => ?_
  refine (follows_expectAccept b ids authorization _ _).bind fun txid => ?_
  exact (Follows.transition _ _).aside fun _ => .pure _

theorem follows_sweepFromTrigger :
    Follows b (on b ids authorization).sweepFromTrigger
      (programme authorization .sweepFromTrigger) 1 := by
  simp only [programme, List.append_assoc]
  unfold sweepFromTrigger
  refine (follows_triggerOne b ids authorization).bind fun triggered => ?_
  refine .ofExcept fun outpoint _ => .ofFailure fun short _ => ?_
  refine (follows_expectReject b ids authorization _ _ _).bind fun _ => ?_
  refine (follows_showRecoveryFaults b ids authorization _ _).bind fun _ => ?_
  refine .ofFailure fun recovery _ => ?_
  exact (follows_confirm b ids authorization _ _).bind fun _ => .transition _ _

theorem follows_singleVault :
    Follows b (on b ids authorization).singleVault (programme authorization .singleVault) 1 := by
  simp only [programme, List.append_assoc]
  unfold singleVault
  refine (follows_triggerOne b ids authorization).bind fun triggered => ?_
  refine .ofExcept fun outpoint _ => .ofExcept fun withdrawal _ => ?_
  refine (follows_expectReject b ids authorization _ _ _).bind fun _ => ?_
  refine (follows_bumpFee b ids authorization _).aside fun _ => ?_
  refine (follows_mine b ids authorization _).aside fun _ => ?_
  refine (follows_expectReject b ids authorization _ _ _).bind fun _ => ?_
  refine (follows_mine b ids authorization 1).aside fun _ => ?_
  refine (follows_showWithdrawalFaults b ids authorization _ _ _).bind fun _ => ?_
  exact (follows_confirm b ids authorization _ _).bind fun _ => .transition _ _

theorem follows_batchRecovery :
    Follows b (on b ids authorization).batchRecovery (programme authorization .batchRecovery)
      4 := by
  simp only [programme, List.append_assoc]
  unfold batchRecovery
  refine (follows_lockCoin b ids authorization _).bind fun first => ?_
  refine (follows_lockCoins b ids authorization (n := 3) rfl).bind fun others => ?_
  refine follows_buildTrigger fun batch t _ => ?_
  refine (follows_confirm b ids authorization _ _).bind fun _ => ?_
  refine (Follows.transition _ _).aside fun _ => ?_
  refine (follows_spendableCoin b ids authorization).aside fun coin => ?_
  refine .ofExcept fun outpoint _ => .ofExcept fun request _ => .ofFailure fun recovery _ => ?_
  have hrest : Follows b (do
      (on b ids authorization).showRecoveryFaults batchRecoveryFaults request
      (on b ids authorization).confirm "batch recovery" recovery.tx
      Run.transitionAll ((first :: others).map Vault.id) .recovered)
      (faulty batchRecoveryFaults ++ taken "batch recovery") 0 :=
    (follows_showRecoveryFaults b ids authorization _ _).bind fun _ =>
      (follows_confirm b ids authorization _ _).bind fun _ => .transitionAll _ _
  show Follows b (if recovery.tx.outputs.length ≠ 3 then _ else _) _ _
  split
  · exact .ofExcept fun _ _ => hrest
  · exact hrest

theorem follows_batchTrigger :
    Follows b (on b ids authorization).batchTrigger (programme authorization .batchTrigger)
      5 := by
  simp only [programme, List.append_assoc]
  unfold batchTrigger
  refine (follows_lockCoins b ids authorization (n := 5) rfl).bind fun vaults => ?_
  refine .ofFailure fun total _ => .ofFailure fun targets _ => ?_
  have hstrangers (extra : List Vault) : Follows b
      (buildTrigger (vaults.take 3 ++ extra) targets none >>= fun built =>
        (on b ids authorization).expectReject "trigger incompatible batch" built.2.tx
          .incompatible)
      (refused "trigger incompatible batch" .incompatible) 0 :=
    follows_buildTrigger fun batch t _ => follows_expectReject b ids authorization _ _ _
  refine (Follows.forM hstrangers).bind fun _ => ?_
  refine follows_buildTrigger fun batch t _ => ?_
  refine (follows_confirm b ids authorization _ _).bind fun _ => ?_
  refine (Follows.transitionAll _ _).aside fun _ => ?_
  refine .ofExcept fun outpoint _ => .ofExcept fun withdrawal _ => ?_
  refine (follows_expectReject b ids authorization _ _ _).bind fun _ => ?_
  refine (follows_mine b ids authorization _).aside fun _ => ?_
  exact (follows_confirm b ids authorization _ _).bind fun _ => .transitionAll _ _

theorem follows_revault :
    Follows b (on b ids authorization).revault (programme authorization .revault) 4 := by
  simp only [programme, List.append_assoc]
  unfold revault
  refine (follows_lockCoins b ids authorization (n := 3) rfl).bind fun vaults => ?_
  refine .ofFailure fun total _ => .ofExcept fun withdrawn _ => .ofFailure fun targets _ => ?_
  refine (follows_showTriggerFaults b ids authorization _ _ _ _).bind fun _ => ?_
  refine follows_buildTrigger fun batch t ht => ?_
  refine (follows_confirm b ids authorization _ _).bind fun _ => ?_
  refine (Follows.transitionAll _ _).aside fun _ => ?_
  refine .ofExcept fun outpoint _ => .ofExcept fun withdrawal _ => ?_
  refine (follows_expectReject b ids authorization _ _ _).bind fun _ => ?_
  refine ((Follows.takeNames _).mono (Trigger.length_returns_le ht)).bind fun name => ?_
  refine .ofExcept fun returned _ => ?_
  refine (Follows.forM_aside fun vault => .track _ _).aside fun _ => ?_
  refine follows_buildTrigger fun batch' second _ => ?_
  refine (follows_confirm b ids authorization _ _).bind fun _ => ?_
  refine (Follows.transitionAll _ _).aside fun _ => ?_
  refine (follows_mine b ids authorization _).aside fun _ => ?_
  exact (follows_confirm b ids authorization _ _).bind fun _ => .transitionAll _ _

theorem follows_negativeDelay :
    Follows b (on b ids authorization).negativeDelay (programme authorization .negativeDelay)
      1 := by
  simp only [programme, List.append_assoc]
  unfold negativeDelay
  refine (follows_lockCoin b ids authorization _).bind fun vault => ?_
  refine (follows_mine b ids authorization 1).aside fun _ => ?_
  refine .ofFailure fun total _ => .ofFailure fun targets _ => ?_
  refine follows_buildTrigger fun batch t _ => ?_
  refine (follows_expectReject b ids authorization _ _ _).bind fun _ => ?_
  refine .ofExcept fun request _ => .ofFailure fun recovery _ => ?_
  exact (follows_confirm b ids authorization _ _).bind fun _ => .transition _ _

theorem follows_recursiveRecoveryWitness :
    Follows b (on b ids authorization).recursiveRecoveryWitness
      (programme authorization .recursiveRecoveryWitness) 1 := by
  simp only [programme]
  unfold recursiveRecoveryWitness
  refine .ofExcept fun authorization' _ => ?_
  refine (follows_lockCoin b ids authorization _).bind fun vault => ?_
  refine (follows_mine b ids authorization 1).aside fun _ => ?_
  refine .ofExcept fun request _ => .ofFailure fun recovery _ => ?_
  exact follows_expectReject b ids authorization _ _ _

/-- Every scenario follows its programme, whatever the node answers. -/
theorem follows_course (scenario : Scenario) :
    Follows b ((on b ids authorization).course scenario) (programme authorization scenario)
      5 := by
  cases scenario with
  | singleVault => exact (follows_singleVault b ids authorization).mono (by decide)
  | sweepFromVault => exact (follows_sweepFromVault b ids authorization).mono (by decide)
  | sweepFromTrigger => exact (follows_sweepFromTrigger b ids authorization).mono (by decide)
  | batchRecovery => exact (follows_batchRecovery b ids authorization).mono (by decide)
  | batchTrigger => exact follows_batchTrigger b ids authorization
  | revault => exact (follows_revault b ids authorization).mono (by decide)
  | negativeDelay => exact (follows_negativeDelay b ids authorization).mono (by decide)
  | recursiveRecoveryWitness =>
    exact (follows_recursiveRecoveryWitness b ids authorization).mono (by decide)

end Runner

end VaultCovenant
