import VaultCovenant.Proofs.Scenario.Watch

/-!
# Rules for a run that is watched

What a part of a run does is said by what holds after it, given that the books
were right before. They then are right after it, also if the part has failed,
and a failure is not about a state unless it is the node's own.

Results:
* `Ensures.bind`, `Ensures.quiet`: one part after the other.
* `Ensures.transitionAll`, `Ensures.transition`, `Ensures.trackAll`: vaults
  that may be moved are moved, if no two of them have one id.
-/

namespace VaultCovenant

open Run

variable {α β : Type} {w : Watch} {x : Run Calling α} {f : α → Run Calling β} {s : RunState}
  {done : History}

/-- From a state with right books the run comes to one with right books. What
it gives meets the postcondition, as long as its calls are among those that are
watched; while no two names are equal, a failure is excused. -/
def Ensures (w : Watch) (x : Run Calling α) (s : RunState) (done : History)
    (post : α → RunState → History → Prop) : Prop :=
  w.Books s → ∀ result s' calls, x s (w.past ++ done) = ((result, s'), calls) →
    done ++ calls <+: w.calls →
      w.Books s' ∧ (∀ a, result = .ok a → post a s' (done ++ calls)) ∧
        ∀ e, result = .error e → w.Distinct s'.named → Excused e calls

/-- The first call offered the transaction, and the node took it. -/
def Takes (tx : Transaction) (calls : History) : Prop :=
  ∃ txid rest, calls = .broadcast tx (.ok (.accepted txid)) :: rest

/-- The node took the transaction right after the calls. -/
def Watch.Took (w : Watch) (done : History) (tx : Transaction) : Prop :=
  ∃ txid after, w.calls = done ++ .broadcast tx (.ok (.accepted txid)) :: after

theorem Takes.took {tx : Transaction} {calls : History} (h : Takes tx calls)
    (hcalls : done ++ calls <+: w.calls) : w.Took done tx := by
  obtain ⟨txid, rest, rfl⟩ := h
  obtain ⟨after, hafter⟩ := hcalls
  refine ⟨txid, rest ++ after, ?_⟩
  rw [← hafter, List.append_assoc, List.cons_append]

theorem Watch.Took.mem {tx : Transaction} (h : w.Took done tx) : tx ∈ accepted w.calls := by
  obtain ⟨txid, after, hcalls⟩ := h
  apply mem_accepted (t := txid)
  rw [hcalls]
  exact List.mem_append_right _ List.mem_cons_self

/-! ## Moving and tracking in one step -/

namespace Run

theorem transition_eq (id : VaultId) (next : VaultState) :
    (Run.transition id next : Run Calling Unit) = Run.transitionAll [id] next := by
  funext s
  unfold Run.transition Run.transitionAll Lifecycle.transitionAll Lifecycle.transitionAll
  cases s.lifecycle.transition id next <;> rfl

theorem forM_track (vs : List Vault) (state : VaultState) (s : RunState) (past : History) :
    (vs.forM fun v => (Run.track v.id state : Run Calling Unit)) s past =
      ((.ok (), { s with lifecycle := s.lifecycle.moveAll state (vs.map Vault.id) }), []) := by
  induction vs generalizing s past with
  | nil => rfl
  | cons v vs ih =>
    have hfirst : (Run.track v.id state : Run Calling Unit) s past =
        ((.ok (), { s with lifecycle := s.lifecycle.record v.id state }), []) := rfl
    show ((Run.track v.id state : Run Calling Unit) >>= fun _ =>
      vs.forM fun v => Run.track v.id state) s past = _
    rw [bind_ok hfirst, ih]
    rfl

end Run

/-! ## One part after the other -/

namespace Ensures

variable {post : β → RunState → History → Prop}

theorem bind {Q : α → RunState → History → Prop} (hx : Ensures w x s done Q)
    (hf : ∀ a s₁ done₁, Q a s₁ done₁ → Ensures w (f a) s₁ done₁ post) :
    Ensures w (x >>= f) s done post := by
  intro hbooks result s' calls h hcalls
  rcases bind_cases h with ⟨a, s₁, front, back, hfirst, hrest, rfl⟩ | ⟨e, hfirst, rfl⟩
  · rw [← List.append_assoc] at hcalls
    obtain ⟨hbooks₁, hok, -⟩ :=
      hx hbooks _ _ _ hfirst ((List.prefix_append _ _).trans hcalls)
    rw [List.append_assoc] at hrest
    obtain ⟨hbooks', hok', herror⟩ := hf a s₁ _ (hok a rfl) hbooks₁ _ _ _ hrest hcalls
    refine ⟨hbooks', ?_, ?_⟩
    · intro b hb
      rw [← List.append_assoc]
      exact hok' b hb
    · intro e he hdistinct
      exact (herror e he hdistinct).append front
  · obtain ⟨hbooks', -, herror⟩ := hx hbooks _ _ _ hfirst hcalls
    refine ⟨hbooks', ?_, ?_⟩
    · intro b hb
      cases hb
    · intro e' he' hdistinct
      cases he'
      exact herror e rfl hdistinct

theorem pure {b : β} (h : post b s done) : Ensures w (Pure.pure b) s done post := by
  intro hbooks result s' calls hrun hcalls
  cases hrun
  refine ⟨hbooks, ?_, ?_⟩
  · intro b' hb'
    cases hb'
    rw [List.append_nil]
    exact h
  · intro e he
    cases he

theorem imp {y : Run Calling β} {post' : β → RunState → History → Prop}
    (h : Ensures w y s done post) (himp : ∀ b s' done', post b s' done' → post' b s' done') :
    Ensures w y s done post' := by
  intro hbooks result s' calls hrun hcalls
  obtain ⟨hbooks', hok, herror⟩ := h hbooks _ _ _ hrun hcalls
  exact ⟨hbooks', fun b hb => himp _ _ _ (hok b hb), herror⟩

/-- A rule may rely on right books. -/
theorem of_books {y : Run Calling β} (h : w.Books s → Ensures w y s done post) :
    Ensures w y s done post := fun hbooks => h hbooks hbooks

/-! ## Parts that leave the books alone -/

/-- After a quiet part all is as before but for the steps. -/
theorem quiet {R : α → History → Prop} (hx : Quiet x R)
    (hf : ∀ a steps calls, R a calls → coins (done ++ calls) = coins done →
      done ++ calls <+: w.calls → Ensures w (f a) { s with steps } (done ++ calls) post) :
    Ensures w (x >>= f) s done post := by
  refine bind (Q := fun a s₁ done₁ => ∃ steps calls, s₁ = { s with steps } ∧
    done₁ = done ++ calls ∧ R a calls ∧ coins done₁ = coins done ∧ done₁ <+: w.calls) ?_ ?_
  · intro hbooks result s' calls h hcalls
    obtain ⟨⟨steps, rfl⟩, hcoins, hok, herror⟩ := hx _ _ _ _ _ h
    refine ⟨⟨hbooks.granted, hbooks.named⟩, ?_, fun e he _ => herror e he⟩
    intro a ha
    refine ⟨steps, calls, rfl, rfl, hok a ha, ?_, hcalls⟩
    rw [coins_append, hcoins, List.append_nil]
  · rintro a s₁ done₁ ⟨steps, calls, rfl, rfl, hR, hcoins, hcalls⟩
    exact hf a steps calls hR hcoins hcalls

/-- A quiet part of which only matters that it is over. -/
theorem aside {R : α → History → Prop} (hx : Quiet x R)
    (hf : ∀ a steps done₁, coins done₁ = coins done →
      Ensures w (f a) { s with steps } done₁ post) :
    Ensures w (x >>= f) s done post :=
  quiet hx fun a steps _ _ hcoins _ => hf a steps _ hcoins

/-- A quiet part at the end. -/
theorem last {R : β → History → Prop} {y : Run Calling β} (hy : Quiet y R) :
    Ensures w y s done fun _ _ _ => True := by
  intro hbooks result s' calls h _
  obtain ⟨⟨steps, rfl⟩, -, -, herror⟩ := hy _ _ _ _ _ h
  exact ⟨⟨hbooks.granted, hbooks.named⟩, fun _ _ => trivial, fun e he _ => herror e he⟩

/-- A quiet part after which the node has taken a transaction. -/
theorem took {tx : Transaction} (hx : Quiet x fun _ calls => Takes tx calls)
    (hf : w.Took done tx → ∀ a steps done₁, coins done₁ = coins done →
      Ensures w (f a) { s with steps } done₁ post) :
    Ensures w (x >>= f) s done post :=
  quiet hx fun a steps _ htakes hcoins hcalls => hf (htakes.took hcalls) a steps _ hcoins

/-- A result that is there goes on. -/
theorem ofFailure {result : Except Failure α} (h : FailsOnly Failure.Stateless result)
    (hf : ∀ a, result = .ok a → Ensures w (f a) s done post) :
    Ensures w (Run.ofFailure result >>= f) s done post := by
  refine bind (Q := fun a s₁ done₁ => result = .ok a ∧ s₁ = s ∧ done₁ = done) ?_ ?_
  · intro hbooks result' s' calls hrun _
    cases hrun
    exact ⟨hbooks, fun a ha => ⟨ha, rfl, List.append_nil _⟩, fun e he _ => Or.inl (h e he)⟩
  · rintro a s₁ done₁ ⟨ha, rfl, rfl⟩
    exact hf a ha

theorem ofExcept {result : Except VaultError α} (h : FailsOnly VaultError.Stateless result)
    (hf : ∀ a, result = .ok a → Ensures w (f a) s done post) :
    Ensures w (Run.ofExcept result >>= f) s done post :=
  ofFailure h.lift fun a ha => hf a (lift_eq_ok_iff.mp ha)

/-- Names are taken. -/
theorem takeNames {f : ℕ → Run Calling β} (count : ℕ)
    (hf : Ensures w (f s.named) { s with named := s.named + count } done post) :
    Ensures w (Run.takeNames count >>= f) s done post := by
  refine bind (Q := fun n s₁ done₁ => n = s.named ∧ s₁ = { s with named := s.named + count } ∧
    done₁ = done) ?_ ?_
  · intro hbooks result s' calls hrun _
    cases hrun
    refine ⟨⟨hbooks.granted, ?_⟩, ?_, ?_⟩
    · intro p hp
      obtain ⟨i, hi, hlt, hpi⟩ := hbooks.named p hp
      exact ⟨i, hi, Nat.lt_add_right count hlt, hpi⟩
    · intro n hn
      cases hn
      exact ⟨rfl, rfl, List.append_nil _⟩
    · intro e he
      cases he
  · rintro n s₁ done₁ ⟨rfl, rfl, rfl⟩
    exact hf

/-- A coin is handed out. -/
theorem spendableCoin {f : Coin → Run Calling β}
    (hf : ∀ coin, done ++ [.spendableCoin (.ok coin)] <+: w.calls →
      Ensures w (f coin) s (done ++ [.spendableCoin (.ok coin)]) post) :
    Ensures w (Run.call w.runner.node.spendableCoin >>= f) s done post := by
  refine bind (Q := fun coin s₁ done₁ => s₁ = s ∧
    done₁ = done ++ [.spendableCoin (.ok coin)] ∧ done₁ <+: w.calls) ?_ ?_
  · intro hbooks result s' calls hrun hcalls
    rw [call_apply] at hrun
    obtain ⟨answer, hanswer⟩ : ∃ answer,
        w.runner.node.spendableCoin (w.past ++ done) = (answer, [.spendableCoin answer]) :=
      ⟨_, rfl⟩
    rw [hanswer] at hrun
    cases hrun
    refine ⟨hbooks, ?_, ?_⟩
    · intro coin hcoin
      cases lift_eq_ok_iff.mp hcoin
      exact ⟨rfl, rfl, hcalls⟩
    · intro e he _
      obtain ⟨cause, rfl, rfl⟩ := lift_eq_error_iff.mp he
      exact .answer rfl
  · rintro coin s₁ done₁ ⟨rfl, rfl, hcalls⟩
    exact hf coin hcalls

/-- Vaults that may be moved are moved, if no two of them have one id. -/
theorem transitionAll {vs : List Vault} {next : VaultState}
    (hplay : ∀ v ∈ vs, ∃ state, state.canBecome next = true ∧ w.InPlay s state v)
    (hnodup : w.Distinct s.named → (vs.map Vault.id).Nodup)
    (hgranted : ∀ v ∈ vs, Granted w.name w.calls v.id next) :
    Ensures w (Run.transitionAll (vs.map Vault.id) next) s done fun _ s' done' =>
      done' = done ∧ w.Moved next (vs.map Vault.id) s s' := by
  intro hbooks result s' calls hrun _
  have hall : w.Distinct s.named → s.lifecycle.transitionAll (vs.map Vault.id) next =
      (s.lifecycle.moveAll next (vs.map Vault.id), .ok ()) := by
    intro hdistinct
    apply Lifecycle.transitionAll_of_nodup (hnodup hdistinct)
    intro id hid
    obtain ⟨v, hv, rfl⟩ := List.mem_map.mp hid
    obtain ⟨state, hnext, hstate⟩ := hplay v hv
    rw [hstate.stands hdistinct]
    exact hnext
  cases hrun
  refine ⟨?_, ?_, ?_⟩
  · -- also those that were moved before a failure
    refine hbooks.moved rfl (Lifecycle.transitionAll_fst _ _ _) ?_
    intro id hid
    obtain ⟨v, hv, rfl⟩ := List.mem_map.mp (Lifecycle.mem_of_movable hid)
    obtain ⟨state, -, hstate⟩ := hplay v hv
    exact ⟨hgranted v hv, hstate.known⟩
  · intro a _
    refine ⟨List.append_nil _, rfl, ?_⟩
    intro hdistinct
    show (s.lifecycle.transitionAll _ _).1 = _
    rw [hall hdistinct]
  · intro e he hdistinct
    have hdistinct' : w.Distinct s.named := hdistinct
    rw [hall hdistinct'] at he
    cases he

/-- A vault that may be moved is moved. -/
theorem transition {v : Vault} {state next : VaultState} (hplay : w.InPlay s state v)
    (hnext : state.canBecome next = true) (hgranted : Granted w.name w.calls v.id next) :
    Ensures w (Run.transition v.id next) s done fun _ s' done' =>
      done' = done ∧ w.Moved next [v.id] s s' := by
  rw [transition_eq, ← List.map_singleton]
  refine transitionAll ?_ (fun _ => List.nodup_singleton _) ?_
  · intro u hu
    rw [List.mem_singleton.mp hu]
    exact ⟨state, hnext, hplay⟩
  · intro u hu
    rw [List.mem_singleton.mp hu]
    exact hgranted

/-- Vaults are kept track of from a state on. -/
theorem trackAll {vs : List Vault} {state : VaultState}
    (hgranted : ∀ v ∈ vs, Granted w.name w.calls v.id state) (hknown : ∀ v ∈ vs, w.Known s v) :
    Ensures w (vs.forM fun v => Run.track v.id state) s done fun _ s' done' =>
      done' = done ∧ w.Moved state (vs.map Vault.id) s s' := by
  intro hbooks result s' calls hrun _
  rw [forM_track] at hrun
  cases hrun
  refine ⟨hbooks.moved rfl rfl ?_, ?_, ?_⟩
  · intro id hid
    obtain ⟨v, hv, rfl⟩ := List.mem_map.mp hid
    exact ⟨hgranted v hv, hknown v hv⟩
  · intro a _
    exact ⟨List.append_nil _, rfl, fun _ => rfl⟩
  · intro e he
    cases he

end Ensures

/-! ## Statements that leave the books alone -/

namespace Watch

variable (w)

theorem quiet_expectAccept (label : String) (tx : Transaction) :
    Quiet (w.runner.expectAccept label tx) fun _ calls => Takes tx calls := by
  intro s past result s' calls h
  rw [runner, Runner.expectAccept_eq] at h
  cases hb : w.behaviour.broadcast past tx with
  | error e =>
    rw [hb] at h
    cases h
    exact .of_error s.steps rfl (.answer rfl)
  | ok verdict =>
    rw [hb] at h
    cases verdict with
    | accepted txid =>
      cases h
      exact .of_ok _ rfl ⟨txid, [], rfl⟩
    | rejected reason =>
      cases h
      exact .of_error _ rfl (.stateless nofun)

theorem quiet_expectReject (label : String) (tx : Transaction) (rejection : Rejection) :
    Quiet (w.runner.expectReject label tx rejection) fun _ _ => True := by
  intro s past result s' calls h
  rw [runner, Runner.expectReject_eq] at h
  cases hb : w.behaviour.broadcast past tx with
  | error e =>
    rw [hb] at h
    cases h
    exact .of_error s.steps rfl (.answer rfl)
  | ok verdict =>
    rw [hb] at h
    cases verdict with
    | accepted txid =>
      cases h
      exact .of_error _ rfl (.stateless nofun)
    | rejected reason =>
      cases h
      exact .of_ok _ rfl trivial

theorem quiet_mine (blocks : UInt64) : Quiet (w.runner.mine blocks) fun _ _ => True :=
  .call (g := .mine blocks) (fun _ => rfl) (fun result => by cases result <;> rfl) fun _ => rfl

theorem quiet_bumpFee (txid : Txid) : Quiet (w.runner.bumpFee txid) fun _ _ => True :=
  .call (g := .bumpFee txid Runner.feeDelta) (fun _ => rfl) (fun result => by cases result <;> rfl)
    fun _ => rfl

theorem quiet_mempoolSize : Quiet (Run.call w.runner.node.mempoolSize) fun _ _ => True :=
  .call (g := .mempoolSize) (fun _ => rfl) (fun result => by cases result <;> rfl) fun _ => rfl

theorem quiet_confirm (label : String) (tx : Transaction) :
    Quiet (w.runner.confirm label tx) fun _ calls => Takes tx calls := by
  refine (w.quiet_expectAccept label tx).bind fun txid => ?_
  have hrest : Quiet (do
      w.runner.bumpFee txid
      w.runner.mine 1
      let _ ← Run.call w.runner.node.mempoolSize) fun _ _ => True :=
    (w.quiet_bumpFee txid).andThen fun _ => (w.quiet_mine 1).andThen fun _ =>
      w.quiet_mempoolSize.andThen fun _ => .pure ()
  refine hrest.imp ?_
  rintro _ more - calls ⟨txid', rest, rfl⟩
  exact ⟨txid', rest ++ more, rfl⟩

theorem quiet_showTriggerFaults (faults : List Fault) (vaults : List Vault)
    (targets : List TxOut) (revault : Option Sats) :
    Quiet (w.runner.showTriggerFaults faults vaults targets revault) fun _ _ => True :=
  .forM fun _ => (Quiet.ofFailure (Trigger.stateless_triggerWithFault _ _ _ _)).andThen fun _ =>
    w.quiet_expectReject _ _ _

theorem quiet_showRecoveryFaults (faults : List Fault) (request : RecoveryRequest) :
    Quiet (w.runner.showRecoveryFaults faults request) fun _ _ => True :=
  .forM fun _ => (Quiet.ofFailure (Recovery.stateless_build _)).andThen fun _ =>
    w.quiet_expectReject _ _ _

theorem quiet_showWithdrawalFaults (faults : List Fault) (outpoint : Outpoint) (batch : Batch) :
    Quiet (w.runner.showWithdrawalFaults faults outpoint batch) fun _ _ => True :=
  .forM fun _ => (Quiet.ofExcept (Withdrawal.stateless_build _ _ _)).andThen fun _ =>
    w.quiet_expectReject _ _ _

end Watch

theorem Run.Quiet.buildTrigger (vaults : List Vault) (targets : List TxOut) (revault : Option Sats) :
    Quiet (Runner.buildTrigger vaults targets revault : Run Calling (Batch × Trigger))
      fun _ _ => True :=
  (Quiet.ofFailure (Batch.stateless_build _ _ _ _)).andThen fun _ =>
    (Quiet.ofExcept (Trigger.stateless_build _ _ _)).andThen fun _ => .pure _

/-- A trigger that is built goes on, with its batch. -/
theorem Ensures.buildTrigger {post : β → RunState → History → Prop}
    {g : Batch × Trigger → Run Calling β} {vaults : List Vault} {targets : List TxOut}
    {revault : Option Sats}
    (hg : ∀ b t, Batch.build vaults targets revault .none = .ok b →
      Trigger.build [b] none .none = .ok t → Ensures w (g (b, t)) s done post) :
    Ensures w (Runner.buildTrigger vaults targets revault >>= g) s done post := by
  rw [Runner.buildTrigger_bind]
  refine ofFailure (Batch.stateless_build _ _ _ _) fun b hb => ?_
  exact ofExcept (Trigger.stateless_build _ _ _) fun t ht => hg b t hb ht

end VaultCovenant
