import VaultCovenant.Proofs.Scenario.Courses

/-!
# What a report says

A report is read against the calls of its run: the steps are those of the
transactions that the node took or refused, and the states of the vaults are
those that the node has granted.

Results:
* `Runner.report_accounts`: there is one step for each transaction that the
  node took or refused, and a run is ended by the first surprise.
* `Runner.report_granted`: no vault is in a state that the node did not grant,
  and no run asks for a step of a life that there is not.
-/

namespace VaultCovenant

/-! ## Refusals that were foretold -/

theorem Rejection.isMetBy_iff {rejection : Rejection} {text : String} :
    rejection.isMetBy text = true ↔ rejection.reason.toList <:+: text.toList := by
  unfold isMetBy Text.hasFragment
  rw [Text.occurs_iff]
  constructor
  · rintro ⟨before, after, heq⟩
    exact ⟨before, after, heq.symm⟩
  · rintro ⟨before, after, heq⟩
    exact ⟨before, after, heq.symm⟩

/-- A refusal was expected, for a reason that the text names. -/
def Expectation.Foretells (expected : Expectation) (text : String) : Prop :=
  ∃ rejection, expected = .reject rejection ∧ rejection.reason.toList <:+: text.toList

theorem Expectation.isMetBy_rejected_iff {expected : Expectation} {text : String} :
    expected.isMetBy (.rejected text) = true ↔ expected.Foretells text := by
  unfold Foretells
  cases expected with
  | accept =>
    constructor
    · intro h
      cases h
    · rintro ⟨rejection, h, -⟩
      cases h
  | reject rejection =>
    constructor
    · intro h
      exact ⟨rejection, rfl, Rejection.isMetBy_iff.mp h⟩
    · rintro ⟨rejection', heq, h⟩
      cases heq
      exact Rejection.isMetBy_iff.mpr h

namespace Step

variable {step : Step} {tx : Transaction} {verdict : Verdict} {text : String}

theorem IsOf.passed_eq (h : step.IsOf (tx, verdict)) :
    step.passed = step.expected.isMetBy verdict := by
  have heq := congrArg passed h
  exact heq

theorem IsOf.refused (h : step.IsOf (tx, .rejected text)) :
    step.observed = text ∧ (step.passed = true ↔ step.expected.Foretells text) := by
  have heq := congrArg observed h
  refine ⟨heq, ?_⟩
  rw [h.passed_eq]
  exact Expectation.isMetBy_rejected_iff

/-- A step that was accepted as expected has passed. -/
theorem IsOf.passed_of_accepted {txid : Txid} (h : step.IsOf (tx, .accepted txid))
    (hagrees : step.expected.agreesWith (.accepted txid) = true) : step.passed = true := by
  rw [h.passed_eq]
  cases hexpected : step.expected with
  | accept => rfl
  | reject rejection =>
    rw [hexpected] at hagrees
    cases hagrees

end Step

/-- Among steps as expected all have passed if every refusal was foretold. -/
theorem Conforming.all_passed_iff {steps : List Step} {calls : History}
    (h : Conforming steps calls) :
    steps.all Step.passed = true ↔ ∀ (i : ℕ) (step : Step) (tx : Transaction)
      (text : String), steps[i]? = some step → (answered calls)[i]? = some (tx, .rejected text) →
        step.expected.Foretells text := by
  rw [List.all_eq_true]
  constructor
  · intro hpassed i step tx text hstep hp
    obtain ⟨p, hp', hisOf, -⟩ := forall₂_getElem? h hstep
    rw [hp] at hp'
    cases hp'
    exact hisOf.refused.2.mp (hpassed step (List.mem_iff_getElem?.mpr ⟨i, hstep⟩))
  · intro hforetold step hmem
    obtain ⟨i, hstep⟩ := List.mem_iff_getElem?.mp hmem
    obtain ⟨⟨tx, verdict⟩, hp, hisOf, hagrees⟩ := forall₂_getElem? h hstep
    cases verdict with
    | accepted txid => exact hisOf.passed_of_accepted hagrees
    | rejected text => exact hisOf.refused.2.mpr (hforetold i step tx text hstep hp)

/-! ## A run without surprises -/

/-- The computation comes to a result, whatever was asked before. -/
def Run.Ends {α : Type} (x : Run Calling α) (s : RunState) (a : α) (s' : RunState) : Prop :=
  ∀ past, (x s past).1 = (.ok a, s')

namespace Run.Ends

variable {α β : Type} {s s₁ s' : RunState} {a : α} {b : β}

theorem bind {x : Run Calling α} {f : α → Run Calling β} (hx : Ends x s a s₁)
    (hf : Ends (f a) s₁ b s') : Ends (x >>= f) s b s' := by
  intro past
  have hfirst : x s past = ((.ok a, s₁), (x s past).2) := Prod.ext (hx past) rfl
  rw [bind_ok hfirst]
  exact hf _

theorem ofFailure {result : Except Failure α} (h : result = .ok a) :
    Ends (Run.ofFailure result) s a s := fun _ => congrArg (·, s) h

theorem ofExcept {result : Except VaultError α} (h : result = .ok a) :
    Ends (Run.ofExcept result) s a s := ofFailure (lift_eq_ok_iff.mpr h)

end Run.Ends

/-- A node that takes whatever is offered and hands out one coin again and
again. -/
def Behaviour.taking (coin : Coin) : Behaviour where
  broadcast _ tx := .ok (.accepted tx.txid)
  mine _ _ := .ok ()
  spendableCoin _ := .ok coin
  bumpFee _ _ _ := .ok ()
  mempoolSize _ := .ok 0

namespace Runner

/-- A runner whose node takes everything; the vaults are numbered. -/
def smooth : Runner Calling :=
  on (.taking ⟨TxIn.spending .null, ⟨500000000, Script.anyone⟩⟩) UInt64.ofNat .anyone

theorem report_of_ok {b : Behaviour} {ids : ℕ → VaultId} {authorization : Authorization}
    {scenario : Scenario} {named : ℕ} {past : History} {s : RunState}
    (h : ((on b ids authorization).course scenario (start named) past).1 = (.ok (), s)) :
    ∃ calls, (on b ids authorization).report scenario named past = ((some ⟨scenario,
      authorization.label, s.steps, s.lifecycle.states, none⟩, s.named), calls) := by
  refine ⟨((on b ids authorization).report scenario named past).2, Prod.ext ?_ rfl⟩
  unfold report
  rw [Calling.bind_apply, h]
  rfl

/-- Where everything is taken, a vault is locked and recovered. -/
theorem smooth_sweepFromVault : ∃ (tx swept : Transaction),
    (smooth.course .sweepFromVault).Ends (start 0) ()
      ⟨[Step.record "initialize vault" tx.txid .accept (.accepted tx.txid),
        Step.record "recover from vault" swept.txid .accept (.accepted swept.txid)],
        ⟨[(0, .recovered)]⟩, 1⟩ := by
  obtain ⟨policy, hpolicy⟩ :=
    Policy.ofParams_isOk (show ({} : VaultParams).recoverySecret ≠ 0 by decide) (by decide)
  obtain ⟨tx, v, f, hlock, hid, hf⟩ : ∃ tx v f, (Vault.empty 0 policy).lock
      ⟨TxIn.spending .null, ⟨500000000, Script.anyone⟩⟩ none = .ok (tx, v) ∧ v.id = 0 ∧
      v.funding = .ok f :=
    ⟨_, _, _, bind_eq_ok_iff.mpr ⟨499990000, by decide, rfl⟩, rfl, Vault.funding_withFunding _ _⟩
  obtain ⟨request, hrequest⟩ : ∃ request, RecoveryRequest.vaulted {} v = .ok request :=
    ⟨_, bind_eq_ok_iff.mpr ⟨f, hf, rfl⟩⟩
  obtain ⟨recovery, hrecovery⟩ : ∃ recovery, Recovery.build request = .ok recovery := by
    obtain ⟨o, ho, rfl⟩ := RecoveryRequest.vaulted_eq_ok hrequest
    obtain ⟨source, hsource⟩ := Recovery.vaultSource_isOk hf
    exact Recovery.build_singleton_isOk rfl (s := source) ((if_pos ho).trans hsource) rfl
  have hlocked : (smooth.lockCoin smooth.authorizedParams).Ends (start 0) v
      ⟨[Step.record "initialize vault" tx.txid .accept (.accepted tx.txid)],
        ⟨[(0, .vaulted)]⟩, 1⟩ := by
    refine .bind (.ofExcept hpolicy) ?_
    refine .bind (fun _ => rfl) ?_
    refine .bind (fun _ => rfl) ?_
    refine .bind (.ofExcept hlock) ?_
    refine .bind (fun _ => rfl) ?_
    rw [hid]
    exact .bind (fun _ => rfl) fun _ => rfl
  refine ⟨tx, recovery.tx, .bind hlocked ?_⟩
  refine .bind (fun _ => rfl) ?_
  refine .bind (.ofExcept hrequest) ?_
  refine .bind (fun _ => rfl) ?_
  refine .bind (.ofFailure hrecovery) ?_
  refine .bind (fun _ => rfl) ?_
  rw [hid]
  exact fun _ => rfl

theorem smooth_report : ∃ r calls, smooth.report .sweepFromVault 0 [] = ((some r, 1), calls) ∧
    r.error = none ∧ r.finalStates = [(0, .recovered)] ∧ r.passed = true := by
  obtain ⟨tx, swept, hends⟩ := smooth_sweepFromVault
  obtain ⟨calls, hreport⟩ := report_of_ok (hends [])
  exact ⟨_, calls, hreport, rfl, rfl, rfl⟩

end Runner

/-! ## Reports -/

/-- The steps of a report account for the calls of a run. -/
structure Report.AccountsFor (r : Report) (calls : History) : Prop where
  /-- There is one step for every transaction that was taken or refused. -/
  steps : List.Forall₂ Step.IsOf r.steps (answered calls)
  /-- All went as expected but for a last call, which ended the run. -/
  expected (i : ℕ) (step : Step) (tx : Transaction) (verdict : Verdict) :
    r.steps[i]? = some step → (answered calls)[i]? = some (tx, verdict) →
      step.expected.agreesWith verdict = true ∨
        i + 1 = r.steps.length ∧ calls.getLast? = some (.broadcast tx (.ok verdict)) ∧
          r.error.isSome = true
  /-- The words of a refusal are kept, and the step passes if they were foretold. -/
  refused (i : ℕ) (step : Step) (tx : Transaction) (text : String) :
    r.steps[i]? = some step → (answered calls)[i]? = some (tx, .rejected text) →
      step.observed = text ∧ (step.passed = true ↔ step.expected.Foretells text)
  /-- In a run that came to its end all was taken that had to be. -/
  taken : r.error = none → ∀ step ∈ r.steps, step.expected = .accept → step.passed = true
  /-- A run has passed if it came to its end and every refusal was foretold. -/
  passed : r.passed = true ↔ r.error = none ∧
    ∀ (i : ℕ) (step : Step) (tx : Transaction) (text : String), r.steps[i]? = some step →
      (answered calls)[i]? = some (tx, .rejected text) → step.expected.Foretells text

namespace Runner

variable {b : Behaviour} {ids : ℕ → VaultId} {authorization : Authorization}
  {scenario : Scenario} {named named' : ℕ} {past calls : History} {r : Report}

/-- A report is that of the course of its scenario. -/
theorem report_course
    (h : (on b ids authorization).report scenario named past = ((some r, named'), calls)) :
    ∃ result s', (on b ids authorization).course scenario (start named) past =
        ((result, s'), calls) ∧ named' = s'.named ∧ r.steps = s'.steps ∧
      r.finalStates = s'.lifecycle.states ∧
      ((result = .ok () ∧ r.error = none) ∨
        ∃ e, result = .error (.error e) ∧ r.error = some e.message) := by
  obtain ⟨⟨⟨result, s'⟩, calls'⟩, hcourse⟩ :
      ∃ outcome, (on b ids authorization).course scenario (start named) past = outcome := ⟨_, rfl⟩
  unfold report at h
  rw [Calling.bind_apply, hcourse] at h
  obtain ⟨hreport, hcalls⟩ := Prod.mk.inj h
  have hcalls' : calls' ++ [] = calls := hcalls
  rw [List.append_nil] at hcalls'
  subst hcalls'
  refine ⟨result, s', hcourse, ?_⟩
  cases result with
  | ok _ =>
    cases hreport
    exact ⟨rfl, rfl, rfl, Or.inl ⟨rfl, rfl⟩⟩
  | error e =>
    cases e with
    | error cause =>
      cases hreport
      exact ⟨rfl, rfl, rfl, Or.inr ⟨cause, rfl, rfl⟩⟩
    | overflow => cases hreport

/-- The report of every run, on whatever node, accounts for its calls. -/
theorem report_accounts
    (h : (on b ids authorization).report scenario named past = ((some r, named'), calls)) :
    r.AccountsFor calls := by
  obtain ⟨result, s', hcourse, -, hsteps, -, houtcome⟩ := report_course h
  obtain ⟨steps, hadded, horderly⟩ := orderly_course b ids authorization scenario _ _ _ _ _ hcourse
  have hrecord : r.steps = steps := hsteps.trans hadded
  have hfailed : (∃ e, result = .error e) → r.error.isSome = true := by
    rintro ⟨e, he⟩
    rcases houtcome with ⟨hok, -⟩ | ⟨cause, -, herror⟩
    · rw [hok] at he
      cases he
    · rw [herror]
      rfl
  have hconforming : r.error = none → Conforming r.steps calls := by
    intro hnone
    rw [hrecord]
    rcases horderly with h | ⟨-, he⟩
    · exact h
    · have hsome := hfailed he
      rw [hnone] at hsome
      cases hsome
  have hisOf : List.Forall₂ Step.IsOf r.steps (answered calls) := by
    rw [hrecord]
    rcases horderly with h | ⟨h, -⟩
    · exact h.isOf
    · exact h.isOf
  refine ⟨hisOf, ?_, ?_, ?_, ?_⟩
  · intro i step tx verdict hstep hp
    rw [hrecord] at hstep ⊢
    rcases horderly with h | ⟨h, he⟩
    · exact Or.inl (h.agrees hstep hp)
    · exact (h.last hstep hp).imp_right fun ⟨hlast, hcall⟩ => ⟨hlast, hcall, hfailed he⟩
  · intro i step tx text hstep hp
    obtain ⟨p, hp', h⟩ := forall₂_getElem? hisOf hstep
    rw [hp] at hp'
    cases hp'
    exact h.refused
  · intro hnone step hmem haccept
    obtain ⟨i, hstep⟩ := List.mem_iff_getElem?.mp hmem
    obtain ⟨⟨tx, verdict⟩, hp, h, hagrees⟩ := forall₂_getElem? (hconforming hnone) hstep
    cases verdict with
    | accepted txid => exact h.passed_of_accepted hagrees
    | rejected text =>
      rw [haccept] at hagrees
      cases hagrees
  · unfold Report.passed
    rw [Bool.and_eq_true, Option.isNone_iff_eq_none]
    exact and_congr_right fun hnone => (hconforming hnone).all_passed_iff

theorem report_accounts_passed : ∃ r calls,
    smooth.report .sweepFromVault 0 [] = ((some r, 1), calls) ∧ r.AccountsFor calls ∧
      r.passed = true := by
  obtain ⟨r, calls, hreport, -, -, hpassed⟩ := smooth_report
  exact ⟨r, calls, hreport, report_accounts hreport, hpassed⟩

/-- Whatever state a report gives for a vault, the node has granted it in the
calls of the run. If no two of the names in use are equal then a run is never
ended by a step of a life that there is not, unless the node says so itself. -/
theorem report_granted
    (h : (on b ids authorization).report scenario named past = ((some r, named'), calls)) :
    (∀ id state, (id, state) ∈ r.finalStates →
      Granted (fun i => ids (named + i)) calls id state) ∧
    ((∀ i j, named ≤ i → i < j → j < named' → ids i ≠ ids j) → ∀ current requested,
      r.error = some (VaultError.invalidStateTransition current requested).message →
      ∃ x current requested, calls.getLast? = some x ∧
        x.failure? = some (.invalidStateTransition current requested)) := by
  obtain ⟨result, s', hcourse, rfl, -, hstates, houtcome⟩ := report_course h
  let w : Watch := ⟨b, ids, authorization, named, past, calls⟩
  have haligned : w.Aligned (start named) [] := rfl
  have hbooks : w.Books (start named) := ⟨nofun, nofun⟩
  have hcourse' : w.runner.course scenario (start named) (w.past ++ []) =
      ((result, s'), calls) := by
    rw [List.append_nil]
    exact hcourse
  obtain ⟨hbooks', -, herror⟩ := Ensures.course haligned scenario hbooks _ _ _ hcourse'
    (List.prefix_refl _)
  constructor
  · intro id state hmem
    rw [hstates] at hmem
    exact hbooks'.granted _ hmem
  · intro hdistinct current requested hmessage
    rcases houtcome with ⟨-, hnone⟩ | ⟨cause, hcause, hsome⟩
    · rw [hnone] at hmessage
      cases hmessage
    rw [hsome] at hmessage
    obtain ⟨current', requested', rfl⟩ := VaultError.about_state (Option.some.inj hmessage)
    rcases herror _ hcause hdistinct with hstateless | ⟨x, cause, hlast, hx, heq⟩
    · exact absurd rfl (hstateless _ rfl _ _)
    · cases heq
      exact ⟨x, current', requested', hlast, hx⟩

theorem report_granted_recovered : ∃ r calls,
    smooth.report .sweepFromVault 0 [] = ((some r, 1), calls) ∧
      r.finalStates = [(0, .recovered)] ∧
      Granted (fun i => UInt64.ofNat (0 + i)) calls 0 .recovered ∧
      ∀ current requested,
        r.error = some (VaultError.invalidStateTransition current requested).message →
          ∃ x current requested, calls.getLast? = some x ∧
            x.failure? = some (.invalidStateTransition current requested) := by
  obtain ⟨r, calls, hreport, -, hstates, -⟩ := smooth_report
  obtain ⟨hgranted, herror⟩ := report_granted hreport
  refine ⟨r, calls, hreport, hstates, hgranted 0 .recovered ?_, herror ?_⟩
  · rw [hstates]
    exact List.mem_singleton_self _
  · intro i j hi hij hj
    omega

end Runner

end VaultCovenant
