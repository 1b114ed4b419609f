import VaultCovenant.Proofs.Scenario.Obliging

/-!
# Full runs

All scenarios are run one after the other on one node, those that vary under
every authorization. If all of them come to their end then the node was shown
every fault of the catalog, and has refused it.

Results:
* `reportAll_reported`: the reports are those of the schedule, in its order.
* `full_run_shows`: what a full run has shown.
-/

namespace VaultCovenant

open Run

variable {b : Behaviour} {ids : ℕ → VaultId} {schedule : List (Authorization × Scenario)}
  {named : ℕ} {past calls : History} {reports : List Report}

/-! ## One run after the other -/

/-- The report is that of a run of the scenario under the authorization, which
made some of the calls. -/
def Reported (b : Behaviour) (ids : ℕ → VaultId) (calls : History)
    (p : Authorization × Scenario) (r : Report) : Prop :=
  ∃ named named' past own, (Runner.on b ids p.1).report p.2 named past = ((some r, named'), own) ∧
    own <:+: calls

theorem reportAll_cons {p : Authorization × Scenario} {r : Report} {named' : ℕ}
    (h : (Runner.on b ids p.1).report p.2 named past = ((some r, named'), calls)) :
    reportAll b.node ids (p :: schedule) named past =
      ((reportAll b.node ids schedule named' (past ++ calls)).1.map (r :: ·),
        calls ++ (reportAll b.node ids schedule named' (past ++ calls)).2) := by
  have hreport : Runner.report ⟨b.node, ids, p.1⟩ p.2 named past = ((some r, named'), calls) := h
  obtain ⟨authorization, scenario⟩ := p
  rw [reportAll, Calling.bind_apply, hreport]
  dsimp only
  rw [Calling.bind_pure_apply]

/-- The first report of several and the others. -/
theorem reportAll_cons_eq_some {p : Authorization × Scenario}
    (h : reportAll b.node ids (p :: schedule) named past = (some reports, calls)) :
    ∃ r named' own others more,
      (Runner.on b ids p.1).report p.2 named past = ((some r, named'), own) ∧
      reportAll b.node ids schedule named' (past ++ own) = (some others, more) ∧
      reports = r :: others ∧ calls = own ++ more := by
  obtain ⟨⟨⟨report?, named'⟩, own⟩, hreport⟩ : ∃ outcome,
      (Runner.on b ids p.1).report p.2 named past = outcome := ⟨_, rfl⟩
  cases report? with
  | none =>
    have hreport' : Runner.report ⟨b.node, ids, p.1⟩ p.2 named past = ((none, named'), own) :=
      hreport
    obtain ⟨authorization, scenario⟩ := p
    rw [reportAll, Calling.bind_apply, hreport'] at h
    cases (Prod.mk.inj h).1
  | some r =>
    rw [reportAll_cons hreport] at h
    obtain ⟨hsome, hcalls⟩ := Prod.mk.inj h
    obtain ⟨others, hothers, hall⟩ := Option.map_eq_some_iff.mp hsome
    exact ⟨r, named', own, others, _, hreport, Prod.ext hothers rfl, hall.symm, hcalls.symm⟩

/-- There is one report for every run of the schedule, in its order. -/
theorem reportAll_reported
    (h : reportAll b.node ids schedule named past = (some reports, calls)) :
    List.Forall₂ (Reported b ids calls) schedule reports := by
  induction schedule generalizing named past reports calls with
  | nil =>
    cases h
    exact .nil
  | cons p schedule ih =>
    obtain ⟨r, named', own, others, more, hreport, hothers, rfl, rfl⟩ := reportAll_cons_eq_some h
    refine .cons ⟨named, named', past, own, hreport, (List.prefix_append _ _).isInfix⟩ ?_
    refine (ih hothers).imp ?_
    rintro p' r' ⟨m, m', past', own', hreport', hinfix⟩
    exact ⟨m, m', past', own', hreport', hinfix.trans (List.suffix_append _ _).isInfix⟩

/-- In a run that came to its end all answers were as expected. -/
theorem Runner.report_conforming {authorization : Authorization} {scenario : Scenario}
    {named' : ℕ} {r : Report} (h : (on b ids authorization).report scenario named past =
      ((some r, named'), calls)) (herror : r.error = none) : Conforming r.steps calls := by
  obtain ⟨result, s', hcourse, -, hsteps, -, houtcome⟩ := report_course h
  obtain ⟨steps, hadded, horderly⟩ := orderly_course _ _ _ _ _ _ _ _ _ hcourse
  obtain rfl : r.steps = steps := hsteps.trans hadded
  rcases horderly with h | ⟨-, e, rfl⟩
  · exact h
  · rcases houtcome with ⟨hok, -⟩ | ⟨cause, -, hsome⟩
    · cases hok
    · rw [herror] at hsome
      cases hsome

theorem mem_of_answered {tx : Transaction} {verdict : Verdict}
    (h : (tx, verdict) ∈ answered calls) :
    .broadcast tx (.ok verdict) ∈ calls := by
  obtain ⟨x, hx, hverdict⟩ := List.mem_filterMap.mp h
  cases x with
  | broadcast tx' answer =>
    cases answer with
    | ok verdict' =>
      cases hverdict
      exact hx
    | error e => cases hverdict
  | _ => cases hverdict

namespace Reported

variable {p : Authorization × Scenario} {r : Report}

theorem about (h : Reported b ids calls p r) :
    r.scenario = p.2 ∧ r.authorization = p.1.label := by
  obtain ⟨named, named', past, own, hreport, -⟩ := h
  obtain ⟨⟨⟨result, s'⟩, calls'⟩, hcourse⟩ : ∃ outcome, (Runner.on b ids p.1).course p.2
      (Runner.start named) past = outcome := ⟨_, rfl⟩
  unfold Runner.report at hreport
  rw [Calling.bind_apply, hcourse] at hreport
  cases result with
  | ok _ =>
    cases hreport
    exact ⟨rfl, rfl⟩
  | error e =>
    cases e with
    | error cause =>
      cases hreport
      exact ⟨rfl, rfl⟩
    | overflow => cases hreport

theorem map_about (h : List.Forall₂ (Reported b ids calls) schedule reports) :
    (reports.map fun r => (r.scenario, r.authorization)) =
      schedule.map fun p => (p.2, p.1.label) := by
  induction h with
  | nil => rfl
  | cons hr _ ih =>
    obtain ⟨hscenario, hauth⟩ := hr.about
    rw [List.map_cons, List.map_cons, ih, hscenario, hauth]

/-- What a run that came to its end has shown does not depend on the node. -/
theorem items_eq (h : Reported b ids calls p r) (herror : r.error = none) :
    r.steps.map Step.item = p.2.programme p.1 := by
  obtain ⟨named, named', past, own, hreport, -⟩ := h
  obtain ⟨result, s', hcourse, -, hsteps, -, houtcome⟩ := Runner.report_course hreport
  obtain ⟨-, -, shown, hshown, -, hall⟩ := Runner.follows_course _ _ _ _ _ _ _ _ _ hcourse
  rcases houtcome with ⟨hok, -⟩ | ⟨e, -, hsome⟩
  · rw [hsteps, ← hall () hok]
    exact hshown
  · rw [herror] at hsome
    cases hsome

/-- A step that asks for a refusal was refused. -/
theorem refused (h : Reported b ids calls p r) (herror : r.error = none) {step : Step}
    {rejection : Rejection} (hstep : step ∈ r.steps)
    (hexpected : step.expected = .reject rejection) :
    ∃ tx reason, step.IsOf (tx, .rejected reason) ∧
      .broadcast tx (.ok (.rejected reason)) ∈ calls := by
  obtain ⟨named, named', past, own, hreport, hinfix⟩ := h
  obtain ⟨i, hi⟩ := List.mem_iff_getElem?.mp hstep
  obtain ⟨⟨tx, verdict⟩, hp, hisOf, hagrees⟩ :=
    forall₂_getElem? (Runner.report_conforming hreport herror) hi
  rw [hexpected] at hagrees
  cases verdict with
  | accepted txid => cases hagrees
  | rejected reason =>
    exact ⟨tx, reason, hisOf, hinfix.subset (mem_of_answered (List.mem_of_getElem? hp))⟩

end Reported

/-! ## The schedule of all scenarios -/

namespace Scenario

theorem authorizations_eq {auths : List Authorization} (h : authorizations = .ok auths) :
    ∃ secret secret' script stack, auths =
      [.anyone, .keySignature secret, .scriptSignature secret' script stack] := by
  obtain ⟨key, hkey, h⟩ := bind_eq_ok_iff.mp h
  obtain ⟨secret, -, rfl⟩ := map_eq_ok_iff.mp hkey
  obtain ⟨locked, hlocked, h⟩ := bind_eq_ok_iff.mp h
  obtain ⟨secret', -, hlocked⟩ := bind_eq_ok_iff.mp hlocked
  cases hlocked
  exact ⟨secret, secret', _, _, (Except.ok.inj h).symm⟩

theorem mem_scheduled {auths : List Authorization} {scenarios : List Scenario}
    {authorization : Authorization} {scenario : Scenario} (hscenario : scenario ∈ scenarios)
    (hauth : if scenario.variesAuthorization then authorization ∈ auths
      else authorization = .anyone) :
    (authorization, scenario) ∈ scheduled auths scenarios := by
  refine List.mem_flatMap.mpr ⟨scenario, hscenario, ?_⟩
  split at hauth
  · rename_i hvaries
    rw [if_pos hvaries]
    exact List.mem_map_of_mem hauth
  · rename_i hvaries
    rw [if_neg hvaries, hauth]
    exact List.mem_singleton_self _

end Scenario

/-- A fault is made in one of five places. -/
theorem Fault.places (fault : Fault) :
    fault ∈ Runner.plainTriggerFaults ∨
    fault ∈ [withdrawalSequenceTooLow, withdrawalOutputChanged] ∨
    fault ∈ [revaultAmountTooHigh, revaultAmountTooLow] ∨
    fault ∈ Runner.batchRecoveryFaults ∨ fault = recoveryAuthWrongKey := by
  cases fault <;> decide

open Scenario in
/-- Every fault is in the programme of a scheduled run. -/
theorem Fault.exists_scheduled {auths : List Authorization} {required : Authorization}
    (hmem : required ∈ auths) (hrequired : required.isRequired = true) (fault : Fault) :
    ∃ p ∈ scheduled auths Scenario.all,
      (fault.description, .reject fault.expectedRejection) ∈ p.2.programme p.1 := by
  rcases fault.places with h | h | h | h | rfl
  · refine ⟨(required, .singleVault), mem_scheduled (by decide) hmem, ?_⟩
    simp [programme, triggering, mem_faulty h]
  · refine ⟨(required, .singleVault), mem_scheduled (by decide) hmem, ?_⟩
    simp [programme, mem_faulty h]
  · refine ⟨(.anyone, .revault), mem_scheduled (by decide) rfl, ?_⟩
    simp [programme, mem_faulty h]
  · refine ⟨(.anyone, .batchRecovery), mem_scheduled (by decide) rfl, ?_⟩
    simp [programme, mem_faulty h]
  · refine ⟨(required, .sweepFromVault), mem_scheduled (by decide) hmem, ?_⟩
    have hforged : forged required = faulty [recoveryAuthWrongKey] :=
      congrArg faulty (if_pos hrequired)
    simp [programme, hforged, mem_faulty]

/-! ## What a full run has shown -/

/-- A node that obliges lets every run of a schedule come to its end. -/
theorem reportAll_obliging {items : Programme}
    (hitems : (schedule.flatMap fun p => p.2.programme p.1) <+: items.drop (answered past).length)
    (hnamed : named + 5 * schedule.length ≤ 2 ^ 64) :
    ∃ reports calls, reportAll (Behaviour.obliging items).node UInt64.ofNat schedule named past =
      (some reports, calls) ∧ ∀ r ∈ reports, r.error = none := by
  induction schedule generalizing named past with
  | nil => exact ⟨[], [], rfl, nofun⟩
  | cons p schedule ih =>
    rw [List.length_cons] at hnamed
    rw [List.flatMap_cons] at hitems
    obtain ⟨r, named', own, hreport, herror, hnames, hshown⟩ := Runner.obliging_report
      ((List.prefix_append _ _).trans hitems) (show named + 5 ≤ 2 ^ 64 by omega)
    have hrest : (schedule.flatMap fun p => p.2.programme p.1) <+:
        items.drop (answered (past ++ own)).length := by
      obtain ⟨after, hafter⟩ := hitems
      rw [answered_append, List.length_append, hshown, ← List.drop_drop, ← hafter,
        List.append_assoc, List.drop_left]
      exact List.prefix_append _ _
    obtain ⟨reports, calls, hreports, hnone⟩ :=
      ih hrest (show named' + 5 * schedule.length ≤ 2 ^ 64 by omega)
    refine ⟨r :: reports, own ++ calls, ?_, ?_⟩
    · rw [reportAll_cons hreport, hreports]
      rfl
    · intro r' hr'
      rcases List.mem_cons.mp hr' with rfl | hr'
      · exact herror
      · exact hnone r' hr'

/-- The reports of a full run are one for every scenario that does not vary and
three for every other, in order. What a run that came to its end has shown is
settled by its scenario and its authorization. If every run came to its end
then the node was shown every fault and has refused it. -/
theorem full_run_shows {auths : List Authorization} (hauths : Scenario.authorizations = .ok auths)
    (h : reportAll b.node ids (scheduled auths Scenario.all) named past = (some reports, calls)) :
    (reports.map fun r => (r.scenario, r.authorization)) =
      (Scenario.all.flatMap fun scenario =>
        (if scenario.variesAuthorization then ["none", "key-signature", "script-signature"]
          else ["none"]).map fun label => (scenario, label)) ∧
    List.Forall₂ (fun p r => Reported b ids calls p r ∧
      (r.error = none → r.steps.map Step.item = p.2.programme p.1))
      (scheduled auths Scenario.all) reports ∧
    ((∀ r ∈ reports, r.error = none) → ∀ fault : Fault, ∃ r ∈ reports, ∃ step ∈ r.steps,
      step.label = fault.description ∧ step.expected = .reject fault.expectedRejection ∧
      ∃ tx reason, step.IsOf (tx, .rejected reason) ∧
        .broadcast tx (.ok (.rejected reason)) ∈ calls) := by
  have hreported := reportAll_reported h
  obtain ⟨secret, secret', script, stack, rfl⟩ := Scenario.authorizations_eq hauths
  refine ⟨?_, hreported.imp fun p r hr => ⟨hr, hr.items_eq⟩, ?_⟩
  · rw [Reported.map_about hreported]
    rfl
  · intro hends fault
    obtain ⟨p, hp, hitem⟩ := Fault.exists_scheduled
      (show .keySignature secret ∈ [.anyone, .keySignature secret, _] by simp) rfl fault
    obtain ⟨r, hr, hrun⟩ : ∃ r ∈ reports, Reported b ids calls p r :=
      forall₂_mem_right hreported.flip hp
    rw [← hrun.items_eq (hends r hr)] at hitem
    obtain ⟨step, hstep, heq⟩ := List.mem_map.mp hitem
    obtain ⟨hlabel, hexpected⟩ := Prod.mk.inj heq
    exact ⟨r, hr, step, hstep, hlabel, hexpected, hrun.refused (hends r hr) hstep hexpected⟩

/-- On a node that obliges all runs come to their end: there is such a run, in
which the last fault of the catalog was refused. -/
theorem full_run_shows_obliging : ∃ auths reports calls,
    Scenario.authorizations = .ok auths ∧
    reportAll (Behaviour.obliging ((scheduled auths Scenario.all).flatMap fun p =>
      p.2.programme p.1)).node UInt64.ofNat (scheduled auths Scenario.all) 0 [] =
        (some reports, calls) ∧
    reports.length = 16 ∧ (∀ r ∈ reports, r.error = none) ∧
    ∃ r ∈ reports, ∃ step ∈ r.steps, step.label = "recovery with an extra output" ∧
      step.expected = .reject ⟨.badOutputStructure, "bad-vault-recovery-outputs"⟩ ∧
      ∃ tx reason, step.IsOf (tx, .rejected reason) ∧
        .broadcast tx (.ok (.rejected reason)) ∈ calls := by
  obtain ⟨auths, hauths⟩ : ∃ auths, Scenario.authorizations = .ok auths := ⟨_, rfl⟩
  obtain ⟨secret, secret', script, stack, hlist⟩ := Scenario.authorizations_eq hauths
  have hlen : (scheduled auths Scenario.all).length = 16 := by
    rw [hlist]
    rfl
  have hnamed : 0 + 5 * (scheduled auths Scenario.all).length ≤ 2 ^ 64 := by
    rw [hlen]
    decide
  obtain ⟨reports, calls, hreports, hends⟩ := reportAll_obliging
    (List.prefix_rfl : _ <+: List.drop (answered []).length _) hnamed
  obtain ⟨-, hall, hshows⟩ := full_run_shows hauths hreports
  exact ⟨auths, reports, calls, hauths, hreports, hall.length_eq ▸ hlen, hends,
    hshows hends .recoveryExtraOutput⟩

end VaultCovenant
