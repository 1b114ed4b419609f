import VaultCovenant.Proofs.Scenario.Programme
import VaultCovenant.Proofs.Scenario.Reports

/-!
# Classes of refusals

What a node says when it refuses a transaction is read twice: it is compared
with the rejection that was expected, and it is put into a class of its own. A
text may hold fragments of several classes, and then the first class counts.

Results:
* `RejectionKind.classify_eq_some_iff`: the class of a text is the one of least
  rank that the text names.
* `Rejection.IsExpected.reason_mem`: whatever rejection is expected, of a fault
  or by a scenario, has a fragment of its class for a reason.
* `RejectionKind.classify_agrees`: the two readings agree.
-/

namespace VaultCovenant

/-! ## The class of a text -/

namespace RejectionKind

/-- The place among all classes; what is more specific has a smaller one. -/
def rank (kind : RejectionKind) : ℕ := all.idxOf kind

/-- The text holds a fragment of the class. -/
def IsNamedIn (kind : RejectionKind) (text : String) : Prop :=
  ∃ fragment ∈ kind.fragments, fragment.toList <:+: text.toList

variable {text : String} {kind : RejectionKind}

theorem rank_lt_length (kind : RejectionKind) : kind.rank < all.length :=
  List.idxOf_lt_length_of_mem (mem_all kind)

theorem getElem_rank (h : kind.rank < all.length) : all[kind.rank] = kind := List.getElem_idxOf h

theorem rank_getElem {i : ℕ} (h : i < all.length) : all[i].rank = i :=
  List.Nodup.idxOf_getElem (by decide) i h

/-- Every failure of a script is reported behind the same fragment. -/
theorem rank_lt_signatureInvalid (h : kind ≠ signatureInvalid) :
    kind.rank < signatureInvalid.rank := by
  have hne : kind.rank ≠ signatureInvalid.rank :=
    fun heq => h ((List.idxOf_inj (mem_all kind)).mp heq)
  have hlt := kind.rank_lt_length
  have hlast : signatureInvalid.rank + 1 = all.length := by decide
  omega

theorem any_hasFragment_iff :
    kind.fragments.any (Text.hasFragment text) = true ↔ kind.IsNamedIn text := by
  rw [List.any_eq_true]
  exact exists_congr fun fragment => and_congr_right fun _ =>
    @Rejection.isMetBy_iff ⟨kind, fragment⟩ text

theorem classify_eq_some_iff : classify text = some kind ↔
    kind.IsNamedIn text ∧ ∀ other : RejectionKind, other.rank < kind.rank →
      ¬ other.IsNamedIn text := by
  unfold classify
  rw [List.find?_eq_some_iff_getElem, any_hasFragment_iff]
  constructor
  · rintro ⟨hnamed, i, hi, rfl, hbefore⟩
    refine ⟨hnamed, fun other hlt hother => ?_⟩
    rw [rank_getElem hi] at hlt
    have hnot := hbefore other.rank hlt
    rw [getElem_rank, any_hasFragment_iff.mpr hother] at hnot
    cases hnot
  · rintro ⟨hnamed, hbefore⟩
    refine ⟨hnamed, kind.rank, kind.rank_lt_length, getElem_rank _, fun j hj => ?_⟩
    have hlt : j < all.length := Nat.lt_trans hj kind.rank_lt_length
    have hnot := hbefore all[j] (by rwa [rank_getElem hlt])
    rw [← any_hasFragment_iff, Bool.not_eq_true] at hnot
    rw [hnot]
    rfl

theorem classify_eq_none_iff :
    classify text = none ↔ ∀ kind : RejectionKind, ¬ kind.IsNamedIn text := by
  unfold classify
  rw [List.find?_eq_none]
  constructor
  · intro h kind hnamed
    exact h kind (mem_all kind) (any_hasFragment_iff.mpr hnamed)
  · intro h kind _ hany
    exact h kind (any_hasFragment_iff.mp hany)

/-- A text that names a class has a class, which is no later than that one. -/
theorem classify_of_isNamedIn (h : kind.IsNamedIn text) :
    ∃ found : RejectionKind, classify text = some found ∧ found.rank ≤ kind.rank := by
  cases hclass : classify text with
  | none => exact absurd h (classify_eq_none_iff.mp hclass kind)
  | some found =>
    refine ⟨found, rfl, ?_⟩
    by_contra hlt
    exact (classify_eq_some_iff.mp hclass).2 kind (Nat.lt_of_not_le hlt) h

/-- The last class is that of a text which names no other. -/
theorem classify_eq_signatureInvalid_iff : classify text = some signatureInvalid ↔
    "script-verify-flag".toList <:+: text.toList ∧
      ∀ other : RejectionKind, other ≠ signatureInvalid → ¬ other.IsNamedIn text := by
  rw [classify_eq_some_iff]
  refine and_congr ?_ (forall_congr' fun other => ?_)
  · constructor
    · rintro ⟨fragment, hmem, hfragment⟩
      rwa [List.mem_singleton.mp hmem] at hfragment
    · exact fun h => ⟨_, List.mem_singleton_self _, h⟩
  · constructor
    · exact fun h hne => h (rank_lt_signatureInvalid hne)
    · intro h hlt
      refine h fun heq => ?_
      rw [heq] at hlt
      exact Nat.lt_irrefl _ hlt

end RejectionKind

/-! ## Rejections that are expected -/

/-- The rejection is expected somewhere: of a transaction with a fault, by the
programme of a scenario, or by a step of a run on some node. -/
inductive Rejection.IsExpected : Rejection → Prop
  | ofFault (fault : Fault) : IsExpected fault.expectedRejection
  | ofItem {authorization : Authorization} {scenario : Scenario} {label : String}
      {rejection : Rejection} :
      (label, .reject rejection) ∈ scenario.programme authorization → IsExpected rejection
  | ofStep {b : Behaviour} {ids : ℕ → VaultId} {authorization : Authorization}
      {scenario : Scenario} {named : ℕ} {past calls : History} {result : Except Failure Unit}
      {s : RunState} {step : Step} {rejection : Rejection} :
      (Runner.on b ids authorization).course scenario (Runner.start named) past =
        ((result, s), calls) →
      step ∈ s.steps → step.expected = .reject rejection → IsExpected rejection

theorem Fault.expectedRejection_reason_mem (fault : Fault) :
    fault.expectedRejection.reason ∈ fault.expectedRejection.kind.fragments := by
  cases fault <;> simp [expectedRejection, RejectionKind.fragments, Rejection.incompatible,
    Rejection.valueBelowOutputs, Rejection.scriptFailure]

namespace Scenario

/-- Whatever rejection the items ask for has a fragment of its class for a reason. -/
def Classified (items : Programme) : Prop :=
  ∀ label rejection, (label, .reject rejection) ∈ items →
    rejection.reason ∈ rejection.kind.fragments

variable {items more : Programme}

theorem Classified.append (h : Classified items) (hmore : Classified more) :
    Classified (items ++ more) := by
  intro label rejection hmem
  rcases List.mem_append.mp hmem with hmem | hmem
  · exact h label rejection hmem
  · exact hmore label rejection hmem

theorem classified_flatMap {α : Type} {as : List α} {shows : α → Programme}
    (h : ∀ a, Classified (shows a)) : Classified (as.flatMap shows) := by
  intro label rejection hmem
  obtain ⟨a, -, hmem⟩ := List.mem_flatMap.mp hmem
  exact h a label rejection hmem

theorem classified_taken (label : String) : Classified (taken label) := by
  intro label' rejection hmem
  cases List.mem_singleton.mp hmem

theorem classified_refused (label : String) {rejection : Rejection}
    (h : rejection.reason ∈ rejection.kind.fragments) : Classified (refused label rejection) := by
  intro label' rejection' hmem
  cases List.mem_singleton.mp hmem
  exact h

theorem classified_faulty (faults : List Fault) : Classified (faulty faults) :=
  classified_flatMap fun fault => classified_refused _ fault.expectedRejection_reason_mem

theorem classified_locking (n : ℕ) : Classified (locking n) := classified_flatMap classified_taken

theorem classified_triggering : Classified triggering :=
  ((classified_locking 1).append (classified_faulty _)).append (classified_taken _)

/-- No scenario expects a rejection for a reason that its class does not have. -/
theorem classified_programme (authorization : Authorization) (scenario : Scenario) :
    Classified (scenario.programme authorization) := by
  have hearly (label : String) : Classified (refused label .notFinal) :=
    classified_refused label (List.mem_singleton_self _)
  cases scenario with
  | singleVault =>
    exact (((classified_triggering.append (hearly _)).append (hearly _)).append
      (classified_faulty _)).append (classified_taken _)
  | sweepFromVault =>
    exact ((classified_locking 1).append (classified_faulty _)).append (classified_taken _)
  | sweepFromTrigger =>
    have hshort : Classified (refused "recover from trigger with short output" .scriptFailure) :=
      classified_refused _ (List.mem_singleton_self _)
    exact ((classified_triggering.append hshort).append (classified_faulty _)).append
      (classified_taken _)
  | batchRecovery =>
    exact ((((classified_locking 1).append (classified_locking 3)).append
      (classified_taken _)).append (classified_faulty _)).append (classified_taken _)
  | batchTrigger =>
    have hstranger (label : String) : Classified (refused label .incompatible) :=
      classified_refused label (List.mem_singleton_self _)
    exact ((((classified_locking 5).append (classified_flatMap hstranger)).append
      (classified_taken _)).append (hearly _)).append (classified_taken _)
  | revault =>
    exact (((((classified_locking 3).append (classified_faulty _)).append
      (classified_taken _)).append (hearly _)).append (classified_taken _)).append
        (classified_taken _)
  | negativeDelay =>
    have hnegative : Classified (refused "trigger with negative delay" .invalidDelay) :=
      classified_refused _ (List.mem_singleton_self _)
    exact ((classified_locking 1).append hnegative).append (classified_taken _)
  | recursiveRecoveryWitness =>
    have hrecursive : Classified (refused "recursive recovery witness" .recursionLimit) :=
      classified_refused _ (List.mem_singleton_self _)
    exact (classified_locking 1).append hrecursive

end Scenario

/-- What a step of a run expects stands in the programme of its scenario. -/
theorem Runner.item_mem_programme {b : Behaviour} {ids : ℕ → VaultId}
    {authorization : Authorization} {scenario : Scenario} {named : ℕ} {past calls : History}
    {result : Except Failure Unit} {s : RunState} {step : Step}
    (h : (on b ids authorization).course scenario (start named) past = ((result, s), calls))
    (hstep : step ∈ s.steps) : step.item ∈ scenario.programme authorization := by
  obtain ⟨-, -, shown, hshown, hprefix, -⟩ :=
    follows_course b ids authorization scenario _ _ _ _ _ h
  have hitem : step.item ∈ s.steps.map Step.item := List.mem_map_of_mem hstep
  rw [hshown] at hitem
  exact hprefix.subset hitem

theorem Rejection.IsExpected.reason_mem {rejection : Rejection} (h : rejection.IsExpected) :
    rejection.reason ∈ rejection.kind.fragments := by
  cases h with
  | ofFault fault => exact fault.expectedRejection_reason_mem
  | ofItem hmem => exact Scenario.classified_programme _ _ _ _ hmem
  | ofStep hcourse hstep hexpected =>
    have hmem := Runner.item_mem_programme hcourse hstep
    rw [Step.item, hexpected] at hmem
    exact Scenario.classified_programme _ _ _ _ hmem

/-! ## Both readings of a text -/

/-- The text meets an expected rejection only if it names the class of that. -/
theorem Rejection.IsExpected.isNamedIn {rejection : Rejection} {text : String}
    (h : rejection.IsExpected) (hmet : rejection.isMetBy text = true) :
    rejection.kind.IsNamedIn text :=
  ⟨rejection.reason, h.reason_mem, Rejection.isMetBy_iff.mp hmet⟩

/-- Where a text meets an expected rejection its class is that of the rejection,
unless it also names an earlier one. A text without a class meets none. The
class of script failures is left to texts that name nothing else. -/
theorem RejectionKind.classify_agrees (text : String) :
    (∀ rejection : Rejection, rejection.IsExpected → rejection.isMetBy text = true →
      ∃ kind : RejectionKind, classify text = some kind ∧ kind.rank ≤ rejection.kind.rank ∧
        (kind = rejection.kind ↔ ∀ other : RejectionKind, other.rank < rejection.kind.rank →
          ¬ other.IsNamedIn text)) ∧
    (classify text = none → ∀ rejection : Rejection, rejection.IsExpected →
      rejection.isMetBy text = false) ∧
    (classify text = some signatureInvalid ↔
      "script-verify-flag".toList <:+: text.toList ∧
        ∀ other : RejectionKind, other ≠ signatureInvalid → ¬ other.IsNamedIn text) := by
  refine ⟨fun rejection hexpected hmet => ?_, fun hnone rejection hexpected => ?_,
    classify_eq_signatureInvalid_iff⟩
  · have hnamed := hexpected.isNamedIn hmet
    obtain ⟨kind, hkind, hrank⟩ := classify_of_isNamedIn hnamed
    refine ⟨kind, hkind, hrank, ?_⟩
    constructor
    · rintro rfl
      exact (classify_eq_some_iff.mp hkind).2
    · intro hbefore
      have hclass := classify_eq_some_iff.mpr ⟨hnamed, hbefore⟩
      exact Option.some.inj (hkind.symm.trans hclass)
  · by_contra hmet
    have hnamed := hexpected.isNamedIn ((Bool.not_eq_false _).mp hmet)
    exact classify_eq_none_iff.mp hnone _ hnamed

/-- A text that names a failed script and, more specifically, a changed output:
the rejection of a failed script is met, but the class is the specific one. -/
theorem RejectionKind.classify_agrees_twice :
    let text := "mandatory-script-verify-flag-failed (target hash mismatch)"
    Rejection.scriptFailure.IsExpected ∧ Rejection.scriptFailure.isMetBy text = true ∧
      ∃ kind : RejectionKind, classify text = some kind ∧ kind = templateHashMismatch ∧
        kind.rank ≤ signatureInvalid.rank := by
  intro text
  have hexpected : Rejection.scriptFailure.IsExpected := .ofFault .triggerWrongKey
  have hmet : Rejection.scriptFailure.isMetBy text = true := by decide +kernel
  obtain ⟨kind, hkind, hrank, -⟩ := (classify_agrees text).1 _ hexpected hmet
  have hclass : classify text = some templateHashMismatch := by decide +kernel
  exact ⟨hexpected, hmet, kind, hkind, Option.some.inj (hkind.symm.trans hclass), hrank⟩

end VaultCovenant
