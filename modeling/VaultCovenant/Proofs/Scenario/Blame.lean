import VaultCovenant.Proofs.Scenario.Completion
import VaultCovenant.Proofs.Scenario.Reports

/-!
# Who ends a run

On a node whose coins suffice a run is ended by the node alone: by a call that
fails, or by a transaction that is taken or refused against expectation. What
the scenarios build can be built. Only the count of outputs that the batch
recovery makes rests on ids being different, which they are unless SHA-256
collides.

Results:
* `Transaction.collision_of_txid_eq`: two transactions with one id that pay to
  different scripts collide.
* `Runner.report_ended_by_node`: no scenario fails for anything that it builds.
-/

namespace VaultCovenant

/-! ## Transactions with one id -/

namespace Transaction

/-- The strings hashed for the id of a transaction. -/
def idMessages (tx : Transaction) : List Bytes :=
  [tx.strippedBytes, (sha256 tx.strippedBytes).bytes]

variable {t u : Transaction}

/-- One id is of one serialization unless two of the strings hashed collide. -/
theorem txid_binds (h : t.txid = u.txid) :
    t.strippedBytes = u.strippedBytes ∨ Collision t.idMessages u.idMessages := by
  by_cases hno : Collision t.idMessages u.idMessages
  · exact Or.inr hno
  · have hdigest : sha256 (sha256 t.strippedBytes).bytes = sha256 (sha256 u.strippedBytes).bytes :=
      congrArg Txid.digest h
    have hinner := eq_of_not_collision hno (by simp [idMessages]) (by simp [idMessages]) hdigest
    exact Or.inl (eq_of_not_collision hno (by simp [idMessages]) (by simp [idMessages])
      (Bytes32.ext_bytes hinner))

/-- A serialization ends with the script of the last output and the lock time. -/
theorem strippedBytes_of_output {value : Sats} {spk : Script}
    (h : t.outputs = [⟨value, spk⟩]) :
    ∃ front, t.strippedBytes = front ++ (spk.bytes ++ t.lockTimeBytes) := by
  unfold strippedBytes bodyBytes
  rw [h]
  refine ⟨t.versionBytes ++ (compactSize t.inputs.length ++ t.inputs.flatMap TxIn.serialize ++
    (compactSize 1 ++ (Bytes.littleEndian 8 value.toNat ++ compactSize spk.bytes.length))), ?_⟩
  simp [TxOut.serialize, Script.serialize, lengthPrefixed]

theorem collision_of_txid_eq (h : t.txid = u.txid) {value value' : Sats} {spk spk' : Script}
    (ht : t.outputs = [⟨value, spk⟩]) (hu : u.outputs = [⟨value', spk'⟩])
    (hlen : spk.bytes.length = spk'.bytes.length) (hne : spk ≠ spk') :
    Collision t.idMessages u.idMessages := by
  refine (txid_binds h).resolve_left fun hsame => hne ?_
  obtain ⟨front, hfront⟩ := strippedBytes_of_output ht
  obtain ⟨front', hfront'⟩ := strippedBytes_of_output hu
  rw [hfront, hfront'] at hsame
  have hlock : t.lockTimeBytes.length = u.lockTimeBytes.length := by
    simp [lockTimeBytes]
  obtain ⟨-, htail⟩ := List.append_inj' hsame (by
    rw [List.length_append, List.length_append, hlen, hlock])
  obtain ⟨hspk, -⟩ := List.append_inj htail hlen
  obtain ⟨bytes⟩ := spk
  obtain ⟨bytes'⟩ := spk'
  exact congrArg Script.mk hspk

end Transaction

/-- The tree of a batch of one vault that pays nobody yet. -/
theorem Batch.tree_of_idle {v : Vault} {batch : Batch} (h : build [v] [] none .none = .ok batch) :
    batch.tree = v.policy.idleTrigger := by
  obtain ⟨first, total, hmade⟩ := build_eq_ok h
  have hfirst : first = v := (Option.some.inj hmade.first_eq).symm
  have hdelay : batch.spendDelay = v.policy.spendDelay := by
    have hunder := hmade.delay_eq
    rw [hfirst] at hunder
    exact (Except.ok.inj hunder).symm
  rw [hmade.tree_eq_of_none, hmade.hash_eq, hmade.template_eq, hdelay, hfirst]
  rfl

/-- A clash is a collision of two transactions that the node took. -/
theorem Clash.collision {b : Behaviour} {calls : History} (h : Clash b calls) :
    ∃ t u, t ∈ accepted calls ∧ u ∈ accepted calls ∧ t.outputs ≠ u.outputs ∧
      Collision t.idMessages u.idMessages := by
  obtain ⟨hne11, hne12, hnetrigger⟩ := Policy.vaultSpk_own_ne
  cases h with
  | @lock v u coin coin' amount amount' delay hv hdelay hu hid =>
    have hspk : v.policy.vaultSpk ≠ u.policy.vaultSpk := by
      rw [← Except.ok.inj (Policy.ofParams_own.symm.trans hv.policy),
        ← Except.ok.inj ((Policy.ofParams_usual delay).symm.trans hu.policy)]
      rcases hdelay with rfl | rfl
      · exact hne11
      · exact hne12
    refine ⟨_, _, hv.taken, hu.taken, ?_, Transaction.collision_of_txid_eq hid rfl rfl ?_ hspk⟩
    · intro heq
      exact hspk (congrArg TxOut.scriptPubkey (List.cons.inj heq).1)
    · exact (TaprootTree.length_scriptPubkey _).trans (TaprootTree.length_scriptPubkey _).symm
  | @trigger v u coin coin' amount amount' batch t hv hu hbatch ht htaken hid =>
    obtain ⟨⟨-, houtputs⟩, -⟩ := Plan.trigger_moves hu.funding hbatch ht
    have hspk : v.policy.vaultSpk ≠ batch.tree.scriptPubkey := by
      rw [Batch.tree_of_idle hbatch, ← Except.ok.inj (Policy.ofParams_own.symm.trans hv.policy),
        ← Except.ok.inj ((Policy.ofParams_usual 10).symm.trans hu.policy)]
      exact hnetrigger
    refine ⟨_, _, hv.taken, htaken, ?_, Transaction.collision_of_txid_eq hid rfl houtputs ?_ hspk⟩
    · rw [houtputs]
      intro heq
      exact hspk (congrArg TxOut.scriptPubkey (List.cons.inj heq).1)
    · exact (TaprootTree.length_scriptPubkey _).trans (TaprootTree.length_scriptPubkey _).symm

/-! ## Reports with an error -/

/-- What ended the run of a report with an error of a given wording. -/
inductive Report.EndedBy (r : Report) (calls : History) (text : String) : Prop
  /-- The last call failed with this error. -/
  | failed (x : Exchange) (cause : VaultError) : calls.getLast? = some x →
      x.failure? = some cause → text = cause.message → EndedBy r calls text
  /-- The last transaction was to be taken and was refused, or was to be refused and was taken. -/
  | surprised (step : Step) (tx : Transaction) (verdict : Verdict) : r.steps.getLast? = some step →
      calls.getLast? = some (.broadcast tx (.ok verdict)) → step.IsOf (tx, verdict) →
      step.expected.agreesWith verdict = false →
      text = (VaultError.operationFailed step.label verdict.objection).message →
      EndedBy r calls text
  /-- Two transactions that the node took differ in their outputs and collide in their ids. -/
  | collided (built : ℕ) (t u : Transaction) : t ∈ accepted calls → u ∈ accepted calls →
      t.outputs ≠ u.outputs → Collision t.idMessages u.idMessages →
      text = (VaultError.operationFailed "batch_recovery"
        ("expected 3 outputs, built " ++ toString built)).message → EndedBy r calls text

namespace Runner

variable {b : Behaviour} {ids : ℕ → VaultId} {authorization : Authorization}
  {scenario : Scenario} {named named' : ℕ} {past calls : History}

/-- While no two names are equal a run that fails for a state fails with an
answer of the node. -/
theorem course_excused {e : Failure} {s' : RunState}
    (h : (on b ids authorization).course scenario (start named) past = ((.error e, s'), calls))
    (hdistinct : ∀ i j, named ≤ i → i < j → j < s'.named → ids i ≠ ids j) : Excused e calls := by
  let w : Watch := ⟨b, ids, authorization, named, past, calls⟩
  have haligned : w.Aligned (start named) [] := rfl
  have hbooks : w.Books (start named) := ⟨nofun, nofun⟩
  have hcourse : w.runner.course scenario (start named) (w.past ++ []) =
      ((.error e, s'), calls) := by
    rw [List.append_nil]
    exact h
  obtain ⟨-, -, herror⟩ := Ensures.course haligned scenario hbooks _ _ _ hcourse
    (List.prefix_refl _)
  exact herror e rfl hdistinct

/-- On a node whose coins suffice, and while no two names are equal, every run
ends with a report. If the report has an error, a call failed, or the last
transaction was not answered as expected; or two transactions that the node
took collide. -/
theorem report_ended_by_node {report? : Option Report} (hfunds : b.Funds)
    (h : (on b ids authorization).report scenario named past = ((report?, named'), calls))
    (hdistinct : ∀ i j, named ≤ i → i < j → j < named' → ids i ≠ ids j) :
    ∃ r, report? = some r ∧ ∀ text, r.error = some text → r.EndedBy calls text := by
  obtain ⟨⟨⟨result, s'⟩, calls'⟩, hcourse⟩ :
      ∃ outcome, (on b ids authorization).course scenario (start named) past = outcome := ⟨_, rfl⟩
  unfold report at h
  rw [Calling.bind_apply, hcourse] at h
  obtain ⟨hreport, hcalls⟩ := Prod.mk.inj h
  have hcalls' : calls' ++ [] = calls := hcalls
  rw [List.append_nil] at hcalls'
  subst hcalls'
  have hcourse' := hcourse
  rw [← List.append_nil past] at hcourse'
  obtain ⟨-, hanswerable⟩ := Delivers.course hfunds scenario _ _ _ _ hcourse'
  simp only [List.nil_append] at hanswerable
  cases result with
  | ok _ =>
    cases hreport
    refine ⟨_, rfl, fun text htext => ?_⟩
    cases htext
  | error e =>
    have hnamed : s'.named = named' := by
      cases e <;> cases hreport <;> rfl
    subst hnamed
    cases hanswerable e rfl with
    | failed before x cause hlast hfailure he =>
      subst he
      cases hreport
      refine ⟨_, rfl, fun text htext => .failed x cause ?_ hfailure (Option.some.inj htext).symm⟩
      rw [hlast, List.getLast?_concat]
    | surprised front before label tx expected verdict hsteps hlast hagrees he =>
      subst he
      cases hreport
      refine ⟨_, rfl, fun text htext => .surprised (Step.record label tx.txid expected verdict) tx
        verdict ?_ ?_ (Step.isOf_record _ _ _ _) hagrees (Option.some.inj htext).symm⟩
      · rw [hsteps, List.getLast?_concat]
      · rw [hlast, List.getLast?_concat]
    | misplaced current requested he =>
      subst he
      cases hreport
      refine ⟨_, rfl, fun text htext => ?_⟩
      rcases course_excused hcourse hdistinct with hstateless | ⟨x, cause, hlast, hx, he⟩
      · exact absurd rfl (hstateless _ rfl current requested)
      · cases he
        exact .failed x _ hlast hx (Option.some.inj htext).symm
    | clashed built he hclash =>
      subst he
      cases hreport
      obtain ⟨t, u, ht, hu, hne, hcollision⟩ := hclash.collision
      exact ⟨_, rfl, fun text htext =>
        .collided built t u ht hu hne hcollision (Option.some.inj htext).symm⟩

/-- A node that refuses the first transaction of a run has ended it. -/
theorem report_ended_by_refusal : ∃ r calls,
    (on { Behaviour.taking ⟨TxIn.spending .null, ⟨500000000, Script.anyone⟩⟩ with
      broadcast := fun _ _ => .ok (.rejected "dust") } UInt64.ofNat .anyone).report
        .sweepFromVault 0 [] = ((some r, 1), calls) ∧
      r.error = some "Operation failed: initialize vault - dust" ∧
      r.EndedBy calls "Operation failed: initialize vault - dust" := by
  obtain ⟨r, calls, hreport, herror⟩ : ∃ r calls,
      (on { Behaviour.taking ⟨TxIn.spending .null, ⟨500000000, Script.anyone⟩⟩ with
        broadcast := fun _ _ => .ok (.rejected "dust") } UInt64.ofNat .anyone).report
          .sweepFromVault 0 [] = ((some r, 1), calls) ∧
        r.error = some "Operation failed: initialize vault - dust" := ⟨_, _, rfl, rfl⟩
  refine ⟨r, calls, hreport, herror, ?_⟩
  obtain ⟨r', hr, hended⟩ := report_ended_by_node (fun _ coin hcoin => by
    cases hcoin
    decide) hreport (by omega)
  cases hr
  exact hended _ herror

end Runner

end VaultCovenant
