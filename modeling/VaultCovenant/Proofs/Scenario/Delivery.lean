import VaultCovenant.Proofs.Scenario.Rules
import VaultCovenant.Proofs.Vault.Output

/-!
# What a run delivers

A part of a run comes to its result unless the node has to answer for the
failure: a call failed, a transaction was taken or refused against expectation,
or the node took two transactions with one id. Beside these only the lifecycle
of a vault can end a run.

Results:
* `Delivers.bind`: one part after the other.
* `Delivers.expectAccept`, `Delivers.expectReject`, `Delivers.confirm`: what is
  asked of the node.
* `Delivers.lockCoin`, `Delivers.lockCoins`: coins that suffice are locked.
-/

namespace VaultCovenant

open Run

/-! ## Coins that suffice -/

/-- Every coin that the node hands out is worth what a scenario needs for one
vault, and no more than all coins there are. -/
def Behaviour.Funds (b : Behaviour) : Prop :=
  ∀ past coin, b.spendableCoin past = .ok coin →
    100010000 ≤ coin.spent.value.toNat ∧ coin.spent.value.toNat ≤ 2100000000000000

/-- The vault has the given choices, and a transaction that the node took has
locked a coin of the node's in it. -/
structure Secured (b : Behaviour) (params : VaultParams) (calls : History) (v : Vault)
    (coin : Coin) (amount : Sats) : Prop where
  policy : Policy.ofParams params = .ok v.policy
  handed : ∃ past, b.spendableCoin past = .ok coin
  amount_eq : coin.spent.value.toNat = Vault.lockFee.toNat + amount.toNat
  taken : v.lockTransaction coin amount ∈ accepted calls
  funding : v.funding = .ok ⟨⟨(v.lockTransaction coin amount).txid, 0⟩,
    ⟨amount, v.policy.vaultSpk⟩, amount⟩

/-- Vaults are only kept from moving by a state that does not follow theirs. -/
theorem Lifecycle.transitionAll_eq_error {l : Lifecycle} {ids : List VaultId} {next : VaultState}
    {e : VaultError} (h : (l.transitionAll ids next).2 = .error e) :
    ∃ current requested, e = .invalidStateTransition current requested := by
  induction ids generalizing l with
  | nil => cases h
  | cons id ids ih =>
    unfold transitionAll at h
    cases hstep : l.transition id next with
    | ok l' =>
      rw [hstep] at h
      exact ih h
    | error cause =>
      rw [hstep] at h
      cases h
      unfold transition at hstep
      split at hstep
      · cases hstep
      · cases hstep
        exact ⟨_, _, rfl⟩

theorem accepted_append (calls more : History) :
    accepted (calls ++ more) = accepted calls ++ accepted more := by
  simp [accepted]

theorem mem_accepted_append {calls : History} {tx : Transaction} (h : tx ∈ accepted calls)
    (more : History) : tx ∈ accepted (calls ++ more) := by
  rw [accepted_append]
  exact List.mem_append_left _ h

namespace Secured

variable {b : Behaviour} {params : VaultParams} {calls : History} {v : Vault} {coin : Coin}
  {amount : Sats}

theorem append (h : Secured b params calls v coin amount) (more : History) :
    Secured b params (calls ++ more) v coin amount :=
  ⟨h.policy, h.handed, h.amount_eq, mem_accepted_append h.taken more, h.funding⟩

theorem bounds (h : Secured b params calls v coin amount) (hb : b.Funds) :
    100000000 ≤ amount.toNat ∧ amount.toNat ≤ 2100000000000000 := by
  obtain ⟨past, hcoin⟩ := h.handed
  have hvalue := hb past coin hcoin
  have hamount := h.amount_eq
  have hfee : Vault.lockFee.toNat = 10000 := rfl
  omega

end Secured

/-! ## What a node has to answer for -/

/-- What a run says of a verdict that it did not expect. -/
def Verdict.objection : Verdict → String
  | accepted txid => txid.text ++ " was accepted but should have been rejected"
  | rejected reason => reason

/-- Among the transactions that the node took in the batch recovery, the one
that locked the vault with a recovery key of its own has the id of another. -/
inductive Clash (b : Behaviour) (calls : History) : Prop
  | lock {v u : Vault} {coin coin' : Coin} {amount amount' : Sats} {delay : Int64} :
      Secured b { recoverySecret := 12 } calls v coin amount → delay = 11 ∨ delay = 12 →
      Secured b { spendDelay := delay } calls u coin' amount' →
      (v.lockTransaction coin amount).txid = (u.lockTransaction coin' amount').txid →
      Clash b calls
  | trigger {v u : Vault} {coin coin' : Coin} {amount amount' : Sats} {batch : Batch}
      {t : Trigger} :
      Secured b { recoverySecret := 12 } calls v coin amount →
      Secured b { spendDelay := 10 } calls u coin' amount' →
      Batch.build [u] [] none .none = .ok batch → Trigger.build [batch] none .none = .ok t →
      t.tx ∈ accepted calls → (v.lockTransaction coin amount).txid = t.tx.txid → Clash b calls

/-- Why a run fails that asks only for what can be built. -/
inductive Answerable (b : Behaviour) (e : Failure) (steps : List Step) (calls : History) : Prop
  /-- The last call failed. -/
  | failed (before : History) (x : Exchange) (cause : VaultError) :
      calls = before ++ [x] → x.failure? = some cause → e = .error cause →
      Answerable b e steps calls
  /-- The last transaction was taken or refused against expectation. -/
  | surprised (front : List Step) (before : History) (label : String) (tx : Transaction)
      (expected : Expectation) (verdict : Verdict) :
      steps = front ++ [Step.record label tx.txid expected verdict] →
      calls = before ++ [.broadcast tx (.ok verdict)] → expected.agreesWith verdict = false →
      e = .error (.operationFailed label verdict.objection) → Answerable b e steps calls
  /-- A vault was to be moved to a state that does not follow its own. -/
  | misplaced (current requested : String) :
      e = .error (.invalidStateTransition current requested) → Answerable b e steps calls
  /-- The batch recovery has not the outputs that it should have. -/
  | clashed (built : ℕ) :
      e = .error (.operationFailed "batch_recovery" ("expected 3 outputs, built " ++
        toString built)) → Clash b calls → Answerable b e steps calls

/-- The run comes to a result that meets the postcondition, unless the node has
to answer for the failure. -/
def Delivers {α : Type} (b : Behaviour) (past : History) (x : Run Calling α) (done : History)
    (post : α → History → Prop) : Prop :=
  ∀ s result s' calls, x s (past ++ done) = ((result, s'), calls) →
    (∀ a, result = .ok a → post a (done ++ calls)) ∧
      ∀ e, result = .error e → Answerable b e s'.steps (done ++ calls)

namespace Delivers

variable {α β : Type} {b : Behaviour} {past done : History} {x : Run Calling α}
  {f : α → Run Calling β} {post : β → History → Prop}

/-! ## One part after the other -/

theorem bind {Q : α → History → Prop} (hx : Delivers b past x done Q)
    (hf : ∀ a more, Q a (done ++ more) → Delivers b past (f a) (done ++ more) post) :
    Delivers b past (x >>= f) done post := by
  intro s result s' calls h
  rcases bind_cases h with ⟨a, s₁, front, back, hfirst, hrest, rfl⟩ | ⟨e, hfirst, rfl⟩
  · rw [List.append_assoc] at hrest
    have hrest' := hf a front ((hx _ _ _ _ hfirst).1 a rfl) _ _ _ _ hrest
    rw [List.append_assoc] at hrest'
    exact hrest'
  · refine ⟨fun a ha => ?_, fun e' he => ?_⟩
    · cases ha
    · cases he
      exact (hx _ _ _ _ hfirst).2 e rfl

theorem pure {a : β} (h : post a done) : Delivers b past (Pure.pure a) done post := by
  intro s result s' calls hrun
  cases hrun
  refine ⟨fun a' ha => ?_, fun e he => ?_⟩
  · cases ha
    rw [List.append_nil]
    exact h
  · cases he

/-- A part of which only matters that it is over. -/
theorem andThen {Q : α → History → Prop} (hx : Delivers b past x done Q)
    (hf : ∀ a more, Delivers b past (f a) (done ++ more) post) :
    Delivers b past (x >>= f) done post := hx.bind fun a more _ => hf a more

/-- A result that is there goes on. -/
theorem ofFailure {result : Except Failure α} {a : α} (h : result = .ok a)
    (hf : Delivers b past (f a) done post) :
    Delivers b past (Run.ofFailure result >>= f) done post := by
  subst h
  intro s result s' calls hrun
  have hfirst : (Run.ofFailure (.ok a) : Run Calling α) s (past ++ done) = ((.ok a, s), []) := rfl
  rw [bind_ok hfirst, List.append_nil] at hrun
  exact hf _ _ _ _ hrun

theorem ofExcept {result : Except VaultError α} {a : α} (h : result = .ok a)
    (hf : Delivers b past (f a) done post) :
    Delivers b past (Run.ofExcept result >>= f) done post := ofFailure (lift_eq_ok_iff.mpr h) hf

/-- Where two transactions have one id there may be too few outputs. -/
theorem clashed (built : ℕ) (h : Clash b done) :
    Delivers b past (Run.ofExcept (.error (.operationFailed "batch_recovery"
      ("expected 3 outputs, built " ++ toString built))) >>= f) done post := by
  intro s result s' calls hrun
  have hfirst : (Run.ofExcept (.error (.operationFailed "batch_recovery"
      ("expected 3 outputs, built " ++ toString built))) : Run Calling α) s (past ++ done) =
    ((.error (.error (.operationFailed "batch_recovery"
      ("expected 3 outputs, built " ++ toString built))), s), []) := rfl
  rw [bind_error hfirst] at hrun
  cases hrun
  refine ⟨fun a ha => ?_, fun e he => ?_⟩
  · cases ha
  · cases he
    rw [List.append_nil]
    exact .clashed built rfl h

theorem takeNames {f : ℕ → Run Calling β} (count : ℕ) (hf : ∀ n, Delivers b past (f n) done post) :
    Delivers b past (Run.takeNames count >>= f) done post := by
  intro s result s' calls hrun
  have hfirst : (Run.takeNames count : Run Calling ℕ) s (past ++ done) =
      ((.ok s.named, { s with named := s.named + count }), []) := rfl
  rw [bind_ok hfirst, List.append_nil] at hrun
  exact hf _ _ _ _ _ hrun

theorem transitionAll (ids : List VaultId) (next : VaultState) :
    Delivers b past (Run.transitionAll ids next) done fun _ _ => True := by
  intro s result s' calls hrun
  refine ⟨fun _ _ => trivial, fun e he => ?_⟩
  cases hrun
  obtain ⟨cause, hcause, rfl⟩ := lift_eq_error_iff.mp he
  obtain ⟨current, requested, rfl⟩ := Lifecycle.transitionAll_eq_error hcause
  exact .misplaced _ _ rfl

theorem transition (id : VaultId) (next : VaultState) :
    Delivers b past (Run.transition id next) done fun _ _ => True := by
  rw [transition_eq]
  exact transitionAll [id] next

theorem track (id : VaultId) (state : VaultState) :
    Delivers b past (Run.track id state) done fun _ _ => True := by
  intro s result s' calls hrun
  refine ⟨fun _ _ => trivial, fun e he => ?_⟩
  cases hrun
  cases he

theorem forM {as : List α} {g : α → Run Calling Unit}
    (h : ∀ a ∈ as, ∀ done, Delivers b past (g a) done fun _ _ => True) :
    Delivers b past (as.forM g) done fun _ _ => True := by
  induction as generalizing done with
  | nil => exact pure trivial
  | cons a as ih =>
    exact (h a List.mem_cons_self done).andThen fun _ _ =>
      ih fun a' ha => h a' (List.mem_cons_of_mem _ ha)

/-! ## What is asked of the node -/

/-- A call whose failure is the node's own. -/
theorem call {c : Calling (Except VaultError α)} {g : Except VaultError α → Exchange}
    {Q : α → History → Prop} (hc : ∀ past, (c past).2 = [g (c past).1])
    (hfailure : ∀ e, (g (.error e)).failure? = some e)
    (hok : ∀ past a, (c past).1 = .ok a → Q a (done ++ [g (.ok a)])) :
    Delivers b past (Run.call c) done Q := by
  intro s result s' calls hrun
  rw [call_apply, hc] at hrun
  cases ha : (c (past ++ done)).1 with
  | ok a =>
    rw [ha] at hrun
    cases hrun
    refine ⟨fun a' ha' => ?_, fun e he => ?_⟩
    · cases ha'
      exact hok _ a ha
    · cases he
  | error e =>
    rw [ha] at hrun
    cases hrun
    refine ⟨fun a' ha' => ?_, fun e' he => ?_⟩
    · cases ha'
    · cases he
      exact .failed done _ e rfl (hfailure e) rfl

variable {ids : ℕ → VaultId} {authorization : Authorization}

theorem mine (blocks : UInt64) :
    Delivers b past ((Runner.on b ids authorization).mine blocks) done fun _ _ => True :=
  call (g := .mine blocks) (fun _ => rfl) (fun _ => rfl) fun _ _ _ => trivial

theorem bumpFee (txid : Txid) :
    Delivers b past ((Runner.on b ids authorization).bumpFee txid) done fun _ _ => True :=
  call (g := .bumpFee txid Runner.feeDelta) (fun _ => rfl) (fun _ => rfl)
    fun _ _ _ => trivial

theorem mempoolSize :
    Delivers b past (Run.call (Runner.on b ids authorization).node.mempoolSize) done
      fun _ _ => True :=
  call (g := .mempoolSize) (fun _ => rfl) (fun _ => rfl) fun _ _ _ => trivial

theorem spendableCoin :
    Delivers b past (Run.call (Runner.on b ids authorization).node.spendableCoin) done
      fun coin _ => ∃ past, b.spendableCoin past = .ok coin :=
  call (g := .spendableCoin) (fun _ => rfl) (fun _ => rfl)
    fun past _ hcoin => ⟨past, hcoin⟩

theorem expectAccept (label : String) (tx : Transaction) :
    Delivers b past ((Runner.on b ids authorization).expectAccept label tx) done
      fun _ done' => tx ∈ accepted done' := by
  intro s result s' calls hrun
  rw [Runner.expectAccept_eq] at hrun
  cases hb : b.broadcast (past ++ done) tx with
  | error e =>
    rw [hb] at hrun
    cases hrun
    refine ⟨fun a ha => ?_, fun e' he => ?_⟩
    · cases ha
    · cases he
      exact .failed done _ e rfl rfl rfl
  | ok verdict =>
    rw [hb] at hrun
    cases verdict with
    | accepted txid =>
      cases hrun
      refine ⟨fun a _ => ?_, fun e he => ?_⟩
      · exact mem_accepted (t := txid) (List.mem_append_right _ (List.mem_singleton_self _))
      · cases he
    | rejected reason =>
      cases hrun
      refine ⟨fun a ha => ?_, fun e he => ?_⟩
      · cases ha
      · cases he
        exact .surprised s.steps done label tx .accept _ rfl rfl rfl rfl

theorem expectReject (label : String) (tx : Transaction) (rejection : Rejection) :
    Delivers b past ((Runner.on b ids authorization).expectReject label tx rejection) done
      fun _ _ => True := by
  intro s result s' calls hrun
  rw [Runner.expectReject_eq] at hrun
  refine ⟨fun _ _ => trivial, fun e he => ?_⟩
  cases hb : b.broadcast (past ++ done) tx with
  | error cause =>
    rw [hb] at hrun
    cases hrun
    cases he
    exact .failed done _ cause rfl rfl rfl
  | ok verdict =>
    rw [hb] at hrun
    cases verdict with
    | accepted txid =>
      cases hrun
      cases he
      exact .surprised s.steps done label tx (.reject rejection) _ rfl rfl rfl rfl
    | rejected reason =>
      cases hrun
      cases he

theorem confirm (label : String) (tx : Transaction) :
    Delivers b past ((Runner.on b ids authorization).confirm label tx) done
      fun _ done' => tx ∈ accepted done' := by
  unfold Runner.confirm
  refine (expectAccept label tx).bind fun txid more htaken => ?_
  refine (bumpFee txid).andThen fun _ _ => (mine 1).andThen fun _ _ => ?_
  refine mempoolSize.andThen fun _ _ => pure ?_
  exact mem_accepted_append (mem_accepted_append (mem_accepted_append htaken _) _) _

/-! ## Locking coins -/

theorem lockCoin (hb : b.Funds) {params : VaultParams} (hrecovery : params.recoverySecret ≠ 0)
    (htrigger : params.triggerSecret ≠ 0) :
    Delivers b past ((Runner.on b ids authorization).lockCoin params) done
      fun v done' => ∃ coin amount, Secured b params done' v coin amount := by
  obtain ⟨policy, hpolicy⟩ := Policy.ofParams_isOk hrecovery htrigger
  unfold Runner.lockCoin
  refine ofExcept hpolicy (takeNames 1 fun name => ?_)
  refine spendableCoin.bind fun coin _ hcoin => ?_
  have hfee : Vault.lockFee ≤ coin.spent.value := by
    obtain ⟨past, hcoin⟩ := hcoin
    have hvalue := hb past coin hcoin
    have hfee : Vault.lockFee.toNat = 10000 := rfl
    rw [UInt64.le_iff_toNat_le]
    omega
  obtain ⟨amount, hamount, hlock⟩ := (Vault.empty (ids name) policy).lock_isOk hfee
  refine ofExcept hlock ((expectAccept _ _).bind fun txid _ htaken => ?_)
  refine (transition _ _).andThen fun _ more => pure ?_
  exact ⟨coin, amount, hpolicy, hcoin, hamount, mem_accepted_append htaken more, rfl⟩

theorem mapM_lockCoin (hb : b.Funds) {params : List VaultParams}
    (hrecovery : ∀ p ∈ params, p.recoverySecret ≠ 0)
    (htrigger : ∀ p ∈ params, p.triggerSecret ≠ 0) :
    Delivers b past (params.mapM (Runner.on b ids authorization).lockCoin) done
      fun vs done' => List.Forall₂
        (fun p v => ∃ coin amount, Secured b p done' v coin amount) params vs := by
  induction params generalizing done with
  | nil =>
    rw [List.mapM_nil]
    exact pure .nil
  | cons p params ih =>
    rw [List.mapM_cons]
    refine (lockCoin hb (hrecovery p List.mem_cons_self)
      (htrigger p List.mem_cons_self)).bind fun v _ ⟨coin, amount, hv⟩ => ?_
    refine (ih (fun q hq => hrecovery q (List.mem_cons_of_mem _ hq))
      fun q hq => htrigger q (List.mem_cons_of_mem _ hq)).bind fun vs more hvs => ?_
    exact pure (.cons ⟨coin, amount, hv.append more⟩ hvs)

theorem lockCoins (hb : b.Funds) {params : List VaultParams}
    (hrecovery : ∀ p ∈ params, p.recoverySecret ≠ 0)
    (htrigger : ∀ p ∈ params, p.triggerSecret ≠ 0) :
    Delivers b past ((Runner.on b ids authorization).lockCoins params) done
      fun vs done' => List.Forall₂
        (fun p v => ∃ coin amount, Secured b p done' v coin amount) params vs := by
  unfold Runner.lockCoins
  refine (mapM_lockCoin hb hrecovery htrigger).bind fun vs _ hvs => ?_
  refine (mine 1).andThen fun _ more => pure ?_
  exact hvs.imp fun _ _ ⟨coin, amount, hv⟩ => ⟨coin, amount, hv.append more⟩

end Delivers

end VaultCovenant
