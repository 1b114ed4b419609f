import VaultCovenant.Proofs.Lifecycle
import VaultCovenant.Proofs.Refusals
import VaultCovenant.Proofs.Scenario.Evidence
import VaultCovenant.Proofs.Scenario.Orderly

/-!
# Watching a run

A run is watched from its first call to its last. At every point the books are
right: whatever state is on record for a vault, the node has granted it by the
end of the run. Most parts of a scenario leave the books alone.

Results:
* `Watch.Books.moved`: the books stay right when vaults are moved for which the
  next state was granted.
* `Run.Quiet.bind`: parts that leave the books alone, one after the other.
-/

namespace VaultCovenant

/-! ## What is watched -/

/-- A run from its first call to its last: the node, the names of vaults, the
authorization, how many names were used before, the calls before, and the calls
of the run. -/
structure Watch where
  behaviour : Behaviour
  ids : ℕ → VaultId
  authorization : Authorization
  named : ℕ
  past : History
  calls : History

namespace Watch

variable (w : Watch)

/-- The runner that is watched. -/
def runner : Runner Calling := .on w.behaviour w.ids w.authorization

/-- The names of the run, in the order of their use. -/
def name (i : ℕ) : VaultId := w.ids (w.named + i)

/-- The names of the run up to a number are different. -/
def Distinct (n : ℕ) : Prop := ∀ i j, w.named ≤ i → i < j → j < n → w.ids i ≠ w.ids j

theorem Distinct.mono {w : Watch} {m n : ℕ} (h : w.Distinct n) (hmn : m ≤ n) : w.Distinct m :=
  fun i j hi hij hj => h i j hi hij (Nat.lt_of_lt_of_le hj hmn)

theorem Distinct.nodup {w : Watch} {n : ℕ} (h : w.Distinct n) {a k : ℕ}
    (hk : w.named + a + k ≤ n) : ((List.range' a k).map w.name).Nodup := by
  refine List.Nodup.map_on ?_ List.nodup_range'
  intro i hi j hj heq
  obtain ⟨hai, hik⟩ := List.mem_range'_1.mp hi
  obtain ⟨haj, hjk⟩ := List.mem_range'_1.mp hj
  by_contra hne
  rcases Nat.lt_or_gt_of_ne hne with hlt | hlt
  · exact h _ _ (by omega) (by omega) (by omega) heq
  · exact h _ _ (by omega) (by omega) (by omega) heq.symm

/-- What the lifecycle says of a vault the node has granted, and the vault has
one of the names that were used. -/
structure Books (s : RunState) : Prop where
  granted : ∀ p ∈ s.lifecycle.states, Granted w.name w.calls p.1 p.2
  named : ∀ p ∈ s.lifecycle.states, ∃ i, w.named ≤ i ∧ i < s.named ∧ p.1 = w.ids i

/-- The vault has one of the names that were used so far. -/
def Known (s : RunState) (v : Vault) : Prop := ∃ i, w.named ≤ i ∧ i < s.named ∧ v.id = w.ids i

/-- A vault of the run that is in a state, unless two vaults have one id. -/
structure InPlay (s : RunState) (state : VaultState) (v : Vault) : Prop where
  opened : Opened w.name w.calls v
  known : w.Known s v
  stands : w.Distinct s.named → s.lifecycle.state v.id = state

/-- Some vaults were moved to a state, unless two vaults have one id. -/
structure Moved (next : VaultState) (ids : List VaultId) (s s' : RunState) : Prop where
  named : s'.named = s.named
  lifecycle : w.Distinct s.named → s'.lifecycle = s.lifecycle.moveAll next ids

/-- As many names were used in the run as coins were handed out. -/
def Aligned (s : RunState) (done : History) : Prop := s.named = w.named + (coins done).length

variable {w} {s s' : RunState} {state next : VaultState} {ids : List VaultId} {v : Vault}

theorem Books.moved (h : w.Books s) (hnamed : s'.named = s.named)
    (hlifecycle : s'.lifecycle = s.lifecycle.moveAll next ids)
    (hids : ∀ id ∈ ids, Granted w.name w.calls id next ∧
      ∃ i, w.named ≤ i ∧ i < s.named ∧ id = w.ids i) : w.Books s' := by
  have hentry : ∀ p ∈ s'.lifecycle.states, (∃ id ∈ ids, p = (id, next)) ∨
      p ∈ s.lifecycle.states := by
    intro p hp
    rw [hlifecycle] at hp
    exact Lifecycle.mem_moveAll hp
  constructor
  · intro p hp
    rcases hentry p hp with ⟨id, hid, rfl⟩ | hp
    · exact (hids id hid).1
    · exact h.granted p hp
  · intro p hp
    rw [hnamed]
    rcases hentry p hp with ⟨id, hid, rfl⟩ | hp
    · exact (hids id hid).2
    · exact h.named p hp

/-- While no two names are equal a name that was not used is not on record. -/
theorem Books.state_of_fresh (h : w.Books s) {n : ℕ} (hn : s.named ≤ n)
    (hdistinct : w.Distinct (n + 1)) : s.lifecycle.state (w.ids n) = .unfunded := by
  by_contra hstate
  obtain ⟨i, hi, hlt, heq⟩ := h.named _ (Lifecycle.mem_of_state hstate)
  exact hdistinct i n hi (by omega) (by omega) heq.symm

theorem InPlay.mono (h : w.InPlay s state v) (hlifecycle : s'.lifecycle = s.lifecycle)
    (hnamed : s.named ≤ s'.named) : w.InPlay s' state v where
  opened := h.opened
  known := by
    obtain ⟨i, hi, hlt, hv⟩ := h.known
    exact ⟨i, hi, by omega, hv⟩
  stands hdistinct := by
    rw [hlifecycle]
    exact h.stands (hdistinct.mono hnamed)

/-- Steps do not matter for where a vault stands. -/
theorem InPlay.later (h : w.InPlay s state v) (steps : List Step) :
    w.InPlay { s with steps } state v := h.mono rfl (Nat.le_refl _)

/-- The same move, seen from an earlier point since when nothing else changed. -/
theorem Moved.since {s₀ : RunState} (h : w.Moved next ids s s')
    (hlifecycle : s.lifecycle = s₀.lifecycle) (hnamed : s.named = s₀.named) :
    w.Moved next ids s₀ s' where
  named := h.named.trans hnamed
  lifecycle := by
    rw [← hnamed, ← hlifecycle]
    exact h.lifecycle

/-- A vault that is moved is in the next state. -/
theorem Moved.inPlay (h : w.Moved next ids s s') (hopened : Opened w.name w.calls v)
    (hknown : w.Known s v) (hid : v.id ∈ ids) : w.InPlay s' next v where
  opened := hopened
  known := by
    unfold Known
    rw [h.named]
    exact hknown
  stands hdistinct := by
    rw [h.named] at hdistinct
    rw [h.lifecycle hdistinct, Lifecycle.state_moveAll, if_pos hid]

theorem InPlay.moved (h : w.InPlay s state v) (hmoved : w.Moved next ids s s')
    (hid : v.id ∈ ids) : w.InPlay s' next v := hmoved.inPlay h.opened h.known hid

/-- A vault that is not moved stays in its state. -/
theorem InPlay.kept (h : w.InPlay s state v) (hmoved : w.Moved next ids s s')
    (hid : w.Distinct s.named → v.id ∉ ids) : w.InPlay s' state v where
  opened := h.opened
  known := by
    unfold Known
    rw [hmoved.named]
    exact h.known
  stands hdistinct := by
    rw [hmoved.named] at hdistinct
    rw [hmoved.lifecycle hdistinct, Lifecycle.state_moveAll, if_neg (hid hdistinct)]
    exact h.stands hdistinct

end Watch

/-! ## Parts that leave the books alone -/

/-- A failure that is not about a state, or that the node gave as its last
answer. -/
def Excused (e : Failure) (calls : History) : Prop :=
  e.Stateless ∨ ∃ x cause, calls.getLast? = some x ∧ x.failure? = some cause ∧ e = .error cause

namespace Excused

variable {calls : History} {cause : VaultError}

theorem stateless (h : cause.Stateless) : Excused (.error cause) calls := by
  refine Or.inl fun cause' he => ?_
  cases he
  exact h

theorem answer {x : Exchange} (h : x.failure? = some cause) : Excused (.error cause) [x] :=
  Or.inr ⟨x, cause, rfl, h, rfl⟩

theorem append {e : Failure} (h : Excused e calls) (before : History) :
    Excused e (before ++ calls) := by
  rcases h with h | ⟨x, cause, hlast, hx, he⟩
  · exact Or.inl h
  · refine Or.inr ⟨x, cause, ?_, hx, he⟩
    rw [List.getLast?_append, hlast]
    rfl

end Excused

namespace Run

variable {α β : Type} {x : Run Calling α} {f : α → Run Calling β}

/-- A part of a run has only added steps and asked for no coin. A result goes
with its calls; a failure is excused. -/
structure QuietOutcome (R : α → History → Prop) (s s' : RunState) (calls : History)
    (result : Except Failure α) : Prop where
  steps : ∃ steps, s' = { s with steps }
  coins : coins calls = []
  ok : ∀ a, result = .ok a → R a calls
  error : ∀ e, result = .error e → Excused e calls

/-- The run only adds steps and asks for no coin. -/
def Quiet (x : Run Calling α) (R : α → History → Prop) : Prop :=
  ∀ s past result s' calls, x s past = ((result, s'), calls) → QuietOutcome R s s' calls result

namespace QuietOutcome

variable {R : α → History → Prop} {s : RunState} {calls : History}

theorem of_ok {a : α} (steps : List Step) (hcoins : VaultCovenant.coins calls = [])
    (h : R a calls) : QuietOutcome R s { s with steps } calls (.ok a) where
  steps := ⟨steps, rfl⟩
  coins := hcoins
  ok a' ha := by
    cases ha
    exact h
  error e he := by cases he

theorem of_error {e : Failure} (steps : List Step) (hcoins : VaultCovenant.coins calls = [])
    (h : Excused e calls) : QuietOutcome R s { s with steps } calls (.error e) where
  steps := ⟨steps, rfl⟩
  coins := hcoins
  ok a ha := by cases ha
  error e' he := by
    cases he
    exact h

end QuietOutcome

namespace Quiet

variable {R : α → History → Prop} {R' : β → History → Prop}

theorem bind (hx : Quiet x R)
    (hf : ∀ a, Quiet (f a) fun b more => ∀ calls, R a calls → R' b (calls ++ more)) :
    Quiet (x >>= f) R' := by
  intro s past result s' calls h
  rcases bind_cases h with ⟨a, s₁, front, back, hfirst, hrest, rfl⟩ | ⟨e, hfirst, rfl⟩
  · obtain ⟨⟨steps, rfl⟩, hcoins, hok, -⟩ := hx _ _ _ _ _ hfirst
    obtain ⟨⟨steps', rfl⟩, hcoins', hok', herror⟩ := hf a _ _ _ _ _ hrest
    refine ⟨⟨steps', rfl⟩, by rw [coins_append, hcoins, hcoins', List.append_nil], ?_, ?_⟩
    · intro b hb
      exact hok' b hb front (hok a rfl)
    · intro e he
      exact (herror e he).append front
  · obtain ⟨⟨steps, rfl⟩, hcoins, -, herror⟩ := hx _ _ _ _ _ hfirst
    exact .of_error steps hcoins (herror e rfl)

theorem imp (hx : Quiet x R) {R' : α → History → Prop} (h : ∀ a calls, R a calls → R' a calls) :
    Quiet x R' := by
  intro s past result s' calls hrun
  obtain ⟨hsteps, hcoins, hok, herror⟩ := hx _ _ _ _ _ hrun
  exact ⟨hsteps, hcoins, fun a ha => h a calls (hok a ha), herror⟩

/-- One part after the other, where nothing is said of the results. -/
theorem andThen (hx : Quiet x R) (hf : ∀ a, Quiet (f a) fun _ _ => True) :
    Quiet (x >>= f) fun _ _ => True :=
  hx.bind fun a => (hf a).imp fun _ _ _ _ _ => trivial

theorem pure (a : α) : Quiet (Pure.pure a) fun _ _ => True := by
  intro s past result s' calls h
  cases h
  exact .of_ok s.steps rfl trivial

theorem ofFailure {result : Except Failure α} (h : FailsOnly Failure.Stateless result) :
    Quiet (Run.ofFailure result) fun _ _ => True := by
  intro s past result' s' calls hrun
  cases hrun
  cases hresult : result with
  | ok a => exact .of_ok s.steps rfl trivial
  | error e => exact .of_error s.steps rfl (Or.inl (h e hresult))

theorem ofExcept {result : Except VaultError α} (h : FailsOnly VaultError.Stateless result) :
    Quiet (Run.ofExcept result) fun _ _ => True := ofFailure h.lift

/-- A call whose answer is no coin. -/
theorem call {c : Calling (Except VaultError α)} {g : Except VaultError α → Exchange}
    (hc : ∀ past, (c past).2 = [g (c past).1]) (hcoin : ∀ result, (g result).coin? = none)
    (hfailure : ∀ e, (g (.error e)).failure? = some e) : Quiet (Run.call c) fun _ _ => True := by
  intro s past result s' calls h
  rw [call_apply, hc] at h
  cases h
  have hcoins : coins [g (c past).1] = [] := by
    simp [coins, hcoin]
  cases ha : (c past).1 with
  | ok a =>
    rw [ha] at hcoins
    exact .of_ok s.steps hcoins trivial
  | error e =>
    rw [ha] at hcoins
    exact .of_error s.steps hcoins (.answer (hfailure e))

theorem forM {as : List α} {g : α → Run Calling Unit} (h : ∀ a, Quiet (g a) fun _ _ => True) :
    Quiet (as.forM g) fun _ _ => True := by
  induction as with
  | nil => exact pure ()
  | cons a as ih => exact (h a).andThen fun _ => ih

end Quiet

end Run

end VaultCovenant
