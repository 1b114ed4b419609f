import Mathlib.Data.List.Infix
import VaultCovenant.Lifecycle

/-!
# Lives of vaults

Whatever is asked of a lifecycle, and whether it is granted or refused, every
vault only moves on along the states that follow one another.

Results:
* `VaultState.Path.length_le`: a path is at most as long as the state it
  starts from allows.
* `Lifecycle.transitionAll_eq`: moving many vaults moves the longest list of
  them that can be moved one after the other.
* `Lifecycle.path_of_known`, `Lifecycle.path_of_unknown`: the changes of one
  vault in any history form a path.
* `Lifecycle.history_one_way`: the life of every vault is a one-way street.
-/

namespace VaultCovenant

/-! ## Paths -/

namespace VaultState

/-- The states `ts` may be gone through one after the other from the first
state, and lead to the last one. -/
inductive Path : VaultState → List VaultState → VaultState → Prop
  | nil (s : VaultState) : Path s [] s
  | cons {s t u : VaultState} {ts : List VaultState} :
      s.canBecome t = true → Path t ts u → Path s (t :: ts) u

/-- How many changes may follow a state at most. -/
def remaining : VaultState → ℕ
  | unfunded => 3
  | vaulted => 2
  | triggered => 1
  | withdrawn | recovered => 0

variable {s t u : VaultState} {ts us : List VaultState}

theorem remaining_lt (h : s.canBecome t = true) : t.remaining < s.remaining := by
  revert h
  cases s <;> cases t <;> decide

theorem Path.append (h : Path s ts t) (h' : Path t us u) : Path s (ts ++ us) u := by
  induction h with
  | nil => exact h'
  | cons hnext _ ih => exact .cons hnext (ih h')

/-- Every change uses up one of the changes that remain. -/
theorem Path.length_le (h : Path s ts t) : ts.length + t.remaining ≤ s.remaining := by
  induction h with
  | nil => simp
  | cons hnext _ ih =>
    have := remaining_lt hnext
    rw [List.length_cons]
    omega

/-- Nothing follows a state in which a vault ends. -/
theorem Path.of_terminal (hs : s.isTerminal = true) (h : Path s ts t) : ts = [] ∧ t = s := by
  have hremaining : s.remaining = 0 := by
    revert hs
    cases s <;> decide
  cases h with
  | nil => exact ⟨rfl, rfl⟩
  | cons hnext _ =>
    have := remaining_lt hnext
    omega

end VaultState

open VaultState

namespace Lifecycle

variable {l : Lifecycle} {id id' : VaultId} {next s : VaultState} {ids : List VaultId}

/-! ## One vault -/

theorem state_of_recorded (h : recorded? id l.states = some s) : l.state id = s := by
  rw [Lifecycle.state, h]
  rfl

theorem state_of_unknown (h : recorded? id l.states = none) : l.state id = .unfunded := by
  rw [Lifecycle.state, h]
  rfl

theorem recorded?_record :
    recorded? id' (l.record id s).states =
      if id' = id then some s else recorded? id' l.states :=
  recorded?_put id id' s l.states

/-- Moves a vault in place: looks up its state, refuses or writes the next. -/
def transitionInPlace (id : VaultId) (next : VaultState) : EStateM VaultError Lifecycle Unit := do
  let current := (← get).state id
  if !current.canBecome next then
    throw (.invalidStateTransition current.name next.name)
  modify fun l => l.record id next

/-- What is left after moving in place is what moving returns, or the
lifecycle as it was. -/
theorem transitionInPlace_eq (l : Lifecycle) (id : VaultId) (next : VaultState) :
    (transitionInPlace id next).run l =
      match l.transition id next with
      | .ok l' => .ok () l'
      | .error e => .error e l := by
  unfold transition
  have hrun : (transitionInPlace id next).run l =
      if !(l.state id).canBecome next then
        .error (.invalidStateTransition (l.state id).name next.name) l
      else .ok () (l.record id next) := by
    unfold transitionInPlace
    show (if !(l.state id).canBecome next then _ else _ : EStateM _ _ _) l = _
    split <;> rfl
  rw [hrun]
  cases (l.state id).canBecome next <;> rfl

/-! ## Many vaults -/

/-- The vaults can be moved one after the other; one that is named again has
been moved already. -/
def Legal (next : VaultState) : Lifecycle → List VaultId → Prop
  | _, [] => True
  | l, id :: rest => (l.state id).canBecome next = true ∧ Legal next (l.record id next) rest

/-- The lifecycle in which the vaults were moved. -/
def moveAll (next : VaultState) (l : Lifecycle) (ids : List VaultId) : Lifecycle :=
  ids.foldl (fun l id => l.record id next) l

/-- The vaults up to the first that cannot be moved. -/
def movable (next : VaultState) : Lifecycle → List VaultId → List VaultId
  | _, [] => []
  | l, id :: rest =>
    if (l.state id).canBecome next then id :: movable next (l.record id next) rest else []

theorem legal_movable (next : VaultState) (l : Lifecycle) (ids : List VaultId) :
    Legal next l (movable next l ids) := by
  induction ids generalizing l with
  | nil => trivial
  | cons id rest ih =>
    rw [movable]
    split
    · rename_i h
      exact ⟨h, ih _⟩
    · trivial

/-- No longer list that the vaults begin with can be moved. -/
theorem prefix_movable {legal : List VaultId} (hfront : legal <+: ids) (h : Legal next l legal) :
    legal <+: movable next l ids := by
  induction legal generalizing l ids with
  | nil => exact List.nil_prefix
  | cons id legal ih =>
    obtain ⟨rest, rfl⟩ := hfront
    obtain ⟨hid, hrest⟩ := h
    rw [List.cons_append, movable, if_pos hid, List.prefix_cons_inj]
    exact ih (List.prefix_append _ _) hrest

theorem mem_of_movable (h : id ∈ movable next l ids) : id ∈ ids := by
  induction ids generalizing l with
  | nil => exact h
  | cons id' rest ih =>
    rw [movable] at h
    split at h
    · rcases List.mem_cons.mp h with rfl | h
      · exact List.mem_cons_self
      · exact List.mem_cons_of_mem _ (ih h)
    · cases h

/-- Moving many vaults moves those up to the first that cannot be moved, and
reports the state in which that one is. -/
theorem transitionAll_eq (l : Lifecycle) (ids : List VaultId) (next : VaultState) :
    ∃ rest, ids = movable next l ids ++ rest ∧
      ((rest = [] ∧ l.transitionAll ids next = (moveAll next l ids, .ok ())) ∨
        ∃ id tail, rest = id :: tail ∧
          ((moveAll next l (movable next l ids)).state id).canBecome next = false ∧
          l.transitionAll ids next = (moveAll next l (movable next l ids),
            .error (.invalidStateTransition
              ((moveAll next l (movable next l ids)).state id).name next.name))) := by
  induction ids generalizing l with
  | nil => exact ⟨[], rfl, Or.inl ⟨rfl, rfl⟩⟩
  | cons id ids ih =>
    by_cases h : (l.state id).canBecome next = true
    · obtain ⟨rest, hids, hresult⟩ := ih (l.record id next)
      have hstep : l.transitionAll (id :: ids) next =
          (l.record id next).transitionAll ids next := by
        rw [transitionAll, transition, if_pos h]
      have hmovable : movable next l (id :: ids) = id :: movable next (l.record id next) ids := by
        rw [movable, if_pos h]
      refine ⟨rest, ?_, ?_⟩
      · rw [hmovable, List.cons_append, ← hids]
      · rw [hstep, hmovable]
        exact hresult
    · have hmovable : movable next l (id :: ids) = [] := by
        rw [movable, if_neg h]
      refine ⟨id :: ids, ?_, Or.inr ⟨id, ids, rfl, ?_, ?_⟩⟩
      · rw [hmovable, List.nil_append]
      · rw [hmovable]
        exact Bool.eq_false_iff.mpr h
      · rw [hmovable, transitionAll, transition, if_neg h]
        rfl

theorem transitionAll_fst (l : Lifecycle) (ids : List VaultId) (next : VaultState) :
    (l.transitionAll ids next).1 = moveAll next l (movable next l ids) := by
  obtain ⟨rest, hids, ⟨hrest, heq⟩ | ⟨_, _, _, _, heq⟩⟩ := l.transitionAll_eq ids next
  · rw [hrest, List.append_nil] at hids
    rw [heq, ← hids]
  · rw [heq]

theorem recorded?_moveAll (next : VaultState) (l : Lifecycle) (ids : List VaultId)
    (id : VaultId) :
    recorded? id (moveAll next l ids).states =
      if id ∈ ids then some next else recorded? id l.states := by
  induction ids generalizing l with
  | nil => simp [moveAll]
  | cons id' ids ih =>
    have hrest := ih (l.record id' next)
    rw [recorded?_record] at hrest
    show recorded? id (moveAll next (l.record id' next) ids).states = _
    rw [hrest]
    by_cases hid : id = id'
    · simp [hid]
    · simp [hid]

theorem state_moveAll (next : VaultState) (l : Lifecycle) (ids : List VaultId) (id : VaultId) :
    (moveAll next l ids).state id = if id ∈ ids then next else l.state id := by
  simp only [Lifecycle.state, recorded?_moveAll]
  split <;> rfl

theorem mem_put {entries : List (VaultId × VaultState)} {p : VaultId × VaultState}
    (h : p ∈ put id next entries) : p = (id, next) ∨ p ∈ entries := by
  induction entries with
  | nil => exact Or.inl (List.mem_singleton.mp h)
  | cons entry rest ih =>
    rw [put] at h
    split at h
    · exact List.mem_cons.mp h
    · split at h
      · rcases List.mem_cons.mp h with h | h
        · exact Or.inl h
        · exact Or.inr (List.mem_cons_of_mem _ h)
      · rcases List.mem_cons.mp h with h | h
        · exact Or.inr (h ▸ List.mem_cons_self)
        · exact (ih h).imp_right (List.mem_cons_of_mem _)

theorem mem_moveAll {p : VaultId × VaultState} (h : p ∈ (moveAll next l ids).states) :
    (∃ id ∈ ids, p = (id, next)) ∨ p ∈ l.states := by
  induction ids generalizing l with
  | nil => exact Or.inr h
  | cons id ids ih =>
    rcases ih h with ⟨id', hid', hp⟩ | h
    · exact Or.inl ⟨id', List.mem_cons_of_mem _ hid', hp⟩
    · rcases mem_put h with hp | h
      · exact Or.inl ⟨id, List.mem_cons_self, hp⟩
      · exact Or.inr h

theorem mem_of_recorded? {entries : List (VaultId × VaultState)} {state : VaultState}
    (h : recorded? id entries = some state) : (id, state) ∈ entries := by
  induction entries with
  | nil => cases h
  | cons entry rest ih =>
    rw [recorded?] at h
    split at h
    · rename_i hid
      cases h
      rw [hid]
      exact List.mem_cons_self
    · exact List.mem_cons_of_mem _ (ih h)

/-- A vault that is not unfunded has an entry. -/
theorem mem_of_state (h : l.state id ≠ .unfunded) : (id, l.state id) ∈ l.states := by
  cases hrecorded : recorded? id l.states with
  | none => exact absurd (state_of_unknown hrecorded) h
  | some state =>
    rw [state_of_recorded hrecorded]
    exact mem_of_recorded? hrecorded

theorem legal_of_nodup (hnodup : ids.Nodup)
    (h : ∀ id ∈ ids, (l.state id).canBecome next = true) : Legal next l ids := by
  induction ids generalizing l with
  | nil => trivial
  | cons id rest ih =>
    obtain ⟨hid, hrest⟩ := List.nodup_cons.mp hnodup
    refine ⟨h id List.mem_cons_self, ih hrest ?_⟩
    intro id' hid'
    have hne : id' ≠ id := by
      rintro rfl
      exact hid hid'
    rw [state_record, if_neg hne]
    exact h id' (List.mem_cons_of_mem _ hid')

/-- Vaults of which each can be moved, and none is named twice, are all
moved. -/
theorem transitionAll_of_nodup (hnodup : ids.Nodup)
    (h : ∀ id ∈ ids, (l.state id).canBecome next = true) :
    l.transitionAll ids next = (moveAll next l ids, .ok ()) := by
  have hfront := prefix_movable List.prefix_rfl (legal_of_nodup hnodup h)
  have hlen := hfront.length_le
  obtain ⟨rest, hids, ⟨_, heq⟩ | ⟨_, _, rfl, _, _⟩⟩ := l.transitionAll_eq ids next
  · exact heq
  · have := congrArg List.length hids
    rw [List.length_append, List.length_cons] at this
    omega

/-! ## Histories -/

/-- What may be asked of a lifecycle. -/
inductive Call where
  | track (id : VaultId) (state : VaultState)
  | transition (id : VaultId) (next : VaultState)
  | transitionAll (ids : List VaultId) (next : VaultState)

/-- What a call leaves, and its answer. -/
def Call.perform (l : Lifecycle) : Call → Lifecycle × Except VaultError Unit
  | track id state => (l.record id state, .ok ())
  | transition id next =>
    match l.transition id next with
    | .ok l' => (l', .ok ())
    | .error e => (l, .error e)
  | transitionAll ids next => l.transitionAll ids next

/-- The vaults that a call moves, each with its next state. -/
def Call.changes (l : Lifecycle) : Call → List (VaultId × VaultState)
  | track _ _ => []
  | transition id next => (movable next l [id]).map fun id => (id, next)
  | transitionAll ids next => (movable next l ids).map fun id => (id, next)

/-- What some calls leave. -/
def after (l : Lifecycle) (calls : List Call) : Lifecycle :=
  calls.foldl (fun l call => (call.perform l).1) l

/-- The vaults that some calls move, each with its next state, in order. -/
def changes : Lifecycle → List Call → List (VaultId × VaultState)
  | _, [] => []
  | l, call :: rest => call.changes l ++ changes (call.perform l).1 rest

/-- A vault that starts to be tracked is not known yet. -/
def Call.TracksNew (l : Lifecycle) : Call → Prop
  | track id _ => recorded? id l.states = none
  | _ => True

/-- Tracking is only used for vaults that are not known yet. -/
def TracksNew : Lifecycle → List Call → Prop
  | _, [] => True
  | l, call :: rest => call.TracksNew l ∧ TracksNew (call.perform l).1 rest

/-- The state in which a vault is first tracked, if it is. -/
def tracked? (id : VaultId) : List Call → Option VaultState
  | [] => none
  | .track id' state :: rest => if id' = id then some state else tracked? id rest
  | _ :: rest => tracked? id rest

/-- The states to which one vault was moved. -/
def trail (id : VaultId) (moves : List (VaultId × VaultState)) : List VaultState :=
  (moves.filter fun move => move.1 = id).map Prod.snd

theorem trail_append (id : VaultId) (moves moves' : List (VaultId × VaultState)) :
    trail id (moves ++ moves') = trail id moves ++ trail id moves' := by
  simp [trail]

/-- A call moves the vaults that it says it moves. -/
theorem Call.perform_eq (l : Lifecycle) (call : Call) :
    (∃ id state, call = .track id state) ∨
      ∃ ids next, call.changes l = ids.map (fun id => (id, next)) ∧ Legal next l ids ∧
        (call.perform l).1 = moveAll next l ids := by
  cases call with
  | track id state => exact Or.inl ⟨id, state, rfl⟩
  | transition id next =>
    refine Or.inr ⟨movable next l [id], next, rfl, legal_movable next l [id], ?_⟩
    simp only [perform, Lifecycle.transition, movable]
    split
    · rename_i heq
      split at heq
      · cases heq
        rw [if_pos ‹_›]
        rfl
      · cases heq
    · rename_i heq
      split at heq
      · cases heq
      · rw [if_neg ‹_›]
        rfl
  | transitionAll ids next =>
    exact Or.inr ⟨movable next l ids, next, rfl, legal_movable next l ids,
      l.transitionAll_fst ids next⟩

/-! ## Paths of vaults -/

/-- Vaults that are moved one after the other each go along a path. -/
theorem path_moveAll (id : VaultId) (h : Legal next l ids) :
    Path (l.state id) (trail id (ids.map fun id => (id, next))) ((moveAll next l ids).state id) := by
  induction ids generalizing l with
  | nil => exact .nil _
  | cons id' ids ih =>
    obtain ⟨hid', hrest⟩ := h
    have hpath := ih hrest
    rw [state_record] at hpath
    by_cases hid : id' = id
    · subst hid
      rw [if_pos rfl] at hpath
      have htrail : trail id' ((id' :: ids).map fun id => (id, next)) =
          next :: trail id' (ids.map fun id => (id, next)) := by
        simp [trail]
      rw [htrail]
      exact .cons hid' hpath
    · rw [if_neg (Ne.symm hid)] at hpath
      have htrail : trail id ((id' :: ids).map fun id => (id, next)) =
          trail id (ids.map fun id => (id, next)) := by
        simp [trail, hid]
      rw [htrail]
      exact hpath

/-- What a call leaves of a vault that it does not start to track. -/
theorem Call.path (call : Call) (h : ∀ state, call ≠ .track id state) :
    Path (l.state id) (trail id (call.changes l)) ((call.perform l).1.state id) := by
  rcases call.perform_eq l with ⟨id', state, rfl⟩ | ⟨ids, next, hchanges, hlegal, hperform⟩
  · have hid : id ≠ id' := by
      rintro rfl
      exact h state rfl
    have hstate : ((Call.track id' state).perform l).1.state id = l.state id := by
      rw [perform, state_record, if_neg hid]
    rw [hstate]
    exact .nil _
  · rw [hchanges, hperform]
    exact path_moveAll id hlegal

/-- A vault that is known stays known. -/
theorem Call.known (call : Call) (h : recorded? id l.states ≠ none) :
    recorded? id (call.perform l).1.states ≠ none := by
  rcases call.perform_eq l with ⟨id', state, rfl⟩ | ⟨ids, next, -, -, hperform⟩
  · rw [perform, recorded?_record]
    split
    · simp
    · exact h
  · rw [hperform, recorded?_moveAll]
    split
    · simp
    · exact h

theorem known_after {calls : List Call} (h : recorded? id l.states ≠ none) :
    recorded? id (l.after calls).states ≠ none := by
  induction calls generalizing l with
  | nil => exact h
  | cons call rest ih => exact ih (call.known h)

/-- From a state that is known a vault goes along a path. -/
theorem path_of_known {calls : List Call} (hnew : l.TracksNew calls)
    (h : recorded? id l.states ≠ none) :
    Path (l.state id) (trail id (l.changes calls)) ((l.after calls).state id) := by
  induction calls generalizing l with
  | nil => exact .nil _
  | cons call rest ih =>
    obtain ⟨hcall, hrest⟩ := hnew
    have hpath : Path (l.state id) (trail id (call.changes l)) ((call.perform l).1.state id) := by
      apply call.path
      rintro state rfl
      exact h hcall
    rw [changes, trail_append]
    exact hpath.append (ih hrest (call.known h))

theorem tracked?_of_known {calls : List Call} (hnew : l.TracksNew calls)
    (h : recorded? id l.states ≠ none) : tracked? id calls = none := by
  induction calls generalizing l with
  | nil => rfl
  | cons call rest ih =>
    obtain ⟨hcall, hrest⟩ := hnew
    have htail := ih hrest (call.known h)
    cases call with
    | track id' state =>
      have hid : id' ≠ id := by
        rintro rfl
        exact h hcall
      rw [tracked?, if_neg hid, htail]
    | transition id' next => exact htail
    | transitionAll ids next => exact htail

/-- A vault that is not known yet goes along a path from the state in which it
is tracked, or from the beginning. -/
theorem path_of_unknown {calls : List Call} (hnew : l.TracksNew calls)
    (h : recorded? id l.states = none) :
    Path ((tracked? id calls).getD .unfunded) (trail id (l.changes calls))
      ((l.after calls).state id) := by
  induction calls generalizing l with
  | nil =>
    show Path .unfunded [] (l.state id)
    rw [state_of_unknown h]
    exact .nil _
  | cons call rest ih =>
    obtain ⟨hcall, hrest⟩ := hnew
    rw [changes, trail_append]
    by_cases htrack : ∃ state, call = .track id state
    · obtain ⟨state, rfl⟩ := htrack
      have hrecorded : recorded? id ((Call.track id state).perform l).1.states = some state := by
        rw [Call.perform, recorded?_record, if_pos rfl]
      have hknown : recorded? id ((Call.track id state).perform l).1.states ≠ none := by
        simp [hrecorded]
      have hpath := path_of_known hrest hknown
      rw [state_of_recorded hrecorded] at hpath
      rw [tracked?, if_pos rfl]
      exact hpath
    · have hcalled := call.path (l := l) fun state heq => htrack ⟨state, heq⟩
      have htail : tracked? id (call :: rest) = tracked? id rest := by
        cases call with
        | track id' state =>
          rw [tracked?, if_neg]
          rintro rfl
          exact htrack ⟨state, rfl⟩
        | transition id' next => rfl
        | transitionAll ids next => rfl
      rw [htail]
      rw [state_of_unknown h] at hcalled
      cases hafter : recorded? id (call.perform l).1.states with
      | some state =>
        -- the call has moved the vault, which is not tracked any more
        have hknown : recorded? id (call.perform l).1.states ≠ none := by simp [hafter]
        rw [tracked?_of_known hrest hknown]
        exact hcalled.append (path_of_known hrest hknown)
      | none =>
        rw [state_of_unknown hafter] at hcalled
        have hnone : trail id (call.changes l) = [] := by
          have := hcalled.length_le
          exact List.length_eq_zero_iff.mp (by omega)
        rw [hnone]
        exact ih hrest hafter

/-! ## One way -/

/-- In every history in which only new vaults are tracked, the states of a
vault form a path from the beginning, or from the state in which it was
tracked, with at most three changes; a vault that was withdrawn or recovered
never changes again, and one that is known stays known. A transition that is
refused changes nothing and reports the present and the requested state. Many
vaults are moved up to the first that cannot be moved, whose state is
reported, and no other vault is touched. -/
theorem history_one_way {calls : List Call} {l : Lifecycle} (hl : empty.after calls = l)
    (hnew : empty.TracksNew calls) :
    (∀ id, Path ((tracked? id calls).getD .unfunded) (trail id (empty.changes calls))
        (l.state id) ∧ (trail id (empty.changes calls)).length ≤ 3) ∧
    (∀ id more, (l.state id).isTerminal = true → l.TracksNew more →
      trail id (l.changes more) = [] ∧ (l.after more).state id = l.state id) ∧
    (∀ id more, recorded? id l.states ≠ none → recorded? id (l.after more).states ≠ none) ∧
    (∀ id next, (transitionInPlace id next).run l =
      if (l.state id).canBecome next then .ok () (l.record id next)
      else .error (.invalidStateTransition (l.state id).name next.name) l) ∧
    ∀ ids next, ∃ moved rest, ids = moved ++ rest ∧ Legal next l moved ∧
      (∀ legal, legal <+: ids → Legal next l legal → legal <+: moved) ∧
      (∀ id, recorded? id (l.transitionAll ids next).1.states =
        if id ∈ moved then some next else recorded? id l.states) ∧
      ((rest = [] ∧ (l.transitionAll ids next).2 = .ok ()) ∨
        ∃ id tail, rest = id :: tail ∧
          ((l.transitionAll ids next).1.state id).canBecome next = false ∧
          (l.transitionAll ids next).2 = .error (.invalidStateTransition
            ((l.transitionAll ids next).1.state id).name next.name)) := by
  refine ⟨?_, ?_, ?_, ?_, ?_⟩
  · intro id
    have hunknown : recorded? id empty.states = none := rfl
    have hpath := path_of_unknown hnew hunknown
    rw [hl] at hpath
    refine ⟨hpath, ?_⟩
    have hlen := hpath.length_le
    have hstart : ((tracked? id calls).getD .unfunded).remaining ≤ 3 := by
      cases (tracked? id calls).getD .unfunded <;> decide
    omega
  · intro id more hterminal hmore
    have hknown : recorded? id l.states ≠ none := by
      intro hunknown
      rw [state_of_unknown hunknown] at hterminal
      cases hterminal
    exact (path_of_known hmore hknown).of_terminal hterminal
  · intro id more hknown
    exact known_after hknown
  · intro id next
    rw [transitionInPlace_eq, transition]
    by_cases h : (l.state id).canBecome next = true
    · rw [if_pos h, if_pos h]
    · rw [if_neg h, if_neg h]
  · intro ids next
    obtain ⟨rest, hids, hresult⟩ := l.transitionAll_eq ids next
    refine ⟨_, rest, hids, legal_movable next l ids, fun legal => prefix_movable, ?_, ?_⟩
    · intro id
      rw [transitionAll_fst, recorded?_moveAll]
    · rcases hresult with ⟨hrest, heq⟩ | ⟨id, tail, hrest, hid, heq⟩
      · exact Or.inl ⟨hrest, by rw [heq]⟩
      · refine Or.inr ⟨id, tail, hrest, ?_, ?_⟩
        · rw [transitionAll_fst]
          exact hid
        · rw [heq]

/-- Of three vaults to be locked one is named twice, which ends the call; a
withdrawal that comes too early is refused. The vault goes its way all the
same, until it is recovered. -/
theorem history_one_way_repeated :
    empty.TracksNew [.transitionAll [1, 2, 1, 4] .vaulted, .track 3 .triggered,
      .transition 1 .withdrawn, .transition 1 .triggered, .transition 1 .recovered] ∧
    ∃ l, empty.after [.transitionAll [1, 2, 1, 4] .vaulted, .track 3 .triggered,
      .transition 1 .withdrawn, .transition 1 .triggered, .transition 1 .recovered] = l ∧
    Path .unfunded [.vaulted, .triggered, .recovered] (l.state 1) ∧
    Path .triggered [] (l.state 3) ∧ Path .unfunded [] (l.state 4) ∧
    (∀ more, l.TracksNew more → (l.after more).state 1 = .recovered) ∧
    (transitionInPlace 1 .withdrawn).run l =
      .error (.invalidStateTransition "Recovered" "Withdrawn") l := by
  have hnew : empty.TracksNew [.transitionAll [1, 2, 1, 4] .vaulted, .track 3 .triggered,
      .transition 1 .withdrawn, .transition 1 .triggered, .transition 1 .recovered] := by
    simp only [TracksNew, Call.TracksNew, true_and, and_true]
    decide
  obtain ⟨hpaths, hends, -, hmoves, -⟩ := history_one_way rfl hnew
  refine ⟨hnew, _, rfl, (hpaths 1).1, (hpaths 3).1, (hpaths 4).1, ?_, ?_⟩
  · intro more hmore
    exact (hends 1 more rfl hmore).2
  · exact hmoves 1 .withdrawn

end Lifecycle

end VaultCovenant
