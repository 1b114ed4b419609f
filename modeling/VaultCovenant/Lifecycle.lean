import VaultCovenant.Failure

/-!
# The life of a vault

A vault is locked, then triggered and withdrawn; from either stage it may be recovered instead.
The states of many vaults are kept by ascending id; a vault that was never seen is unfunded.

Results:
* `state_record`: recording a state changes what is known of that vault alone.
-/

namespace VaultCovenant

/-- Where a vault stands. -/
inductive VaultState where
  | unfunded
  | vaulted
  | triggered
  | withdrawn
  | recovered
  deriving DecidableEq

namespace VaultState

/-- The five states in order. -/
def all : List VaultState := [unfunded, vaulted, triggered, withdrawn, recovered]

/-- The name of a state. -/
def name : VaultState → String
  | unfunded => "Unfunded"
  | vaulted => "Vaulted"
  | triggered => "Triggered"
  | withdrawn => "Withdrawn"
  | recovered => "Recovered"

/-- Whether one state directly follows another. -/
def canBecome : VaultState → VaultState → Bool
  | unfunded, vaulted | vaulted, triggered | vaulted, recovered | triggered, withdrawn
  | triggered, recovered => true
  | _, _ => false

/-- Whether no state follows. -/
def isTerminal : VaultState → Bool
  | withdrawn | recovered => true
  | _ => false

end VaultState

/-- The states of the vaults seen so far, by ascending id. -/
structure Lifecycle where
  states : List (VaultId × VaultState)

namespace Lifecycle

/-- No vault has been seen. -/
def empty : Lifecycle := ⟨[]⟩

/-- Puts an entry at its place, instead of an earlier one for the same vault. -/
def put (id : VaultId) (state : VaultState) :
    List (VaultId × VaultState) → List (VaultId × VaultState)
  | [] => [(id, state)]
  | (id', state') :: rest =>
    if id < id' then (id, state) :: (id', state') :: rest
    else if id = id' then (id, state) :: rest
    else (id', state') :: put id state rest

/-- Sets the state of a vault, whatever it was. -/
def record (l : Lifecycle) (id : VaultId) (state : VaultState) : Lifecycle :=
  ⟨put id state l.states⟩

/-- The state recorded for a vault, if it was seen. -/
def recorded? (id : VaultId) : List (VaultId × VaultState) → Option VaultState
  | [] => none
  | (id', state) :: rest => if id = id' then some state else recorded? id rest

/-- The state of a vault. -/
def state (l : Lifecycle) (id : VaultId) : VaultState := (recorded? id l.states).getD .unfunded

/-- Moves a vault to a state that follows its own. -/
def transition (l : Lifecycle) (id : VaultId) (next : VaultState) : Except VaultError Lifecycle :=
  if (l.state id).canBecome next then .ok (l.record id next)
  else .error (.invalidStateTransition (l.state id).name next.name)

/-- Moves vaults one after the other up to the first that cannot be moved: the states reached, and
the failure if there was one. -/
def transitionAll (l : Lifecycle) (ids : List VaultId) (next : VaultState) :
    Lifecycle × Except VaultError Unit :=
  match ids with
  | [] => (l, .ok ())
  | id :: rest =>
    match l.transition id next with
    | .ok l => l.transitionAll rest next
    | .error e => (l, .error e)

theorem recorded?_put (id id' : VaultId) (state : VaultState)
    (entries : List (VaultId × VaultState)) :
    recorded? id' (put id state entries) =
      if id' = id then some state else recorded? id' entries := by
  induction entries with
  | nil => rfl
  | cons entry rest ih => grind [put, recorded?]

theorem state_record (l : Lifecycle) (id id' : VaultId) (state : VaultState) :
    (l.record id state).state id' = if id' = id then state else l.state id' := by
  simp only [Lifecycle.state, record, recorded?_put]
  split <;> rfl

end Lifecycle

end VaultCovenant
