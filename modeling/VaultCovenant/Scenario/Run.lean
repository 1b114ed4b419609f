import VaultCovenant.Recovery
import VaultCovenant.Scenario.Report
import VaultCovenant.Withdrawal

/-!
# Steps of a run

A run keeps the steps so far, where the vaults stand and how many vaults it has named. It ends at
its first failure, which leaves all of these as they are.
-/

namespace VaultCovenant

/-- What a run keeps. -/
structure RunState where
  steps : List Step
  lifecycle : Lifecycle
  /-- How many vaults were named so far. -/
  named : Nat

/-- A part of a run on a node that answers in the monad `m`. -/
abbrev Run (m : Type → Type) := ExceptT Failure (StateT RunState m)

/-- Where and how scenarios are run: the node, the names for vaults in the order of their use, and
the authorization of the vaults. -/
structure Runner (m : Type → Type) where
  node : Node m
  ids : Nat → VaultId
  authorization : Authorization

namespace Run

variable {m : Type → Type} [Monad m] {α : Type}

/-- Goes on with a result, or ends the run. -/
def ofExcept (result : Except VaultError α) : Run m α := fun s => pure (Failure.lift result, s)

/-- Goes on with a result, or ends the run; amounts may overflow. -/
def ofFailure (result : Except Failure α) : Run m α := fun s => pure (result, s)

/-- Calls the node. -/
def call (c : m (Except VaultError α)) : Run m α := fun s => do
  let result ← c
  return (Failure.lift result, s)

/-- Adds a step. -/
def record (step : Step) : Run m Unit := fun s =>
  pure (.ok (), { s with steps := s.steps ++ [step] })

/-- Moves a vault to the next stage of its life. -/
def transition (id : VaultId) (next : VaultState) : Run m Unit := fun s =>
  match s.lifecycle.transition id next with
  | .ok lifecycle => pure (.ok (), { s with lifecycle })
  | .error e => pure (.error (.error e), s)

/-- Moves vaults to the next stage, up to the first that cannot be moved. -/
def transitionAll (ids : List VaultId) (next : VaultState) : Run m Unit := fun s =>
  let (lifecycle, result) := s.lifecycle.transitionAll ids next
  pure (Failure.lift result, { s with lifecycle })

/-- Keeps track of a vault from a given stage on. -/
def track (id : VaultId) (state : VaultState) : Run m Unit := fun s =>
  pure (.ok (), { s with lifecycle := s.lifecycle.record id state })

/-- Takes a number of names: the position of the first. -/
def takeNames (count : Nat) : Run m Nat := fun s =>
  pure (.ok s.named, { s with named := s.named + count })

end Run

namespace Runner

variable {m : Type → Type} [Monad m]

/-- How much the fee of a transaction without one is raised, so that it is mined. -/
def feeDelta : Int64 := 100000000

/-- Offers a transaction and records what the node says. -/
def broadcast (r : Runner m) (label : String) (tx : Transaction) (expected : Expectation) :
    Run m Verdict := do
  let verdict ← Run.call (r.node.broadcast tx)
  Run.record (Step.record label tx.txid expected verdict)
  return verdict

/-- Offers a transaction that must be taken; a refusal ends the run. -/
def expectAccept (r : Runner m) (label : String) (tx : Transaction) : Run m Txid := do
  match ← r.broadcast label tx .accept with
  | .accepted txid => return txid
  | .rejected reason => Run.ofExcept (.error (.operationFailed label reason))

/-- Offers a transaction that must be refused. A refusal for another reason is only recorded; a
transaction that is taken ends the run. -/
def expectReject (r : Runner m) (label : String) (tx : Transaction) (rejection : Rejection) :
    Run m Unit := do
  match ← r.broadcast label tx (.reject rejection) with
  | .accepted txid =>
    Run.ofExcept (.error (.operationFailed label
      (txid.text ++ " was accepted but should have been rejected")))
  | .rejected _ => return ()

/-- Offers a transaction with a fault. -/
def expectFault (r : Runner m) (fault : Fault) (tx : Transaction) : Run m Unit :=
  r.expectReject fault.description tx fault.expectedRejection

/-- Mines a number of blocks. -/
def mine (r : Runner m) (blocks : UInt64) : Run m Unit := Run.call (r.node.mine blocks)

/-- Raises the fee of a transaction. -/
def bumpFee (r : Runner m) (txid : Txid) : Run m Unit := Run.call (r.node.bumpFee txid feeDelta)

/-- Offers a transaction that must be taken, raises its fee and mines it. -/
def confirm (r : Runner m) (label : String) (tx : Transaction) : Run m Unit := do
  let txid ← r.expectAccept label tx
  r.bumpFee txid
  r.mine 1
  let _ ← Run.call r.node.mempoolSize

/-- Makes a vault and locks a coin of the node's in it. -/
def lockCoin (r : Runner m) (params : VaultParams) : Run m Vault := do
  let policy ← Run.ofExcept (Policy.ofParams params)
  let name ← Run.takeNames 1
  let coin ← Run.call r.node.spendableCoin
  let (tx, vault) ← Run.ofExcept ((Vault.empty (r.ids name) policy).lock coin none)
  let _ ← r.expectAccept "initialize vault" tx
  Run.transition vault.id .vaulted
  return vault

/-- Makes vaults, locks a coin in each and confirms them together. -/
def lockCoins (r : Runner m) (params : List VaultParams) : Run m (List Vault) := do
  let vaults ← params.mapM r.lockCoin
  r.mine 1
  return vaults

end Runner

end VaultCovenant
