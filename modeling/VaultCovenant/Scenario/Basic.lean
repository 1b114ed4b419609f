import VaultCovenant.Authorization

/-!
# Scenarios

The end-to-end runs, by name.

Results:
* `Scenario.ofName_name`: a scenario is found under its name.
-/

namespace VaultCovenant

/-- One end-to-end run. -/
inductive Scenario where
  /-- Trigger a vault, then withdraw after the delay. -/
  | singleVault
  /-- Recover a vault that was not triggered. -/
  | sweepFromVault
  /-- Trigger a vault, then recover it. -/
  | sweepFromTrigger
  /-- Recover triggered and vaulted coins with different delays and recovery keys. -/
  | batchRecovery
  /-- Trigger several vaults into one output, after vaults that do not fit were refused. -/
  | batchTrigger
  /-- Return part of the value to the vault while triggering. -/
  | revault
  /-- Trigger a vault whose delay is negative. -/
  | negativeDelay
  /-- Recover with an authorization that enters the vault opcode again and again. -/
  | recursiveRecoveryWitness
  deriving DecidableEq

namespace Scenario

/-- Every scenario, in the order in which they are run. -/
def all : List Scenario :=
  [singleVault, sweepFromVault, sweepFromTrigger, batchRecovery, batchTrigger, revault,
    negativeDelay, recursiveRecoveryWitness]

/-- The name of a scenario. -/
def name : Scenario → String
  | singleVault => "single-vault"
  | sweepFromVault => "sweep-from-vault"
  | sweepFromTrigger => "sweep-from-trigger"
  | batchRecovery => "batch-recovery"
  | batchTrigger => "batch-trigger"
  | revault => "revault"
  | negativeDelay => "negative-delay"
  | recursiveRecoveryWitness => "recursive-recovery-witness"

/-- Whether a scenario is repeated under every authorization. -/
def variesAuthorization : Scenario → Bool
  | singleVault | sweepFromVault | sweepFromTrigger | negativeDelay => true
  | _ => false

/-- The scenario with a name. -/
def ofName (text : String) : Except VaultError Scenario :=
  match all.find? fun scenario => scenario.name == text with
  | some scenario => .ok scenario
  | none => .error (.configuration ("unknown scenario '" ++ text ++ "'"))

theorem ofName_name (scenario : Scenario) : ofName scenario.name = .ok scenario := by
  cases scenario <;> rfl

/-- The preimage that the hash-locked authorization reveals. -/
def recoveryPreimage : Bytes := Bytes.ofText "opvault recovery"

/-- The authorizations under which scenarios are repeated. -/
def authorizations : Except VaultError (List Authorization) := do
  let secret : UInt64 := 2
  return [.anyone, ← Authorization.key secret, ← Authorization.hashLocked secret recoveryPreimage]

end Scenario

end VaultCovenant
