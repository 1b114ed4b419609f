import VaultCovenant.Rejection

/-!
# Faults

Named ways to build a transaction wrongly, each changing one thing that a validator has to check,
with the rejection it must provoke.

Results:
* `Fault.mem_all`: the catalog is complete.
* `FaultSet.mem_toList_iff`: listing a set lists its members.
-/

namespace VaultCovenant

/-- Where in the life of a vault a fault is made. -/
inductive Stage where
  | trigger
  | withdrawal
  | recovery
  deriving DecidableEq

/-- The name of a stage. -/
def Stage.name : Stage → String
  | trigger => "trigger"
  | withdrawal => "withdrawal"
  | recovery => "recovery"

/-- One way to build a transaction wrongly. -/
inductive Fault where
  | triggerBadRecoveryCommitment
  | triggerBadSpendDelay
  | triggerAmountTooLow
  | triggerAmountTooHigh
  | triggerWithdrawLeafWrongOpcode
  | triggerRecoverLeafWrongOpcode
  | revaultAmountTooHigh
  | revaultAmountTooLow
  | triggerVoutOffByOne
  | triggerWrongKey
  | withdrawalSequenceTooLow
  | withdrawalOutputChanged
  | recoveryAuthWrongKey
  | recoveryOutputTooLow
  | recoveryLastOutputTooLow
  | recoveryVoutOffByOne
  | recoveryExtraOutput
  deriving DecidableEq

namespace Fault

/-- The catalog, in its order. -/
def all : List Fault :=
  [triggerBadRecoveryCommitment, triggerBadSpendDelay, triggerAmountTooLow, triggerAmountTooHigh,
    triggerWithdrawLeafWrongOpcode, triggerRecoverLeafWrongOpcode, revaultAmountTooHigh,
    revaultAmountTooLow, triggerVoutOffByOne, triggerWrongKey, withdrawalSequenceTooLow,
    withdrawalOutputChanged, recoveryAuthWrongKey, recoveryOutputTooLow, recoveryLastOutputTooLow,
    recoveryVoutOffByOne, recoveryExtraOutput]

theorem mem_all (fault : Fault) : fault ∈ all := by cases fault <;> decide

/-- The name of a fault in the catalog. -/
def name : Fault → String
  | triggerBadRecoveryCommitment => "TriggerBadRecoveryCommitment"
  | triggerBadSpendDelay => "TriggerBadSpendDelay"
  | triggerAmountTooLow => "TriggerAmountTooLow"
  | triggerAmountTooHigh => "TriggerAmountTooHigh"
  | triggerWithdrawLeafWrongOpcode => "TriggerWithdrawLeafWrongOpcode"
  | triggerRecoverLeafWrongOpcode => "TriggerRecoverLeafWrongOpcode"
  | revaultAmountTooHigh => "RevaultAmountTooHigh"
  | revaultAmountTooLow => "RevaultAmountTooLow"
  | triggerVoutOffByOne => "TriggerVoutOffByOne"
  | triggerWrongKey => "TriggerWrongKey"
  | withdrawalSequenceTooLow => "WithdrawalSequenceTooLow"
  | withdrawalOutputChanged => "WithdrawalOutputChanged"
  | recoveryAuthWrongKey => "RecoveryAuthWrongKey"
  | recoveryOutputTooLow => "RecoveryOutputTooLow"
  | recoveryLastOutputTooLow => "RecoveryLastOutputTooLow"
  | recoveryVoutOffByOne => "RecoveryVoutOffByOne"
  | recoveryExtraOutput => "RecoveryExtraOutput"

/-- What a fault does, in words. -/
def description : Fault → String
  | triggerBadRecoveryCommitment => "trigger with wrong recovery commitment"
  | triggerBadSpendDelay => "trigger with wrong spend delay"
  | triggerAmountTooLow => "trigger amount too low"
  | triggerAmountTooHigh => "trigger amount too high"
  | triggerWithdrawLeafWrongOpcode => "withdraw leaf ends in the wrong opcode"
  | triggerRecoverLeafWrongOpcode => "recover leaf ends in the wrong opcode"
  | revaultAmountTooHigh => "revault amount too high"
  | revaultAmountTooLow => "revault amount too low"
  | triggerVoutOffByOne => "trigger vout index off by one"
  | triggerWrongKey => "trigger signed with the wrong key"
  | withdrawalSequenceTooLow => "withdrawal sequence below the spend delay"
  | withdrawalOutputChanged => "withdrawal output value changed"
  | recoveryAuthWrongKey => "recovery authorization signed with the wrong key"
  | recoveryOutputTooLow => "recovery output value too low"
  | recoveryLastOutputTooLow => "last of several recovery outputs too low"
  | recoveryVoutOffByOne => "recovery vout index off by one"
  | recoveryExtraOutput => "recovery with an extra output"

/-- The stage at which a fault is made. -/
def stage : Fault → Stage
  | withdrawalSequenceTooLow | withdrawalOutputChanged => .withdrawal
  | recoveryAuthWrongKey | recoveryOutputTooLow | recoveryLastOutputTooLow | recoveryVoutOffByOne
  | recoveryExtraOutput => .recovery
  | _ => .trigger

/-- The rejection that a transaction with this fault must meet. -/
def expectedRejection : Fault → Rejection
  | triggerBadRecoveryCommitment | triggerBadSpendDelay | triggerAmountTooLow
  | triggerWithdrawLeafWrongOpcode | triggerRecoverLeafWrongOpcode => .incompatible
  | triggerAmountTooHigh | revaultAmountTooHigh => .valueBelowOutputs
  | revaultAmountTooLow => ⟨.amountConservationViolation, "vault-insufficient-trigger-value"⟩
  | triggerVoutOffByOne => ⟨.invalidVoutReference, "vault-invalid-trigger-vout"⟩
  | triggerWrongKey | recoveryAuthWrongKey => .scriptFailure
  | withdrawalSequenceTooLow => ⟨.timelockNotMatured, "timelock has not matured"⟩
  | withdrawalOutputChanged => ⟨.templateHashMismatch, "target hash mismatch"⟩
  | recoveryOutputTooLow => ⟨.amountConservationViolation, "vault-insufficient-recovery-value"⟩
  | recoveryLastOutputTooLow => ⟨.amountConservationViolation, "recovery output nValue too low"⟩
  | recoveryVoutOffByOne => ⟨.invalidVoutReference, "vault-invalid-recovery-vout"⟩
  | recoveryExtraOutput => ⟨.badOutputStructure, "bad-vault-recovery-outputs"⟩

/-- Whether a fault has an effect only where part of the value returns to the vault. -/
def needsRevault : Fault → Bool
  | revaultAmountTooHigh | revaultAmountTooLow => true
  | _ => false

/-- Whether a fault has an effect only where recovery is authorized. -/
def needsAuthorization : Fault → Bool
  | recoveryAuthWrongKey => true
  | _ => false

/-- Whether a fault is made while a batch is put together, before it is spent into. -/
def shapesBatch (fault : Fault) : Bool :=
  fault.stage = .trigger && fault != triggerVoutOffByOne && fault != triggerWrongKey

end Fault

/-! ## Sets of faults -/

/-- The faults to make while building one transaction. -/
structure FaultSet where
  contains : Fault → Bool

namespace FaultSet

/-- No fault. -/
def none : FaultSet := ⟨fun _ => false⟩

/-- The set with one more fault. -/
def insert (faults : FaultSet) (fault : Fault) : FaultSet :=
  ⟨fun f => f == fault || faults.contains f⟩

/-- One fault. -/
def only (fault : Fault) : FaultSet := none.insert fault

/-- The faults of a list. -/
def ofList (faults : List Fault) : FaultSet := faults.foldl insert none

/-- The members in catalog order. -/
def toList (faults : FaultSet) : List Fault := Fault.all.filter faults.contains

/-- Whether no fault is made. -/
def isEmpty (faults : FaultSet) : Bool := faults.toList.isEmpty

theorem mem_toList_iff {faults : FaultSet} {fault : Fault} :
    fault ∈ faults.toList ↔ faults.contains fault = true := by
  simp [toList, Fault.mem_all]

end FaultSet

end VaultCovenant
