import VaultCovenant.Text.Fragment

/-!
# Rejections

The classes of reasons for which a validator refuses a transaction, the fragments of its messages
by which a class is recognised, and rejections that are expected.

Results:
* `RejectionKind.mem_all`: the list of all classes is complete.
-/

namespace VaultCovenant

/-- A class of reasons to refuse a vault transaction. -/
inductive RejectionKind where
  /-- Vaults with different recovery scripts or delays share a trigger output. -/
  | incompatibleBatch
  /-- Outputs exceed or understate what the inputs commit to. -/
  | amountConservationViolation
  /-- The outputs of a recovery have a layout that is not allowed. -/
  | badOutputStructure
  /-- An output index is out of range or points at the wrong output. -/
  | invalidVoutReference
  /-- The relative timelock of the spent output has not passed. -/
  | timelockNotMatured
  /-- The sequence number is not final yet. -/
  | nonFinalSequence
  /-- The withdrawal is not the committed one. -/
  | templateHashMismatch
  /-- A witness is corrupted or made with the wrong key. -/
  | signatureInvalid
  /-- The trigger leaf has a delay that the validator refuses. -/
  | invalidSpendDelay
  /-- Running a script used up a resource of the interpreter. -/
  | scriptResourceLimit
  deriving DecidableEq

namespace RejectionKind

/-- Every class, the most specific reasons first. -/
def all : List RejectionKind :=
  [incompatibleBatch, amountConservationViolation, badOutputStructure, invalidVoutReference,
    timelockNotMatured, nonFinalSequence, templateHashMismatch, invalidSpendDelay,
    scriptResourceLimit, signatureInvalid]

theorem mem_all (kind : RejectionKind) : kind ∈ all := by cases kind <;> decide

/-- The name of a class in reports. -/
def name : RejectionKind → String
  | incompatibleBatch => "IncompatibleBatch"
  | amountConservationViolation => "AmountConservationViolation"
  | badOutputStructure => "BadOutputStructure"
  | invalidVoutReference => "InvalidVoutReference"
  | timelockNotMatured => "TimelockNotMatured"
  | nonFinalSequence => "NonFinalSequence"
  | templateHashMismatch => "TemplateHashMismatch"
  | signatureInvalid => "SignatureInvalid"
  | invalidSpendDelay => "InvalidSpendDelay"
  | scriptResourceLimit => "ScriptResourceLimit"

/-- The name of a class in running text. -/
def label : RejectionKind → String
  | incompatibleBatch => "incompatible-batch"
  | amountConservationViolation => "amount-conservation-violation"
  | badOutputStructure => "bad-output-structure"
  | invalidVoutReference => "invalid-vout-reference"
  | timelockNotMatured => "timelock-not-matured"
  | nonFinalSequence => "non-final-sequence"
  | templateHashMismatch => "template-hash-mismatch"
  | signatureInvalid => "signature-invalid"
  | invalidSpendDelay => "invalid-spend-delay"
  | scriptResourceLimit => "script-resource-limit"

/-- The fragments of a validator's messages that belong to a class. -/
def fragments : RejectionKind → List String
  | incompatibleBatch => ["OP_UNVAULT outputs not compatible"]
  | amountConservationViolation =>
    ["bad-txns-in-belowout", "vault-insufficient-trigger-value",
      "vault-insufficient-recovery-value", "recovery output nValue too low"]
  | badOutputStructure => ["bad-vault-recovery-outputs"]
  | invalidVoutReference => ["vault-invalid-trigger-vout", "vault-invalid-recovery-vout"]
  | timelockNotMatured => ["timelock has not matured"]
  | nonFinalSequence => ["non-BIP68-final"]
  | templateHashMismatch => ["target hash mismatch"]
  | signatureInvalid => ["script-verify-flag"]
  | invalidSpendDelay => ["vault-invalid-spend-delay"]
  | scriptResourceLimit => ["Too many recursive calls"]

/-- The first class with a fragment in the message. Every failure of a script is reported behind
the fragment of `signatureInvalid`, which therefore comes last. -/
def classify (message : String) : Option RejectionKind :=
  all.find? fun kind => kind.fragments.any (Text.hasFragment message)

end RejectionKind

/-- A rejection that is expected: its class and the fragment its message must hold. -/
structure Rejection where
  kind : RejectionKind
  reason : String
  deriving DecidableEq

namespace Rejection

/-- Whether a validator's message is the expected one. -/
def isMetBy (r : Rejection) (message : String) : Bool := Text.hasFragment message r.reason

/-- The class with the fragment in parentheses. -/
def text (r : Rejection) : String := r.kind.label ++ " (" ++ r.reason ++ ")"

/-- Members of a batch do not fit together. -/
def incompatible : Rejection := ⟨.incompatibleBatch, "OP_UNVAULT outputs not compatible"⟩

/-- The outputs are worth more than the inputs. -/
def valueBelowOutputs : Rejection := ⟨.amountConservationViolation, "bad-txns-in-belowout"⟩

/-- A script failed for no more specific reason. -/
def scriptFailure : Rejection := ⟨.signatureInvalid, "script-verify-flag"⟩

/-- The delay has not passed since the spent output was confirmed. -/
def notFinal : Rejection := ⟨.nonFinalSequence, "non-BIP68-final"⟩

/-- The delay in the trigger leaf is refused. -/
def invalidDelay : Rejection := ⟨.invalidSpendDelay, "vault-invalid-spend-delay"⟩

/-- The interpreter was entered too often. -/
def recursionLimit : Rejection := ⟨.scriptResourceLimit, "Too many recursive calls"⟩

end Rejection

end VaultCovenant
