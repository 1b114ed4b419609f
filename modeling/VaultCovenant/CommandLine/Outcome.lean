import VaultCovenant.Catalog
import VaultCovenant.CommandLine.Command
import VaultCovenant.Plan
import VaultCovenant.Scenario.Flow

/-!
# Outcomes of commands

What a command writes and the status with which it ends: 0 if all is well, 1 after an error, 2 if
the words make no command, 101 after an overflow.
-/

namespace VaultCovenant.CommandLine

/-! ## Complaints -/

/-- Why a command failed, with what that comes from, the nearest first. -/
structure Complaint where
  message : String
  causes : List String
  deriving DecidableEq

namespace Complaint

/-- What a failure comes from: the failure of a call to a node has a wording of its own. -/
def causesOf : VaultError → List String
  | .rpc source => [source.message]
  | _ => []

/-- The complaint about a failure. -/
def ofError (e : VaultError) : Complaint := ⟨e.message, causesOf e⟩

/-- The complaint that an activity met a failure. -/
def during (activity : String) (e : VaultError) : Complaint :=
  ⟨activity, e.message :: causesOf e⟩

/-- The lines of a text behind a margin; the first line stands behind a head of the same width. -/
def indented (head margin : String) (text : String) : String :=
  head ++ (text.replace "\n" ("\n" ++ margin))

/-- Causes on lines of their own, numbered from zero if there are several. -/
def causeText (causes : List String) : String :=
  let several := 1 < causes.length
  String.join (causes.zipIdx.map fun (cause, i) =>
    let digits := toString i
    if several then
      let head := String.ofList (List.replicate (5 - digits.length) ' ') ++ digits ++ ": "
      "\n" ++ indented head "       " cause
    else "\n" ++ indented "    " "    " cause)

/-- The text of a complaint. -/
def text (c : Complaint) : String :=
  let causes := if c.causes.isEmpty then "" else "\n\nCaused by:" ++ causeText c.causes
  "Error: " ++ c.message ++ causes ++ "\n"

end Complaint

/-! ## Outcomes -/

/-- What a command writes to its output and to its error output, and how it ends. -/
structure Outcome where
  status : UInt32
  output : String
  errors : String
  deriving DecidableEq

namespace Outcome

/-- Lines, each with its end. -/
def unlines (lines : List String) : String := String.join (lines.map (· ++ "\n"))

/-- A command that wrote lines. -/
def success (lines : List String) : Outcome := ⟨0, unlines lines, ""⟩

/-- A command that wrote lines and then failed. -/
def failure (lines : List String) (c : Complaint) : Outcome := ⟨1, unlines lines, c.text⟩

/-- A command that was ended by an overflow. -/
def overflow : Outcome := ⟨101, "", "a number passed the largest that is allowed\n"⟩

/-- Words that make no command. -/
def ofUsage (e : UsageError) : Outcome := ⟨2, "", "error: " ++ e.message ++ "\n"⟩

/-- The outcome of a computation whose result is written in lines. -/
def ofResult {α : Type} (lines : α → List String) : Except Failure α → Outcome
  | .ok a => success (lines a)
  | .error (.error e) => failure [] (.ofError e)
  | .error .overflow => overflow

end Outcome

/-! ## Commands without a node -/

/-- The vault with given choices. The authorization is looked at first. -/
def VaultChoices.build (choices : VaultChoices) (id : VaultId) : Except VaultError Vault := do
  let authorization ← match choices.authorization with
    | .none => pure Authorization.anyone
    | .key => Authorization.key choices.recoverySecret
  Vault.ofParams id {
    recoverySecret := choices.recoverySecret
    triggerSecret := choices.triggerSecret
    spendDelay := choices.delay
    authorization
    scriptPathOnly := choices.scriptPathOnly }

/-- Lists the faults. -/
def listCatalog (asJson : Bool) : Outcome :=
  .success (if asJson then [Catalog.json.pretty] else Catalog.tableLines)

/-- Shows a vault. -/
def inspectVault (choices : VaultChoices) (id : VaultId) : Outcome :=
  .ofResult (fun vault => [vault.summary.pretty]) (Failure.lift (choices.build id))

/-- Plans the life of a vault. A vault that cannot be built is complained of before an outpoint
that cannot be read. -/
def planVault (choices : VaultChoices) (utxo : String) (value parts : UInt64) (id : VaultId) :
    Outcome :=
  match choices.build id with
  | .error e => .failure [] (.ofError e)
  | .ok vault =>
    match Outpoint.ofText utxo with
    | .error e => .failure [] ⟨"Invalid UTXO '" ++ utxo ++ "': " ++ e.message, []⟩
    | .ok outpoint =>
      .ofResult (fun plan => [plan.json.pretty]) (Plan.build vault outpoint value parts)

/-! ## Running scenarios -/

/-- The scenarios with given names, or all. -/
def chosenScenarios (names : List String) : Except VaultError (List Scenario) :=
  if names.isEmpty then .ok Scenario.all else names.mapM Scenario.ofName

/-- The outcome of runs: their reports, and a complaint if some did not pass. -/
def reportOutcome (asJson : Bool) (reports : List Report) : Outcome :=
  let lines :=
    if asJson then [(Json.arr (reports.map Report.json)).pretty]
    else reports.flatMap Report.lines
  let failed := (reports.filter fun r => !r.passed).length
  if failed = 0 then .success lines
  else .failure lines ⟨toString failed ++ " of " ++ toString reports.length
    ++ " scenario run(s) failed", []⟩

/-- Runs scenarios on a prepared node. -/
def runScenarios {m : Type → Type} [Monad m] (node : Node m) (ids : Nat → VaultId)
    (scenarios : List Scenario) (asJson : Bool) : m Outcome := do
  match Scenario.authorizations with
  | .error e => return .failure [] (.ofError e)
  | .ok authorizations =>
    match ← reportAll node ids (scheduled authorizations scenarios) 0 with
    | none => return .overflow
    | some reports => return reportOutcome asJson reports

end VaultCovenant.CommandLine
