import VaultCovenant.Catalog
import VaultCovenant.Json.Printer
import VaultCovenant.Lifecycle
import VaultCovenant.Node
import VaultCovenant.Scenario.Basic
import VaultCovenant.Text.Quoted

/-!
# Reports of scenarios

Every broadcast of a run, what was expected of it and what the node said, and where the vaults
stood at the end.
-/

namespace VaultCovenant

/-- What a node is expected to say. -/
inductive Expectation where
  | accept
  | reject (rejection : Rejection)
  deriving DecidableEq

namespace Expectation

/-- Whether a verdict is the expected one, down to the reason. -/
def isMetBy : Expectation → Verdict → Bool
  | accept, .accepted _ => true
  | reject rejection, .rejected reason => rejection.isMetBy reason
  | _, _ => false

/-- An expectation in running text. -/
def text : Expectation → String
  | accept => "Accept"
  | reject rejection =>
    "Reject(Rejection \x7b kind: " ++ rejection.kind.name ++ ", reason: "
      ++ Text.quoted rejection.reason ++ " \x7d)"

end Expectation

/-- One broadcast. -/
structure Step where
  label : String
  txid : Txid
  expected : Expectation
  observed : String
  observedKind : Option RejectionKind
  passed : Bool
  deriving DecidableEq

namespace Step

/-- The record of a broadcast and the node's verdict. -/
def record (label : String) (txid : Txid) (expected : Expectation) (verdict : Verdict) : Step where
  label
  txid
  expected
  observed := match verdict with
    | .accepted _ => "accepted"
    | .rejected reason => reason
  observedKind := match verdict with
    | .accepted _ => none
    | .rejected reason => RejectionKind.classify reason
  passed := expected.isMetBy verdict

end Step

/-- The report of one run. -/
structure Report where
  scenario : Scenario
  authorization : String
  steps : List Step
  finalStates : List (VaultId × VaultState)
  error : Option String
  deriving DecidableEq

namespace Report

/-- Whether the run came to its end and every step passed. -/
def passed (r : Report) : Bool := r.error.isNone && r.steps.all Step.passed

/-- The steps that did not pass. -/
def failures (r : Report) : List Step := r.steps.filter fun step => !step.passed

/-! ## As JSON -/

/-- An expectation as JSON. -/
def expectationJson : Expectation → Json
  | .accept => .str "accept"
  | .reject rejection => .obj [("reject", rejection.json)]

/-- A step as JSON. -/
def stepJson (s : Step) : Json :=
  .obj [
    ("label", .str s.label),
    ("txid", .str s.txid.text),
    ("expected", expectationJson s.expected),
    ("observed", .str s.observed),
    ("observed_kind", .optional (fun kind => .str kind.name) s.observedKind),
    ("passed", .bool s.passed)]

/-- A report as JSON, with a given value for the final states. -/
def jsonWith (finalStates : Json) (r : Report) : Json :=
  .obj [
    ("scenario", .str r.scenario.name),
    ("recovery_auth", .str r.authorization),
    ("steps", .arr (r.steps.map stepJson)),
    ("final_states", finalStates),
    ("error", .optional .str r.error)]

/-- A report as JSON; the final states are listed under the ids of their vaults. -/
def json (r : Report) : Json :=
  r.jsonWith (.obj (r.finalStates.map fun (id, state) => (toString id.toNat, .str state.name)))

/-! ## As lines of text -/

/-- The lines of a report: the outcome, the steps that did not pass, and why the run was ended. -/
def lines (r : Report) : List String :=
  let status := if r.passed then "PASS" else "FAIL"
  (status ++ " " ++ r.scenario.name ++ " (auth " ++ r.authorization ++ ", "
    ++ toString r.steps.length ++ " steps)")
    :: (r.failures.map fun s =>
      "    " ++ s.label ++ ": expected " ++ s.expected.text ++ ", observed " ++ s.observed)
    ++ (r.error.map fun error => "    aborted: " ++ error).toList

end Report

end VaultCovenant
