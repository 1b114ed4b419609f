import VaultCovenant.CommandLine.Outcome
import VaultCovenant.Rpc.Connection

/-!
# The program

Carries out the command that the words of a command line ask for. Only runs of scenarios need a
node; they connect to it once their names are known to be right.
-/

namespace VaultCovenant.CommandLine

/-- Where the program runs: the values of variables, the names of vaults, and how to connect to a
node. -/
structure Environment (m : Type → Type) where
  lookup : String → Option String
  ids : Nat → VaultId
  connect : NodeSettings → m (Except VaultError (Connection m))

variable {m : Type → Type} [Monad m]

/-- Connects to a node, prepares it and runs scenarios. -/
def runOnNode (env : Environment m) (scenarios : List Scenario) (asJson : Bool) : m Outcome := do
  match ← env.connect (.ofEnvironment env.lookup) with
  | .error e => return .failure [] (.during "connecting to the regtest node" e)
  | .ok connection =>
    match ← connection.prepare.run with
    | .error e => return .failure [] (.during "preparing the regtest wallet" e)
    | .ok () => runScenarios connection.node env.ids scenarios asJson

/-- Runs the scenarios with given names. -/
def runCommand (env : Environment m) (names : List String) (asJson : Bool) : m Outcome :=
  match chosenScenarios names with
  | .error e => pure (.failure [] (.ofError e))
  | .ok scenarios => runOnNode env scenarios asJson

/-- Carries out the command of a command line. -/
def perform (env : Environment m) (words : List String) : m Outcome :=
  match Command.ofWords words with
  | .error e => pure (.ofUsage e)
  | .ok (.catalog asJson) => pure (listCatalog asJson)
  | .ok (.inspect choices) => pure (inspectVault choices (env.ids 0))
  | .ok (.plan choices utxo value parts) =>
    pure (planVault choices utxo value parts (env.ids 0))
  | .ok (.run names asJson) => runCommand env names asJson

end VaultCovenant.CommandLine
