import VaultCovenant.CommandLine.Options
import VaultCovenant.Text.Numeral
import VaultCovenant.Vault.Basic

/-!
# Commands

The four commands with their options.
-/

namespace VaultCovenant.CommandLine

/-- The authorizations that can be chosen. -/
inductive AuthorizationChoice where
  | none
  | key
  deriving DecidableEq

/-- The choices for a vault. -/
structure VaultChoices where
  recoverySecret : UInt64
  triggerSecret : UInt64
  delay : Int64
  authorization : AuthorizationChoice
  scriptPathOnly : Bool
  deriving DecidableEq

/-- What is to be done. -/
inductive Command where
  /-- Lists the faults. -/
  | catalog (asJson : Bool)
  /-- Shows a vault. -/
  | inspect (choices : VaultChoices)
  /-- Plans the life of a vault that is funded by an output. -/
  | plan (choices : VaultChoices) (utxo : String) (value : UInt64) (parts : UInt64)
  /-- Runs scenarios on a node; all of them if none is named. -/
  | run (scenarios : List String) (asJson : Bool)
  deriving DecidableEq

/-! ## Options of the commands -/

/-- Prints JSON. -/
def jsonOption : OptionSpec := { name := "json", arity := .flag }

/-- The options that describe a vault. -/
def vaultOptions : List OptionSpec := [
  { name := "recovery-secret" },
  { name := "trigger-secret" },
  { name := "delay", letter := some 'd', negative := true },
  { name := "auth" },
  { name := "script-path-only", arity := .flag }]

/-- The options that describe the coin and the withdrawal of a plan. -/
def planOptions : List OptionSpec := [{ name := "utxo" }, { name := "value" }, { name := "split" }]

/-- The option that names a scenario. -/
def scenarioOption : OptionSpec := { name := "scenario", arity := .many, letter := some 's' }

/-! ## Reading commands -/

/-- The authorization with a name. -/
def authorizationChoice? : String → Option AuthorizationChoice
  | "none" => some .none
  | "key" => some .key
  | _ => Option.none

/-- How many outputs a planned withdrawal has, unless a number is given. -/
def defaultParts : UInt64 := 3

/-- The choices for a vault. -/
def vaultChoices (given : List Occurrence) : Except UsageError VaultChoices := do
  let usual : VaultParams := {}
  return {
    recoverySecret := ← valueOr given "recovery-secret" Text.Numeral.word? usual.recoverySecret
    triggerSecret := ← valueOr given "trigger-secret" Text.Numeral.word? usual.triggerSecret
    delay := ← valueOr given "delay" Text.Numeral.signedWord? usual.spendDelay
    authorization := ← valueOr given "auth" authorizationChoice? .none
    scriptPathOnly := flag given "script-path-only" }

/-- The command that words ask for. -/
def Command.ofWords : List String → Except UsageError Command
  | [] => .error .missingCommand
  | "catalog" :: words => do
    let given ← readOptions [jsonOption] words
    return .catalog (flag given "json")
  | "inspect" :: words => do
    let given ← readOptions vaultOptions words
    return .inspect (← vaultChoices given)
  | "plan" :: words => do
    let given ← readOptions (vaultOptions ++ planOptions) words
    return .plan (← vaultChoices given) (← value given "utxo" some)
      (← value given "value" Text.Numeral.word?)
      (← valueOr given "split" Text.Numeral.word? defaultParts)
  | "run" :: words => do
    let given ← readOptions [scenarioOption, jsonOption] words
    return .run (valuesOf "scenario" given) (flag given "json")
  | word :: _ => .error (.unknownCommand word)

end VaultCovenant.CommandLine
