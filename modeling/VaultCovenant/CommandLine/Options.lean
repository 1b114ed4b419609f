/-!
# Options

Words of a command line as options with their values. An option is written by a long name behind
two dashes or by a letter behind one; its value is the next word, or follows an equals sign, or
follows the letter at once.
-/

namespace VaultCovenant.CommandLine

/-- Why words make no command. -/
inductive UsageError where
  /-- There is no command. -/
  | missingCommand
  /-- No command has this name. -/
  | unknownCommand (word : String)
  /-- Nothing takes this word. -/
  | unexpected (word : String)
  /-- An option has no value. -/
  | missingValue (option : String)
  /-- A flag has a value. -/
  | unneededValue (option : String)
  /-- An option has a value that it does not take. -/
  | invalidValue (option value : String)
  /-- An option that is taken once is given again. -/
  | repeated (option : String)
  /-- An option that must be given is not. -/
  | missing (option : String)
  deriving DecidableEq

/-- The wording of a complaint. -/
def UsageError.message : UsageError → String
  | missingCommand => "a command is needed"
  | unknownCommand word => "there is no command '" ++ word ++ "'"
  | unexpected word => "unexpected argument '" ++ word ++ "'"
  | missingValue option => "a value is needed for '--" ++ option ++ "'"
  | unneededValue option => "no value is taken by '--" ++ option ++ "'"
  | invalidValue option value => "invalid value '" ++ value ++ "' for '--" ++ option ++ "'"
  | repeated option => "'--" ++ option ++ "' cannot be used twice"
  | missing option => "'--" ++ option ++ "' is needed"

/-! ## What options there are -/

/-- What an option takes. -/
inductive Arity where
  /-- No value. -/
  | flag
  /-- One value. -/
  | single
  /-- One value each time that it is given. -/
  | many
  deriving DecidableEq

/-- An option of a command. -/
structure OptionSpec where
  name : String
  arity : Arity := .single
  letter : Option Char := none
  /-- Whether a word that is a negative number may be its value. -/
  negative : Bool := false
  deriving DecidableEq

/-- One use of an option with its value; a flag has the empty value. -/
structure Occurrence where
  option : OptionSpec
  value : String
  deriving DecidableEq

/-! ## Kinds of words -/

/-- Whether a word is a value: it does not start with a dash, or is nothing else. -/
def isPlain (word : String) : Bool :=
  match word.toList with
  | '-' :: _ :: _ => false
  | _ => true

/-- Whether a word is a dash and digits. -/
def isNegativeNumber (word : String) : Bool :=
  match word.toList with
  | '-' :: cs => !cs.isEmpty && cs.all Char.isDigit
  | _ => false

/-- Whether an option takes a word as its value. -/
def OptionSpec.accepts (o : OptionSpec) (word : String) : Bool :=
  isPlain word || o.negative && isNegativeNumber word

/-- A word written as an option: the option, and the value in the same word. -/
structure Written where
  option : OptionSpec
  attached : Option String

/-- Cuts a text at the first equals sign. -/
def cutEquals (cs : List Char) : String × Option String :=
  let front := cs.takeWhile (· != '=')
  match cs.drop front.length with
  | [] => (String.ofList front, none)
  | _ :: back => (String.ofList front, some (String.ofList back))

/-- What follows the letter of an option: nothing, or a value behind an equals sign or without. -/
def attachedTo : List Char → Option String
  | [] => none
  | '=' :: cs => some (String.ofList cs)
  | cs => some (String.ofList cs)

/-- The option that a word names. -/
def written? (specs : List OptionSpec) (word : String) : Option Written :=
  match word.toList with
  | '-' :: '-' :: cs => do
    let (name, attached) := cutEquals cs
    let option ← specs.find? fun o => o.name == name
    return ⟨option, attached⟩
  | '-' :: c :: cs => do
    let option ← specs.find? fun o => o.letter == some c
    return ⟨option, attachedTo cs⟩
  | _ => none

/-! ## Reading words -/

/-- The options in a list of words; `awaiting` is the one whose value comes next. Two dashes end
the options, and no command takes anything after them. -/
def occurrences (specs : List OptionSpec) :
    (awaiting : Option OptionSpec) → List String → Except UsageError (List Occurrence)
  | none, [] => .ok []
  | some option, [] => .error (.missingValue option.name)
  | some option, word :: rest => do
    if option.accepts word then
      return ⟨option, word⟩ :: (← occurrences specs none rest)
    else throw (.missingValue option.name)
  | none, word :: rest => do
    if word = "--" then
      match rest with
      | [] => return []
      | next :: _ => throw (.unexpected next)
    match written? specs word with
    | none => throw (.unexpected word)
    | some ⟨option, attached⟩ =>
      match option.arity, attached with
      | .flag, none => return ⟨option, ""⟩ :: (← occurrences specs none rest)
      | .flag, some _ => throw (.unneededValue option.name)
      | _, some value => return ⟨option, value⟩ :: (← occurrences specs none rest)
      | _, none => occurrences specs (some option) rest

/-- The values given for an option, in order. -/
def valuesOf (name : String) (given : List Occurrence) : List String :=
  (given.filter fun g => g.option.name == name).map Occurrence.value

/-- The first option that is given more often than it may. -/
def repetition? (specs : List OptionSpec) (given : List Occurrence) : Option OptionSpec :=
  specs.find? fun o => o.arity != .many && 1 < (valuesOf o.name given).length

/-- The options that words ask for. -/
def readOptions (specs : List OptionSpec) (words : List String) :
    Except UsageError (List Occurrence) := do
  let given ← occurrences specs none words
  match repetition? specs given with
  | some option => throw (.repeated option.name)
  | none => return given

/-! ## Values -/

/-- Whether a flag is given. -/
def flag (given : List Occurrence) (name : String) : Bool := !(valuesOf name given).isEmpty

/-- The value of an option, if it is given and can be read. -/
def value? {α : Type} (given : List Occurrence) (name : String) (read : String → Option α) :
    Except UsageError (Option α) :=
  match valuesOf name given with
  | [] => .ok none
  | text :: _ =>
    match read text with
    | some a => .ok (some a)
    | none => .error (.invalidValue name text)

/-- The value of an option, or another if it is not given. -/
def valueOr {α : Type} (given : List Occurrence) (name : String) (read : String → Option α)
    (fallback : α) : Except UsageError α := do
  return (← value? given name read).getD fallback

/-- The value of an option that must be given. -/
def value {α : Type} (given : List Occurrence) (name : String) (read : String → Option α) :
    Except UsageError α := do
  match ← value? given name read with
  | some a => return a
  | none => throw (.missing name)

end VaultCovenant.CommandLine
