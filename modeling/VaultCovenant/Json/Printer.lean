import VaultCovenant.Json.Basic
import VaultCovenant.Bytes

/-!
# JSON text

The text of a value on one line, and indented by two blanks a level with one item a line.

Results:
* `Json.escape_of_plain`: a character that needs no escape is written as it is.
-/

namespace VaultCovenant.Json

/-! ## Scalars -/

/-- The characters of a string's text inside its quotes. Only quotes, backslashes and the controls
below the blank are escaped. -/
def escape (c : Char) : List Char :=
  if c = '"' then ['\\', '"']
  else if c = '\\' then ['\\', '\\']
  else if c = '\n' then ['\\', 'n']
  else if c = '\r' then ['\\', 'r']
  else if c = '\t' then ['\\', 't']
  else if c.toNat = 8 then ['\\', 'b']
  else if c.toNat = 12 then ['\\', 'f']
  else if c.toNat < 32 then
    ['\\', 'u', '0', '0', Bytes.hexDigit (c.toNat / 16), Bytes.hexDigit (c.toNat % 16)]
  else [c]

theorem escape_of_plain {c : Char} (quote : c ≠ '"') (backslash : c ≠ '\\')
    (printable : 32 ≤ c.toNat) : escape c = [c] := by
  have newline : c ≠ '\n' := by rintro rfl; simp at printable
  have feed : c ≠ '\r' := by rintro rfl; simp at printable
  have tab : c ≠ '\t' := by rintro rfl; simp at printable
  have h8 : c.toNat ≠ 8 := by omega
  have h12 : c.toNat ≠ 12 := by omega
  simp [escape, quote, backslash, newline, feed, tab, h8, h12, Nat.not_lt.2 printable]

/-- A string between quotes. -/
def quote (text : String) : String :=
  String.ofList ('"' :: text.toList.flatMap escape ++ ['"'])

/-- The text of a decimal number, always with a point. -/
def decimalText (digits exponent : Int) : String :=
  let sign := if digits < 0 then "-" else ""
  let n := digits.natAbs
  let places := exponent.natAbs
  let scale := Nat.pow 10 places
  if 0 ≤ exponent then sign ++ toString (n * scale) ++ ".0"
  else
    let fraction := toString (n % scale)
    sign ++ toString (n / scale) ++ "."
      ++ String.ofList (List.replicate (places - fraction.length) '0') ++ fraction

/-! ## On one line -/

mutual

/-- The text on one line without blanks. -/
def render : Json → String
  | null => "null"
  | bool true => "true"
  | bool false => "false"
  | int value => toString value
  | decimal digits exponent => decimalText digits exponent
  | str text => quote text
  | arr items => "[" ++ ",".intercalate (renderItems items) ++ "]"
  | obj fields => "\x7b" ++ ",".intercalate (renderFields fields) ++ "\x7d"

/-- The text of every item. -/
def renderItems : List Json → List String
  | [] => []
  | item :: rest => render item :: renderItems rest

/-- The text of every field. -/
def renderFields : List (String × Json) → List String
  | [] => []
  | (name, value) :: rest => (quote name ++ ":" ++ render value) :: renderFields rest

end

/-! ## Indented -/

/-- A new line and two blanks a level. -/
def newline (level : Nat) : String := String.ofList ('\n' :: List.replicate (2 * level) ' ')

/-- Parts between brackets, one a line, a level below the brackets; none leave the brackets
together. -/
def bracketed (first last : String) (level : Nat) (parts : List String) : String :=
  if parts.isEmpty then first ++ last
  else
    let line := newline (level + 1)
    first ++ line ++ ("," ++ line).intercalate parts ++ newline level ++ last

mutual

/-- The indented text of a value at a level. -/
def prettyAt (level : Nat) : Json → String
  | arr items => bracketed "[" "]" level (prettyItems (level + 1) items)
  | obj fields => bracketed "\x7b" "\x7d" level (prettyFields (level + 1) fields)
  | value => render value

/-- The indented text of every item. -/
def prettyItems (level : Nat) : List Json → List String
  | [] => []
  | item :: rest => prettyAt level item :: prettyItems level rest

/-- The indented text of every field. -/
def prettyFields (level : Nat) : List (String × Json) → List String
  | [] => []
  | (name, value) :: rest =>
    (quote name ++ ": " ++ prettyAt level value) :: prettyFields level rest

end

/-- The indented text of a value. -/
def pretty (value : Json) : String := prettyAt 0 value

/-! ## Fields in order of their names -/

/-- Puts a field at its place by name. -/
def insertField (field : String × Json) : List (String × Json) → List (String × Json)
  | [] => [field]
  | f :: rest => if f.1 < field.1 then f :: insertField field rest else field :: f :: rest

mutual

/-- The value with the fields of every object in ascending order of their names. -/
def sorted : Json → Json
  | arr items => arr (sortedItems items)
  | obj fields => obj (sortedFields fields)
  | value => value

/-- Every item with sorted fields. -/
def sortedItems : List Json → List Json
  | [] => []
  | item :: rest => sorted item :: sortedItems rest

/-- Fields in ascending order, with sorted fields inside. -/
def sortedFields : List (String × Json) → List (String × Json)
  | [] => []
  | (name, value) :: rest => insertField (name, sorted value) (sortedFields rest)

end

end VaultCovenant.Json
