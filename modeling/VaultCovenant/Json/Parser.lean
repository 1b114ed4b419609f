import VaultCovenant.Json.Basic
import VaultCovenant.Bytes

/-!
# Reading JSON

Reads one value from its text. Every reader takes the characters ahead and gives what it read with
the characters left; none reads past the first character that does not belong to the value.
-/

namespace VaultCovenant.Json

/-- A reader of a value, with the characters left. -/
abbrev Reader (α : Type) := List Char → Option (α × List Char)

/-- Leaves out blanks. -/
def skipBlanks (cs : List Char) : List Char :=
  cs.dropWhile fun c => c = ' ' || c = '\n' || c = '\r' || c = '\t'

/-! ## Strings -/

/-- The number of four hexadecimal digits. -/
def hexUnit : Reader Nat
  | a :: b :: c :: d :: cs => do
    let a ← Bytes.hexValue? a
    let b ← Bytes.hexValue? b
    let c ← Bytes.hexValue? c
    let d ← Bytes.hexValue? d
    return (((a * 16 + b) * 16 + c) * 16 + d, cs)
  | _ => none

/-- The character of one or two units behind `\u`; a high surrogate needs a low one after it. -/
def unitEscape (cs : List Char) : Option (Char × List Char) := do
  let (unit, cs) ← hexUnit cs
  if 0xd800 ≤ unit ∧ unit < 0xdc00 then
    match cs with
    | '\\' :: 'u' :: cs =>
      let (low, cs) ← hexUnit cs
      if 0xdc00 ≤ low ∧ low < 0xe000 then
        return (Char.ofNat (0x10000 + (unit - 0xd800) * 0x400 + (low - 0xdc00)), cs)
      else none
    | _ => none
  else if 0xdc00 ≤ unit ∧ unit < 0xe000 then none
  else return (Char.ofNat unit, cs)

/-- The character named behind a backslash. -/
def simpleEscape : Char → Option Char
  | '"' => some '"'
  | '\\' => some '\\'
  | '/' => some '/'
  | 'b' => some (Char.ofNat 8)
  | 'f' => some (Char.ofNat 12)
  | 'n' => some '\n'
  | 'r' => some '\r'
  | 't' => some '\t'
  | _ => none

/-- The rest of a string behind its opening quote, at most `fuel` characters of it. -/
def stringRest : (fuel : Nat) → (reversed : List Char) → Reader String
  | 0, _, _ => none
  | fuel + 1, reversed, cs =>
    match cs with
    | '"' :: cs => some (String.ofList reversed.reverse, cs)
    | '\\' :: 'u' :: cs => do
      let (c, cs) ← unitEscape cs
      stringRest fuel (c :: reversed) cs
    | '\\' :: c :: cs => do
      let c ← simpleEscape c
      stringRest fuel (c :: reversed) cs
    | c :: cs => if c.toNat < 32 then none else stringRest fuel (c :: reversed) cs
    | [] => none

/-! ## Numbers -/

/-- The number of a list of decimal digits. -/
def digitsValue (digits : List Char) : Nat :=
  digits.foldl (fun n c => 10 * n + (c.toNat - 48)) 0

/-- The digits at the front and what follows them. -/
def splitDigits (cs : List Char) : List Char × List Char := cs.span Char.isDigit

/-- The fraction behind an integer part, if there is one. -/
def fractionPart : Reader (List Char)
  | '.' :: cs =>
    let (digits, cs) := splitDigits cs
    if digits.isEmpty then none else some (digits, cs)
  | cs => some ([], cs)

/-- The digits of an exponent with a sign. -/
def exponentDigits (negative : Bool) (cs : List Char) : Option (Option Int × List Char) :=
  let (digits, cs) := splitDigits cs
  if digits.isEmpty then none
  else
    let n : Int := digitsValue digits
    some (some (if negative then -n else n), cs)

/-- The exponent behind a number, if there is one. -/
def exponentPart : Reader (Option Int)
  | c :: cs =>
    if c = 'e' ∨ c = 'E' then
      match cs with
      | '-' :: cs => exponentDigits true cs
      | '+' :: cs => exponentDigits false cs
      | cs => exponentDigits false cs
    else some (none, c :: cs)
  | [] => some (none, [])

/-- Whether an integer has 64 bits, with a sign or without. -/
def isWord (n : Int) : Bool := -0x8000000000000000 ≤ n && n < 0x10000000000000000

/-- A number. The integer part has no zero in front; minus zero and integers beyond 64 bits are
kept as decimal numbers. -/
def number (cs : List Char) : Option (Json × List Char) := do
  let (negative, cs) := match cs with
    | '-' :: cs => (true, cs)
    | cs => (false, cs)
  let (whole, cs) := splitDigits cs
  if whole.isEmpty ∨ (whole.head? = some '0' ∧ whole.length ≠ 1) then none
  else
    let (fraction, cs) ← fractionPart cs
    let (exponent, cs) ← exponentPart cs
    let n : Int := digitsValue (whole ++ fraction)
    let n := if negative then -n else n
    if fraction.isEmpty ∧ exponent.isNone ∧ isWord n ∧ ¬(negative ∧ n = 0) then
      return (int n, cs)
    else return (decimal n (exponent.getD 0 - fraction.length), cs)

/-! ## Values -/

/-- Takes a word off the front. -/
def expect (word : List Char) (cs : List Char) : Option (List Char) :=
  if word.isPrefixOf cs then some (cs.drop word.length) else none

mutual

/-- A value, at most `fuel` of its parts. -/
def value : (fuel : Nat) → Reader Json
  | 0, _ => none
  | fuel + 1, cs =>
    match skipBlanks cs with
    | 'n' :: 'u' :: 'l' :: 'l' :: cs => some (null, cs)
    | 't' :: 'r' :: 'u' :: 'e' :: cs => some (bool true, cs)
    | 'f' :: 'a' :: 'l' :: 's' :: 'e' :: cs => some (bool false, cs)
    | '"' :: cs => do
      let (text, cs) ← stringRest fuel [] cs
      return (str text, cs)
    | '[' :: cs =>
      match skipBlanks cs with
      | ']' :: cs => some (arr [], cs)
      | cs => items fuel [] cs
    | '\x7b' :: cs =>
      match skipBlanks cs with
      | '\x7d' :: cs => some (obj [], cs)
      | cs => fields fuel [] cs
    | cs => number cs

/-- The items of an array up to its end. -/
def items : (fuel : Nat) → (reversed : List Json) → Reader Json
  | 0, _, _ => none
  | fuel + 1, reversed, cs => do
    let (item, cs) ← value fuel cs
    match skipBlanks cs with
    | ',' :: cs => items fuel (item :: reversed) cs
    | ']' :: cs => some (arr (item :: reversed).reverse, cs)
    | _ => none

/-- The fields of an object up to its end. -/
def fields : (fuel : Nat) → (reversed : List (String × Json)) → Reader Json
  | 0, _, _ => none
  | fuel + 1, reversed, cs => do
    let cs ← expect ['"'] (skipBlanks cs)
    let (name, cs) ← stringRest fuel [] cs
    let cs ← expect [':'] (skipBlanks cs)
    let (item, cs) ← value fuel cs
    match skipBlanks cs with
    | ',' :: cs => fields fuel ((name, item) :: reversed) cs
    | '\x7d' :: cs => some (obj ((name, item) :: reversed).reverse, cs)
    | _ => none

end

/-- The value that a text stands for, if it is one value with nothing but blanks around it. -/
def parse? (text : String) : Option Json := do
  let cs := text.toList
  let (result, rest) ← value (cs.length + 1) cs
  if (skipBlanks rest).isEmpty then return result else none

end VaultCovenant.Json
