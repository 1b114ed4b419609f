import VaultCovenant.Text.Numeral
import VaultCovenant.Bytes

/-!
# Numeric hosts

Hosts that are given by an address and need no look-up: four bytes in one to four parts, each part
decimal, octal behind a zero or hexadecimal behind `0x`; or eight groups of hexadecimal digits, a
run of zero groups left out at most once.

Results:
* `parts_ne_nil`: splitting a text leaves at least one part.
-/

namespace VaultCovenant.Host

/-- The parts of a text between separators. -/
def parts (separator : Char) : List Char → List (List Char)
  | [] => [[]]
  | c :: cs =>
    match parts separator cs with
    | [] => [[c]]
    | first :: rest => if c = separator then [] :: first :: rest else (c :: first) :: rest

theorem parts_ne_nil (separator : Char) (cs : List Char) : parts separator cs ≠ [] := by
  cases cs with
  | nil => simp [parts]
  | cons c cs =>
    simp only [parts]
    repeat' split
    all_goals simp

/-! ## Four bytes -/

/-- The number of a nonempty list of digits to a base. -/
def digits? (base : Nat) (cs : List Char) : Option Nat := do
  let values ← cs.mapM Bytes.hexValue?
  if !values.isEmpty && values.all (· < base) then
    some (values.foldl (fun n value => base * n + value) 0)
  else none

/-- The number of one part of a four-byte address. -/
def part? : List Char → Option Nat
  | '0' :: 'x' :: cs | '0' :: 'X' :: cs => digits? 16 cs
  | '0' :: c :: cs => digits? 8 (c :: cs)
  | cs => Text.Numeral.digits? cs

/-- Whether numbers make up four bytes: one byte each, and what is left for the last. -/
def fitFourBytes (numbers : List Nat) : Bool :=
  match numbers.reverse with
  | [] => false
  | last :: front =>
    front.length < 4 && front.all (· < 256) && last < Nat.pow 256 (4 - front.length)

/-- Whether a text is an address of four bytes. -/
def isFourBytes (cs : List Char) : Bool :=
  match (parts '.' cs).mapM part? with
  | some numbers => fitFourBytes numbers
  | none => false

/-! ## Eight groups -/

/-- How many groups a part stands for, if it is one: a part with points stands for two. -/
def groupCount? (cs : List Char) : Option Nat :=
  if cs.contains '.' then
    if isFourBytes cs ∧ (parts '.' cs).length = 4 then some 2 else none
  else if cs.length ≤ 4 then (digits? 16 cs).map fun _ => 1
  else none

/-- How many groups stand between single colons; only the last may have points. -/
def groups? (cs : List Char) : Option Nat :=
  if cs.isEmpty then some 0
  else do
    let all := parts ':' cs
    if all.dropLast.any (·.contains '.') then none
    else return (← all.mapM groupCount?).foldl (· + ·) 0

/-- The text before and after the first double colon. -/
def splitGap : List Char → Option (List Char × List Char)
  | ':' :: ':' :: cs => some ([], cs)
  | c :: cs => (splitGap cs).map fun (front, back) => (c :: front, back)
  | [] => none

/-- Whether a text is an address of eight groups. -/
def isEightGroups (cs : List Char) : Bool :=
  match splitGap cs with
  | none => groups? cs == some 8
  | some (front, back) =>
    match groups? front, groups? back with
    | some m, some n => m + n < 8 && !front.contains '.'
    | _, _ => false

/-- Whether a host is given by its address. -/
def isNumeric (host : String) : Bool := isFourBytes host.toList || isEightGroups host.toList

end VaultCovenant.Host
