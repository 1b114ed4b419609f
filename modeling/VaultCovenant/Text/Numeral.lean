/-!
# Numerals

Decimal integers as they are typed: digits, possibly behind a sign, and nothing else.
-/

namespace VaultCovenant.Text.Numeral

/-- The number of a nonempty list of decimal digits. -/
def digits? (cs : List Char) : Option Nat :=
  if !cs.isEmpty && cs.all Char.isDigit then
    some (cs.foldl (fun n c => 10 * n + (c.toNat - 48)) 0)
  else none

/-- A natural number, possibly behind a plus sign. -/
def natural? : List Char → Option Nat
  | '+' :: cs => digits? cs
  | cs => digits? cs

/-- An integer, possibly behind a sign. -/
def integer? : List Char → Option Int
  | '-' :: cs => (digits? cs).map fun n => -(n : Int)
  | cs => (natural? cs).map fun n => (n : Int)

/-- A natural number below a bound. -/
def naturalBelow? (bound : Nat) (text : String) : Option Nat := do
  let n ← natural? text.toList
  if n < bound then some n else none

/-- A number of 64 bits. -/
def word? (text : String) : Option UInt64 :=
  (naturalBelow? 0x10000000000000000 text).map UInt64.ofNat

/-- A signed number of 64 bits. -/
def signedWord? (text : String) : Option Int64 := do
  let n ← integer? text.toList
  if -0x8000000000000000 ≤ n ∧ n < 0x8000000000000000 then some (Int64.ofInt n) else none

end VaultCovenant.Text.Numeral
