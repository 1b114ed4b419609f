import VaultCovenant.Amount.Basic
import VaultCovenant.Amount.Binary64

/-!
# Text of amounts

Amounts in the unit that suits their size. Thousands are exact; whole coins are shown as the
double-precision number nearest to the amount, so that the last places of very large amounts
differ from the exact ones.

Results:
* `length_padded`: padding reaches the wanted length.
-/

namespace VaultCovenant

/-- Digits with zeros in front up to a length. -/
def padded (length : Nat) (digits : List Char) : List Char :=
  List.replicate (length - digits.length) '0' ++ digits

theorem length_padded (length : Nat) (digits : List Char) :
    (padded length digits).length = max length digits.length := by
  simp [padded]
  omega

/-- `n / 10 ^ places` with that many places after the point. -/
def fixedPoint (places n : Nat) : String :=
  let scale := Nat.pow 10 places
  String.ofList (Nat.toDigits 10 (n / scale) ++ '.' :: padded places (Nat.toDigits 10 (n % scale)))

namespace Sats

/-- How many units make a coin. -/
def perCoin : Nat := 100000000

/-- The amount in coins, as double-precision division gives it. -/
def coins (amount : Sats) : Binary64 := (Binary64.ofRatio amount.toNat 1).divNat perCoin

/-- The amount in coins with eight places. -/
def coinText (amount : Sats) : String := fixedPoint 8 (amount.coins.shifted 8) ++ " BTC"

/-- The amount in the unit that suits its size. -/
def text (amount : Sats) : String :=
  if amount.toNat < 1000 then toString amount.toNat ++ " sats"
  else if amount.toNat < perCoin then fixedPoint 3 amount.toNat ++ " K sats"
  else amount.coinText

/-- The amount in the smallest unit and in coins. -/
def dualText (amount : Sats) : String :=
  toString amount.toNat ++ " sats (" ++ amount.coinText ++ ")"

end Sats

end VaultCovenant
