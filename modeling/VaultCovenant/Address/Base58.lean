import VaultCovenant.Hash.Sha256

/-!
# Base-58 text with a checksum

Byte strings as numbers in base 58, every leading zero byte as a leading character of its own, with
four bytes of a double hash behind the data.
-/

namespace VaultCovenant.Base58

/-- The characters of the numbers below 58. -/
def alphabet : List Char := "123456789ABCDEFGHJKLMNPQRSTUVWXYZabcdefghijkmnopqrstuvwxyz".toList

/-- The character of a number below 58. -/
def digit (n : Nat) : Char := alphabet.getD n '1'

/-- The number of a character. -/
def digitValue? (c : Char) : Option Nat := alphabet.findIdx? (· == c)

/-- The digits of a number to a base above one, least significant first. -/
def digitsLE (base n : Nat) : List Nat :=
  if _h : base < 2 ∨ n = 0 then [] else n % base :: digitsLE base (n / base)
termination_by n
decreasing_by exact Nat.div_lt_self (by omega) (by omega)

/-- The text of a byte string. -/
def encode (bytes : Bytes) : List Char :=
  (bytes.takeWhile (· == 0)).map (fun _ => '1')
    ++ ((digitsLE 58 (Bytes.toNatBE bytes)).map digit).reverse

/-- The byte string of a text. -/
def decode? (cs : List Char) : Option Bytes := do
  let values ← cs.mapM digitValue?
  let n := values.foldl (fun n value => 58 * n + value) 0
  return (values.takeWhile (· == 0)).map (fun _ => 0)
    ++ ((digitsLE 256 n).map UInt8.ofNat).reverse

/-- The first four bytes of the double hash. -/
def checksum (data : Bytes) : Bytes := (sha256d data).bytes.take 4

/-- The text of data with its checksum. -/
def encodeChecked (data : Bytes) : String := String.ofList (encode (data ++ checksum data))

/-- The data of a text with the right checksum. -/
def decodeChecked? (text : String) : Option Bytes := do
  let bytes ← decode? text.toList
  let data := bytes.take (bytes.length - 4)
  if 4 ≤ bytes.length ∧ bytes.drop (bytes.length - 4) = checksum data then some data else none

end VaultCovenant.Base58
