import VaultCovenant.Bits
import VaultCovenant.Bytes

/-!
# Addresses of witness programs

The text of a witness program: a word for the network, a separator, and the version, the program
and a checksum by 32 characters, five bits each (BIP-173 and BIP-350).

Results:
* `length_checksum`: a checksum has six numbers.
-/

namespace VaultCovenant.Bech32

/-! ## Characters -/

/-- The characters of the numbers below 32. -/
def alphabet : List Char := "qpzry9x8gf2tvdw0s3jn54khce6mua7l".toList

/-- The character of a number below 32. -/
def digit (n : Nat) : Char := alphabet.getD n 'q'

/-- The number of a character. -/
def digitValue? (c : Char) : Option Nat := alphabet.findIdx? (· == c)

/-! ## The checksum -/

/-- The constants by which the five carried bits enter the checksum. -/
def generators : List UInt32 := [0x3b6a57b2, 0x26508e6d, 0x1ea119fa, 0x3d4233dd, 0x2a1462b3]

/-- Takes one number into the checksum. -/
def absorb (state : UInt32) (value : Nat) : UInt32 :=
  let top := state >>> 25
  let next := ((state &&& 0x1ffffff) <<< 5) ^^^ UInt32.ofNat value
  (generators.zipIdx).foldl
    (fun acc (generator, i) => if top.toNat.testBit i then acc ^^^ generator else acc) next

/-- The checksum of a list of numbers. -/
def residue (values : List Nat) : UInt32 := values.foldl absorb 1

/-- The network's word as it enters the checksum. -/
def expand (word : List Char) : List Nat :=
  word.map (fun c => c.toNat / 32) ++ 0 :: word.map (fun c => c.toNat % 32)

/-- What the checksum comes to: one for version zero, another constant for later versions. -/
def target (version : Nat) : UInt32 := if version = 0 then 1 else 0x2bc830a3

/-- The six numbers that make the checksum come out. -/
def checksum (word : List Char) (version : Nat) (values : List Nat) : List Nat :=
  let rest := residue (expand word ++ values ++ List.replicate 6 0) ^^^ target version
  (List.range 6).map fun i => (rest.toNat / Nat.pow 32 (5 - i)) % 32

theorem length_checksum (word : List Char) (version : Nat) (values : List Nat) :
    (checksum word version values).length = 6 := by
  simp [checksum]

/-! ## Writing and reading -/

/-- The text of a witness program. -/
def encode (word : String) (version : Nat) (program : Bytes) : String :=
  let values := version :: Bits.toNumbers 5 (Bits.ofBytes program)
  let digits := (values ++ checksum word.toList version values).map digit
  String.ofList (word.toList ++ '1' :: digits)

/-- The characters before and after the last separator. -/
def splitLast (cs : List Char) : Option (List Char × List Char) :=
  let back := cs.reverse.takeWhile (· != '1')
  if back.length < cs.length then
    some (cs.take (cs.length - back.length - 1), back.reverse)
  else none

/-- The bytes of numbers of five bits; at most four bits are left over, all of them zero. -/
def bytes? (values : List Nat) : Option Bytes :=
  let bits := values.flatMap (Bits.ofNat 5)
  let whole := bits.length / 8 * 8
  let rest := bits.drop whole
  if rest.length ≤ 4 && rest.all (!·) then
    some ((Bits.groups 8 (bits.take whole)).map fun group => UInt8.ofNat (Bits.toNat group))
  else none

/-- Whether a program has a length that its version allows. -/
def isProgramLength (version length : Nat) : Bool :=
  if version = 0 then length == 20 || length == 32 else 2 ≤ length && length ≤ 40

/-- The network's word in small letters, the version and the program of a text. -/
def decode? (text : String) : Option (String × Nat × Bytes) := do
  let cs := text.toList
  let lower := cs.map Char.toLower
  if cs ≠ lower ∧ cs ≠ cs.map Char.toUpper then none
  else if 90 < cs.length ∨ !cs.all (fun c => 33 ≤ c.toNat && c.toNat ≤ 126) then none
  else
    let (word, digits) ← splitLast lower
    let values ← digits.mapM digitValue?
    let version ← values.head?
    if word.isEmpty ∨ values.length < 7 ∨ 16 < version then none
    else if residue (expand word ++ values) ≠ target version then none
    else
      let program ← bytes? ((values.drop 1).take (values.length - 7))
      if isProgramLength version program.length then
        some (String.ofList word, version, program)
      else none

end VaultCovenant.Bech32
