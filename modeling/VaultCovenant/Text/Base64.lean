import VaultCovenant.Bits

/-!
# Base-64 text

Byte strings by 64 characters, six bits each, filled up to a multiple of four characters.

Results:
* `four_dvd_length_encode`: the text has a multiple of four characters.
-/

namespace VaultCovenant.Text.Base64

/-- The character of a number below 64. -/
def digit (n : Nat) : Char :=
  if n < 26 then Char.ofNat (65 + n)
  else if n < 52 then Char.ofNat (71 + n)
  else if n < 62 then Char.ofNat (n - 4)
  else if n = 62 then '+' else '/'

/-- Characters filled up to a multiple of four. -/
def fill (cs : List Char) : List Char := cs ++ List.replicate ((4 - cs.length % 4) % 4) '='

/-- The characters of a byte string. -/
def encode (bytes : List UInt8) : List Char :=
  fill ((Bits.toNumbers 6 (Bits.ofBytes bytes)).map digit)

/-- The base-64 text of a byte string. -/
def text (bytes : List UInt8) : String := String.ofList (encode bytes)

theorem four_dvd_length_encode (bytes : List UInt8) : 4 ∣ (encode bytes).length := by
  simp only [encode, fill, List.length_append, List.length_replicate]
  omega

end VaultCovenant.Text.Base64
