/-!
# Byte strings

Byte strings, numbers of a fixed width inside them, their hexadecimal text, and byte strings of
exactly 32 bytes.

Results:
* `length_littleEndian`, `length_bigEndian`: a number of a given width takes that many bytes.
* `Bytes32.ext_bytes`: a 32-byte value is determined by its bytes.
-/

namespace VaultCovenant

/-- Byte strings: scripts, keys, hashes and serialized records. -/
abbrev Bytes := List UInt8

namespace Bytes

/-! ## Numbers of a fixed width -/

/-- The lowest `width` base-256 digits of `n`, least significant first. -/
def littleEndian : (width : Nat) → (n : Nat) → Bytes
  | 0, _ => []
  | width + 1, n => UInt8.ofNat n :: littleEndian width (n / 256)

/-- The lowest `width` base-256 digits of `n`, most significant first. -/
def bigEndian (width n : Nat) : Bytes := (littleEndian width n).reverse

/-- The number with the given base-256 digits, least significant first. -/
def toNatLE : Bytes → Nat
  | [] => 0
  | b :: bs => b.toNat + 256 * toNatLE bs

/-- The number with the given base-256 digits, most significant first. -/
def toNatBE (bs : Bytes) : Nat := bs.foldl (fun n b => 256 * n + b.toNat) 0

@[simp] theorem length_littleEndian (width n : Nat) : (littleEndian width n).length = width := by
  induction width generalizing n with
  | zero => rfl
  | succ width ih => simp [littleEndian, ih]

@[simp] theorem length_bigEndian (width n : Nat) : (bigEndian width n).length = width := by
  simp [bigEndian]

/-- A run of `n` zero bytes. -/
def zeros (n : Nat) : Bytes := List.replicate n 0

/-! ## Hexadecimal text -/

/-- The lower-case hexadecimal digit of a number below 16. -/
def hexDigit (n : Nat) : Char := Char.ofNat (if n < 10 then 48 + n else 87 + n)

/-- The value of a hexadecimal digit of either case. -/
def hexValue? (c : Char) : Option Nat :=
  if '0' ≤ c ∧ c ≤ '9' then some (c.toNat - 48)
  else if 'a' ≤ c ∧ c ≤ 'f' then some (c.toNat - 87)
  else if 'A' ≤ c ∧ c ≤ 'F' then some (c.toNat - 55)
  else none

/-- Two lower-case digits a byte. -/
def hexChars : Bytes → List Char
  | [] => []
  | b :: bs => hexDigit (b.toNat / 16) :: hexDigit (b.toNat % 16) :: hexChars bs

/-- The hexadecimal text of a byte string. -/
def toHex (bs : Bytes) : String := String.ofList (hexChars bs)

/-- Reads pairs of hexadecimal digits. -/
def ofHexChars? : List Char → Option Bytes
  | [] => some []
  | [_] => none
  | hi :: lo :: cs => do
    let h ← hexValue? hi
    let l ← hexValue? lo
    let bs ← ofHexChars? cs
    return UInt8.ofNat (16 * h + l) :: bs

/-- The byte string with a given hexadecimal text, of either case. -/
def ofHex? (text : String) : Option Bytes := ofHexChars? text.toList

/-- The bytes of a text in UTF-8. -/
def ofText (text : String) : Bytes := text.toUTF8.toList

end Bytes

/-! ## Thirty-two bytes -/

/-- A byte string of exactly 32 bytes: a digest, a field element or a scalar as it is written. -/
structure Bytes32 where
  bytes : Bytes
  length_eq : bytes.length = 32
  deriving DecidableEq

namespace Bytes32

theorem ext_bytes {a b : Bytes32} (h : a.bytes = b.bytes) : a = b := by
  cases a; cases b; cases h; rfl

/-- A number below `2^256`, most significant byte first. -/
def ofNat (n : Nat) : Bytes32 := ⟨Bytes.bigEndian 32 n, Bytes.length_bigEndian 32 n⟩

/-- The number written in the 32 bytes, most significant byte first. -/
def toNat (a : Bytes32) : Nat := Bytes.toNatBE a.bytes

/-- The 32-byte value with these bytes, if there are 32 of them. -/
def ofBytes? (bs : Bytes) : Option Bytes32 :=
  if h : bs.length = 32 then some ⟨bs, h⟩ else none

/-- The same byte, 32 times. -/
def filled (b : UInt8) : Bytes32 := ⟨List.replicate 32 b, List.length_replicate⟩

/-- Bytewise exclusive or. -/
def xor (a b : Bytes32) : Bytes32 :=
  ⟨List.zipWith (· ^^^ ·) a.bytes b.bytes, by simp [a.length_eq, b.length_eq]⟩

/-- The bytes in the opposite order, as transaction ids are shown. -/
def reversed (a : Bytes32) : Bytes32 := ⟨a.bytes.reverse, by simp [a.length_eq]⟩

/-- The hexadecimal text of the bytes in order. -/
def toHex (a : Bytes32) : String := a.bytes.toHex

/-- Order of the byte strings, first difference first. -/
def le (a b : Bytes32) : Bool := decide (a.bytes ≤ b.bytes)

end Bytes32

end VaultCovenant
