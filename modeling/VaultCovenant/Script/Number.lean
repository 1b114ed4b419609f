import VaultCovenant.Bytes

/-!
# Script numbers

Integers as the script interpreter keeps them on its stack: the magnitude in base 256, least
significant digit first, in as few bytes as possible, with the sign in the top bit of the last
byte. Zero is the empty string.

Results:
* `magnitude_ne_nil`: every number but zero takes at least one byte.
* `decode_encode`: decoding gives the number back.
-/

namespace VaultCovenant.ScriptNumber

/-- The digits of a positive magnitude with its sign bit; a digit of 128 or more in last place
gets a byte of its own for the sign. -/
def magnitude (negative : Bool) (n : Nat) : Bytes :=
  if n < 128 then [UInt8.ofNat (n + if negative then 128 else 0)]
  else UInt8.ofNat n :: magnitude negative (n / 256)
termination_by n
decreasing_by omega

/-- The minimal encoding of an integer. -/
def encode (v : Int) : Bytes :=
  if v = 0 then [] else magnitude (decide (v < 0)) v.natAbs

/-- The magnitude and the sign written in a nonempty string. -/
def decodeMagnitude : Bytes → Nat × Bool
  | [] => (0, false)
  | [b] => (b.toNat % 128, decide (128 ≤ b.toNat))
  | b :: bs => let (n, negative) := decodeMagnitude bs; (b.toNat + 256 * n, negative)

/-- The integer that a byte string stands for, minimal or not. -/
def decode (bs : Bytes) : Int :=
  let (n, negative) := decodeMagnitude bs
  if negative then -(n : Int) else n

/-! ## Small laws -/

theorem magnitude_ne_nil (negative : Bool) (n : Nat) : magnitude negative n ≠ [] := by
  unfold magnitude
  split <;> simp

theorem decodeMagnitude_magnitude (negative : Bool) (n : Nat) :
    decodeMagnitude (magnitude negative n) = (n, negative) := by
  fun_induction magnitude negative n with
  | case1 n h => cases negative <;> simp [decodeMagnitude] <;> omega
  | case2 n h ih =>
    match hm : magnitude negative (n / 256) with
    | [] => exact absurd hm (magnitude_ne_nil _ _)
    | b :: bs =>
      rw [hm] at ih
      simp only [decodeMagnitude, ih, UInt8.toNat_ofNat', Prod.mk.injEq, and_true]
      omega

theorem decode_encode (v : Int) : decode (encode v) = v := by
  unfold encode
  split
  · subst v; rfl
  · rename_i hv
    simp only [decode, decodeMagnitude_magnitude, decide_eq_true_eq]
    split <;> omega

end VaultCovenant.ScriptNumber
