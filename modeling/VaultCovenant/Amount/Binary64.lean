/-!
# Numbers of 53 binary digits

The nearest number of 53 significant binary digits to a quotient, ties to the even neighbour, as
double-precision arithmetic rounds; its bits; and its decimal text with a fixed number of places,
rounded the same way from the exact value.

Results:
* `roundHalfEven_mul`: a quotient without remainder is not changed by rounding.
-/

namespace VaultCovenant

/-- The integer nearest to a quotient; halfway between two, the even one. -/
def roundHalfEven (num den : Nat) : Nat :=
  let q := num / den
  let r := num % den
  if 2 * r < den then q
  else if den < 2 * r then q + 1
  else if q % 2 = 0 then q else q + 1

theorem roundHalfEven_mul {den : Nat} (h : 0 < den) (q : Nat) :
    roundHalfEven (q * den) den = q := by
  simp [roundHalfEven, Nat.mul_div_cancel q h, h]

/-- `significand · 2 ^ exponent`, where the significand is zero or has 53 digits. -/
structure Binary64 where
  significand : Nat
  exponent : Int
  deriving DecidableEq

namespace Binary64

/-- Zero. -/
def zero : Binary64 := ⟨0, 0⟩

/-- The least number of 53 digits. -/
def least : Nat := Nat.pow 2 52

/-- The numerator and denominator of `num / (den · 2 ^ exponent)`. -/
def scaled (num den : Nat) (exponent : Int) : Nat × Nat :=
  let scale := Nat.pow 2 exponent.natAbs
  if exponent < 0 then (num * scale, den) else (num, den * scale)

/-- The number nearest to a quotient of positive integers. -/
def ofRatio (num den : Nat) : Binary64 :=
  if num = 0 then zero
  else
    let low : Int := (num.log2 : Int) - den.log2 - 53
    let (n, d) := scaled num den low
    let exponent := if n / d < 2 * least then low else low + 1
    let (n, d) := scaled num den exponent
    let significand := roundHalfEven n d
    if significand = 2 * least then ⟨least, exponent + 1⟩ else ⟨significand, exponent⟩

/-- The value as a numerator and a denominator. -/
def ratio (x : Binary64) : Nat × Nat :=
  let scale := Nat.pow 2 x.exponent.natAbs
  if x.exponent < 0 then (x.significand, scale) else (x.significand * scale, 1)

/-- The nearest number to the value divided by an integer. -/
def divNat (x : Binary64) (den : Nat) : Binary64 :=
  let (n, d) := x.ratio
  ofRatio n (d * den)

/-- The 64 bits of a number whose exponent is in the range of normal numbers: the exponent of the
first digit, and the digits after it. -/
def bits (x : Binary64) : Nat :=
  if x.significand = 0 then 0
  else (x.exponent + 52 + 1023).toNat * least + (x.significand - least)

/-- The value times `10 ^ places`, rounded to an integer. -/
def shifted (x : Binary64) (places : Nat) : Nat :=
  let (n, d) := x.ratio
  roundHalfEven (n * Nat.pow 10 places) d

end Binary64

end VaultCovenant
