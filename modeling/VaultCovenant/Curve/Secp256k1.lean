/-!
# The curve secp256k1

Arithmetic of the curve `y² = x³ + 7` over the field of `p = 2²⁵⁶ − 2³² − 977` elements, as far as
keys and signatures need it: multiples of the generator, addition of one more point, and the point
of even ordinate above an abscissa. Field elements are natural numbers below `p`. Points are added
in Jacobian coordinates, `x = X/Z²` and `y = Y/Z³`, where `Z = 0` is the point at infinity.
-/

namespace VaultCovenant.Curve

/-- The order of the field. -/
def fieldOrder : Nat := 0xfffffffffffffffffffffffffffffffffffffffffffffffffffffffefffffc2f

/-- The order of the group of points. -/
def groupOrder : Nat := 0xfffffffffffffffffffffffffffffffebaaedce6af48a03bbfd25e8cd0364141

/-! ## Field elements -/

/-- `b ^ e` modulo the field order, by squaring. -/
def power (b e : Nat) : Nat :=
  if e = 0 then 1
  else
    let half := power (b * b % fieldOrder) (e / 2)
    if e % 2 = 1 then b * half % fieldOrder else half
termination_by e
decreasing_by omega

/-- The multiplicative inverse, by Fermat's little theorem; zero has none and gives zero. -/
def inverse (a : Nat) : Nat := power a (fieldOrder - 2)

/-- Difference of two field elements. -/
@[inline] def sub (a b : Nat) : Nat := (a + fieldOrder - b) % fieldOrder

/-- A square root of a square: the field order is 3 modulo 4. -/
def squareRoot (a : Nat) : Nat := power a ((fieldOrder + 1) / 4)

/-! ## Points -/

/-- A point of the curve other than infinity. -/
structure Affine where
  x : Nat
  y : Nat
  deriving DecidableEq, Inhabited

/-- A point in Jacobian coordinates. -/
structure Jacobian where
  x : Nat
  y : Nat
  z : Nat

/-- The point at infinity. -/
def infinity : Jacobian := ⟨1, 1, 0⟩

/-- Twice a point. -/
def double (a : Jacobian) : Jacobian :=
  let yy := a.y * a.y % fieldOrder
  let s := 4 * a.x * yy % fieldOrder
  let m := 3 * a.x * a.x % fieldOrder
  let x := sub (m * m % fieldOrder) (2 * s % fieldOrder)
  let y := sub (m * sub s x % fieldOrder) (8 * yy * yy % fieldOrder)
  ⟨x, y, 2 * a.y * a.z % fieldOrder⟩

/-- The sum of a point and a finite point. -/
def addAffine (a : Jacobian) (b : Affine) : Jacobian :=
  if a.z = 0 then ⟨b.x, b.y, 1⟩
  else
    let zz := a.z * a.z % fieldOrder
    let u := b.x * zz % fieldOrder
    let s := b.y * (a.z * zz % fieldOrder) % fieldOrder
    let h := sub u a.x
    let r := sub s a.y
    if h = 0 then
      if r = 0 then double a else infinity
    else
      let hh := h * h % fieldOrder
      let hhh := h * hh % fieldOrder
      let v := a.x * hh % fieldOrder
      let x := sub (sub (r * r % fieldOrder) hhh) (2 * v % fieldOrder)
      let y := sub (r * sub v x % fieldOrder) (a.y * hhh % fieldOrder)
      ⟨x, y, a.z * h % fieldOrder⟩

/-- The affine coordinates of a point, unless it is the point at infinity. -/
def Jacobian.toAffine? (a : Jacobian) : Option Affine :=
  if a.z = 0 then none
  else
    let i := inverse a.z
    let ii := i * i % fieldOrder
    some ⟨a.x * ii % fieldOrder, a.y * (i * ii % fieldOrder) % fieldOrder⟩

/-- The affine coordinates of a point, with the generator's field for infinity set to zero. -/
def Jacobian.toAffine (a : Jacobian) : Affine := a.toAffine?.getD ⟨0, 0⟩

/-- The generator of the group. -/
def generator : Affine where
  x := 0x79be667ef9dcbbac55a06295ce870b07029bfcdb2dce28d959f2815b16f81798
  y := 0x483ada7726a3c4655da4fbfc0e1108a8fd17b448a68554199c47d08ffb10d4b8

/-- The generator doubled 0, 1, …, 255 times. -/
def doublings : List Affine :=
  go 256 generator
where
  /-- `count` points, each twice the one before. -/
  go : (count : Nat) → Affine → List Affine
    | 0, _ => []
    | count + 1, point => point :: go count (double ⟨point.x, point.y, 1⟩).toAffine

/-- The sum of `start` and those points at whose position `k` has a binary digit one. -/
def addDigits (start : Jacobian) (k : Nat) : List Affine → Jacobian
  | [] => start
  | point :: points =>
    addDigits (if k % 2 = 1 then addAffine start point else start) (k / 2) points

/-- The `k`-th multiple of the generator, for `k` below `2²⁵⁶`. -/
def multiple (k : Nat) : Jacobian := addDigits infinity k doublings

/-- Whether an ordinate is even. -/
def Affine.hasEvenY (a : Affine) : Bool := a.y % 2 = 0

/-- The point of even ordinate with abscissa `x`, if the curve has one. -/
def liftX (x : Nat) : Option Affine :=
  if x < fieldOrder then
    let square := (x * x % fieldOrder * x + 7) % fieldOrder
    let root := squareRoot square
    if root * root % fieldOrder = square then
      some ⟨x, if root % 2 = 0 then root else fieldOrder - root⟩
    else none
  else none

end VaultCovenant.Curve
