import Mathlib.Algebra.Ring.Nat
import VaultCovenant.Curve.Secp256k1

/-!
# Multiples of the generator on natural numbers

A multiple of the generator can be computed in a proof. The doublings make that
slow: each takes an inverse, with a squaring for every bit of the exponent, and
coordinates are carried along as terms. Here powers go by sixteenth powers, and
every coordinate is a number before the next step begins.

Results:
* `power_eq`: `power` is the power modulo the field order.
* `Numeral.doublings_go`: the doublings, with coordinates that are numbers.
* `multiple_eq`: the multiples of the generator.
-/

namespace VaultCovenant.Curve

/-! ## Powers -/

theorem power_eq (b e : ℕ) : power b e = b ^ e % fieldOrder := by
  fun_induction power b e with
  | case1 => rfl
  | case2 b e he half hodd ih =>
    have hhalf : half = (b * b) ^ (e / 2) % fieldOrder := ih.trans (Nat.pow_mod _ _ _).symm
    have hexp : 2 * (e / 2) + 1 = e := by omega
    rw [hhalf, Nat.mul_mod_mod, ← Nat.pow_two, ← Nat.pow_mul, ← Nat.pow_succ', Nat.succ_eq_add_one,
      hexp]
  | case3 b e he half heven ih =>
    have hhalf : half = (b * b) ^ (e / 2) % fieldOrder := ih.trans (Nat.pow_mod _ _ _).symm
    have hexp : 2 * (e / 2) = e := by omega
    rw [hhalf, ← Nat.pow_two, ← Nat.pow_mul, hexp]

theorem inverse_zero : inverse 0 = 0 := by decide +kernel

/-- The affine coordinates, also of the point at infinity. -/
theorem Jacobian.toAffine_eq (a : Jacobian) :
    a.toAffine = ⟨a.x * (inverse a.z * inverse a.z % fieldOrder) % fieldOrder,
      a.y * (inverse a.z * (inverse a.z * inverse a.z % fieldOrder) % fieldOrder) %
        fieldOrder⟩ := by
  unfold toAffine toAffine?
  split
  · rename_i hz
    rw [hz, inverse_zero]
    simp
  · rfl

namespace Numeral

/-- A product modulo the field order. -/
def mul (a b : ℕ) : ℕ := Nat.mod (Nat.mul a b) fieldOrder

theorem mul_eq (a b : ℕ) : mul a b = a * b % fieldOrder := rfl

/-- `b ^ e` modulo the field order, for exponents of so many hexadecimal digits. -/
def power (b : ℕ) : ℕ → ℕ → ℕ
  | 0, _ => 1
  | n + 1, e => mul (Nat.mod (Nat.pow (power b n (Nat.div e 16)) 16) fieldOrder)
      (Nat.pow b (Nat.mod e 16))

theorem power_eq {n e : ℕ} (b : ℕ) (h : e < 16 ^ n) : power b n e = b ^ e % fieldOrder := by
  induction n generalizing e with
  | zero =>
    obtain rfl : e = 0 := by simpa using h
    rfl
  | succ n ih =>
    have hlt : e / 16 < 16 ^ n := by
      rw [Nat.pow_succ] at h
      omega
    have hexp : e / 16 * 16 + e % 16 = e := Nat.div_add_mod' e 16
    show power b n (e / 16) ^ 16 % fieldOrder * b ^ (e % 16) % fieldOrder = _
    rw [ih hlt, ← Nat.pow_mod, ← Nat.pow_mul, Nat.mod_mul_mod, ← Nat.pow_add, hexp]

/-- The multiplicative inverse. -/
def inverse (a : ℕ) : ℕ := power a 64 (fieldOrder - 2)

theorem inverse_eq (a : ℕ) : inverse a = Curve.inverse a := by
  have hlt : fieldOrder - 2 < 16 ^ 64 := by decide
  rw [inverse, power_eq a hlt, Curve.inverse, Curve.power_eq]

/-! ## Points -/

/-- Goes on with a number when its digits are known. -/
def forced {α : Type} (n : ℕ) (next : ℕ → α) : α :=
  match n with
  | 0 => next 0
  | n + 1 => next (n + 1)

@[simp] theorem forced_eq {α : Type} (n : ℕ) (next : ℕ → α) : forced n next = next n := by
  cases n <;> rfl

/-- Goes on with the coordinates of twice a finite point. -/
def double {α : Type} (x y : ℕ) (next : ℕ → ℕ → α) : α :=
  forced (mul y y) fun yy =>
  forced (mul (4 * x) yy) fun s =>
  forced (mul (3 * x) x) fun m =>
  forced (sub (mul m m) (2 * s % fieldOrder)) fun x' =>
  forced (sub (mul m (sub s x')) (mul (8 * yy) yy)) fun y' =>
  forced (2 * y * 1 % fieldOrder) fun z =>
  forced (inverse z) fun i =>
  forced (mul i i) fun ii =>
  forced (mul x' ii) fun x'' =>
  forced (mul y' (mul i ii)) fun y'' => next x'' y''

theorem double_eq {α : Type} (x y : ℕ) (next : ℕ → ℕ → α) : double x y next =
    next (Curve.double ⟨x, y, 1⟩).toAffine.x (Curve.double ⟨x, y, 1⟩).toAffine.y := by
  rw [Jacobian.toAffine_eq]
  simp only [double, forced_eq, inverse_eq]
  rfl

/-- So many points, each twice the one before. -/
def doublings : ℕ → ℕ → ℕ → List Affine
  | 0, _, _ => []
  | count + 1, x, y => ⟨x, y⟩ :: double x y (doublings count)

theorem doublings_go (count : ℕ) (a : Affine) :
    Curve.doublings.go count a = doublings count a.x a.y := by
  induction count generalizing a with
  | zero => rfl
  | succ count ih => rw [Curve.doublings.go, doublings, double_eq, ih]

/-- Goes on with the coordinates of the sum of a point and a finite point. -/
def add {α : Type} (x y z : ℕ) (b : Affine) (next : ℕ → ℕ → ℕ → α) : α :=
  match z with
  | 0 => next b.x b.y 1
  | z + 1 =>
    forced (mul (z + 1) (z + 1)) fun zz =>
    forced (sub (mul b.x zz) x) fun h =>
    forced (sub (mul b.y (mul (z + 1) zz)) y) fun r =>
    match h with
    | 0 =>
      let sum := addAffine ⟨x, y, z + 1⟩ b
      next sum.x sum.y sum.z
    | h + 1 =>
      forced (mul (h + 1) (h + 1)) fun hh =>
      forced (mul (h + 1) hh) fun hhh =>
      forced (mul x hh) fun v =>
      forced (sub (sub (mul r r) hhh) (2 * v % fieldOrder)) fun x' =>
      forced (sub (mul r (sub v x')) (mul y hhh)) fun y' =>
      forced (mul (z + 1) (h + 1)) fun z' => next x' y' z'

theorem add_eq {α : Type} (a : Jacobian) (b : Affine) (next : ℕ → ℕ → ℕ → α) :
    add a.x a.y a.z b next =
      next (addAffine a b).x (addAffine a b).y (addAffine a b).z := by
  obtain ⟨x, y, z⟩ := a
  cases z with
  | zero => rfl
  | succ z =>
    simp only [add, forced_eq, mul_eq]
    split
    · rfl
    · rename_i h hh
      simp only [addAffine, hh, Nat.add_one_ne_zero, if_false]

/-- The sum of a point and those points at whose position there is a one. -/
def addDigits : ℕ → ℕ → ℕ → ℕ → List Affine → Jacobian
  | x, y, z, _, [] => ⟨x, y, z⟩
  | x, y, z, k, b :: points =>
    forced (k / 2) fun k' =>
    match k % 2 with
    | 0 => addDigits x y z k' points
    | _ + 1 => add x y z b fun x' y' z' => addDigits x' y' z' k' points

theorem addDigits_eq (a : Jacobian) (k : ℕ) (points : List Affine) :
    addDigits a.x a.y a.z k points = Curve.addDigits a k points := by
  induction points generalizing a k with
  | nil => rfl
  | cons b points ih =>
    simp only [addDigits, Curve.addDigits, forced_eq]
    split
    · rename_i heven
      rw [if_neg (by omega), ih]
    · rename_i hodd
      rw [if_pos (by omega), add_eq, ih]

end Numeral

/-- The multiples of the generator. -/
theorem multiple_eq (k : ℕ) : multiple k =
    Numeral.addDigits 1 1 0 k (Numeral.doublings 256 generator.x generator.y) := by
  rw [multiple, doublings, Numeral.doublings_go, ← Numeral.addDigits_eq]
  rfl

end VaultCovenant.Curve
