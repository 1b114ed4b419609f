import VaultCovenant.Room

/-!
# Amounts

Amounts of 64 bits: sums that refuse to wrap, differences that refuse to go below zero, and the
division of an amount into parts, which refuses more parts than there is room for.

Results:
* `Sats.add_eq_ok_iff`: a sum exists exactly when it fits in 64 bits, and is then the exact sum.
* `Sats.toNat_minus`: the difference that stops at zero is that of the naturals.
* `Sats.length_shares`: a division into parts has that many parts.
* `Sats.split_eq_ok_iff`, `Sats.split_eq_overflow_iff`: it is refused exactly when a list has no room
  for the parts.
-/

namespace VaultCovenant

/-- Amounts in the smallest unit of the currency. -/
abbrev Sats := UInt64

namespace Sats

/-- One more than the largest amount. -/
def bound : Nat := 0x10000000000000000

/-- The sum of two amounts; there is none beyond 64 bits. -/
def add (a b : Sats) : Except Failure Sats :=
  if a.toNat + b.toNat < bound then .ok (a + b) else .error .overflow

/-- The sum of a list, taken from its first member on. -/
def sum (amounts : List Sats) : Except Failure Sats := amounts.foldlM add 0

/-- What is left of an amount when part of it is spent. -/
def spend (available required : Sats) : Except VaultError Sats :=
  if required ≤ available then .ok (available - required)
  else .error (.insufficientFunds required available)

/-- The difference of two amounts, or zero where it would be negative. -/
def minus (a b : Sats) : Sats := if b ≤ a then a - b else 0

/-- One unit less, or zero. -/
def lowered (a : Sats) : Sats := a.minus 1

/-- An amount without a fee in equal parts; the last also takes what the division leaves over. -/
def shares (total : Sats) (parts : UInt64) (fee : Sats) : List Sats :=
  if parts = 0 then []
  else
    let spendable := total.minus fee
    let each := spendable / parts
    List.replicate (parts.toNat - 1) each ++ [each + (spendable - each * parts)]

/-- The product of two numbers of 64 bits; there is none beyond. -/
def product (a b : UInt64) : Except Failure Sats :=
  if a.toNat * b.toNat < bound then .ok (a * b) else .error .overflow

/-- The difference of two amounts; there is none below zero. -/
def difference (a b : Sats) : Except Failure Sats :=
  if b ≤ a then .ok (a - b) else .error .overflow

/-- The shares of an amount, where a product, a difference or a sum that does not fit in 64 bits
ends the computation. -/
def checkedShares (total : Sats) (parts : UInt64) (fee : Sats) : Except Failure (List Sats) := do
  if parts = 0 then
    return []
  let spendable := total.minus fee
  let each := spendable / parts
  let taken ← product each parts
  let remainder ← difference spendable taken
  let last ← add each remainder
  return List.replicate (parts.toNat - 1) each ++ [last]

/-- The bytes an amount takes up in a list. -/
def size : Nat := 8

/-- The shares of an amount, in a list that is made for that many. -/
def split (total : Sats) (parts : UInt64) (fee : Sats) : Except Failure (List Sats) := do
  Room.check (Room.most size) parts.toNat
  return shares total parts fee

/-! ## Small laws -/

theorem toNat_ne_zero {a : Sats} (h : a ≠ 0) : a.toNat ≠ 0 :=
  fun hzero => h (UInt64.toNat_inj.mp (hzero.trans UInt64.toNat_zero.symm))

theorem toNat_ofNat {n : Nat} (h : n < bound) : (UInt64.ofNat n).toNat = n := by
  unfold bound at h
  rw [UInt64.toNat_ofNat', Nat.mod_eq_of_lt (by omega)]

theorem toNat_minus (a b : Sats) : (a.minus b).toNat = a.toNat - b.toNat := by
  unfold minus
  split
  · rename_i h
    exact UInt64.toNat_sub_of_le _ _ h
  · rename_i h
    rw [UInt64.le_iff_toNat_le] at h
    rw [UInt64.toNat_zero]
    omega

theorem toNat_lowered (a : Sats) : a.lowered.toNat = a.toNat - 1 := toNat_minus a 1

theorem add_eq_ok_iff {a b c : Sats} :
    add a b = .ok c ↔ c.toNat = a.toNat + b.toNat := by
  unfold add bound
  have below := c.toNat_lt
  split
  · rename_i h
    simp only [Except.ok.injEq, ← UInt64.toNat_inj, UInt64.toNat_add, Nat.mod_eq_of_lt h]
    exact eq_comm
  · simp only [reduceCtorEq, false_iff]
    omega

theorem length_shares (total : Sats) (parts : UInt64) (fee : Sats) :
    (shares total parts fee).length = parts.toNat := by
  unfold shares
  split
  · rename_i h; subst h; rfl
  · rename_i h
    have := toNat_ne_zero h
    simp only [List.length_append, List.length_replicate, List.length_singleton]
    omega

theorem split_eq_ok_iff {total : Sats} {parts : UInt64} {fee : Sats} {amounts : List Sats} :
    total.split parts fee = .ok amounts ↔
      parts.toNat ≤ Room.most size ∧ total.shares parts fee = amounts := by
  unfold split Room.check
  split <;> simp [*, bind, Except.bind, pure, Except.pure]

theorem split_eq_overflow_iff {total : Sats} {parts : UInt64} {fee : Sats} :
    total.split parts fee = .error .overflow ↔ Room.most size < parts.toNat := by
  unfold split Room.check
  split
  · rename_i h
    simp [Nat.not_lt.mpr h, bind, Except.bind, pure, Except.pure]
  · rename_i h
    simp [Nat.not_le.mp h, bind, Except.bind]

end Sats

end VaultCovenant
