import Mathlib.Algebra.GroupWithZero.Nat
import Mathlib.Data.Nat.Log
import VaultCovenant.Room

/-!
# Lists that grow

A list takes up what its elements take up. A list that grows is given more room
when it is full: twice what it has, and at first a power of two. So its room
stays a power of two, and the elements fit until the next one does not.

Results:
* `Room.sum_map_le`: sizes that are bounded one by one are bounded together.
* `Room.afterAdding_eq`: the room after a number of elements is the least power
  of two that holds them, and not less than at first.
* `Room.afterAdding_fits_iff`: that room exists exactly up to `Room.mostGrown`
  elements.
-/

namespace VaultCovenant.Room

/-! ## Sums -/

/-- Every part adds what it takes and a constant around it. -/
theorem sum_map_le {α : Type} {f g : α → ℕ} {as : List α} {k : ℕ} (h : ∀ a ∈ as, f a ≤ g a + k) :
    (as.map f).sum ≤ as.length * k + (as.map g).sum := by
  induction as with
  | nil => exact Nat.zero_le _
  | cons a as ih =>
    have ha := h a List.mem_cons_self
    have has := ih fun b hb => h b (List.mem_cons_of_mem a hb)
    rw [List.map_cons, List.sum_cons, List.map_cons, List.sum_cons, List.length_cons,
      Nat.succ_mul]
    omega

theorem sum_map_le_mul {α : Type} {f : α → ℕ} {as : List α} {k : ℕ} (h : ∀ a ∈ as, f a ≤ k) :
    (as.map f).sum ≤ as.length * k := by
  have hall := sum_map_le (g := fun _ => 0) fun a ha => (h a ha).trans_eq (Nat.zero_add k).symm
  rwa [List.map_const', List.sum_replicate_nat, Nat.mul_zero] at hall

/-! ## Growing -/

/-- The room for a number of elements: what there is if that suffices, else
twice as much, and not less than `first`. -/
def enlarged (first room needed : ℕ) : ℕ :=
  if needed ≤ room then room else max (2 * room) (max needed first)

/-- The room of a list to which a number of elements was added one by one. -/
def afterAdding (first : ℕ) : ℕ → ℕ
  | 0 => 0
  | count + 1 => enlarged first (afterAdding first count) (count + 1)

theorem enlarged_two_pow {first k count : ℕ} (hfirst : first ≤ 2 ^ k) (hfull : count ≤ 2 ^ k) :
    enlarged first (2 ^ k) (count + 1) = if count < 2 ^ k then 2 ^ k else 2 ^ (k + 1) := by
  unfold enlarged
  by_cases hroom : count < 2 ^ k
  · rw [if_pos hroom, if_pos (Nat.succ_le_of_lt hroom)]
  · have hpos := Nat.two_pow_pos k
    rw [if_neg hroom, if_neg (by omega), Nat.pow_succ]
    omega

theorem afterAdding_eq (k : ℕ) {count : ℕ} (hcount : 0 < count) :
    afterAdding (2 ^ k) count = 2 ^ max k (Nat.clog 2 count) := by
  induction count with
  | zero => cases hcount
  | succ count ih =>
    rcases Nat.eq_zero_or_pos count with rfl | hpos
    · have hone := Nat.one_le_two_pow (n := k)
      rw [Nat.clog_one_right, Nat.max_zero]
      simp [afterAdding, enlarged, Nat.max_eq_right hone]
    · have hfull : count ≤ 2 ^ max k (Nat.clog 2 count) :=
        (Nat.le_pow_clog Nat.one_lt_two count).trans
          (Nat.pow_le_pow_right Nat.two_pos (Nat.le_max_right _ _))
      have hfirst : 2 ^ k ≤ 2 ^ max k (Nat.clog 2 count) :=
        Nat.pow_le_pow_right Nat.two_pos (Nat.le_max_left _ _)
      have hmono : Nat.clog 2 count ≤ Nat.clog 2 (count + 1) := Nat.clog_mono_right _ (Nat.le_succ _)
      rw [afterAdding, ih hpos, enlarged_two_pow hfirst hfull]
      generalize hm : max k (Nat.clog 2 count) = m at hfull hfirst
      by_cases hroom : count < 2 ^ m
      · have hle : Nat.clog 2 (count + 1) ≤ m := Nat.clog_le_of_le_pow hroom
        rw [if_pos hroom]
        congr 1
        omega
      · have hlt : m < Nat.clog 2 (count + 1) :=
          (Nat.lt_clog_iff_pow_lt Nat.one_lt_two).mpr (by omega)
        have hle : Nat.clog 2 (count + 1) ≤ m + 1 :=
          Nat.clog_le_of_le_pow (by rw [Nat.pow_succ]; omega)
        rw [if_neg hroom]
        congr 1
        omega

/-- All of the elements fit exactly up to the largest power of two that does. -/
theorem afterAdding_fits_iff {size k : ℕ} (hsize : 0 < size) (hfirst : 2 ^ k ≤ most size)
    (count : ℕ) : size * afterAdding (2 ^ k) count ≤ bytes ↔ count ≤ mostGrown size := by
  have hmost : most size ≠ 0 := by
    have := Nat.two_pow_pos k
    omega
  have hk : k ≤ (most size).log2 := (Nat.le_log2 hmost).mpr hfirst
  rcases Nat.eq_zero_or_pos count with rfl | hcount
  · simp [afterAdding]
  · calc size * afterAdding (2 ^ k) count ≤ bytes
        ↔ 2 ^ max k (Nat.clog 2 count) ≤ most size := by
          rw [afterAdding_eq k hcount, most, Nat.le_div_iff_mul_le hsize, Nat.mul_comm]
      _ ↔ max k (Nat.clog 2 count) ≤ (most size).log2 := (Nat.le_log2 hmost).symm
      _ ↔ Nat.clog 2 count ≤ (most size).log2 := by omega
      _ ↔ count ≤ mostGrown size := Nat.clog_le_iff_le_pow Nat.one_lt_two

example : mostGrown 32 = 0x200000000000000 := by decide

end VaultCovenant.Room
