import VaultCovenant.Failure

/-!
# Room for lists

The elements of a list stand side by side and take up at most `2^63 − 1` bytes. A list whose length
is known beforehand is given room for just its elements. A list that grows by one element at a time
is given twice its room whenever that is used up, so that it ends at a power of two.

Results:
* `Room.check_eq_ok_iff`, `Room.check_eq_overflow_iff`: a list is refused exactly past its room.
-/

namespace VaultCovenant.Room

/-- The most bytes that the elements of a list can take up. -/
def bytes : Nat := 0x7fffffffffffffff

/-- The most elements of a size in a list whose length is known beforehand. -/
def most (size : Nat) : Nat := bytes / size

/-- The most elements of a size in a list that grows: the largest power of two that has room. -/
def mostGrown (size : Nat) : Nat := Nat.pow 2 (most size).log2

/-- Ends the computation if there is no room for a number of elements. -/
def check (room count : Nat) : Except Failure Unit :=
  if count ≤ room then .ok () else .error .overflow

theorem check_eq_ok_iff {room count : Nat} : check room count = .ok () ↔ count ≤ room := by
  unfold check
  split <;> simp [*]

theorem check_eq_overflow_iff {room count : Nat} :
    check room count = .error .overflow ↔ room < count := by
  unfold check
  split
  · rename_i h
    simp [Nat.not_lt.mpr h]
  · rename_i h
    simp [Nat.not_le.mp h]

end VaultCovenant.Room
