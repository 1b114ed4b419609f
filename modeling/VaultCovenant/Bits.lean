/-!
# Bits

Numbers as bits, the most significant first, and bits in groups of another width, as the text
encodings of byte strings need them.

Results:
* `length_ofNat`: a number of a given width takes that many bits.
* `length_le_of_mem_groups`: no group is longer than the width asked for.
-/

namespace VaultCovenant.Bits

/-- The lowest `width` bits of a number. -/
def ofNat : (width : Nat) → (n : Nat) → List Bool
  | 0, _ => []
  | width + 1, n => n.testBit width :: ofNat width n

/-- The number with the given bits. -/
def toNat (bits : List Bool) : Nat := bits.foldl (fun n bit => 2 * n + bit.toNat) 0

/-- Bits in groups of a width; the last group holds what is left over. -/
def groups (width : Nat) (bits : List Bool) : List (List Bool) :=
  if _h : width = 0 ∨ bits = [] then []
  else bits.take width :: groups width (bits.drop width)
termination_by bits.length
decreasing_by
  have : 0 < bits.length := List.length_pos_iff.2 fun e => _h (.inr e)
  simp only [List.length_drop]
  omega

/-- A group filled up to a width by zeros behind it. -/
def fill (width : Nat) (group : List Bool) : List Bool :=
  group ++ List.replicate (width - group.length) false

/-- Bits as numbers of a width, the last filled up by zeros. -/
def toNumbers (width : Nat) (bits : List Bool) : List Nat :=
  (groups width bits).map fun group => toNat (fill width group)

/-- The bits of a byte string. -/
def ofBytes (bytes : List UInt8) : List Bool := bytes.flatMap fun b => ofNat 8 b.toNat

@[simp] theorem length_ofNat (width n : Nat) : (ofNat width n).length = width := by
  induction width with
  | zero => rfl
  | succ width ih => simp [ofNat, ih]

theorem length_le_of_mem_groups {width : Nat} {bits group : List Bool}
    (h : group ∈ groups width bits) : group.length ≤ width := by
  fun_induction groups width bits with
  | case1 => cases h
  | case2 bits _ ih =>
    rcases List.mem_cons.1 h with rfl | h
    · exact List.length_take_le ..
    · exact ih h

end VaultCovenant.Bits
