import Mathlib.Data.Nat.Notation
import VaultCovenant.Transaction.Basic

/-!
# Positions of outputs

A transaction names an output by its position, a number of 32 bits. Where there
are fewer than `outputLimit` outputs, all of them are within reach.

Results:
* `Transaction.toNat_vout`: a position within reach is the number it stands for.
-/

namespace VaultCovenant

/-- Fewer outputs than this are within reach of a 32-bit position, with or
without a coin that pays. -/
def outputLimit : ℕ := 0xfffffffe

namespace Transaction

theorem toNat_vout {n : ℕ} (h : n ≤ outputLimit) : (UInt32.ofNat n).toNat = n := by
  unfold outputLimit at h
  rw [UInt32.toNat_ofNat']
  omega

theorem toNat_vout_of_getElem? {outs : List TxOut} {n : ℕ} {o : TxOut} (h : outs[n]? = some o)
    (hlen : outs.length < outputLimit) : (UInt32.ofNat n).toNat = n := by
  obtain ⟨hn, -⟩ := List.getElem?_eq_some_iff.mp h
  exact toNat_vout (by omega)

end Transaction

end VaultCovenant
