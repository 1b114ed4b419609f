import VaultCovenant.Proofs.Coin
import VaultCovenant.Proofs.Transaction.Positions

/-!
# Where the outputs of a batch are

The outputs of the batches of a trigger stand one batch after the other,
behind the change of the coin that pays. A position counts the outputs before
it.

Results:
* `getElem?_positionsFrom`: the position of a batch is the number of outputs
  before it.
* `getElem?_outputs_trigger`, `getElem?_outputs_revault`: in a transaction
  with fewer than `outputLimit` outputs the positions of a batch lead to its
  own outputs.
-/

namespace VaultCovenant

theorem Batch.length_outputs_le (b : Batch) : b.outputs.length ≤ 2 := by
  unfold outputs
  cases b.revaultOutput <;> simp

namespace Trigger

/-- How many outputs stand before those of the batch at `i`. -/
def offset (start : ℕ) (batches : List Batch) (i : ℕ) : ℕ :=
  start + ((batches.take i).flatMap Batch.outputs).length

theorem getElem?_positionsFrom (start : ℕ) (batches : List Batch) (i : ℕ) :
    (positionsFrom start batches)[i]? = batches[i]?.map fun b =>
      ⟨UInt32.ofNat (offset start batches i),
        b.revaultOutput.map fun _ => UInt32.ofNat (offset start batches i + 1)⟩ := by
  induction batches generalizing start i with
  | nil => rfl
  | cons b rest ih =>
    cases i with
    | zero => rfl
    | succ i =>
      rw [positionsFrom, List.getElem?_cons_succ, ih, List.getElem?_cons_succ]
      -- what the first batch adds is counted in the start of the others
      have : offset (start + b.outputs.length) rest i = offset start (b :: rest) (i + 1) := by
        simp only [offset, List.take_succ_cons, List.flatMap_cons, List.length_append]
        omega
      rw [this]

theorem getElem?_flatMap_outputs {batches : List Batch} {i k : ℕ} {b : Batch}
    (hb : batches[i]? = some b) (hk : k < b.outputs.length) :
    (batches.flatMap Batch.outputs)[offset k batches i]? = b.outputs[k]? := by
  induction batches generalizing i with
  | nil => simp at hb
  | cons a rest ih =>
    cases i with
    | zero =>
      cases hb
      simp only [offset, List.take_zero, List.flatMap_nil, List.length_nil, Nat.add_zero,
        List.flatMap_cons]
      exact List.getElem?_append_left hk
    | succ i =>
      have hoff : offset k (a :: rest) (i + 1) = a.outputs.length + offset k rest i := by
        simp only [offset, List.take_succ_cons, List.flatMap_cons, List.length_append]
        omega
      rw [hoff, List.flatMap_cons, List.getElem?_append_right (by omega), Nat.add_sub_cancel_left]
      exact ih hb

/-- The outputs of the batch at `i`, behind the change. -/
theorem getElem?_outputs (change : Option TxOut) {batches : List Batch} {i k : ℕ} {b : Batch}
    (hb : batches[i]? = some b) (hk : k < b.outputs.length) :
    (outputs batches change)[offset change.toList.length batches i + k]? = b.outputs[k]? := by
  unfold outputs
  have hoff : offset change.toList.length batches i + k =
      change.toList.length + offset k batches i := by
    unfold offset
    omega
  rw [hoff, List.getElem?_append_right (by omega), Nat.add_sub_cancel_left]
  exact getElem?_flatMap_outputs hb hk

section

variable {batches : List Batch} {change : Option TxOut} {i : ℕ} {b : Batch}
  {position : BatchPosition}

theorem getElem?_outputs_trigger (hb : batches[i]? = some b)
    (hp : (positionsFrom change.toList.length batches)[i]? = some position)
    (hlen : (outputs batches change).length < outputLimit) :
    (outputs batches change)[position.trigger.toNat]? = some b.triggerOutput := by
  rw [getElem?_positionsFrom, hb] at hp
  cases hp
  have hget := getElem?_outputs change hb (k := 0) (by simp [Batch.outputs])
  rw [Nat.add_zero] at hget
  rw [Transaction.toNat_vout_of_getElem? hget hlen, hget]
  rfl

theorem getElem?_outputs_revault (hb : batches[i]? = some b)
    (hp : (positionsFrom change.toList.length batches)[i]? = some position)
    (hlen : (outputs batches change).length < outputLimit) {vout : UInt32}
    (hv : position.revault = some vout) :
    ∃ out, b.revaultOutput = some out ∧ (outputs batches change)[vout.toNat]? = some out := by
  rw [getElem?_positionsFrom, hb] at hp
  cases hp
  cases hr : b.revaultOutput with
  | none => simp [hr] at hv
  | some out =>
    simp only [hr, Option.map_some, Option.some.injEq] at hv
    subst hv
    have hget := getElem?_outputs change hb (k := 1) (by simp [Batch.outputs, hr])
    refine ⟨out, rfl, ?_⟩
    rw [Transaction.toNat_vout_of_getElem? (o := out) (by rw [hget]; simp [Batch.outputs, hr]) hlen, hget]
    simp [Batch.outputs, hr]

end

end Trigger

end VaultCovenant
