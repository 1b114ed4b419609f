import VaultCovenant.Proofs.Room
import VaultCovenant.Transaction.Basic

/-!
# Lengths of transactions

Every count takes at most nine bytes, so that a transaction is as long as its
scripts and its witnesses and a constant for each of their parts.

Results:
* `Transaction.length_serialize_le`: the parts of a transaction and what stands
  around them.
* `Transaction.Brief.length_serialize_le`: a brief transaction has 51 bytes for
  every output, and at most 1024 more.
-/

namespace VaultCovenant

theorem length_compactSize_le (n : ℕ) : (compactSize n).length ≤ 9 := by
  unfold compactSize
  split_ifs <;> simp

theorem length_lengthPrefixed_le (bs : Bytes) : (lengthPrefixed bs).length ≤ bs.length + 9 := by
  have hcount := length_compactSize_le bs.length
  rw [lengthPrefixed, List.length_append]
  omega

theorem length_flatMap_le {α : Type} {f : α → Bytes} {as : List α} {bound : ℕ}
    (h : ∀ a ∈ as, (f a).length ≤ bound) : (as.flatMap f).length ≤ as.length * bound := by
  rw [List.length_flatMap]
  exact Room.sum_map_le_mul h

namespace TxIn

theorem length_serialize_le (i : TxIn) :
    i.serialize.length ≤ i.scriptSig.bytes.length + 49 := by
  have hscript := length_lengthPrefixed_le i.scriptSig.bytes
  have htxid := i.previousOutput.txid.digest.length_eq
  simp only [serialize, Outpoint.serialize, Script.serialize, List.length_append,
    Bytes.length_littleEndian, htxid]
  omega

theorem length_serializeWitness_le (i : TxIn) {bound : ℕ}
    (h : ∀ item ∈ i.witness, item.length ≤ bound) :
    i.serializeWitness.length ≤ 9 + i.witness.length * (bound + 9) := by
  have hcount := length_compactSize_le i.witness.length
  have hitems : (i.witness.flatMap lengthPrefixed).length ≤ i.witness.length * (bound + 9) :=
    length_flatMap_le fun item hitem =>
      (length_lengthPrefixed_le item).trans (Nat.add_le_add_right (h item hitem) 9)
  rw [serializeWitness, List.length_append]
  omega

end TxIn

theorem TxOut.length_serialize_le (o : TxOut) :
    o.serialize.length ≤ o.scriptPubkey.bytes.length + 17 := by
  have hscript := length_lengthPrefixed_le o.scriptPubkey.bytes
  simp only [serialize, Script.serialize, List.length_append, Bytes.length_littleEndian]
  omega

namespace Transaction

/-- What a serialization holds besides its parts: the version, the lock time,
two counts, and maybe a marker in front of the witnesses. -/
theorem length_serialize_le (tx : Transaction) :
    tx.serialize.length ≤ 28 + (tx.inputs.flatMap TxIn.serialize).length +
      (tx.outputs.flatMap TxOut.serialize).length +
      (tx.inputs.flatMap TxIn.serializeWitness).length := by
  have hinputs := length_compactSize_le tx.inputs.length
  have houtputs := length_compactSize_le tx.outputs.length
  unfold serialize strippedBytes
  split <;>
  · simp only [bodyBytes, versionBytes, lockTimeBytes, List.length_append,
      Bytes.length_littleEndian, List.length_cons, List.length_nil]
    omega

/-- One input with a few short items to satisfy it, and outputs to witness
programs of 32 bytes. -/
structure Brief (tx : Transaction) : Prop where
  input : ∃ i, tx.inputs = [i] ∧ i.scriptSig = Script.empty ∧ i.witness.length ≤ 6 ∧
    ∀ item ∈ i.witness, item.length ≤ 80
  outputs : ∀ o ∈ tx.outputs, o.scriptPubkey.bytes.length = 34

theorem Brief.length_serialize_le {tx : Transaction} (h : tx.Brief) :
    tx.serialize.length ≤ 1024 + tx.outputs.length * 51 := by
  obtain ⟨i, hinputs, hscriptSig, hcount, hitems⟩ := h.input
  have hinput := i.length_serialize_le
  have hempty : i.scriptSig.bytes.length = 0 := by
    rw [hscriptSig]
    rfl
  have hwitness := i.length_serializeWitness_le hitems
  have houtputs : (tx.outputs.flatMap TxOut.serialize).length ≤ tx.outputs.length * 51 :=
    length_flatMap_le fun o ho =>
      o.length_serialize_le.trans (Nat.add_le_add_right (h.outputs o ho).le 17)
  have htx := tx.length_serialize_le
  rw [hinputs, List.flatMap_singleton, List.flatMap_singleton] at htx
  omega

end Transaction

end VaultCovenant
