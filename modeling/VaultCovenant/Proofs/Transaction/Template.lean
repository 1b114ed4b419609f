import Mathlib.Data.List.Forall2
import VaultCovenant.Proofs.Hash.Collision
import VaultCovenant.Proofs.Hash.Numerals
import VaultCovenant.Proofs.Transaction.Reading
import VaultCovenant.Transaction.Template

/-!
# What the template hash covers

The template hash covers the version, the lock time, the signature scripts,
the sequence numbers and the outputs of a transaction, and the index of one
input. It looks at nothing else, and whatever it covers it binds.

Results:
* `templateHash_congr`: transactions that agree in what is covered have the
  same template hash.
* `templatePreimage_inj`: the string that is hashed can be taken apart, with
  signature scripts and without.
* `templateHash_binds`: equal template hashes cover equal transactions, unless
  two of the strings hashed collide.
* `templateHash_eq_iff`: so the hashes are equal exactly when what is covered
  is, whatever the outpoints and the witnesses are.
-/

namespace VaultCovenant.Transaction

variable {s t : Transaction} {i j : UInt32}

/-- Two transactions agree in everything that the template hash covers. The
outpoints and the witnesses are left out. -/
structure SameTemplate (s t : Transaction) : Prop where
  version : s.version = t.version
  lockTime : s.lockTime = t.lockTime
  scriptSigs : s.inputs.map (·.scriptSig) = t.inputs.map (·.scriptSig)
  sequences : s.inputs.map (·.sequence) = t.inputs.map (·.sequence)
  outputs : s.outputs = t.outputs

/-- The number of inputs is covered with their sequence numbers. -/
theorem length_inputs_of_sequences
    (h : s.inputs.map (·.sequence) = t.inputs.map (·.sequence)) :
    s.inputs.length = t.inputs.length := by
  have hlen := congrArg List.length h
  rwa [List.length_map, List.length_map] at hlen

/-- No script is too long to be written behind its length. -/
structure Sized (tx : Transaction) : Prop where
  inputs : ∀ i ∈ tx.inputs, i.scriptSig.Sized
  outputs : ∀ o ∈ tx.outputs, o.scriptPubkey.Sized

/-- The strings hashed on the way to the template hash. -/
def templateMessages (tx : Transaction) (index : UInt32) : List Bytes :=
  (if tx.hasScriptSig then [tx.scriptSigBytes] else [])
    ++ [tx.sequenceBytes, tx.outputBytes, tx.templatePreimage index]

/-! ## Parts of the string that is hashed -/

theorem scriptSigBytes_eq (tx : Transaction) :
    tx.scriptSigBytes = (tx.inputs.map (·.scriptSig)).flatMap Script.serialize := by
  rw [List.flatMap_map]
  rfl

theorem sequenceBytes_eq (tx : Transaction) :
    tx.sequenceBytes =
      (tx.inputs.map (·.sequence)).flatMap fun n => Bytes.littleEndian 4 n.toNat := by
  rw [List.flatMap_map]
  rfl

theorem hasScriptSig_eq (tx : Transaction) :
    tx.hasScriptSig = (tx.inputs.map (·.scriptSig)).any fun s => !s.isEmpty := by
  rw [List.any_map]
  rfl

/-- Where no signature script has bytes, their number says what they are. -/
theorem scriptSigs_of_hasScriptSig_eq_false {tx : Transaction} (h : tx.hasScriptSig = false) :
    tx.inputs.map (·.scriptSig) = List.replicate tx.inputs.length Script.empty := by
  rw [List.eq_replicate_iff]
  refine ⟨List.length_map .., ?_⟩
  intro script hscript
  rw [hasScriptSig_eq, List.any_eq_false] at h
  have hempty := h script hscript
  obtain ⟨bytes⟩ := script
  simp only [Script.isEmpty, Bool.not_eq_true, Bool.not_eq_false', List.isEmpty_iff] at hempty
  rw [hempty]
  rfl

theorem length_scriptSigCommitment (tx : Transaction) :
    tx.scriptSigCommitment.length = if tx.hasScriptSig then 32 else 0 := by
  unfold scriptSigCommitment
  split
  · exact Bytes32.length_eq _
  · rfl

theorem hasScriptSig_of_scriptSigCommitment (h : s.scriptSigCommitment = t.scriptSigCommitment) :
    s.hasScriptSig = t.hasScriptSig := by
  have hlen := congrArg List.length h
  rw [length_scriptSigCommitment, length_scriptSigCommitment] at hlen
  cases hs : s.hasScriptSig <;> cases ht : t.hasScriptSig <;> simp [hs, ht] at hlen ⊢

theorem versionBytes_inj (h : s.versionBytes = t.versionBytes) : s.version = t.version :=
  congrArg Int32.ofUInt32 (Bytes.littleEndian_uint32_inj h)

theorem lockTimeBytes_inj (h : s.lockTimeBytes = t.lockTimeBytes) : s.lockTime = t.lockTime :=
  Bytes.littleEndian_uint32_inj h

/-- The string that is hashed has fields of fixed widths but for the digest of
the signature scripts, which its length tells to be there or not. -/
theorem templatePreimage_inj (h : s.templatePreimage i = t.templatePreimage j) :
    s.versionBytes = t.versionBytes ∧ s.lockTimeBytes = t.lockTimeBytes ∧
      s.scriptSigCommitment = t.scriptSigCommitment ∧
      (sha256 s.sequenceBytes).bytes = (sha256 t.sequenceBytes).bytes ∧
      (sha256 s.outputBytes).bytes = (sha256 t.outputBytes).bytes ∧ i = j := by
  unfold templatePreimage at h
  obtain ⟨h, hindex⟩ := List.append_inj' h (by simp)
  obtain ⟨h, houtputs⟩ := List.append_inj' h (by simp [Bytes32.length_eq])
  obtain ⟨h, -⟩ := List.append_inj' h (by simp)
  obtain ⟨h, hsequences⟩ := List.append_inj' h (by simp [Bytes32.length_eq])
  obtain ⟨h, -⟩ := List.append_inj' h (by simp)
  obtain ⟨h, hscripts⟩ := List.append_inj h (by simp [versionBytes, lockTimeBytes])
  obtain ⟨hversion, hlock⟩ := List.append_inj h (by simp [versionBytes])
  exact ⟨hversion, hlock, hscripts, hsequences, houtputs, Bytes.littleEndian_uint32_inj hindex⟩

/-! ## Covering and binding -/

theorem templateHash_congr (h : SameTemplate s t) (i : UInt32) :
    s.templateHash i = t.templateHash i := by
  have hlen := length_inputs_of_sequences h.sequences
  simp only [templateHash, templatePreimage, scriptSigCommitment, scriptSigBytes_eq,
    hasScriptSig_eq, sequenceBytes_eq, versionBytes, lockTimeBytes, outputBytes, h.version,
    h.lockTime, h.scriptSigs, h.sequences, h.outputs, hlen]

/-- What an input spends and its witness are not covered. -/
theorem sameTemplate_inputs {inputs : List TxIn}
    (h : List.Forall₂ (fun a b => a.scriptSig = b.scriptSig ∧ a.sequence = b.sequence)
      s.inputs inputs) : SameTemplate s { s with inputs := inputs } := by
  refine ⟨rfl, rfl, ?_, ?_, rfl⟩ <;>
    rw [← List.forall₂_eq_eq_eq, List.forall₂_map_left_iff, List.forall₂_map_right_iff]
  · exact h.imp fun _ _ hab => hab.1
  · exact h.imp fun _ _ hab => hab.2

section Binding

variable (hno : ¬ Collision (s.templateMessages i) (t.templateMessages j))

include hno

theorem sequences_bound (h : (sha256 s.sequenceBytes).bytes = (sha256 t.sequenceBytes).bytes) :
    s.inputs.map (·.sequence) = t.inputs.map (·.sequence) := by
  have hbytes := eq_of_not_collision hno (by simp [templateMessages])
    (by simp [templateMessages]) (Bytes32.ext_bytes h)
  rw [sequenceBytes_eq, sequenceBytes_eq] at hbytes
  exact flatMap_uint32_inj hbytes

theorem outputs_bound (hs : s.Sized) (ht : t.Sized)
    (h : (sha256 s.outputBytes).bytes = (sha256 t.outputBytes).bytes) : s.outputs = t.outputs := by
  have hbytes := eq_of_not_collision hno (by simp [templateMessages])
    (by simp [templateMessages]) (Bytes32.ext_bytes h)
  exact flatMap_output_inj hs.outputs ht.outputs hbytes

/-- With as many inputs on either side, it does not matter whether there is a
digest of the signature scripts. -/
theorem scriptSigs_bound (hs : s.Sized) (ht : t.Sized)
    (hlen : s.inputs.length = t.inputs.length)
    (h : s.scriptSigCommitment = t.scriptSigCommitment) :
    s.inputs.map (·.scriptSig) = t.inputs.map (·.scriptSig) := by
  have hhas := hasScriptSig_of_scriptSigCommitment h
  cases hhas' : t.hasScriptSig with
  | false =>
    rw [scriptSigs_of_hasScriptSig_eq_false (hhas.trans hhas'),
      scriptSigs_of_hasScriptSig_eq_false hhas', hlen]
  | true =>
    rw [hhas'] at hhas
    rw [scriptSigCommitment, scriptSigCommitment, if_pos hhas, if_pos hhas'] at h
    have hbytes := eq_of_not_collision hno (by simp [templateMessages, hhas])
      (by simp [templateMessages, hhas']) (Bytes32.ext_bytes h)
    rw [scriptSigBytes_eq, scriptSigBytes_eq] at hbytes
    exact flatMap_script_inj (List.forall_mem_map.mpr hs.inputs)
      (List.forall_mem_map.mpr ht.inputs) hbytes

end Binding

/-- Equal template hashes cover equal transactions, unless two of the strings
hashed collide. -/
theorem templateHash_binds (hs : s.Sized) (ht : t.Sized)
    (h : s.templateHash i = t.templateHash j) :
    (i = j ∧ SameTemplate s t) ∨ Collision (s.templateMessages i) (t.templateMessages j) := by
  by_cases hno : Collision (s.templateMessages i) (t.templateMessages j)
  · exact Or.inr hno
  left
  have hpreimage : s.templatePreimage i = t.templatePreimage j :=
    eq_of_not_collision hno (by simp [templateMessages]) (by simp [templateMessages]) h
  obtain ⟨hversion, hlock, hscripts, hsequences, houtputs, hindex⟩ := templatePreimage_inj hpreimage
  have hsequences := sequences_bound hno hsequences
  have hlen := length_inputs_of_sequences hsequences
  exact ⟨hindex, versionBytes_inj hversion, lockTimeBytes_inj hlock,
    scriptSigs_bound hno hs ht hlen hscripts, hsequences, outputs_bound hno hs ht houtputs⟩

/-- The template hash binds what it covers, and nothing else. Unless a string
hashed for one transaction collides with a string hashed for the other, the
hashes for two inputs are equal exactly when the inputs have one index and the
transactions agree in version, lock time, number of inputs, signature scripts,
sequence numbers and outputs. Other outpoints and other witnesses leave the
hash as it is. -/
theorem templateHash_eq_iff (s t : Transaction) (i j : UInt32) :
    (s.Sized → t.Sized → ¬ Collision (s.templateMessages i) (t.templateMessages j) →
      (s.templateHash i = t.templateHash j ↔
        i = j ∧ s.version = t.version ∧ s.lockTime = t.lockTime ∧
          s.inputs.length = t.inputs.length ∧
          s.inputs.map (·.scriptSig) = t.inputs.map (·.scriptSig) ∧
          s.inputs.map (·.sequence) = t.inputs.map (·.sequence) ∧
          s.outputs = t.outputs)) ∧
    ∀ inputs : List TxIn,
      List.Forall₂ (fun a b => a.scriptSig = b.scriptSig ∧ a.sequence = b.sequence)
        s.inputs inputs →
      templateHash { s with inputs := inputs } i = s.templateHash i := by
  constructor
  · intro hs ht hno
    constructor
    · intro hhash
      rcases templateHash_binds hs ht hhash with ⟨hindex, hsame⟩ | hcollision
      · exact ⟨hindex, hsame.version, hsame.lockTime, length_inputs_of_sequences hsame.sequences,
          hsame.scriptSigs, hsame.sequences, hsame.outputs⟩
      · exact absurd hcollision hno
    · rintro ⟨rfl, hversion, hlock, -, hscripts, hsequences, houtputs⟩
      exact templateHash_congr ⟨hversion, hlock, hscripts, hsequences, houtputs⟩ i
  · intro inputs halike
    exact (templateHash_congr (sameTemplate_inputs halike) i).symm

/-- A transaction whose one input has a signature script has another template
hash than the transaction without it: none of the six strings hashed for them
collide. Spending another output with a witness changes nothing. -/
theorem templateHash_eq_iff_scriptSig :
    ∃ s t moved : Transaction,
      s = plain [TxIn.spending .null] [⟨100000, Script.anyone⟩] ∧
      t = { s with inputs := [{ TxIn.spending .null with scriptSig := Script.anyone }] } ∧
      moved = { s with
        inputs := [⟨⟨⟨Bytes32.filled 9⟩, 3⟩, Script.empty, TxIn.replaceable, [[1]]⟩] } ∧
      s.Sized ∧ t.Sized ∧ ¬ Collision (s.templateMessages 0) (t.templateMessages 0) ∧
      s.templateHash 0 ≠ t.templateHash 0 ∧ moved.templateHash 0 = s.templateHash 0 := by
  let s := plain [TxIn.spending .null] [⟨100000, Script.anyone⟩]
  let t : Transaction :=
    { s with inputs := [{ TxIn.spending .null with scriptSig := Script.anyone }] }
  have hs : s.Sized := ⟨by decide, by decide⟩
  have ht : t.Sized := ⟨by decide, by decide⟩
  have hno : ¬ Collision (s.templateMessages 0) (t.templateMessages 0) := by
    simp only [Collision, templateMessages, templatePreimage, scriptSigCommitment, sha256_eq_digest]
    decide +kernel
  obtain ⟨hiff, hmoved⟩ := templateHash_eq_iff s t 0 0
  refine ⟨s, t, _, rfl, rfl, rfl, hs, ht, hno, ?_, hmoved _ ?_⟩
  · rw [Ne, hiff hs ht hno]
    decide
  · exact .cons ⟨rfl, rfl⟩ .nil

end VaultCovenant.Transaction
