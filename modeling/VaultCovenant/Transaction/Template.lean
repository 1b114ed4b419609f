import VaultCovenant.Hash.Tagged
import VaultCovenant.Transaction.Basic

/-!
# Commitments to scripts and transactions

The template hash of BIP-119, which fixes a transaction before the output it spends exists, and
the commitments to a recovery script and to a trigger script.

Results:
* `templateHash_withWitnesses`: witnesses do not enter the template hash.
-/

namespace VaultCovenant

/-! ## Script commitments -/

/-- The string hashed into the commitment to a recovery output. -/
def recoveryPreimage (scriptPubkey : Script) : Bytes :=
  taggedPreimage "VaultRecoverySPK" scriptPubkey.serialize

/-- The commitment to a recovery output's script. -/
def recoveryCommitment (scriptPubkey : Script) : Digest := sha256 (recoveryPreimage scriptPubkey)

/-- The commitment to a trigger script. -/
def triggerCommitment (script : Script) : Digest :=
  taggedHash "VaultTriggerSPK" script.serialize

/-! ## The template hash -/

namespace Transaction

/-- The signature scripts, each behind its length. -/
def scriptSigBytes (tx : Transaction) : Bytes := tx.inputs.flatMap fun i => i.scriptSig.serialize

/-- The sequence numbers, four bytes each. -/
def sequenceBytes (tx : Transaction) : Bytes :=
  tx.inputs.flatMap fun i => Bytes.littleEndian 4 i.sequence.toNat

/-- The outputs, each as it is serialized. -/
def outputBytes (tx : Transaction) : Bytes := tx.outputs.flatMap TxOut.serialize

/-- Whether some input has a signature script. -/
def hasScriptSig (tx : Transaction) : Bool := tx.inputs.any fun i => !i.scriptSig.isEmpty

/-- The digest of the signature scripts, or nothing when all are empty. -/
def scriptSigCommitment (tx : Transaction) : Bytes :=
  if tx.hasScriptSig then (sha256 tx.scriptSigBytes).bytes else []

/-- The string hashed into the template hash for the input at `index`. Outpoints are left out,
and the counts are cut to 32 bits. -/
def templatePreimage (tx : Transaction) (index : UInt32) : Bytes :=
  tx.versionBytes ++ tx.lockTimeBytes ++ tx.scriptSigCommitment
    ++ Bytes.littleEndian 4 tx.inputs.length ++ (sha256 tx.sequenceBytes).bytes
    ++ Bytes.littleEndian 4 tx.outputs.length ++ (sha256 tx.outputBytes).bytes
    ++ Bytes.littleEndian 4 index.toNat

/-- The template hash for the input at `index`. -/
def templateHash (tx : Transaction) (index : UInt32) : Digest :=
  sha256 (tx.templatePreimage index)

theorem templateHash_withWitnesses (tx : Transaction) (ws : List (List Bytes)) (index : UInt32) :
    (tx.withWitnesses ws).templateHash index = tx.templateHash index := by
  have scripts : ∀ (is : List TxIn) (ws : List (List Bytes)),
      (attach is ws).map (·.scriptSig) = is.map (·.scriptSig) := by
    intro is
    induction is with
    | nil => intro ws; cases ws <;> rfl
    | cons i is ih => intro ws; cases ws <;> simp [attach, ih]
  have sequences : ∀ (is : List TxIn) (ws : List (List Bytes)),
      (attach is ws).map (·.sequence) = is.map (·.sequence) := by
    intro is
    induction is with
    | nil => intro ws; cases ws <;> rfl
    | cons i is ih => intro ws; cases ws <;> simp [attach, ih]
  have viaScript (tx : Transaction) :
      tx.scriptSigBytes = (tx.inputs.map (·.scriptSig)).flatMap Script.serialize ∧
      tx.hasScriptSig = (tx.inputs.map (·.scriptSig)).any (fun s => !s.isEmpty) ∧
      tx.sequenceBytes = (tx.inputs.map (·.sequence)).flatMap
        (fun s => Bytes.littleEndian 4 s.toNat) := by
    simp [scriptSigBytes, hasScriptSig, sequenceBytes, List.flatMap_map, List.any_map,
      Function.comp_def]
  simp only [templateHash, templatePreimage, scriptSigCommitment, viaScript, withWitnesses,
    scripts, sequences, length_attach, versionBytes, lockTimeBytes, outputBytes]

end Transaction

end VaultCovenant
