import VaultCovenant.Amount.Basic
import VaultCovenant.Hash.Sha256
import VaultCovenant.Script.Basic

/-!
# Transactions

Inputs, outputs and transactions, their serialization with and without witnesses, and the ids
computed from it. Every serialized record is a definition of its own.

Results:
* `compactSize_ne_nil`: a count is never written as the empty string.
* `Transaction.withWitnesses_txid`: witnesses do not change the id of a transaction.
-/

namespace VaultCovenant

/-! ## Serialized counts -/

/-- A count on one byte up to 252, else a marker and two, four or eight bytes. -/
def compactSize (n : Nat) : Bytes :=
  if n < 0xfd then [UInt8.ofNat n]
  else if n < 0x10000 then 0xfd :: Bytes.littleEndian 2 n
  else if n < 0x100000000 then 0xfe :: Bytes.littleEndian 4 n
  else 0xff :: Bytes.littleEndian 8 n

theorem compactSize_ne_nil (n : Nat) : compactSize n ≠ [] := by
  unfold compactSize
  repeat' split
  all_goals simp

/-- A byte string behind its length. -/
def lengthPrefixed (bs : Bytes) : Bytes := compactSize bs.length ++ bs

namespace Script

/-- The script behind its length, as outputs and hashes hold it. -/
def serialize (s : Script) : Bytes := lengthPrefixed s.bytes

end Script

/-! ## Outpoints, inputs and outputs -/

/-- The id of a transaction, shown with its bytes reversed. -/
structure Txid where
  digest : Digest
  deriving DecidableEq

namespace Txid

/-- The text of an id: the digest's bytes from last to first. -/
def text (txid : Txid) : String := txid.digest.reversed.toHex

/-- The id of no transaction. -/
def zero : Txid := ⟨Bytes32.filled 0⟩

/-- The id whose shown bytes are given. -/
def ofShownBytes? (bytes : Bytes) : Option Txid :=
  (Bytes32.ofBytes? bytes).map fun digest => ⟨digest.reversed⟩

end Txid

/-- An output of an earlier transaction. -/
structure Outpoint where
  txid : Txid
  vout : UInt32
  deriving DecidableEq

namespace Outpoint

/-- The outpoint that spends nothing. -/
def null : Outpoint := ⟨Txid.zero, 0xffffffff⟩

/-- The id and the index with a colon between them. -/
def text (o : Outpoint) : String := o.txid.text ++ ":" ++ toString o.vout.toNat

/-- The id in byte order and the index. -/
def serialize (o : Outpoint) : Bytes := o.txid.digest.bytes ++ Bytes.littleEndian 4 o.vout.toNat

end Outpoint

/-- What a transaction spends. -/
structure TxIn where
  previousOutput : Outpoint
  scriptSig : Script
  sequence : UInt32
  witness : List Bytes
  deriving DecidableEq

namespace TxIn

/-- The sequence number of an input that may be replaced and has no timelock. -/
def replaceable : UInt32 := 0xfffffffd

/-- The replaceable input that spends an outpoint and is not satisfied yet. -/
def spending (o : Outpoint) : TxIn := ⟨o, Script.empty, replaceable, []⟩

/-- The input without its witness. -/
def serialize (i : TxIn) : Bytes :=
  i.previousOutput.serialize ++ i.scriptSig.serialize ++ Bytes.littleEndian 4 i.sequence.toNat

/-- The witness: the count of its items, then each behind its length. -/
def serializeWitness (i : TxIn) : Bytes :=
  compactSize i.witness.length ++ i.witness.flatMap lengthPrefixed

end TxIn

/-- What a transaction pays. -/
structure TxOut where
  value : Sats
  scriptPubkey : Script
  deriving DecidableEq

namespace TxOut

/-- The bytes an output takes up in a list, where its script is kept elsewhere. -/
def size : Nat := 32

/-- The value on eight bytes, then the script behind its length. -/
def serialize (o : TxOut) : Bytes :=
  Bytes.littleEndian 8 o.value.toNat ++ o.scriptPubkey.serialize

end TxOut

/-! ## Transactions -/

/-- Inputs turned into outputs. -/
structure Transaction where
  version : Int32
  lockTime : UInt32
  inputs : List TxIn
  outputs : List TxOut
  deriving DecidableEq

namespace Transaction

/-- The transaction of version two without a lock time. -/
def plain (inputs : List TxIn) (outputs : List TxOut) : Transaction := ⟨2, 0, inputs, outputs⟩

/-- The version on four bytes. -/
def versionBytes (tx : Transaction) : Bytes := Bytes.littleEndian 4 tx.version.toUInt32.toNat

/-- The lock time on four bytes. -/
def lockTimeBytes (tx : Transaction) : Bytes := Bytes.littleEndian 4 tx.lockTime.toNat

/-- The counted inputs and the counted outputs. -/
def bodyBytes (tx : Transaction) : Bytes :=
  compactSize tx.inputs.length ++ tx.inputs.flatMap TxIn.serialize
    ++ (compactSize tx.outputs.length ++ tx.outputs.flatMap TxOut.serialize)

/-- The serialization without witnesses, from which the id is computed. -/
def strippedBytes (tx : Transaction) : Bytes :=
  tx.versionBytes ++ tx.bodyBytes ++ tx.lockTimeBytes

/-- Whether the serialization holds a marker and the witnesses: some witness has an item, or the
transaction has no inputs, which without the marker would be read as one. -/
def isMarked (tx : Transaction) : Bool :=
  tx.inputs.isEmpty || tx.inputs.any fun i => !i.witness.isEmpty

/-- The serialization as it is sent. -/
def serialize (tx : Transaction) : Bytes :=
  if tx.isMarked then
    tx.versionBytes ++ [0x00, 0x01] ++ tx.bodyBytes ++ tx.inputs.flatMap TxIn.serializeWitness
      ++ tx.lockTimeBytes
  else tx.strippedBytes

/-- The id, which witnesses do not enter. -/
def txid (tx : Transaction) : Txid := ⟨sha256d tx.strippedBytes⟩

/-- The id with the witnesses. -/
def wtxid (tx : Transaction) : Txid := ⟨sha256d tx.serialize⟩

/-! ## Attaching witnesses -/

/-- The inputs with the given witnesses, in order; inputs beyond the list keep their own. -/
def attach : List TxIn → List (List Bytes) → List TxIn
  | i :: is, w :: ws => { i with witness := w } :: attach is ws
  | is, _ => is

/-- The transaction with the given witnesses on its first inputs. -/
def withWitnesses (tx : Transaction) (witnesses : List (List Bytes)) : Transaction :=
  { tx with inputs := attach tx.inputs witnesses }

@[simp] theorem length_attach (is : List TxIn) (ws : List (List Bytes)) :
    (attach is ws).length = is.length := by
  induction is generalizing ws with
  | nil => cases ws <;> rfl
  | cons i is ih => cases ws <;> simp [attach, ih]

theorem flatMap_serialize_attach (is : List TxIn) (ws : List (List Bytes)) :
    (attach is ws).flatMap TxIn.serialize = is.flatMap TxIn.serialize := by
  induction is generalizing ws with
  | nil => cases ws <;> rfl
  | cons i is ih =>
    cases ws with
    | nil => rfl
    | cons w ws => rw [attach, List.flatMap_cons, ih, List.flatMap_cons]; rfl

theorem withWitnesses_txid (tx : Transaction) (ws : List (List Bytes)) :
    (tx.withWitnesses ws).txid = tx.txid := by
  simp only [txid, strippedBytes, bodyBytes, withWitnesses, length_attach,
    flatMap_serialize_attach, versionBytes, lockTimeBytes]

end Transaction

end VaultCovenant
