import VaultCovenant.Text.Numeral
import VaultCovenant.Transaction.Basic

/-!
# Text of transactions

How witnesses and whole transactions are shown, and how the ids of transactions and outpoints are
read.
-/

namespace VaultCovenant

/-! ## Writing -/

/-- A witness element in hexadecimal; one without bytes is shown by a word. -/
def itemText (item : Bytes) : String := if item.isEmpty then "<empty>" else item.toHex

/-- The elements of a witness, bottom first. -/
def witnessTexts (witness : List Bytes) : List String := witness.map itemText

/-- A transaction in hexadecimal, as it is sent. -/
def Transaction.toHex (tx : Transaction) : String := tx.serialize.toHex

/-! ## Reading ids -/

/-- Why a text is no id of a transaction. -/
inductive TxidError where
  /-- It has not 64 characters. -/
  | length
  /-- One of them is no hexadecimal digit. -/
  | digit
  deriving DecidableEq

/-- The wording of a complaint about an id. -/
def TxidError.message : TxidError → String
  | length => "failed to parse hex"
  | digit => "failed to parse hex digit"

/-- Reads an id. The length is counted in bytes and looked at first. -/
def Txid.ofText (text : String) : Except TxidError Txid :=
  if text.utf8ByteSize ≠ 64 then .error .length
  else match (Bytes.ofHex? text).bind Txid.ofShownBytes? with
    | some txid => .ok txid
    | none => .error .digit

/-! ## Reading outpoints -/

/-- Why a text is no outpoint. -/
inductive OutpointError where
  /-- It is longer than an id, a colon and ten digits. -/
  | tooLong
  /-- There is not one colon with something on both sides. -/
  | format
  /-- The part before the colon is no id. -/
  | txid (cause : TxidError)
  /-- The index has a sign or a zero in front. -/
  | padded
  /-- The index is no number of 32 bits. -/
  | vout
  deriving DecidableEq

/-- The wording of a complaint about an outpoint. -/
def OutpointError.message : OutpointError → String
  | tooLong => "vout should be at most 10 digits"
  | format => "OutPoint not in <txid>:<vout> format"
  | txid _ => "error parsing TXID"
  | padded => "no leading zeroes or + allowed in vout part"
  | vout => "error parsing vout"

namespace Outpoint

/-- Reads an index of an output: digits without a zero in front. -/
def voutOfText (cs : List Char) : Except OutpointError UInt32 :=
  if 1 < cs.length ∧ (cs.head? = some '0' ∨ cs.head? = some '+') then .error .padded
  else match Text.Numeral.natural? cs with
    | some n => if n < 0x100000000 then .ok (UInt32.ofNat n) else .error .vout
    | none => .error .vout

/-- Reads an id and an index with a colon between them. -/
def ofText (text : String) : Except OutpointError Outpoint := do
  if 75 < text.utf8ByteSize then throw .tooLong
  let front := text.toList.takeWhile (· != ':')
  let back := (text.toList.dropWhile (· != ':')).drop 1
  if front.isEmpty ∨ back.isEmpty ∨ back.contains ':' then throw .format
  let txid ← (Txid.ofText (String.ofList front)).mapError OutpointError.txid
  return ⟨txid, ← voutOfText back⟩

end Outpoint

end VaultCovenant
