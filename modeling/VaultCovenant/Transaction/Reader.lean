import VaultCovenant.Transaction.Basic

/-!
# Reading transactions

Reads a serialized transaction, with or without witnesses. Every reader takes the bytes ahead and
gives what it read with the bytes left.

Results:
* `take_append`: taking as many bytes as were put in front gives them back.
-/

namespace VaultCovenant.Transaction

/-- A reader of serialized records. -/
abbrev Reader (α : Type) := StateT Bytes Option α

namespace Reader

/-- A number of bytes. -/
def take (count : Nat) : Reader Bytes := fun bs =>
  if count ≤ bs.length then some (bs.take count, bs.drop count) else none

theorem take_append (front back : Bytes) :
    take front.length (front ++ back) = some (front, back) := by
  simp [take]

/-- A number of a fixed width. -/
def number (width : Nat) : Reader Nat := return Bytes.toNatLE (← take width)

/-- A number that must not be below a bound, since a shorter form would do. -/
def numberFrom (least width : Nat) : Reader Nat := do
  let n ← number width
  if least ≤ n then return n else failure

/-- A count in its shortest form. -/
def count : Reader Nat := do
  let n ← number 1
  if n < 0xfd then return n
  else if n = 0xfd then numberFrom 0xfd 2
  else if n = 0xfe then numberFrom 0x10000 4
  else numberFrom 0x100000000 8

/-- A byte string behind its length. -/
def prefixed : Reader Bytes := do take (← count)

/-- A number of records one after the other. -/
def repeated {α : Type} (record : Reader α) : Nat → Reader (List α)
  | 0 => pure []
  | n + 1 => do
    let first ← record
    let rest ← repeated record n
    return first :: rest

/-- Records behind their count. -/
def counted {α : Type} (record : Reader α) : Reader (List α) := do repeated record (← count)

/-- An input without its witness. -/
def input : Reader TxIn := do
  let some digest := Bytes32.ofBytes? (← take 32) | failure
  let vout ← number 4
  let scriptSig ← prefixed
  let sequence ← number 4
  return ⟨⟨⟨digest⟩, UInt32.ofNat vout⟩, ⟨scriptSig⟩, UInt32.ofNat sequence, []⟩

/-- An output. -/
def output : Reader TxOut := do
  let value ← number 8
  let script ← prefixed
  return ⟨UInt64.ofNat value, ⟨script⟩⟩

/-- The rest of a transaction behind its marker: inputs, outputs and a witness for every input, not
all of them empty. -/
def marked : Reader (List TxIn × List TxOut) := do
  if (← number 1) ≠ 1 then failure
  let inputs ← counted input
  let outputs ← counted output
  let witnesses ← repeated (counted prefixed) inputs.length
  if !inputs.isEmpty && witnesses.all List.isEmpty then failure
  return (attach inputs witnesses, outputs)

/-- Inputs and outputs. No inputs stand for the marker. -/
def body : Reader (List TxIn × List TxOut) := do
  let inputs ← counted input
  if inputs.isEmpty then marked
  else return (inputs, ← counted output)

/-- A transaction. -/
def transaction : Reader Transaction := do
  let version ← number 4
  let (inputs, outputs) ← body
  let lockTime ← number 4
  return ⟨(UInt32.ofNat version).toInt32, UInt32.ofNat lockTime, inputs, outputs⟩

end Reader

/-- The transaction with a serialization. -/
def ofBytes? (bytes : Bytes) : Option Transaction :=
  match Reader.transaction bytes with
  | some (tx, []) => some tx
  | _ => none

end VaultCovenant.Transaction
