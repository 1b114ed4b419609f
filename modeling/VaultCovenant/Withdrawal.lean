import VaultCovenant.Trigger

/-!
# Final withdrawals

The transaction that spends a trigger output after the delay, checked against the template hash to
which the trigger output commits.

Results:
* `Withdrawal.applyFaults_none`: without faults the checked transaction is returned.
-/

namespace VaultCovenant.Withdrawal

/-- The template with the outpoint and the witness of its first input set. -/
def complete (outpoint : Outpoint) (batch : Batch) : Except VaultError Transaction := do
  let control ← batch.tree.controlBlock withdrawLeaf
  match batch.template.inputs with
  | [] => throw (.transaction "withdrawal template has no input")
  | input :: rest =>
    let input := { input with
      previousOutput := outpoint
      witness := [batch.withdrawScript.bytes, control.bytes] }
    return { batch.template with inputs := input :: rest }

/-- A list with its first member changed. -/
def modifyFirst {α : Type} (f : α → α) : List α → List α
  | [] => []
  | a :: rest => f a :: rest

/-- The sequence number of the first input lowered, and the first output too, as two faults ask. -/
def applyFaults (faults : FaultSet) (tx : Transaction) : Transaction :=
  let lowerSequence (i : TxIn) : TxIn :=
    { i with sequence := if i.sequence = 0 then 0 else i.sequence - 1 }
  let lowerValue (o : TxOut) : TxOut := { o with value := o.value.lowered }
  { tx with
    inputs :=
      if faults.contains .withdrawalSequenceTooLow then modifyFirst lowerSequence tx.inputs
      else tx.inputs
    outputs :=
      if faults.contains .withdrawalOutputChanged then modifyFirst lowerValue tx.outputs
      else tx.outputs }

theorem applyFaults_none (tx : Transaction) : applyFaults .none tx = tx := rfl

/-- Builds the withdrawal of a batch from its trigger output. -/
def build (outpoint : Outpoint) (batch : Batch) (faults : FaultSet) :
    Except VaultError Transaction := do
  let tx ← complete outpoint batch
  let actual := tx.templateHash 0
  if actual = batch.withdrawalHash then return applyFaults faults tx
  else throw (.templateHashMismatch batch.withdrawalHash.toHex actual.toHex)

end VaultCovenant.Withdrawal
