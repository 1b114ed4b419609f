import VaultCovenant.Batch

/-!
# Trigger transactions

One transaction that spends every member of its batches into their trigger outputs and the outputs
that return value to the vaults. The complete input and output set is fixed first; positions and
signatures refer to it.

`Trigger.checkedBuild` puts the same transaction together in steps that could lead out of 32 bits
or to no batch: positions are counted without a coin and moved on when there is one, and the batch
of a member is looked up by its index.

Results:
* `Trigger.length_positions`: every batch has a position.
-/

namespace VaultCovenant

/-- Where the outputs of a batch are among those of the trigger. -/
structure BatchPosition where
  trigger : UInt32
  revault : Option UInt32
  deriving DecidableEq

/-- The position behind another; there is none beyond 32 bits. -/
def positionAfter (vout : UInt32) : Except Failure UInt32 :=
  if vout.toNat + 1 < 0x100000000 then .ok (vout + 1) else .error .overflow

/-- The positions of a batch, both moved on. -/
def BatchPosition.after (p : BatchPosition) : Except Failure BatchPosition := do
  let trigger ← positionAfter p.trigger
  let revault ← p.revault.mapM positionAfter
  return ⟨trigger, revault⟩

/-- The member of a list that an index has to lead to. -/
def memberAt {α : Type} (xs : List α) (i : Nat) : Except Failure α :=
  match xs[i]? with
  | some x => .ok x
  | none => .error .overflow

/-- A trigger transaction with its batches and the positions of their outputs. -/
structure Trigger where
  tx : Transaction
  batches : List Batch
  positions : List BatchPosition
  feeChange : Option UInt32
  deriving DecidableEq

namespace Coin

/-- The fee kept back from a coin that pays for a transaction. -/
def payingFee : Sats := 10000

/-- What a coin that pays for a transaction leaves, to anyone. -/
def change (coin : Coin) : Except VaultError TxOut := do
  return ⟨← coin.spent.value.spend payingFee, Script.anyone⟩

end Coin

namespace Trigger

/-- The key with which a trigger is forged. -/
def forgingSecret : SecretKey := ⟨0xbad, by decide, by decide⟩

/-- What stands in a witness for an output that does not exist. -/
def noOutput : Int := -1

/-- The positions of the batches' outputs when the first of them is at `start`. -/
def positionsFrom (start : Nat) : List Batch → List BatchPosition
  | [] => []
  | batch :: rest =>
    ⟨UInt32.ofNat start, batch.revaultOutput.map fun _ => UInt32.ofNat (start + 1)⟩
      :: positionsFrom (start + batch.outputs.length) rest

theorem length_positions (start : Nat) (batches : List Batch) :
    (positionsFrom start batches).length = batches.length := by
  induction batches generalizing start with
  | nil => rfl
  | cons batch rest ih => simp [positionsFrom, ih]

/-- A member to be spent, with its batch and where that batch's outputs are. -/
structure Spend where
  vault : Vault
  batch : Batch
  position : BatchPosition

/-- All members in batch and member order. -/
def spends (batches : List Batch) (positions : List BatchPosition) : List Spend :=
  (batches.zip positions).flatMap fun (batch, position) =>
    batch.members.map fun vault => ⟨vault, batch, position⟩

/-- The witness of a member, bottom first: where the value returned to the vault is or minus one,
where the trigger output is, the template hash, the signature, the trigger leaf and its control
block. -/
def witness (tx : Transaction) (spent : List TxOut) (faults : FaultSet) (index : Nat)
    (s : Spend) : Except VaultError (List Bytes) := do
  let skew : Int := if faults.contains .triggerVoutOffByOne then 1 else 0
  let signer :=
    if faults.contains .triggerWrongKey then forgingSecret else s.vault.policy.triggerSecret
  let leaf ← s.vault.policy.tree.leafHash triggerLeaf
  let signature ← signScriptPath tx index spent leaf signer
  let control ← s.vault.policy.tree.controlBlock triggerLeaf
  return [
    ScriptNumber.encode ((s.position.revault.map fun vout => (vout.toNat : Int)).getD noOutput),
    ScriptNumber.encode (s.position.trigger.toNat + skew),
    s.batch.withdrawalHash.bytes,
    signature,
    s.vault.policy.triggerScript.bytes,
    control.bytes]

/-- The witnesses of members whose first is spent by the input at `index`. -/
def witnessesFrom (tx : Transaction) (spent : List TxOut) (faults : FaultSet) (index : Nat) :
    List Spend → Except VaultError (List (List Bytes))
  | [] => .ok []
  | s :: rest => do
    let w ← witness tx spent faults index s
    let ws ← witnessesFrom tx spent faults (index + 1) rest
    return w :: ws

/-- The outputs of all batches, behind the change of the coin that pays if there is one. -/
def outputs (batches : List Batch) (change : Option TxOut) : List TxOut :=
  change.toList ++ batches.flatMap Batch.outputs

/-- The transaction before its witnesses are attached. The coin that pays comes last among the
inputs and its change first among the outputs. -/
def unsigned (fundings : List Funding) (fee : Option Coin) (batches : List Batch)
    (change : Option TxOut) : Transaction :=
  .plain (fundings.map (fun f => TxIn.spending f.outpoint) ++ (fee.map Coin.input).toList)
    (outputs batches change)

/-- The outputs that the inputs spend, in order. -/
def prevouts (fundings : List Funding) (fee : Option Coin) : List TxOut :=
  fundings.map Funding.output ++ (fee.map Coin.spent).toList

/-- Builds the transaction. -/
def build (batches : List Batch) (fee : Option Coin) (faults : FaultSet) :
    Except VaultError Trigger := do
  let fundings ← Vault.fundings (batches.flatMap Batch.members)
  let change ← fee.mapM Coin.change
  let positions := positionsFrom change.toList.length batches
  let tx := unsigned fundings fee batches change
  let witnesses ← witnessesFrom tx (prevouts fundings fee) faults 0 (spends batches positions)
  return {
    tx := tx.withWitnesses witnesses
    batches, positions
    feeChange := change.map fun _ => 0 }

/-! ## Steps that are checked -/

/-- Where the outputs of the batches are: counted as without a coin that pays, and moved on by one
if its change is there. -/
def checkedPositions (batches : List Batch) (change : Option TxOut) :
    Except Failure (List BatchPosition) :=
  match change with
  | none => .ok (positionsFrom 0 batches)
  | some _ => (positionsFrom 0 batches).mapM BatchPosition.after

/-- The members in order, each with the index of its batch. -/
def indexedMembers (batches : List Batch) : List (Nat × Vault) :=
  batches.zipIdx.flatMap fun (batch, i) => batch.members.map fun v => (i, v)

/-- The witness of a member whose batch is looked up by its index. -/
def checkedWitness (tx : Transaction) (spent : List TxOut) (faults : FaultSet)
    (batches : List Batch) (positions : List BatchPosition) (index : Nat)
    (member : Nat × Vault) : Except Failure (List Bytes) := do
  let batch ← memberAt batches member.1
  let position ← memberAt positions member.1
  Failure.lift (witness tx spent faults index ⟨member.2, batch, position⟩)

/-- Builds the transaction in steps, each of which ends the computation if it leads out of 32 bits
or to no batch. -/
def checkedBuild (batches : List Batch) (fee : Option Coin) (faults : FaultSet) :
    Except Failure Trigger := do
  let fundings ← Failure.lift (Vault.fundings (batches.flatMap Batch.members))
  let change ← Failure.lift (fee.mapM Coin.change)
  let positions ← checkedPositions batches change
  let tx := unsigned fundings fee batches change
  let witnesses ← (indexedMembers batches).zipIdx.mapM fun p =>
    checkedWitness tx (prevouts fundings fee) faults batches positions p.2 p.1
  return {
    tx := tx.withWitnesses witnesses
    batches, positions
    feeChange := change.map fun _ => 0 }

/-! ## Reading a trigger -/

/-- The id of the transaction. -/
def txid (t : Trigger) : Txid := t.tx.txid

/-- The trigger output of the batch at `index`. -/
def outpoint (t : Trigger) (index : Nat) : Except VaultError Outpoint :=
  match t.positions[index]? with
  | some position => .ok ⟨t.txid, position.trigger⟩
  | none => .error (.transaction ("no trigger batch at index " ++ toString index))

/-- The output by which the batch at `index` returns value to the vault, if it does. -/
def revaultOutpoint (t : Trigger) (index : Nat) : Option Outpoint := do
  let position ← t.positions[index]?
  let vout ← position.revault
  return ⟨t.txid, vout⟩

/-- The first batch with a vault, and its position. -/
def batchOf (t : Trigger) (id : VaultId) : Option (Nat × Batch) :=
  (t.batches.zipIdx.find? fun (batch, _) => batch.contains id).map Prod.swap

/-- The longest delay, after which every withdrawal is final. -/
def maxSpendDelay (t : Trigger) : Int64 :=
  match t.batches with
  | [] => 0
  | batch :: rest =>
    rest.foldl (fun longest b => if longest < b.spendDelay then b.spendDelay else longest)
      batch.spendDelay

/-- The batches that return value to the vault, with the output by which they do. -/
def returns (t : Trigger) : List (Batch × Outpoint × TxOut) :=
  t.batches.zipIdx.filterMap fun (batch, index) => do
    let outpoint ← t.revaultOutpoint index
    let output ← batch.revaultOutput
    return (batch, outpoint, output)

/-- A new vault for every output by which value returned, named by `ids` in order. -/
def revaulted (t : Trigger) (ids : Nat → VaultId) : Except VaultError (List Vault) :=
  t.returns.zipIdx.mapM fun ((batch, outpoint, output), k) => do
    let vault ← batch.canonical
    return vault.returned (ids k) outpoint output

end Trigger

end VaultCovenant
