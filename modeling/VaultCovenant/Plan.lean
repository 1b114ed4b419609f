import VaultCovenant.Amount.Text
import VaultCovenant.Json.Printer
import VaultCovenant.Recovery
import VaultCovenant.Text.Abbreviation
import VaultCovenant.Transaction.Text
import VaultCovenant.Vault.Summary
import VaultCovenant.Withdrawal

/-!
# Plans

Every transaction in the life of one vault, built before any of them is sent: the one that locks a
coin, the trigger, the withdrawal after the delay, and the recoveries from the vault and from the
trigger.

Results:
* `Plan.length_serialize_target`: the outputs of a withdrawal are serialized on the same number of
  bytes.
-/

namespace VaultCovenant

/-- The transactions of one vault. -/
structure Plan where
  vault : Vault
  batch : Batch
  triggerOutpoint : Outpoint
  lock : Transaction
  trigger : Transaction
  withdrawal : Transaction
  vaultRecovery : Transaction
  triggerRecovery : Transaction

namespace Plan

/-- The coin of a plan: an outpoint and its value. How it is unlocked is not known. -/
def coin (outpoint : Outpoint) (value : Sats) : Coin :=
  ⟨TxIn.spending outpoint, ⟨value, Script.empty⟩⟩

/-- The output of the withdrawal that pays a part. -/
def target (vault : Vault) (part : Sats) : TxOut := ⟨part, vault.policy.recoverySpk⟩

/-- The bytes on which an output of the withdrawal is serialized. -/
def targetLength : Nat := 43

theorem length_serialize_target (vault : Vault) (part : Sats) :
    (target vault part).serialize.length = targetLength := by
  simp [target, TxOut.serialize, Script.serialize, lengthPrefixed, Policy.recoverySpk, compactSize,
    targetLength]

/-- The outputs of the withdrawal: the amount in parts, all paid to the recovery output, in a list
that is made for that many. -/
def targets (vault : Vault) (amount : Sats) (parts : UInt64) : Except Failure (List TxOut) := do
  let amounts ← amount.split parts 0
  Room.check (Room.most TxOut.size) amounts.length
  return amounts.map (target vault)

/-- Plans the life of a vault that is to be funded by a coin of a given value. -/
def build (empty : Vault) (outpoint : Outpoint) (value : Sats) (parts : UInt64) :
    Except Failure Plan := do
  let (lock, vault) ← Failure.lift (empty.lock (coin outpoint value) none)
  let funding ← Failure.lift vault.funding
  let outputs ← targets vault funding.amount parts
  -- The template hash is taken of one byte string of all outputs, which grows by one at a time.
  Room.check (Room.mostGrown targetLength) outputs.length
  let batch ← Batch.build [vault] outputs none .none
  let trigger ← Failure.lift (Trigger.build [batch] none .none)
  let triggerOutpoint ← Failure.lift (trigger.outpoint 0)
  let withdrawal ← Failure.lift (Withdrawal.build triggerOutpoint batch .none)
  let fromVault ← Failure.lift (({} : RecoveryRequest).vaulted vault)
  let vaultRecovery ← Recovery.build fromVault
  let fromTrigger := { ({} : RecoveryRequest).spend vault triggerOutpoint with
    trigger := some trigger }
  let triggerRecovery ← Recovery.build fromTrigger
  return {
    vault, batch, triggerOutpoint, lock, withdrawal
    trigger := trigger.tx
    vaultRecovery := vaultRecovery.tx
    triggerRecovery := triggerRecovery.tx }

/-- The transactions with their names, in the order of a vault's life. -/
def transactions (p : Plan) : List (String × Transaction) := [
  ("initialize", p.lock),
  ("trigger", p.trigger),
  ("withdraw", p.withdrawal),
  ("recover-from-vault", p.vaultRecovery),
  ("recover-from-trigger", p.triggerRecovery)]

/-! ## Showing a plan -/

/-- An output in one line. -/
def outputText (o : TxOut) : String := o.value.text ++ " -> " ++ o.scriptPubkey.toHex

/-- A transaction of a plan; of the witnesses only the first input's is shown. -/
def stepJson (name : String) (tx : Transaction) : Json :=
  .obj [
    ("step", .str name),
    ("txid", .str tx.txid.text),
    ("inputs", .nat tx.inputs.length),
    ("outputs", .texts (tx.outputs.map outputText)),
    ("witness", .texts ((tx.inputs.head?.map fun i => witnessTexts i.witness).getD [])),
    ("hex", .str tx.toHex)]

/-- A short form of an outpoint. -/
def outpointText (o : Outpoint) : String := (Text.abbreviate o.text).getD o.text

/-- A plan as JSON, its fields in order of their names. -/
def json (p : Plan) : Json :=
  (Json.obj [
    ("vault", p.vault.summary),
    ("withdrawal_hash", .str p.batch.withdrawalHash.toHex),
    ("trigger_outpoint", .str (outpointText p.triggerOutpoint)),
    ("transactions", .arr (p.transactions.map fun (name, tx) => stepJson name tx))]).sorted

end Plan

end VaultCovenant
