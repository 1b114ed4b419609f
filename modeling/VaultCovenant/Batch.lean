import VaultCovenant.Fault
import VaultCovenant.Vault.Basic

/-!
# Trigger batches

Vaults that are triggered together: the withdrawal they commit to, the tree that enforces the delay
or a recovery, and the output that returns part of the value to the vault. The parameters of the
first member stand for all. Whether the others agree with it is reported but not enforced, so that
a validator can be shown a batch that does not fit together.
-/

namespace VaultCovenant

/-- Vaults with the withdrawal they are triggered for. -/
structure Batch where
  members : List Vault
  targets : List TxOut
  spendDelay : Int64
  /-- The withdrawal, whose input spends nothing until the trigger exists. -/
  template : Transaction
  withdrawalHash : Digest
  withdrawScript : Script
  tree : TaprootTree
  triggerOutput : TxOut
  revaultOutput : Option TxOut
  deriving DecidableEq

namespace Batch

/-! ## Parts of a batch -/

/-- The commitment that takes the place of the true one in a batch with a bad commitment. -/
def bogusCommitment : Digest := Bytes32.filled 0x01

/-- The sequence number of a withdrawal: the delay, at least one and at most what 32 bits hold. -/
def templateSequence (delay : Int64) : UInt32 :=
  UInt32.ofNat (max 1 (min delay.toInt 0xffffffff)).toNat

/-- The withdrawal to given targets after a delay. -/
def withdrawalTemplate (delay : Int64) (targets : List TxOut) : Transaction :=
  .plain [⟨Outpoint.null, Script.empty, templateSequence delay, []⟩] targets

/-- The leaf that enforces a delay and then a template. -/
def withdrawScriptFor (delay : Int64) (template : Digest) : Script :=
  Script.ofInstructions [.number delay.toInt, .op Opcode.checkSequenceVerify, .op Opcode.drop,
    .push template.bytes, .op Opcode.checkTemplateVerify]

/-- The delay of a batch, one more than the policy's under the fault that changes it. -/
def delayUnder (faults : FaultSet) (delay : Int64) : Except VaultError Int64 :=
  if faults.contains .triggerBadSpendDelay then
    if delay = Int64.maxValue then
      .error (.configuration ("spend delay " ++ toString delay.toInt ++ " cannot be incremented"))
    else .ok (delay + 1)
  else .ok delay

/-- The withdraw leaf, with another last opcode under the fault that changes it. -/
def withdrawScriptUnder (faults : FaultSet) (delay : Int64) (template : Digest) : Script :=
  let script := withdrawScriptFor delay template
  if faults.contains .triggerWithdrawLeafWrongOpcode then script.replaceLast Opcode.vault
  else script

/-- The recover leaf, with another commitment or last opcode under the faults that change them. -/
def recoverScriptUnder (faults : FaultSet) (policy : Policy) : Script :=
  let script :=
    if faults.contains .triggerBadRecoveryCommitment then policy.recoverScriptFor bogusCommitment
    else policy.recoverScript
  if faults.contains .triggerRecoverLeafWrongOpcode then script.replaceLast Opcode.vault
  else script

/-- The tree of a trigger output. -/
def triggerTree (policy : Policy) (recoverScript withdrawScript : Script) : TaprootTree :=
  ⟨policy.internalKey, [(recoverLeaf, recoverScript), (withdrawLeaf, withdrawScript)]⟩

/-- An amount one higher, then one lower but not below zero, as two faults ask. -/
def perturbed (tooHigh tooLow : Bool) (amount : Sats) : Except Failure Sats := do
  let raised ← if tooHigh then amount.add 1 else .ok amount
  return if tooLow then raised.lowered else raised

/-- The output that returns an amount to the vault. -/
def revaultOutputUnder (faults : FaultSet) (policy : Policy) (revault : Option Sats) :
    Except Failure (Option TxOut) :=
  match revault with
  | none => .ok none
  | some amount => do
    let value ← perturbed (faults.contains .revaultAmountTooHigh)
      (faults.contains .revaultAmountTooLow) amount
    return some ⟨value, policy.vaultSpk⟩

/-! ## Building a batch -/

/-- Puts funded vaults together. Of the faults only those that shape a batch have an effect. The
trigger amount is what the requested revault leaves, whatever a fault does to the revault. -/
def build (members : List Vault) (targets : List TxOut) (revault : Option Sats)
    (faults : FaultSet) : Except Failure Batch :=
  match members with
  | [] => .error (.error (.configuration "a trigger batch needs at least one vault"))
  | first :: _ => do
    let total ← Vault.total members
    let spendDelay ← Failure.lift (delayUnder faults first.policy.spendDelay)
    let template := withdrawalTemplate spendDelay targets
    let withdrawalHash := template.templateHash 0
    let withdrawScript := withdrawScriptUnder faults spendDelay withdrawalHash
    let tree := triggerTree first.policy (recoverScriptUnder faults first.policy) withdrawScript
    let revaultOutput ← revaultOutputUnder faults first.policy revault
    let remaining ← Failure.lift (total.spend (revault.getD 0))
    let triggerValue ← perturbed (faults.contains .triggerAmountTooHigh)
      (faults.contains .triggerAmountTooLow) remaining
    return {
      members, targets, spendDelay, template, withdrawalHash, withdrawScript, tree
      triggerOutput := ⟨triggerValue, tree.scriptPubkey⟩
      revaultOutput }

/-! ## Reading a batch -/

/-- Whether every member may share a trigger output with the first. -/
def isCompatible (b : Batch) : Bool :=
  match b.members with
  | [] => true
  | first :: rest => rest.all first.isCompatibleWith

/-- The ids of the members in order. -/
def memberIds (b : Batch) : List VaultId := b.members.map Vault.id

/-- Whether a vault is a member. -/
def contains (b : Batch) (id : VaultId) : Bool := b.memberIds.contains id

/-- The sum of the members' amounts, those without one left out. -/
def totalVaulted (b : Batch) : Except Failure Sats := Sats.sum (b.members.filterMap Vault.amount)

/-- The member whose parameters stand for all. -/
def canonical (b : Batch) : Except VaultError Vault :=
  match b.members with
  | [] => .error (.configuration "trigger batch has no members")
  | first :: _ => .ok first

/-- The outputs of the batch in the trigger transaction. -/
def outputs (b : Batch) : List TxOut := b.triggerOutput :: b.revaultOutput.toList

end Batch

end VaultCovenant
