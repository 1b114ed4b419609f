import VaultCovenant.Scenario.Run

/-!
# The course of each scenario

What every scenario builds and shows to a node, in order, and the runs of a list of scenarios one
after the other.
-/

namespace VaultCovenant

/-! ## Parts of several scenarios -/

/-- The secret of the key that the first withdrawal output is paid to; the next have the numbers
that follow. -/
def firstTargetSecret : Nat := 4

/-- The number of outputs that a single vault is withdrawn to. -/
def withdrawalParts : UInt64 := 3

/-- An output that pays an amount to the key of a small scalar. -/
def targetOutput (amount : Sats) (secret : Nat) : Except VaultError TxOut := do
  let key ← SecretKey.ofScalar (UInt64.ofNat secret)
  return ⟨amount, (TaprootTree.keyOnly key.xOnly).scriptPubkey⟩

/-- An amount split over keys with consecutive secrets. The list of the outputs grows with them. -/
def withdrawalTargets (total : Sats) (parts : UInt64) : Except Failure (List TxOut) := do
  let amounts ← total.split parts 0
  let targets ← (amounts.zipIdx firstTargetSecret).mapM fun (amount, secret) =>
    Failure.lift (targetOutput amount secret)
  Room.check (Room.mostGrown TxOut.size) targets.length
  return targets

/-- The trigger of one batch in which a single fault is made. -/
def triggerWithFault (vaults : List Vault) (targets : List TxOut) (revault : Option Sats)
    (fault : Fault) : Except Failure Transaction := do
  let batch ← Batch.build vaults targets revault (.only fault)
  let trigger ← Failure.lift (Trigger.build [batch] none (.only fault))
  return trigger.tx

/-- The number of blocks of a delay, none if it is negative. -/
def blocksOf (delay : Int64) : UInt64 := UInt64.ofNat delay.toInt.toNat

namespace Runner

variable {m : Type → Type} [Monad m]

/-- Shows the node the trigger of one batch once with each of some faults. -/
def showTriggerFaults (r : Runner m) (faults : List Fault) (vaults : List Vault)
    (targets : List TxOut) (revault : Option Sats) : Run m Unit :=
  faults.forM fun fault => do
    let tx ← Run.ofFailure (triggerWithFault vaults targets revault fault)
    r.expectFault fault tx

/-- Shows the node a recovery once with each of some faults. -/
def showRecoveryFaults (r : Runner m) (faults : List Fault) (request : RecoveryRequest) :
    Run m Unit :=
  faults.forM fun fault => do
    let recovery ← Run.ofFailure (Recovery.build { request with faults := .only fault })
    r.expectFault fault recovery.tx

/-- Shows the node a withdrawal once with each of some faults. -/
def showWithdrawalFaults (r : Runner m) (faults : List Fault) (outpoint : Outpoint)
    (batch : Batch) : Run m Unit :=
  faults.forM fun fault => do
    let tx ← Run.ofExcept (Withdrawal.build outpoint batch (.only fault))
    r.expectFault fault tx

/-- The forged authorization, where one is required. -/
def forgeries (r : Runner m) : List Fault :=
  if r.authorization.isRequired then [.recoveryAuthWrongKey] else []

/-- Puts vaults together without faults and triggers them. -/
def buildTrigger (vaults : List Vault) (targets : List TxOut) (revault : Option Sats) :
    Run m (Batch × Trigger) := do
  let batch ← Run.ofFailure (Batch.build vaults targets revault .none)
  let trigger ← Run.ofExcept (Trigger.build [batch] none .none)
  return (batch, trigger)

/-! ## One vault -/

/-- A vault with the runner's authorization. -/
def authorizedParams (r : Runner m) : VaultParams := { authorization := r.authorization }

/-- Recovers a vault that was not triggered. -/
def sweepFromVault (r : Runner m) : Run m Unit := do
  let vault ← r.lockCoin r.authorizedParams
  r.mine 1
  let request ← Run.ofExcept (({} : RecoveryRequest).vaulted vault)
  r.showRecoveryFaults r.forgeries request
  let recovery ← Run.ofFailure (Recovery.build request)
  r.confirm "recover from vault" recovery.tx
  Run.transition vault.id .recovered

/-- The faults of a trigger that returns nothing to the vault. -/
def plainTriggerFaults : List Fault :=
  Fault.all.filter fun fault => fault.stage = .trigger && !fault.needsRevault

/-- Locks a coin, shows every fault of its trigger and then triggers it: the vault, its batch, the
trigger, and the id under which the node took it. -/
def triggerOne (r : Runner m) : Run m (Vault × Batch × Trigger × Txid) := do
  let vault ← r.lockCoin r.authorizedParams
  r.mine 1
  let funding ← Run.ofExcept vault.funding
  let targets ← Run.ofFailure (withdrawalTargets funding.amount withdrawalParts)
  r.showTriggerFaults plainTriggerFaults [vault] targets none
  let (batch, trigger) ← buildTrigger [vault] targets none
  let txid ← r.expectAccept "trigger" trigger.tx
  Run.transition vault.id .triggered
  return (vault, batch, trigger, txid)

/-- Recovers a vault after its trigger. A recovery that pays too little fails inside the script. -/
def sweepFromTrigger (r : Runner m) : Run m Unit := do
  let (vault, _, trigger, _) ← r.triggerOne
  let outpoint ← Run.ofExcept (trigger.outpoint 0)
  let request := { ({} : RecoveryRequest).spend vault outpoint with trigger := some trigger }
  let short ← Run.ofFailure
    (Recovery.build { request with faults := .only .recoveryOutputTooLow })
  r.expectReject "recover from trigger with short output" short.tx .scriptFailure
  r.showRecoveryFaults r.forgeries request
  let recovery ← Run.ofFailure (Recovery.build request)
  r.confirm "recover from trigger" recovery.tx
  Run.transition vault.id .recovered

/-- Withdraws a vault after its delay, not before. -/
def singleVault (r : Runner m) : Run m Unit := do
  let (vault, batch, trigger, txid) ← r.triggerOne
  let outpoint ← Run.ofExcept (trigger.outpoint 0)
  let withdrawal ← Run.ofExcept (Withdrawal.build outpoint batch .none)
  r.expectReject "withdraw before trigger confirms" withdrawal .notFinal
  r.bumpFee txid
  r.mine (blocksOf (batch.spendDelay - 1))
  r.expectReject "withdraw one block early" withdrawal .notFinal
  r.mine 1
  r.showWithdrawalFaults [.withdrawalSequenceTooLow, .withdrawalOutputChanged] outpoint batch
  r.confirm "final withdrawal" withdrawal
  Run.transition vault.id .withdrawn

/-! ## Several vaults -/

/-- The faults of a recovery that has several outputs. -/
def batchRecoveryFaults : List Fault :=
  [.recoveryOutputTooLow, .recoveryLastOutputTooLow, .recoveryVoutOffByOne, .recoveryExtraOutput]

/-- Recovers a triggered vault together with vaults of other delays and another recovery key. -/
def batchRecovery (r : Runner m) : Run m Unit := do
  let first ← r.lockCoin { spendDelay := 10 }
  let others ← r.lockCoins [{ spendDelay := 11 }, { spendDelay := 12 }, { recoverySecret := 12 }]
  let (_, trigger) ← buildTrigger [first] [] none
  r.confirm "trigger first vault" trigger.tx
  Run.transition first.id .triggered
  let coin ← Run.call r.node.spendableCoin
  let outpoint ← Run.ofExcept (trigger.outpoint 0)
  let start : RecoveryRequest := { trigger := some trigger, fee := some coin }
  let request ← Run.ofExcept (others.foldlM RecoveryRequest.vaulted (start.spend first outpoint))
  let recovery ← Run.ofFailure (Recovery.build request)
  let built := recovery.tx.outputs.length
  if built ≠ 3 then
    Run.ofExcept (.error (.operationFailed "batch_recovery"
      ("expected 3 outputs, built " ++ toString built)))
  r.showRecoveryFaults batchRecoveryFaults request
  r.confirm "batch recovery" recovery.tx
  Run.transitionAll ((first :: others).map Vault.id) .recovered

/-- Triggers vaults that fit together, after showing them with vaults that do not. -/
def batchTrigger (r : Runner m) : Run m Unit := do
  let vaults ← r.lockCoins [{ triggerSecret := 10 }, { triggerSecret := 11 },
    { triggerSecret := 12 }, { recoverySecret := 3 }, { spendDelay := 9 }]
  let members := vaults.take 3
  let strangers := vaults.drop 3
  let total ← Run.ofFailure (Vault.total members)
  let targets ← Run.ofFailure (withdrawalTargets total 1)
  [strangers.take 1, strangers.drop 1, strangers].forM fun extra => do
    let (_, trigger) ← buildTrigger (members ++ extra) targets none
    r.expectReject "trigger incompatible batch" trigger.tx .incompatible
  let (batch, trigger) ← buildTrigger members targets none
  r.confirm "trigger compatible batch" trigger.tx
  Run.transitionAll batch.memberIds .triggered
  let outpoint ← Run.ofExcept (trigger.outpoint 0)
  let withdrawal ← Run.ofExcept (Withdrawal.build outpoint batch .none)
  r.expectReject "withdraw before delay" withdrawal .notFinal
  r.mine (blocksOf trigger.maxSpendDelay)
  r.confirm "batch withdrawal" withdrawal
  Run.transitionAll batch.memberIds .withdrawn

/-- The amount that returns to the vault. -/
def revaultAmount : Sats := 100000000

/-- Returns part of the value to the vault while triggering; what returned can be triggered again
at once. -/
def revault (r : Runner m) : Run m Unit := do
  let vaults ← r.lockCoins (List.replicate 3 { triggerSecret := 10 })
  let total ← Run.ofFailure (Vault.total vaults)
  let withdrawn ← Run.ofExcept (total.spend revaultAmount)
  let targets ← Run.ofFailure (withdrawalTargets withdrawn 1)
  r.showTriggerFaults [.revaultAmountTooHigh, .revaultAmountTooLow] vaults targets
    (some revaultAmount)
  let (batch, trigger) ← buildTrigger vaults targets (some revaultAmount)
  r.confirm "trigger with revault" trigger.tx
  Run.transitionAll batch.memberIds .triggered
  let outpoint ← Run.ofExcept (trigger.outpoint 0)
  let withdrawal ← Run.ofExcept (Withdrawal.build outpoint batch .none)
  r.expectReject "withdraw before delay" withdrawal .notFinal
  let name ← Run.takeNames trigger.returns.length
  let returned ← Run.ofExcept (trigger.revaulted fun k => r.ids (name + k))
  returned.forM fun vault => Run.track vault.id .vaulted
  let (_, second) ← buildTrigger returned [] none
  r.confirm "trigger revaulted output" second.tx
  Run.transitionAll (returned.map Vault.id) .triggered
  r.mine (blocksOf batch.spendDelay)
  r.confirm "withdrawal after revault" withdrawal
  Run.transitionAll batch.memberIds .withdrawn

/-! ## Vaults that a validator has to treat with care -/

/-- Triggers a vault whose delay is negative, which is refused, and recovers it. -/
def negativeDelay (r : Runner m) : Run m Unit := do
  let vault ← r.lockCoin { r.authorizedParams with spendDelay := -50 }
  r.mine 1
  let total ← Run.ofFailure (Vault.total [vault])
  let targets ← Run.ofFailure (withdrawalTargets total 1)
  let (_, trigger) ← buildTrigger [vault] targets none
  r.expectReject "trigger with negative delay" trigger.tx .invalidDelay
  let request ← Run.ofExcept (({} : RecoveryRequest).vaulted vault)
  let recovery ← Run.ofFailure (Recovery.build request)
  r.confirm "recover negative-delay vault" recovery.tx
  Run.transition vault.id .recovered

/-- A script that copies four elements from below and enters the vault opcode with them. -/
def reenteringScript : Script :=
  Script.ofInstructions
    ((List.replicate 4 [Instruction.op Opcode.three, .op Opcode.pick]).flatten
      ++ [.op Opcode.vault])

/-- The authorization whose script enters the vault opcode with itself as the leaf to update. -/
def reenteringAuthorization : Except VaultError Authorization := do
  let reference ← Policy.ofParams {}
  let secret ← SecretKey.ofScalar 2
  let delay := Script.ofInstructions [.number reference.spendDelay.toInt]
  return .scriptSignature secret reenteringScript
    [reenteringScript.bytes, reference.recoveryHash.bytes, delay.bytes, Bytes.zeros 32]

/-- Recovers a vault whose authorization enters the vault opcode, which is refused. -/
def recursiveRecoveryWitness (r : Runner m) : Run m Unit := do
  let authorization ← Run.ofExcept reenteringAuthorization
  let vault ← r.lockCoin { authorization }
  r.mine 1
  let request ← Run.ofExcept (({} : RecoveryRequest).vaulted vault)
  let recovery ← Run.ofFailure (Recovery.build request)
  r.expectReject "recursive recovery witness" recovery.tx .recursionLimit

/-! ## Running a scenario -/

/-- The course of a scenario. -/
def course (r : Runner m) : Scenario → Run m Unit
  | .singleVault => r.singleVault
  | .sweepFromVault => r.sweepFromVault
  | .sweepFromTrigger => r.sweepFromTrigger
  | .batchRecovery => r.batchRecovery
  | .batchTrigger => r.batchTrigger
  | .revault => r.revault
  | .negativeDelay => r.negativeDelay
  | .recursiveRecoveryWitness => r.recursiveRecoveryWitness

/-- What a run starts with, when so many names were used before. -/
def start (named : Nat) : RunState := ⟨[], Lifecycle.empty, named⟩

/-- Runs a scenario when so many names were used before: the report and the number of names used.
A failure is part of the report; there is none when an amount overflows. -/
def report (r : Runner m) (scenario : Scenario) (named : Nat) : m (Option Report × Nat) := do
  let (result, s) ← r.course scenario (start named)
  let reported (error : Option String) : Report :=
    ⟨scenario, r.authorization.label, s.steps, s.lifecycle.states, error⟩
  let report := match result with
    | .ok () => some (reported none)
    | .error (.error e) => some (reported (some e.message))
    | .error .overflow => none
  return (report, s.named)

end Runner

/-! ## Running several scenarios -/

/-- The runs of a list of scenarios: those that vary under every authorization, the others under
none. -/
def scheduled (authorizations : List Authorization) (scenarios : List Scenario) :
    List (Authorization × Scenario) :=
  scenarios.flatMap fun scenario =>
    if scenario.variesAuthorization then authorizations.map fun auth => (auth, scenario)
    else [(.anyone, scenario)]

/-- Reports of runs one after the other on one node, when so many names were used before. There are
none when an amount overflows. -/
def reportAll {m : Type → Type} [Monad m] (node : Node m) (ids : Nat → VaultId) :
    List (Authorization × Scenario) → Nat → m (Option (List Report))
  | [], _ => pure (some [])
  | (authorization, scenario) :: rest, named => do
    match ← Runner.report ⟨node, ids, authorization⟩ scenario named with
    | (none, _) => return none
    | (some report, named) => return (← reportAll node ids rest named).map (report :: ·)

end VaultCovenant
