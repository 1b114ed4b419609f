import VaultCovenant.Trigger

/-!
# Recoveries

One transaction that sweeps vaults and trigger outputs to their recovery outputs. Every outpoint is
spent once, however many vaults name it; sources with one recovery script are paid to one output.

Results:
* `Recovery.merge_outpoints`: merging a source adds no outpoint that is there already.
-/

namespace VaultCovenant

/-- What to sweep: vaults, each with the outpoint at which its value is. For an outpoint that is not
the vault's own, `trigger` holds the batch in which the vault was triggered. -/
structure RecoveryRequest where
  sources : List (Vault × Outpoint) := []
  trigger : Option Trigger := none
  fee : Option Coin := none
  anchor : Bool := false
  faults : FaultSet := .none

namespace RecoveryRequest

/-- Also sweeps a vault that was not triggered. -/
def vaulted (r : RecoveryRequest) (vault : Vault) : Except VaultError RecoveryRequest := do
  let f ← vault.funding
  return { r with sources := r.sources ++ [(vault, f.outpoint)] }

/-- Also sweeps a vault at an outpoint. -/
def spend (r : RecoveryRequest) (vault : Vault) (outpoint : Outpoint) : RecoveryRequest :=
  { r with sources := r.sources ++ [(vault, outpoint)] }

end RecoveryRequest

/-- A recovery with the output to which each vault is swept. -/
structure Recovery where
  tx : Transaction
  credited : List (VaultId × UInt32)
  feeChange : Option UInt32
  anchorVout : Option UInt32
  deriving DecidableEq

namespace Recovery

/-- How one input is spent. -/
structure Source where
  vaultIds : List VaultId
  outpoint : Outpoint
  spent : TxOut
  recoverySpk : Script
  recoverScript : Script
  control : ControlBlock
  authorization : Authorization

/-! ## Sources -/

/-- The source at the vault's own outpoint. -/
def vaultSource (vault : Vault) : Except VaultError Source := do
  let f ← vault.funding
  return {
    vaultIds := [vault.id]
    outpoint := f.outpoint
    spent := f.output
    recoverySpk := vault.policy.recoverySpk
    recoverScript := vault.policy.recoverScript
    control := ← vault.policy.tree.controlBlock recoverLeaf
    authorization := vault.policy.authorization }

/-- The source at the trigger output of the vault's batch. -/
def triggerSource (vault : Vault) (outpoint : Outpoint) (trigger : Option Trigger) :
    Except VaultError Source := do
  let missing : VaultError := .missingSpendContext vault.id outpoint.text
  let some trigger := trigger | throw missing
  let some (index, batch) := trigger.batchOf vault.id | throw missing
  let expected ← trigger.outpoint index
  if expected ≠ outpoint then throw missing
  let canonical ← batch.canonical
  let some spent := trigger.tx.outputs[outpoint.vout.toNat]? | throw missing
  return {
    vaultIds := [vault.id]
    outpoint, spent
    recoverySpk := canonical.policy.recoverySpk
    recoverScript := ← batch.tree.leafScript recoverLeaf
    control := ← batch.tree.controlBlock recoverLeaf
    authorization := canonical.policy.authorization }

/-- How the value of a vault at an outpoint is swept. -/
def source (trigger : Option Trigger) (vault : Vault) (outpoint : Outpoint) :
    Except VaultError Source :=
  if vault.outpoint = some outpoint then vaultSource vault
  else triggerSource vault outpoint trigger

/-- Adds a source; one at an outpoint that is there already only adds the names of its vaults. -/
def merge (sources : List Source) (new : Source) : List Source :=
  match sources with
  | [] => [new]
  | s :: rest =>
    if s.outpoint = new.outpoint then
      { s with vaultIds := s.vaultIds ++ new.vaultIds.filter fun id => !s.vaultIds.contains id }
        :: rest
    else s :: merge rest new

theorem merge_outpoints (sources : List Source) (new : Source) :
    (merge sources new).map (·.outpoint) =
      if new.outpoint ∈ sources.map (·.outpoint) then sources.map (·.outpoint)
      else sources.map (·.outpoint) ++ [new.outpoint] := by
  induction sources with
  | nil => rfl
  | cons s rest ih =>
    simp only [merge, List.map_cons, List.mem_cons]
    split
    · rename_i h
      simp [h]
    · rename_i h
      simp only [List.map_cons, ih, Ne.symm h, false_or]
      split <;> rfl

/-- The sources of a request, each outpoint once, in the order in which they are first named. -/
def distinctSources (r : RecoveryRequest) : Except VaultError (List Source) := do
  let sources ← r.sources.mapM fun (vault, outpoint) => source r.trigger vault outpoint
  return sources.foldl merge []

/-! ## Outputs -/

/-- Pays an amount to a script: to the output that is there already, else to a new one behind the
others. Also tells the position of the output, counted from `start`. -/
def credit (amount : Sats) (scriptPubkey : Script) (start : Nat) :
    List TxOut → Except Failure (List TxOut × Nat)
  | [] => .ok ([⟨amount, scriptPubkey⟩], start)
  | o :: rest =>
    if o.scriptPubkey = scriptPubkey then do
      return ({ o with value := ← o.value.add amount } :: rest, start)
    else do
      let (rest, position) ← credit amount scriptPubkey (start + 1) rest
      return (o :: rest, position)

/-- Pays every source to its recovery script: the outputs, and the position of each source's. -/
def creditAll : List TxOut → List Source → Except Failure (List TxOut × List Nat)
  | outputs, [] => .ok (outputs, [])
  | outputs, s :: rest => do
    let (outputs, position) ← credit s.spent.value s.recoverySpk 0 outputs
    let (outputs, positions) ← creditAll outputs rest
    return (outputs, position :: positions)

/-- The outputs with the value of one lowered. -/
def lowerAt (position : Nat) (outputs : List TxOut) : List TxOut :=
  outputs.modify position fun o => { o with value := o.value.lowered }

/-- The outputs as faults change them, given the positions of the sources' outputs. -/
def applyFaults (faults : FaultSet) (positions : List Nat) (outputs : List TxOut) : List TxOut :=
  let outputs :=
    if faults.contains .recoveryOutputTooLow then lowerAt (positions.headD 0) outputs else outputs
  let outputs :=
    if faults.contains .recoveryLastOutputTooLow then lowerAt (positions.foldl max 0) outputs
    else outputs
  if faults.contains .recoveryExtraOutput then outputs ++ [⟨0, Script.anyone⟩] else outputs

/-! ## Witnesses -/

/-- The witness of a source, bottom first: where its value is swept to, what its authorization asks
for, the recover leaf and its control block. -/
def witness (tx : Transaction) (spent : List TxOut) (faults : FaultSet) (index : Nat)
    (s : Source) (position : Nat) : Except VaultError (List Bytes) := do
  let skew : Int := if faults.contains .recoveryVoutOffByOne then 1 else 0
  let passing ←
    if faults.contains .recoveryAuthWrongKey then
      s.authorization.forgedWitness tx index spent s.recoverScript
    else s.authorization.witness tx index spent s.recoverScript
  return ScriptNumber.encode (position + skew) :: passing
    ++ [s.recoverScript.bytes, s.control.bytes]

/-- The witnesses of sources whose first is spent by the input at `index`. -/
def witnessesFrom (tx : Transaction) (spent : List TxOut) (faults : FaultSet) (index : Nat) :
    List (Source × Nat) → Except VaultError (List (List Bytes))
  | [] => .ok []
  | (s, position) :: rest => do
    let w ← witness tx spent faults index s position
    let ws ← witnessesFrom tx spent faults (index + 1) rest
    return w :: ws

/-! ## Building a recovery -/

/-- Builds the transaction. The coin that pays comes last among the inputs and its change first
among the outputs; the anchor is the last output. -/
def build (r : RecoveryRequest) : Except Failure Recovery := do
  let sources ← Failure.lift (distinctSources r)
  if sources.isEmpty then
    throw (.error (.transaction "recovery needs at least one input"))
  let (swept, positions) ← creditAll [] sources
  let change ← Failure.lift (r.fee.mapM Coin.change)
  let positions := positions.map (· + change.toList.length)
  let outputs := applyFaults r.faults positions (change.toList ++ swept)
  let anchorVout := if r.anchor then some (UInt32.ofNat outputs.length) else none
  let unsigned : Transaction := .plain
    (sources.map (fun s => TxIn.spending s.outpoint) ++ (r.fee.map Coin.input).toList)
    (outputs ++ if r.anchor then [⟨0, Script.anchor⟩] else [])
  let spent := sources.map Source.spent ++ (r.fee.map Coin.spent).toList
  let witnesses ← Failure.lift (witnessesFrom unsigned spent r.faults 0 (sources.zip positions))
  return {
    tx := unsigned.withWitnesses witnesses
    credited := (sources.zip positions).flatMap fun (s, position) =>
      s.vaultIds.map fun id => (id, UInt32.ofNat position)
    feeChange := change.map fun _ => 0
    anchorVout }

end Recovery

end VaultCovenant
