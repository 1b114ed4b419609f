import VaultCovenant.Vault.Policy

/-!
# Vaults

A policy with the coin that is locked under it, and the transaction that locks it.

Results:
* `Vault.funding_isOk_iff`: a vault is funded once outpoint, output and amount are all recorded.
-/

namespace VaultCovenant

/-- A coin that can be spent without further signing: the complete input and the output it
spends. -/
structure Coin where
  input : TxIn
  spent : TxOut
  deriving DecidableEq

/-- What is locked in a vault and where. -/
structure Funding where
  outpoint : Outpoint
  output : TxOut
  amount : Sats
  deriving DecidableEq

/-- A vault. The three records of its coin are set together when the coin is locked. -/
structure Vault where
  id : VaultId
  policy : Policy
  amount : Option Sats
  outpoint : Option Outpoint
  output : Option TxOut
  deriving DecidableEq

namespace Vault

/-- The fee kept back when a coin is locked, unless another is named. -/
def lockFee : Sats := 10000

/-- A vault without a coin. -/
def empty (id : VaultId) (policy : Policy) : Vault := ⟨id, policy, none, none, none⟩

/-- The vault with given choices, without a coin. -/
def ofParams (id : VaultId) (params : VaultParams) : Except VaultError Vault :=
  (Policy.ofParams params).map (empty id)

/-- Whether the vault knows where its coin is. -/
def isInitialized (v : Vault) : Bool := v.outpoint.isSome

/-- The locked coin. -/
def funding (v : Vault) : Except VaultError Funding :=
  match v.outpoint, v.output, v.amount with
  | some outpoint, some output, some amount => .ok ⟨outpoint, output, amount⟩
  | _, _, _ => .error (.notInitialized v.id)

/-- The vault with a coin on record. -/
def withFunding (v : Vault) (f : Funding) : Vault :=
  { v with amount := some f.amount, outpoint := some f.outpoint, output := some f.output }

/-- The transaction that locks a coin of which `total` is left after the fee. -/
def lockTransaction (v : Vault) (coin : Coin) (total : Sats) : Transaction :=
  .plain [coin.input] [⟨total, v.policy.vaultSpk⟩]

/-- Locks a coin: the transaction, and the vault with the coin on record. -/
def lock (v : Vault) (coin : Coin) (fee : Option Sats) :
    Except VaultError (Transaction × Vault) := do
  let total ← coin.spent.value.spend (fee.getD lockFee)
  let tx := v.lockTransaction coin total
  return (tx, v.withFunding ⟨⟨tx.txid, 0⟩, ⟨total, v.policy.vaultSpk⟩, total⟩)

/-- A new vault with the same policy, funded by an output that returned to it. -/
def returned (v : Vault) (id : VaultId) (outpoint : Outpoint) (output : TxOut) : Vault :=
  { v.withFunding ⟨outpoint, output, output.value⟩ with id }

/-- Whether two vaults may share a trigger output. -/
def isCompatibleWith (v w : Vault) : Bool := v.policy.isCompatibleWith w.policy

theorem funding_isOk_iff {v : Vault} :
    (∃ f, v.funding = .ok f) ↔
      v.outpoint.isSome = true ∧ v.output.isSome = true ∧ v.amount.isSome = true := by
  unfold funding
  cases v.outpoint <;> cases v.output <;> cases v.amount <;> simp

/-- The funding of every vault of a list, in order; the first vault without one is named. -/
def fundings (vaults : List Vault) : Except VaultError (List Funding) := vaults.mapM funding

/-- The sum of the locked amounts, up to the first vault without one. -/
def total (vaults : List Vault) : Except Failure Sats :=
  vaults.foldlM (fun total v => do
    let f ← Failure.lift v.funding
    total.add f.amount) 0

end Vault

end VaultCovenant
