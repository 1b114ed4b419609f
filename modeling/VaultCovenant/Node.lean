import VaultCovenant.Vault.Basic

/-!
# Validating nodes

What the scenarios need from a node: to broadcast a transaction, to mine, to hand out coins, to
raise the fee of a transaction and to count what it has not confirmed. A node answers in a monad of
its own: `IO` for one at the end of a connection, a state monad for one whose behaviour is given.
Every call may fail.
-/

namespace VaultCovenant

/-- What a node says of a transaction. -/
inductive Verdict where
  /-- Taken, under an id. -/
  | accepted (txid : Txid)
  /-- Refused, for a reason in the node's words. -/
  | rejected (reason : String)
  deriving DecidableEq

namespace Verdict

/-- Whether the transaction was taken. -/
def isAccepted : Verdict → Bool
  | accepted _ => true
  | rejected _ => false

end Verdict

/-- A validating node that answers in the monad `m`. -/
structure Node (m : Type → Type) where
  /-- Offers a transaction. -/
  broadcast : Transaction → m (Except VaultError Verdict)
  /-- Mines a number of blocks. -/
  mine : UInt64 → m (Except VaultError Unit)
  /-- Hands out a confirmed coin. -/
  spendableCoin : m (Except VaultError Coin)
  /-- Raises the fee by which a waiting transaction is ranked. -/
  bumpFee : Txid → Int64 → m (Except VaultError Unit)
  /-- How many transactions wait for a block. -/
  mempoolSize : m (Except VaultError UInt64)

end VaultCovenant
