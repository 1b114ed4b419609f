import VaultCovenant.Address.Basic
import VaultCovenant.Node
import VaultCovenant.Rpc.Message
import VaultCovenant.Rpc.Settings
import VaultCovenant.Transaction.Reader
import VaultCovenant.Transaction.Text

/-!
# Nodes at the end of a connection

A regression-test node and its wallet, called over a connection. The node is asked to broadcast and
to tell about transactions, the wallet for addresses and coins.

Results:
* `rejectionReason_eq_some_iff`: only two codes of the node's mean that a transaction was refused.
-/

namespace VaultCovenant

/-- A connection: who calls, how a request is exchanged for a reply, and how to wait for a number
of seconds. An exchange that fails says why. -/
structure Connection (m : Type → Type) where
  settings : NodeSettings
  exchange : RpcRequest → m (Except String RpcReply)
  pause : Nat → m Unit

/-- The reason for which a node refused a transaction, if that is what an error tells. -/
def rejectionReason : VaultError → Option String
  | .rpc (.remote code reason _) => if code = -26 ∨ code = -25 then some reason else none
  | _ => none

theorem rejectionReason_eq_some_iff {e : VaultError} {reason : String} :
    rejectionReason e = some reason ↔
      ∃ code data, e = .rpc (.remote code reason data) ∧ (code = -26 ∨ code = -25) := by
  constructor
  · intro h
    unfold rejectionReason at h
    split at h
    · rename_i code text data
      split at h
      · rename_i known
        cases h
        exact ⟨code, data, rfl, known⟩
      · cases h
    · cases h
  · rintro ⟨code, data, rfl, known⟩
    simp [rejectionReason, known]

namespace Connection

variable {m : Type → Type} [Monad m] {α : Type}

/-! ## Calls -/

/-- Calls a method at a path and reads its result. -/
def call (c : Connection m) (path method : String) (params : List Json)
    (read : Json → Option α) : ExceptT VaultError m α := ExceptT.mk do
  match ← c.exchange ⟨path, c.settings.authorization, method, params⟩ with
  | .error detail => return .error (.rpc (.transport detail))
  | .ok reply => return (reply.result read).mapError VaultError.rpc

/-- Calls a method of the node. -/
def callNode (c : Connection m) (method : String) (params : List Json)
    (read : Json → Option α) : ExceptT VaultError m α :=
  c.call c.settings.nodeLocation.path method params read

/-- Calls a method of the wallet. -/
def callWallet (c : Connection m) (method : String) (params : List Json)
    (read : Json → Option α) : ExceptT VaultError m α :=
  c.call c.settings.walletLocation.path method params read

/-- An id as a result. -/
def txid? (result : Json) : Option Txid := do (Txid.ofText (← result.text?)).toOption

/-- Hashes of blocks as a result; they are written like ids. -/
def blocks? (result : Json) : Option (List Txid) := do (← result.items?).mapM txid?

/-- Names an operation that failed on what the node said. -/
def failing {ε : Type} (operation : String) (message : ε → String) (result : Except ε α) :
    ExceptT VaultError m α :=
  ExceptT.mk (pure (result.mapError fun e => .operationFailed operation (message e)))

/-- Whether a call succeeds; if not, nothing else happens. -/
def succeeds (call : ExceptT VaultError m α) : ExceptT VaultError m Bool := ExceptT.mk do
  return .ok (← call.run).toBool

/-! ## Mining -/

/-- How many blocks there must be before the wallet can spend what it mined. -/
def maturityHeight : UInt64 := 200

/-- A new address of the wallet's. -/
def newAddress (c : Connection m) : ExceptT VaultError m Address := do
  let text ← c.callWallet "getnewaddress" [] Json.text?
  let address ← failing "parse_address" AddressError.message (Address.ofText text)
  failing "validate_address_network" AddressError.message address.onRegtest

/-- Mines a number of blocks to a new address. -/
def mine (c : Connection m) (blocks : UInt64) : ExceptT VaultError m Unit := do
  let address ← c.newAddress
  let _ ← c.callNode "generatetoaddress" [.nat blocks.toNat, .str address.text] blocks?

/-- Loads the wallet, or makes it, and mines until it holds coins that can be spent. That neither
can be done shows later. -/
def prepare (c : Connection m) : ExceptT VaultError m Unit := do
  let name := Json.str c.settings.wallet
  unless ← succeeds (c.callNode "loadwallet" [name] some) do
    let _ ← succeeds (c.callNode "createwallet" [name] some)
  let height ← c.callNode "getblockcount" [] Json.uint64?
  if height < maturityHeight then c.mine (maturityHeight - height)

/-! ## Broadcasting -/

/-- Offers a transaction again as long as the connection fails and there are pauses left, one
after each attempt. -/
def offer (c : Connection m) (tx : Transaction) :
    (pauses : List Nat) → (last : VaultError) → m (Except VaultError Verdict)
  | [], last => pure (.error last)
  | seconds :: pauses, _ => do
    match ← (c.callNode "sendrawtransaction" [.str tx.toHex] txid?).run with
    | .ok txid => return .ok (.accepted txid)
    | .error e =>
      match rejectionReason e with
      | some reason => return .ok (.rejected reason)
      | none =>
        if e.isRetryable then do
          c.pause seconds
          c.offer tx pauses e
        else return .error e

/-- Offers a transaction, three times at most. -/
def broadcast (c : Connection m) (tx : Transaction) : m (Except VaultError Verdict) :=
  c.offer tx [1, 2, 3] (.operationFailed "broadcast" "All retry attempts failed")

/-! ## Coins -/

/-- The script that anyone can satisfy, by which the wallet's coins are locked. -/
def coinScript : Script := .anyone

/-- The output that pays a coin. -/
def coinSpk : Script := .witnessScriptHash (sha256 coinScript.bytes).bytes

/-- The transaction in hexadecimal. -/
def transactionOfHex (text : String) : Except VaultError Transaction :=
  match Bytes.ofHex? text with
  | none => .error (.rpc (.hex "no pairs of hexadecimal digits"))
  | some bytes =>
    match Transaction.ofBytes? bytes with
    | none => .error (.rpc (.serialization "no transaction"))
    | some tx => .ok tx

/-- The coin among the outputs of a transaction. -/
def coinOf (txid : Txid) (tx : Transaction) : Except VaultError Coin :=
  match tx.outputs.zipIdx.find? fun (output, _) => output.scriptPubkey = coinSpk with
  | some (output, vout) =>
    .ok ⟨{ TxIn.spending ⟨txid, UInt32.ofNat vout⟩ with witness := [coinScript.bytes] }, output⟩
  | none => .error (.transaction (txid.text ++ " has no OP_TRUE output"))

/-- Has the wallet pay five whole coins to the script, and confirms the payment. -/
def spendableCoin (c : Connection m) : ExceptT VaultError m Coin := do
  let address := Address.ofWitnessScript .regtest coinScript
  let text ← c.callWallet "sendtoaddress" [.str address.text, .decimal 50 (-1)] Json.text?
  let txid ← failing "parse_txid" TxidError.message (Txid.ofText text)
  c.mine 1
  let hex ← c.callNode "getrawtransaction" [.str txid.text, .bool false] Json.text?
  let tx ← ExceptT.mk (pure (transactionOfHex hex))
  ExceptT.mk (pure (coinOf txid tx))

/-! ## Waiting transactions -/

/-- Raises the fee by which a transaction is ranked. -/
def bumpFee (c : Connection m) (txid : Txid) (delta : Int64) : ExceptT VaultError m Unit := do
  let _ ← c.callNode "prioritisetransaction" [.str txid.text, .nat 0, .int delta.toInt] Json.bool?

/-- How many transactions wait for a block. -/
def mempoolSize (c : Connection m) : ExceptT VaultError m UInt64 := do
  let info ← c.callNode "getmempoolinfo" [] some
  match (info.field "size").uint64? with
  | some size => return size
  | none => throw (.operationFailed "getmempoolinfo" "response has no numeric size")

/-- The node at the end of a connection. -/
def node (c : Connection m) : Node m where
  broadcast := c.broadcast
  mine blocks := (c.mine blocks).run
  spendableCoin := c.spendableCoin.run
  bumpFee txid delta := (c.bumpFee txid delta).run
  mempoolSize := c.mempoolSize.run

end Connection

end VaultCovenant
