import VaultCovenant.Text.Quoted

/-!
# Failures

What can go wrong, by cause, with the wording of each cause in one function. A request that cannot
be met is a `VaultError`; an amount that leaves the 64 bits it is kept in ends the whole
computation and is no error that a caller could report.

Results:
* `VaultError.isRetryable_iff`: only requests that never reached the node are worth repeating.
-/

namespace VaultCovenant

/-- Names one vault in a session. -/
abbrev VaultId := UInt64

/-! ## Failures of the connection to a node -/

/-- Why a remote call failed. -/
inductive RpcError where
  /-- The node answered with an error of its own; `data` is the text of what came with it. -/
  | remote (code : Int32) (message : String) (data : Option String)
  /-- The request or its answer was lost. -/
  | transport (detail : String)
  /-- Reading or writing the connection failed. -/
  | io (detail : String)
  /-- The answer is not the JSON that was expected. -/
  | decode (detail : String)
  /-- A result is not hexadecimal text. -/
  | hex (detail : String)
  /-- A result is not a serialized transaction. -/
  | serialization (detail : String)
  /-- The answer belongs to another request. -/
  | nonceMismatch
  /-- The answer is of another protocol version. -/
  | versionMismatch
  /-- A batch of no requests was sent. -/
  | emptyBatch
  /-- A batch was answered with too many responses. -/
  | batchSize
  /-- The credentials file cannot be used. -/
  | invalidCookie
  /-- The result has another structure than expected. -/
  | unexpectedStructure
  /-- The result is an error text. -/
  | returned (text : String)
  deriving DecidableEq

namespace RpcError

/-- What came with a remote error. -/
def dataText : Option String → String
  | none => "None"
  | some data => "Some(RawValue(" ++ data ++ "))"

/-- The wording of a failed call. -/
def message : RpcError → String
  | remote code text data =>
    "JSON-RPC error: RPC error response: RpcError \x7b code: " ++ toString code.toInt
      ++ ", message: " ++ Text.quoted text ++ ", data: " ++ dataText data ++ " \x7d"
  | transport detail => "JSON-RPC error: transport error: " ++ detail
  | io detail => "I/O error: " ++ detail
  | decode detail => "JSON-RPC error: JSON decode error: " ++ detail
  | hex detail => "hex decode error: " ++ detail
  | serialization detail => "Bitcoin serialization error: " ++ detail
  | nonceMismatch => "JSON-RPC error: nonce of response did not match nonce of request"
  | versionMismatch => "JSON-RPC error: `jsonrpc` field set to non-\"2.0\""
  | emptyBatch => "JSON-RPC error: batches can't be empty"
  | batchSize => "JSON-RPC error: too many responses returned in batch"
  | invalidCookie => "invalid cookie file"
  | unexpectedStructure => "the JSON result had an unexpected structure"
  | returned text => "the daemon returned an error string: " ++ text

end RpcError

/-! ## Failures of vault operations -/

/-- Why a request cannot be met. -/
inductive VaultError where
  /-- The parameters of a vault or batch make no sense together. -/
  | configuration (message : String)
  /-- A transaction cannot be assembled. -/
  | transaction (message : String)
  /-- A finished withdrawal does not have the committed template hash. -/
  | templateHashMismatch (expected actual : String)
  /-- Nothing says how the outpoint named for a vault is spent. -/
  | missingSpendContext (vault : VaultId) (outpoint : String)
  /-- The vault holds no coin yet. -/
  | notInitialized (vault : VaultId)
  /-- A call to the node failed. -/
  | rpc (source : RpcError)
  /-- The lifecycle of a vault has no such step. -/
  | invalidStateTransition (current requested : String)
  /-- A key or a signature hash cannot be computed. -/
  | cryptography (message : String)
  /-- A taproot tree has no such leaf. -/
  | taproot (message : String)
  /-- An amount is larger than what is there to pay it. -/
  | insufficientFunds (required available : UInt64)
  /-- A step of a run failed. -/
  | operationFailed (operation message : String)
  deriving DecidableEq

namespace VaultError

/-- The wording of a failure. -/
def message : VaultError → String
  | configuration text => "Vault configuration error: " ++ text
  | transaction text => "Transaction error: " ++ text
  | templateHashMismatch expected actual =>
    "Withdrawal template hash mismatch: committed " ++ expected ++ ", built " ++ actual
  | missingSpendContext vault outpoint =>
    "No spending context for vault " ++ toString vault.toNat ++ " at " ++ outpoint
  | notInitialized vault => "Vault " ++ toString vault.toNat ++ " has not been initialized"
  | rpc source => "RPC communication failed: " ++ source.message
  | invalidStateTransition current requested =>
    "Invalid vault state transition from " ++ current ++ " to " ++ requested
  | cryptography text => "Cryptographic operation failed: " ++ text
  | taproot text => "Taproot construction failed: " ++ text
  | insufficientFunds required available =>
    "Insufficient funds: required " ++ toString required.toNat ++ " sats, available "
      ++ toString available.toNat ++ " sats"
  | operationFailed operation text => "Operation failed: " ++ operation ++ " - " ++ text

/-- Whether the request may be repeated: it never reached the node or its answer was lost. -/
def isRetryable : VaultError → Bool
  | rpc (.transport _) | rpc (.io _) => true
  | _ => false

theorem isRetryable_iff (e : VaultError) :
    e.isRetryable = true ↔
      (∃ detail, e = rpc (.transport detail)) ∨ ∃ detail, e = rpc (.io detail) := by
  constructor
  · intro h
    unfold isRetryable at h
    split at h
    · exact .inl ⟨_, rfl⟩
    · exact .inr ⟨_, rfl⟩
    · cases h
  · rintro (⟨detail, rfl⟩ | ⟨detail, rfl⟩) <;> rfl

end VaultError

/-- How a computation ends without a result. -/
inductive Failure where
  /-- The request cannot be met. -/
  | error (cause : VaultError)
  /-- An amount passed the largest 64-bit number, or a list the longest length. -/
  | overflow
  deriving DecidableEq

namespace Failure

/-- A result of an operation that can only be refused. -/
def lift {α : Type} : Except VaultError α → Except Failure α
  | .ok a => .ok a
  | .error e => .error (.error e)

end Failure

instance : MonadLift (Except VaultError) (Except Failure) := ⟨Failure.lift⟩

end VaultCovenant
