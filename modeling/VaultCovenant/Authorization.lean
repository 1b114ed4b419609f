import VaultCovenant.Taproot.Signing

/-!
# Authorization of a recovery

Without authorization anyone who sees a vault may sweep it to its recovery output, which is safe
but may come at an awkward time. An authorization puts a check in front of the recovery commitment
in the recover leaf and contributes the witness elements that pass it.
-/

namespace VaultCovenant

/-- Who may recover a vault. -/
inductive Authorization where
  /-- Anyone. -/
  | anyone
  /-- Whoever signs the recovery with a key. -/
  | keySignature (secret : SecretKey)
  /-- Whoever satisfies a script and signs with a key. The stack lies above the signature and is
  used up by the script. -/
  | scriptSignature (secret : SecretKey) (script : Script) (stack : List Bytes)
  deriving DecidableEq

namespace Authorization

/-- The key with which an authorization is forged. -/
def forgingSecret : SecretKey := ⟨0xdead, by decide, by decide⟩

/-- The authorization by a key, given as a small scalar. -/
def key (scalar : UInt64) : Except VaultError Authorization :=
  (SecretKey.ofScalar scalar).map keySignature

/-- The authorization by a key and the preimage of a digest. -/
def hashLocked (scalar : UInt64) (preimage : Bytes) : Except VaultError Authorization := do
  let script := Script.ofInstructions
    [.op Opcode.hashSha256, .push (sha256 preimage).bytes, .op Opcode.equalVerify]
  return scriptSignature (← SecretKey.ofScalar scalar) script [preimage]

/-- Whether anything is checked. -/
def isRequired : Authorization → Bool
  | anyone => false
  | _ => true

/-- The name of the kind of check. -/
def label : Authorization → String
  | anyone => "none"
  | keySignature _ => "key-signature"
  | scriptSignature .. => "script-signature"

/-- The check of a signature by the key of a secret. -/
def signatureCheck (secret : SecretKey) : Script :=
  Script.ofInstructions [.push secret.xOnly.bytes, .op Opcode.checkSigVerify]

/-- The check that stands in front of the recovery commitment. -/
def script : Authorization → Script
  | anyone => Script.empty
  | keySignature secret => signatureCheck secret
  | scriptSignature secret script _ => script ++ signatureCheck secret

/-- What lies above the signature in the witness. -/
def stack : Authorization → List Bytes
  | scriptSignature _ _ stack => stack
  | _ => []

/-- The witness elements with the signature of a key, bottom first. The leaf is the whole recover
leaf, to whose hash the signature commits. -/
def signedBy (auth : Authorization) (signer : SecretKey) (tx : Transaction) (index : Nat)
    (spent : List TxOut) (leaf : Script) : Except VaultError (List Bytes) := do
  let signature ← signScriptPath tx index spent (leafHash leaf) signer
  return signature :: auth.stack

/-- The witness elements that pass the check, bottom first. -/
def witness (auth : Authorization) (tx : Transaction) (index : Nat) (spent : List TxOut)
    (leaf : Script) : Except VaultError (List Bytes) :=
  match auth with
  | anyone => .ok []
  | keySignature secret | scriptSignature secret _ _ =>
    auth.signedBy secret tx index spent leaf

/-- The same elements with the signature of an unrelated key. -/
def forgedWitness (auth : Authorization) (tx : Transaction) (index : Nat) (spent : List TxOut)
    (leaf : Script) : Except VaultError (List Bytes) :=
  if auth.isRequired then auth.signedBy forgingSecret tx index spent leaf else .ok []

end Authorization

end VaultCovenant
