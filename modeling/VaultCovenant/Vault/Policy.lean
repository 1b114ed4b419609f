import VaultCovenant.Authorization
import VaultCovenant.Transaction.Template

/-!
# Vault policies

What the owner of a vault chooses, and the scripts and the taproot output that follow from it:

* recover leaf: the authorization's check, the recovery commitment, then the recovery opcode;
* trigger leaf: the check of the trigger key's signature, the delay, then the vault opcode;
* vault output: a tree of the two leaves at the recovery key, or at the key nobody knows the
  secret of.
-/

namespace VaultCovenant

/-- The choices as numbers. The delay is signed and not checked, so that a validator can be shown a
delay without sense. -/
structure VaultParams where
  recoverySecret : UInt64 := 2
  triggerSecret : UInt64 := 3
  spendDelay : Int64 := 10
  authorization : Authorization := .anyone
  scriptPathOnly : Bool := false

/-- The choices as keys. -/
structure Policy where
  recoveryKey : XOnlyKey
  triggerSecret : SecretKey
  spendDelay : Int64
  authorization : Authorization
  scriptPathOnly : Bool
  deriving DecidableEq

/-! ## Names of leaves -/

/-- The name of the leaf through which a vault or a trigger output is recovered. -/
def recoverLeaf : String := "recover"

/-- The name of the leaf through which a vault is triggered. -/
def triggerLeaf : String := "trigger"

/-- The name of the leaf through which a trigger output is withdrawn. -/
def withdrawLeaf : String := "withdraw"

namespace Policy

/-- The policy with given choices. Of two secrets that are no keys the recovery secret is the one
complained of. -/
def ofParams (params : VaultParams) : Except VaultError Policy := do
  let recoverySecret ← SecretKey.ofScalar params.recoverySecret
  let triggerSecret ← SecretKey.ofScalar params.triggerSecret
  return {
    recoveryKey := recoverySecret.xOnly
    triggerSecret
    spendDelay := params.spendDelay
    authorization := params.authorization
    scriptPathOnly := params.scriptPathOnly }

/-- The script of the output to which the vault is recovered. -/
def recoverySpk (p : Policy) : Script := (TaprootTree.keyOnly p.recoveryKey).scriptPubkey

/-- The commitment to the recovery output. -/
def recoveryHash (p : Policy) : Digest := recoveryCommitment p.recoverySpk

/-- The recover leaf with a given commitment. -/
def recoverScriptFor (p : Policy) (commitment : Digest) : Script :=
  p.authorization.script
    ++ Script.ofInstructions [.push commitment.bytes, .op Opcode.vaultRecover]

/-- The recover leaf. -/
def recoverScript (p : Policy) : Script := p.recoverScriptFor p.recoveryHash

/-- The key that signs a trigger. -/
def triggerKey (p : Policy) : XOnlyKey := p.triggerSecret.xOnly

/-- The trigger leaf. -/
def triggerScript (p : Policy) : Script :=
  Script.ofInstructions [.push p.triggerKey.bytes, .op Opcode.checkSigVerify,
    .number p.spendDelay.toInt, .op Opcode.vault]

/-- The key at the root of the vault output. -/
def internalKey (p : Policy) : XOnlyKey :=
  if p.scriptPathOnly then XOnlyKey.nothingUpMySleeve else p.recoveryKey

/-- The vault output. -/
def tree (p : Policy) : TaprootTree :=
  ⟨p.internalKey, [(recoverLeaf, p.recoverScript), (triggerLeaf, p.triggerScript)]⟩

/-- The script of the vault output. -/
def vaultSpk (p : Policy) : Script := p.tree.scriptPubkey

/-- Whether vaults with these policies may share a trigger output: they have the same recover leaf
and the same delay. -/
def isCompatibleWith (p q : Policy) : Bool :=
  p.recoverScript = q.recoverScript && p.spendDelay = q.spendDelay

end Policy

end VaultCovenant
