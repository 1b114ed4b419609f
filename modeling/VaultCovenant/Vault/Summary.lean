import VaultCovenant.Json.Basic
import VaultCovenant.Vault.Basic

/-!
# Summaries of vaults

What can be shown of a vault: its keys, scripts and commitments, and the coin locked in it.
-/

namespace VaultCovenant

namespace Policy

/-- The fields that show a policy. -/
def summaryFields (p : Policy) : List (String × Json) := [
  ("spend_delay", .int p.spendDelay.toInt),
  ("recovery_auth", .str p.authorization.label),
  ("recovery_key", .str p.recoveryKey.toHex),
  ("recovery_spk", .str p.recoverySpk.toHex),
  ("recovery_hash", .str p.recoveryHash.toHex),
  ("recover_script", .str p.recoverScript.toHex),
  ("trigger_key", .str p.triggerKey.toHex),
  ("trigger_script", .str p.triggerScript.toHex),
  ("trigger_spk_hash", .str (triggerCommitment p.triggerScript).toHex),
  ("internal_key", .str p.internalKey.toHex),
  ("vault_spk", .str p.vaultSpk.toHex)]

end Policy

namespace Vault

/-- The fields that show a vault. -/
def summaryFields (v : Vault) : List (String × Json) :=
  ("id", .nat v.id.toNat) :: v.policy.summaryFields ++ [
    ("outpoint", .optional (fun o => .str o.text) v.outpoint),
    ("total_sats", .optional (fun amount => .nat amount.toNat) v.amount)]

/-- The summary of a vault. -/
def summary (v : Vault) : Json := .obj v.summaryFields

end Vault

end VaultCovenant
