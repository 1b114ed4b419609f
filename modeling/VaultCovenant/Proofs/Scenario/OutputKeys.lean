import VaultCovenant.Proofs.Binding
import VaultCovenant.Proofs.Curve.Numerals
import VaultCovenant.Proofs.Hash.Numerals
import VaultCovenant.Scenario.Flow

/-!
# The outputs of the batch recovery

The batch recovery sweeps vaults of two recovery keys and three delays. Their
outputs, the trigger output of the first and the two recovery outputs are
computed here, down to the curve; no two of them have one script.

Results:
* `Policy.ofParams_usual`: the policies of the vaults.
* `Policy.outputs_usual`: the scripts of the outputs.
* `Policy.recoverySpk_usual_ne`: vaults of the two recovery keys are not swept
  to one output.
-/

namespace VaultCovenant

/-- A tagged hash computed by way of numbers. -/
theorem taggedHash_eq_digest (tag : String) (data : Bytes) : taggedHash tag data =
    Sha256.Numeral.digest ((Sha256.Numeral.digest (Bytes.ofText tag)).bytes ++
      (Sha256.Numeral.digest (Bytes.ofText tag)).bytes ++ data) := by
  simp only [taggedHash, taggedPreimage, sha256_eq_digest]

namespace Policy

/-- The policy of a recovery key and a delay; all else is as in vaults of which
nothing is said. -/
def usual (recovery : SecretKey) (delay : Int64) : Policy where
  recoveryKey := recovery.xOnly
  triggerSecret := ⟨3, by decide, by decide⟩
  spendDelay := delay
  authorization := .anyone
  scriptPathOnly := false

/-- The secret of the recovery key that most vaults have. -/
def commonSecret : SecretKey := ⟨2, by decide, by decide⟩

/-- The secret of the recovery key that one vault has for itself. -/
def ownSecret : SecretKey := ⟨12, by decide, by decide⟩

theorem ofParams_usual (delay : Int64) :
    ofParams { spendDelay := delay } = .ok (usual commonSecret delay) := rfl

theorem ofParams_own : ofParams { recoverySecret := 12 } = .ok (usual ownSecret 10) := rfl

/-- The tree of a trigger that pays nobody yet. -/
def idleTrigger (p : Policy) : TaprootTree :=
  Batch.triggerTree p p.recoverScript (Batch.withdrawScriptFor p.spendDelay
    ((Batch.withdrawalTemplate p.spendDelay []).templateHash 0))

/-- The script of an output with a given key. -/
def payingTo (key : ℕ) : Script := ⟨0x51 :: 0x20 :: Bytes.bigEndian 32 key⟩

/-- The scripts of all outputs from which and to which value moves. -/
theorem outputs_usual :
    (usual commonSecret 10).recoverySpk =
      payingTo 0xcafd90c7026f0b6ab98df89490d02732881f2f4b5900856358dddff4679c2ffb ∧
    (usual ownSecret 10).recoverySpk =
      payingTo 0x7368c4e3b496d0694da5db455dd853d4c9d42ac0183fbe4bc72590c2698dc69e ∧
    (usual commonSecret 10).vaultSpk =
      payingTo 0x0978a87fae2a2dcbf1174c17e47a5cf7ccdef00f94f680267947cc4ac929d9ad ∧
    (usual commonSecret 11).vaultSpk =
      payingTo 0xcd2e59da83219c47abf9c618883784046fdc03b47c41e8e7375346c777226043 ∧
    (usual commonSecret 12).vaultSpk =
      payingTo 0xf48cd50c172a563a15bd6388435b5fcda733c38f78db86c8c4dcc78132cebcb8 ∧
    (usual ownSecret 10).vaultSpk =
      payingTo 0x9c67b3ca7e85ee0c61c4e3bcc0d61fc399940d2f704070d694bae71e290da6c3 ∧
    (usual commonSecret 10).idleTrigger.scriptPubkey =
      payingTo 0x9673337617de4da99979889280746aed3266ba05584b26105f60483eba5f4b25 := by
  simp only [recoverySpk, vaultSpk, tree, idleTrigger, Batch.triggerTree,
    TaprootTree.scriptPubkey, TaprootTree.outputKey, TaprootTree.merkleRoot_pair,
    XOnlyKey.tweak, XOnlyKey.tweak?, XOnlyKey.tweakScalar, Curve.multiple_eq, joinHash, leafHash,
    taggedHash_eq_digest, recoverScript, recoverScriptFor, recoveryHash, recoveryCommitment,
    recoveryPreimage, taggedPreimage, sha256_eq_digest, Transaction.templateHash,
    Transaction.templatePreimage, Transaction.scriptSigCommitment]
  -- one at a time, so that what one of them takes is free for the next
  refine ⟨?_, ?_, ?_, ?_, ?_, ?_, ?_⟩ <;> decide +kernel

theorem recoverySpk_usual_ne (delay delay' : Int64) :
    (usual commonSecret delay).recoverySpk ≠ (usual ownSecret delay').recoverySpk := by
  obtain ⟨hcommon, hown, -⟩ := outputs_usual
  have hcommon' : (usual commonSecret delay).recoverySpk = _ := hcommon
  have hown' : (usual ownSecret delay').recoverySpk = _ := hown
  rw [hcommon', hown']
  decide

/-- No other vault and no trigger pays to the script of the vault with a
recovery key of its own. -/
theorem vaultSpk_own_ne :
    (usual ownSecret 10).vaultSpk ≠ (usual commonSecret 11).vaultSpk ∧
    (usual ownSecret 10).vaultSpk ≠ (usual commonSecret 12).vaultSpk ∧
    (usual ownSecret 10).vaultSpk ≠ (usual commonSecret 10).idleTrigger.scriptPubkey := by
  obtain ⟨-, -, -, h11, h12, hown, htrigger⟩ := outputs_usual
  rw [h11, h12, hown, htrigger]
  decide

end Policy

end VaultCovenant
