import VaultCovenant.Proofs.Faults.Batch
import VaultCovenant.Proofs.Withdrawal.Commitment

/-!
# Faults of a batch stay apart

A batch under any set of faults against the same batch without. Each fault
changes what it names and nothing else, also together with others: what depends
on a changed part follows it, what does not is as it was.

Results:
* `Batch.Isolated`: every part of a batch with the faults that change it.
* `Batch.build_clean_isOk`: what can be built under faults can be built without.
* `Batch.shaping_isolated`: a batch under faults is isolated from the one without,
  and only the faults that shape batches have an effect.
-/

namespace VaultCovenant

namespace Batch

/-! ## The parts of a batch and their faults -/

/-- The bytes of a withdraw leaf up to its last opcode. -/
def withdrawBody (delay : Int64) (template : Digest) : Bytes :=
  (Script.ofInstructions [.number delay.toInt, .op Opcode.checkSequenceVerify,
    .op Opcode.drop]).bytes ++ 0x20 :: template.bytes

/-- The bytes of a recover leaf up to its last opcode. -/
def recoverBody (authorization : Script) (commitment : Digest) : Bytes :=
  authorization.bytes ++ 0x20 :: commitment.bytes

/-- A batch under faults against the same batch without. -/
structure Isolated (faults : FaultSet) (clean b : Batch) : Prop where
  members_eq : b.members = clean.members
  targets_eq : b.targets = clean.targets
  internalKey_eq : b.tree.internalKey = clean.tree.internalKey
  /-- One fault makes the delay longer by one. -/
  spendDelay_eq : b.spendDelay.toInt =
    clean.spendDelay.toInt + (faults.contains .triggerBadSpendDelay).toNat
  /-- Template and hash are always those of the delay and the targets. -/
  template_eq : b.template = withdrawalTemplate b.spendDelay b.targets ∧
    clean.template = withdrawalTemplate clean.spendDelay clean.targets
  withdrawalHash_eq : b.withdrawalHash = b.template.templateHash 0 ∧
    clean.withdrawalHash = clean.template.templateHash 0
  /-- So is the withdraw leaf but for its last byte, which one fault changes. -/
  withdrawScript_eq : b.withdrawScript.bytes = withdrawBody b.spendDelay b.withdrawalHash ++
      [if faults.contains .triggerWithdrawLeafWrongOpcode then Opcode.vault
        else Opcode.checkTemplateVerify] ∧
    clean.withdrawScript.bytes = withdrawBody clean.spendDelay clean.withdrawalHash ++
      [Opcode.checkTemplateVerify]
  /-- Of the recover leaf one fault changes the commitment and one the last byte,
  none the authorization. The other leaf is the withdraw leaf. -/
  leaves_eq : ∃ (authorization : Script) (commitment : Digest),
    b.tree.leaves =
      [(recoverLeaf, ⟨recoverBody authorization
          (if faults.contains .triggerBadRecoveryCommitment then Bytes32.filled 0x01
            else commitment) ++
          [if faults.contains .triggerRecoverLeafWrongOpcode then Opcode.vault
            else Opcode.vaultRecover]⟩),
        (withdrawLeaf, b.withdrawScript)] ∧
    clean.tree.leaves =
      [(recoverLeaf, ⟨recoverBody authorization commitment ++ [Opcode.vaultRecover]⟩),
        (withdrawLeaf, clean.withdrawScript)]
  /-- The trigger output holds one more under one fault and then one less, but not
  below zero, under another. It follows the tree, whatever is returned. -/
  triggerValue_eq : b.triggerOutput.value.toNat = clean.triggerOutput.value.toNat
    + (faults.contains .triggerAmountTooHigh).toNat - (faults.contains .triggerAmountTooLow).toNat
  triggerScriptPubkey_eq : b.triggerOutput.scriptPubkey = b.tree.scriptPubkey ∧
    clean.triggerOutput.scriptPubkey = clean.tree.scriptPubkey
  /-- So does what is returned, if anything is, under two other faults. -/
  revaultValue_eq : b.revaultOutput.map (·.value.toNat) =
    clean.revaultOutput.map fun out => out.value.toNat
      + (faults.contains .revaultAmountTooHigh).toNat
      - (faults.contains .revaultAmountTooLow).toNat
  revaultScriptPubkey_eq : b.revaultOutput.map (·.scriptPubkey) =
    clean.revaultOutput.map (·.scriptPubkey)

/-! ## Parts under faults -/

variable {members : List Vault} {targets : List TxOut} {revault : Option Sats}
  {faults : FaultSet} {first : Vault} {total : Sats} {b : Batch}

theorem delayUnder_eq_ok {delay delay' : Int64} (h : delayUnder faults delay = .ok delay') :
    delay'.toInt = delay.toInt + (faults.contains .triggerBadSpendDelay).toNat := by
  unfold delayUnder at h
  cases hfault : faults.contains .triggerBadSpendDelay with
  | false =>
    rw [hfault, if_neg Bool.false_ne_true] at h
    cases h
    simp
  | true =>
    rw [hfault, if_pos rfl] at h
    split at h
    · cases h
    · rename_i hmax
      cases h
      -- the sum stays in range, since the delay is not the greatest there is
      have hne : delay.toInt ≠ Int64.maxValue.toInt := fun heq => hmax (Int64.toInt_inj.mp heq)
      have hmaxValue : Int64.maxValue.toInt = 2 ^ 63 - 1 := rfl
      have hle := Int64.toInt_le delay
      have hge := Int64.le_toInt delay
      have hone : (1 : Int64).toInt = 1 := rfl
      rw [hmaxValue] at hne hle
      rw [Int64.toInt_add, hone, Int.bmod_eq_of_le (by omega) (by omega)]
      rfl

theorem revaultOutput_isolated {policy : Policy} {clean out : Option TxOut}
    (hclean : revaultOutputUnder .none policy revault = .ok clean)
    (h : revaultOutputUnder faults policy revault = .ok out) :
    out.map (·.value.toNat) = clean.map (fun c => c.value.toNat
      + (faults.contains .revaultAmountTooHigh).toNat
      - (faults.contains .revaultAmountTooLow).toNat) ∧
    out.map (·.scriptPubkey) = clean.map (·.scriptPubkey) := by
  rcases revaultOutputUnder_eq_ok h with ⟨rfl, rfl⟩ | ⟨amount, value, rfl, rfl, hvalue⟩
  · cases hclean
    exact ⟨rfl, rfl⟩
  · cases hclean
    exact ⟨congrArg some (perturbed_eq_ok hvalue), rfl⟩

theorem Made.leaves_eq (h : Made members targets revault faults first total b) :
    b.tree.leaves =
      [(recoverLeaf, ⟨recoverBody first.policy.authorization.script
          (commitmentUnder faults first.policy) ++ [recoverOpcode faults]⟩),
        (withdrawLeaf, b.withdrawScript)] := by
  have hrecover : recoverScriptUnder faults first.policy =
      ⟨recoverBody first.policy.authorization.script (commitmentUnder faults first.policy) ++
        [recoverOpcode faults]⟩ :=
    congrArg Script.mk (bytes_recoverScriptUnder faults first.policy)
  rw [h.tree_eq, triggerTree, hrecover]

/-! ## With and without faults -/

/-- What can be built under faults can be built without. -/
theorem build_clean_isOk (h : build members targets revault faults = .ok b) :
    ∃ clean, build members targets revault .none = .ok clean := by
  obtain ⟨first, total, hmade⟩ := build_eq_ok h
  obtain ⟨remaining, hremaining, -⟩ := hmade.trigger_eq
  have htotal := hmade.total_eq
  cases members with
  | nil => cases hmade.first_eq
  | cons first rest => exact build_isOk targets revault htotal hremaining

theorem isolated {clean : Batch} (hclean : build members targets revault .none = .ok clean)
    (h : build members targets revault faults = .ok b) : Isolated faults clean b := by
  obtain ⟨first, total, hmade⟩ := build_eq_ok h
  obtain ⟨first', total', hmade'⟩ := build_eq_ok hclean
  obtain rfl : first = first' := Option.some.inj (hmade.first_eq.symm.trans hmade'.first_eq)
  obtain ⟨-, htrigger, -⟩ := Order.amounts (q := ⟨members, targets, revault, faults⟩) h
  obtain ⟨-, htrigger', -⟩ := Order.amounts (q := ⟨members, targets, revault, .none⟩) hclean
  have hrevault := revaultOutput_isolated hmade'.revault_eq hmade.revault_eq
  exact {
    members_eq := hmade.members_eq.trans hmade'.members_eq.symm
    targets_eq := hmade.targets_eq.trans hmade'.targets_eq.symm
    internalKey_eq := by
      rw [hmade.tree_eq, hmade'.tree_eq]
      rfl
    spendDelay_eq := by
      rw [hmade'.spendDelay_eq]
      exact delayUnder_eq_ok hmade.delay_eq
    template_eq := by
      rw [hmade.targets_eq, hmade'.targets_eq]
      exact ⟨hmade.template_eq, hmade'.template_eq⟩
    withdrawalHash_eq := ⟨hmade.hash_eq, hmade'.hash_eq⟩
    withdrawScript_eq := ⟨hmade.bytes_withdrawScript, hmade'.bytes_withdrawScript⟩
    leaves_eq := ⟨first.policy.authorization.script, first.policy.recoveryHash, hmade.leaves_eq,
      hmade'.leaves_eq⟩
    triggerValue_eq := by
      rw [htrigger, htrigger']
      rfl
    triggerScriptPubkey_eq := ⟨hmade.output_eq, hmade'.output_eq⟩
    revaultValue_eq := hrevault.1
    revaultScriptPubkey_eq := hrevault.2 }

/-- A batch under faults is isolated from the same batch without, and only the
faults that shape batches have an effect. -/
theorem shaping_isolated (h : build members targets revault faults = .ok b) :
    (∃ clean, build members targets revault .none = .ok clean ∧ Isolated faults clean b) ∧
      ∀ faults' : FaultSet, (∀ fault : Fault, fault.shapesBatch = true →
          faults'.contains fault = faults.contains fault) →
        build members targets revault faults' = .ok b := by
  obtain ⟨clean, hclean⟩ := build_clean_isOk h
  exact ⟨⟨clean, hclean, isolated hclean h⟩, fun faults' hagree => (build_congr hagree).trans h⟩

/-- A vault of 990000 sats triggered with five faults. Each of the first four
changes a part of its own; the last is made only when the batch is spent into. -/
theorem shaping_isolated_several :
    ∃ (v : Vault) (clean b : Batch) (authorization : Script) (commitment : Digest),
      build [v] [⟨700000, Script.anyone⟩] (some 200000) .none = .ok clean ∧
      build [v] [⟨700000, Script.anyone⟩] (some 200000) (.ofList [.triggerBadSpendDelay,
        .triggerAmountTooHigh, .revaultAmountTooLow, .triggerRecoverLeafWrongOpcode,
        .triggerWrongKey]) = .ok b ∧
      build [v] [⟨700000, Script.anyone⟩] (some 200000) (.ofList [.triggerBadSpendDelay,
        .triggerAmountTooHigh, .revaultAmountTooLow, .triggerRecoverLeafWrongOpcode]) = .ok b ∧
      b.spendDelay.toInt = clean.spendDelay.toInt + 1 ∧
      b.triggerOutput.value.toNat = clean.triggerOutput.value.toNat + 1 ∧
      b.revaultOutput.map (·.value.toNat) =
        clean.revaultOutput.map (fun out => out.value.toNat - 1) ∧
      b.withdrawScript.bytes =
        withdrawBody b.spendDelay b.withdrawalHash ++ [Opcode.checkTemplateVerify] ∧
      b.tree.leaves = [(recoverLeaf, ⟨recoverBody authorization commitment ++ [Opcode.vault]⟩),
        (withdrawLeaf, b.withdrawScript)] ∧
      clean.tree.leaves =
        [(recoverLeaf, ⟨recoverBody authorization commitment ++ [Opcode.vaultRecover]⟩),
          (withdrawLeaf, clean.withdrawScript)] := by
  obtain ⟨p, hp⟩ : ∃ p, Policy.ofParams {} = .ok p := ⟨_, rfl⟩
  obtain ⟨v, f, -, hvp, hf, -, hamount, -⟩ := Vault.exists_funded 1 p .null 990000
  have htotal : Vault.total [v] = .ok 990000 := hamount ▸ Vault.total_singleton hf
  obtain ⟨b, hb⟩ := build_isOk_under [⟨700000, Script.anyone⟩] (some 200000)
    (.ofList [.triggerBadSpendDelay, .triggerAmountTooHigh, .revaultAmountTooLow,
      .triggerRecoverLeafWrongOpcode, .triggerWrongKey]) htotal
    (show _ = Except.ok 11 by rw [hvp, (Policy.ofParams_eq_ok hp).1]; rfl)
    (show _ = Except.ok (some ⟨199999, _⟩) from rfl) (show _ = Except.ok 790000 by decide)
    (show _ = Except.ok 790001 by decide)
  obtain ⟨⟨clean, hclean, hisolated⟩, hothers⟩ := shaping_isolated hb
  obtain ⟨authorization, commitment, hleaves, hleaves'⟩ := hisolated.leaves_eq
  refine ⟨v, clean, b, authorization, commitment, hclean, hb, hothers _ ?_,
    hisolated.spendDelay_eq, hisolated.triggerValue_eq, hisolated.revaultValue_eq,
    hisolated.withdrawScript_eq.1, hleaves, hleaves'⟩
  intro fault hfault
  cases fault <;> first | rfl | cases hfault

end Batch

end VaultCovenant
