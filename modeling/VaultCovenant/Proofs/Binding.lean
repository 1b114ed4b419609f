import VaultCovenant.Proofs.Batch.Compatibility
import VaultCovenant.Proofs.Leaves
import VaultCovenant.Proofs.Taproot.Binding
import VaultCovenant.Proofs.Withdrawal.Commitment

/-!
# What vault and trigger outputs bind

The root of a vault output fixes the authorization, the recovery output, the
trigger key and the delay; the root of a trigger output fixes the recovery,
the delay and the withdrawal. Their leaves cannot be mistaken for each other
since each kind ends with an opcode of its own.

Results:
* `Policy.merkleRoot_binds`: vault outputs with one root have the same
  choices, unless two of the strings hashed collide.
* `Batch.Made.merkleRoot_binds`: trigger outputs with one root have the same
  recovery and the same withdrawal, unless two of the strings hashed collide.
* `outputs_bind_choices`: both for whatever vaults and batches.
-/

namespace VaultCovenant

/-! ## Vault outputs -/

namespace Policy

variable {p q : Policy} {first second : List Bytes}

/-- The strings hashed on the way to the root of the vault output. -/
def messages (p : Policy) : List Bytes := p.tree.messages ++ [recoveryPreimage p.recoverySpk]

/-- A recover leaf fixes the authorization and, through its commitment, the
recovery output. -/
theorem recoverScript_binds (hno : ¬ Collision first second)
    (hp : recoveryPreimage p.recoverySpk ∈ first) (hq : recoveryPreimage q.recoverySpk ∈ second)
    (h : p.recoverScript = q.recoverScript) :
    p.authorization.script = q.authorization.script ∧ p.recoverySpk = q.recoverySpk := by
  obtain ⟨hauthorization, hcommitment⟩ := recoverScriptFor_inj h
  have hpreimage := eq_of_not_collision hno hp hq hcommitment
  exact ⟨hauthorization, Script.serialize_inj (taggedPreimage_inj hpreimage)⟩

theorem recoverScript_ne_triggerScript (p q : Policy) : p.recoverScript ≠ q.triggerScript := by
  intro h
  have hlast := p.getLast?_recoverScript
  rw [h, getLast?_triggerScript] at hlast
  exact absurd (Option.some.inj hlast) (by decide)

/-- Vault outputs with one root have the same choices, unless two of the
strings hashed collide. -/
theorem merkleRoot_binds (h : p.tree.merkleRoot = q.tree.merkleRoot) :
    (p.authorization.script = q.authorization.script ∧ p.recoverySpk = q.recoverySpk ∧
      p.triggerKey = q.triggerKey ∧ p.spendDelay = q.spendDelay) ∨
      Collision p.messages q.messages := by
  by_cases hno : Collision p.messages q.messages
  · exact Or.inr hno
  left
  rcases TaprootTree.merkleRoot_pair_binds (fun x hx => List.mem_append_left _ hx)
    (fun x hx => List.mem_append_left _ hx) hno h with ⟨hrecover, htrigger⟩ | ⟨hcrossed, -⟩
  · obtain ⟨hauthorization, hrecovery⟩ :=
      recoverScript_binds hno (List.mem_concat_self ..) (List.mem_concat_self ..) hrecover
    obtain ⟨hkey, hdelay⟩ := triggerScript_inj htrigger
    exact ⟨hauthorization, hrecovery, hkey, hdelay⟩
  · exact absurd hcrossed (recoverScript_ne_triggerScript p q)

end Policy

/-! ## Trigger outputs -/

namespace Batch

variable {members members' : List Vault} {targets targets' : List TxOut}
  {revault revault' : Option Sats} {first first' : Vault} {total total' : Sats} {b b' : Batch}

/-- The strings hashed on the way to the root of the trigger output. -/
def messages (b : Batch) : List Bytes :=
  b.tree.messages ++ b.template.templateMessages 0 ++
    b.members.head?.toList.map fun v => recoveryPreimage v.policy.recoverySpk

theorem recoverScript_ne_withdrawScriptFor (p : Policy) (delay : Int64) (template : Digest) :
    p.recoverScript ≠ withdrawScriptFor delay template := by
  intro h
  have hlast := p.getLast?_recoverScript
  rw [h, getLast?_withdrawScriptFor] at hlast
  exact absurd (Option.some.inj hlast) (by decide)

namespace Made

theorem recoveryPreimage_mem_messages
    (h : Made members targets revault .none first total b) :
    recoveryPreimage first.policy.recoverySpk ∈ b.messages := by
  refine List.mem_append_right _ ?_
  rw [h.members_eq, h.first_eq]
  exact List.mem_singleton_self _

/-- Without faults the leaves are those of the first member and of the
withdrawal. -/
theorem tree_eq_of_none (h : Made members targets revault .none first total b) :
    b.tree = triggerTree first.policy first.policy.recoverScript
      (withdrawScriptFor b.spendDelay b.withdrawalHash) := by
  rw [h.tree_eq, h.withdrawScript_eq]
  rfl

/-- The template hash fixes the targets. -/
theorem targets_binds (h : Made members targets revault .none first total b)
    (h' : Made members' targets' revault' .none first' total' b')
    (htargets : ∀ o ∈ targets, o.scriptPubkey.Sized)
    (htargets' : ∀ o ∈ targets', o.scriptPubkey.Sized)
    (hno : ¬ Collision b.messages b'.messages) (hhash : b.withdrawalHash = b'.withdrawalHash) :
    b.targets = b'.targets := by
  rw [h.hash_eq, h'.hash_eq] at hhash
  rcases Transaction.templateHash_binds (h.sized_template htargets)
    (h'.sized_template htargets') hhash with ⟨-, hsame⟩ | hcollision
  · have houtputs := hsame.outputs
    rw [h.outputs_template, h'.outputs_template] at houtputs
    rw [h.targets_eq, h'.targets_eq, houtputs]
  · refine absurd (hcollision.mono ?_ ?_) hno
    · exact fun x hx => List.mem_append_left _ (List.mem_append_right _ hx)
    · exact fun x hx => List.mem_append_left _ (List.mem_append_right _ hx)

/-- Trigger outputs with one root have the same recovery and the same
withdrawal, unless two of the strings hashed collide. -/
theorem merkleRoot_binds (h : Made members targets revault .none first total b)
    (h' : Made members' targets' revault' .none first' total' b')
    (htargets : ∀ o ∈ targets, o.scriptPubkey.Sized)
    (htargets' : ∀ o ∈ targets', o.scriptPubkey.Sized)
    (hroot : b.tree.merkleRoot = b'.tree.merkleRoot) :
    (first.policy.recoverScript = first'.policy.recoverScript ∧
      first.policy.authorization.script = first'.policy.authorization.script ∧
      first.policy.recoverySpk = first'.policy.recoverySpk ∧ b.spendDelay = b'.spendDelay ∧
      b.withdrawalHash = b'.withdrawalHash ∧ b.targets = b'.targets) ∨
      Collision b.messages b'.messages := by
  by_cases hno : Collision b.messages b'.messages
  · exact Or.inr hno
  left
  have hmem : ∀ (d : Batch), ∀ x ∈ d.tree.messages, x ∈ d.messages := fun d x hx =>
    List.mem_append_left _ (List.mem_append_left _ hx)
  have hmessages := hmem b
  have hmessages' := hmem b'
  rw [h.tree_eq_of_none] at hroot hmessages
  rw [h'.tree_eq_of_none] at hroot hmessages'
  rcases TaprootTree.merkleRoot_pair_binds hmessages hmessages' hno hroot with
    ⟨hrecover, hwithdraw⟩ | ⟨hcrossed, -⟩
  · obtain ⟨hauthorization, hrecovery⟩ := Policy.recoverScript_binds hno
      h.recoveryPreimage_mem_messages h'.recoveryPreimage_mem_messages hrecover
    obtain ⟨hdelay, hhash⟩ := withdrawScriptFor_inj hwithdraw
    exact ⟨hrecover, hauthorization, hrecovery, hdelay, hhash,
      h.targets_binds h' htargets htargets' hno hhash⟩
  · exact absurd hcrossed (recoverScript_ne_withdrawScriptFor _ _ _)

end Made

end Batch

/-! ## Both outputs -/

/-- Vault outputs with one root have the same authorization, recovery output,
trigger key and delay. Trigger outputs with one root have the same recover
leaf, hence the same authorization and recovery output of the members that
stand for the batches, and the same delay, template hash and targets. In both
cases the alternative is a collision of two strings hashed, one on the way to
either root. -/
theorem outputs_bind_choices :
    (∀ v w : Vault, v.policy.tree.merkleRoot = w.policy.tree.merkleRoot →
      (v.policy.authorization.script = w.policy.authorization.script ∧
        v.policy.recoverySpk = w.policy.recoverySpk ∧
        v.policy.triggerKey = w.policy.triggerKey ∧
        v.policy.spendDelay = w.policy.spendDelay) ∨
        Collision v.policy.messages w.policy.messages) ∧
    ∀ (members members' : List Vault) (targets targets' : List TxOut)
      (revault revault' : Option Sats) (b b' : Batch),
      Batch.build members targets revault .none = .ok b →
      Batch.build members' targets' revault' .none = .ok b' →
      (∀ o ∈ targets, o.scriptPubkey.Sized) → (∀ o ∈ targets', o.scriptPubkey.Sized) →
      b.tree.merkleRoot = b'.tree.merkleRoot →
      ∃ first first', b.canonical = .ok first ∧ b'.canonical = .ok first' ∧
        ((b.tree.leafScript recoverLeaf = b'.tree.leafScript recoverLeaf ∧
          first.policy.authorization.script = first'.policy.authorization.script ∧
          first.policy.recoverySpk = first'.policy.recoverySpk ∧
          b.spendDelay = b'.spendDelay ∧ b.withdrawalHash = b'.withdrawalHash ∧
          b.targets = b'.targets) ∨
          Collision b.messages b'.messages) := by
  constructor
  · intro v w hroot
    exact Policy.merkleRoot_binds hroot
  · intro members members' targets targets' revault revault' b b' hbuild hbuild' htargets htargets'
      hroot
    obtain ⟨first, total, hmade⟩ := Batch.build_eq_ok hbuild
    obtain ⟨first', total', hmade'⟩ := Batch.build_eq_ok hbuild'
    refine ⟨first, first', hmade.canonical, hmade'.canonical, ?_⟩
    rcases hmade.merkleRoot_binds hmade' htargets htargets' hroot with
      ⟨hrecover, hbound⟩ | hcollision
    · have hleaf : b.tree.leafScript recoverLeaf = b'.tree.leafScript recoverLeaf := by
        rw [hmade.leafScript_recover, hmade'.leafScript_recover]
        exact congrArg Except.ok hrecover
      exact Or.inl ⟨hleaf, hbound⟩
    · exact Or.inr hcollision

/-- Two vaults that differ in whether their key path can be used have one
root, and so have their batches, though one of them returns value. -/
theorem outputs_bind_choices_key_path :
    ∃ (p : Policy) (v w : Vault) (b b' : Batch), Policy.ofParams {} = .ok p ∧ v.policy = p ∧
      w.policy = { p with scriptPathOnly := true } ∧
      v.policy.tree.merkleRoot = w.policy.tree.merkleRoot ∧
      (v.policy.recoverySpk = w.policy.recoverySpk ∨
        Collision v.policy.messages w.policy.messages) ∧
      Batch.build [v] [⟨900000, Script.anyone⟩] none .none = .ok b ∧
      Batch.build [w] [⟨900000, Script.anyone⟩] (some 1000) .none = .ok b' ∧
      b.tree.merkleRoot = b'.tree.merkleRoot ∧
      (b.withdrawalHash = b'.withdrawalHash ∨ Collision b.messages b'.messages) := by
  obtain ⟨p, hp⟩ : ∃ p, Policy.ofParams {} = .ok p := ⟨_, rfl⟩
  obtain ⟨v, b, hvp, -, hb⟩ := Batch.exists_build_singleton p [⟨900000, Script.anyone⟩]
    (show (none : Option Sats).getD 0 ≤ 990000 by decide)
  obtain ⟨w, b', hwp, -, hb'⟩ := Batch.exists_build_singleton { p with scriptPathOnly := true }
    [⟨900000, Script.anyone⟩] (show (some 1000 : Option Sats).getD 0 ≤ 990000 by decide)
  obtain ⟨first, total, hmade⟩ := Batch.build_eq_ok hb
  obtain ⟨first', total', hmade'⟩ := Batch.build_eq_ok hb'
  cases hmade.first_eq
  cases hmade'.first_eq
  have htargets : ∀ t ∈ [(⟨900000, Script.anyone⟩ : TxOut)], t.scriptPubkey.Sized := by
    intro t ht
    rw [List.mem_singleton.mp ht]
    decide
  -- the root leaves the internal key out
  have hroot : v.policy.tree.merkleRoot = w.policy.tree.merkleRoot := by
    unfold Policy.tree
    rw [TaprootTree.merkleRoot_pair, TaprootTree.merkleRoot_pair, hvp, hwp]
    rfl
  have hdelay : b.spendDelay = b'.spendDelay := by
    rw [hmade.spendDelay_eq, hmade'.spendDelay_eq, hvp, hwp]
  have hhash : b.withdrawalHash = b'.withdrawalHash := by
    rw [hmade.hash_eq, hmade'.hash_eq, hmade.template_eq, hmade'.template_eq, hdelay]
  have hroot' : b.tree.merkleRoot = b'.tree.merkleRoot := by
    rw [hmade.tree_eq_of_none, hmade'.tree_eq_of_none, hdelay, hhash]
    unfold Batch.triggerTree
    rw [TaprootTree.merkleRoot_pair, TaprootTree.merkleRoot_pair, hvp, hwp]
    rfl
  obtain ⟨hvaults, hbatches⟩ := outputs_bind_choices
  obtain ⟨_, _, -, -, hbound⟩ :=
    hbatches [v] [w] _ _ none (some 1000) b b' hb hb' htargets htargets hroot'
  refine ⟨p, v, w, b, b', hp, hvp, hwp, hroot, ?_, hb, hb', hroot', ?_⟩
  · exact (hvaults v w hroot).imp_left fun h => h.2.1
  · exact hbound.imp_left fun h => h.2.2.2.2.1

end VaultCovenant
