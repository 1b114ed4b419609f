import VaultCovenant.Proofs.Batch.Balance
import VaultCovenant.Proofs.Binding

/-!
# What one fault does to a batch

A batch that is built with one fault against the batch that is built from the
same order without faults. A fault that shapes batches either shifts an amount
or changes a leaf of the trigger output, and a changed leaf shows in the output
key unless hashes or tweaked keys coincide.

Results:
* `Batch.Shaped.eq_of_not_shapesBatch`: the other faults leave a batch alone.
* `Batch.Shaped.outputs_ne_of_amount`: a shifted amount shows in the outputs.
* `Batch.Shaped.triggerOutput_ne_of_leaf`: so does a changed leaf.
-/

namespace VaultCovenant

/-! ## Lowered amounts -/

/-- An amount is really lowered unless it is zero. -/
theorem Sats.lowered_ne {a : Sats} (h : a ≠ 0) : a.lowered ≠ a := by
  intro hsame
  have hlowered := toNat_lowered a
  have hpos := toNat_ne_zero h
  rw [hsame] at hlowered
  omega

/-! ## Faults that change a leaf -/

/-- Whether a fault changes a leaf of the trigger output. -/
def Fault.changesLeaf : Fault → Bool
  | triggerBadRecoveryCommitment | triggerBadSpendDelay | triggerWithdrawLeafWrongOpcode
  | triggerRecoverLeafWrongOpcode => true
  | _ => false

/-- A fault that shapes batches either shifts an amount or changes a leaf. -/
theorem Fault.shapesBatch_eq (fault : Fault) :
    fault.shapesBatch = (fault.changesAmount || fault.changesLeaf) := by
  cases fault <;> rfl

theorem Fault.eq_of_not_shapesBatch (fault : Fault) (hstage : fault.stage = .trigger)
    (hshapes : fault.shapesBatch = false) :
    fault = .triggerVoutOffByOne ∨ fault = .triggerWrongKey := by
  revert hstage hshapes
  cases fault <;> decide

/-- Two trees with one internal key are confused when two of the strings hashed
on the way to their roots collide, or when their roots tweak the key to one
output key. -/
def TaprootTree.Confused (t u : TaprootTree) : Prop :=
  Collision t.messages u.messages ∨
    (t.merkleRoot ≠ u.merkleRoot ∧ t.outputKey.key = u.outputKey.key)

namespace Batch

/-- The commitment in a recover leaf, which one of the faults changes. -/
def commitmentUnder (faults : FaultSet) (p : Policy) : Digest :=
  if faults.contains .triggerBadRecoveryCommitment then bogusCommitment else p.recoveryHash

/-- The last opcode of a recover leaf, which one of the faults changes. -/
def recoverOpcode (faults : FaultSet) : Opcode :=
  if faults.contains .triggerRecoverLeafWrongOpcode then Opcode.vault else Opcode.vaultRecover

theorem bytes_recoverScriptUnder (faults : FaultSet) (p : Policy) :
    (recoverScriptUnder faults p).bytes =
      p.authorization.script.bytes ++ 0x20 :: (commitmentUnder faults p).bytes ++
        [recoverOpcode faults] := by
  have hscript : (if faults.contains .triggerBadRecoveryCommitment then
      p.recoverScriptFor bogusCommitment else p.recoverScript) =
      p.recoverScriptFor (commitmentUnder faults p) := by
    unfold commitmentUnder
    split <;> rfl
  unfold recoverScriptUnder recoverOpcode
  rw [hscript]
  split
  · show (p.recoverScriptFor _).bytes.dropLast ++ [_] = _
    rw [Policy.bytes_recoverScriptFor, ← List.append_assoc, List.dropLast_concat]
  · rw [Policy.bytes_recoverScriptFor, List.append_assoc]

theorem getLast?_recoverScriptUnder (faults : FaultSet) (p : Policy) :
    (recoverScriptUnder faults p).bytes.getLast? = some (recoverOpcode faults) := by
  rw [bytes_recoverScriptUnder]
  exact List.getLast?_concat

theorem getLast?_withdrawScriptUnder (faults : FaultSet) (delay : Int64) (template : Digest) :
    (withdrawScriptUnder faults delay template).bytes.getLast? = some (withdrawOpcode faults) := by
  rw [withdrawScriptUnder_eq, bytes_withdrawInstructions]
  exact List.getLast?_concat

theorem vaultRecover_ne_withdrawOpcode (faults : FaultSet) :
    Opcode.vaultRecover ≠ withdrawOpcode faults := by
  unfold withdrawOpcode
  split <;> decide

namespace Made

variable {members : List Vault} {targets : List TxOut} {revault : Option Sats} {fault : Fault}
  {first : Vault} {total total' : Sats} {b b' : Batch}

theorem withdrawScript_ne_of_delay (h : Made members targets revault .none first total b)
    (h' : Made members targets revault (.only .triggerBadSpendDelay) first total' b') :
    b.withdrawScript ≠ b'.withdrawScript := by
  intro hscript
  rw [h.withdrawScript_eq, h'.withdrawScript_eq] at hscript
  have hdelay := (withdrawScriptFor_inj hscript).1
  have hunder := h'.delay_eq
  unfold delayUnder at hunder
  rw [if_pos (by rfl)] at hunder
  split at hunder
  · cases hunder
  · rw [h.spendDelay_eq, ← Except.ok.inj hunder] at hdelay
    simp at hdelay

/-- The leaves of a batch with a fault that changes a leaf are not those of the
batch without faults, except for a commitment that is the bogus one anyway. -/
theorem leaves_ne (h : Made members targets revault .none first total b)
    (h' : Made members targets revault (.only fault) first total' b')
    (hfault : fault.changesLeaf = true)
    (hrecover : recoverScriptUnder .none first.policy =
      recoverScriptUnder (.only fault) first.policy)
    (hwithdraw : b.withdrawScript = b'.withdrawScript) :
    fault = .triggerBadRecoveryCommitment ∧ first.policy.recoveryHash = bogusCommitment := by
  have hopcodes := congrArg (fun s : Script => s.bytes.getLast?) hrecover
  simp only [getLast?_recoverScriptUnder, Option.some.injEq] at hopcodes
  have hopcodes' := congrArg (fun s : Script => s.bytes.getLast?) hwithdraw
  simp only [h.withdrawScript_eq, h'.withdrawScript_eq, getLast?_withdrawScriptUnder,
    Option.some.injEq] at hopcodes'
  cases fault with
  | triggerBadRecoveryCommitment =>
    exact ⟨rfl, (Policy.recoverScriptFor_inj hrecover).2⟩
  | triggerBadSpendDelay => exact absurd hwithdraw (h.withdrawScript_ne_of_delay h')
  | triggerWithdrawLeafWrongOpcode => exact absurd hopcodes' (by decide)
  | triggerRecoverLeafWrongOpcode => exact absurd hopcodes (by decide)
  | _ => cases hfault

/-- A changed leaf shows in the trigger output, unless the two trees are
confused. -/
theorem triggerOutput_ne (h : Made members targets revault .none first total b)
    (h' : Made members targets revault (.only fault) first total' b')
    (hfault : fault.changesLeaf = true) :
    b'.triggerOutput ≠ b.triggerOutput ∨ b.tree.Confused b'.tree ∨
      (fault = .triggerBadRecoveryCommitment ∧ first.policy.recoveryHash = bogusCommitment) := by
  by_cases houtput : b'.triggerOutput = b.triggerOutput
  · right
    by_cases hroot : b.tree.merkleRoot = b'.tree.merkleRoot
    · by_cases hno : Collision b.tree.messages b'.tree.messages
      · exact Or.inl (Or.inl hno)
      · right
        have hmessages : ∀ x ∈ b.tree.messages, x ∈ b.tree.messages := fun x hx => hx
        have hmessages' : ∀ x ∈ b'.tree.messages, x ∈ b'.tree.messages := fun x hx => hx
        nth_rewrite 1 [h.tree_eq] at hmessages
        nth_rewrite 1 [h'.tree_eq] at hmessages'
        rw [h.tree_eq, h'.tree_eq] at hroot
        rcases TaprootTree.merkleRoot_pair_binds hmessages hmessages' hno hroot with
          ⟨hrecover, hwithdraw⟩ | ⟨hcrossed, -⟩
        · exact h.leaves_ne h' hfault hrecover hwithdraw
        · have hopcodes := congrArg (fun s : Script => s.bytes.getLast?) hcrossed
          simp only [getLast?_recoverScriptUnder, h'.withdrawScript_eq,
            getLast?_withdrawScriptUnder, Option.some.injEq] at hopcodes
          exact absurd hopcodes (vaultRecover_ne_withdrawOpcode _)
    · refine Or.inl (Or.inr ⟨hroot, ?_⟩)
      have hspk := congrArg TxOut.scriptPubkey houtput
      rw [h.output_eq, h'.output_eq, TaprootTree.scriptPubkey_inj] at hspk
      exact hspk.symm
  · exact Or.inl houtput

end Made

/-! ## With and without a fault -/

/-- Of the faults only those that shape a batch have an effect on it. -/
theorem build_congr {members : List Vault} {targets : List TxOut} {revault : Option Sats}
    {faults faults' : FaultSet}
    (h : ∀ f : Fault, f.shapesBatch = true → faults.contains f = faults'.contains f) :
    build members targets revault faults = build members targets revault faults' := by
  have hdelay := h .triggerBadSpendDelay rfl
  have hcommitment := h .triggerBadRecoveryCommitment rfl
  have hwithdraw := h .triggerWithdrawLeafWrongOpcode rfl
  have hrecover := h .triggerRecoverLeafWrongOpcode rfl
  have hamounts := And.intro (h .triggerAmountTooHigh rfl) (h .triggerAmountTooLow rfl)
  have hrevaults := And.intro (h .revaultAmountTooHigh rfl) (h .revaultAmountTooLow rfl)
  unfold build delayUnder withdrawScriptUnder recoverScriptUnder revaultOutputUnder
  rw [hdelay, hcommitment, hwithdraw, hrecover, hamounts.1, hamounts.2, hrevaults.1, hrevaults.2]

theorem Order.returned {q : Order} {b : Batch} {out : TxOut} (h : q.build = .ok b)
    (hout : b.revaultOutput = some out) :
    ∃ amount, q.revault = some amount ∧ out.value.toNat =
      amount.toNat + (q.faults.contains .revaultAmountTooHigh).toNat
        - (q.faults.contains .revaultAmountTooLow).toNat := by
  obtain ⟨-, -, hrevault⟩ := amounts h
  rw [hout] at hrevault
  obtain ⟨amount, hamount, hvalue⟩ := Option.map_eq_some_iff.mp hrevault.symm
  exact ⟨amount, hamount, hvalue.symm⟩

/-- Some order gives the one batch without faults and the other with one. -/
def Shaped (fault : Fault) (b b' : Batch) : Prop :=
  ∃ q : Order, ({ q with faults := .none } : Order).build = .ok b ∧
    ({ q with faults := .only fault } : Order).build = .ok b'

/-- What a fault that shifts an amount needs: an amount to be returned, and
none that is zero where it is to be lowered. -/
def Admits (b : Batch) : Fault → Prop
  | .triggerAmountTooLow => b.triggerOutput.value ≠ 0
  | .revaultAmountTooHigh => ∃ out, b.revaultOutput = some out
  | .revaultAmountTooLow => ∃ out, b.revaultOutput = some out ∧ out.value ≠ 0
  | _ => True

namespace Shaped

variable {fault : Fault} {b b' : Batch}

theorem members_eq (h : b.Shaped fault b') : b'.members = b.members := by
  obtain ⟨q, hb, hb'⟩ := h
  obtain ⟨_, _, hmade⟩ := build_eq_ok hb
  obtain ⟨_, _, hmade'⟩ := build_eq_ok hb'
  rw [hmade.members_eq, hmade'.members_eq]

theorem exists_member (h : b.Shaped fault b') : ∃ v, v ∈ b.members := by
  obtain ⟨q, hb, -⟩ := h
  obtain ⟨first, _, hmade⟩ := build_eq_ok hb
  rw [hmade.members_eq]
  exact ⟨first, List.mem_of_head? hmade.first_eq⟩

/-- A fault that does not shape batches leaves a batch alone. -/
theorem eq_of_not_shapesBatch (h : b.Shaped fault b') (hfault : fault.shapesBatch = false) :
    b' = b := by
  obtain ⟨q, hb, hb'⟩ := h
  have hlacks : ∀ f : Fault, f.shapesBatch = true →
      (FaultSet.only fault).contains f = FaultSet.none.contains f := by
    intro f hf
    have hne : f ≠ fault := by
      rintro rfl
      exact absurd (hfault.symm.trans hf) Bool.false_ne_true
    exact Bool.or_eq_false_iff.mpr ⟨beq_eq_false_iff_ne.mpr hne, rfl⟩
  exact Except.ok.inj (hb'.symm.trans ((build_congr hlacks).trans hb))

theorem length_outputs (h : b.Shaped fault b') : b'.outputs.length = b.outputs.length := by
  obtain ⟨q, hb, hb'⟩ := h
  obtain ⟨-, -, hrevault⟩ := Order.amounts hb
  obtain ⟨-, -, hrevault'⟩ := Order.amounts hb'
  have hsome := congrArg Option.isSome hrevault
  have hsome' := congrArg Option.isSome hrevault'
  simp only [Option.isSome_map] at hsome hsome'
  simp only [outputs, List.length_cons, Option.length_toList, hsome, hsome']

/-- A shifted amount shows in the outputs. -/
theorem outputs_ne_of_amount (h : b.Shaped fault b') (hfault : fault.changesAmount = true)
    (hadmits : b.Admits fault) : b'.outputs ≠ b.outputs := by
  obtain ⟨q, hb, hb'⟩ := h
  obtain ⟨-, htrigger, -⟩ := Order.amounts hb
  obtain ⟨-, htrigger', -⟩ := Order.amounts hb'
  intro houtputs
  obtain ⟨houtput, hreturned⟩ := List.cons.inj houtputs
  have hreturned := congrArg List.head? hreturned
  rw [Option.head?_toList, Option.head?_toList] at hreturned
  rw [houtput] at htrigger'
  -- what the two orders ask for differs in the fault alone
  cases fault with
  | triggerAmountTooHigh =>
    change _ = q.worth - (q.revault.getD 0).toNat + 0 - 0 at htrigger
    change _ = q.worth - (q.revault.getD 0).toNat + 1 - 0 at htrigger'
    omega
  | triggerAmountTooLow =>
    change _ = q.worth - (q.revault.getD 0).toNat + 0 - 0 at htrigger
    change _ = q.worth - (q.revault.getD 0).toNat + 0 - 1 at htrigger'
    have hpos : b.triggerOutput.value.toNat ≠ 0 := Sats.toNat_ne_zero hadmits
    omega
  | revaultAmountTooHigh =>
    obtain ⟨out, hout⟩ := hadmits
    obtain ⟨amount, hamount, hvalue⟩ := Order.returned hb hout
    obtain ⟨amount', hamount', hvalue'⟩ := Order.returned hb' (hreturned.trans hout)
    obtain rfl : amount = amount' := Option.some.inj (hamount.symm.trans hamount')
    change _ = _ + 0 - 0 at hvalue
    change _ = _ + 1 - 0 at hvalue'
    omega
  | revaultAmountTooLow =>
    obtain ⟨out, hout, hne⟩ := hadmits
    obtain ⟨amount, hamount, hvalue⟩ := Order.returned hb hout
    obtain ⟨amount', hamount', hvalue'⟩ := Order.returned hb' (hreturned.trans hout)
    obtain rfl : amount = amount' := Option.some.inj (hamount.symm.trans hamount')
    change _ = _ + 0 - 0 at hvalue
    change _ = _ + 0 - 1 at hvalue'
    have hpos : out.value.toNat ≠ 0 := Sats.toNat_ne_zero hne
    omega
  | _ => cases hfault

/-- A changed leaf shows in the trigger output, unless the two trees are
confused. -/
theorem triggerOutput_ne_of_leaf (h : b.Shaped fault b') (hfault : fault.changesLeaf = true) :
    b'.triggerOutput ≠ b.triggerOutput ∨ b.tree.Confused b'.tree ∨
      (fault = .triggerBadRecoveryCommitment ∧
        ∃ first, b.canonical = .ok first ∧ first.policy.recoveryHash = bogusCommitment) := by
  obtain ⟨q, hb, hb'⟩ := h
  obtain ⟨first, total, hmade⟩ := build_eq_ok hb
  obtain ⟨first', total', hmade'⟩ := build_eq_ok hb'
  obtain rfl : first = first' := Option.some.inj (hmade.first_eq.symm.trans hmade'.first_eq)
  refine (hmade.triggerOutput_ne hmade' hfault).imp_right (Or.imp_right ?_)
  exact And.imp_right fun hbogus => ⟨first, hmade.canonical, hbogus⟩

/-- A trigger amount that is zero cannot be lowered, and then nothing
changes. -/
theorem eq_of_zero (h : b.Shaped .triggerAmountTooLow b') (hzero : b.triggerOutput.value = 0) :
    b' = b := by
  obtain ⟨q, hb, hb'⟩ := h
  obtain ⟨-, htrigger, -⟩ := Order.amounts hb
  obtain ⟨-, htrigger', -⟩ := Order.amounts hb'
  obtain ⟨first, total, hmade⟩ := build_eq_ok hb
  obtain ⟨first', total', hmade'⟩ := build_eq_ok hb'
  obtain rfl : first = first' := Option.some.inj (hmade.first_eq.symm.trans hmade'.first_eq)
  have hdelay : b'.spendDelay = b.spendDelay :=
    Except.ok.inj (hmade'.delay_eq.symm.trans hmade.delay_eq)
  have htemplate : b'.template = b.template := by
    rw [hmade'.template_eq, hmade.template_eq, hdelay]
  have hhash : b'.withdrawalHash = b.withdrawalHash := by
    rw [hmade'.hash_eq, hmade.hash_eq, htemplate]
  have hwithdraw : b'.withdrawScript = b.withdrawScript := by
    rw [hmade'.withdrawScript_eq, hmade.withdrawScript_eq, hdelay, hhash]
    rfl
  have htree : b'.tree = b.tree := by
    rw [hmade'.tree_eq, hmade.tree_eq, hwithdraw]
    rfl
  have hrevault : b'.revaultOutput = b.revaultOutput :=
    Except.ok.inj (hmade'.revault_eq.symm.trans hmade.revault_eq)
  have hvalue : b'.triggerOutput.value = b.triggerOutput.value := by
    change _ = q.worth - (q.revault.getD 0).toNat + 0 - 0 at htrigger
    change _ = q.worth - (q.revault.getD 0).toNat + 0 - 1 at htrigger'
    rw [hzero, UInt64.toNat_zero] at htrigger
    refine UInt64.toNat_inj.mp ?_
    rw [hzero, UInt64.toNat_zero]
    omega
  have hspk : b'.triggerOutput.scriptPubkey = b.triggerOutput.scriptPubkey := by
    rw [hmade'.output_eq, hmade.output_eq, htree]
  have houtput : b'.triggerOutput = b.triggerOutput := by
    calc b'.triggerOutput = ⟨b'.triggerOutput.value, b'.triggerOutput.scriptPubkey⟩ := rfl
      _ = b.triggerOutput := by rw [hvalue, hspk]
  have hmembers : b'.members = b.members := hmade'.members_eq.trans hmade.members_eq.symm
  have htargets : b'.targets = b.targets := hmade'.targets_eq.trans hmade.targets_eq.symm
  cases b
  cases b'
  exact Batch.mk.injEq .. ▸ ⟨hmembers, htargets, hdelay, htemplate, hhash, hwithdraw, htree,
    houtput, hrevault⟩

end Shaped

end Batch

end VaultCovenant
