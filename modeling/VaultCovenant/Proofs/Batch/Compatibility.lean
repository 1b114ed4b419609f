import VaultCovenant.Proofs.Batch.Build

/-!
# Sharing a trigger output

A batch takes the internal key, the recover leaf and the delay of its trigger
output from its first member. Members are compared by their recover leaves and
their delays, and not by their internal keys.

Results:
* `Batch.Made.isCompatible_iff`: what the comparison of the members comes to.
* `Batch.isCompatible_perm`: it does not depend on their order.
* `Batch.sharesTrigger_iff`: a member of a compatible batch has the batch's
  trigger output for its own exactly when its internal key is tweaked to the
  same key.
-/

namespace VaultCovenant

/-- Different keys have different outputs. -/
theorem Script.taproot_inj {a b : XOnlyKey} : taproot a.bytes = taproot b.bytes ↔ a = b := by
  constructor
  · intro h
    have hbytes := congrArg Script.bytes h
    simp only [taproot, ofInstructions, List.flatMap_cons, List.flatMap_nil, List.append_nil,
      Instruction.encode, XOnlyKey.length_bytes] at hbytes
    have hcoordinate := Bytes32.ext_bytes (List.append_cancel_left (List.append_cancel_left hbytes))
    obtain ⟨c⟩ := a
    obtain ⟨d⟩ := b
    rw [show c = d from hcoordinate]
  · rintro rfl
    rfl

theorem TaprootTree.scriptPubkey_inj {s t : TaprootTree} :
    s.scriptPubkey = t.scriptPubkey ↔ s.outputKey.key = t.outputKey.key :=
  Script.taproot_inj

namespace Policy

theorem isCompatibleWith_iff {p q : Policy} :
    p.isCompatibleWith q = true ↔
      p.recoverScript = q.recoverScript ∧ p.spendDelay = q.spendDelay := by
  simp [isCompatibleWith]

/-- Whether the key path can be used is not compared. -/
theorem isCompatibleWith_scriptPathOnly (p : Policy) (only : Bool) :
    p.isCompatibleWith { p with scriptPathOnly := only } = true :=
  isCompatibleWith_iff.mpr ⟨rfl, rfl⟩

end Policy

namespace Batch

variable {members : List Vault} {targets : List TxOut} {revault : Option Sats}
  {faults : FaultSet} {first : Vault} {total : Sats} {b : Batch}

/-- The tree of the trigger output that a member has by its own parameters. -/
def ownTree (b : Batch) (m : Vault) : TaprootTree :=
  triggerTree m.policy m.policy.recoverScript b.withdrawScript

theorem Made.isCompatible_iff (h : Made members targets revault faults first total b) :
    b.isCompatible = true ↔
      ∀ m ∈ members, m.policy.recoverScript = first.policy.recoverScript ∧
        m.policy.spendDelay = first.policy.spendDelay := by
  have hfirst := h.first_eq
  cases members with
  | nil => cases hfirst
  | cons v rest =>
    cases hfirst
    unfold isCompatible
    rw [h.members_eq]
    simp only [List.all_eq_true, Vault.isCompatibleWith, Policy.isCompatibleWith_iff,
      List.mem_cons, forall_eq_or_imp, true_and]
    constructor
    · intro hall m hm
      exact ⟨(hall m hm).1.symm, (hall m hm).2.symm⟩
    · intro hall m hm
      exact ⟨(hall m hm).1.symm, (hall m hm).2.symm⟩

theorem isCompatible_perm {reordered : List Vault} {first' : Vault} {total' : Sats} {b' : Batch}
    (hperm : reordered.Perm members) (h : Made members targets revault faults first total b)
    (h' : Made reordered targets revault faults first' total' b')
    (hcompatible : b.isCompatible = true) : b'.isCompatible = true := by
  rw [h.isCompatible_iff] at hcompatible
  rw [h'.isCompatible_iff]
  have hfirst' : first' ∈ members := hperm.mem_iff.mp (List.mem_of_head? h'.first_eq)
  intro m hm
  have hm := hcompatible m (hperm.mem_iff.mp hm)
  have hsame := hcompatible first' hfirst'
  exact ⟨hm.1.trans hsame.1.symm, hm.2.trans hsame.2.symm⟩

/-! ## Without faults -/

namespace Made

variable {m : Vault}

theorem spendDelay_eq (h : Made members targets revault .none first total b) :
    b.spendDelay = first.policy.spendDelay := by
  have hdelay : Except.ok first.policy.spendDelay = Except.ok b.spendDelay := h.delay_eq
  exact (Except.ok.inj hdelay).symm

theorem tree_eq_ownTree (h : Made members targets revault .none first total b) :
    b.tree = b.ownTree first := h.tree_eq

theorem ownTree_eq_iff (h : Made members targets revault .none first total b)
    (hm : m.policy.recoverScript = first.policy.recoverScript) :
    b.ownTree m = b.tree ↔ m.policy.internalKey = first.policy.internalKey := by
  rw [h.tree_eq_ownTree]
  unfold ownTree triggerTree
  rw [hm]
  simp

theorem outputKey_ownTree (h : Made members targets revault .none first total b)
    (hm : m.policy.recoverScript = first.policy.recoverScript) :
    (b.ownTree m).outputKey = m.policy.internalKey.tweak b.tree.merkleRoot := by
  rw [h.tree_eq_ownTree]
  unfold ownTree triggerTree
  rw [hm]
  rfl

theorem scriptPubkey_ownTree_iff (h : Made members targets revault .none first total b)
    (hm : m.policy.recoverScript = first.policy.recoverScript) :
    (b.ownTree m).scriptPubkey = b.triggerOutput.scriptPubkey ↔
      (m.policy.internalKey.tweak b.tree.merkleRoot).key =
        (first.policy.internalKey.tweak b.tree.merkleRoot).key := by
  have hfirst := h.outputKey_ownTree (m := first) rfl
  rw [← h.tree_eq_ownTree] at hfirst
  rw [h.output_eq, TaprootTree.scriptPubkey_inj, h.outputKey_ownTree hm, hfirst]

/-- The withdraw leaf depends on the members only through their delay. -/
theorem withdrawScript_eq_of_delay {reordered : List Vault} {first' : Vault} {total' : Sats}
    {b' : Batch} (h : Made members targets revault faults first total b)
    (h' : Made reordered targets revault faults first' total' b')
    (hdelay : b'.spendDelay = b.spendDelay) : b'.withdrawScript = b.withdrawScript := by
  rw [h'.withdrawScript_eq, h'.hash_eq, h'.template_eq, hdelay, h.withdrawScript_eq, h.hash_eq,
    h.template_eq]

end Made

theorem build_perm {reordered : List Vault} (hperm : reordered.Perm members)
    (h : Made members targets revault faults first total b) :
    ∃ b', build reordered targets revault .none = .ok b' := by
  obtain ⟨remaining, hspend, -⟩ := h.trigger_eq
  have htotal := Vault.total_perm hperm.symm h.total_eq
  cases reordered with
  | nil =>
    have hfirst := h.first_eq
    rw [← hperm.nil_eq] at hfirst
    cases hfirst
  | cons v rest => exact build_isOk targets revault htotal hspend

/-- In a compatible batch the delay of every member is that of the batch, and
its trigger output is the batch's exactly when its internal key is tweaked to
the same key as that of the first member. What the first member is decides the
trigger output also when the members are reordered. -/
theorem sharesTrigger_iff (hbuild : build members targets revault .none = .ok b)
    (hcompatible : b.isCompatible = true) :
    ∃ first, members.head? = some first ∧
      (∀ m ∈ members, b.spendDelay = m.policy.spendDelay ∧
        (b.ownTree m = b.tree ↔ m.policy.internalKey = first.policy.internalKey) ∧
        ((b.ownTree m).scriptPubkey = b.triggerOutput.scriptPubkey ↔
          (m.policy.internalKey.tweak b.tree.merkleRoot).key =
            (first.policy.internalKey.tweak b.tree.merkleRoot).key)) ∧
      ∀ reordered : List Vault, reordered.Perm members →
        ∃ first' b', reordered.head? = some first' ∧
          build reordered targets revault .none = .ok b' ∧ b'.isCompatible = true ∧
          b'.spendDelay = b.spendDelay ∧
          (b'.triggerOutput.scriptPubkey = b.triggerOutput.scriptPubkey ↔
            (first'.policy.internalKey.tweak b.tree.merkleRoot).key =
              (first.policy.internalKey.tweak b.tree.merkleRoot).key) := by
  obtain ⟨first, total, hmade⟩ := build_eq_ok hbuild
  have hall := hmade.isCompatible_iff.mp hcompatible
  refine ⟨first, hmade.first_eq, ?_, ?_⟩
  · intro m hm
    obtain ⟨hscript, hdelay⟩ := hall m hm
    exact ⟨hmade.spendDelay_eq.trans hdelay.symm, hmade.ownTree_eq_iff hscript,
      hmade.scriptPubkey_ownTree_iff hscript⟩
  · intro reordered hperm
    obtain ⟨b', hbuild'⟩ := build_perm hperm hmade
    obtain ⟨first', total', hmade'⟩ := build_eq_ok hbuild'
    obtain ⟨hscript, hdelay⟩ :=
      hall first' (hperm.mem_iff.mp (List.mem_of_head? hmade'.first_eq))
    have hdelay' : b'.spendDelay = b.spendDelay := by
      rw [hmade'.spendDelay_eq, hdelay, hmade.spendDelay_eq]
    -- the reordered batch has the tree of its own first member
    have htree : b'.tree = b.ownTree first' := by
      rw [hmade'.tree_eq_ownTree, ownTree, ownTree,
        hmade.withdrawScript_eq_of_delay hmade' hdelay']
    refine ⟨first', b', hmade'.first_eq, hbuild', isCompatible_perm hperm hmade hmade' hcompatible,
      hdelay', ?_⟩
    rw [hmade'.output_eq, htree]
    exact hmade.scriptPubkey_ownTree_iff hscript

/-- A vault whose key path can be used and one whose cannot are compatible,
and would share a trigger output only if the recovery key and the key nobody
knows the secret of were tweaked to the same key. -/
theorem sharesTrigger_iff_key_path :
    ∃ (p : Policy) (v w : Vault) (b : Batch), Policy.ofParams {} = .ok p ∧ v.policy = p ∧
      w.policy = { p with scriptPathOnly := true } ∧
      build [v, w] [] none .none = .ok b ∧ b.isCompatible = true ∧
      ((b.ownTree w).scriptPubkey = b.triggerOutput.scriptPubkey ↔
        (XOnlyKey.nothingUpMySleeve.tweak b.tree.merkleRoot).key =
          (p.recoveryKey.tweak b.tree.merkleRoot).key) := by
  obtain ⟨p, hp, hpath⟩ : ∃ p, Policy.ofParams {} = .ok p ∧ p.scriptPathOnly = false :=
    ⟨_, rfl, rfl⟩
  obtain ⟨v, f, -, hvp, hvf, -, hva, -⟩ := Vault.exists_funded 1 p .null 990000
  obtain ⟨w, g, -, hwp, hwf, -, hwa, -⟩ :=
    Vault.exists_funded 2 { p with scriptPathOnly := true } .null 990000
  have htotal : Vault.total [v, w] = .ok 1980000 := by
    refine Vault.total_eq_ok_iff.mpr ⟨[f, g], Vault.fundings_eq_ok_iff.mpr
      (.cons hvf (.cons hwf .nil)), ?_⟩
    simp only [Vault.worth, List.map_cons, List.map_nil, List.sum_cons, List.sum_nil, hva, hwa]
    rfl
  obtain ⟨b, hb⟩ := build_isOk [] none htotal (show _ = Except.ok 1980000 by decide)
  obtain ⟨first, total, hmade⟩ := build_eq_ok hb
  have hfirst : v = first := Option.some.inj hmade.first_eq
  subst hfirst
  have hcompatible : b.isCompatible = true := by
    rw [hmade.isCompatible_iff]
    intro m hm
    rcases List.mem_cons.mp hm with rfl | hm
    · exact ⟨rfl, rfl⟩
    · rw [List.mem_singleton.mp hm, hwp, hvp]
      exact ⟨rfl, rfl⟩
  obtain ⟨first, hfirst, hmembers, -⟩ := sharesTrigger_iff hb hcompatible
  cases hfirst
  have hiff := (hmembers w (by simp)).2.2
  rw [hwp, hvp] at hiff
  have hkey : p.internalKey = p.recoveryKey := by
    unfold Policy.internalKey
    rw [hpath]
    rfl
  rw [hkey] at hiff
  exact ⟨p, v, w, b, hp, hvp, hwp, hb, hcompatible, hiff⟩

end Batch

end VaultCovenant
