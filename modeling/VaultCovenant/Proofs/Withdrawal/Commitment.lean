import VaultCovenant.Proofs.Leaves
import VaultCovenant.Proofs.Transaction.Template
import VaultCovenant.Proofs.Withdrawal

/-!
# The commitment to a withdrawal

A batch records the template hash of its withdrawal before the outpoint and
the witness are there. The withdrawal reproduces it, and a batch whose record
or whose template was changed afterwards is refused.

Results:
* `sameTemplate_completion`: completing a template changes nothing that the
  template hash covers.
* `build_of_ne_nil`, `build_of_nil`: what the check of a withdrawal decides,
  for any batch.
* `mismatch_of_changed`: a changed record or template no longer fit together,
  unless the record is the hash of the changed template or two of the strings
  hashed collide.
* `build_reproduces_commitment`: the withdrawal of a batch is its template
  completed, and of a changed batch it is refused.
-/

namespace VaultCovenant

/-! ## The withdraw leaf and the template of a batch -/

namespace Batch.Made

variable {members : List Vault} {targets : List TxOut} {revault : Option Sats}
  {shaping : FaultSet} {first : Vault} {total : Sats} {b : Batch}

/-- The recorded hash is pushed right before the last opcode. -/
theorem bytes_withdrawScript (h : Made members targets revault shaping first total b) :
    b.withdrawScript.bytes =
      (Script.ofInstructions [.number b.spendDelay.toInt, .op Opcode.checkSequenceVerify,
        .op Opcode.drop]).bytes ++ 0x20 :: b.withdrawalHash.bytes ++ [withdrawOpcode shaping] := by
  rw [h.withdrawScript_eq, withdrawScriptUnder_eq]
  exact bytes_withdrawInstructions _ _ _

theorem inputs_template (h : Made members targets revault shaping first total b) :
    b.template.inputs =
      [⟨Outpoint.null, Script.empty, templateSequence b.spendDelay, []⟩] := by
  rw [h.template_eq]
  rfl

theorem outputs_template (h : Made members targets revault shaping first total b) :
    b.template.outputs = targets := by
  rw [h.template_eq]
  rfl

theorem sized_template (h : Made members targets revault shaping first total b)
    (htargets : ∀ o ∈ targets, o.scriptPubkey.Sized) : b.template.Sized where
  inputs := by
    intro i hi
    rw [h.inputs_template, List.mem_singleton] at hi
    rw [hi]
    show ([] : Bytes).length < 2 ^ 64
    simp
  outputs := by
    rw [h.outputs_template]
    exact htargets

end Batch.Made

namespace Withdrawal

variable {members : List Vault} {targets : List TxOut} {revault : Option Sats}
  {shaping faults : FaultSet} {first : Vault} {total : Sats} {b : Batch} {o : Outpoint}
  {c : ControlBlock} {template : Transaction} {hash : Digest}

/-! ## Completing a template -/

/-- An input that spends a given outpoint through the withdraw leaf, and is
as it was otherwise. -/
def spendThrough (o : Outpoint) (b : Batch) (c : ControlBlock) (i : TxIn) : TxIn :=
  { i with previousOutput := o, witness := [b.withdrawScript.bytes, c.bytes] }

/-- The template of a batch with the outpoint and the witness of its first
input set. -/
def completion (o : Outpoint) (b : Batch) (c : ControlBlock) : Transaction :=
  { b.template with inputs := modifyFirst (spendThrough o b c) b.template.inputs }

/-- What a change of the first member keeps, it keeps in the list. -/
theorem map_modifyFirst {α β : Type} (f : α → α) (g : α → β) (h : ∀ a, g (f a) = g a)
    (as : List α) : (modifyFirst f as).map g = as.map g := by
  cases as with
  | nil => rfl
  | cons a rest =>
    rw [modifyFirst, List.map_cons, List.map_cons, h]

theorem sameTemplate_completion (o : Outpoint) (b : Batch) (c : ControlBlock) :
    (completion o b c).SameTemplate b.template where
  version := rfl
  lockTime := rfl
  scriptSigs := map_modifyFirst (spendThrough o b c) TxIn.scriptSig (fun _ => rfl) _
  sequences := map_modifyFirst (spendThrough o b c) TxIn.sequence (fun _ => rfl) _
  outputs := rfl

theorem complete_of_ne_nil (hc : b.tree.controlBlock withdrawLeaf = .ok c)
    (hinputs : b.template.inputs ≠ []) : complete o b = .ok (completion o b c) := by
  unfold complete completion
  rw [hc]
  cases hi : b.template.inputs with
  | nil => exact absurd hi hinputs
  | cons i rest => rfl

theorem build_of_nil (faults : FaultSet) (hc : b.tree.controlBlock withdrawLeaf = .ok c)
    (hinputs : b.template.inputs = []) :
    build o b faults = .error (.transaction "withdrawal template has no input") := by
  have hcomplete : complete o b = .error (.transaction "withdrawal template has no input") := by
    unfold complete
    rw [hc, hinputs]
    rfl
  unfold build
  rw [hcomplete]
  rfl

/-- A template with an input is completed and passes the check exactly when
the record is its hash. -/
theorem build_of_ne_nil (faults : FaultSet) (hc : b.tree.controlBlock withdrawLeaf = .ok c)
    (hinputs : b.template.inputs ≠ []) :
    build o b faults =
      if b.template.templateHash 0 = b.withdrawalHash then
        .ok (applyFaults faults (completion o b c))
      else .error (.templateHashMismatch b.withdrawalHash.toHex
        (b.template.templateHash 0).toHex) := by
  unfold build
  rw [complete_of_ne_nil hc hinputs,
    ← Transaction.templateHash_congr (sameTemplate_completion o b c) 0]
  rfl

/-! ## Changes after the commitment -/

/-- A changed record or template no longer fit together, unless the record was
overwritten with the hash of the template or SHA-256 collides. -/
theorem mismatch_of_changed (h : Batch.Made members targets revault shaping first total b)
    (htargets : ∀ o ∈ targets, o.scriptPubkey.Sized) (htemplate : template.Sized)
    (hchanged : hash ≠ b.withdrawalHash ∨ ¬ template.SameTemplate b.template) :
    template.templateHash 0 ≠ hash ∨
      (hash ≠ b.withdrawalHash ∧ hash = template.templateHash 0) ∨
      Collision (template.templateMessages 0) (b.template.templateMessages 0) := by
  by_cases hhash : template.templateHash 0 = hash
  · right
    by_cases hrecord : hash = b.withdrawalHash
    · right
      have hsame : ¬ template.SameTemplate b.template :=
        hchanged.resolve_left (not_not_intro hrecord)
      have hequal : template.templateHash 0 = b.template.templateHash 0 := by
        rw [hhash, hrecord, h.hash_eq]
      rcases Transaction.templateHash_binds htemplate (h.sized_template htargets) hequal with
        ⟨-, hsame'⟩ | hcollision
      · exact absurd hsame' hsame
      · exact hcollision
    · exact Or.inl ⟨hrecord, hhash.symm⟩
  · exact Or.inl hhash

/-! ## The withdrawal of a batch -/

/-- The withdrawal of a batch is its template with only the outpoint and the
witness of its one input changed, it has the recorded hash, and the leaf in
its witness pushes that hash right before the last opcode. After a change of
the record or the template the withdrawal is refused, unless the record is the
hash of the changed template or two of the strings hashed collide. -/
theorem build_reproduces_commitment
    (hbuild : Batch.build members targets revault shaping = .ok b) (o : Outpoint) :
    (∃ i c tx, b.template.inputs = [i] ∧ b.tree.controlBlock withdrawLeaf = .ok c ∧
      build o b .none = .ok tx ∧
      tx = { b.template with
        inputs := [{ i with
          previousOutput := o
          witness := [b.withdrawScript.bytes, c.bytes] }] } ∧
      tx.templateHash 0 = b.withdrawalHash ∧
      b.withdrawScript.bytes =
        (Script.ofInstructions [.number b.spendDelay.toInt, .op Opcode.checkSequenceVerify,
          .op Opcode.drop]).bytes
        ++ 0x20 :: b.withdrawalHash.bytes ++ [Batch.withdrawOpcode shaping]) ∧
    ∀ (template : Transaction) (hash : Digest) (faults : FaultSet),
      (template.inputs = [] →
        build o { b with template := template, withdrawalHash := hash } faults =
          .error (.transaction "withdrawal template has no input")) ∧
      (template.inputs ≠ [] → hash = template.templateHash 0 →
        ∃ tx, build o { b with template := template, withdrawalHash := hash } faults = .ok tx) ∧
      (template.inputs ≠ [] → template.Sized → (∀ t ∈ targets, t.scriptPubkey.Sized) →
        hash ≠ b.withdrawalHash ∨ ¬ template.SameTemplate b.template →
        build o { b with template := template, withdrawalHash := hash } faults =
            .error (.templateHashMismatch hash.toHex (template.templateHash 0).toHex) ∨
          (hash ≠ b.withdrawalHash ∧ hash = template.templateHash 0) ∨
          Collision (template.templateMessages 0) (b.template.templateMessages 0)) := by
  obtain ⟨first, total, hmade⟩ := Batch.build_eq_ok hbuild
  obtain ⟨c, hc⟩ := hmade.controlBlock_withdraw_isOk
  constructor
  · exact ⟨_, c, _, hmade.inputs_template, hc, build_eq hmade hc, rfl, templateHash_complete hmade,
      hmade.bytes_withdrawScript⟩
  · intro template hash faults
    let changed : Batch := { b with template := template, withdrawalHash := hash }
    have hnil := build_of_nil (b := changed) (o := o) faults hc
    have hcheck := build_of_ne_nil (b := changed) (o := o) faults hc
    refine ⟨hnil, ?_, ?_⟩
    · intro hinputs hhash
      exact ⟨_, (hcheck hinputs).trans (if_pos hhash.symm)⟩
    · intro hinputs htemplate htargets hchanged
      rcases mismatch_of_changed hmade htargets htemplate hchanged with hmismatch | hother
      · exact Or.inl ((hcheck hinputs).trans (if_neg hmismatch))
      · exact Or.inr hother

/-- A batch of one vault that withdraws to one output anyone may spend. When
the version of its template is changed to one, the withdrawal is refused with
both hashes unless SHA-256 collides, and so it is when the template has lost
its input. -/
theorem build_reproduces_commitment_or_refuses :
    ∃ (p : Policy) (v : Vault) (b : Batch), Policy.ofParams {} = .ok p ∧ v.policy = p ∧
      Batch.build [v] [⟨980000, Script.anyone⟩] none .none = .ok b ∧
      (∃ tx, build .null b .none = .ok tx ∧ tx.templateHash 0 = b.withdrawalHash) ∧
      (build .null { b with template := { b.template with version := 1 } } .none =
          .error (.templateHashMismatch b.withdrawalHash.toHex
            (({ b.template with version := 1 } : Transaction).templateHash 0).toHex) ∨
        Collision (({ b.template with version := 1 } : Transaction).templateMessages 0)
          (b.template.templateMessages 0)) ∧
      build .null { b with template := { b.template with inputs := [] } } .none =
        .error (.transaction "withdrawal template has no input") := by
  obtain ⟨p, hp⟩ : ∃ p, Policy.ofParams {} = .ok p := ⟨_, rfl⟩
  obtain ⟨v, b, hvp, -, hb⟩ := Batch.exists_build_singleton p [⟨980000, Script.anyone⟩]
    (show (none : Option Sats).getD 0 ≤ 990000 by decide)
  obtain ⟨first, total, hmade⟩ := Batch.build_eq_ok hb
  obtain ⟨⟨i, c, tx, hinputs, -, hbuild, -, hhash, -⟩, hchanged⟩ :=
    build_reproduces_commitment hb .null
  have htargets : ∀ t ∈ [(⟨980000, Script.anyone⟩ : TxOut)], t.scriptPubkey.Sized := by
    intro t ht
    rw [List.mem_singleton.mp ht]
    decide
  have hversion : ¬ ({ b.template with version := 1 } : Transaction).SameTemplate b.template := by
    intro hsame
    have htwo : b.template.version = 2 := by
      rw [hmade.template_eq]
      rfl
    have hone : (1 : Int32) = b.template.version := hsame.version
    rw [htwo] at hone
    exact absurd hone (by decide)
  have hsized : ({ b.template with version := 1 } : Transaction).Sized :=
    ⟨(hmade.sized_template htargets).inputs, (hmade.sized_template htargets).outputs⟩
  refine ⟨p, v, b, hp, hvp, hb, ⟨tx, hbuild, hhash⟩, ?_, ?_⟩
  · obtain ⟨-, -, hrefused⟩ := hchanged { b.template with version := 1 } b.withdrawalHash .none
    have hne : b.template.inputs ≠ [] := by
      rw [hinputs]
      exact List.cons_ne_nil _ _
    rcases hrefused hne hsized htargets (Or.inr hversion) with h | ⟨h, -⟩ | h
    · exact Or.inl h
    · exact absurd rfl h
    · exact Or.inr h
  · exact (hchanged { b.template with inputs := [] } b.withdrawalHash .none).1 rfl

end Withdrawal

end VaultCovenant
