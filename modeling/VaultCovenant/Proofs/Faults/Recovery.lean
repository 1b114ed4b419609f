import VaultCovenant.Proofs.Faults.Batch
import VaultCovenant.Proofs.Recovery.Check

/-!
# What one fault does to a recovery

A recovery that is built with one fault against the one that is built from the
same request without faults. Two faults lower the first or the last of the
outputs that pay sources, one adds an output, and two change the witnesses.

Results:
* `Recovery.Made.headD_placed`, `Recovery.Made.foldl_max_placed`: the outputs
  that are lowered are the first and the last of those that pay sources.
* `Recovery.Made.witness_alike`: where two recoveries of one request are the
  same, what their faults change in the witnesses coincides.
* `Recovery.fault_takes_effect`: the recovery with a fault differs.
-/

namespace VaultCovenant

theorem Authorization.signer_forged (auth : Authorization) {secret : SecretKey}
    (h : auth.signer .none = some secret) :
    auth.signer (.only .recoveryAuthWrongKey) = some forgingSecret := by
  cases auth with
  | anyone => cases h
  | keySignature _ | scriptSignature _ _ _ => rfl

namespace Recovery

variable {r : RecoveryRequest} {sources : List Source} {swept : List TxOut} {positions : List ℕ}
  {change : Option TxOut} {witnesses witnesses' : List (List Bytes)} {t t' : Recovery}
  {faults faults' : FaultSet} {fault : Fault}

/-! ## Outputs that pay sources -/

/-- The outputs of a recovery behind the change and before the anchor. -/
def payees (r : RecoveryRequest) (t : Recovery) : List TxOut :=
  let rest := t.tx.outputs.drop r.fee.toList.length
  if r.anchor then rest.dropLast else rest

/-- There is change exactly if there is a coin that pays. -/
theorem Made.length_change (h : Made r sources swept positions change witnesses t) :
    change.toList.length = r.fee.toList.length := by
  rcases optionMapM_eq_ok_iff.mp h.change_eq with ⟨hfee, rfl⟩ | ⟨_, _, hfee, -, rfl⟩ <;>
    rw [hfee] <;> rfl

theorem Made.payees_eq (h : Made r sources swept positions change witnesses t)
    (hfaults : r.faults = .none) : payees r t = swept := by
  unfold payees
  rw [(h.payouts_eq hfaults).2, List.append_assoc, ← h.length_change, List.drop_left]
  cases r.anchor
  · exact List.append_nil _
  · exact List.dropLast_concat

/-- Lowering an output that is not zero changes the outputs. -/
theorem lowerAt_ne {outputs : List TxOut} {k : ℕ} {out : TxOut} (hout : outputs[k]? = some out)
    (hne : out.value ≠ 0) : lowerAt k outputs ≠ outputs := by
  intro hsame
  have hget := congrArg (·[k]?) hsame
  simp only [lowerAt, List.getElem?_modify_eq, hout, Option.map_eq_map, Option.map_some,
    Option.some.injEq] at hget
  exact Sats.lowered_ne hne (congrArg TxOut.value hget)

/-- A bound that is taken is the maximum. -/
theorem foldl_max_eq {ns : List ℕ} {start n : ℕ} (hstart : start ≤ n) (hle : ∀ m ∈ ns, m ≤ n)
    (hn : n = start ∨ n ∈ ns) : ns.foldl max start = n := by
  induction ns generalizing start with
  | nil => exact (hn.resolve_right List.not_mem_nil).symm
  | cons m ns ih =>
    rw [List.forall_mem_cons] at hle
    rw [List.foldl_cons]
    refine ih (Nat.max_le.mpr ⟨hstart, hle.1⟩) hle.2 ?_
    rw [List.mem_cons] at hn
    have hm := hle.1
    rcases hn with rfl | rfl | hn
    · exact Or.inl (Nat.max_eq_left hm).symm
    · exact Or.inl (Nat.max_eq_right hstart).symm
    · exact Or.inr hn

namespace Made

/-- The first source is credited to the output right behind the change. -/
theorem headD_placed (h : Made r sources swept positions change witnesses t) :
    (placed change positions).headD 0 = change.toList.length := by
  have hscripts := h.scripts_swept
  rw [h.placed_eq]
  cases hsources : sources with
  | nil => exact absurd hsources h.sources_ne
  | cons s rest =>
    have hfirst : (scripts swept).idxOf s.recoverySpk = 0 := by
      rw [hscripts, hsources, List.map_cons, List.eraseDups_cons]
      exact List.idxOf_cons_self
    show Recovery.creditedAt change swept s = _
    rw [Recovery.creditedAt, hfirst, Nat.zero_add]

theorem swept_ne (h : Made r sources swept positions change witnesses t) : swept ≠ [] := by
  rintro rfl
  obtain ⟨s, hs⟩ := List.exists_mem_of_ne_nil _ h.sources_ne
  have hlt := h.creditedAt_lt hs
  simp at hlt
  omega

/-- Some source is credited to the last of the outputs that pay sources. -/
theorem last_mem_placed (h : Made r sources swept positions change witnesses t) :
    change.toList.length + (swept.length - 1) ∈ placed change positions := by
  have hmem : (swept.getLast h.swept_ne).scriptPubkey ∈ sources.map Source.recoverySpk := by
    rw [← List.mem_eraseDups, ← h.scripts_swept]
    exact List.mem_map_of_mem (List.getLast_mem h.swept_ne)
  obtain ⟨s, hs, hspk⟩ := List.mem_map.mp hmem
  rw [h.placed_eq]
  refine List.mem_map.mpr ⟨s, hs, (h.creditedAt_eq_iff ?_).mpr hspk⟩
  rw [← List.getLast?_eq_getElem?, List.getLast?_eq_some_getLast h.swept_ne]

/-- Its position is the greatest of a source. -/
theorem foldl_max_placed (h : Made r sources swept positions change witnesses t) :
    (placed change positions).foldl max 0 = change.toList.length + (swept.length - 1) := by
  refine foldl_max_eq (Nat.zero_le _) ?_ (Or.inr h.last_mem_placed)
  rw [h.placed_eq]
  intro n hn
  obtain ⟨s, hs, rfl⟩ := List.mem_map.mp hn
  have := h.creditedAt_lt hs
  omega

theorem getElem?_first (h : Made r sources swept positions change witnesses t) :
    (change.toList ++ swept)[(placed change positions).headD 0]? = swept.head? := by
  rw [h.headD_placed, List.getElem?_append_right (Nat.le_refl _), Nat.sub_self,
    List.head?_eq_getElem?]

theorem getElem?_last (h : Made r sources swept positions change witnesses t) :
    (change.toList ++ swept)[(placed change positions).foldl max 0]? = swept.getLast? := by
  rw [h.foldl_max_placed, List.getElem?_append_right (by omega), Nat.add_sub_cancel_left,
    List.getLast?_eq_getElem?]

end Made

/-! ## Witnesses -/

/-- Where two recoveries of one request are the same, both name the same
position for every source and, if it asks for a signature, sign alike. -/
theorem Made.witness_alike
    (h : Made { r with faults := faults } sources swept positions change witnesses t)
    (h' : Made { r with faults := faults' } sources swept positions change witnesses' t')
    (htx : t'.tx = t.tx) {i : ℕ} {s : Source} (hs : sources[i]? = some s) :
    faults'.contains .recoveryVoutOffByOne = faults.contains .recoveryVoutOffByOne ∧
      ∀ secret secret', s.authorization.signer faults = some secret →
        s.authorization.signer faults' = some secret' →
        signScriptPath t.tx i (prevouts r sources) (leafHash s.recoverScript) secret' =
          signScriptPath t.tx i (prevouts r sources) (leafHash s.recoverScript) secret := by
  obtain ⟨passing, hpasses, hinput⟩ := h.input_creditedAt hs
  obtain ⟨passing', hpasses', hinput'⟩ := h'.input_creditedAt hs
  rw [htx, hinput] at hinput'
  have hwitness := congrArg TxIn.witness (Option.some.inj hinput')
  simp only [witnessItems, List.cons_append, List.cons.injEq, List.append_cancel_right_eq]
    at hwitness
  obtain ⟨hvout, hpassing⟩ := hwitness
  constructor
  · have hskew := congrArg ScriptNumber.decode hvout
    rw [ScriptNumber.decode_encode, ScriptNumber.decode_encode, Int.add_right_inj] at hskew
    revert hskew
    cases faults.contains .recoveryVoutOffByOne <;>
      cases faults'.contains .recoveryVoutOffByOne <;> decide
  · intro secret secret' hsigner hsigner'
    rcases hpasses with ⟨hnone, -⟩ | ⟨_, signature, hsome, hsign, rfl⟩
    · cases hnone.symm.trans hsigner
    rcases hpasses' with ⟨hnone, -⟩ | ⟨_, signature', hsome', hsign', rfl⟩
    · cases hnone.symm.trans hsigner'
    cases hsome.symm.trans hsigner
    cases hsome'.symm.trans hsigner'
    obtain rfl : signature = signature' := (List.cons.inj hpassing).1
    rw [← h.signScriptPath_eq] at hsign
    rw [← h'.signScriptPath_eq, htx] at hsign'
    exact hsign'.trans hsign.symm

/-! ## Faults -/

/-- The forging key signs for every source that asks for a signature just as
its own key. -/
def SignsAlike (t : Recovery) (spent : List TxOut) (sources : List Source) : Prop :=
  ∀ (i : ℕ) (s : Source) (secret : SecretKey), sources[i]? = some s →
    s.authorization.signer .none = some secret →
    signScriptPath t.tx i spent (leafHash s.recoverScript) Authorization.forgingSecret =
      signScriptPath t.tx i spent (leafHash s.recoverScript) secret

/-- What a fault needs: an output to be lowered that is not zero, or an
authorization to be forged. -/
def Admits (r : RecoveryRequest) (t : Recovery) (sources : List Source) : Fault → Prop
  | .recoveryOutputTooLow => ∃ out, (payees r t).head? = some out ∧ out.value ≠ 0
  | .recoveryLastOutputTooLow => ∃ out, (payees r t).getLast? = some out ∧ out.value ≠ 0
  | .recoveryAuthWrongKey => ∃ s ∈ sources, s.authorization.isRequired = true
  | _ => True

/-- What has to coincide for a fault to leave a recovery as it is. -/
def Coincidence (t : Recovery) (spent : List TxOut) (sources : List Source) : Fault → Prop
  | .recoveryAuthWrongKey => t.SignsAlike spent sources
  | _ => False

/-- Faults do not keep a recovery from being built. -/
theorem build_faults_isOk (faults' : FaultSet) (h : build { r with faults := faults } = .ok t) :
    ∃ t', build { r with faults := faults' } = .ok t' := by
  obtain ⟨sources, swept, positions, change, witnesses, hmade⟩ := build_eq_ok h
  exact build_isOk (r := { r with faults := faults' }) hmade.sources_eq hmade.sources_ne
    hmade.swept_eq hmade.change_eq

/-- A recovery with one fault differs from the one without. -/
theorem fault_takes_effect (hstage : fault.stage = .recovery)
    (h : build { r with faults := .none } = .ok t)
    (h' : build { r with faults := .only fault } = .ok t')
    (hsources : distinctSources r = .ok sources)
    (hadmits : Admits r t sources fault) :
    t'.tx ≠ t.tx ∨ t.Coincidence (prevouts r sources) sources fault := by
  obtain ⟨_, swept, positions, change, witnesses, hmade⟩ := build_eq_ok h
  obtain ⟨_, swept', positions', change', witnesses', hmade'⟩ := build_eq_ok h'
  cases hsources.symm.trans hmade.sources_eq
  cases hsources.symm.trans hmade'.sources_eq
  cases hmade.swept_eq.symm.trans hmade'.swept_eq
  obtain rfl : change = change' := Except.ok.inj (hmade.change_eq.symm.trans hmade'.change_eq)
  refine or_iff_not_imp_left.mpr fun htx => ?_
  rw [not_ne_iff] at htx
  have houtputs : payouts (.only fault) change swept positions = change.toList ++ swept := by
    have hsame := congrArg Transaction.outputs htx
    rw [hmade'.outputs_eq, hmade.outputs_eq] at hsame
    exact List.append_cancel_right hsame
  have hpayees : payees r t = swept := hmade.payees_eq rfl
  cases fault with
  | recoveryOutputTooLow =>
    obtain ⟨out, hout, hne⟩ := hadmits
    rw [hpayees, ← hmade.getElem?_first] at hout
    exact absurd houtputs (lowerAt_ne hout hne)
  | recoveryLastOutputTooLow =>
    obtain ⟨out, hout, hne⟩ := hadmits
    rw [hpayees, ← hmade.getElem?_last] at hout
    exact absurd houtputs (lowerAt_ne hout hne)
  | recoveryExtraOutput =>
    have hextra : change.toList ++ swept ++ [⟨0, Script.anyone⟩] = change.toList ++ swept :=
      houtputs
    exact absurd (List.append_right_eq_self.mp hextra) (List.cons_ne_nil _ _)
  | recoveryVoutOffByOne =>
    obtain ⟨s, hs⟩ := List.exists_mem_of_ne_nil _ hmade.sources_ne
    obtain ⟨i, hi⟩ := List.mem_iff_getElem?.mp hs
    exact absurd (hmade.witness_alike hmade' htx hi).1 (by decide)
  | recoveryAuthWrongKey =>
    intro i s secret hi hsigner
    exact (hmade.witness_alike hmade' htx hi).2 secret _ hsigner
      (s.authorization.signer_forged hsigner)
  | _ => cases hstage

end Recovery

end VaultCovenant
