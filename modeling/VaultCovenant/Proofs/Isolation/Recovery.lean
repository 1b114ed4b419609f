import VaultCovenant.Proofs.Faults.Recovery

/-!
# Faults of a recovery stay apart

A recovery under any set of faults against the same recovery without. The
outputs that are lowered pay sources, an output that is added stands behind
them, and the witnesses keep their form. Signatures are made last, over what is
returned.

Results:
* `Recovery.Isolated`: every part of a recovery with the faults that change it.
* `Recovery.applyFaults_eq`, `Recovery.getElem?_loweredUnder`: each output under
  faults, and what stands behind them.
* `Recovery.sweeping_isolated`: a recovery under faults is isolated from the one
  without, and only the faults of its stage have an effect.
-/

namespace VaultCovenant

/-- The forging key takes the place of a key that would sign. -/
theorem Authorization.signer_eq (faults : FaultSet) (auth : Authorization) :
    auth.signer faults = (auth.signer .none).map fun secret =>
      if faults.contains .recoveryAuthWrongKey then forgingSecret else secret := by
  cases auth <;> rfl

theorem Authorization.isRequired_eq (auth : Authorization) :
    auth.isRequired = (auth.signer .none).isSome := by
  cases auth <;> rfl

namespace Recovery

/-! ## The parts of a recovery and their faults -/

/-- The outputs of a recovery before its anchor, if it has one. -/
def beforeAnchor (anchor : Bool) (t : Recovery) : List TxOut :=
  if anchor then t.tx.outputs.dropLast else t.tx.outputs

/-- What the witness of a source shows for its authorization under faults
against what it shows without: nothing either way where nothing is asked for.
Else the signature is made of the transaction as it is, with another key under
one fault, and what stands above it is the same. -/
def PassingIsolated (faults : FaultSet) (spent : List TxOut) (clean tx : Transaction) (i : ℕ)
    (s : Source) (passing passing' : List Bytes) : Prop :=
  (s.authorization.isRequired = false ∧ passing = [] ∧ passing' = []) ∨
  ∃ (secret : SecretKey) (signature signature' : Bytes),
    s.authorization.isRequired = true ∧ s.authorization.signer .none = some secret ∧
    passing = signature :: s.authorization.stack ∧
    passing' = signature' :: s.authorization.stack ∧
    signScriptPath clean i spent (leafHash s.recoverScript) secret = .ok signature ∧
    signScriptPath tx i spent (leafHash s.recoverScript)
      (if faults.contains .recoveryAuthWrongKey then Authorization.forgingSecret else secret) =
        .ok signature' ∧
    (tx.outputs = clean.outputs → faults.contains .recoveryAuthWrongKey = false →
      signature' = signature)

/-- The input of a source under faults against the same without. One fault makes
the witness name the output behind the one at `position`. -/
def SourceIsolated (faults : FaultSet) (spent : List TxOut) (clean tx : Transaction) (i : ℕ)
    (s : Source) (position : ℕ) : Prop :=
  ∃ passing passing' : List Bytes,
    clean.inputs[i]? = some { TxIn.spending s.outpoint with
      witness := ScriptNumber.encode position :: passing ++
        [s.recoverScript.bytes, s.control.bytes] } ∧
    tx.inputs[i]? = some { TxIn.spending s.outpoint with
      witness := ScriptNumber.encode (position +
          if faults.contains .recoveryVoutOffByOne then 1 else 0) :: passing' ++
        [s.recoverScript.bytes, s.control.bytes] } ∧
    PassingIsolated faults spent clean tx i s passing passing'

/-- A recovery of a request against the one of the same request without faults.
The sources are credited to the outputs at `positions`. -/
structure Isolated (r : RecoveryRequest) (sources : List Source) (positions : List ℕ)
    (clean t : Recovery) : Prop where
  version_eq : t.tx.version = clean.tx.version
  lockTime_eq : t.tx.lockTime = clean.tx.lockTime
  bareInputs_eq : t.tx.bareInputs = clean.tx.bareInputs
  feeChange_eq : t.feeChange = clean.feeChange
  /-- Both report the same positions, which are those of the recovery outputs
  behind the change. -/
  credited_eq : t.credited = clean.credited ∧
    clean.credited = (sources.zip positions).flatMap fun (s, position) =>
      s.vaultIds.map fun id => (id, UInt32.ofNat position)
  length_positions : positions.length = sources.length
  position : ∀ (i : ℕ) (s : Source), sources[i]? = some s → ∃ position out,
    positions[i]? = some position ∧ r.fee.toList.length ≤ position ∧
    (beforeAnchor r.anchor clean)[position]? = some out ∧ out.scriptPubkey = s.recoverySpk
  head_positions : positions.head? = some r.fee.toList.length
  last_positions : ∃ last ∈ positions, last + 1 = (beforeAnchor r.anchor clean).length
  /-- One fault lowers the output of the first source, one the last recovery
  output. No fault changes a script. -/
  output : ∀ (k : ℕ) (out : TxOut), (beforeAnchor r.anchor clean)[k]? = some out → ∃ value,
    (beforeAnchor r.anchor t)[k]? = some { out with value } ∧ value.toNat = out.value.toNat
      - (r.faults.contains .recoveryOutputTooLow && k == r.fee.toList.length).toNat
      - (r.faults.contains .recoveryLastOutputTooLow &&
          k + 1 == (beforeAnchor r.anchor clean).length).toNat
  /-- One fault adds an output behind them, which the anchor follows. -/
  extra : (beforeAnchor r.anchor t).drop (beforeAnchor r.anchor clean).length =
    if r.faults.contains .recoveryExtraOutput then [⟨0, Script.anyone⟩] else []
  outputs_eq : clean.tx.outputs =
      beforeAnchor r.anchor clean ++ (if r.anchor then [⟨0, Script.anchor⟩] else []) ∧
    t.tx.outputs = beforeAnchor r.anchor t ++ if r.anchor then [⟨0, Script.anchor⟩] else []
  anchorVout_eq : clean.anchorVout =
      (if r.anchor then some (UInt32.ofNat (beforeAnchor r.anchor clean).length) else none) ∧
    t.anchorVout = clean.anchorVout.map fun vout =>
      if r.faults.contains .recoveryExtraOutput then vout + 1 else vout
  source : ∀ (i : ℕ) (s : Source) (position : ℕ), sources[i]? = some s →
    positions[i]? = some position →
    SourceIsolated r.faults (prevouts r sources) clean.tx t.tx i s position
  /-- Behind the sources' inputs nothing is changed, witnesses included. -/
  feeInput_eq : t.tx.inputs.drop sources.length = clean.tx.inputs.drop sources.length

/-! ## Outputs under faults -/

variable {faults : FaultSet} {positions : List ℕ} {outputs : List TxOut}

theorem length_lowerAt (position : ℕ) (outputs : List TxOut) :
    (lowerAt position outputs).length = outputs.length :=
  List.length_modify _ _ _

/-- A fault that lowers one output leaves the others alone. -/
theorem getElem?_lowerAt (position : ℕ) (faulty : Bool) {k : ℕ} {out : TxOut}
    (h : outputs[k]? = some out) : ∃ value,
    (if faulty then lowerAt position outputs else outputs)[k]? = some { out with value } ∧
      value.toNat = out.value.toNat - (faulty && k == position).toNat := by
  cases faulty with
  | false => exact ⟨out.value, h, rfl⟩
  | true =>
    rw [if_pos rfl, lowerAt, List.getElem?_modify, h]
    by_cases hk : position = k
    · exact ⟨out.value.lowered, by simp [hk], by simp [hk, Sats.toNat_lowered]⟩
    · exact ⟨out.value, by simp [hk], by simp [beq_false_of_ne (Ne.symm hk)]⟩

/-- The outputs with the first and the last that pay sources lowered, as two
faults ask. -/
def loweredUnder (faults : FaultSet) (positions : List ℕ) (outputs : List TxOut) : List TxOut :=
  let outputs :=
    if faults.contains .recoveryOutputTooLow then lowerAt (positions.headD 0) outputs else outputs
  if faults.contains .recoveryLastOutputTooLow then lowerAt (positions.foldl max 0) outputs
  else outputs

theorem applyFaults_eq (faults : FaultSet) (positions : List ℕ) (outputs : List TxOut) :
    applyFaults faults positions outputs = loweredUnder faults positions outputs ++
      if faults.contains .recoveryExtraOutput then [⟨0, Script.anyone⟩] else [] := by
  unfold applyFaults loweredUnder
  cases faults.contains .recoveryExtraOutput
  · exact (List.append_nil _).symm
  · rfl

theorem length_loweredUnder (faults : FaultSet) (positions : List ℕ) (outputs : List TxOut) :
    (loweredUnder faults positions outputs).length = outputs.length := by
  unfold loweredUnder
  dsimp only
  split <;> split <;> simp only [length_lowerAt]

theorem getElem?_loweredUnder (faults : FaultSet) (positions : List ℕ) {k : ℕ} {out : TxOut}
    (h : outputs[k]? = some out) : ∃ value,
    (loweredUnder faults positions outputs)[k]? = some { out with value } ∧
      value.toNat = out.value.toNat
        - (faults.contains .recoveryOutputTooLow && k == positions.headD 0).toNat
        - (faults.contains .recoveryLastOutputTooLow && k == positions.foldl max 0).toNat := by
  obtain ⟨between, hget, hbetween⟩ :=
    getElem?_lowerAt (positions.headD 0) (faults.contains .recoveryOutputTooLow) h
  obtain ⟨value, hget, hvalue⟩ :=
    getElem?_lowerAt (positions.foldl max 0) (faults.contains .recoveryLastOutputTooLow) hget
  exact ⟨value, hget, hvalue.trans (by rw [hbetween])⟩

/-! ## With and without faults -/

section

variable {r : RecoveryRequest} {sources : List Source} {swept : List TxOut}
  {change : Option TxOut} {witnesses witnesses' : List (List Bytes)} {clean t : Recovery}

theorem Made.beforeAnchor_eq (h : Made r sources swept positions change witnesses t) :
    beforeAnchor r.anchor t = payouts r.faults change swept positions := by
  unfold beforeAnchor
  rw [h.outputs_eq]
  cases r.anchor
  · exact List.append_nil _
  · exact List.dropLast_concat

theorem Made.outputs_beforeAnchor (h : Made r sources swept positions change witnesses t) :
    t.tx.outputs = beforeAnchor r.anchor t ++ if r.anchor then [⟨0, Script.anchor⟩] else [] := by
  rw [h.beforeAnchor_eq]
  exact h.outputs_eq

theorem Made.anchorVout_eq (h : Made r sources swept positions change witnesses t) :
    t.anchorVout =
      if r.anchor then some (UInt32.ofNat (beforeAnchor r.anchor t).length) else none := by
  rw [h.beforeAnchor_eq, h.eq]
  rfl

theorem Made.credited_eq (h : Made r sources swept positions change witnesses t) :
    t.credited = (sources.zip (placed change positions)).flatMap fun (s, position) =>
      s.vaultIds.map fun id => (id, UInt32.ofNat position) := by
  rw [h.eq]
  rfl

theorem Made.bareInputs_eq (h : Made r sources swept positions change witnesses t) :
    t.tx.bareInputs =
      (unsigned r sources (payouts r.faults change swept positions)).bareInputs := by
  rw [h.eq]
  exact Transaction.bareInputs_withWitnesses _ _

/-- Behind the sources' inputs stands that of the coin that pays. -/
theorem Made.drop_inputs (h : Made r sources swept positions change witnesses t) :
    t.tx.inputs.drop sources.length = (r.fee.map Coin.input).toList := by
  rw [h.inputs_eq, List.drop_left']
  rw [Transaction.length_attach, List.length_map]

theorem Made.passingIsolated
    (h : Made { r with faults := .none } sources swept positions change witnesses clean)
    (h' : Made r sources swept positions change witnesses' t) {i : ℕ} {s : Source}
    {passing passing' : List Bytes}
    (hpasses : Passes (unsigned r sources (payouts .none change swept positions))
      (prevouts r sources) .none i s passing)
    (hpasses' : Passes (unsigned r sources (payouts r.faults change swept positions))
      (prevouts r sources) r.faults i s passing') :
    PassingIsolated r.faults (prevouts r sources) clean.tx t.tx i s passing passing' := by
  rcases hpasses with ⟨hnone, rfl⟩ | ⟨secret, signature, hsigner, hsign, rfl⟩
  · refine Or.inl ⟨by rw [Authorization.isRequired_eq, hnone]; rfl, rfl, ?_⟩
    rcases hpasses' with ⟨-, rfl⟩ | ⟨_, _, hsome, -, -⟩
    · rfl
    · rw [Authorization.signer_eq, hnone] at hsome
      cases hsome
  · have hsigner' := Authorization.signer_eq r.faults s.authorization
    rw [hsigner, Option.map_some] at hsigner'
    rcases hpasses' with ⟨hnone, -⟩ | ⟨_, signature', hsome, hsign', rfl⟩
    · cases hnone.symm.trans hsigner'
    · cases hsome.symm.trans hsigner'
      rw [← h'.signScriptPath_eq] at hsign'
      refine Or.inr ⟨secret, signature, signature',
        by rw [Authorization.isRequired_eq, hsigner]; rfl, hsigner, rfl, rfl,
        (h.signScriptPath_eq _ _ _ _).trans hsign, hsign', fun houtputs hkey => ?_⟩
      -- the same outputs make the same transaction to be signed
      have hpayouts : payouts r.faults change swept positions =
          payouts .none change swept positions := by
        rw [h'.outputs_eq, h.outputs_eq] at houtputs
        exact List.append_cancel_right houtputs
      rw [h'.signScriptPath_eq, hkey, if_neg Bool.false_ne_true, hpayouts, hsign] at hsign'
      exact (Except.ok.inj hsign').symm

theorem Made.sourceIsolated
    (h : Made { r with faults := .none } sources swept positions change witnesses clean)
    (h' : Made r sources swept positions change witnesses' t) {i : ℕ} {s : Source}
    (hs : sources[i]? = some s) :
    SourceIsolated r.faults (prevouts r sources) clean.tx t.tx i s
      (Recovery.creditedAt change swept s) := by
  obtain ⟨passing, hpasses, hinput⟩ := h.input_creditedAt hs
  obtain ⟨passing', hpasses', hinput'⟩ := h'.input_creditedAt hs
  refine ⟨passing, passing', ?_, hinput', h.passingIsolated h' hpasses hpasses'⟩
  rw [hinput]
  simp [witnessItems, FaultSet.none]

/-- A source is credited to an output behind the change that pays its script. -/
theorem Made.placed_paying (h : Made r sources swept positions change witnesses t) {i : ℕ}
    {s : Source} (hs : sources[i]? = some s) :
    ∃ out, (placed change positions)[i]? = some (Recovery.creditedAt change swept s) ∧
      r.fee.toList.length ≤ Recovery.creditedAt change swept s ∧
      (change.toList ++ swept)[Recovery.creditedAt change swept s]? = some out ∧
      out.scriptPubkey = s.recoverySpk := by
  have hmem : s.recoverySpk ∈ scripts swept := by
    rw [h.scripts_swept, List.mem_eraseDups]
    exact List.mem_map_of_mem (List.mem_of_getElem? hs)
  obtain ⟨out, hout, hspk⟩ := getElem?_idxOf_scripts hmem
  refine ⟨out, by rw [h.placed_eq, List.getElem?_map, hs]; rfl, ?_, ?_, hspk⟩
  · rw [← h.length_change]
    exact Nat.le_add_left _ _
  · rw [Recovery.creditedAt, List.getElem?_append_right (Nat.le_add_left _ _), Nat.add_sub_cancel,
      hout]

/-- The first source is credited right behind the change. -/
theorem Made.head?_placed (h : Made r sources swept positions change witnesses t) :
    (placed change positions).head? = some r.fee.toList.length := by
  obtain ⟨s, hs⟩ := List.exists_mem_of_ne_nil _ h.sources_ne
  have hne : placed change positions ≠ [] := by
    rw [h.placed_eq]
    exact List.ne_nil_of_mem (List.mem_map_of_mem hs)
  rw [← h.length_change, ← h.headD_placed]
  cases hplaced : placed change positions with
  | nil => exact absurd hplaced hne
  | cons position rest => rfl

theorem isolated (hclean : build { r with faults := .none } = .ok clean) (h : build r = .ok t) :
    ∃ sources positions, distinctSources r = .ok sources ∧
      Isolated r sources positions clean t := by
  obtain ⟨sources, swept, positions, change, witnesses, hmade⟩ := build_eq_ok hclean
  obtain ⟨sources', swept', positions', change', witnesses', hmade'⟩ := build_eq_ok h
  obtain rfl : sources = sources' := Except.ok.inj (hmade.sources_eq.symm.trans hmade'.sources_eq)
  cases hmade.swept_eq.symm.trans hmade'.swept_eq
  obtain rfl : change = change' := Except.ok.inj (hmade.change_eq.symm.trans hmade'.change_eq)
  have hbefore : beforeAnchor r.anchor clean = change.toList ++ swept :=
    hmade.beforeAnchor_eq.trans (hmade.payouts_eq rfl).1
  have hbefore' : beforeAnchor r.anchor t =
      loweredUnder r.faults (placed change positions) (change.toList ++ swept) ++
        if r.faults.contains .recoveryExtraOutput then [⟨0, Script.anyone⟩] else [] :=
    hmade'.beforeAnchor_eq.trans (applyFaults_eq _ _ _)
  have hlength := length_loweredUnder r.faults (placed change positions) (change.toList ++ swept)
  have hpos : 0 < swept.length := List.length_pos_iff.mpr hmade.swept_ne
  refine ⟨sources, placed change positions, hmade'.sources_eq, ?_⟩
  exact {
    version_eq := by
      rw [hmade.eq, hmade'.eq]
      rfl
    lockTime_eq := by
      rw [hmade.eq, hmade'.eq]
      rfl
    bareInputs_eq := by
      rw [hmade.bareInputs_eq, hmade'.bareInputs_eq]
      rfl
    feeChange_eq := hmade'.feeChange_eq.trans hmade.feeChange_eq.symm
    credited_eq := ⟨hmade'.credited_eq.trans hmade.credited_eq.symm, hmade.credited_eq⟩
    length_positions := by
      rw [hmade.placed_eq, List.length_map]
    position := by
      intro i s hs
      obtain ⟨out, hposition, hle, hout, hspk⟩ := hmade'.placed_paying hs
      rw [hbefore]
      exact ⟨_, out, hposition, hle, hout, hspk⟩
    head_positions := hmade'.head?_placed
    last_positions := by
      refine ⟨_, hmade.last_mem_placed, ?_⟩
      rw [hbefore, List.length_append]
      omega
    output := by
      intro k out hout
      rw [hbefore] at hout
      obtain ⟨value, hget, hvalue⟩ :=
        getElem?_loweredUnder r.faults (placed change positions) hout
      refine ⟨value, ?_, ?_⟩
      · rw [hbefore', List.getElem?_append_left (List.getElem?_eq_some_iff.mp hget).1, hget]
      · have hlast : (k == r.fee.toList.length + (swept.length - 1)) =
            (k + 1 == (beforeAnchor r.anchor clean).length) := by
          rw [hbefore, List.length_append, hmade'.length_change, Bool.eq_iff_iff, beq_iff_eq,
            beq_iff_eq]
          omega
        rw [hvalue, hmade'.headD_placed, hmade'.foldl_max_placed, hmade'.length_change, hlast]
    extra := by
      rw [hbefore, hbefore', List.drop_left' hlength]
    outputs_eq := ⟨hmade.outputs_beforeAnchor, hmade'.outputs_beforeAnchor⟩
    anchorVout_eq := by
      have hvout : clean.anchorVout =
          if r.anchor then some (UInt32.ofNat (beforeAnchor r.anchor clean).length) else none :=
        hmade.anchorVout_eq
      refine ⟨hvout, ?_⟩
      rw [hmade'.anchorVout_eq, hvout, hbefore', List.length_append, hlength, ← hbefore]
      generalize (beforeAnchor r.anchor clean).length = before
      cases r.anchor
      · rfl
      · cases r.faults.contains .recoveryExtraOutput
        · rfl
        · exact congrArg some (UInt32.ofNat_add before 1)
    source := by
      intro i s position hs hposition
      obtain ⟨_, hplaced, -⟩ := hmade'.placed_paying hs
      obtain rfl := Option.some.inj (hposition.symm.trans hplaced)
      exact hmade.sourceIsolated hmade' hs
    feeInput_eq := hmade'.drop_inputs.trans hmade.drop_inputs.symm }

/-- Of the faults only those of its stage have an effect on a recovery. -/
theorem build_congr {faults' : FaultSet}
    (h : ∀ fault : Fault, fault.stage = .recovery →
      faults'.contains fault = faults.contains fault) :
    build { r with faults := faults' } = build { r with faults := faults } := by
  have houtputs : applyFaults faults' = applyFaults faults := by
    funext positions outputs
    unfold applyFaults
    rw [h .recoveryOutputTooLow rfl, h .recoveryLastOutputTooLow rfl, h .recoveryExtraOutput rfl]
  have hwitness : ∀ tx spent, witness tx spent faults' = witness tx spent faults := by
    intro tx spent
    funext index s position
    unfold witness
    rw [h .recoveryVoutOffByOne rfl, h .recoveryAuthWrongKey rfl]
  have hsources : distinctSources { r with faults := faults' } =
      distinctSources { r with faults := faults } := rfl
  unfold build
  simp only [hsources, houtputs, witnessesFrom_eq_mapM, hwitness]

end

/-- A recovery under faults is isolated from the recovery of the same request
without, and only the faults of its stage have an effect. -/
theorem sweeping_isolated {r : RecoveryRequest} {t : Recovery} (h : build r = .ok t) :
    (∃ clean sources positions, build { r with faults := .none } = .ok clean ∧
      distinctSources r = .ok sources ∧ Isolated r sources positions clean t) ∧
    ∀ faults' : FaultSet, (∀ fault : Fault, fault.stage = .recovery →
        faults'.contains fault = r.faults.contains fault) →
      build { r with faults := faults' } = .ok t := by
  obtain ⟨clean, hclean⟩ := build_faults_isOk .none h
  obtain ⟨sources, positions, hsources, hisolated⟩ := isolated hclean h
  exact ⟨⟨clean, sources, positions, hclean, hsources, hisolated⟩,
    fun faults' hagree => (build_congr hagree).trans h⟩

/-- A vault of 990000 sats that only a key may recover, swept under all faults
of the stage and one that belongs to another. The one recovery output is the
first and the last and is lowered twice, and the anchor moves behind the output
that is added. -/
theorem sweeping_isolated_same_output :
    ∃ (v : Vault) (o : Outpoint) (coin : Coin) (clean t : Recovery),
      build ⟨[(v, o)], none, some coin, true, .none⟩ = .ok clean ∧
      build ⟨[(v, o)], none, some coin, true, .ofList [.recoveryOutputTooLow,
        .recoveryLastOutputTooLow, .recoveryExtraOutput, .recoveryVoutOffByOne,
        .recoveryAuthWrongKey, .triggerWrongKey]⟩ = .ok t ∧
      build ⟨[(v, o)], none, some coin, true, .ofList [.recoveryOutputTooLow,
        .recoveryLastOutputTooLow, .recoveryExtraOutput, .recoveryVoutOffByOne,
        .recoveryAuthWrongKey]⟩ = .ok t ∧
      clean.tx.outputs[1]? = some ⟨990000, v.policy.recoverySpk⟩ ∧
      t.tx.outputs[1]? = some ⟨989998, v.policy.recoverySpk⟩ ∧
      clean.anchorVout = some 2 ∧ t.anchorVout = some 3 ∧ t.credited = clean.credited := by
  obtain ⟨secret, -⟩ := SecretKey.ofScalar_isOk (show (5 : UInt64) ≠ 0 by decide)
  obtain ⟨v, f, -, -, hf, -, -, hvalue⟩ := Vault.exists_funded 7
    ⟨.nothingUpMySleeve, secret, 10, .keySignature secret, false⟩ .null 990000
  obtain ⟨coin, change, hchange⟩ : ∃ (coin : Coin) (change : TxOut),
      (some coin).mapM Coin.change = .ok (some change) :=
    ⟨⟨TxIn.spending .null, ⟨50000, Script.anyone⟩⟩, ⟨40000, Script.anyone⟩, by decide⟩
  obtain ⟨c, -, hsource⟩ := source_own none hf
  obtain ⟨t, ht⟩ := build_singleton_isOk (r := ⟨[(v, f.outpoint)], none, some coin, true,
    .ofList [.recoveryOutputTooLow, .recoveryLastOutputTooLow, .recoveryExtraOutput,
      .recoveryVoutOffByOne, .recoveryAuthWrongKey, .triggerWrongKey]⟩) rfl hsource hchange
  obtain ⟨⟨clean, sources, positions, hclean, -, hisolated⟩, hothers⟩ := sweeping_isolated ht
  -- the outputs without faults
  obtain ⟨_, swept, _, change', _, hmade⟩ := build_eq_ok hclean
  cases (distinctSources_singleton rfl hsource).symm.trans hmade.sources_eq
  cases hmade.swept_eq
  obtain rfl : some change = change' := Except.ok.inj (hchange.symm.trans hmade.change_eq)
  have hbefore : beforeAnchor true clean = [change, ⟨990000, v.policy.recoverySpk⟩] := by
    rw [← hvalue]
    exact hmade.beforeAnchor_eq.trans (hmade.payouts_eq rfl).1
  have hclean1 : clean.tx.outputs[1]? = some ⟨990000, v.policy.recoverySpk⟩ := by
    rw [hisolated.outputs_eq.1, hbefore]
    rfl
  have hanchor : clean.anchorVout = some 2 := by
    rw [hisolated.anchorVout_eq.1, hbefore]
    rfl
  -- and with all of them
  obtain ⟨value, hget, hlow⟩ := hisolated.output 1 ⟨990000, v.policy.recoverySpk⟩ (by
    rw [hbefore]
    rfl)
  rw [hbefore] at hlow
  obtain rfl : value = 989998 := UInt64.toNat_inj.mp hlow
  refine ⟨v, f.outpoint, coin, clean, t, hclean, ht, hothers _ ?_, hclean1, ?_, hanchor, ?_,
    hisolated.credited_eq.1⟩
  · intro fault hfault
    cases fault <;> first | rfl | cases hfault
  · rw [hisolated.outputs_eq.2,
      List.getElem?_append_left (List.getElem?_eq_some_iff.mp hget).1, hget]
  · rw [hisolated.anchorVout_eq.2, hanchor]
    rfl

end Recovery

end VaultCovenant
