import VaultCovenant.Proofs.Recovery.Outputs
import VaultCovenant.Proofs.Recovery.Sources
import VaultCovenant.Proofs.Transaction.Witnesses

/-!
# What a recovery is made of

The parts of a recovery that was built: its sources, the outputs to which they
are credited, the transaction before its witnesses are attached, and the
witness of every source.

Results:
* `Recovery.build_eq_ok`: the parts of a recovery that was built.
* `Recovery.build_isOk`: once the sources, their outputs and the change are
  there, nothing else can fail.
* `Recovery.Made.input_creditedAt`: the input and the witness of a source.
-/

namespace VaultCovenant

/-! ## Who signs -/

/-- The key that signs for an authorization, if it asks for a signature. -/
def Authorization.signer (faults : FaultSet) : Authorization → Option SecretKey
  | anyone => none
  | keySignature secret | scriptSignature secret _ _ =>
    some (if faults.contains .recoveryAuthWrongKey then forgingSecret else secret)

/-- What a source shows to pass its authorization: nothing where nothing is
asked for, else a signature for its place below what the authorization's
script needs. -/
def Recovery.Passes (tx : Transaction) (spent : List TxOut) (faults : FaultSet) (index : ℕ)
    (s : Recovery.Source) (passing : List Bytes) : Prop :=
  (s.authorization.signer faults = none ∧ passing = []) ∨
  ∃ secret signature, s.authorization.signer faults = some secret ∧
    signScriptPath tx index spent (leafHash s.recoverScript) secret = .ok signature ∧
    passing = signature :: s.authorization.stack

namespace Recovery

variable {r : RecoveryRequest} {t : Recovery} {tx : Transaction} {spent : List TxOut}
  {faults : FaultSet} {index : ℕ} {s : Source} {sources : List Source}

/-! ## Witnesses -/

/-- The witness of a source with what passes its authorization. -/
def witnessItems (faults : FaultSet) (s : Source) (position : ℕ) (passing : List Bytes) :
    List Bytes :=
  ScriptNumber.encode (position + if faults.contains .recoveryVoutOffByOne then 1 else 0)
    :: passing ++ [s.recoverScript.bytes, s.control.bytes]

/-- Whether forged or not, a witness is made with the authorization's
signer. -/
theorem witness_eq (position : ℕ) :
    witness tx spent faults index s position =
      match s.authorization.signer faults with
      | none => .ok (witnessItems faults s position [])
      | some secret => do
        let passing ← s.authorization.signedBy secret tx index spent s.recoverScript
        return witnessItems faults s position passing := by
  unfold witness
  by_cases hf : faults.contains .recoveryAuthWrongKey = true
  · simp only [hf, if_true]
    cases s.authorization <;>
      simp only [Authorization.forgedWitness, Authorization.isRequired, Authorization.signer, hf,
        if_true, if_false, Bool.false_eq_true] <;> rfl
  · simp only [hf]
    cases s.authorization <;>
      simp only [Authorization.witness, Authorization.signer, hf, if_false, Bool.false_eq_true] <;>
      rfl

theorem witness_eq_ok_iff {position : ℕ} {w : List Bytes} :
    witness tx spent faults index s position = .ok w ↔
      ∃ passing, Passes tx spent faults index s passing ∧
        w = witnessItems faults s position passing := by
  rw [witness_eq]
  unfold Passes
  cases s.authorization.signer faults with
  | none =>
    constructor
    · intro h
      cases h
      exact ⟨[], Or.inl ⟨rfl, rfl⟩, rfl⟩
    · rintro ⟨passing, ⟨-, rfl⟩ | ⟨_, _, h, -⟩, rfl⟩
      · rfl
      · cases h
  | some secret =>
    constructor
    · intro h
      obtain ⟨passing, hpassing, h⟩ := bind_eq_ok_iff.mp h
      obtain ⟨signature, hsignature, hpassing⟩ := bind_eq_ok_iff.mp hpassing
      cases h
      cases hpassing
      exact ⟨_, Or.inr ⟨secret, signature, rfl, hsignature, rfl⟩, rfl⟩
    · rintro ⟨passing, ⟨h, -⟩ | ⟨_, signature, h, hsignature, rfl⟩, rfl⟩
      · cases h
      · cases h
        exact bind_eq_ok_iff.mpr ⟨_, bind_eq_ok_iff.mpr ⟨signature, hsignature, rfl⟩, rfl⟩

theorem witness_isOk (faults : FaultSet) (index : ℕ) (s : Source) (position : ℕ)
    (h : spent.length = tx.inputs.length) :
    ∃ w, witness tx spent faults index s position = .ok w := by
  cases hsigner : s.authorization.signer faults with
  | none => exact ⟨_, witness_eq_ok_iff.mpr ⟨_, Or.inl ⟨hsigner, rfl⟩, rfl⟩⟩
  | some secret =>
    obtain ⟨signature, hsignature⟩ :=
      Transaction.signScriptPath_isOk index (leafHash s.recoverScript) secret h
    exact ⟨_, witness_eq_ok_iff.mpr
      ⟨_, Or.inr ⟨secret, signature, hsigner, hsignature, rfl⟩, rfl⟩⟩

theorem witnessesFrom_eq_mapM (ss : List (Source × ℕ)) :
    witnessesFrom tx spent faults index ss =
      (ss.zipIdx index).mapM fun p => witness tx spent faults p.2 p.1.1 p.1.2 := by
  induction ss generalizing index with
  | nil => rfl
  | cons s ss ih => rw [witnessesFrom, List.zipIdx_cons, List.mapM_cons, ih]

theorem witnessesFrom_isOk (faults : FaultSet) (index : ℕ) (ss : List (Source × ℕ))
    (h : spent.length = tx.inputs.length) :
    ∃ ws, witnessesFrom tx spent faults index ss = .ok ws := by
  rw [witnessesFrom_eq_mapM]
  exact mapM_isOk fun p _ => witness_isOk faults p.2 p.1.1 p.1.2 h

/-! ## The parts of a recovery -/

/-- The positions of the sources' outputs, behind the change. -/
def placed (change : Option TxOut) (positions : List ℕ) : List ℕ :=
  positions.map (· + change.toList.length)

/-- Where the output of a source is, behind the change. -/
def creditedAt (change : Option TxOut) (swept : List TxOut) (s : Source) : ℕ :=
  (scripts swept).idxOf s.recoverySpk + change.toList.length

/-- The outputs before the anchor. -/
def payouts (faults : FaultSet) (change : Option TxOut) (swept : List TxOut)
    (positions : List ℕ) : List TxOut :=
  applyFaults faults (placed change positions) (change.toList ++ swept)

/-- The transaction before its witnesses are attached. -/
def unsigned (r : RecoveryRequest) (sources : List Source) (outputs : List TxOut) : Transaction :=
  .plain (sources.map (fun s => TxIn.spending s.outpoint) ++ (r.fee.map Coin.input).toList)
    (outputs ++ if r.anchor then [⟨0, Script.anchor⟩] else [])

/-- The outputs that the inputs spend, in order. -/
def prevouts (r : RecoveryRequest) (sources : List Source) : List TxOut :=
  sources.map Source.spent ++ (r.fee.map Coin.spent).toList

theorem length_prevouts (r : RecoveryRequest) (sources : List Source) (outputs : List TxOut) :
    (prevouts r sources).length = (unsigned r sources outputs).inputs.length := by
  cases hfee : r.fee <;> simp [prevouts, unsigned, Transaction.plain, hfee]

/-- The recovery that is returned once its parts are there. -/
def assembled (r : RecoveryRequest) (sources : List Source) (swept : List TxOut)
    (positions : List ℕ) (change : Option TxOut) (witnesses : List (List Bytes)) : Recovery where
  tx := (unsigned r sources (payouts r.faults change swept positions)).withWitnesses witnesses
  credited := (sources.zip (placed change positions)).flatMap fun (s, position) =>
    s.vaultIds.map fun id => (id, UInt32.ofNat position)
  feeChange := change.map fun _ => 0
  anchorVout :=
    if r.anchor then some (UInt32.ofNat (payouts r.faults change swept positions).length) else none

/-- The parts of a recovery that was built. -/
structure Made (r : RecoveryRequest) (sources : List Source) (swept : List TxOut)
    (positions : List ℕ) (change : Option TxOut) (witnesses : List (List Bytes))
    (t : Recovery) : Prop where
  sources_eq : distinctSources r = .ok sources
  sources_ne : sources ≠ []
  swept_eq : creditAll [] sources = .ok (swept, positions)
  change_eq : r.fee.mapM Coin.change = .ok change
  witnesses_eq : witnessesFrom (unsigned r sources (payouts r.faults change swept positions))
    (prevouts r sources) r.faults 0 (sources.zip (placed change positions)) = .ok witnesses
  eq : t = assembled r sources swept positions change witnesses

theorem build_eq_ok (h : build r = .ok t) :
    ∃ sources swept positions change witnesses,
      Made r sources swept positions change witnesses t := by
  obtain ⟨sources, hsources, h⟩ := bind_eq_ok_iff.mp h
  by_cases hempty : sources.isEmpty = true
  · rw [if_pos hempty] at h
    cases h
  rw [if_neg hempty] at h
  obtain ⟨⟨swept, positions⟩, hswept, h⟩ := bind_eq_ok_iff.mp h
  obtain ⟨change, hchange, h⟩ := bind_eq_ok_iff.mp h
  obtain ⟨witnesses, hwitnesses, h⟩ := bind_eq_ok_iff.mp h
  cases h
  exact ⟨sources, swept, positions, change, witnesses, lift_eq_ok_iff.mp hsources,
    fun hnil => hempty (List.isEmpty_iff.mpr hnil), hswept, lift_eq_ok_iff.mp hchange,
    lift_eq_ok_iff.mp hwitnesses, rfl⟩

/-- Once the sources, their outputs and the change are there, nothing else can
fail. -/
theorem build_isOk {swept : List TxOut} {positions : List ℕ} {change : Option TxOut}
    (hsources : distinctSources r = .ok sources) (hne : sources ≠ [])
    (hswept : creditAll [] sources = .ok (swept, positions))
    (hchange : r.fee.mapM Coin.change = .ok change) : ∃ t, build r = .ok t := by
  obtain ⟨ws, hws⟩ := witnessesFrom_isOk r.faults 0 (sources.zip (placed change positions))
    (length_prevouts r sources (payouts r.faults change swept positions))
  have hempty : ¬ sources.isEmpty = true := fun h => hne (List.isEmpty_iff.mp h)
  refine ⟨assembled r sources swept positions change ws, ?_⟩
  refine bind_eq_ok_iff.mpr ⟨sources, lift_eq_ok_iff.mpr hsources, ?_⟩
  rw [if_neg hempty]
  exact bind_eq_ok_iff.mpr ⟨(swept, positions), hswept, bind_eq_ok_iff.mpr
    ⟨change, lift_eq_ok_iff.mpr hchange, bind_eq_ok_iff.mpr
    ⟨ws, lift_eq_ok_iff.mpr hws, rfl⟩⟩⟩

/-- What a recovery can fail for: its sources, a sum, or the coin that pays. -/
theorem build_eq_error {e : Failure} (h : build r = .error e) :
    (∃ cause, distinctSources r = .error cause ∧ e = .error cause) ∨
    (distinctSources r = .ok [] ∧
      e = .error (.transaction "recovery needs at least one input")) ∨
    e = .overflow ∨ ∃ cause, r.fee.mapM Coin.change = .error cause ∧ e = .error cause := by
  rcases bind_eq_error_iff.mp h with h | ⟨sources, hsources, h'⟩
  · exact Or.inl (lift_eq_error_iff.mp h)
  have hsources := lift_eq_ok_iff.mp hsources
  by_cases hempty : sources.isEmpty = true
  · rw [if_pos hempty] at h'
    cases h'
    rw [List.isEmpty_iff.mp hempty] at hsources
    exact Or.inr (Or.inl ⟨hsources, rfl⟩)
  rw [if_neg hempty] at h'
  rcases bind_eq_error_iff.mp h' with h' | ⟨⟨swept, positions⟩, hswept, h'⟩
  · exact Or.inr (Or.inr (Or.inl (creditAll_eq_error h')))
  rcases bind_eq_error_iff.mp h' with h' | ⟨change, hchange, -⟩
  · exact Or.inr (Or.inr (Or.inr (lift_eq_error_iff.mp h')))
  have hne : sources ≠ [] := fun hnil => hempty (List.isEmpty_iff.mpr hnil)
  obtain ⟨t, ht⟩ := build_isOk hsources hne hswept (lift_eq_ok_iff.mp hchange)
  rw [h] at ht
  cases ht

/-- One coin that can be resolved can be recovered. -/
theorem build_singleton_isOk {v : Vault} {o : Outpoint} {change : Option TxOut}
    (hsources : r.sources = [(v, o)]) (hsource : source r.trigger v o = .ok s)
    (hchange : r.fee.mapM Coin.change = .ok change) : ∃ t, build r = .ok t := by
  exact build_isOk (distinctSources_singleton hsources hsource) (List.cons_ne_nil _ _) rfl hchange

namespace Made

variable {swept : List TxOut} {positions : List ℕ} {change : Option TxOut}
  {witnesses : List (List Bytes)}

theorem positions_eq (h : Made r sources swept positions change witnesses t) :
    positions = sources.map fun s => (scripts swept).idxOf s.recoverySpk :=
  positions_creditAll scripts_nil h.swept_eq

theorem placed_eq (h : Made r sources swept positions change witnesses t) :
    placed change positions = sources.map (creditedAt change swept) := by
  rw [placed, h.positions_eq, List.map_map]
  rfl

theorem outputs_eq (h : Made r sources swept positions change witnesses t) :
    t.tx.outputs = payouts r.faults change swept positions ++
      if r.anchor then [⟨0, Script.anchor⟩] else [] := by
  rw [h.eq]
  rfl

theorem length_witnesses (h : Made r sources swept positions change witnesses t) :
    witnesses.length = sources.length := by
  have hws := h.witnesses_eq
  rw [witnessesFrom_eq_mapM] at hws
  have hlen := (mapM_eq_ok_iff.mp hws).length_eq
  rw [List.length_zipIdx, List.length_zip, placed, List.length_map, h.positions_eq,
    List.length_map, Nat.min_self] at hlen
  exact hlen.symm

/-- The inputs of the sources, then the coin's own. -/
theorem inputs_eq (h : Made r sources swept positions change witnesses t) :
    t.tx.inputs =
      Transaction.attach (sources.map fun s => TxIn.spending s.outpoint) witnesses
        ++ (r.fee.map Coin.input).toList := by
  rw [h.eq]
  exact Transaction.attach_append (by rw [List.length_map, h.length_witnesses])

theorem previousOutputs (h : Made r sources swept positions change witnesses t) :
    t.tx.inputs.map (·.previousOutput) =
      sources.map (·.outpoint) ++ (r.fee.map (·.input.previousOutput)).toList := by
  rw [h.eq, assembled, Transaction.map_previousOutput_withWitnesses, unsigned, Transaction.plain,
    List.map_append, List.map_map]
  cases r.fee <;> rfl

theorem length_inputs (h : Made r sources swept positions change witnesses t) :
    (prevouts r sources).length = t.tx.inputs.length := by
  rw [h.eq, assembled, Transaction.inputs_withWitnesses, Transaction.length_attach,
    length_prevouts]

/-- A signature made before the witnesses are attached is one of the recovery
as it is returned. -/
theorem signScriptPath_eq (h : Made r sources swept positions change witnesses t) (i : ℕ)
    (spent : List TxOut) (leaf : Digest) (secret : SecretKey) :
    signScriptPath t.tx i spent leaf secret =
      signScriptPath (unsigned r sources (payouts r.faults change swept positions)) i spent leaf
        secret := by
  rw [h.eq]
  exact Transaction.signScriptPath_withWitnesses _ _ _ _ _ _

/-- The input of a source: its outpoint, and the witness computed for its
place and for the output to which it is credited. -/
theorem input_creditedAt (h : Made r sources swept positions change witnesses t) {i : ℕ}
    {s : Source} (hs : sources[i]? = some s) :
    ∃ passing,
      Passes (unsigned r sources (payouts r.faults change swept positions)) (prevouts r sources)
        r.faults i s passing ∧
      t.tx.inputs[i]? = some { TxIn.spending s.outpoint with
        witness := witnessItems r.faults s (creditedAt change swept s) passing } := by
  have hws := h.witnesses_eq
  rw [witnessesFrom_eq_mapM] at hws
  have hposition : (sources.zip (placed change positions))[i]? =
      some (s, creditedAt change swept s) := by
    rw [h.placed_eq, List.getElem?_zip_eq_some, List.getElem?_map, hs]
    exact ⟨rfl, rfl⟩
  obtain ⟨w, hw, hwitness⟩ := forall₂_getElem? (mapM_eq_ok_iff.mp hws) (i := i)
    (x := ((s, creditedAt change swept s), i)) (by rw [List.getElem?_zipIdx, hposition]; simp)
  obtain ⟨passing, hpasses, rfl⟩ := witness_eq_ok_iff.mp hwitness
  refine ⟨passing, hpasses, ?_⟩
  rw [h.inputs_eq]
  exact Transaction.getElem?_attach_spending hs hw

theorem input (h : Made r sources swept positions change witnesses t) {i : ℕ} {s : Source}
    (hs : sources[i]? = some s) :
    ∃ position passing,
      Passes (unsigned r sources (payouts r.faults change swept positions)) (prevouts r sources)
        r.faults i s passing ∧
      t.tx.inputs[i]? = some { TxIn.spending s.outpoint with
        witness := witnessItems r.faults s position passing } :=
  ⟨_, h.input_creditedAt hs⟩

end Made

end Recovery

end VaultCovenant
