import VaultCovenant.Proofs.Batch.Build
import VaultCovenant.Proofs.Transaction.Witnesses
import VaultCovenant.Proofs.Trigger.Layout

/-!
# What a trigger is made of

The parts of a trigger that was built: the coins of its members, the
transaction before its witnesses are attached, and the witness of every
member.

Results:
* `Trigger.build_eq_ok`: the parts of a trigger that was built.
* `Trigger.build_eq_error`: building a trigger fails only for a member without
  a coin or for a coin that cannot pay.
* `Trigger.Made.input_spend`: the input and the witness of a member.
* `Trigger.Made.outpoint`, `Trigger.Made.revaultOutpoint`: the outpoints of a
  batch lead to its outputs.
-/

namespace VaultCovenant

namespace Trigger

variable {batches : List Batch} {fee : Option Coin} {faults : FaultSet} {t : Trigger}

theorem length_prevouts (fundings : List Funding) (fee : Option Coin) (batches : List Batch)
    (change : Option TxOut) :
    (prevouts fundings fee).length = (unsigned fundings fee batches change).inputs.length := by
  cases fee <;> simp [prevouts, unsigned, Transaction.plain]

/-! ## Witnesses -/

/-- The key that signs for a member. -/
def signer (faults : FaultSet) (v : Vault) : SecretKey :=
  if faults.contains .triggerWrongKey then forgingSecret else v.policy.triggerSecret

/-- The witness of a member with its signature and its control block. -/
def witnessItems (faults : FaultSet) (s : Spend) (signature : Bytes) (control : ControlBlock) :
    List Bytes :=
  [ScriptNumber.encode ((s.position.revault.map fun vout => (vout.toNat : Int)).getD noOutput),
    ScriptNumber.encode (s.position.trigger.toNat +
      if faults.contains .triggerVoutOffByOne then 1 else 0),
    s.batch.withdrawalHash.bytes, signature, s.vault.policy.triggerScript.bytes, control.bytes]

/-- The witness ends with the trigger leaf and its control block. -/
theorem witnessItems_eq (faults : FaultSet) (s : Spend) (signature : Bytes)
    (control : ControlBlock) :
    ∃ front, witnessItems faults s signature control =
      front ++ [s.vault.policy.triggerScript.bytes, control.bytes] :=
  ⟨[_, _, _, signature], rfl⟩

theorem witness_eq_ok_iff {tx : Transaction} {spent : List TxOut} {index : ℕ} {s : Spend}
    {w : List Bytes} :
    witness tx spent faults index s = .ok w ↔
      ∃ signature control,
        signScriptPath tx index spent (leafHash s.vault.policy.triggerScript)
          (signer faults s.vault) = .ok signature ∧
        s.vault.policy.tree.controlBlock triggerLeaf = .ok control ∧
        w = witnessItems faults s signature control := by
  have hleaf : s.vault.policy.tree.leafHash triggerLeaf =
      .ok (leafHash s.vault.policy.triggerScript) := by
    rw [TaprootTree.leafHash, Policy.leafScript_trigger]
    rfl
  unfold witness
  rw [hleaf]
  simp only [bind_eq_ok_iff, Except.ok.injEq, exists_eq_left']
  constructor
  · rintro ⟨signature, hsign, control, hcontrol, h⟩
    cases h
    exact ⟨signature, control, hsign, hcontrol, rfl⟩
  · rintro ⟨signature, control, hsign, hcontrol, rfl⟩
    exact ⟨signature, hsign, control, hcontrol, rfl⟩

theorem witness_isOk {tx : Transaction} {spent : List TxOut} (index : ℕ) (s : Spend)
    (h : spent.length = tx.inputs.length) : ∃ w, witness tx spent faults index s = .ok w := by
  obtain ⟨signature, hsign⟩ := Transaction.signScriptPath_isOk index
    (leafHash s.vault.policy.triggerScript) (signer faults s.vault) h
  obtain ⟨control, hcontrol⟩ := s.vault.policy.controlBlock_trigger_isOk
  exact ⟨_, witness_eq_ok_iff.mpr ⟨signature, control, hsign, hcontrol, rfl⟩⟩

theorem witnessesFrom_eq_mapM (tx : Transaction) (spent : List TxOut) (index : ℕ)
    (ss : List Spend) :
    witnessesFrom tx spent faults index ss =
      (ss.zipIdx index).mapM fun (s, i) => witness tx spent faults i s := by
  induction ss generalizing index with
  | nil => rfl
  | cons s ss ih =>
    rw [witnessesFrom, List.zipIdx_cons, List.mapM_cons, ih]

/-- The members of the batches are those to be spent, in order. -/
theorem map_vault_spends (start : ℕ) (batches : List Batch) :
    (spends batches (positionsFrom start batches)).map Spend.vault =
      batches.flatMap Batch.members := by
  induction batches generalizing start with
  | nil => rfl
  | cons b rest ih =>
    have := ih (start + b.outputs.length)
    unfold spends at this ⊢
    rw [positionsFrom, List.zip_cons_cons, List.flatMap_cons, List.map_append, this,
      List.flatMap_cons]
    simp [Function.comp_def]

/-! ## The parts of a trigger -/

/-- The parts of a trigger that was built. -/
structure Made (batches : List Batch) (fee : Option Coin) (faults : FaultSet)
    (fundings : List Funding) (change : Option TxOut) (witnesses : List (List Bytes))
    (t : Trigger) : Prop where
  fundings_eq : Vault.fundings (batches.flatMap Batch.members) = .ok fundings
  change_eq : fee.mapM Coin.change = .ok change
  witnesses_eq : witnessesFrom (unsigned fundings fee batches change) (prevouts fundings fee)
    faults 0 (spends batches (positionsFrom change.toList.length batches)) = .ok witnesses
  tx_eq : t.tx = (unsigned fundings fee batches change).withWitnesses witnesses
  batches_eq : t.batches = batches
  positions_eq : t.positions = positionsFrom change.toList.length batches
  feeChange_eq : t.feeChange = change.map fun _ => 0

theorem build_eq_ok (h : build batches fee faults = .ok t) :
    ∃ fundings change witnesses, Made batches fee faults fundings change witnesses t := by
  obtain ⟨fundings, hfundings, h⟩ := bind_eq_ok_iff.mp h
  obtain ⟨change, hchange, h⟩ := bind_eq_ok_iff.mp h
  obtain ⟨witnesses, hwitnesses, h⟩ := bind_eq_ok_iff.mp h
  cases h
  exact ⟨fundings, change, witnesses, hfundings, hchange, hwitnesses, rfl, rfl, rfl, rfl⟩

theorem witnessesFrom_isOk {tx : Transaction} {spent : List TxOut} (faults : FaultSet)
    (index : ℕ) (ss : List Spend) (h : spent.length = tx.inputs.length) :
    ∃ ws, witnessesFrom tx spent faults index ss = .ok ws := by
  rw [witnessesFrom_eq_mapM]
  exact mapM_isOk fun s _ => witness_isOk s.2 s.1 h

/-- Once the members have coins and the coin that pays suffices, nothing else
can fail. -/
theorem build_isOk (faults : FaultSet) {fundings : List Funding} {change : Option TxOut}
    (hfundings : Vault.fundings (batches.flatMap Batch.members) = .ok fundings)
    (hchange : fee.mapM Coin.change = .ok change) : ∃ t, build batches fee faults = .ok t := by
  obtain ⟨ws, hws⟩ := witnessesFrom_isOk faults 0
    (spends batches (positionsFrom change.toList.length batches))
    (length_prevouts fundings fee batches change)
  exact ⟨_, bind_eq_ok_iff.mpr ⟨fundings, hfundings, bind_eq_ok_iff.mpr ⟨change, hchange,
    bind_eq_ok_iff.mpr ⟨ws, hws, rfl⟩⟩⟩⟩

/-- A batch that was built can be triggered alone. -/
theorem build_alone_isOk {members : List Vault} {targets : List TxOut} {revault : Option Sats}
    {shaping : FaultSet} {b : Batch} (faults : FaultSet)
    (hb : Batch.build members targets revault shaping = .ok b) :
    ∃ t, build [b] none faults = .ok t := by
  obtain ⟨first, total, hmade⟩ := Batch.build_eq_ok hb
  obtain ⟨fundings, hfundings, -⟩ := Vault.total_eq_ok_iff.mp hmade.total_eq
  have hmembers : Vault.fundings ([b].flatMap Batch.members) = .ok fundings := by
    rw [List.flatMap_singleton, hmade.members_eq, hfundings]
  have hchange : (none : Option Coin).mapM Coin.change = .ok none := rfl
  exact build_isOk faults hmembers hchange

theorem build_eq_error {e : VaultError} (h : build batches fee faults = .error e) :
    Vault.fundings (batches.flatMap Batch.members) = .error e ∨
      fee.mapM Coin.change = .error e := by
  cases hf : Vault.fundings (batches.flatMap Batch.members) with
  | error e' =>
    rcases bind_eq_error_iff.mp h with hf' | ⟨fundings, hf', -⟩
    · exact Or.inl (hf ▸ hf')
    · rw [hf] at hf'
      cases hf'
  | ok fundings =>
    cases hc : fee.mapM Coin.change with
    | error e' =>
      rcases bind_eq_error_iff.mp h with hf' | ⟨_, -, h⟩
      · rw [hf] at hf'
        cases hf'
      · rcases bind_eq_error_iff.mp h with hc' | ⟨_, hc', -⟩
        · exact Or.inr (hc ▸ hc')
        · rw [hc] at hc'
          cases hc'
    | ok change =>
      obtain ⟨t, ht⟩ := build_isOk faults hf hc
      rw [ht] at h
      cases h

namespace Made

variable {fundings : List Funding} {change : Option TxOut} {witnesses : List (List Bytes)}

theorem outputs_eq (h : Made batches fee faults fundings change witnesses t) :
    t.tx.outputs = outputs batches change := by
  rw [h.tx_eq]
  rfl

theorem length_witnesses (h : Made batches fee faults fundings change witnesses t) :
    witnesses.length = fundings.length := by
  have hws := h.witnesses_eq
  rw [witnessesFrom_eq_mapM] at hws
  have hlen := (mapM_eq_ok_iff.mp hws).length_eq
  have hvaults := congrArg List.length
    (map_vault_spends change.toList.length batches)
  have hfs := (Vault.fundings_eq_ok_iff.mp h.fundings_eq).length_eq
  rw [List.length_zipIdx] at hlen
  rw [List.length_map] at hvaults
  omega

/-- The inputs of the members, then the coin's own. -/
theorem inputs_eq (h : Made batches fee faults fundings change witnesses t) :
    t.tx.inputs =
      Transaction.attach (fundings.map fun f => TxIn.spending f.outpoint) witnesses
        ++ (fee.map Coin.input).toList := by
  rw [h.tx_eq]
  exact Transaction.attach_append (by rw [List.length_map, h.length_witnesses])

theorem previousOutputs (h : Made batches fee faults fundings change witnesses t) :
    t.tx.inputs.map (·.previousOutput) =
      fundings.map Funding.outpoint ++ (fee.map (·.input.previousOutput)).toList := by
  rw [h.tx_eq, Transaction.map_previousOutput_withWitnesses, unsigned, Transaction.plain,
    List.map_append, List.map_map]
  cases fee <;> rfl

theorem length_inputs (h : Made batches fee faults fundings change witnesses t) :
    (prevouts fundings fee).length = t.tx.inputs.length := by
  rw [h.tx_eq, Transaction.inputs_withWitnesses, Transaction.length_attach, length_prevouts]

/-- The input of a member: its coin, and the witness computed for its place
and the positions of its batch. -/
theorem input_spend (h : Made batches fee faults fundings change witnesses t) {i : ℕ} {s : Spend}
    (hs : (spends batches (positionsFrom change.toList.length batches))[i]? = some s) :
    ∃ f signature control,
      s.vault.funding = .ok f ∧ fundings[i]? = some f ∧
      signScriptPath (unsigned fundings fee batches change) i (prevouts fundings fee)
        (leafHash s.vault.policy.triggerScript) (signer faults s.vault) = .ok signature ∧
      s.vault.policy.tree.controlBlock triggerLeaf = .ok control ∧
      t.tx.inputs[i]? = some { TxIn.spending f.outpoint with
        witness := witnessItems faults s signature control } := by
  have hv : (batches.flatMap Batch.members)[i]? = some s.vault := by
    rw [← map_vault_spends change.toList.length batches, List.getElem?_map, hs]
    rfl
  obtain ⟨f, hf, hfunding⟩ := forall₂_getElem? (Vault.fundings_eq_ok_iff.mp h.fundings_eq) hv
  have hws := h.witnesses_eq
  rw [witnessesFrom_eq_mapM] at hws
  -- the witness was computed for the spend at `i`, with `i` as its place
  obtain ⟨w, hw, hwitness⟩ := forall₂_getElem? (mapM_eq_ok_iff.mp hws) (i := i) (x := (s, i))
    (by rw [List.getElem?_zipIdx, hs]; simp)
  obtain ⟨signature, control, hsign, hcontrol, rfl⟩ := witness_eq_ok_iff.mp hwitness
  refine ⟨f, signature, control, hfunding, hf, hsign, hcontrol, ?_⟩
  rw [h.inputs_eq]
  exact Transaction.getElem?_attach_spending hf hw

theorem input (h : Made batches fee faults fundings change witnesses t) {i : ℕ} {v : Vault}
    (hv : (batches.flatMap Batch.members)[i]? = some v) :
    ∃ f s signature control,
      v.funding = .ok f ∧ fundings[i]? = some f ∧ s.vault = v ∧
      signScriptPath (unsigned fundings fee batches change) i (prevouts fundings fee)
        (leafHash v.policy.triggerScript) (signer faults v) = .ok signature ∧
      v.policy.tree.controlBlock triggerLeaf = .ok control ∧
      t.tx.inputs[i]? = some { TxIn.spending f.outpoint with
        witness := witnessItems faults s signature control } := by
  rw [← map_vault_spends change.toList.length batches, List.getElem?_map] at hv
  obtain ⟨s, hs, rfl⟩ := Option.map_eq_some_iff.mp hv
  obtain ⟨f, signature, control, hf, hfi, hsign, hcontrol, hinput⟩ := h.input_spend hs
  exact ⟨f, s, signature, control, hf, hfi, rfl, hsign, hcontrol, hinput⟩

/-! ## The outputs of a batch -/

section

variable {i : ℕ} {b : Batch} {o : Outpoint}

/-- The outpoint of a batch leads to its trigger output. -/
theorem outpoint (h : Made batches fee faults fundings change witnesses t)
    (hlen : t.tx.outputs.length < outputLimit) (hb : t.batches[i]? = some b)
    (ho : t.outpoint i = .ok o) :
    o.txid = t.tx.txid ∧ t.tx.outputs[o.vout.toNat]? = some b.triggerOutput := by
  rw [h.outputs_eq] at hlen ⊢
  rw [h.batches_eq] at hb
  unfold Trigger.outpoint at ho
  split at ho
  · rename_i position hposition
    cases ho
    rw [h.positions_eq] at hposition
    exact ⟨rfl, getElem?_outputs_trigger hb hposition hlen⟩
  · cases ho

/-- The outpoint of what a batch returns leads to its revault output. -/
theorem revaultOutpoint (h : Made batches fee faults fundings change witnesses t)
    (hlen : t.tx.outputs.length < outputLimit) (hb : t.batches[i]? = some b)
    (ho : t.revaultOutpoint i = some o) :
    o.txid = t.tx.txid ∧
      ∃ out, b.revaultOutput = some out ∧ t.tx.outputs[o.vout.toNat]? = some out := by
  rw [h.outputs_eq] at hlen ⊢
  rw [h.batches_eq] at hb
  obtain ⟨position, hposition, ho⟩ := Option.bind_eq_some_iff.mp ho
  obtain ⟨vout, hvout, ho⟩ := Option.bind_eq_some_iff.mp ho
  cases ho
  rw [h.positions_eq] at hposition
  exact ⟨rfl, getElem?_outputs_revault hb hposition hlen hvout⟩

end

end Made

theorem batchOf_eq_some {id : VaultId} {i : ℕ} {b : Batch} (h : t.batchOf id = some (i, b)) :
    t.batches[i]? = some b ∧ b.contains id = true := by
  obtain ⟨⟨b', i'⟩, hfind, h⟩ := Option.map_eq_some_iff.mp h
  cases h
  have hcontains := List.find?_some hfind
  exact ⟨List.mem_zipIdx_iff_getElem?.mp (List.mem_of_find?_eq_some hfind), hcontains⟩

theorem mem_returns {b : Batch} {o : Outpoint} {out : TxOut} :
    (b, o, out) ∈ t.returns ↔
      ∃ i, t.batches[i]? = some b ∧ t.revaultOutpoint i = some o ∧
        b.revaultOutput = some out := by
  simp only [returns, List.mem_filterMap, Prod.exists, List.mem_zipIdx_iff_getElem?]
  constructor
  · rintro ⟨b', i, hb, h⟩
    obtain ⟨o', ho, h⟩ := Option.bind_eq_some_iff.mp h
    obtain ⟨out', hout, h⟩ := Option.bind_eq_some_iff.mp h
    cases h
    exact ⟨i, hb, ho, hout⟩
  · rintro ⟨i, hb, ho, hout⟩
    refine ⟨b, i, hb, ?_⟩
    rw [ho, hout]
    rfl

/-- A trigger of one batch is far from the limit. -/
theorem length_outputs_singleton {b : Batch} (ht : build [b] fee faults = .ok t) :
    t.tx.outputs.length < outputLimit := by
  obtain ⟨_, change, _, hmade⟩ := build_eq_ok ht
  have hle := b.length_outputs_le
  have hchange : change.toList.length ≤ 1 := by cases change <;> simp
  rw [hmade.outputs_eq, outputs, List.length_append, List.flatMap_singleton, outputLimit]
  omega

end Trigger

end VaultCovenant
