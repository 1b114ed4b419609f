import VaultCovenant.Proofs.Isolation.Recovery
import VaultCovenant.Proofs.Paying.Trigger

/-!
# A coin that pays for a recovery, and its anchor

A recovery with a coin that pays against the one of the same request without,
and one with an anchor against the one without. The change of the coin stands in
front of the other outputs, also of those that a fault lowers, and the anchor
behind all of them. Only the signatures, which are made over all outputs, differ
beside the positions.

Results:
* `Recovery.Paid`, `Recovery.Anchored`: every part of either recovery.
* `Recovery.payouts_some`: faults lower the same outputs behind the change.
* `Recovery.build_paid`, `Recovery.build_anchored`: a coin that pays and an
  anchor change nothing else.
* `paying_is_transparent`: both, with what a coin does to a trigger.
-/

namespace VaultCovenant

namespace Recovery

/-! ## The parts of a recovery that is paid for or anchored -/

/-- What a source shows for its authorization in two transactions: nothing in
either, or in either a signature of the same key for that transaction below the
same items. -/
def PassesAlike (faults : FaultSet) (spent spent' : List TxOut) (tx tx' : Transaction) (i : ℕ)
    (s : Source) (passing passing' : List Bytes) : Prop :=
  (s.authorization.signer faults = none ∧ passing = [] ∧ passing' = []) ∨
  ∃ (secret : SecretKey) (signature signature' : Bytes),
    s.authorization.signer faults = some secret ∧
    passing = signature :: s.authorization.stack ∧
    passing' = signature' :: s.authorization.stack ∧
    signScriptPath tx i spent (leafHash s.recoverScript) secret = .ok signature ∧
    signScriptPath tx' i spent' (leafHash s.recoverScript) secret = .ok signature'

/-- The input of a source that is credited to the output at `position` in one
transaction and `shift` outputs behind it in another. -/
def SourceMoved (faults : FaultSet) (spent spent' : List TxOut) (tx tx' : Transaction) (i : ℕ)
    (s : Source) (position shift : ℕ) : Prop :=
  ∃ (place : ℤ) (passing passing' : List Bytes),
    place = position + (if faults.contains .recoveryVoutOffByOne then 1 else 0) ∧
    tx.inputs[i]? = some { TxIn.spending s.outpoint with
      witness := ScriptNumber.encode place :: passing ++
        [s.recoverScript.bytes, s.control.bytes] } ∧
    tx'.inputs[i]? = some { TxIn.spending s.outpoint with
      witness := ScriptNumber.encode (place + shift) :: passing' ++
        [s.recoverScript.bytes, s.control.bytes] } ∧
    PassesAlike faults spent spent' tx tx' i s passing passing'

/-- What is reported where the sources are credited to the outputs at
`positions`. -/
def creditedTo (sources : List Source) (positions : List ℕ) : List (VaultId × UInt32) :=
  (sources.zip positions).flatMap fun (s, position) =>
    s.vaultIds.map fun id => (id, UInt32.ofNat position)

/-- A recovery with a coin that pays against the one without. The sources are
credited to the outputs at `positions` of the latter. -/
structure Paid (r : RecoveryRequest) (coin : Coin) (sources : List Source) (positions : List ℕ)
    (plain paid : Recovery) : Prop where
  version_eq : paid.tx.version = plain.tx.version
  lockTime_eq : paid.tx.lockTime = plain.tx.lockTime
  bareInputs_eq : paid.tx.bareInputs = plain.tx.bareInputs ++ [coin.input.bare]
  /-- The input of the coin is the last, its witness included. -/
  coinInput : paid.tx.inputs.drop plain.tx.inputs.length = [coin.input]
  outputs_eq : ∃ change, coin.change = .ok change ∧ paid.tx.outputs = change :: plain.tx.outputs
  credited_eq : plain.credited = creditedTo sources positions
  credited : List.Forall₂ (fun c c' => c'.1 = c.1 ∧ c'.2.toNat = c.2.toNat + 1)
    plain.credited paid.credited
  anchorVout : paid.anchorVout.map UInt32.toNat = plain.anchorVout.map (·.toNat + 1)
  feeChange_eq : plain.feeChange = none ∧ paid.feeChange = some 0
  length_inputs : plain.tx.inputs.length = sources.length
  length_positions : positions.length = sources.length
  source : ∀ (i : ℕ) (s : Source) (position : ℕ), sources[i]? = some s →
    positions[i]? = some position →
    SourceMoved r.faults (sources.map Source.spent) (sources.map Source.spent ++ [coin.spent])
      plain.tx paid.tx i s position 1

/-- A recovery with an anchor against the one without. -/
structure Anchored (r : RecoveryRequest) (sources : List Source) (positions : List ℕ)
    (plain anchored : Recovery) : Prop where
  version_eq : anchored.tx.version = plain.tx.version
  lockTime_eq : anchored.tx.lockTime = plain.tx.lockTime
  bareInputs_eq : anchored.tx.bareInputs = plain.tx.bareInputs
  /-- Behind the sources' inputs nothing is changed, witnesses included. -/
  coinInput_eq : anchored.tx.inputs.drop sources.length = plain.tx.inputs.drop sources.length
  outputs_eq : anchored.tx.outputs = plain.tx.outputs ++ [⟨0, Script.anchor⟩]
  credited_eq : plain.credited = creditedTo sources positions ∧
    anchored.credited = plain.credited
  anchorVout : plain.anchorVout = none ∧
    anchored.anchorVout.map UInt32.toNat = some plain.tx.outputs.length
  feeChange_eq : anchored.feeChange = plain.feeChange
  length_positions : positions.length = sources.length
  source : ∀ (i : ℕ) (s : Source) (position : ℕ), sources[i]? = some s →
    positions[i]? = some position →
    SourceMoved r.faults (prevouts r sources) (prevouts r sources) plain.tx anchored.tx i s
      position 0

/-! ## Witnesses -/

section

variable {r r' : RecoveryRequest} {sources : List Source} {swept : List TxOut}
  {positions : List ℕ} {change change' : Option TxOut} {witnesses witnesses' : List (List Bytes)}
  {t t' : Recovery}

/-- In two recoveries of the same sources with the same faults the witness of a
source differs by where its output is, and by its signature. -/
theorem Made.sourceMoved (h : Made r sources swept positions change witnesses t)
    (h' : Made r' sources swept positions change' witnesses' t') (hfaults : r'.faults = r.faults)
    {shift : ℕ} (hshift : change'.toList.length = change.toList.length + shift) {i : ℕ}
    {s : Source} (hs : sources[i]? = some s) :
    SourceMoved r.faults (prevouts r sources) (prevouts r' sources) t.tx t'.tx i s
      (Recovery.creditedAt change swept s) shift := by
  obtain ⟨passing, hpasses, hinput⟩ := h.input_creditedAt hs
  obtain ⟨passing', hpasses', hinput'⟩ := h'.input_creditedAt hs
  have hplace : Recovery.creditedAt change' swept s =
      Recovery.creditedAt change swept s + shift := by
    unfold Recovery.creditedAt
    omega
  unfold witnessItems at hinput hinput'
  rw [hfaults, hplace, Int.natCast_add, Int.add_right_comm] at hinput'
  refine ⟨_, passing, passing', rfl, hinput, hinput', ?_⟩
  rw [hfaults] at hpasses'
  rcases hpasses with ⟨hnone, rfl⟩ | ⟨secret, signature, hsigner, hsign, rfl⟩
  · rcases hpasses' with ⟨-, rfl⟩ | ⟨_, _, hsome, -, -⟩
    · exact Or.inl ⟨hnone, rfl, rfl⟩
    · cases hnone.symm.trans hsome
  · rcases hpasses' with ⟨hnone, -⟩ | ⟨_, signature', hsome, hsign', rfl⟩
    · cases hnone.symm.trans hsigner
    · cases hsigner.symm.trans hsome
      refine Or.inr ⟨secret, signature, signature', hsigner, rfl, rfl, ?_, ?_⟩
      · rw [h.signScriptPath_eq]
        exact hsign
      · rw [h'.signScriptPath_eq, hfaults]
        exact hsign'

/-! ## Outputs -/

theorem foldl_max_map_succ (ns : List ℕ) (n : ℕ) :
    (ns.map (· + 1)).foldl max (n + 1) = ns.foldl max n + 1 := by
  induction ns generalizing n with
  | nil => rfl
  | cons m ns ih => rw [List.map_cons, List.foldl_cons, Nat.add_max_add_right, ih, List.foldl_cons]

/-- Faults lower the same outputs behind the change. -/
theorem payouts_some (faults : FaultSet) (out : TxOut) (swept : List TxOut)
    (hne : positions ≠ []) :
    payouts faults (some out) swept positions = out :: payouts faults none swept positions := by
  obtain ⟨p, rest, rfl⟩ := List.exists_cons_of_ne_nil hne
  have hlast : ((p :: rest).map (· + 1)).foldl max 0 = (p :: rest).foldl max 0 + 1 := by
    rw [List.map_cons, List.foldl_cons, List.foldl_cons, Nat.zero_max, Nat.zero_max,
      foldl_max_map_succ]
  have hlower : ∀ k outputs, lowerAt (k + 1) (out :: outputs) = out :: lowerAt k outputs :=
    fun k outputs => List.modify_succ_cons _ out outputs k
  have hplaced : placed none (p :: rest) = p :: rest := List.map_id' _
  have hplaced' : placed (some out) (p :: rest) = (p :: rest).map (· + 1) := rfl
  unfold payouts
  rw [applyFaults_eq, applyFaults_eq, hplaced, hplaced', loweredUnder, loweredUnder, hlast]
  simp only [Option.toList_some, Option.toList_none, List.singleton_append, List.nil_append,
    List.map_cons, List.headD_cons]
  split <;> split <;> simp only [hlower, List.cons_append]

theorem Made.positions_ne (h : Made r sources swept positions change witnesses t) :
    positions ≠ [] := by
  rw [h.positions_eq]
  exact mt List.map_eq_nil_iff.mp h.sources_ne

theorem Made.length_outputs_ge (h : Made r sources swept positions change witnesses t) :
    change.toList.length + swept.length ≤ t.tx.outputs.length := by
  rw [h.outputs_eq, payouts, applyFaults_eq, List.length_append, List.length_append,
    length_loweredUnder, List.length_append]
  omega

theorem Made.credited_flatMap (h : Made r sources swept positions change witnesses t) :
    t.credited = sources.flatMap fun s => s.vaultIds.map fun id =>
      (id, UInt32.ofNat (Recovery.creditedAt change swept s)) := by
  have hzip : sources.zip (sources.map (Recovery.creditedAt change swept)) =
      sources.map fun s => (s, Recovery.creditedAt change swept s) := by
    simpa using List.zip_map' (f := id) (g := Recovery.creditedAt change swept) (l := sources)
  rw [h.credited_eq, h.placed_eq, hzip, List.flatMap_map]

/-- The positions that are reported move by one. -/
theorem Made.credited_behind {out : TxOut} (h : Made r sources swept positions none witnesses t)
    (h' : Made r' sources swept positions (some out) witnesses' t')
    (hlen : t.tx.outputs.length < outputLimit) :
    List.Forall₂ (fun c c' => c'.1 = c.1 ∧ c'.2.toNat = c.2.toNat + 1) t.credited t'.credited := by
  have hself : List.Forall₂ (fun s s' => s = s' ∧ s ∈ sources) sources sources :=
    List.forall₂_same.mpr fun s hs => ⟨rfl, hs⟩
  rw [h.credited_flatMap, h'.credited_flatMap]
  refine List.rel_flatMap hself ?_
  rintro s _ ⟨rfl, hs⟩
  rw [List.forall₂_map_left_iff, List.forall₂_map_right_iff, List.forall₂_same]
  refine fun id _ => ⟨rfl, ?_⟩
  -- the output is there, so its position fits
  have hlt := (h.creditedAt_lt hs).2
  have hle := h.length_outputs_ge
  have hnext : Recovery.creditedAt (some out) swept s = Recovery.creditedAt none swept s + 1 := rfl
  rw [Transaction.toNat_vout (by omega), Transaction.toNat_vout (by omega)]
  omega

end

/-! ## With and without a coin that pays -/

section

variable {r : RecoveryRequest} {coin : Coin} {plain paid anchored : Recovery}

/-- A coin that pays changes nothing of a recovery but what follows from its
change standing in front. -/
theorem build_paid (hplain : build { r with fee := none } = .ok plain)
    (hpaid : build { r with fee := some coin } = .ok paid)
    (hlen : plain.tx.outputs.length < outputLimit) :
    ∃ sources positions, distinctSources r = .ok sources ∧
      Paid r coin sources positions plain paid := by
  obtain ⟨sources, swept, positions, nothing, witnesses, hmade⟩ := build_eq_ok hplain
  obtain ⟨sources', swept', positions', change', witnesses', hmade'⟩ := build_eq_ok hpaid
  obtain rfl : sources = sources' := Except.ok.inj (hmade.sources_eq.symm.trans hmade'.sources_eq)
  cases hmade.swept_eq.symm.trans hmade'.swept_eq
  obtain rfl := optionMapM_none_eq_ok_iff.mp hmade.change_eq
  obtain ⟨change, hchange, rfl⟩ := optionMapM_some_eq_ok_iff.mp hmade'.change_eq
  have hpayouts : payouts r.faults (some change) swept positions =
      change :: payouts r.faults none swept positions :=
    payouts_some r.faults change swept hmade.positions_ne
  have hlength : plain.tx.inputs.length = sources.length := by
    rw [← hmade.length_inputs]
    simp [prevouts]
  have houtputs : paid.tx.outputs = change :: plain.tx.outputs := by
    rw [hmade.outputs_eq, hmade'.outputs_eq, hpayouts]
    rfl
  have hspent : prevouts { r with fee := none } sources = sources.map Source.spent :=
    List.append_nil _
  refine ⟨sources, placed none positions, hmade.sources_eq, ?_⟩
  exact {
    version_eq := by
      rw [hmade.eq, hmade'.eq]
      rfl
    lockTime_eq := by
      rw [hmade.eq, hmade'.eq]
      rfl
    bareInputs_eq := by
      rw [hmade.bareInputs_eq, hmade'.bareInputs_eq]
      simp [Transaction.bareInputs, unsigned, Transaction.plain, TxIn.bare]
    coinInput := by
      rw [hlength, hmade'.drop_inputs]
      rfl
    outputs_eq := ⟨change, hchange, houtputs⟩
    credited_eq := hmade.credited_eq
    credited := hmade.credited_behind hmade' hlen
    anchorVout := by
      have hroom : (payouts r.faults none swept positions).length ≤ plain.tx.outputs.length := by
        rw [hmade.outputs_eq, List.length_append]
        exact Nat.le_add_right _ _
      have hnext : (UInt32.ofNat ((payouts r.faults none swept positions).length + 1)).toNat =
          (UInt32.ofNat (payouts r.faults none swept positions).length).toNat + 1 := by
        rw [Transaction.toNat_vout (by omega), Transaction.toNat_vout (by omega)]
      rw [hmade.anchorVout_eq, hmade'.anchorVout_eq, hmade.beforeAnchor_eq, hmade'.beforeAnchor_eq,
        hpayouts]
      dsimp only
      split
      · exact congrArg some hnext
      · rfl
    feeChange_eq := ⟨hmade.feeChange_eq, hmade'.feeChange_eq⟩
    length_inputs := hlength
    length_positions := by
      rw [hmade.placed_eq, List.length_map]
    source := by
      intro i s position hs hposition
      rw [hmade.placed_eq, List.getElem?_map, hs] at hposition
      cases hposition
      have hmoved := hmade.sourceMoved hmade' rfl rfl hs
      rw [hspent] at hmoved
      exact hmoved }

/-- An anchor changes nothing of a recovery but the end of its outputs, and
nothing keeps it from being added. -/
theorem build_anchored (hplain : build { r with anchor := false } = .ok plain)
    (hlen : plain.tx.outputs.length < outputLimit) :
    ∃ anchored sources positions, build { r with anchor := true } = .ok anchored ∧
      distinctSources r = .ok sources ∧ Anchored r sources positions plain anchored := by
  obtain ⟨sources, swept, positions, change, witnesses, hmade⟩ := build_eq_ok hplain
  obtain ⟨anchored, hanchored⟩ : ∃ anchored, build { r with anchor := true } = .ok anchored :=
    build_isOk (r := { r with anchor := true }) hmade.sources_eq hmade.sources_ne hmade.swept_eq
      hmade.change_eq
  obtain ⟨sources', swept', positions', change', witnesses', hmade'⟩ := build_eq_ok hanchored
  obtain rfl : sources = sources' := Except.ok.inj (hmade.sources_eq.symm.trans hmade'.sources_eq)
  cases hmade.swept_eq.symm.trans hmade'.swept_eq
  obtain rfl : change = change' := Except.ok.inj (hmade.change_eq.symm.trans hmade'.change_eq)
  have houtputs : plain.tx.outputs = payouts r.faults change swept positions :=
    hmade.outputs_eq.trans (List.append_nil _)
  refine ⟨anchored, sources, placed change positions, hanchored, hmade.sources_eq, ?_⟩
  exact {
    version_eq := by
      rw [hmade.eq, hmade'.eq]
      rfl
    lockTime_eq := by
      rw [hmade.eq, hmade'.eq]
      rfl
    bareInputs_eq := by
      rw [hmade.bareInputs_eq, hmade'.bareInputs_eq]
      rfl
    coinInput_eq := hmade'.drop_inputs.trans hmade.drop_inputs.symm
    outputs_eq := by
      rw [hmade'.outputs_eq, houtputs]
      rfl
    credited_eq := ⟨hmade.credited_eq, hmade'.credited_eq.trans hmade.credited_eq.symm⟩
    anchorVout := by
      refine ⟨hmade.anchorVout_eq, ?_⟩
      rw [hmade'.anchorVout_eq, hmade'.beforeAnchor_eq, houtputs]
      rw [houtputs] at hlen
      show some (UInt32.ofNat (payouts r.faults change swept positions).length).toNat = some _
      rw [Transaction.toNat_vout (by omega)]
    feeChange_eq := hmade'.feeChange_eq.trans hmade.feeChange_eq.symm
    length_positions := by
      rw [hmade.placed_eq, List.length_map]
    source := by
      intro i s position hs hposition
      rw [hmade.placed_eq, List.getElem?_map, hs] at hposition
      cases hposition
      exact hmade.sourceMoved hmade' rfl rfl hs }

end

end Recovery

/-! ## Both transactions -/

/-- A coin that pays, and an anchor, are transparent to whatever else is built.
For all batches and faults a trigger with a coin is that without, its input
behind the others, its change in front of the outputs and every position one
higher, in the report and in the witnesses. For all requests, with any faults,
so is a recovery, and one with an anchor is that without, the anchor behind its
outputs. -/
theorem paying_is_transparent :
    (∀ batches faults coin plain paid, Trigger.build batches none faults = .ok plain →
      Trigger.build batches (some coin) faults = .ok paid →
      plain.tx.outputs.length < outputLimit →
      ∃ fundings, Vault.fundings (batches.flatMap Batch.members) = .ok fundings ∧
        Trigger.Paid coin faults (fundings.map Funding.output) plain paid) ∧
    (∀ (r : RecoveryRequest) coin plain paid, Recovery.build { r with fee := none } = .ok plain →
      Recovery.build { r with fee := some coin } = .ok paid →
      plain.tx.outputs.length < outputLimit →
      ∃ sources positions, Recovery.distinctSources r = .ok sources ∧
        Recovery.Paid r coin sources positions plain paid) ∧
    ∀ (r : RecoveryRequest) plain, Recovery.build { r with anchor := false } = .ok plain →
      plain.tx.outputs.length < outputLimit →
      ∃ anchored sources positions, Recovery.build { r with anchor := true } = .ok anchored ∧
        Recovery.distinctSources r = .ok sources ∧
        Recovery.Anchored r sources positions plain anchored :=
  ⟨fun _ _ _ _ _ => Trigger.build_paid, fun _ _ _ _ => Recovery.build_paid,
    fun _ _ => Recovery.build_anchored⟩

/-- A vault is triggered and returns value, and it is swept, with and without a
coin that pays, and swept with an anchor. -/
theorem paying_is_transparent_one_vault :
    ∃ (v : Vault) (o : Outpoint) (b : Batch) (coin : Coin) (change : TxOut) (plain paid : Trigger)
      (p : BatchPosition) (swept swept' anchored : Recovery),
      Batch.build [v] [] (some 200000) .none = .ok b ∧
      Trigger.build [b] none .none = .ok plain ∧
      Trigger.build [b] (some coin) .none = .ok paid ∧
      paid.tx.outputs = change :: plain.tx.outputs ∧
      paid.tx.inputs.drop plain.tx.inputs.length = [coin.input] ∧
      plain.positions = [⟨0, some 1⟩] ∧ paid.positions = [p] ∧ p.trigger.toNat = 1 ∧
      p.revault.map UInt32.toNat = some 2 ∧
      Recovery.build { sources := [(v, o)] } = .ok swept ∧
      Recovery.build { sources := [(v, o)], fee := some coin } = .ok swept' ∧
      Recovery.build { sources := [(v, o)], anchor := true } = .ok anchored ∧
      swept'.tx.outputs = change :: swept.tx.outputs ∧
      anchored.tx.outputs = swept.tx.outputs ++ [⟨0, Script.anchor⟩] ∧
      anchored.credited = swept.credited := by
  obtain ⟨policy, -⟩ := Policy.ofParams_isOk (show ({} : VaultParams).recoverySecret ≠ 0 by decide)
    (by decide)
  obtain ⟨v, f, -, -, hf, -, hamount, hvalue⟩ := Vault.exists_funded 7 policy .null 990000
  obtain ⟨coin, change, hchange⟩ : ∃ (coin : Coin) (change : TxOut), coin.change = .ok change :=
    ⟨⟨TxIn.spending .null, ⟨50000, Script.anyone⟩⟩, ⟨40000, Script.anyone⟩, by decide⟩
  have hpays : (some coin).mapM Coin.change = .ok (some change) :=
    optionMapM_some_eq_ok_iff.mpr ⟨change, hchange, rfl⟩
  obtain ⟨b, hb⟩ := Batch.build_isOk [] (some 200000) (Vault.total_singleton hf)
    (show _ = Except.ok 790000 by rw [hamount]; decide)
  obtain ⟨first, total, hmade⟩ := Batch.build_eq_ok hb
  have hfundings : Vault.fundings ([b].flatMap Batch.members) = .ok [f] := by
    rw [List.flatMap_singleton, hmade.members_eq]
    exact Vault.fundings_eq_ok_iff.mpr (.cons hf .nil)
  obtain ⟨plain, hplain⟩ := Trigger.build_isOk .none hfundings
    (optionMapM_none_eq_ok_iff.mpr rfl)
  obtain ⟨paid, hpaid⟩ := Trigger.build_isOk .none hfundings hpays
  obtain ⟨_, nothing, _, htmade⟩ := Trigger.build_eq_ok hplain
  have hlen := Trigger.length_outputs_singleton hplain
  obtain ⟨_, -, htpaid⟩ := paying_is_transparent.1 [b] .none coin plain paid hplain hpaid hlen
  obtain ⟨_, hsame, houtputs⟩ := htpaid.outputs_eq
  cases hchange.symm.trans hsame
  -- the batch returns value, so that both of its positions move
  obtain ⟨out, hout⟩ : ∃ out, b.revaultOutput = some out := by
    obtain ⟨hnone, -⟩ | ⟨_, _, -, hout, -⟩ := Batch.revaultOutputUnder_eq_ok hmade.revault_eq
    · cases hnone
    · exact ⟨_, hout⟩
  have hpositions : plain.positions = [⟨0, some 1⟩] := by
    obtain rfl := optionMapM_none_eq_ok_iff.mp htmade.change_eq
    rw [htmade.positions_eq]
    simp only [Trigger.positionsFrom, hout]
    rfl
  have hbehind := htpaid.positions
  rw [hpositions] at hbehind
  obtain ⟨p, _, hp, hnil, hpaidPositions⟩ := List.forall₂_cons_left_iff.mp hbehind
  cases hnil
  -- the recoveries of the vault
  obtain ⟨c, -, hsource⟩ := Recovery.source_own none hf
  obtain ⟨swept, hswept⟩ := Recovery.build_singleton_isOk (r := { sources := [(v, f.outpoint)] })
    rfl hsource (optionMapM_none_eq_ok_iff.mpr rfl)
  obtain ⟨swept', hswept'⟩ := Recovery.build_singleton_isOk
    (r := { sources := [(v, f.outpoint)], fee := some coin }) rfl hsource hpays
  have hfew : swept.tx.outputs.length < outputLimit := by
    obtain ⟨_, _, _, _, _, hrmade⟩ := Recovery.build_eq_ok hswept
    obtain ⟨s, -, rfl⟩ := Recovery.distinctSources_singleton_eq_ok rfl hrmade.sources_eq
    have hle := hrmade.length_outputs_le rfl
    rw [List.length_singleton] at hle
    unfold outputLimit
    omega
  obtain ⟨_, _, -, hrpaid⟩ := paying_is_transparent.2.1 { sources := [(v, f.outpoint)] } coin swept
    swept' hswept hswept' hfew
  obtain ⟨anchored, _, _, hanchored, -, hranchored⟩ := paying_is_transparent.2.2
    { sources := [(v, f.outpoint)] } swept hswept hfew
  obtain ⟨_, hsame, hroutputs⟩ := hrpaid.outputs_eq
  cases hchange.symm.trans hsame
  exact ⟨v, f.outpoint, b, coin, _, plain, paid, p, swept, swept', anchored, hb, hplain, hpaid,
    houtputs, htpaid.coinInput, hpositions, hpaidPositions, hp.trigger, hp.revault, hswept, hswept',
    hanchored, hroutputs, hranchored.outputs_eq, hranchored.credited_eq.2⟩

end VaultCovenant
