import VaultCovenant.Proofs.Leaves
import VaultCovenant.Proofs.Recovery.Sweep
import VaultCovenant.Proofs.Recovery.Triggered
import VaultCovenant.Proofs.Script.Minimal
import VaultCovenant.Proofs.Spending

/-!
# What the recovery opcode checks

An input that is recovered names an output at the bottom of its witness. That
output has to pay the script to which the recover leaf commits, and it has to
hold what all inputs that name it spend.

Results:
* `Recovery.source_ofPolicy`: recover leaf, recovery script and authorization
  of a source are those of the vault or of the first member of a batch.
* `Recovery.Made.value_creditedAt`: an output holds what the sources credited
  to it spend.
* `Session.Operated.recovery_checks`: a recovery without faults passes the
  check.
-/

namespace VaultCovenant

/-! ## The check -/

/-- The integer at the bottom of a witness, if its bytes are minimal. For an
input that is recovered it names an output. -/
def TxIn.named? (i : TxIn) : Option ℤ := i.witness.head?.bind ScriptNumber.decodeMinimal?

/-- The leaf that a witness shows ends with the commitment to a script and the
recovery opcode. -/
def TxIn.CommitsTo (i : TxIn) (spk : Script) : Prop :=
  ∃ below check control, i.witness = below ++
    [check ++ (0x20 :: (recoveryCommitment spk).bytes ++ [Opcode.vaultRecover]), control]

/-- What inputs that name an output spend together, given what each spends. -/
def namedWorth (coins : List (TxIn × TxOut)) (v : ℕ) : ℕ :=
  ((coins.filter fun c => c.1.named? = some (v : ℤ)).map (·.2.value.toNat)).sum

/-! ## The leaf of a source -/

/-- The batch was built with none of the faults that change the recover
leaf. -/
def Batch.KeepsRecoverLeaf (b : Batch) : Prop :=
  ∃ members targets revault faults,
    build members targets revault faults = .ok b ∧
      faults.contains .triggerBadRecoveryCommitment = false ∧
      faults.contains .triggerRecoverLeafWrongOpcode = false

theorem Batch.KeepsRecoverLeaf.leafScript {b : Batch} (h : b.KeepsRecoverLeaf) {first : Vault}
    (hfirst : b.canonical = .ok first) :
    b.tree.leafScript recoverLeaf = .ok first.policy.recoverScript := by
  obtain ⟨members, targets, revault, faults, hbuild, hcommitment, hopcode⟩ := h
  obtain ⟨first', total, hmade⟩ := Batch.build_eq_ok hbuild
  rw [hmade.canonical] at hfirst
  cases hfirst
  rw [hmade.leafScript_recover, Batch.recoverScriptUnder, hcommitment, hopcode]
  rfl

namespace Recovery

/-- Recovery script, recover leaf and authorization are those of a policy. -/
structure Source.OfPolicy (s : Source) (p : Policy) : Prop where
  recoverySpk_eq : s.recoverySpk = p.recoverySpk
  recoverScript_eq : s.recoverScript = p.recoverScript
  authorization_eq : s.authorization = p.authorization

theorem source_ofPolicy {trigger : Option Trigger} {v : Vault} {o : Outpoint} {s : Source}
    (h : source trigger v o = .ok s)
    (hkeeps : ∀ t, trigger = some t → ∀ b ∈ t.batches, b.KeepsRecoverLeaf) :
    ∃ w : Vault, s.OfPolicy w.policy ∧
      (w = v ∨ ∃ t b, trigger = some t ∧ b ∈ t.batches ∧ b.canonical = .ok w) := by
  unfold source at h
  by_cases ho : v.outpoint = some o
  · rw [if_pos ho] at h
    obtain ⟨f, c, -, -, rfl⟩ := vaultSource_eq_ok_iff.mp h
    exact ⟨v, ⟨rfl, rfl, rfl⟩, Or.inl rfl⟩
  · rw [if_neg ho] at h
    obtain ⟨t, k, b, first, spent, script, c, rfl, hbatch, -, hfirst, -, hscript, -, rfl⟩ :=
      triggerSource_eq_ok_iff.mp h
    have hb := List.mem_iff_getElem?.mpr ⟨k, (Trigger.batchOf_eq_some hbatch).1⟩
    rw [(hkeeps t rfl b hb).leafScript hfirst] at hscript
    exact ⟨first, ⟨rfl, (Except.ok.inj hscript).symm, rfl⟩, Or.inr ⟨t, b, rfl, hb, hfirst⟩⟩

/-- A source of a request is that of a vault that is named at its outpoint. -/
theorem exists_named {r : RecoveryRequest} {sources : List Source}
    (h : distinctSources r = .ok sources) {s : Source} (hs : s ∈ sources) :
    ∃ v s' ids, (v, s.outpoint) ∈ r.sources ∧ source r.trigger v s.outpoint = .ok s' ∧
      s = { s' with vaultIds := ids } := by
  obtain ⟨o, -, v, s', hfind, hsource, rfl⟩ := forall₂_mem_right (distinctSources_eq_ok h) hs
  obtain ⟨rfl, -⟩ := source_eq_ok hsource
  exact ⟨v, s', _, List.mem_of_find?_eq_some hfind, hsource, rfl⟩

theorem ofPolicy_of_mem {r : RecoveryRequest} {sources : List Source}
    (h : distinctSources r = .ok sources)
    (hkeeps : ∀ t, r.trigger = some t → ∀ b ∈ t.batches, b.KeepsRecoverLeaf) {s : Source}
    (hs : s ∈ sources) : ∃ p, s.OfPolicy p := by
  obtain ⟨v, s', ids, -, hsource, rfl⟩ := exists_named h hs
  obtain ⟨w, ⟨hspk, hscript, hauthorization⟩, -⟩ := source_ofPolicy hsource hkeeps
  exact ⟨w.policy, hspk, hscript, hauthorization⟩

/-! ## What an output holds -/

namespace Made

variable {r : RecoveryRequest} {sources : List Source} {swept : List TxOut} {positions : List ℕ}
  {change : Option TxOut} {witnesses : List (List Bytes)} {t : Recovery} {s : Source} {v : ℕ}
  {out : TxOut}

/-- A source is credited to the output with its script and to no other. -/
theorem creditedAt_eq_iff (h : Made r sources swept positions change witnesses t) {k : ℕ}
    (hout : swept[k]? = some out) :
    Recovery.creditedAt change swept s = change.toList.length + k ↔
      s.recoverySpk = out.scriptPubkey := by
  have hnodup : (scripts swept).Nodup := by
    rw [h.scripts_swept]
    exact nodup_eraseDups _
  have hget : (scripts swept)[k]? = some out.scriptPubkey := by
    rw [scripts, List.getElem?_map, hout]
    rfl
  obtain ⟨hk, hscript⟩ := List.getElem?_eq_some_iff.mp hget
  unfold Recovery.creditedAt
  constructor
  · intro heq
    have hidx : (scripts swept).idxOf s.recoverySpk = k := by omega
    have hlt : (scripts swept).idxOf s.recoverySpk < (scripts swept).length := by omega
    have hself := List.getElem?_eq_getElem hlt
    rw [List.getElem_idxOf, hidx, hget] at hself
    exact (Option.some.inj hself).symm
  · intro hspk
    rw [hspk, ← hscript, hnodup.idxOf_getElem k hk, Nat.add_comm]

theorem creditedAt_lt (h : Made r sources swept positions change witnesses t) (hs : s ∈ sources) :
    change.toList.length ≤ Recovery.creditedAt change swept s ∧
      Recovery.creditedAt change swept s < change.toList.length + swept.length := by
  have hmem : s.recoverySpk ∈ scripts swept := by
    rw [h.scripts_swept, List.mem_eraseDups]
    exact List.mem_map_of_mem hs
  have hlt := List.idxOf_lt_length_of_mem hmem
  rw [scripts, List.length_map] at hlt
  unfold Recovery.creditedAt
  constructor <;> simp only [scripts] <;> omega

/-- Only the first output can be change. -/
theorem feeChange_eq (h : Made r sources swept positions change witnesses t) :
    t.feeChange = change.map fun _ => 0 := by
  rw [h.eq]
  rfl

/-- An output that is not change holds what the sources credited to it
spend. -/
theorem value_creditedAt (h : Made r sources swept positions change witnesses t)
    (hfaults : r.faults = .none) (hout : t.tx.outputs[v]? = some out)
    (hchange : t.feeChange.map UInt32.toNat ≠ some v) :
    out.value.toNat = ((sources.filter fun s => Recovery.creditedAt change swept s = v).map
      (·.spent.value.toNat)).sum := by
  have hv : change.toList.length ≤ v := by
    rw [h.feeChange_eq] at hchange
    cases change with
    | none => exact Nat.zero_le v
    | some c =>
      have hne : v ≠ 0 := by
        rintro rfl
        exact hchange rfl
      exact Nat.one_le_iff_ne_zero.mpr hne
  obtain ⟨k, rfl⟩ := Nat.exists_eq_add_of_le hv
  rw [(h.payouts_eq hfaults).2, List.append_assoc, List.getElem?_append_right hv,
    Nat.add_sub_cancel_left] at hout
  by_cases hk : k < swept.length
  · rw [List.getElem?_append_left hk] at hout
    rw [value_creditAll h.swept_eq (List.mem_iff_getElem?.mpr ⟨k, hout⟩), claimed]
    congr 2
    refine List.filter_congr fun s _ => ?_
    rw [decide_eq_decide]
    exact (h.creditedAt_eq_iff hout).symm
  -- behind the swept outputs there is only the anchor, which holds nothing
  · rw [List.getElem?_append_right (by omega)] at hout
    have hanchor : out = ⟨0, Script.anchor⟩ := by
      have hmem := List.mem_iff_getElem?.mpr ⟨_, hout⟩
      split at hmem
      · exact List.mem_singleton.mp hmem
      · cases hmem
    have hnone : (sources.filter fun s =>
        Recovery.creditedAt change swept s = change.toList.length + k) = [] := by
      refine List.filter_eq_nil_iff.mpr fun s hs => ?_
      have hlt := (h.creditedAt_lt hs).2
      rw [decide_eq_true_eq]
      omega
    rw [hanchor, hnone]
    rfl

/-! ## The witness of a source -/

/-- Without faults the input of a source names the output to which the source
is credited, and shows the source's recover leaf. -/
theorem input_named (h : Made r sources swept positions change witnesses t)
    (hfaults : r.faults = .none) {i : ℕ} (hs : sources[i]? = some s) :
    ∃ input, t.tx.inputs[i]? = some input ∧ input.previousOutput = s.outpoint ∧
      input.named? = some (Recovery.creditedAt change swept s : ℤ) ∧
      ∃ below control, input.witness = below ++ [s.recoverScript.bytes, control] := by
  obtain ⟨passing, -, hinput⟩ := h.input_creditedAt hs
  rw [hfaults] at hinput
  refine ⟨_, hinput, rfl, ?_, _ :: passing, s.control.bytes, rfl⟩
  refine ScriptNumber.decodeMinimal?_eq_some_iff.mpr ?_
  show ScriptNumber.encode (_ + 0) = _
  rw [Int.add_zero]

/-- The inputs of the sources with what they spend, and then the coin that
pays. -/
theorem exists_coins (h : Made r sources swept positions change witnesses t)
    (hfaults : r.faults = .none) :
    ∃ coins : List (TxIn × TxOut),
      t.tx.inputs = coins.map Prod.fst ++ (r.fee.map Coin.input).toList ∧
      List.Forall₂ (fun (s : Source) (c : TxIn × TxOut) =>
        c.1.previousOutput = s.outpoint ∧ c.2 = s.spent ∧
        c.1.named? = some (Recovery.creditedAt change swept s : ℤ) ∧
        ∃ below control, c.1.witness = below ++ [s.recoverScript.bytes, control])
        sources coins := by
  have hinputs := h.inputs_eq
  set spending := Transaction.attach (sources.map fun s => TxIn.spending s.outpoint) witnesses
  have hlen : spending.length = sources.length := by
    rw [Transaction.length_attach, List.length_map]
  have hspent : spending.length = (sources.map Source.spent).length := by
    rw [hlen, List.length_map]
  refine ⟨spending.zip (sources.map Source.spent), ?_, forall₂_of_getElem? ?_ ?_⟩
  · rw [List.map_fst_zip (Nat.le_of_eq hspent), hinputs]
  · rw [List.length_zip, ← hspent, Nat.min_self, hlen]
  · intro i s hs
    obtain ⟨input, hinput, hrest⟩ := h.input_named hfaults hs
    have hi : i < spending.length := hlen ▸ (List.getElem?_eq_some_iff.mp hs).1
    rw [hinputs, List.getElem?_append_left hi] at hinput
    refine ⟨(input, s.spent), ?_, hrest.1, rfl, hrest.2⟩
    rw [List.getElem?_zip_eq_some]
    exact ⟨hinput, by rw [List.getElem?_map, hs]; rfl⟩

end Made

theorem namedWorth_eq {place : Source → ℕ} {sources : List Source} {coins : List (TxIn × TxOut)}
    (h : List.Forall₂ (fun s c => c.1.named? = some (place s : ℤ) ∧ c.2 = s.spent) sources coins)
    (v : ℕ) :
    namedWorth coins v = ((sources.filter fun s => place s = v).map (·.spent.value.toNat)).sum := by
  induction h with
  | nil => rfl
  | @cons s c sources coins hc _ ih =>
    obtain ⟨hnamed, hspent⟩ := hc
    unfold namedWorth at ih ⊢
    rw [List.filter_cons, List.filter_cons]
    by_cases hv : place s = v
    · have hv' : c.1.named? = some (v : ℤ) := by rw [hnamed, hv]
      simp only [hv, hv', decide_true, if_true, List.map_cons, List.sum_cons, ih, hspent]
    · have hv' : c.1.named? ≠ some (v : ℤ) := by
        rw [hnamed]
        exact fun heq => hv (Int.natCast_inj.mp (Option.some.inj heq))
      simp only [hv, hv', decide_false, Bool.false_eq_true, if_false, ih]

end Recovery

/-! ## Every recovery of a session -/

namespace Session

variable {s : Session} {r : RecoveryRequest} {recovery : Recovery}

/-- A recovery without faults passes what the recovery opcode checks, for
whatever mixture of vaults and trigger outputs, as long as no fault changed a
recover leaf. Every input but the coin's own spends an output of the session
and names, in minimal bytes, an output whose script is the one to which the
recover leaf in the same witness commits; and every output but the change
holds what the inputs that name it spend. -/
theorem Operated.recovery_checks (h : s.Operated) (hvaults : ∀ p ∈ r.sources, p.1 ∈ s.vaults)
    (htrigger : ∀ t, r.trigger = some t → t ∈ s.triggers)
    (hkeeps : ∀ t, r.trigger = some t → ∀ b ∈ t.batches, b.KeepsRecoverLeaf)
    (hfaults : r.faults = .none) (hbuild : Recovery.build r = .ok recovery) :
    ∃ coins : List (TxIn × TxOut),
      recovery.tx.inputs = coins.map Prod.fst ++ (r.fee.map Coin.input).toList ∧
      coins.map (·.1.previousOutput) = (r.sources.map Prod.snd).eraseDups ∧
      (∀ c ∈ coins, CreatedAt s.transactions c.1.previousOutput c.2) ∧
      (∀ c ∈ coins, ∃ (v : ℕ) (out : TxOut), c.1.named? = some (v : ℤ) ∧
        recovery.tx.outputs[v]? = some out ∧ recovery.feeChange.map UInt32.toNat ≠ some v ∧
        c.1.CommitsTo out.scriptPubkey) ∧
      ∀ (v : ℕ) (out : TxOut), recovery.tx.outputs[v]? = some out →
        recovery.feeChange.map UInt32.toNat ≠ some v → out.value.toNat = namedWorth coins v := by
  obtain ⟨sources, swept, positions, change, witnesses, hmade⟩ := Recovery.build_eq_ok hbuild
  obtain ⟨coins, hinputs, hcoins⟩ := hmade.exists_coins hfaults
  refine ⟨coins, hinputs, ?_, ?_, ?_, ?_⟩
  · rw [← Recovery.map_outpoint_distinctSources hmade.sources_eq]
    have hsame := hcoins.imp fun source c hc => hc.1.symm
    exact (List.forall₂_eq_eq_eq ▸ List.forall₂_map_left_iff.mpr
      (List.forall₂_map_right_iff.mpr hsame)).symm
  · intro c hc
    obtain ⟨source, hsource, houtpoint, hspent, -⟩ := forall₂_mem_right hcoins hc
    obtain ⟨v, source', ids, hv, hresolved, rfl⟩ :=
      Recovery.exists_named hmade.sources_eq hsource
    rw [houtpoint, hspent]
    exact (h.coherent.source_opens (hvaults _ hv) htrigger hresolved []).1
  · intro c hc
    obtain ⟨source, hsource, -, -, hnamed, below, control, hwitness⟩ :=
      forall₂_mem_right hcoins hc
    obtain ⟨p, hp⟩ := Recovery.ofPolicy_of_mem hmade.sources_eq hkeeps hsource
    obtain ⟨k, out, hk, -, hout, hspk⟩ := hmade.creditedAt hfaults hsource
    refine ⟨_, out, hnamed, hout, ?_, below, p.authorization.script.bytes, control, ?_⟩
    · rw [hmade.feeChange_eq, hk]
      cases change with
      | none => exact nofun
      | some _ =>
        intro hzero
        have hval := Option.some.inj hzero
        simp only [UInt32.toNat_zero, Option.toList_some, List.length_singleton] at hval
        omega
    · rw [hwitness, hp.recoverScript_eq, Policy.recoverScript, Policy.bytes_recoverScriptFor,
        hspk, hp.recoverySpk_eq]
      rfl
  · intro v out hout hchange
    rw [hmade.value_creditedAt hfaults hout hchange]
    exact (Recovery.namedWorth_eq (hcoins.imp fun _ _ hc => ⟨hc.2.2.1, hc.2.1⟩) v).symm

/-- A coin is locked, part of it triggered and the trigger output recovered
with a coin that pays and an anchor. The one input that is recovered names the
output behind the change, which holds the trigger amount. -/
theorem Operated.recovery_checks_triggered :
    ∃ (s : Session) (r : RecoveryRequest) (recovery : Recovery) (c : TxIn × TxOut) (v : ℕ)
      (out : TxOut),
      s.Operated ∧ r.fee.isSome = true ∧ r.anchor = true ∧ r.trigger.isSome = true ∧
      Recovery.build r = .ok recovery ∧
      recovery.tx.inputs = c.1 :: (r.fee.map Coin.input).toList ∧
      CreatedAt s.transactions c.1.previousOutput c.2 ∧ c.1.named? = some (v : ℤ) ∧
      recovery.tx.outputs[v]? = some out ∧ c.1.CommitsTo out.scriptPubkey ∧
      out.value = c.2.value := by
  obtain ⟨s, p, v, f, b, t, o, hs, -, -, hv, -, ht, hb, -, hbatches, -, hrecovers⟩ :=
    exists_triggered {} (by decide) (by decide)
  obtain ⟨coin, change, hchange⟩ : ∃ coin change, (some coin).mapM Coin.change = .ok change :=
    ⟨⟨TxIn.spending .null, ⟨50000, Script.anyone⟩⟩, some ⟨40000, Script.anyone⟩, by decide⟩
  obtain ⟨recovery, hrecovery⟩ := hrecovers (some coin) change true .none hchange
  have hkeeps : b.KeepsRecoverLeaf := ⟨_, _, _, _, hb, rfl, rfl⟩
  obtain ⟨coins, hinputs, hspends, hcreated, hnamed, hworth⟩ := hs.operated.recovery_checks
    (r := ⟨[(v, o)], some t, some coin, true, .none⟩) (by simpa using hv) (by simpa using ht)
    (by simpa [hbatches] using hkeeps) rfl hrecovery
  -- one outpoint is named, so there is one coin
  obtain ⟨c, rfl⟩ : ∃ c, coins = [c] := by
    have hlen := congrArg List.length hspends
    rw [List.length_map] at hlen
    exact List.length_eq_one_iff.mp hlen
  obtain ⟨n, out, hn, hout, hfee, hcommits⟩ := hnamed c (List.mem_singleton_self c)
  have hvalue := hworth n out hout hfee
  unfold namedWorth at hvalue
  simp only [List.filter_singleton, hn, decide_true, cond_true, List.map_singleton,
    List.sum_singleton] at hvalue
  exact ⟨s, _, recovery, c, n, out, hs.operated, rfl, rfl, rfl, hrecovery, hinputs,
    hcreated c (List.mem_singleton_self c), hn, hout, hcommits, UInt64.toNat_inj.mp hvalue⟩

end Session

end VaultCovenant
