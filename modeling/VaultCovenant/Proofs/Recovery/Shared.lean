import VaultCovenant.Proofs.Batch.Compatibility
import VaultCovenant.Proofs.Binding
import VaultCovenant.Proofs.Recovery.Check

/-!
# Recovering a shared trigger output

A trigger output is recovered to the recovery output of the first member of
its batch. In a compatible batch that is the recovery output of every member,
since a recover leaf tells its authorization and its commitment apart.

Results:
* `Batch.isCompatible_iff_pairwise`: what the comparison of the members comes
  to, field by field.
* `Recovery.recoverySpk_of_member`: a coin that a member names goes to the
  recovery output of some member.
* `Batch.compatible_recovers_own`: in a compatible batch it goes to the
  member's own.
-/

namespace VaultCovenant

/-! ## What is compared -/

theorem Policy.recoverScript_eq_iff {p q : Policy} :
    p.recoverScript = q.recoverScript ↔
      p.authorization.script = q.authorization.script ∧ p.recoveryHash = q.recoveryHash := by
  constructor
  · exact recoverScriptFor_inj
  · rintro ⟨hauthorization, hcommitment⟩
    rw [recoverScript, recoverScript, recoverScriptFor, recoverScriptFor, hauthorization,
      hcommitment]

namespace Batch

variable {members : List Vault} {targets : List TxOut} {revault : Option Sats}
  {faults : FaultSet} {b c : Batch} {m n : Vault}

theorem isCompatible_iff_pairwise (b : Batch) :
    b.isCompatible = true ↔ ∀ m ∈ b.members, ∀ n ∈ b.members,
      m.policy.authorization.script = n.policy.authorization.script ∧
        m.policy.recoveryHash = n.policy.recoveryHash ∧
        m.policy.spendDelay = n.policy.spendDelay := by
  unfold isCompatible
  cases hmembers : b.members with
  | nil => simp
  | cons first rest =>
    simp only [List.all_eq_true, Vault.isCompatibleWith, Policy.isCompatibleWith_iff,
      Policy.recoverScript_eq_iff, and_assoc]
    constructor
    · intro hall
      -- whoever agrees with the first member agrees with all others
      have hfirst : ∀ m ∈ first :: rest,
          first.policy.authorization.script = m.policy.authorization.script ∧
            first.policy.recoveryHash = m.policy.recoveryHash ∧
            first.policy.spendDelay = m.policy.spendDelay := by
        intro m hm
        rcases List.mem_cons.mp hm with rfl | hm
        · exact ⟨rfl, rfl, rfl⟩
        · exact hall m hm
      intro m hm n hn
      obtain ⟨hscript, hhash, hdelay⟩ := hfirst m hm
      obtain ⟨hscript', hhash', hdelay'⟩ := hfirst n hn
      exact ⟨hscript.symm.trans hscript', hhash.symm.trans hhash', hdelay.symm.trans hdelay'⟩
    · intro hall m hm
      exact hall first List.mem_cons_self m (List.mem_cons_of_mem first hm)

theorem isCompatible_of_perm (h : c.members.Perm b.members) : c.isCompatible = b.isCompatible := by
  rw [Bool.eq_iff_iff, isCompatible_iff_pairwise, isCompatible_iff_pairwise]
  constructor
  · intro hall m hm n hn
    exact hall m (h.mem_iff.mpr hm) n (h.mem_iff.mpr hn)
  · intro hall m hm n hn
    exact hall m (h.mem_iff.mp hm) n (h.mem_iff.mp hn)

/-- The strings hashed into the commitments to the recovery outputs of some
vaults. -/
def recoveryMessages (members : List Vault) : List Bytes :=
  members.map fun m => recoveryPreimage m.policy.recoverySpk

/-- The members of a compatible batch have one recovery output, unless two of
the strings hashed collide. -/
theorem recoverySpk_eq_of_compatible (hcompatible : b.isCompatible = true)
    (hno : ¬ Collision (recoveryMessages b.members) (recoveryMessages b.members))
    (hm : m ∈ b.members) (hn : n ∈ b.members) : m.policy.recoverySpk = n.policy.recoverySpk := by
  obtain ⟨hscript, hhash, -⟩ := b.isCompatible_iff_pairwise.mp hcompatible m hm n hn
  exact (Policy.recoverScript_binds hno (List.mem_map_of_mem hm) (List.mem_map_of_mem hn)
    (Policy.recoverScript_eq_iff.mpr ⟨hscript, hhash⟩)).2

end Batch

/-! ## Where a coin goes -/

namespace Recovery

variable {members : List Vault} {targets : List TxOut} {revault : Option Sats}
  {shaping : FaultSet} {b : Batch} {batches : List Batch} {fee : Option Coin} {faults : FaultSet}
  {t : Trigger} {k : ℕ} {v : Vault} {o : Outpoint}

/-- What a member names goes to the recovery output of some member: its own
coin to its own, the trigger output to that of the first. -/
theorem recoverySpk_of_member (hbuild : Trigger.build batches fee faults = .ok t)
    (hids : (batches.flatMap Batch.memberIds).Nodup) (hb : batches[k]? = some b)
    (hv : v ∈ b.members) {s : Source} (hs : source (some t) v o = .ok s) :
    ∃ n ∈ b.members, s.recoverySpk = n.policy.recoverySpk := by
  obtain ⟨fundings, change, witnesses, hmade⟩ := Trigger.build_eq_ok hbuild
  rw [← hmade.batches_eq] at hids hb
  rcases resolves_of_source hs with ⟨-, -, hspk⟩ | ⟨-, t', i, b', first, ht, hbatch, -, hfirst, -,
    hspk⟩
  · exact ⟨v, hv, hspk⟩
  · cases ht
    rw [Trigger.batchOf_of_mem hids hb hv] at hbatch
    cases hbatch
    exact ⟨first, List.mem_of_head? hfirst, hspk⟩

namespace Made

variable {r : RecoveryRequest} {sources : List Source} {swept : List TxOut} {positions : List ℕ}
  {change : Option TxOut} {witnesses : List (List Bytes)} {recovery : Recovery}

/-- All vaults of a source are reported where the source is credited. -/
theorem mem_credited (h : Made r sources swept positions change witnesses recovery) {s : Source}
    (hs : s ∈ sources) {id : VaultId} (hid : id ∈ s.vaultIds) :
    (id, UInt32.ofNat (Recovery.creditedAt change swept s)) ∈ recovery.credited := by
  obtain ⟨i, hi⟩ := List.mem_iff_getElem?.mp hs
  have hzip : (s, Recovery.creditedAt change swept s) ∈ sources.zip (placed change positions) := by
    refine List.mem_iff_getElem?.mpr ⟨i, List.getElem?_zip_eq_some.mpr ⟨hi, ?_⟩⟩
    rw [h.placed_eq, List.getElem?_map, hi]
    rfl
  rw [h.eq]
  exact List.mem_flatMap.mpr ⟨_, hzip, List.mem_map.mpr ⟨id, hid, rfl⟩⟩

/-- A vault that is named at an outpoint is reported at the output that the
input there names, whichever vault named the outpoint first. -/
theorem credited_of_named (h : Made r sources swept positions change witnesses recovery)
    (hfaults : r.faults = .none) (hnamed : (v, o) ∈ r.sources) :
    ∃ (w : Vault) (s : Source) (vout : ℕ) (out : TxOut) (input : TxIn),
      (w, o) ∈ r.sources ∧ source r.trigger w o = .ok s ∧
      (v.id, UInt32.ofNat vout) ∈ recovery.credited ∧ recovery.tx.outputs[vout]? = some out ∧
      out.scriptPubkey = s.recoverySpk ∧ input ∈ recovery.tx.inputs ∧ input.previousOutput = o ∧
      input.named? = some (vout : ℤ) := by
  have ho : o ∈ (r.sources.map Prod.snd).eraseDups :=
    List.mem_eraseDups.mpr (List.mem_map_of_mem hnamed)
  obtain ⟨i, hi⟩ := List.mem_iff_getElem?.mp ho
  obtain ⟨s, hs, w, s', hfind, hsource, heq⟩ :=
    forall₂_getElem? (distinctSources_eq_ok h.sources_eq) hi
  have hmem := List.mem_iff_getElem?.mpr ⟨i, hs⟩
  have hid : v.id ∈ s.vaultIds := by
    rw [heq]
    exact List.mem_eraseDups.mpr (List.mem_map.mpr
      ⟨(v, o), List.mem_filter.mpr ⟨hnamed, decide_eq_true rfl⟩, rfl⟩)
  obtain ⟨_, out, -, -, hout, hspk⟩ := h.creditedAt hfaults hmem
  obtain ⟨input, hinput, hprevious, hnames, -⟩ := h.input_named hfaults hs
  refine ⟨w, s', _, out, input, List.mem_of_find?_eq_some hfind, hsource, h.mem_credited hmem hid,
    hout, ?_, List.mem_iff_getElem?.mpr ⟨i, hinput⟩, ?_, hnames⟩
  · rw [hspk, heq]
  · rw [hprevious, heq, ← (source_eq_ok hsource).1]

end Made

end Recovery

/-! ## Compatible batches -/

/-- A batch is compatible exactly when its members have pairwise the same
authorization script, the same commitment to their recovery output and the
same delay, whatever their order. Once a compatible batch is triggered, beside
whatever other batches and with whatever faults, every member can be recovered
from the trigger output, and a recovery without faults that names the member
there credits it an output with its own recovery script, to which the trigger
output is swept; all this unless two of the strings collide that are hashed
into the members' commitments. -/
theorem Batch.compatible_recovers_own :
    (∀ b : Batch, (b.isCompatible = true ↔ ∀ m ∈ b.members, ∀ n ∈ b.members,
        m.policy.authorization.script = n.policy.authorization.script ∧
          m.policy.recoveryHash = n.policy.recoveryHash ∧
          m.policy.spendDelay = n.policy.spendDelay) ∧
      ∀ c : Batch, c.members.Perm b.members → c.isCompatible = b.isCompatible) ∧
    ∀ members targets revault shaping b, build members targets revault shaping = .ok b →
      b.isCompatible = true → ¬ Collision (recoveryMessages members) (recoveryMessages members) →
      ∀ batches fee faults t, Trigger.build batches fee faults = .ok t →
        (batches.flatMap Batch.memberIds).Nodup →
        ∀ (k : ℕ) (o : Outpoint), batches[k]? = some b → t.outpoint k = .ok o →
        ∀ m ∈ members,
          (∀ coin change anchor, coin.mapM Coin.change = .ok change →
            ∃ recovery, Recovery.build ⟨[(m, o)], some t, coin, anchor, .none⟩ = .ok recovery) ∧
          ∀ r recovery, r.faults = .none → r.trigger = some t → (m, o) ∈ r.sources →
            (∀ p ∈ r.sources, p.2 = o → p.1 ∈ members) → Recovery.build r = .ok recovery →
            ∃ (vout : ℕ) (out : TxOut) (input : TxIn),
              (m.id, UInt32.ofNat vout) ∈ recovery.credited ∧
              recovery.tx.outputs[vout]? = some out ∧ out.scriptPubkey = m.policy.recoverySpk ∧
              input ∈ recovery.tx.inputs ∧ input.previousOutput = o ∧
              input.named? = some (vout : ℤ) := by
  refine ⟨fun b => ⟨b.isCompatible_iff_pairwise, fun c => isCompatible_of_perm⟩, ?_⟩
  intro members targets revault shaping b hbatch hcompatible hno batches fee faults t hbuild hids
    k o hb ho m hm
  constructor
  · intro coin change anchor hchange
    exact Recovery.build_triggered_isOk hbatch hbuild hids hb ho hm hchange anchor .none
  · intro r recovery hfaults htrigger hnamed hmembers hrecovery
    obtain ⟨first, total, hmade⟩ := build_eq_ok hbatch
    obtain ⟨sources, swept, positions, change, witnesses, hrmade⟩ :=
      Recovery.build_eq_ok hrecovery
    obtain ⟨w, s, vout, out, input, hw, hs, hcredited, hout, hspk, hinput⟩ :=
      hrmade.credited_of_named hfaults hnamed
    rw [← hmade.members_eq] at hm hno hmembers
    rw [htrigger] at hs
    obtain ⟨n, hn, hsn⟩ := Recovery.recoverySpk_of_member hbuild hids hb (hmembers _ hw rfl) hs
    refine ⟨vout, out, input, hcredited, hout, ?_, hinput⟩
    rw [hspk, hsn, recoverySpk_eq_of_compatible hcompatible hno hn hm]

/-- Two vaults with one policy are triggered together, beside a third one; the
second is recovered to its own recovery output. -/
theorem Batch.compatible_recovers_own_second :
    ∃ (p : Policy) (v w u : Vault) (b c : Batch) (t : Trigger) (o : Outpoint)
      (recovery : Recovery) (vout : ℕ) (out : TxOut),
      Policy.ofParams {} = .ok p ∧ v.policy = p ∧ w.policy = p ∧ v.id = 1 ∧ w.id = 2 ∧
      build [v, w] [] none .none = .ok b ∧ build [u] [] none .none = .ok c ∧
      b.isCompatible = true ∧ Trigger.build [c, b] none .none = .ok t ∧ t.outpoint 1 = .ok o ∧
      Recovery.build { sources := [(w, o)], trigger := some t } = .ok recovery ∧
      (w.id, UInt32.ofNat vout) ∈ recovery.credited ∧ recovery.tx.outputs[vout]? = some out ∧
      out.scriptPubkey = w.policy.recoverySpk := by
  obtain ⟨p, hp⟩ := Policy.ofParams_isOk (show ({} : VaultParams).recoverySecret ≠ 0 by decide)
    (by decide)
  obtain ⟨v, f, hvid, hvp, hvf, -, hva, -⟩ := Vault.exists_funded 1 p .null 990000
  obtain ⟨w, g, hwid, hwp, hwf, -, hwa, -⟩ := Vault.exists_funded 2 p .null 990000
  obtain ⟨u, e, huid, -, huf, -, hua, -⟩ := Vault.exists_funded 3 p .null 990000
  have htotal : Vault.total [v, w] = .ok 1980000 := by
    refine Vault.total_eq_ok_iff.mpr ⟨[f, g], Vault.fundings_eq_ok_iff.mpr
      (.cons hvf (.cons hwf .nil)), ?_⟩
    simp only [Vault.worth, List.map_cons, List.map_nil, List.sum_cons, List.sum_nil, hva, hwa]
    rfl
  obtain ⟨b, hb⟩ := build_isOk [] none htotal (show _ = Except.ok 1980000 by decide)
  obtain ⟨c, hc⟩ := build_isOk [] none (Vault.total_singleton huf)
    (show _ = Except.ok e.amount by rw [hua]; decide)
  obtain ⟨first, total, hmade⟩ := build_eq_ok hb
  obtain ⟨first', total', hmade'⟩ := build_eq_ok hc
  have hfundings : Vault.fundings ([c, b].flatMap Batch.members) = .ok [e, f, g] := by
    simp only [List.flatMap_cons, List.flatMap_nil, hmade.members_eq, hmade'.members_eq]
    exact Vault.fundings_eq_ok_iff.mpr (.cons huf (.cons hvf (.cons hwf .nil)))
  obtain ⟨t, ht⟩ := Trigger.build_isOk .none hfundings (optionMapM_none_eq_ok_iff.mpr rfl)
  obtain ⟨_, _, _, htmade⟩ := Trigger.build_eq_ok ht
  obtain ⟨o, ho⟩ := htmade.exists_outpoint (k := 1) (b := b) rfl
  have hids : ([c, b].flatMap Batch.memberIds).Nodup := by
    simp only [List.flatMap_cons, List.flatMap_nil, Batch.memberIds, hmade.members_eq,
      hmade'.members_eq, List.map_cons, List.map_nil, hvid, hwid, huid]
    decide
  have hcompatible : b.isCompatible = true := by
    rw [isCompatible_iff_pairwise, hmade.members_eq]
    simp only [List.forall_mem_cons, List.not_mem_nil, hvp, hwp, false_implies, implies_true,
      and_self]
  -- both commitments hash one string
  have hno : ¬ Collision (recoveryMessages [v, w]) (recoveryMessages [v, w]) := by
    rintro ⟨x, hx, y, hy, hne, -⟩
    simp only [recoveryMessages, List.map_cons, List.map_nil, List.mem_cons, List.not_mem_nil,
      hvp, hwp, or_false, or_self] at hx hy
    exact hne (hx.trans hy.symm)
  obtain ⟨hbuilds, hcredits⟩ := compatible_recovers_own.2 [v, w] [] none .none b hb hcompatible hno
    [c, b] none .none t ht hids 1 o rfl ho w (by simp)
  obtain ⟨recovery, hrecovery⟩ :=
    hbuilds none none false (optionMapM_none_eq_ok_iff.mpr rfl)
  obtain ⟨vout, out, -, hcredited, hout, hspk, -⟩ := hcredits _ recovery rfl rfl
    (List.mem_singleton_self (w, o)) (by simp) hrecovery
  exact ⟨p, v, w, u, b, c, t, o, recovery, vout, out, hp, hvp, hwp, hvid, hwid, hb, hc, hcompatible,
    ht, ho, hrecovery, hcredited, hout, hspk⟩

end VaultCovenant
