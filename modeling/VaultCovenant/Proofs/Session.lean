import Mathlib.Logic.Relation
import VaultCovenant.Proofs.Trigger.Build

/-!
# Vaults over many triggers

A session creates vaults, locks coins in them, triggers them in batches and
collects what returns to the vaults, in any order and any number of times.
Vaults that were collected are vaults like the others, so value may return
through any number of triggers.

Results:
* `Session.Coherent.step`: every step keeps the records true.
* `Session.Reachable.coherent`: in every session that can be reached the
  record of a vault names an output of a transaction of the session, and that
  output is the vault's own.
* `Trigger.BuiltFrom.revaulted_isOk`: what returns can always be collected.
* `Session.Reachable.lock`, `Session.Reachable.trigger`: vaults can be funded,
  and triggered alone, in every session that can be reached.
-/

namespace VaultCovenant

/-! ## Records -/

/-- The output at an outpoint, as one of the transactions created it. -/
def CreatedAt (transactions : List Transaction) (o : Outpoint) (out : TxOut) : Prop :=
  ∃ tx ∈ transactions, tx.txid = o.txid ∧ tx.outputs[o.vout.toNat]? = some out

theorem CreatedAt.mono {old new : List Transaction} (h : ∀ tx ∈ old, tx ∈ new) {o : Outpoint}
    {out : TxOut} (hc : CreatedAt old o out) : CreatedAt new o out := by
  obtain ⟨tx, htx, hid, hout⟩ := hc
  exact ⟨tx, h tx htx, hid, hout⟩

/-- Nothing is on record, or an output that pays the vault its amount and that
one of the transactions created. -/
inductive Vault.Recorded (transactions : List Transaction) : Vault → Prop
  | empty (id : VaultId) (policy : Policy) : Recorded transactions (Vault.empty id policy)
  | funded {v : Vault} {f : Funding} : v.funding = .ok f →
      f.output = ⟨f.amount, v.policy.vaultSpk⟩ → CreatedAt transactions f.outpoint f.output →
      Recorded transactions v

namespace Vault.Recorded

variable {transactions : List Transaction} {v : Vault}

theorem mono {new : List Transaction} (h : ∀ tx ∈ transactions, tx ∈ new)
    (hv : Recorded transactions v) : Recorded new v := by
  cases hv with
  | empty id policy => exact .empty id policy
  | funded hf hout hc => exact .funded hf hout (hc.mono h)

theorem output (h : Recorded transactions v) {f : Funding} (hf : v.funding = .ok f) :
    f.output = ⟨f.amount, v.policy.vaultSpk⟩ ∧ CreatedAt transactions f.outpoint f.output := by
  cases h with
  | empty id policy => cases hf
  | funded hf' hout hc =>
    rw [hf] at hf'
    cases hf'
    exact ⟨hout, hc⟩

end Vault.Recorded

/-! ## Sessions -/

/-- A batch of some of the vaults, whatever its targets, its revault and its
faults. -/
def Batch.BuiltFrom (vaults : List Vault) (b : Batch) : Prop :=
  ∃ members targets revault faults,
    (∀ v ∈ members, v ∈ vaults) ∧ build members targets revault faults = .ok b

/-- A trigger of batches of some of the vaults, whatever pays for it and
whatever its faults, with outputs in reach of a 32-bit position. -/
def Trigger.BuiltFrom (vaults : List Vault) (t : Trigger) : Prop :=
  ∃ batches fee faults,
    (∀ b ∈ batches, b.BuiltFrom vaults) ∧ build batches fee faults = .ok t ∧
      t.tx.outputs.length < outputLimit

theorem Batch.BuiltFrom.made {vaults : List Vault} {b : Batch} (hb : b.BuiltFrom vaults) :
    ∃ members targets revault faults first total, (∀ v ∈ members, v ∈ vaults) ∧
      Made members targets revault faults first total b := by
  obtain ⟨members, targets, revault, faults, hmembers, hbuild⟩ := hb
  obtain ⟨first, total, hmade⟩ := build_eq_ok hbuild
  exact ⟨members, targets, revault, faults, first, total, hmembers, hmade⟩

theorem Trigger.BuiltFrom.made {vaults : List Vault} {t : Trigger} (ht : t.BuiltFrom vaults) :
    ∃ batches fee faults fundings change witnesses, (∀ b ∈ batches, b.BuiltFrom vaults) ∧
      t.tx.outputs.length < outputLimit ∧
      Made batches fee faults fundings change witnesses t := by
  obtain ⟨batches, fee, faults, hbatches, hbuild, hlen⟩ := ht
  obtain ⟨fundings, change, witnesses, hmade⟩ := build_eq_ok hbuild
  exact ⟨batches, fee, faults, fundings, change, witnesses, hbatches, hlen, hmade⟩

theorem Batch.BuiltFrom.mono {old new : List Vault} (h : ∀ v ∈ old, v ∈ new) {b : Batch}
    (hb : b.BuiltFrom old) : b.BuiltFrom new := by
  obtain ⟨members, targets, revault, faults, hmembers, hbuild⟩ := hb
  exact ⟨members, targets, revault, faults, fun v hv => h v (hmembers v hv), hbuild⟩

theorem Batch.BuiltFrom.member {vaults : List Vault} {b : Batch} (hb : b.BuiltFrom vaults)
    {v : Vault} (hv : v ∈ b.members) : v ∈ vaults := by
  obtain ⟨members, _, _, _, _, _, hmembers, hmade⟩ := hb.made
  rw [hmade.members_eq] at hv
  exact hmembers v hv

theorem Trigger.BuiltFrom.mono {old new : List Vault} (h : ∀ v ∈ old, v ∈ new) {t : Trigger}
    (ht : t.BuiltFrom old) : t.BuiltFrom new := by
  obtain ⟨batches, fee, faults, hbatches, hbuild, hlen⟩ := ht
  exact ⟨batches, fee, faults, fun b hb => (hbatches b hb).mono h, hbuild, hlen⟩

/-- The vaults, the triggers and the transactions there are. -/
structure Session where
  vaults : List Vault
  triggers : List Trigger
  transactions : List Transaction

namespace Session

/-- The session in which nothing was done yet. -/
def start : Session := ⟨[], [], []⟩

/-- What may be done next. A vault that is locked stays on the list without
its coin, as its owner may have kept a copy. -/
inductive Step : Session → Session → Prop
  | create {s : Session} {id : VaultId} {params : VaultParams} {v : Vault} :
      Vault.ofParams id params = .ok v → Step s { s with vaults := v :: s.vaults }
  | lock {s : Session} {v w : Vault} {coin : Coin} {fee : Option Sats} {tx : Transaction} :
      v ∈ s.vaults → v.lock coin fee = .ok (tx, w) →
      Step s ⟨w :: s.vaults, s.triggers, tx :: s.transactions⟩
  | trigger {s : Session} {t : Trigger} : t.BuiltFrom s.vaults →
      Step s ⟨s.vaults, t :: s.triggers, t.tx :: s.transactions⟩
  | collect {s : Session} {t : Trigger} {ids : ℕ → VaultId} {returned : List Vault} :
      t ∈ s.triggers → t.revaulted ids = .ok returned →
      Step s { s with vaults := returned ++ s.vaults }

/-- What some steps lead to. -/
def Reachable (s : Session) : Prop := Relation.ReflTransGen Step start s

/-- Every record is true, and every trigger is among the transactions. -/
structure Coherent (s : Session) : Prop where
  recorded : ∀ v ∈ s.vaults, v.Recorded s.transactions
  built : ∀ t ∈ s.triggers, t.BuiltFrom s.vaults
  sent : ∀ t ∈ s.triggers, t.tx ∈ s.transactions

theorem coherent_start : start.Coherent where
  recorded := by simp [start]
  built := by simp [start]
  sent := by simp [start]

end Session

/-! ## What a step adds -/

theorem Vault.ofParams_recorded {transactions : List Transaction} {id : VaultId}
    {params : VaultParams} {v : Vault} (h : ofParams id params = .ok v) :
    v.Recorded transactions := by
  obtain ⟨policy, -, rfl⟩ := map_eq_ok_iff.mp h
  exact .empty id policy

theorem Vault.lock_recorded {v w : Vault} {coin : Coin} {fee : Option Sats} {tx : Transaction}
    (h : v.lock coin fee = .ok (tx, w)) : w.Recorded [tx] := by
  obtain ⟨total, -, h⟩ := bind_eq_ok_iff.mp h
  cases h
  refine .funded (funding_withFunding _ _) rfl ⟨_, List.mem_singleton.mpr rfl, rfl, ?_⟩
  rfl

namespace Trigger

variable {vaults : List Vault} {t : Trigger} {i : ℕ} {b : Batch} {o : Outpoint}

theorem BuiltFrom.batch (h : t.BuiltFrom vaults) (hb : t.batches[i]? = some b) :
    b.BuiltFrom vaults := by
  obtain ⟨_, _, _, _, _, _, hbatches, -, hmade⟩ := h.made
  rw [hmade.batches_eq] at hb
  exact hbatches b (List.mem_iff_getElem?.mpr ⟨i, hb⟩)

theorem BuiltFrom.outpoint (h : t.BuiltFrom vaults) (hb : t.batches[i]? = some b)
    (ho : t.outpoint i = .ok o) :
    o.txid = t.tx.txid ∧ t.tx.outputs[o.vout.toNat]? = some b.triggerOutput := by
  obtain ⟨_, _, _, _, _, _, -, hlen, hmade⟩ := h.made
  exact hmade.outpoint hlen hb ho

theorem BuiltFrom.createdAt_returns (h : t.BuiltFrom vaults) {out : TxOut}
    (hreturn : (b, o, out) ∈ t.returns) : CreatedAt [t.tx] o out := by
  obtain ⟨i, hb, ho, hrevault⟩ := mem_returns.mp hreturn
  obtain ⟨_, _, _, _, _, _, -, hlen, hmade⟩ := h.made
  obtain ⟨hid, out', hrevault', hout⟩ := hmade.revaultOutpoint hlen hb ho
  rw [hrevault] at hrevault'
  cases hrevault'
  exact ⟨t.tx, List.mem_singleton.mpr rfl, hid.symm, hout⟩

/-- What returned can always be collected. -/
theorem BuiltFrom.revaulted_isOk (h : t.BuiltFrom vaults) (ids : ℕ → VaultId) :
    ∃ returned, t.revaulted ids = .ok returned := by
  refine mapM_isOk ?_
  rintro ⟨⟨b, o, out⟩, k⟩ hmem
  have hreturn : (b, o, out) ∈ t.returns :=
    List.mem_iff_getElem?.mpr ⟨k, List.mem_zipIdx_iff_getElem?.mp hmem⟩
  obtain ⟨i, hb, -, -⟩ := mem_returns.mp hreturn
  obtain ⟨_, _, _, _, first, _, -, hmade⟩ := (h.batch hb).made
  exact ⟨_, bind_eq_ok_iff.mpr ⟨first, hmade.canonical, rfl⟩⟩

theorem revaulted_recorded {ids : ℕ → VaultId} {returned : List Vault} (h : t.BuiltFrom vaults)
    (hreturned : t.revaulted ids = .ok returned) {v : Vault} (hv : v ∈ returned) :
    v.Recorded [t.tx] := by
  obtain ⟨k, hk⟩ := List.mem_iff_getElem?.mp hv
  have hall := (mapM_eq_ok_iff.mp hreturned).flip
  obtain ⟨⟨⟨b, o, out⟩, k'⟩, hmem, hok⟩ := forall₂_getElem? hall hk
  obtain ⟨first, hcanonical, hok⟩ := bind_eq_ok_iff.mp hok
  cases hok
  have hreturn : (b, o, out) ∈ t.returns := by
    have := List.mem_zipIdx_iff_getElem?.mp (List.mem_iff_getElem?.mpr ⟨k, hmem⟩)
    exact List.mem_iff_getElem?.mpr ⟨k', this⟩
  obtain ⟨i, hb, -, hrevault⟩ := mem_returns.mp hreturn
  obtain ⟨_, _, _, _, _, _, -, hmade⟩ := (h.batch hb).made
  rw [hmade.canonical] at hcanonical
  cases hcanonical
  have hspk := hmade.scriptPubkey_revaultOutput hrevault
  refine .funded (f := ⟨o, out, out.value⟩) rfl ?_ (h.createdAt_returns hreturn)
  show out = ⟨out.value, first.policy.vaultSpk⟩
  rw [← hspk]

end Trigger

/-! ## Every reachable session -/

namespace Session

variable {s s' : Session}

/-- Every step keeps the records true. -/
theorem Coherent.step (h : s.Coherent) (hs : Step s s') : s'.Coherent := by
  cases hs with
  | create hv =>
    refine ⟨?_, fun t ht => (h.built t ht).mono (by simp +contextual), h.sent⟩
    intro w hw
    rcases List.mem_cons.mp hw with rfl | hw
    · exact Vault.ofParams_recorded hv
    · exact h.recorded w hw
  | lock hv hlock =>
    refine ⟨?_, fun t ht => (h.built t ht).mono (by simp +contextual), fun t ht =>
      List.mem_cons_of_mem _ (h.sent t ht)⟩
    intro w hw
    rcases List.mem_cons.mp hw with rfl | hw
    · exact (Vault.lock_recorded hlock).mono (by simp)
    · exact (h.recorded w hw).mono (by simp +contextual)
  | trigger ht =>
    refine ⟨fun v hv => (h.recorded v hv).mono (by simp +contextual), ?_, ?_⟩
    · intro t ht'
      rcases List.mem_cons.mp ht' with rfl | ht'
      · exact ht
      · exact h.built t ht'
    · intro t ht'
      rcases List.mem_cons.mp ht' with rfl | ht'
      · exact List.mem_cons_self
      · exact List.mem_cons_of_mem _ (h.sent t ht')
  | collect ht hreturned =>
    refine ⟨?_, fun t ht => (h.built t ht).mono (by simp +contextual), h.sent⟩
    intro w hw
    rcases List.mem_append.mp hw with hw | hw
    · refine (Trigger.revaulted_recorded (h.built _ ht) hreturned hw).mono ?_
      intro tx htx
      rw [List.mem_singleton.mp htx]
      exact h.sent _ ht
    · exact h.recorded w hw

theorem Reachable.coherent (h : s.Reachable) : s.Coherent := by
  induction h with
  | refl => exact coherent_start
  | tail _ hstep ih => exact ih.step hstep

/-! ## What can always be done next -/

/-- A vault can be created and a coin locked in it. -/
theorem Reachable.lock (h : s.Reachable) (id : VaultId) (params : VaultParams) (coin : Coin)
    (fee : Option Sats) (hrecovery : params.recoverySecret ≠ 0)
    (htrigger : params.triggerSecret ≠ 0) (hfee : fee.getD Vault.lockFee ≤ coin.spent.value) :
    ∃ (s' : Session) (v : Vault) (f : Funding), s'.Reachable ∧ v ∈ s'.vaults ∧ v.id = id ∧
      v.funding = .ok f ∧ f.amount = coin.spent.value - fee.getD Vault.lockFee := by
  obtain ⟨policy, hpolicy⟩ := Policy.ofParams_isOk hrecovery htrigger
  have hspend : coin.spent.value.spend (fee.getD Vault.lockFee) =
      .ok (coin.spent.value - fee.getD Vault.lockFee) := if_pos hfee
  have hcreate : Vault.ofParams id params = .ok (.empty id policy) :=
    map_eq_ok_iff.mpr ⟨policy, hpolicy, rfl⟩
  have hlock : (Vault.empty id policy).lock coin fee = .ok _ :=
    bind_eq_ok_iff.mpr ⟨_, hspend, rfl⟩
  exact ⟨_, _, _, (h.tail (.create hcreate)).tail (.lock List.mem_cons_self hlock),
    List.mem_cons_self, rfl, Vault.funding_withFunding _ _, rfl⟩

/-- A vault with a coin can be triggered alone, in any part. -/
theorem Reachable.trigger (h : s.Reachable) {v : Vault} {f : Funding} (hv : v ∈ s.vaults)
    (hf : v.funding = .ok f) {part : Sats} (hpart : part ≤ f.amount) (targets : List TxOut) :
    ∃ b t, Batch.build [v] targets (some part) .none = .ok b ∧
      Trigger.build [b] none .none = .ok t ∧ t.BuiltFrom s.vaults ∧
      Reachable ⟨s.vaults, t :: s.triggers, t.tx :: s.transactions⟩ := by
  obtain ⟨b, hb⟩ := Batch.build_isOk targets (some part) (Vault.total_singleton hf) (if_pos hpart)
  obtain ⟨t, ht⟩ := Trigger.build_alone_isOk .none hb
  have hbuilt : t.BuiltFrom s.vaults := by
    refine ⟨[b], none, .none, ?_, ht, Trigger.length_outputs_singleton ht⟩
    intro b' hb'
    rw [List.mem_singleton.mp hb']
    exact ⟨[v], targets, some part, .none, by simpa using hv, hb⟩
  exact ⟨b, t, hb, ht, hbuilt, h.tail (.trigger hbuilt)⟩

end Session

end VaultCovenant
