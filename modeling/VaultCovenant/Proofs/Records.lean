import VaultCovenant.Proofs.Session

/-!
# What is on record for a vault

A vault is a variable of its owner, who may copy it, and who may try to lock
a coin in it any number of times. Whatever was tried, the three records of a
vault's coin are there together or not at all, and they name an output of the
vault that a transaction created.

Results:
* `Vault.lockInPlace_eq`: locking a coin in place sets all records or none.
* `Session.Coherent.operation`: every operation keeps the records true,
  whether it succeeds or not.
* `Trigger.BuiltFrom.revaulted_keeps`: a vault to which value returned has the
  policy of the member that stands for its batch.
* `Session.exists_returned`: value can be locked, triggered and collected.
* `Session.Operated.records_coherent`: the records in every session that
  operations lead to.
-/

namespace VaultCovenant

/-! ## Locking in place -/

namespace Vault

/-- Locks a coin and writes it into the vault: the check first, then one
record after the other. -/
def lockInPlace (coin : Coin) (fee : Option Sats) : EStateM VaultError Vault Transaction := do
  let v ← get
  let total ← MonadExcept.ofExcept (coin.spent.value.spend (fee.getD lockFee))
  let tx := v.lockTransaction coin total
  modify fun v => { v with amount := some total }
  modify fun v => { v with outpoint := some ⟨tx.txid, 0⟩ }
  modify fun v => { v with output := some ⟨total, v.policy.vaultSpk⟩ }
  return tx

/-- What is left in the vault is what locking returns, or the vault as it
was. -/
theorem lockInPlace_eq (v : Vault) (coin : Coin) (fee : Option Sats) :
    (lockInPlace coin fee).run v =
      match v.lock coin fee with
      | .ok (tx, w) => .ok tx w
      | .error e => .error e v := by
  unfold lockInPlace lock
  cases coin.spent.value.spend (fee.getD lockFee) with
  | ok total => rfl
  | error e => rfl

theorem lockInPlace_eq_error {v w : Vault} {coin : Coin} {fee : Option Sats} {e : VaultError}
    (h : (lockInPlace coin fee).run v = .error e w) :
    w = v ∧ e = .insufficientFunds (fee.getD lockFee) coin.spent.value := by
  rw [lockInPlace_eq] at h
  cases hlock : v.lock coin fee with
  | ok locked =>
    rw [hlock] at h
    cases h
  | error e' =>
    rw [hlock] at h
    cases h
    rcases bind_eq_error_iff.mp hlock with hspend | ⟨total, -, hrest⟩
    · refine ⟨rfl, ?_⟩
      unfold Sats.spend at hspend
      split at hspend
      · cases hspend
      · exact (Except.error.inj hspend).symm
    · cases hrest

end Vault

/-! ## Operations -/

namespace Session

/-- The session after a coin was tried to be locked in a vault: what is left
in the vault, and the transaction if there is one. -/
def afterLock (s : Session) : EStateM.Result VaultError Vault Transaction → Session
  | .ok tx w => ⟨w :: s.vaults, s.triggers, tx :: s.transactions⟩
  | .error _ w => { s with vaults := w :: s.vaults }

/-- What an owner may do next: a step, a copy of a vault, or an attempt to
lock a coin in a vault, whether it succeeds or not. -/
inductive Operation : Session → Session → Prop
  | step {s s' : Session} : Step s s' → Operation s s'
  | copy {s : Session} {v : Vault} : v ∈ s.vaults → Operation s { s with vaults := v :: s.vaults }
  | lock {s : Session} {v : Vault} (coin : Coin) (fee : Option Sats) : v ∈ s.vaults →
      Operation s (s.afterLock ((Vault.lockInPlace coin fee).run v))

/-- What some operations lead to. -/
def Operated (s : Session) : Prop := Relation.ReflTransGen Operation start s

variable {s s' : Session}

theorem Coherent.copy (h : s.Coherent) {v : Vault} (hv : v ∈ s.vaults) :
    Coherent { s with vaults := v :: s.vaults } where
  recorded := by
    intro w hw
    rcases List.mem_cons.mp hw with rfl | hw
    · exact h.recorded w hv
    · exact h.recorded w hw
  built := fun t ht => (h.built t ht).mono fun _ hw => List.mem_cons_of_mem _ hw
  sent := h.sent

/-- Every operation keeps the records true. An attempt to lock a coin either
is a step or leaves the vault as it was. -/
theorem Coherent.operation (h : s.Coherent) (ho : Operation s s') : s'.Coherent := by
  cases ho with
  | step hs => exact h.step hs
  | copy hv => exact h.copy hv
  | @lock v coin fee hv =>
    rw [Vault.lockInPlace_eq]
    cases hlock : v.lock coin fee with
    | ok locked => exact h.step (.lock hv hlock)
    | error e => exact h.copy hv

theorem Operated.coherent (h : s.Operated) : s.Coherent := by
  induction h with
  | refl => exact coherent_start
  | tail _ ho ih => exact ih.operation ho

theorem Reachable.operated (h : s.Reachable) : s.Operated := by
  induction h with
  | refl => exact .refl
  | tail _ hs ih => exact ih.tail (.step hs)

end Session

/-! ## Reading the records -/

/-- All records are there or none is. Those that are there name an output of
the vault that one of the transactions created. -/
theorem Vault.Recorded.all_or_none {transactions : List Transaction} {v : Vault}
    (h : v.Recorded transactions) :
    (v.outpoint = none ∧ v.output = none ∧ v.amount = none ∧ v.isInitialized = false ∧
      v.funding = .error (.notInitialized v.id)) ∨
    ∃ o out amount, v.outpoint = some o ∧ v.output = some out ∧ v.amount = some amount ∧
      v.isInitialized = true ∧ v.funding = .ok ⟨o, out, amount⟩ ∧ out.value = amount ∧
      out.scriptPubkey = v.policy.vaultSpk ∧ CreatedAt transactions o out := by
  cases h with
  | empty id policy => exact Or.inl ⟨rfl, rfl, rfl, rfl, rfl⟩
  | @funded _ f hf hout hcreated =>
    obtain ⟨ho, houtput, hamount⟩ := Vault.funding_eq_ok_iff.mp hf
    have hinitialized : v.isInitialized = true := by
      unfold Vault.isInitialized
      rw [ho]
      rfl
    exact Or.inr ⟨f.outpoint, f.output, f.amount, ho, houtput, hamount, hinitialized, hf,
      congrArg TxOut.value hout, congrArg TxOut.scriptPubkey hout, hcreated⟩

/-! ## Value that returned -/

namespace Trigger

variable {t : Trigger} {ids : ℕ → VaultId} {returned : List Vault}

/-- A vault to which value returned has the policy of the member that stands
for its batch, and the output that returned on record. -/
theorem revaulted_keeps (h : t.revaulted ids = .ok returned) :
    List.Forall₂ (fun (r : Batch × Outpoint × TxOut) w =>
      ∃ first, r.1.canonical = .ok first ∧ w.policy = first.policy ∧
        w.funding = .ok ⟨r.2.1, r.2.2, r.2.2.value⟩) t.returns returned := by
  have hall := mapM_eq_ok_iff.mp h
  refine forall₂_of_getElem? ?_ ?_
  · rw [← hall.length_eq, List.length_zipIdx]
  · intro i r hr
    obtain ⟨w, hw, hok⟩ := forall₂_getElem? hall (i := i) (x := (r, i))
      (by rw [List.getElem?_zipIdx, hr]; simp)
    obtain ⟨first, hcanonical, hok⟩ := bind_eq_ok_iff.mp hok
    cases hok
    exact ⟨_, hw, first, hcanonical, rfl, rfl⟩

/-- What a batch returns has an outpoint. -/
theorem Made.exists_return {batches : List Batch} {fee : Option Coin} {faults : FaultSet}
    {fundings : List Funding} {change : Option TxOut} {witnesses : List (List Bytes)}
    (h : Made batches fee faults fundings change witnesses t) {i : ℕ} {b : Batch} {out : TxOut}
    (hb : batches[i]? = some b) (hout : b.revaultOutput = some out) :
    ∃ o, (b, o, out) ∈ t.returns := by
  obtain ⟨o, ho⟩ : ∃ o, t.revaultOutpoint i = some o := by
    unfold Trigger.revaultOutpoint
    rw [h.positions_eq, getElem?_positionsFrom, hb, Option.map_some, hout]
    exact ⟨_, rfl⟩
  exact ⟨o, mem_returns.mpr ⟨i, by rw [h.batches_eq, hb], ho, hout⟩⟩

end Trigger

/-! ## A session in which value returned -/

/-- A coin can be locked, part of it triggered and the rest collected, in a
vault of its own. -/
theorem Session.exists_returned :
    ∃ (s : Session) (v w : Vault) (f g : Funding) (t : Trigger) (ids : ℕ → VaultId)
      (returned : List Vault),
      s.Reachable ∧ v ∈ s.vaults ∧ w ∈ s.vaults ∧ t ∈ s.triggers ∧
      v.funding = .ok f ∧ f.amount = 990000 ∧ w.funding = .ok g ∧ g.amount = 200000 ∧
      w.policy = v.policy ∧ t.revaulted ids = .ok returned ∧ w ∈ returned := by
  have hstart : start.Reachable := .refl
  obtain ⟨s, v, f, hs, hv, -, hf, hamount⟩ := hstart.lock 7 {}
    ⟨TxIn.spending Outpoint.null, ⟨1000000, Script.anyone⟩⟩ none (by decide) (by decide)
    (by decide)
  have hpart : 200000 ≤ f.amount := by
    rw [hamount]
    decide
  obtain ⟨b, t, hb, ht, hbuilt, hs'⟩ := hs.trigger hv hf hpart [⟨700000, Script.anyone⟩]
  obtain ⟨returned, hreturned⟩ := hbuilt.revaulted_isOk fun k => UInt64.ofNat (8 + k)
  have hs'' : Reachable _ := hs'.tail (.collect List.mem_cons_self hreturned)
  obtain ⟨first, total, hbmade⟩ := Batch.build_eq_ok hb
  obtain ⟨_, _, _, hmade⟩ := Trigger.build_eq_ok ht
  have hout : b.revaultOutput = some ⟨200000, first.policy.vaultSpk⟩ :=
    (Except.ok.inj hbmade.revault_eq).symm
  obtain ⟨o, hreturn⟩ := hmade.exists_return (i := 0) rfl hout
  obtain ⟨i, hi⟩ := List.mem_iff_getElem?.mp hreturn
  obtain ⟨w, hw, first', hcanonical, hpolicy, hwf⟩ :=
    forall₂_getElem? (Trigger.revaulted_keeps hreturned) hi
  have hwmem : w ∈ returned := List.mem_iff_getElem?.mpr ⟨i, hw⟩
  have hfirst : first' = v := by
    rw [hbmade.canonical] at hcanonical
    cases hcanonical
    exact (Option.some.inj hbmade.first_eq).symm
  exact ⟨_, v, w, f, _, t, _, returned, hs'', List.mem_append_right _ hv,
    List.mem_append_left _ hwmem, List.mem_cons_self, hf, hamount, hwf, rfl, hfirst ▸ hpolicy,
    hreturned, hwmem⟩

/-! ## Whatever was done -/

/-- In every session that operations lead to, the records of each vault are
all there or all missing. Those that are there give the vault's own output
with its amount, which a transaction of the session created at the outpoint
on record. An attempt to lock a coin that fails leaves the vault as it was,
and a vault to which value returned keeps the policy of the member that stands
for its batch. -/
theorem Session.Operated.records_coherent {s : Session} (h : s.Operated) :
    (∀ v ∈ s.vaults,
      (v.outpoint = none ∧ v.output = none ∧ v.amount = none ∧ v.isInitialized = false ∧
        v.funding = .error (.notInitialized v.id)) ∨
      ∃ o out amount, v.outpoint = some o ∧ v.output = some out ∧ v.amount = some amount ∧
        v.isInitialized = true ∧ v.funding = .ok ⟨o, out, amount⟩ ∧ out.value = amount ∧
        out.scriptPubkey = v.policy.vaultSpk ∧ CreatedAt s.transactions o out) ∧
    (∀ v ∈ s.vaults, ∀ coin fee e w, (Vault.lockInPlace coin fee).run v = .error e w →
      w = v ∧ e = .insufficientFunds (fee.getD Vault.lockFee) coin.spent.value) ∧
    ∀ t ∈ s.triggers, ∀ ids returned, t.revaulted ids = .ok returned →
      List.Forall₂ (fun (r : Batch × Outpoint × TxOut) w =>
        ∃ first, r.1.canonical = .ok first ∧ w.policy = first.policy ∧
          w.funding = .ok ⟨r.2.1, r.2.2, r.2.2.value⟩) t.returns returned := by
  have hcoherent := h.coherent
  refine ⟨?_, ?_, ?_⟩
  · intro v hv
    exact (hcoherent.recorded v hv).all_or_none
  · intro v _ coin fee e w hrun
    exact Vault.lockInPlace_eq_error hrun
  · intro t _ ids returned hreturned
    exact Trigger.revaulted_keeps hreturned

/-- A coin was locked, part of it triggered and the rest collected; then more
than it holds was to be kept back from another coin. The vault to which value
returned has its own output on record, and the attempt changed nothing. -/
theorem Session.Operated.records_coherent_after_return :
    ∃ (s : Session) (v w : Vault) (o : Outpoint) (out : TxOut),
      s.Operated ∧ v ∈ s.vaults ∧ w ∈ s.vaults ∧ w.policy = v.policy ∧
      w.isInitialized = true ∧ w.outpoint = some o ∧ w.output = some out ∧
      w.amount = some 200000 ∧ out = ⟨200000, v.policy.vaultSpk⟩ ∧
      CreatedAt s.transactions o out ∧
      ∃ u, (Vault.lockInPlace ⟨TxIn.spending Outpoint.null, ⟨100, Script.anyone⟩⟩ none).run v =
        .error (.insufficientFunds 10000 100) u ∧ u = v := by
  obtain ⟨s, v, w, f, g, t, ids, returned, hs, hv, hw, ht, -, -, hg, hamount, hpolicy, -, -⟩ :=
    exists_returned
  obtain ⟨hrecords, hfailures, -⟩ := hs.operated.records_coherent
  obtain ⟨hgo, hgout, hgamount⟩ := Vault.funding_eq_ok_iff.mp hg
  rcases hrecords w hw with ⟨hnone, -⟩ | ⟨o, out, amount, ho, hout, ha, hi, -, hvalue, hspk, hc⟩
  · rw [hgo] at hnone
    cases hnone
  · rw [hgamount, hamount] at ha
    cases ha
    refine ⟨s, v, w, o, out, hs.operated, hv, hw, hpolicy, hi, ho, hout, ?_, ?_, hc, ?_⟩
    · rw [hgamount, hamount]
    · rw [← hvalue, ← hpolicy, ← hspk]
    · have hrun : (Vault.lockInPlace ⟨TxIn.spending Outpoint.null, ⟨100, Script.anyone⟩⟩ none).run
          v = .error (.insufficientFunds 10000 100) v := rfl
      exact ⟨v, hrun, (hfailures v hv _ none _ v hrun).1⟩

end VaultCovenant
