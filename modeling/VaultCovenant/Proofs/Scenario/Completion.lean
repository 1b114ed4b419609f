import VaultCovenant.Proofs.Faults.Recovery
import VaultCovenant.Proofs.Plan
import VaultCovenant.Proofs.Recovery.Several
import VaultCovenant.Proofs.Scenario.Builders
import VaultCovenant.Proofs.Scenario.Courses
import VaultCovenant.Proofs.Scenario.Delivery
import VaultCovenant.Proofs.Scenario.OutputKeys

/-!
# Scenarios come to their end

On a node whose coins suffice every scenario can build all that it asks for.
What then keeps it from its end is the node's doing, or the lifecycle of a
vault.

Results:
* `Delivers.triggerOne`, `Delivers.buildTrigger`: the parts that scenarios
  share.
* `Recovery.mixed_isOk`: the batch recovery can be built, and has three outputs
  if no two of its transactions have one id.
* `Delivers.course`: every scenario.
-/

namespace VaultCovenant

open Run

variable {α β : Type} {b : Behaviour} {ids : ℕ → VaultId} {authorization : Authorization}
  {past done : History}

/-! ## Vaults of a scenario -/

namespace Secured

variable {params : VaultParams} {calls : History} {v : Vault} {coin : Coin} {amount : Sats}

theorem holds (h : Secured b params calls v coin amount) (hb : b.Funds) :
    v.Holds 100000000 2100000000000000 := ⟨_, h.funding, h.bounds hb⟩

theorem delay (h : Secured b params calls v coin amount) :
    v.policy.spendDelay = params.spendDelay := (Policy.ofParams_eq_ok h.policy).1

end Secured

/-- The sum of a few vaults, each with what a coin of the node's is worth. -/
theorem Vault.total_isOk_of_few {vs : List Vault} {n : ℕ} (hlen : vs.length = n) (hn : n ≤ 5)
    (h : ∀ v ∈ vs, v.Holds 100000000 2100000000000000) :
    ∃ sum, total vs = .ok sum ∧ n * 100000000 ≤ sum.toNat ∧ sum.toNat + 1 < Sats.bound := by
  subst hlen
  have hfew : vs.length * 2100000000000000 < Sats.bound := by
    unfold Sats.bound
    omega
  obtain ⟨sum, hsum, hleast, hmost⟩ := total_isOk h hfew
  refine ⟨sum, hsum, hleast, ?_⟩
  unfold Sats.bound
  omega

theorem RecoveryRequest.vaulted_of_funding {v : Vault} {f : Funding} (hf : v.funding = .ok f)
    (r : RecoveryRequest) : r.vaulted v = .ok (r.spend v f.outpoint) :=
  bind_eq_ok_iff.mpr ⟨f, hf, rfl⟩

/-! ## Faults that are shown -/

namespace Delivers

theorem showTriggerFaults (faults : List Fault) (targets : List TxOut) {revault : Option Sats}
    {first : Vault} {rest : List Vault} {total : Sats}
    (htotal : Vault.total (first :: rest) = .ok total)
    (hdelay : first.policy.spendDelay ≠ Int64.maxValue) (hrevault : revault.getD 0 ≤ total)
    (hbound : total.toNat + 1 < Sats.bound) :
    Delivers b past ((Runner.on b ids authorization).showTriggerFaults faults (first :: rest)
      targets revault) done fun _ _ => True := by
  refine forM fun fault _ done => ?_
  obtain ⟨tx, htx⟩ := triggerWithFault_isOk targets fault htotal hdelay hrevault hbound
  exact ofFailure htx (expectReject _ _ _)

theorem showRecoveryFaults (faults : List Fault) {request : RecoveryRequest} {recovery : Recovery}
    (h : Recovery.build request = .ok recovery) :
    Delivers b past ((Runner.on b ids authorization).showRecoveryFaults faults request) done
      fun _ _ => True := by
  refine forM fun fault _ done => ?_
  obtain ⟨recovery', h'⟩ := Recovery.build_faults_isOk (r := request) (.only fault) h
  exact ofFailure h' (expectReject _ _ _)

theorem showWithdrawalFaults (faults : List Fault) (o : Outpoint) {members : List Vault}
    {targets : List TxOut} {revault : Option Sats} {batch : Batch}
    (hbatch : Batch.build members targets revault .none = .ok batch) :
    Delivers b past ((Runner.on b ids authorization).showWithdrawalFaults faults o batch) done
      fun _ _ => True := by
  obtain ⟨first, total, hmade⟩ := Batch.build_eq_ok hbatch
  refine forM fun fault _ done => ?_
  obtain ⟨tx, htx⟩ := Withdrawal.build_isOk o (.only fault) hmade
  exact ofExcept htx (expectReject _ _ _)

/-- Vaults with a sum are put together and triggered. -/
theorem buildTrigger {post : β → History → Prop} {g : Batch × Trigger → Run Calling β}
    {first : Vault} {rest : List Vault} {targets : List TxOut} {revault : Option Sats}
    {total : Sats} (htotal : Vault.total (first :: rest) = .ok total)
    (hrevault : revault.getD 0 ≤ total)
    (hg : ∀ batch t, Batch.build (first :: rest) targets revault .none = .ok batch →
      Trigger.build [batch] none .none = .ok t → Delivers b past (g (batch, t)) done post) :
    Delivers b past (Runner.buildTrigger (first :: rest) targets revault >>= g) done post := by
  obtain ⟨batch, hbatch⟩ := Batch.build_isOk targets revault htotal (if_pos hrevault)
  obtain ⟨t, ht⟩ := Trigger.build_alone_isOk .none hbatch
  rw [Runner.buildTrigger_bind]
  exact ofFailure hbatch (ofExcept ht (hg batch t hbatch ht))

/-! ## One vault -/

/-- A single vault can be recovered where its coin is. -/
theorem vaulted_isOk {v : Vault} {f : Funding} (hf : v.funding = .ok f) :
    RecoveryRequest.vaulted {} v = .ok ⟨[(v, f.outpoint)], none, none, false, .none⟩ ∧
      ∃ recovery, Recovery.build ⟨[(v, f.outpoint)], none, none, false, .none⟩ = .ok recovery := by
  obtain ⟨recovery, hrecovery, -⟩ := Plan.vaultRecovery_moves hf
  exact ⟨RecoveryRequest.vaulted_of_funding hf {}, recovery, hrecovery⟩

/-- A coin is locked in a vault with the usual keys. -/
theorem lockUsual (hb : b.Funds) (delay : Int64) (authorization' : Authorization) :
    let params : VaultParams := { spendDelay := delay, authorization := authorization' }
    Delivers b past ((Runner.on b ids authorization).lockCoin params) done
      fun v done' => ∃ coin amount, Secured b params done' v coin amount :=
  lockCoin hb (show (2 : UInt64) ≠ 0 by decide) (show (3 : UInt64) ≠ 0 by decide)

theorem sweepFromVault (hb : b.Funds) :
    Delivers b past (Runner.on b ids authorization).sweepFromVault done fun _ _ => True := by
  unfold Runner.sweepFromVault
  refine (lockUsual hb _ _).bind fun v _ ⟨coin, amount, hv⟩ => ?_
  refine (mine 1).andThen fun _ _ => ?_
  obtain ⟨hrequest, recovery, hrecovery⟩ := vaulted_isOk hv.funding
  refine ofExcept hrequest ((showRecoveryFaults _ hrecovery).andThen fun _ _ => ?_)
  exact ofFailure hrecovery ((confirm _ _).andThen fun _ _ => transition _ _)

theorem triggerOne (hb : b.Funds) :
    Delivers b past (Runner.on b ids authorization).triggerOne done fun (v, batch, t, _) _ =>
      (∃ targets, Batch.build [v] targets none .none = .ok batch) ∧
        Trigger.build [batch] none .none = .ok t := by
  unfold Runner.triggerOne
  refine (lockUsual hb _ _).bind fun v _ ⟨coin, amount, hv⟩ => ?_
  refine (mine 1).andThen fun _ _ => ofExcept hv.funding ?_
  obtain ⟨targets, htargets⟩ :=
    withdrawalTargets_isOk amount (show withdrawalParts.toNat ≤ _ by decide)
  refine ofFailure htargets ?_
  have hdelay : v.policy.spendDelay ≠ Int64.maxValue := by
    rw [hv.delay]
    exact (by decide : (10 : Int64) ≠ Int64.maxValue)
  have hbound : amount.toNat + 1 < Sats.bound := by
    have hmost := (hv.bounds hb).2
    unfold Sats.bound
    omega
  have htotal := Vault.total_singleton hv.funding
  refine (showTriggerFaults _ targets htotal hdelay UInt64.zero_le hbound).andThen fun _ _ => ?_
  refine buildTrigger htotal UInt64.zero_le fun batch t hbatch ht => ?_
  refine (expectAccept _ _).andThen fun txid _ => (transition _ _).andThen fun _ _ => pure ?_
  exact ⟨⟨targets, hbatch⟩, ht⟩

theorem sweepFromTrigger (hb : b.Funds) :
    Delivers b past (Runner.on b ids authorization).sweepFromTrigger done fun _ _ => True := by
  unfold Runner.sweepFromTrigger
  refine (triggerOne hb).bind ?_
  rintro ⟨v, batch, t, txid⟩ _ ⟨⟨targets, hbatch⟩, ht⟩
  obtain ⟨o, ho⟩ := Trigger.exists_outpoint_singleton ht
  refine ofExcept ho ?_
  have hids : ([batch].flatMap Batch.memberIds).Nodup := by
    rw [List.flatMap_singleton, Batch.memberIds_of_build hbatch]
    exact List.nodup_singleton _
  have hbuild (faults : FaultSet) : ∃ recovery,
      Recovery.build ⟨[(v, o)], some t, none, false, faults⟩ = .ok recovery :=
    Recovery.build_triggered_isOk hbatch ht hids (k := 0) rfl ho (List.mem_singleton_self v) rfl
      false faults
  obtain ⟨short, hshort⟩ := hbuild (.only .recoveryOutputTooLow)
  obtain ⟨recovery, hrecovery⟩ := hbuild .none
  refine ofFailure hshort ((expectReject _ _ _).andThen fun _ _ => ?_)
  refine (showRecoveryFaults _ hrecovery).andThen fun _ _ => ?_
  exact ofFailure hrecovery ((confirm _ _).andThen fun _ _ => transition _ _)

theorem singleVault (hb : b.Funds) :
    Delivers b past (Runner.on b ids authorization).singleVault done fun _ _ => True := by
  unfold Runner.singleVault
  refine (triggerOne hb).bind ?_
  rintro ⟨v, batch, t, txid⟩ _ ⟨⟨targets, hbatch⟩, ht⟩
  obtain ⟨o, ho⟩ := Trigger.exists_outpoint_singleton ht
  obtain ⟨first, total, hmade⟩ := Batch.build_eq_ok hbatch
  obtain ⟨withdrawal, hwithdrawal⟩ := Withdrawal.build_isOk o .none hmade
  refine ofExcept ho (ofExcept hwithdrawal ?_)
  refine (expectReject _ _ _).andThen fun _ _ => (bumpFee _).andThen fun _ _ => ?_
  refine (mine _).andThen fun _ _ => (expectReject _ _ _).andThen fun _ _ => ?_
  refine (mine 1).andThen fun _ _ => (showWithdrawalFaults _ o hbatch).andThen fun _ _ => ?_
  exact (confirm _ _).andThen fun _ _ => transition _ _

/-! ## Vaults that a validator has to treat with care -/

theorem negativeDelay (hb : b.Funds) :
    Delivers b past (Runner.on b ids authorization).negativeDelay done fun _ _ => True := by
  unfold Runner.negativeDelay
  refine (lockUsual hb _ _).bind fun v _ ⟨coin, amount, hv⟩ => ?_
  have htotal := Vault.total_singleton hv.funding
  obtain ⟨targets, htargets⟩ :=
    withdrawalTargets_isOk amount (show (1 : UInt64).toNat ≤ _ by decide)
  refine (mine 1).andThen fun _ _ => ofFailure htotal (ofFailure htargets ?_)
  refine buildTrigger htotal UInt64.zero_le fun batch t _ _ => ?_
  refine (expectReject _ _ _).andThen fun _ _ => ?_
  obtain ⟨hrequest, recovery, hrecovery⟩ := vaulted_isOk hv.funding
  refine ofExcept hrequest (ofFailure hrecovery ?_)
  exact (confirm _ _).andThen fun _ _ => transition _ _

theorem reenteringAuthorization_isOk :
    ∃ authorization, Runner.reenteringAuthorization = .ok authorization := by
  have hpolicy := Policy.ofParams_usual 10
  obtain ⟨secret, hsecret⟩ := SecretKey.ofScalar_isOk (show (2 : UInt64) ≠ 0 by decide)
  exact ⟨_, bind_eq_ok_iff.mpr ⟨_, hpolicy, bind_eq_ok_iff.mpr ⟨secret, hsecret, rfl⟩⟩⟩

theorem recursiveRecoveryWitness (hb : b.Funds) :
    Delivers b past (Runner.on b ids authorization).recursiveRecoveryWitness done
      fun _ _ => True := by
  unfold Runner.recursiveRecoveryWitness
  obtain ⟨reentering, hreentering⟩ := reenteringAuthorization_isOk
  refine ofExcept hreentering ?_
  refine (lockUsual hb _ _).bind fun v _ ⟨coin, amount, hv⟩ => ?_
  obtain ⟨hrequest, recovery, hrecovery⟩ := vaulted_isOk hv.funding
  refine (mine 1).andThen fun _ _ => ofExcept hrequest (ofFailure hrecovery ?_)
  exact expectReject _ _ _

/-! ## Several vaults -/

theorem batchTrigger (hb : b.Funds) :
    Delivers b past (Runner.on b ids authorization).batchTrigger done fun _ _ => True := by
  unfold Runner.batchTrigger
  refine (lockCoins hb (by decide) (by decide)).bind fun vaults _ hvaults => ?_
  have hholds : ∀ v ∈ vaults, v.Holds 100000000 2100000000000000 := by
    intro v hv
    obtain ⟨_, -, coin, amount, hsecured⟩ := forall₂_mem_right hvaults hv
    exact hsecured.holds hb
  obtain _ | ⟨-, _ | ⟨-, _ | ⟨-, _ | ⟨-, _ | ⟨-, _ | -⟩⟩⟩⟩⟩ := hvaults
  rename_i v₁ v₂ v₃ v₄ v₅
  have hsum (extra : List Vault) (hextra : extra.Sublist [v₄, v₅]) :
      ∃ sum, Vault.total (v₁ :: v₂ :: v₃ :: extra) = .ok sum := by
    have hlen := hextra.length_le
    simp only [List.length_cons, List.length_nil] at hlen
    have hall : ∀ v ∈ v₁ :: v₂ :: v₃ :: extra, v.Holds 100000000 2100000000000000 := by
      have hsub : (v₁ :: v₂ :: v₃ :: extra).Sublist [v₁, v₂, v₃, v₄, v₅] :=
        ((hextra.cons_cons v₃).cons_cons v₂).cons_cons v₁
      exact fun v hv => hholds v (hsub.subset hv)
    obtain ⟨sum, hsum, -⟩ := Vault.total_isOk_of_few (by rfl)
      (by simp only [List.length_cons]; omega) hall
    exact ⟨sum, hsum⟩
  obtain ⟨total, htotal⟩ := hsum [] (List.nil_sublist _)
  obtain ⟨targets, htargets⟩ := withdrawalTargets_isOk total (show (1 : UInt64).toNat ≤ _ by decide)
  refine ofFailure htotal (ofFailure htargets ?_)
  refine (forM fun extra hextra done => ?_).andThen fun _ _ => ?_
  · obtain ⟨sum, hsum⟩ := hsum extra (by
      simp only [List.drop, List.take, List.mem_cons, List.not_mem_nil, or_false] at hextra
      rcases hextra with rfl | rfl | rfl
      · simp
      · simp
      · simp)
    exact buildTrigger hsum UInt64.zero_le fun batch t _ _ => expectReject _ _ _
  refine buildTrigger htotal UInt64.zero_le fun batch t hbatch ht => ?_
  refine (confirm _ _).andThen fun _ _ => (transitionAll _ _).andThen fun _ _ => ?_
  obtain ⟨o, ho⟩ := Trigger.exists_outpoint_singleton ht
  obtain ⟨first, total, hmade⟩ := Batch.build_eq_ok hbatch
  obtain ⟨withdrawal, hwithdrawal⟩ := Withdrawal.build_isOk o .none hmade
  refine ofExcept ho (ofExcept hwithdrawal ?_)
  refine (expectReject _ _ _).andThen fun _ _ => (mine _).andThen fun _ _ => ?_
  exact (confirm _ _).andThen fun _ _ => transitionAll _ _

theorem revault (hb : b.Funds) :
    Delivers b past (Runner.on b ids authorization).revault done fun _ _ => True := by
  unfold Runner.revault
  refine (lockCoins hb (by decide) (by decide)).bind fun vaults _ hvaults => ?_
  have hholds : ∀ v ∈ vaults, v.Holds 100000000 2100000000000000 := by
    intro v hv
    obtain ⟨_, -, coin, amount, hsecured⟩ := forall₂_mem_right hvaults hv
    exact hsecured.holds hb
  obtain ⟨total, htotal, hleast, hbound⟩ :=
    Vault.total_isOk_of_few hvaults.length_eq.symm (by decide) hholds
  obtain _ | ⟨⟨coin, amount, hfirst⟩, hrest⟩ := hvaults
  have hrevault : Runner.revaultAmount ≤ total := by
    rw [UInt64.le_iff_toNat_le]
    have hamount : Runner.revaultAmount.toNat = 100000000 := rfl
    simp only [List.length_replicate] at hleast
    omega
  obtain ⟨targets, htargets⟩ :=
    withdrawalTargets_isOk (total - Runner.revaultAmount) (show (1 : UInt64).toNat ≤ _ by decide)
  refine ofFailure htotal (ofExcept (if_pos hrevault) (ofFailure htargets ?_))
  rename_i first rest
  have hdelay : first.policy.spendDelay ≠ Int64.maxValue := by
    rw [hfirst.delay]
    exact (by decide : (10 : Int64) ≠ Int64.maxValue)
  have hpart : (some Runner.revaultAmount).getD 0 ≤ total := hrevault
  refine (showTriggerFaults _ targets htotal hdelay hpart hbound).andThen fun _ _ => ?_
  refine buildTrigger htotal hpart fun batch t hbatch ht => ?_
  refine (confirm _ _).andThen fun _ _ => (transitionAll _ _).andThen fun _ _ => ?_
  obtain ⟨o, ho⟩ := Trigger.exists_outpoint_singleton ht
  obtain ⟨first, total', hmade⟩ := Batch.build_eq_ok hbatch
  obtain ⟨withdrawal, hwithdrawal⟩ := Withdrawal.build_isOk o .none hmade
  refine ofExcept ho (ofExcept hwithdrawal ((expectReject _ _ _).andThen fun _ _ => ?_))
  refine takeNames _ fun name => ?_
  obtain ⟨u, f, hreturned, hf, -⟩ := Trigger.revaulted_alone hbatch ht fun k => ids (name + k)
  refine ofExcept hreturned ((forM fun v _ done => track v.id .vaulted).andThen fun _ _ => ?_)
  refine buildTrigger (Vault.total_singleton hf) UInt64.zero_le fun second t' _ _ => ?_
  refine (confirm _ _).andThen fun _ _ => (transitionAll _ _).andThen fun _ _ => ?_
  refine (mine _).andThen fun _ _ => ?_
  exact (confirm _ _).andThen fun _ _ => transitionAll _ _

end Delivers

/-! ## The batch recovery -/

/-- A coin that is worth the fee can pay. -/
theorem Coin.change_isOk {coin : Coin} (h : payingFee ≤ coin.spent.value) :
    ∃ change, coin.change = .ok change :=
  ⟨_, bind_eq_ok_iff.mpr ⟨_, if_pos h, rfl⟩⟩

/-- The recovery of a triggered vault, two vaults with its recovery key and one
with a key of its own can be built. It has three outputs, unless the last vault
was locked by a transaction with the id of another. -/
theorem Recovery.mixed_isOk (hb : b.Funds) {v₁ v₂ v₃ v₄ : Vault} {c₁ c₂ c₃ c₄ coin : Coin}
    {a₁ a₂ a₃ a₄ : Sats} (h₁ : Secured b { spendDelay := 10 } done v₁ c₁ a₁)
    (h₂ : Secured b { spendDelay := 11 } done v₂ c₂ a₂)
    (h₃ : Secured b { spendDelay := 12 } done v₃ c₃ a₃)
    (h₄ : Secured b { recoverySecret := 12 } done v₄ c₄ a₄) {batch : Batch} {t : Trigger}
    (hbatch : Batch.build [v₁] [] none .none = .ok batch)
    (ht : Trigger.build [batch] none .none = .ok t) (htaken : t.tx ∈ accepted done)
    (hcoin : ∃ past, b.spendableCoin past = .ok coin) :
    ∃ o request recovery, t.outpoint 0 = .ok o ∧
      [v₂, v₃, v₄].foldlM RecoveryRequest.vaulted
        (({ trigger := some t, fee := some coin } : RecoveryRequest).spend v₁ o) = .ok request ∧
      build request = .ok recovery ∧ (recovery.tx.outputs.length = 3 ∨ Clash b done) := by
  obtain ⟨-, hpoint⟩ := Plan.trigger_moves h₁.funding hbatch ht
  let o₂ : Outpoint := ⟨(v₂.lockTransaction c₂ a₂).txid, 0⟩
  let o₃ : Outpoint := ⟨(v₃.lockTransaction c₃ a₃).txid, 0⟩
  let o₄ : Outpoint := ⟨(v₄.lockTransaction c₄ a₄).txid, 0⟩
  let request : RecoveryRequest :=
    ⟨[(v₁, ⟨t.tx.txid, 0⟩), (v₂, o₂), (v₃, o₃), (v₄, o₄)], some t, some coin, false, .none⟩
  have hrequest : [v₂, v₃, v₄].foldlM RecoveryRequest.vaulted
      (({ trigger := some t, fee := some coin } : RecoveryRequest).spend v₁ ⟨t.tx.txid, 0⟩) =
        .ok request := by
    simp only [List.foldlM_cons, List.foldlM_nil, RecoveryRequest.vaulted_of_funding h₂.funding,
      RecoveryRequest.vaulted_of_funding h₃.funding, RecoveryRequest.vaulted_of_funding h₄.funding]
    rfl
  have hresolvable : Resolvable request 2100000000000000 := by
    have hown {params : VaultParams} {v : Vault} {c : Coin} {a : Sats}
        (h : Secured b params done v c a) :
        ∃ s, source request.trigger v ⟨(v.lockTransaction c a).txid, 0⟩ = .ok s ∧
          s.spent.value.toNat ≤ 2100000000000000 := by
      obtain ⟨c, -, hs⟩ := source_own request.trigger h.funding
      exact ⟨_, hs, (h.bounds hb).2⟩
    obtain ⟨s, hs, hspent, -⟩ := Plan.source_triggered h₁.funding rfl hbatch ht
    have hle : s.spent.value.toNat ≤ 2100000000000000 := by
      rw [hspent]
      exact (h₁.bounds hb).2
    intro p hp
    simp only [request, List.mem_cons, List.not_mem_nil, or_false] at hp
    rcases hp with rfl | rfl | rfl | rfl
    · exact ⟨s, hs, hle⟩
    · exact hown h₂
    · exact hown h₃
    · exact hown h₄
  obtain ⟨change, hchange⟩ : ∃ change, request.fee.mapM Coin.change = .ok change := by
    obtain ⟨past, hcoin⟩ := hcoin
    have hvalue := hb past coin hcoin
    have hfee : Coin.payingFee.toNat = 10000 := rfl
    have hpays : Coin.payingFee ≤ coin.spent.value := by
      rw [UInt64.le_iff_toNat_le]
      omega
    obtain ⟨change, hchange⟩ := Coin.change_isOk hpays
    exact ⟨some change, optionMapM_some_eq_ok_iff.mpr ⟨change, hchange, rfl⟩⟩
  obtain ⟨recovery, hrecovery⟩ := build_isOk_of_bounds hresolvable (List.cons_ne_nil _ _)
    (by decide : 4 * 2100000000000000 < Sats.bound) hchange
  refine ⟨_, request, recovery, hpoint, hrequest, hrecovery, ?_⟩
  by_cases hfresh : o₄ ∈ [(v₁, ⟨t.tx.txid, 0⟩), (v₂, o₂), (v₃, o₃)].map Prod.snd
  · right
    simp only [List.map_cons, List.map_nil, List.mem_cons, List.not_mem_nil, or_false] at hfresh
    rcases hfresh with h | h | h
    · exact .trigger h₄ h₁ hbatch ht htaken (congrArg Outpoint.txid h)
    · exact .lock h₄ (Or.inl rfl) h₂ (congrArg Outpoint.txid h)
    · exact .lock h₄ (Or.inr rfl) h₃ (congrArg Outpoint.txid h)
  · left
    have hspk : v₁.policy.recoverySpk ≠ v₄.policy.recoverySpk := by
      rw [← Except.ok.inj (Policy.ofParams_usual 10 |>.symm.trans h₁.policy),
        ← Except.ok.inj (Policy.ofParams_own.symm.trans h₄.policy)]
      exact Policy.recoverySpk_usual_ne 10 10
    have hfront : ∀ p ∈ [(v₁, ⟨t.tx.txid, 0⟩), (v₂, o₂), (v₃, o₃)], ∀ s,
        source request.trigger p.1 p.2 = .ok s → s.recoverySpk = v₁.policy.recoverySpk := by
      intro p hp s hs
      simp only [List.mem_cons, List.not_mem_nil, or_false] at hp
      rcases hp with rfl | rfl | rfl
      · exact recoverySpk_of_triggered hbatch ht hs
      · rw [recoverySpk_of_own (Vault.funding_eq_ok_iff.mp h₂.funding).1 hs]
        exact Policy.recoverySpk_of_ofParams h₂.policy h₁.policy rfl
      · rw [recoverySpk_of_own (Vault.funding_eq_ok_iff.mp h₃.funding).1 hs]
        exact Policy.recoverySpk_of_ofParams h₃.policy h₁.policy rfl
    exact length_outputs_of_last hrecovery rfl rfl
      (show request.sources = (v₁, ⟨t.tx.txid, 0⟩) :: [(v₂, o₂), (v₃, o₃)] ++ [(v₄, o₄)] from rfl)
      hfront (Vault.funding_eq_ok_iff.mp h₄.funding).1 hspk hfresh

namespace Delivers

theorem batchRecovery (hb : b.Funds) :
    Delivers b past (Runner.on b ids authorization).batchRecovery done fun _ _ => True := by
  unfold Runner.batchRecovery
  refine (lockCoin hb (by decide) (by decide)).bind fun v₁ _ ⟨c₁, a₁, h₁⟩ => ?_
  refine (lockCoins hb (by decide) (by decide)).bind fun others more hothers => ?_
  obtain _ | ⟨⟨c₂, a₂, h₂⟩, _ | ⟨⟨c₃, a₃, h₃⟩, _ | ⟨⟨c₄, a₄, h₄⟩, _ | -⟩⟩⟩ := hothers
  rename_i v₂ v₃ v₄
  replace h₁ := h₁.append more
  refine buildTrigger (Vault.total_singleton h₁.funding) UInt64.zero_le fun batch t hbatch ht => ?_
  refine (confirm _ _).bind fun _ _ htaken => (transition _ _).andThen fun _ _ => ?_
  refine spendableCoin.bind fun coin _ hcoin => ?_
  obtain ⟨o, request, recovery, ho, hrequest, hrecovery, hthree⟩ := Recovery.mixed_isOk hb
    (((h₁.append _).append _).append _) (((h₂.append _).append _).append _)
    (((h₃.append _).append _).append _) (((h₄.append _).append _).append _) hbatch ht
    (mem_accepted_append (mem_accepted_append htaken _) _) hcoin
  refine ofExcept ho (ofExcept hrequest (ofFailure hrecovery ?_))
  show Delivers b past (if recovery.tx.outputs.length ≠ 3 then _ else _) _ _
  split
  · rename_i hne
    exact clashed _ (hthree.resolve_left hne)
  · refine (showRecoveryFaults _ hrecovery).andThen fun _ _ => ?_
    exact (confirm _ _).andThen fun _ _ => transitionAll _ _

/-- Every scenario comes to its end, unless the node has to answer for the
failure. -/
theorem course (hb : b.Funds) (scenario : Scenario) :
    Delivers b past ((Runner.on b ids authorization).course scenario) done fun _ _ => True := by
  cases scenario with
  | singleVault => exact singleVault hb
  | sweepFromVault => exact sweepFromVault hb
  | sweepFromTrigger => exact sweepFromTrigger hb
  | batchRecovery => exact batchRecovery hb
  | batchTrigger => exact batchTrigger hb
  | revault => exact revault hb
  | negativeDelay => exact negativeDelay hb
  | recursiveRecoveryWitness => exact recursiveRecoveryWitness hb

end Delivers

end VaultCovenant
