import VaultCovenant.Proofs.Recovery.Build
import VaultCovenant.Proofs.Trigger.Build
import VaultCovenant.Proofs.Withdrawal
import VaultCovenant.Scenario.Flow

/-!
# Why a request is refused

Whatever is asked of vaults, batches, triggers, withdrawals and recoveries, a
refusal is never about the state in which a vault stands: none of them knows
of states.

Results:
* `FailsOnly.bind`, `FailsOnly.mapM`, `FailsOnly.foldlM`: steps one after the
  other fail as the steps do.
* `VaultError.about_state`: a refusal for a state is known by its text.
* `Batch.stateless_build`, `Trigger.stateless_build`,
  `Withdrawal.stateless_build`, `Recovery.stateless_build`: a transaction is
  never refused for a state, whatever the faults.
-/

namespace VaultCovenant

/-! ## Failures of one kind -/

/-- Every failure of the computation is of a kind. -/
def FailsOnly {ε α : Type} (P : ε → Prop) (x : Except ε α) : Prop := ∀ e, x = .error e → P e

namespace FailsOnly

variable {ε α β : Type} {P : ε → Prop}

theorem ok (a : α) : FailsOnly P (.ok a) := by
  intro e h
  cases h

theorem error {e : ε} (h : P e) : FailsOnly P (.error e : Except ε α) := by
  intro e' he
  cases he
  exact h

theorem bind {x : Except ε α} {f : α → Except ε β} (hx : FailsOnly P x)
    (hf : ∀ a, FailsOnly P (f a)) : FailsOnly P (x >>= f) := by
  intro e h
  rcases bind_eq_error_iff.mp h with h | ⟨a, -, h⟩
  · exact hx e h
  · exact hf a e h

theorem mapM {as : List α} {f : α → Except ε β} (h : ∀ a, FailsOnly P (f a)) :
    FailsOnly P (as.mapM f) := by
  intro e he
  obtain ⟨a, -, ha⟩ := mapM_error he
  exact h a e ha

theorem optionMapM {a : Option α} {f : α → Except ε β} (h : ∀ a, FailsOnly P (f a)) :
    FailsOnly P (a.mapM f) := by
  intro e he
  obtain ⟨a, -, ha⟩ := optionMapM_eq_error_iff.mp he
  exact h a e ha

theorem foldlM {as : List α} {f : β → α → Except ε β} (h : ∀ b a, FailsOnly P (f b a)) (b : β) :
    FailsOnly P (as.foldlM f b) := by
  induction as generalizing b with
  | nil => exact ok b
  | cons a as ih =>
    rw [List.foldlM_cons]
    exact (h b a).bind ih

end FailsOnly

/-! ## Failures that are not about a state -/

/-- The failure is not that the lifecycle of a vault has no such step. -/
def VaultError.Stateless (e : VaultError) : Prop :=
  ∀ current requested, e ≠ .invalidStateTransition current requested

/-- The wording tells whether an error is about a state. -/
theorem VaultError.about_state {e : VaultError} {current requested : String}
    (h : e.message = (invalidStateTransition current requested).message) :
    ∃ current requested, e = invalidStateTransition current requested := by
  have hthird := congrArg (fun text => text.toList[2]?) h
  cases e with
  | invalidStateTransition current requested => exact ⟨current, requested, rfl⟩
  | _ =>
    -- no other wording has this third letter
    delta message at hthird
    simp at hthird

/-- The failure is an overflow, or it is not about a state. -/
def Failure.Stateless (e : Failure) : Prop := ∀ cause, e = .error cause → cause.Stateless

theorem Failure.stateless_overflow : Failure.overflow.Stateless := by
  intro cause h
  cases h

theorem FailsOnly.lift {α : Type} {x : Except VaultError α}
    (h : FailsOnly VaultError.Stateless x) : FailsOnly Failure.Stateless (Failure.lift x) := by
  intro e he cause hcause
  obtain ⟨cause', hx, rfl⟩ := lift_eq_error_iff.mp he
  cases hcause
  exact h cause hx

/-! ## Keys, policies and amounts -/

theorem SecretKey.stateless_ofScalar (scalar : UInt64) :
    FailsOnly VaultError.Stateless (SecretKey.ofScalar scalar) := by
  unfold ofScalar
  split
  · exact .ok _
  · exact .error nofun

theorem Policy.stateless_ofParams (params : VaultParams) :
    FailsOnly VaultError.Stateless (Policy.ofParams params) :=
  (SecretKey.stateless_ofScalar _).bind fun _ =>
    (SecretKey.stateless_ofScalar _).bind fun _ => .ok _

theorem Sats.stateless_add (a b : Sats) : FailsOnly Failure.Stateless (a.add b) := by
  unfold add
  split
  · exact .ok _
  · exact .error Failure.stateless_overflow

theorem Sats.stateless_spend (available required : Sats) :
    FailsOnly VaultError.Stateless (available.spend required) := by
  unfold spend
  split
  · exact .ok _
  · exact .error nofun

theorem Coin.stateless_change (coin : Coin) : FailsOnly VaultError.Stateless coin.change :=
  (Sats.stateless_spend _ _).bind fun _ => .ok _

theorem Room.stateless_check (room count : ℕ) : FailsOnly Failure.Stateless (check room count) := by
  unfold check
  split
  · exact .ok _
  · exact .error Failure.stateless_overflow

theorem Sats.stateless_split (total : Sats) (parts : UInt64) (fee : Sats) :
    FailsOnly Failure.Stateless (total.split parts fee) :=
  (Room.stateless_check _ _).bind fun _ => .ok _

theorem stateless_withdrawalTargets (total : Sats) (parts : UInt64) :
    FailsOnly Failure.Stateless (withdrawalTargets total parts) :=
  (Sats.stateless_split total parts 0).bind fun _ =>
    FailsOnly.bind (.mapM fun _ => ((SecretKey.stateless_ofScalar _).bind fun _ => .ok _).lift)
      fun _ => (Room.stateless_check _ _).bind fun _ => .ok _

theorem Runner.stateless_reenteringAuthorization :
    FailsOnly VaultError.Stateless reenteringAuthorization :=
  (Policy.stateless_ofParams _).bind fun _ => (SecretKey.stateless_ofScalar _).bind fun _ => .ok _

/-! ## Vaults and batches -/

namespace Vault

theorem stateless_lock (v : Vault) (coin : Coin) (fee : Option Sats) :
    FailsOnly VaultError.Stateless (v.lock coin fee) :=
  (Sats.stateless_spend _ _).bind fun _ => .ok _

theorem stateless_funding (v : Vault) : FailsOnly VaultError.Stateless v.funding := by
  intro e h
  rw [funding_eq_error h]
  nofun

theorem stateless_total (vs : List Vault) : FailsOnly Failure.Stateless (total vs) :=
  .foldlM (fun _ v => v.stateless_funding.lift.bind fun _ => Sats.stateless_add _ _) 0

end Vault

namespace Batch

theorem stateless_perturbed (tooHigh tooLow : Bool) (amount : Sats) :
    FailsOnly Failure.Stateless (perturbed tooHigh tooLow amount) := by
  unfold perturbed
  cases tooHigh with
  | false => exact .ok _
  | true => exact (Sats.stateless_add _ _).bind fun _ => .ok _

theorem stateless_build (members : List Vault) (targets : List TxOut) (revault : Option Sats)
    (faults : FaultSet) : FailsOnly Failure.Stateless (build members targets revault faults) := by
  cases members with
  | nil =>
    refine .error fun cause h => ?_
    cases h
    nofun
  | cons first rest =>
    have hdelay : FailsOnly VaultError.Stateless (delayUnder faults first.policy.spendDelay) := by
      unfold delayUnder
      split
      · split
        · exact .error nofun
        · exact .ok _
      · exact .ok _
    have hrevault : FailsOnly Failure.Stateless
        (revaultOutputUnder faults first.policy revault) := by
      cases revault with
      | none => exact .ok _
      | some amount => exact (stateless_perturbed _ _ _).bind fun _ => .ok _
    refine (Vault.stateless_total _).bind fun total => hdelay.lift.bind fun delay => ?_
    refine hrevault.bind fun out => (Sats.stateless_spend _ _).lift.bind fun remaining => ?_
    exact (stateless_perturbed _ _ _).bind fun _ => .ok _

theorem stateless_canonical (b : Batch) : FailsOnly VaultError.Stateless b.canonical := by
  unfold canonical
  split
  · exact .error nofun
  · exact .ok _

end Batch

/-! ## Triggers -/

namespace Trigger

theorem stateless_build (batches : List Batch) (fee : Option Coin) (faults : FaultSet) :
    FailsOnly VaultError.Stateless (build batches fee faults) := by
  intro e h
  rcases build_eq_error h with h | h
  · exact FailsOnly.mapM Vault.stateless_funding e h
  · exact FailsOnly.optionMapM Coin.stateless_change e h

theorem stateless_outpoint (t : Trigger) (index : ℕ) :
    FailsOnly VaultError.Stateless (t.outpoint index) := by
  unfold outpoint
  split
  · exact .ok _
  · exact .error nofun

theorem stateless_revaulted (t : Trigger) (ids : ℕ → VaultId) :
    FailsOnly VaultError.Stateless (t.revaulted ids) :=
  .mapM fun _ => (Batch.stateless_canonical _).bind fun _ => .ok _

theorem stateless_triggerWithFault (vaults : List Vault) (targets : List TxOut)
    (revault : Option Sats) (fault : Fault) :
    FailsOnly Failure.Stateless (triggerWithFault vaults targets revault fault) :=
  (Batch.stateless_build _ _ _ _).bind fun _ => (stateless_build _ _ _).lift.bind fun _ => .ok _

end Trigger

/-! ## Leaves, withdrawals and recoveries -/

namespace TaprootTree

theorem stateless_leafScript (t : TaprootTree) (name : String) :
    FailsOnly VaultError.Stateless (t.leafScript name) := by
  intro e h
  obtain ⟨text, rfl⟩ := leafScript_eq_error h
  nofun

theorem stateless_controlBlock (t : TaprootTree) (name : String) :
    FailsOnly VaultError.Stateless (t.controlBlock name) := by
  intro e h
  obtain ⟨text, rfl⟩ := controlBlock_eq_error h
  nofun

end TaprootTree

theorem Withdrawal.stateless_build (o : Outpoint) (b : Batch) (faults : FaultSet) :
    FailsOnly VaultError.Stateless (build o b faults) := by
  have hcomplete : FailsOnly VaultError.Stateless (complete o b) := by
    refine (b.tree.stateless_controlBlock _).bind fun control => ?_
    split
    · exact .error nofun
    · exact .ok _
  refine hcomplete.bind fun tx => ?_
  show FailsOnly _ (if _ then _ else _)
  split
  · exact .ok _
  · exact .error nofun

theorem RecoveryRequest.stateless_vaulted (r : RecoveryRequest) (v : Vault) :
    FailsOnly VaultError.Stateless (r.vaulted v) :=
  v.stateless_funding.bind fun _ => .ok _

namespace Recovery

theorem stateless_source (trigger : Option Trigger) (v : Vault) (o : Outpoint) :
    FailsOnly VaultError.Stateless (source trigger v o) := by
  intro e h
  unfold source at h
  split at h
  · exact v.stateless_funding e (vaultSource_eq_error h)
  · rcases triggerSource_eq_error h with rfl | ⟨t, i, b, -, -, h | h | h | h⟩
    · nofun
    · exact t.stateless_outpoint i e h
    · exact b.stateless_canonical e h
    · exact b.tree.stateless_leafScript _ e h
    · exact b.tree.stateless_controlBlock _ e h

theorem stateless_build (r : RecoveryRequest) : FailsOnly Failure.Stateless (build r) := by
  intro e h cause hcause
  have hsources : FailsOnly VaultError.Stateless (distinctSources r) :=
    (FailsOnly.mapM fun _ => stateless_source _ _ _).bind fun _ => .ok _
  rcases build_eq_error h with ⟨_, he, rfl⟩ | ⟨-, rfl⟩ | rfl | ⟨_, he, rfl⟩
  · cases hcause
    exact hsources _ he
  · cases hcause
    nofun
  · cases hcause
  · cases hcause
    exact FailsOnly.optionMapM Coin.stateless_change _ he

end Recovery

end VaultCovenant
