import VaultCovenant.Proofs.Batch.Balance
import VaultCovenant.Proofs.Coin

/-!
# When a batch is refused

Members without a coin, sums that 64 bits do not hold, a delay that cannot be
longer and an amount that is not there: for each batch that is asked for, the
first of these that applies decides. Scripts and trees are never refused.

Results:
* `Vault.failureOf_total`: how the sum of some vaults ends.
* `Batch.failureOf_perturbed`, `Batch.failureOf_delayUnder`: which amounts and
  delays leave no room for a fault.
* `TaprootTree.ofLeaves_pair`: two leaves always make an output.
* `Batch.failureOf_build`: how a batch ends.
-/

namespace VaultCovenant

/-! ## The sum of some vaults -/

namespace Vault

/-- Whether a vault has all of its coin on record. -/
def isFunded (v : Vault) : Bool := v.outpoint.isSome && v.output.isSome && v.amount.isSome

/-- What vaults are worth by their amounts on record. -/
def recorded (vs : List Vault) : ℕ := (vs.map fun v => (v.amount.getD 0).toNat).sum

/-- Why vaults have no sum: those in front of the first without a coin are
worth too much already, or there is one without. -/
def sumRefusal (vs : List Vault) : Option Failure :=
  if Sats.bound ≤ recorded (vs.takeWhile isFunded) then some .overflow
  else (vs.find? fun v => !v.isFunded).map fun v => .error (.notInitialized v.id)

theorem isFunded_of_funding {v : Vault} {f : Funding} (h : v.funding = .ok f) :
    v.isFunded = true := by
  obtain ⟨houtpoint, houtput, hamount⟩ := funding_eq_ok_iff.mp h
  simp [isFunded, houtpoint, houtput, hamount]

theorem isFunded_of_funding_error {v : Vault} {e : VaultError} (h : v.funding = .error e) :
    v.isFunded = false := by
  rw [Bool.eq_false_iff]
  intro hfunded
  obtain ⟨f, hf⟩ : ∃ f, v.funding = .ok f := by
    rw [funding_isOk_iff]
    simpa [isFunded, and_assoc] using hfunded
  rw [h] at hf
  cases hf

/-- The sum so far decides before the next vault is looked at. -/
theorem failureOf_foldlM_funding (vs : List Vault) (start : Sats) :
    failureOf (vs.foldlM (fun (total : Sats) v => do
      let f ← Failure.lift v.funding
      total.add f.amount) start) =
      if Sats.bound ≤ start.toNat + recorded (vs.takeWhile isFunded) then some .overflow
      else (vs.find? fun v => !v.isFunded).map fun v => .error (.notInitialized v.id) := by
  induction vs generalizing start with
  | nil =>
    have hstart : ¬ Sats.bound ≤ start.toNat := Nat.not_le.mpr start.toNat_lt
    simp [recorded, hstart, pure, Except.pure]
  | cons v vs ih =>
    rw [List.foldlM_cons]
    cases hf : v.funding with
    | error e =>
      have hfunded := isFunded_of_funding_error hf
      have hstart : ¬ Sats.bound ≤ start.toNat := Nat.not_le.mpr start.toNat_lt
      rw [funding_eq_error hf]
      simp [Failure.lift, bind, Except.bind, hfunded, recorded, hstart]
    | ok f =>
      have hfunded := isFunded_of_funding hf
      have hamount : v.amount = some f.amount := (funding_eq_ok_iff.mp hf).2.2
      have hrecorded : recorded ((v :: vs).takeWhile isFunded) =
          f.amount.toNat + recorded (vs.takeWhile isFunded) := by
        rw [List.takeWhile_cons_of_pos hfunded]
        simp [recorded, hamount]
      have hfind : (v :: vs).find? (fun v => !v.isFunded) = vs.find? fun v => !v.isFunded := by
        simp [hfunded]
      show failureOf (start.add f.amount >>= _) = _
      rw [hrecorded, hfind]
      by_cases hroom : start.toNat + f.amount.toNat < Sats.bound
      · have hnext : start.add f.amount = .ok (start + f.amount) := if_pos hroom
        rw [hnext]
        show failureOf (vs.foldlM _ (start + f.amount)) = _
        rw [ih, Sats.add_eq_ok_iff.mp hnext, Nat.add_assoc]
      · have hnext : start.add f.amount = .error .overflow := if_neg hroom
        rw [hnext, if_pos (by omega)]
        rfl

theorem failureOf_total (vs : List Vault) : failureOf (total vs) = sumRefusal vs := by
  have h := failureOf_foldlM_funding vs 0
  rw [UInt64.toNat_zero, Nat.zero_add] at h
  exact h

theorem toNat_total {vs : List Vault} {sum : Sats} (h : total vs = .ok sum) :
    sum.toNat = recorded vs := by
  obtain ⟨fs, hfs, hsum⟩ := total_eq_ok_iff.mp h
  rw [hsum, worth_eq_of_fundings hfs]
  rfl

end Vault

/-! ## Two leaves -/

/-- Two leaves always make an output. -/
theorem TaprootTree.ofLeaves_pair (key : XOnlyKey) (a b : String × Script) :
    ofLeaves key [a, b] = .ok ⟨key, [a, b]⟩ := by
  have hlaid := Branching.ofScripts_of_halved (halved_pair a.2 b.2) (by simp [maxLeafDepth])
  rw [ofLeaves, if_neg (by simp)]
  simp only [List.map_cons, List.map_nil]
  rw [hlaid]

namespace Batch

/-! ## Parts that leave no room for a fault -/

/-- An amount cannot be raised beyond 64 bits. -/
theorem failureOf_perturbed (tooHigh tooLow : Bool) (amount : Sats) :
    failureOf (perturbed tooHigh tooLow amount) =
      if tooHigh = true ∧ amount.toNat + 1 = Sats.bound then some .overflow else none := by
  have hlt : amount.toNat < Sats.bound := amount.toNat_lt
  cases tooHigh with
  | false => rfl
  | true =>
    by_cases hroom : amount.toNat + 1 < Sats.bound
    · have hraised : amount.add 1 = .ok (amount + 1) := if_pos hroom
      have hno : ¬ amount.toNat + 1 = Sats.bound := Nat.ne_of_lt hroom
      show failureOf (amount.add 1 >>= _) = _
      rw [hraised, if_neg fun h => hno h.2]
      rfl
    · have hraised : amount.add 1 = .error .overflow := if_neg hroom
      show failureOf (amount.add 1 >>= _) = _
      rw [hraised, if_pos ⟨rfl, by omega⟩]
      rfl

/-- The greatest delay cannot be made longer. -/
theorem failureOf_delayUnder (faults : FaultSet) (delay : Int64) :
    failureOf (delayUnder faults delay) =
      if faults.contains .triggerBadSpendDelay = true ∧ delay = Int64.maxValue then
        some (.configuration "spend delay 9223372036854775807 cannot be incremented")
      else none := by
  unfold delayUnder
  cases faults.contains .triggerBadSpendDelay with
  | false => rfl
  | true =>
    by_cases hmax : delay = Int64.maxValue
    · subst hmax
      rfl
    · simp [hmax]

theorem failureOf_revaultOutputUnder (faults : FaultSet) (policy : Policy)
    (revault : Option Sats) :
    failureOf (revaultOutputUnder faults policy revault) =
      if faults.contains .revaultAmountTooHigh = true ∧
          (revault.getD 0).toNat + 1 = Sats.bound then some .overflow
      else none := by
  cases revault with
  | none => simp [revaultOutputUnder, Sats.bound]
  | some amount =>
    show failureOf (perturbed _ _ amount >>= _) = _
    rw [failureOf_bind_of_ok fun _ _ => rfl, failureOf_perturbed]
    rfl

/-! ## The batch -/

/-- Why a batch is refused, in the order in which its parts are looked at. -/
def refusal (members : List Vault) (revault : Option Sats) (faults : FaultSet) :
    Option Failure :=
  match members with
  | [] => some (.error (.configuration "a trigger batch needs at least one vault"))
  | first :: _ =>
    let worth := Vault.recorded members
    let returned := (revault.getD 0).toNat
    (Vault.sumRefusal members).or <|
      if faults.contains .triggerBadSpendDelay = true ∧
          first.policy.spendDelay = Int64.maxValue then
        some (.error (.configuration "spend delay 9223372036854775807 cannot be incremented"))
      else if faults.contains .revaultAmountTooHigh = true ∧ returned + 1 = Sats.bound then
        some .overflow
      else if worth < returned then
        some (.error (.insufficientFunds (revault.getD 0) (UInt64.ofNat worth)))
      else if faults.contains .triggerAmountTooHigh = true ∧
          worth - returned + 1 = Sats.bound then
        some .overflow
      else none

theorem failureOf_build (members : List Vault) (targets : List TxOut) (revault : Option Sats)
    (faults : FaultSet) :
    failureOf (build members targets revault faults) = refusal members revault faults := by
  cases members with
  | nil => rfl
  | cons first rest =>
    unfold build refusal
    rw [← Vault.failureOf_total]
    refine failureOf_bind fun total htotal => ?_
    have hworth := Vault.toNat_total htotal
    have hsum : UInt64.ofNat (Vault.recorded (first :: rest)) = total := by
      rw [← hworth]
      exact UInt64.ofNat_toNat
    dsimp only
    rw [hsum, ← hworth]
    -- each cause in turn is that of the next step
    rw [← or_of_ite, ← Option.map_if, ← failureOf_delayUnder, ← failureOf_lift]
    refine failureOf_bind fun delay _ => ?_
    rw [← or_of_ite, ← failureOf_revaultOutputUnder faults first.policy]
    refine failureOf_bind fun out _ => ?_
    rw [← or_of_ite, ← Option.map_if, ← Sats.failureOf_spend, ← failureOf_lift]
    refine failureOf_bind fun remaining hremaining => ?_
    have hrest := Sats.spend_eq_ok_iff.mp (lift_eq_ok_iff.mp hremaining)
    have hdiff : total.toNat - (revault.getD 0).toNat = remaining.toNat := by omega
    rw [hdiff, ← failureOf_perturbed _ (faults.contains .triggerAmountTooLow)]
    rw [failureOf_bind_of_ok fun _ _ => rfl]

/-- Without faults only the sum of the members can overflow. -/
theorem refusal_none_eq_overflow_iff (members : List Vault) (revault : Option Sats) :
    refusal members revault .none = some .overflow ↔
      Sats.bound ≤ Vault.recorded (members.takeWhile Vault.isFunded) := by
  cases members with
  | nil => simp [refusal, Vault.recorded, Sats.bound]
  | cons first rest =>
    unfold refusal Vault.sumRefusal
    by_cases hsum : Sats.bound ≤ Vault.recorded ((first :: rest).takeWhile Vault.isFunded)
    · rw [if_pos hsum]
      simp [hsum]
    · rw [if_neg hsum]
      simp only [hsum, iff_false]
      cases (first :: rest).find? fun v => !v.isFunded with
      | some v => simp
      | none =>
        simp only [FaultSet.none, Option.map_none, Option.none_or, Bool.false_eq_true, false_and,
          if_false]
        split <;> simp

/-- A batch ends as its members, the amount to be returned and its faults say: a
refusal that applies is met, and without one the batch is built, from leaves that
can be put together. Without faults nothing overflows but the sum of the members
in front of the first without a coin, whatever the delay, the targets and the
amount to be returned. -/
theorem build_ends (members : List Vault) (targets : List TxOut) (revault : Option Sats)
    (faults : FaultSet) :
    (∀ e, build members targets revault faults = .error e ↔
      refusal members revault faults = some e) ∧
    ((∃ b, build members targets revault faults = .ok b) ↔
      refusal members revault faults = none) ∧
    (∀ b, build members targets revault faults = .ok b →
      TaprootTree.ofLeaves b.tree.internalKey b.tree.leaves = .ok b.tree) ∧
    (build members targets revault .none = .error .overflow ↔
      Sats.bound ≤ Vault.recorded (members.takeWhile Vault.isFunded)) := by
  refine ⟨fun e => ?_, ?_, fun b hb => ?_, ?_⟩
  · rw [← failureOf_build members targets, failureOf_eq_some_iff]
  · rw [← failureOf_build members targets, failureOf_eq_none_iff]
  · obtain ⟨first, total, hmade⟩ := build_eq_ok hb
    rw [hmade.tree_eq]
    exact TaprootTree.ofLeaves_pair _ _ _
  · rw [← failureOf_eq_some_iff, failureOf_build, refusal_none_eq_overflow_iff]

/-- A vault of 990000 sats with the greatest delay. Of several causes the first
decides: the delay before the amount to be returned is raised, this before it is
compared, and a member without a coin before all of them. -/
theorem build_ends_in_order :
    ∃ v w : Vault,
      build [v] [] (some 0xffffffffffffffff)
          (.ofList [.triggerBadSpendDelay, .revaultAmountTooHigh]) =
        .error (.error (.configuration
          "spend delay 9223372036854775807 cannot be incremented")) ∧
      build [v] [] (some 0xffffffffffffffff) (.only .revaultAmountTooHigh) = .error .overflow ∧
      build [v] [] (some 0xffffffffffffffff) .none =
        .error (.error (.insufficientFunds 0xffffffffffffffff 990000)) ∧
      build [v, w, v] [] (some 0xffffffffffffffff) (.only .triggerBadSpendDelay) =
        .error (.error (.notInitialized 8)) ∧
      ∃ b, build [v] [] (some 990000) (.only .triggerWrongKey) = .ok b ∧
        TaprootTree.ofLeaves b.tree.internalKey b.tree.leaves = .ok b.tree := by
  let p : Policy := ⟨.nothingUpMySleeve, ⟨3, by decide, by decide⟩, Int64.maxValue, .anyone, true⟩
  let v : Vault := (Vault.empty 7 p).withFunding ⟨.null, ⟨990000, Script.anyone⟩, 990000⟩
  let w : Vault := Vault.empty 8 p
  obtain ⟨hdelay, -⟩ := build_ends [v] [] (some 0xffffffffffffffff)
    (.ofList [.triggerBadSpendDelay, .revaultAmountTooHigh])
  obtain ⟨hraised, -⟩ := build_ends [v] [] (some 0xffffffffffffffff) (.only .revaultAmountTooHigh)
  obtain ⟨hmissing, -⟩ := build_ends [v] [] (some 0xffffffffffffffff) .none
  obtain ⟨hwithout, -⟩ := build_ends [v, w, v] [] (some 0xffffffffffffffff)
    (.only .triggerBadSpendDelay)
  obtain ⟨-, hbuilt, htree, -⟩ := build_ends [v] [] (some 990000) (.only .triggerWrongKey)
  obtain ⟨b, hb⟩ := hbuilt.mpr rfl
  exact ⟨v, w, (hdelay _).mpr rfl, (hraised _).mpr rfl, (hmissing _).mpr rfl,
    (hwithout _).mpr rfl, b, hb, htree b hb⟩

end Batch

end VaultCovenant
