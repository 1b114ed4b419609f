import VaultCovenant.Proofs.Batch.Build

/-!
# The balance of a batch

What a batch puts into its outputs is what its members are worth. A fault
that changes an amount shifts the outputs by one unit, unless it lowers an
amount that is zero already.

Results:
* `Batch.perturbed_eq_ok`: what is left of an amount under two faults.
* `Batch.Order.balance`: the outputs of a batch against its members, with at
  most one fault that changes an amount.
* `Batch.Order.conserves`: without such a fault trigger and revault amount
  make up what the members are worth.
-/

namespace VaultCovenant

/-- What some outputs are worth together. -/
def TxOut.worth (outs : List TxOut) : ℕ := (outs.map (·.value.toNat)).sum

/-! ## Faults that change an amount -/

/-- Whether a fault changes an amount of a batch. -/
def Fault.changesAmount : Fault → Bool
  | triggerAmountTooHigh | triggerAmountTooLow | revaultAmountTooHigh | revaultAmountTooLow => true
  | _ => false

namespace FaultSet

/-- The faults of a set that change an amount of a batch. -/
def amountFaults (faults : FaultSet) : List Fault := faults.toList.filter Fault.changesAmount

variable {faults : FaultSet} {f g : Fault}

theorem mem_amountFaults :
    f ∈ faults.amountFaults ↔ faults.contains f = true ∧ f.changesAmount = true := by
  rw [amountFaults, List.mem_filter, mem_toList_iff]

example : (ofList [.triggerWrongKey, .revaultAmountTooLow]).amountFaults =
    [.revaultAmountTooLow] := by
  decide

theorem eq_of_mem_amountFaults (hone : faults.amountFaults.length ≤ 1)
    (hf : f ∈ faults.amountFaults) (hg : g ∈ faults.amountFaults) : f = g := by
  cases hfaults : faults.amountFaults with
  | nil =>
    rw [hfaults] at hf
    cases hf
  | cons a rest =>
    have hrest : rest = [] := by
      rw [hfaults, List.length_cons] at hone
      exact List.eq_nil_of_length_eq_zero (by omega)
    rw [hfaults, hrest, List.mem_singleton] at hf hg
    rw [hf, hg]

/-- Of two faults that change an amount, a set that has at most one of them
lacks the other. -/
theorem not_contains_of_ne (hone : faults.amountFaults.length ≤ 1) (hne : f ≠ g)
    (hf : f.changesAmount = true) (hg : g.changesAmount = true) (h : faults.contains f = true) :
    faults.contains g = false := by
  cases hcontains : faults.contains g with
  | false => rfl
  | true =>
    exact absurd (eq_of_mem_amountFaults hone (mem_amountFaults.mpr ⟨h, hf⟩)
      (mem_amountFaults.mpr ⟨hcontains, hg⟩)) hne

end FaultSet

/-! ## Amounts under faults -/

namespace Batch

/-- One higher, then one lower but not below zero. -/
theorem perturbed_eq_ok {tooHigh tooLow : Bool} {amount value : Sats}
    (h : perturbed tooHigh tooLow amount = .ok value) :
    value.toNat = amount.toNat + tooHigh.toNat - tooLow.toNat := by
  obtain ⟨raised, hraised, rfl⟩ : ∃ raised : Sats, raised.toNat = amount.toNat + tooHigh.toNat ∧
      value = if tooLow then raised.lowered else raised := by
    cases tooHigh with
    | false => exact ⟨amount, rfl, (Except.ok.inj h).symm⟩
    | true =>
      obtain ⟨raised, hadd, h⟩ := bind_eq_ok_iff.mp h
      exact ⟨raised, Sats.add_eq_ok_iff.mp hadd, (Except.ok.inj h).symm⟩
  rw [← hraised]
  cases tooLow with
  | false => rfl
  | true => exact Sats.toNat_lowered raised

/-- A shift up is never taken back, a shift down only has an effect on an
amount that is not zero. -/
theorem shifted_add (n : ℕ) {tooHigh tooLow : Bool} (h : tooHigh = true → tooLow = false) :
    n + tooHigh.toNat - tooLow.toNat + (tooLow && decide (0 < n)).toNat = n + tooHigh.toNat := by
  cases tooLow with
  | false => rfl
  | true =>
    have hhigh : tooHigh = false := by
      cases tooHigh with
      | false => rfl
      | true => cases h rfl
    rw [hhigh]
    by_cases hn : 0 < n
    · simp [hn]
      omega
    · simp [hn]
      omega

theorem toNat_or {a b : Bool} (h : a = true → b = false) : (a || b).toNat = a.toNat + b.toNat := by
  cases a with
  | false => simp
  | true => simp [h rfl]

/-! ## Orders -/

/-- What a batch is asked for. -/
structure Order where
  members : List Vault
  targets : List TxOut
  revault : Option Sats
  faults : FaultSet

namespace Order

/-- The batch that is asked for. -/
def build (q : Order) : Except Failure Batch :=
  Batch.build q.members q.targets q.revault q.faults

/-- What the members are worth by their amounts on record. -/
def worth (q : Order) : ℕ := (q.members.map fun v => (v.amount.getD 0).toNat).sum

/-- Whether a fault puts one unit too much into the outputs. -/
def isRaised (q : Order) : Bool :=
  q.faults.contains .triggerAmountTooHigh ||
    q.revault.isSome && q.faults.contains .revaultAmountTooHigh

/-- Whether a fault keeps one unit from the outputs: it lowers the trigger
amount or the amount returned, and that amount is not zero. -/
def isLowered (q : Order) : Bool :=
  q.faults.contains .triggerAmountTooLow && (q.revault.getD 0).toNat < q.worth ||
    q.faults.contains .revaultAmountTooLow && 0 < (q.revault.getD 0).toNat

end Order

end Batch

/-- Coins on record are worth what the amounts of their vaults say. -/
theorem Vault.worth_eq_of_fundings {vs : List Vault} {fs : List Funding}
    (h : fundings vs = .ok fs) : worth fs = (vs.map fun v => (v.amount.getD 0).toNat).sum := by
  have hall := fundings_eq_ok_iff.mp h
  clear h
  unfold worth
  induction hall with
  | nil => rfl
  | cons hf _ ih =>
    obtain ⟨-, -, hamount⟩ := funding_eq_ok_iff.mp hf
    rw [List.map_cons, List.map_cons, List.sum_cons, List.sum_cons, ih, hamount]
    rfl

namespace Batch.Order

variable {q : Order} {b : Batch}

/-- What a batch puts into its outputs, fault by fault. -/
theorem amounts (h : q.build = .ok b) :
    (q.revault.getD 0).toNat ≤ q.worth ∧
      b.triggerOutput.value.toNat = q.worth - (q.revault.getD 0).toNat
        + (q.faults.contains .triggerAmountTooHigh).toNat
        - (q.faults.contains .triggerAmountTooLow).toNat ∧
      b.revaultOutput.map (·.value.toNat) = q.revault.map fun amount =>
        amount.toNat + (q.faults.contains .revaultAmountTooHigh).toNat
          - (q.faults.contains .revaultAmountTooLow).toNat := by
  obtain ⟨first, total, hmade⟩ := build_eq_ok h
  obtain ⟨fundings, hfundings, htotal⟩ := Vault.total_eq_ok_iff.mp hmade.total_eq
  rw [Vault.worth_eq_of_fundings hfundings] at htotal
  obtain ⟨remaining, hremaining, htrigger⟩ := hmade.trigger_eq
  rw [Sats.spend_eq_ok_iff] at hremaining
  have hworth : q.worth = (q.revault.getD 0).toNat + remaining.toNat := htotal.symm.trans hremaining
  refine ⟨by omega, ?_, ?_⟩
  · rw [perturbed_eq_ok htrigger, hworth, Nat.add_sub_cancel_left]
  · rcases revaultOutputUnder_eq_ok hmade.revault_eq with
      ⟨hnone, hout⟩ | ⟨amount, value, hsome, hout, hvalue⟩
    · rw [hnone, hout]
      rfl
    · rw [hsome, hout, Option.map_some, Option.map_some, perturbed_eq_ok hvalue]

/-- The outputs are the trigger output and what is returned. -/
theorem worth_outputs (b : Batch) :
    TxOut.worth b.outputs =
      b.triggerOutput.value.toNat + (b.revaultOutput.map (·.value.toNat)).getD 0 := by
  unfold TxOut.worth outputs
  cases b.revaultOutput <;> simp

/-- With at most one fault that changes an amount the outputs are worth what
the members are, or one unit more or less. -/
theorem balance (h : q.build = .ok b) (hone : q.faults.amountFaults.length ≤ 1) :
    TxOut.worth b.outputs + q.isLowered.toNat = q.worth + q.isRaised.toNat := by
  obtain ⟨hle, htrigger, hrevault⟩ := amounts h
  have hexcl := fun f g => FaultSet.not_contains_of_ne (f := f) (g := g) hone
  have hshift := shifted_add (q.worth - (q.revault.getD 0).toNat)
    (hexcl .triggerAmountTooHigh .triggerAmountTooLow (by decide) rfl rfl)
  have hraised : q.isRaised.toNat = (q.faults.contains .triggerAmountTooHigh).toNat +
      (q.revault.isSome && q.faults.contains .revaultAmountTooHigh).toNat := by
    refine toNat_or fun hhigh => ?_
    rw [hexcl .triggerAmountTooHigh .revaultAmountTooHigh (by decide) rfl rfl hhigh, Bool.and_false]
  have hlowered : q.isLowered.toNat =
      (q.faults.contains .triggerAmountTooLow &&
        decide (0 < q.worth - (q.revault.getD 0).toNat)).toNat +
      (q.faults.contains .revaultAmountTooLow && decide (0 < (q.revault.getD 0).toNat)).toNat := by
    rw [decide_eq_decide.mpr Nat.sub_pos_iff_lt]
    refine toNat_or fun hlow => ?_
    rw [hexcl .triggerAmountTooLow .revaultAmountTooLow (by decide) rfl rfl
      (Bool.and_eq_true_iff.mp hlow).1, Bool.false_and]
  rw [worth_outputs, hraised, hlowered, hrevault, htrigger]
  cases hr : q.revault with
  | none =>
    rw [hr] at hshift
    simp only [Option.getD_none, Option.map_none, Option.isSome_none, Bool.false_and,
      UInt64.toNat_zero, Nat.sub_zero, Nat.lt_irrefl, decide_false, Bool.and_false,
      Bool.toNat_false] at hshift ⊢
    omega
  | some amount =>
    have hreturned := shifted_add amount.toNat
      (hexcl .revaultAmountTooHigh .revaultAmountTooLow (by decide) rfl rfl)
    rw [hr] at hshift hle
    simp only [Option.getD_some, Option.map_some, Option.isSome_some, Bool.true_and]
      at hshift hle ⊢
    omega

/-- Without a fault that changes an amount nothing is shifted. -/
theorem not_shifted (hnone : q.faults.amountFaults = []) :
    q.isRaised = false ∧ q.isLowered = false := by
  have hlacks : ∀ f : Fault, f.changesAmount = true → q.faults.contains f = false := by
    intro f hf
    cases hcontains : q.faults.contains f with
    | false => rfl
    | true =>
      have hmem := FaultSet.mem_amountFaults.mpr ⟨hcontains, hf⟩
      rw [hnone] at hmem
      cases hmem
  unfold isRaised isLowered
  rw [hlacks .triggerAmountTooHigh rfl, hlacks .triggerAmountTooLow rfl,
    hlacks .revaultAmountTooHigh rfl, hlacks .revaultAmountTooLow rfl]
  exact ⟨Bool.and_false _, rfl⟩

/-- So none of several batches without such a fault is shifted. -/
theorem countP_shifted {orders : List Order} (hnone : ∀ q ∈ orders, q.faults.amountFaults = []) :
    orders.countP isRaised = 0 ∧ orders.countP isLowered = 0 := by
  rw [List.countP_eq_zero, List.countP_eq_zero]
  constructor
  · intro q hq
    rw [(not_shifted (hnone q hq)).1]
    exact Bool.false_ne_true
  · intro q hq
    rw [(not_shifted (hnone q hq)).2]
    exact Bool.false_ne_true

/-- Without such a fault trigger and revault amount make up what the members
are worth. -/
theorem conserves (h : q.build = .ok b) (hnone : q.faults.amountFaults = []) :
    b.triggerOutput.value.toNat + (b.revaultOutput.map (·.value.toNat)).getD 0 = q.worth := by
  have hbalance := balance h (by rw [hnone]; exact Nat.zero_le 1)
  obtain ⟨hraised, hlowered⟩ := not_shifted hnone
  rwa [worth_outputs, hraised, hlowered] at hbalance

end Batch.Order

end VaultCovenant
