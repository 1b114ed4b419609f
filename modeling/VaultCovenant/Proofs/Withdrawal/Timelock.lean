import VaultCovenant.Proofs.Execution
import VaultCovenant.Proofs.Script.Minimal

/-!
# The timelock of a withdrawal

A withdrawal holds its delay twice: as the script number that its leaf hands
to the timelock opcode, and as the sequence number of its input, at least one
and at most what 32 bits hold. BIP-112 compares the two part by part. Bit 31
of the operand turns the comparison off; bit 22 says in which unit the low 16
bits count; the bits in between are not looked at.

Results:
* `Timelock.met_max_one`: a delay is met by the sequence number made of it.
* `Timelock.met_pred_iff`: the sequence number one below meets the delays
  whose lowest bit that is set is one of those that are not looked at.
* `Withdrawal.meets_own_timelock`: a withdrawal without faults meets the
  timelock in its leaf.
* `Withdrawal.lowered_meets_timelock_iff`: when a withdrawal with a lowered
  sequence number meets it all the same.
-/

namespace VaultCovenant

/-! ## The comparison -/

namespace Timelock

/-- Whether a sequence number meets the operand of the timelock opcode: the
operand turns the comparison off, or the sequence number takes part in it,
counts in the same unit and is at least as high. -/
def Met (operand sequence : ℕ) : Prop :=
  operand.testBit 31 = true ∨
    sequence.testBit 31 = false ∧ sequence.testBit 22 = operand.testBit 22 ∧
      operand % 2 ^ 16 ≤ sequence % 2 ^ 16

instance (operand sequence : ℕ) : Decidable (Met operand sequence) :=
  inferInstanceAs (Decidable (_ ∨ _))

variable {n : ℕ}

theorem met_self (n : ℕ) : Met n n := by
  unfold Met
  cases h : n.testBit 31 with
  | false => exact Or.inr ⟨rfl, rfl, Nat.le_refl _⟩
  | true => exact Or.inl rfl

/-- A delay of zero is met by a sequence number of one. -/
theorem met_max_one (n : ℕ) : Met n (max 1 n) := by
  rcases Nat.eq_zero_or_pos n with rfl | hpos
  · decide
  · rw [Nat.max_eq_right hpos]
    exact met_self n

/-- The bit of the unit is kept when one is taken away, unless all bits below
it are clear. -/
theorem testBit_pred_eq_iff (hpos : 1 ≤ n) (k : ℕ) :
    (n - 1).testBit k = n.testBit k ↔ n % 2 ^ k ≠ 0 := by
  obtain ⟨m, rfl⟩ := Nat.exists_eq_add_of_le' hpos
  rw [Nat.add_sub_cancel, Nat.testBit_eq_decide_div_mod_eq, Nat.testBit_eq_decide_div_mod_eq,
    decide_eq_decide, Nat.succ_div, ne_eq, ← Nat.dvd_iff_mod_eq_zero]
  split <;> omega

/-- The low bits go down when one is taken away, unless they are all clear and
wrap around. -/
theorem mod_le_pred_mod_iff (hpos : 1 ≤ n) (k : ℕ) :
    n % 2 ^ k ≤ (n - 1) % 2 ^ k ↔ n % 2 ^ k = 0 := by
  obtain ⟨m, rfl⟩ := Nat.exists_eq_add_of_le' hpos
  rw [Nat.add_sub_cancel, ← Nat.dvd_iff_mod_eq_zero]
  have hnext := Nat.mod_add_div (m + 1) (2 ^ k)
  have hmod := Nat.mod_add_div m (2 ^ k)
  by_cases hdvd : 2 ^ k ∣ m + 1
  · simp [Nat.mod_eq_zero_of_dvd hdvd, hdvd]
  · rw [Nat.succ_div_of_not_dvd hdvd] at hnext
    simp only [hdvd, iff_false]
    omega

/-- What is taken from the low 16 bits is seen, unless they are clear; and what
is then borrowed from bit 22 is seen, unless a bit in between can be
borrowed from. -/
theorem met_pred_iff (hpos : 1 ≤ n) (hlt : n < 2 ^ 31) :
    Met n (n - 1) ↔ n % 2 ^ 16 = 0 ∧ n % 2 ^ 22 ≠ 0 := by
  have hdisabled : n.testBit 31 = false := Nat.testBit_lt_two_pow hlt
  have hdisabled' : (n - 1).testBit 31 = false := Nat.testBit_lt_two_pow (by omega)
  unfold Met
  rw [hdisabled, hdisabled', testBit_pred_eq_iff hpos, mod_le_pred_mod_iff hpos]
  simp [and_comm]

end Timelock

/-! ## What a withdrawal compares -/

/-- A transaction whose one input comes to the timelock opcode with a delay,
in an operand that the opcode reads, and has a given sequence number. -/
structure Transaction.Timelocked (tx : Transaction) (delay sequence : ℕ) : Prop where
  version : tx.version = 2
  sequence : ∃ input, tx.inputs = [input] ∧ input.sequence.toNat = sequence
  operand : ∃ operand, (∀ check spent,
      tx.stackAt? check spent 0 Opcode.checkSequenceVerify = some [operand]) ∧
    operand.length ≤ 5 ∧ ScriptNumber.decodeMinimal? operand = some delay

namespace Withdrawal

variable {members : List Vault} {targets : List TxOut} {revault : Option Sats}
  {shaping faults : FaultSet} {first : Vault} {total : Sats} {b : Batch} {o : Outpoint}
  {tx : Transaction} {d : ℕ}

/-- One fault lowers the sequence number, and no other changes it. -/
theorem sequence_build (h : Batch.Made members targets revault shaping first total b)
    (hdelay : b.spendDelay.toInt = d) (hd : d ≤ 0xffffffff) (hbuild : build o b faults = .ok tx) :
    ∃ input, tx.inputs = [input] ∧ input.sequence.toNat =
      if faults.contains .withdrawalSequenceTooLow then max 1 d - 1 else max 1 d := by
  obtain ⟨c, hc⟩ := h.controlBlock_withdraw_isOk
  rw [build_eq h hc] at hbuild
  cases hbuild
  have hsequence : (Batch.templateSequence b.spendDelay).toNat = max 1 d := by
    have := Batch.toNat_templateSequence b.spendDelay
    omega
  unfold applyFaults
  split
  · refine ⟨_, rfl, ?_⟩
    show (if Batch.templateSequence b.spendDelay = 0 then 0
      else Batch.templateSequence b.spendDelay - 1).toNat = _
    rw [toNat_lowerSequence, hsequence]
  · exact ⟨_, rfl, hsequence⟩

theorem timelocked_build (h : Batch.Made members targets revault shaping first total b)
    (hdelay : b.spendDelay.toInt = d) (hd : d ≤ 0xffffffff) (hbuild : build o b faults = .ok tx) :
    tx.Timelocked d
      (if faults.contains .withdrawalSequenceTooLow then max 1 d - 1 else max 1 d) where
  version := by
    obtain ⟨c, hc⟩ := h.controlBlock_withdraw_isOk
    rw [build_eq h hc] at hbuild
    cases hbuild
    show b.template.version = 2
    rw [h.template_eq]
    rfl
  sequence := sequence_build h hdelay hd hbuild
  operand := by
    refine ⟨ScriptNumber.encode d, fun check spent => ?_,
      ScriptNumber.length_encode_natCast_le hd, ScriptNumber.decodeMinimal?_eq_some_iff.mpr rfl⟩
    rw [← hdelay]
    exact stackAt?_checkSequenceVerify h hbuild check spent

/-! ## Withdrawals without faults -/

/-- The withdrawal of any batch whose delay fits into 32 bits meets the
timelock in its own leaf. The delay is that of the first member, one more
where a fault raised it. -/
theorem meets_own_timelock (hbatch : Batch.build members targets revault shaping = .ok b)
    (hdelay : b.spendDelay.toInt = d) (hd : d ≤ 0xffffffff) (o : Outpoint) :
    ∃ first tx, members.head? = some first ∧
      Batch.delayUnder shaping first.policy.spendDelay = .ok b.spendDelay ∧
      build o b .none = .ok tx ∧ tx.Timelocked d (max 1 d) ∧ Timelock.Met d (max 1 d) := by
  obtain ⟨first, total, hmade⟩ := Batch.build_eq_ok hbatch
  obtain ⟨tx, hbuild⟩ := build_isOk o .none hmade
  exact ⟨first, tx, hmade.first_eq, hmade.delay_eq, hbuild,
    timelocked_build hmade hdelay hd hbuild, Timelock.met_max_one d⟩

/-- A vault with a delay of which the 22 low bits are set, and a batch in which
a fault raised it to bit 22: the withdrawal and its leaf agree on the unit. -/
theorem meets_own_timelock_unit :
    ∃ (v : Vault) (b : Batch) (tx : Transaction), v.policy.spendDelay = 4194303 ∧
      Batch.build [v] [⟨980000, Script.anyone⟩] none (.only .triggerBadSpendDelay) = .ok b ∧
      b.spendDelay.toInt = (4194304 : ℕ) ∧ build .null b .none = .ok tx ∧
      tx.Timelocked 4194304 4194304 ∧ Timelock.Met 4194304 4194304 := by
  obtain ⟨p, hp⟩ : ∃ p, Policy.ofParams { spendDelay := 4194303 } = .ok p := ⟨_, rfl⟩
  obtain ⟨v, f, -, hvp, hf, -, hamount, -⟩ := Vault.exists_funded 1 p .null 990000
  have htotal : Vault.total [v] = .ok 990000 := hamount ▸ Vault.total_singleton hf
  have hdelay : v.policy.spendDelay = 4194303 := by rw [hvp, (Policy.ofParams_eq_ok hp).1]
  have hraised : Batch.delayUnder (.only .triggerBadSpendDelay) v.policy.spendDelay =
      .ok 4194304 := by
    rw [hdelay]
    rfl
  obtain ⟨b, hb⟩ := Batch.build_isOk_under [⟨980000, Script.anyone⟩] none
    (.only .triggerBadSpendDelay) htotal hraised rfl rfl rfl
  obtain ⟨first, total, hmade⟩ := Batch.build_eq_ok hb
  obtain rfl : v = first := Option.some.inj hmade.first_eq
  have hbatch : b.spendDelay.toInt = (4194304 : ℕ) := by
    rw [Except.ok.inj (hmade.delay_eq.symm.trans hraised)]
    rfl
  obtain ⟨-, tx, -, -, hbuild, htimelocked, hmet⟩ :=
    meets_own_timelock hb hbatch (by decide) .null
  exact ⟨v, b, tx, hdelay, hb, hbatch, hbuild, htimelocked, hmet⟩

/-! ## Lowered sequence numbers -/

/-- A withdrawal whose sequence number was lowered meets the timelock in its
leaf exactly for the delays of which the low 16 bits are clear and one of the
next six is set: there the low bits wrap around to their greatest value, and
the bit of the unit stays as it was. For every other delay that the timelock
looks at the comparison fails. -/
theorem lowered_meets_timelock_iff (hbatch : Batch.build members targets revault shaping = .ok b)
    (hdelay : b.spendDelay.toInt = d) (hpos : 1 ≤ d) (hlt : d < 2 ^ 31)
    (hfault : faults.contains .withdrawalSequenceTooLow = true) (o : Outpoint) :
    ∃ tx, build o b faults = .ok tx ∧ tx.Timelocked d (d - 1) ∧
      (Timelock.Met d (d - 1) ↔ d % 2 ^ 16 = 0 ∧ d % 2 ^ 22 ≠ 0) := by
  obtain ⟨first, total, hmade⟩ := Batch.build_eq_ok hbatch
  obtain ⟨tx, hbuild⟩ := build_isOk o faults hmade
  have htimelocked := timelocked_build hmade hdelay (by omega) hbuild
  rw [if_pos hfault, Nat.max_eq_right hpos] at htimelocked
  exact ⟨tx, hbuild, htimelocked, Timelock.met_pred_iff hpos hlt⟩

/-- With the default delay of ten the lowered sequence number fails the
comparison. With a delay of 65536 it is 65535, of which the low bits are the
greatest there are, and the comparison succeeds. -/
theorem lowered_meets_timelock_iff_wrapped :
    ∃ (v w : Vault) (b c : Batch) (tx tx' : Transaction),
      v.policy.spendDelay = 10 ∧ w.policy.spendDelay = 65536 ∧
      Batch.build [v] [⟨980000, Script.anyone⟩] none .none = .ok b ∧
      Batch.build [w] [⟨980000, Script.anyone⟩] none .none = .ok c ∧
      build .null b (.only .withdrawalSequenceTooLow) = .ok tx ∧
      tx.Timelocked 10 9 ∧ ¬ Timelock.Met 10 9 ∧
      build .null c (.only .withdrawalSequenceTooLow) = .ok tx' ∧
      tx'.Timelocked 65536 65535 ∧ Timelock.Met 65536 65535 := by
  obtain ⟨v, b, hv, hb, hdelay⟩ := Batch.exists_build_delay 10 [⟨980000, Script.anyone⟩]
  obtain ⟨w, c, hw, hc, hdelay'⟩ := Batch.exists_build_delay 65536 [⟨980000, Script.anyone⟩]
  have hb10 : b.spendDelay.toInt = (10 : ℕ) := by
    rw [hdelay]
    rfl
  have hc65536 : c.spendDelay.toInt = (65536 : ℕ) := by
    rw [hdelay']
    rfl
  have hfault : (FaultSet.only .withdrawalSequenceTooLow).contains .withdrawalSequenceTooLow =
    true := rfl
  obtain ⟨tx, hbuild, htimelocked, hmet⟩ :=
    lowered_meets_timelock_iff hb hb10 (by decide) (by decide) hfault .null
  obtain ⟨tx', hbuild', htimelocked', hmet'⟩ :=
    lowered_meets_timelock_iff hc hc65536 (by decide) (by decide) hfault .null
  exact ⟨v, w, b, c, tx, tx', hv, hw, hb, hc, hbuild, htimelocked,
    fun h => absurd (hmet.mp h).1 (by decide), hbuild', htimelocked', hmet'.mpr (by decide)⟩

end Withdrawal

end VaultCovenant
