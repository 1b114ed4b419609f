import Mathlib.Algebra.GroupWithZero.Nat
import VaultCovenant.Proofs.FirstSeen
import VaultCovenant.Proofs.Sequencing
import VaultCovenant.Recovery

/-!
# The outputs of a recovery

Every source is credited to the output with its recovery script. How much each
script holds is followed source by source.

Results:
* `Recovery.scripts_creditAll`: there is one output for every script, in the
  order in which the scripts are first asked for.
* `Recovery.positions_creditAll`: the position of a source is that of its
  script.
* `Recovery.balance_creditAll`, `Recovery.value_creditAll`: an output holds
  the sum of the sources with its script.
* `Recovery.sum_creditAll`: together the outputs hold what the sources spend.
* `Recovery.creditAll_isOk_of_claimed`, `Recovery.creditAll_eq_error`: only a
  sum for one script that 64 bits do not hold is refused.
-/

namespace VaultCovenant.Recovery

/-- The scripts of outputs. -/
def scripts (outputs : List TxOut) : List Script := outputs.map TxOut.scriptPubkey

theorem scripts_nil : scripts [] = ([] : List Script).eraseDups := rfl

@[simp] theorem scripts_cons (o : TxOut) (outputs : List TxOut) :
    scripts (o :: outputs) = o.scriptPubkey :: scripts outputs := rfl

/-- What the outputs with a script hold together. -/
def balance (outputs : List TxOut) (spk : Script) : ℕ :=
  ((outputs.filter fun o => o.scriptPubkey = spk).map (·.value.toNat)).sum

/-- What sources with a recovery script spend together. -/
def claimed (sources : List Source) (spk : Script) : ℕ :=
  ((sources.filter fun s => s.recoverySpk = spk).map (·.spent.value.toNat)).sum

@[simp] theorem balance_nil (spk : Script) : balance [] spk = 0 := rfl

theorem balance_cons (o : TxOut) (outputs : List TxOut) (spk : Script) :
    balance (o :: outputs) spk =
      (if o.scriptPubkey = spk then o.value.toNat else 0) + balance outputs spk := by
  unfold balance
  rw [List.filter_cons]
  by_cases h : o.scriptPubkey = spk <;> simp [h]

theorem claimed_cons (s : Source) (sources : List Source) (spk : Script) :
    claimed (s :: sources) spk =
      (if s.recoverySpk = spk then s.spent.value.toNat else 0) + claimed sources spk := by
  unfold claimed
  rw [List.filter_cons]
  by_cases h : s.recoverySpk = spk <;> simp [h]

theorem balance_of_not_mem {outputs : List TxOut} {spk : Script} (h : spk ∉ scripts outputs) :
    balance outputs spk = 0 := by
  induction outputs with
  | nil => rfl
  | cons o rest ih =>
    rw [scripts_cons, List.mem_cons, not_or] at h
    rw [balance_cons, if_neg (Ne.symm h.1), ih h.2]

/-- Where no script stands twice, an output holds all there is for its
script. -/
theorem balance_of_mem {outputs : List TxOut} (hnodup : (scripts outputs).Nodup) {o : TxOut}
    (ho : o ∈ outputs) : balance outputs o.scriptPubkey = o.value.toNat := by
  induction outputs with
  | nil => simp at ho
  | cons a rest ih =>
    rw [scripts_cons, List.nodup_cons] at hnodup
    rw [balance_cons]
    rcases List.mem_cons.mp ho with rfl | ho
    · rw [if_pos rfl, balance_of_not_mem hnodup.1, Nat.add_zero]
    · have hne : a.scriptPubkey ≠ o.scriptPubkey := by
        intro heq
        exact hnodup.1 (heq ▸ List.mem_map_of_mem ho)
      rw [if_neg hne, ih hnodup.2 ho, Nat.zero_add]

/-- The output at the position of a script pays that script. -/
theorem getElem?_idxOf_scripts {outputs : List TxOut} {spk : Script} (h : spk ∈ scripts outputs) :
    ∃ o, outputs[(scripts outputs).idxOf spk]? = some o ∧ o.scriptPubkey = spk := by
  have hlt := List.idxOf_lt_length_of_mem h
  have hget : (scripts outputs)[(scripts outputs).idxOf spk]? = some spk := by
    rw [List.getElem?_eq_getElem hlt, List.getElem_idxOf hlt]
  rw [scripts, List.getElem?_map] at hget
  exact Option.map_eq_some_iff.mp hget

/-! ## Crediting one source -/

section One

variable {amount : Sats} {spk : Script} {start position : ℕ} {before after : List TxOut}

/-- Crediting a script either raises the output that is there or adds one at
the end. -/
theorem credit_eq_ok (h : credit amount spk start before = .ok (after, position)) :
    scripts after = (if spk ∈ scripts before then scripts before else scripts before ++ [spk]) ∧
      position = start + (scripts before).idxOf spk ∧
      ∀ spk', balance after spk' =
        balance before spk' + if spk = spk' then amount.toNat else 0 := by
  induction before generalizing start after position with
  | nil =>
    cases h
    refine ⟨rfl, rfl, fun spk' => ?_⟩
    rw [balance_cons]
    simp
  | cons o rest ih =>
    unfold credit at h
    by_cases ho : o.scriptPubkey = spk
    · rw [if_pos ho] at h
      obtain ⟨value, hvalue, h⟩ := bind_eq_ok_iff.mp h
      cases h
      rw [Sats.add_eq_ok_iff] at hvalue
      refine ⟨by simp [scripts, ho], by simp [scripts, ho], fun spk' => ?_⟩
      rw [balance_cons, balance_cons]
      by_cases hspk : spk = spk'
      · simp only [ho, hspk, if_true]
        omega
      · simp [ho, hspk]
    · rw [if_neg ho] at h
      obtain ⟨⟨rest', position'⟩, hrest, h⟩ := bind_eq_ok_iff.mp h
      cases h
      obtain ⟨hscripts, hposition, hbalance⟩ := ih hrest
      refine ⟨?_, ?_, fun spk' => ?_⟩
      · rw [scripts_cons, scripts_cons, hscripts]
        by_cases hmem : spk ∈ scripts rest
        · rw [if_pos hmem, if_pos (List.mem_cons_of_mem _ hmem)]
        · rw [if_neg hmem, if_neg (List.not_mem_cons_of_ne_of_not_mem (Ne.symm ho) hmem)]
          rfl
      · rw [hposition, scripts_cons, List.idxOf_cons, beq_eq_false_iff_ne.mpr ho]
        simp only [cond_false]
        omega
      · rw [balance_cons, balance_cons, hbalance spk']
        omega

theorem scripts_credit {asked : List Script} (hbefore : scripts before = asked.eraseDups)
    (h : credit amount spk start before = .ok (after, position)) :
    scripts after = (asked ++ [spk]).eraseDups := by
  rw [(credit_eq_ok h).1, hbefore]
  by_cases hmem : spk ∈ asked
  · rw [if_pos (List.mem_eraseDups.mpr hmem), eraseDups_concat_of_mem hmem]
  · rw [if_neg (mt List.mem_eraseDups.mp hmem), eraseDups_concat_of_not_mem hmem]

theorem position_credit (h : credit amount spk start before = .ok (after, position)) :
    position = start + (scripts after).idxOf spk := by
  obtain ⟨hscripts, hposition, -⟩ := credit_eq_ok h
  rw [hposition, hscripts]
  by_cases hmem : spk ∈ scripts before
  · rw [if_pos hmem]
  -- a script that is not there yet has the first position behind the outputs
  · rw [if_neg hmem, List.idxOf_append, if_neg hmem, List.idxOf_eq_length hmem]
    simp

end One

/-! ## Crediting all sources -/

section All

variable {before after : List TxOut} {sources : List Source} {positions : List ℕ}
  {asked : List Script}

theorem creditAll_cons_eq_ok {s : Source}
    (h : creditAll before (s :: sources) = .ok (after, positions)) :
    ∃ between position rest, credit s.spent.value s.recoverySpk 0 before = .ok (between, position) ∧
      creditAll between sources = .ok (after, rest) ∧ positions = position :: rest := by
  obtain ⟨⟨between, position⟩, hcredit, h⟩ := bind_eq_ok_iff.mp h
  obtain ⟨⟨after', rest⟩, hrest, h⟩ := bind_eq_ok_iff.mp h
  cases h
  exact ⟨between, position, rest, hcredit, hrest, rfl⟩

theorem scripts_creditAll (hbefore : scripts before = asked.eraseDups)
    (h : creditAll before sources = .ok (after, positions)) :
    scripts after = (asked ++ sources.map Source.recoverySpk).eraseDups := by
  induction sources generalizing before asked positions with
  | nil =>
    cases h
    rw [hbefore, List.map_nil, List.append_nil]
  | cons s rest ih =>
    obtain ⟨between, position, positions', hcredit, hrest, rfl⟩ := creditAll_cons_eq_ok h
    rw [ih (scripts_credit hbefore hcredit) hrest, List.map_cons, List.append_assoc]
    rfl

/-- A source's position is that of its script, whatever is added later. -/
theorem positions_creditAll (hbefore : scripts before = asked.eraseDups)
    (h : creditAll before sources = .ok (after, positions)) :
    positions = sources.map fun s => (scripts after).idxOf s.recoverySpk := by
  induction sources generalizing before asked positions with
  | nil =>
    cases h
    rfl
  | cons s rest ih =>
    obtain ⟨between, position, positions', hcredit, hrest, rfl⟩ := creditAll_cons_eq_ok h
    have hbetween := scripts_credit hbefore hcredit
    rw [List.map_cons, ih hbetween hrest]
    congr 1
    -- the script stands among those asked for so far, so its position is final
    have hmem : s.recoverySpk ∈ asked ++ [s.recoverySpk] := by simp
    rw [position_credit hcredit, scripts_creditAll hbetween hrest, idxOf_eraseDups_append hmem,
      hbetween, Nat.zero_add]

theorem sum_credit {amount : Sats} {spk : Script} {start position : ℕ}
    (h : credit amount spk start before = .ok (after, position)) :
    (after.map (·.value.toNat)).sum = (before.map (·.value.toNat)).sum + amount.toNat := by
  induction before generalizing start after position with
  | nil =>
    cases h
    simp
  | cons o rest ih =>
    unfold credit at h
    split at h
    · obtain ⟨value, hvalue, h⟩ := bind_eq_ok_iff.mp h
      cases h
      rw [Sats.add_eq_ok_iff] at hvalue
      simp only [List.map_cons, List.sum_cons]
      omega
    · obtain ⟨⟨rest', position'⟩, hrest, h⟩ := bind_eq_ok_iff.mp h
      cases h
      have := ih hrest
      simp only [List.map_cons, List.sum_cons]
      omega

/-- The outputs hold together what the sources spend together. -/
theorem sum_creditAll (h : creditAll before sources = .ok (after, positions)) :
    (after.map (·.value.toNat)).sum =
      (before.map (·.value.toNat)).sum + (sources.map (·.spent.value.toNat)).sum := by
  induction sources generalizing before positions with
  | nil =>
    cases h
    rfl
  | cons s rest ih =>
    obtain ⟨between, position, positions', hcredit, hrest, rfl⟩ := creditAll_cons_eq_ok h
    rw [ih hrest, sum_credit hcredit, List.map_cons, List.sum_cons]
    omega

theorem balance_creditAll (h : creditAll before sources = .ok (after, positions)) (spk : Script) :
    balance after spk = balance before spk + claimed sources spk := by
  induction sources generalizing before positions with
  | nil =>
    cases h
    rfl
  | cons s rest ih =>
    obtain ⟨between, position, positions', hcredit, hrest, rfl⟩ := creditAll_cons_eq_ok h
    rw [ih hrest, (credit_eq_ok hcredit).2.2 spk, claimed_cons]
    omega

theorem value_creditAll {positions : List ℕ} (h : creditAll [] sources = .ok (after, positions))
    {o : TxOut} (ho : o ∈ after) : o.value.toNat = claimed sources o.scriptPubkey := by
  have hnodup : (scripts after).Nodup := by
    rw [scripts_creditAll scripts_nil h]
    exact nodup_eraseDups _
  have hbalance := balance_creditAll h o.scriptPubkey
  rw [balance_nil, Nat.zero_add] at hbalance
  rw [← hbalance, balance_of_mem hnodup ho]

/-- What a script is paid fits into 64 bits. -/
theorem claimed_lt_of_creditAll (h : creditAll [] sources = .ok (after, positions))
    (spk : Script) : claimed sources spk < Sats.bound := by
  by_cases hmem : spk ∈ scripts after
  · obtain ⟨o, ho, rfl⟩ := List.mem_map.mp hmem
    rw [← value_creditAll h ho]
    exact o.value.toNat_lt
  · have hbalance := balance_creditAll h spk
    rw [balance_nil, balance_of_not_mem hmem, Nat.zero_add] at hbalance
    rw [← hbalance]
    decide

/-- A source can be credited when 64 bits suffice for what its script holds
then. -/
theorem credit_isOk {amount : Sats} {spk : Script} (start : ℕ)
    (h : balance before spk + amount.toNat < Sats.bound) :
    ∃ after position, credit amount spk start before = .ok (after, position) := by
  induction before generalizing start with
  | nil => exact ⟨_, _, rfl⟩
  | cons o rest ih =>
    rw [balance_cons] at h
    unfold credit
    split
    · rename_i ho
      rw [if_pos ho] at h
      have hvalue : o.value.add amount = .ok (o.value + amount) := if_pos (by omega)
      exact ⟨_, _, bind_eq_ok_iff.mpr ⟨_, hvalue, rfl⟩⟩
    · obtain ⟨after, position, hrest⟩ := ih (start + 1) (by omega)
      exact ⟨_, _, bind_eq_ok_iff.mpr ⟨(after, position), hrest, rfl⟩⟩

/-- The sources can be credited when 64 bits suffice for every script. -/
theorem creditAll_isOk_of_claimed
    (h : ∀ spk, balance before spk + claimed sources spk < Sats.bound) :
    ∃ after positions, creditAll before sources = .ok (after, positions) := by
  induction sources generalizing before with
  | nil => exact ⟨_, _, rfl⟩
  | cons s rest ih =>
    have hone := h s.recoverySpk
    rw [claimed_cons, if_pos rfl] at hone
    have hroom : balance before s.recoverySpk + s.spent.value.toNat < Sats.bound := by omega
    obtain ⟨between, position, hcredit⟩ := credit_isOk 0 hroom
    -- what was credited is now held by the outputs instead
    have hbound : ∀ spk, balance between spk + claimed rest spk < Sats.bound := by
      intro spk
      have hspk := h spk
      rw [claimed_cons, ← Nat.add_assoc, ← (credit_eq_ok hcredit).2.2 spk] at hspk
      exact hspk
    obtain ⟨after, positions, hrest⟩ := ih hbound
    exact ⟨after, _, bind_eq_ok_iff.mpr ⟨(between, position), hcredit, bind_eq_ok_iff.mpr
      ⟨(after, positions), hrest, rfl⟩⟩⟩

theorem balance_le_sum (outputs : List TxOut) (spk : Script) :
    balance outputs spk ≤ (outputs.map (·.value.toNat)).sum := by
  induction outputs with
  | nil => exact Nat.le_refl _
  | cons o rest ih =>
    rw [balance_cons, List.map_cons, List.sum_cons]
    split <;> omega

theorem claimed_le_sum (sources : List Source) (spk : Script) :
    claimed sources spk ≤ (sources.map (·.spent.value.toNat)).sum := by
  induction sources with
  | nil => exact Nat.le_refl _
  | cons s rest ih =>
    rw [claimed_cons, List.map_cons, List.sum_cons]
    split <;> omega

/-- So they can when 64 bits suffice for all of them together. -/
theorem creditAll_isOk (h : (before.map (·.value.toNat)).sum +
      (sources.map (·.spent.value.toNat)).sum < Sats.bound) :
    ∃ after positions, creditAll before sources = .ok (after, positions) := by
  refine creditAll_isOk_of_claimed fun spk => ?_
  have hbalance := balance_le_sum before spk
  have hclaimed := claimed_le_sum sources spk
  omega

/-- Only a sum can be refused. -/
theorem credit_eq_error {amount : Sats} {spk : Script} {start : ℕ} {e : Failure}
    (h : credit amount spk start before = .error e) : e = .overflow := by
  induction before generalizing start with
  | nil => cases h
  | cons o rest ih =>
    unfold credit at h
    split at h
    · rcases bind_eq_error_iff.mp h with h | ⟨value, -, h⟩
      · unfold Sats.add at h
        split at h <;> cases h
        rfl
      · cases h
    · rcases bind_eq_error_iff.mp h with h | ⟨value, -, h⟩
      · exact ih h
      · cases h

theorem creditAll_eq_error {e : Failure} (h : creditAll before sources = .error e) :
    e = .overflow := by
  induction sources generalizing before with
  | nil => cases h
  | cons s rest ih =>
    rcases bind_eq_error_iff.mp h with h | ⟨between, -, h⟩
    · exact credit_eq_error h
    · rcases bind_eq_error_iff.mp h with h | ⟨after, -, h⟩
      · exact ih h
      · cases h

end All

end VaultCovenant.Recovery
