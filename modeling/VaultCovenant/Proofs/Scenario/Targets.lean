import VaultCovenant.Proofs.Amount.Shares
import VaultCovenant.Proofs.Vault.Output
import VaultCovenant.Scenario.Flow

/-!
# Targets of a withdrawal

An amount is withdrawn in shares, each to a key of its own. The secrets of the
keys are consecutive numbers, none of which is zero or leaves 64 bits. The list
of the amounts is made at once and holds more of them than the list of the
outputs, which grows.

Results:
* `withdrawalTargets_pays`: the outputs pay the shares, in order, to the keys of
  the numbers from the first on.
* `withdrawalTargets_eq_overflow_iff`: they are refused exactly when the list of
  the outputs has no room for them.
* `Sats.split_divides`: a division into parts loses nothing, and so the outputs
  pay exactly what is withdrawn.
-/

namespace VaultCovenant

/-- The output pays an amount to the key of a scalar, which alone can spend it. -/
def TxOut.PaysKey (o : TxOut) (amount : Sats) (scalar : ℕ) : Prop :=
  ∃ key : SecretKey, key.scalar = scalar ∧
    o = ⟨amount, (TaprootTree.keyOnly key.xOnly).scriptPubkey⟩

theorem targetOutput_pays (amount : Sats) {secret : ℕ} (hpos : 0 < secret)
    (hlt : secret < Sats.bound) :
    ∃ o, targetOutput amount secret = .ok o ∧ o.PaysKey amount secret := by
  have hnat := Sats.toNat_ofNat hlt
  have hne : UInt64.ofNat secret ≠ 0 := by
    intro hzero
    rw [hzero, UInt64.toNat_zero] at hnat
    omega
  obtain ⟨key, hkey⟩ := SecretKey.ofScalar_isOk hne
  refine ⟨_, bind_eq_ok_iff.mpr ⟨key, hkey, rfl⟩, key, ?_, rfl⟩
  rw [SecretKey.ofScalar_eq_ok hkey, hnat]

section Targets

variable {parts : UInt64}

/-- Up to the last number there is a key, so every share has its output. -/
theorem mapM_targetOutput_pays (total : Sats) (h : parts.toNat ≤ Room.most Sats.size) :
    ∃ targets, ((total.shares parts 0).zipIdx firstTargetSecret).mapM
        (fun p => Failure.lift (targetOutput p.1 p.2)) = .ok targets ∧
      List.Forall₂ (fun p o => TxOut.PaysKey o p.1 p.2)
        ((total.shares parts 0).zipIdx firstTargetSecret) targets := by
  have htarget : ∀ p ∈ (total.shares parts 0).zipIdx firstTargetSecret,
      ∃ o, Failure.lift (targetOutput p.1 p.2) = .ok o ∧ o.PaysKey p.1 p.2 := by
    rintro ⟨amount, secret⟩ hmem
    obtain ⟨hle, hlt, -⟩ := List.mem_zipIdx hmem
    rw [Sats.length_shares] at hlt
    unfold firstTargetSecret at hle hlt
    have hroom : secret < Sats.bound := by
      unfold Room.most Room.bytes Sats.size at h
      unfold Sats.bound
      omega
    obtain ⟨o, ho, hpays⟩ := targetOutput_pays amount (show 0 < secret by omega) hroom
    exact ⟨o, lift_eq_ok_iff.mpr ho, hpays⟩
  obtain ⟨targets, htargets⟩ := mapM_isOk fun p hp => (htarget p hp).imp fun _ ho => ho.1
  refine ⟨targets, htargets, ?_⟩
  have hall := mapM_eq_ok_iff.mp htargets
  refine forall₂_of_getElem? hall.length_eq fun i p hp => ?_
  obtain ⟨o, ho, hmade⟩ := forall₂_getElem? hall hp
  obtain ⟨o', hmade', hpays⟩ := htarget p (List.mem_of_getElem? hp)
  rw [hmade'] at hmade
  cases hmade
  exact ⟨o, ho, hpays⟩

theorem length_of_paysKey {total : Sats} {targets : List TxOut}
    (h : List.Forall₂ (fun p o => TxOut.PaysKey o p.1 p.2)
      ((total.shares parts 0).zipIdx firstTargetSecret) targets) :
    targets.length = parts.toNat := by
  rw [← h.length_eq, List.length_zipIdx, Sats.length_shares]

/-- Where there is room for the outputs there is room for the amounts. -/
theorem withdrawalTargets_pays (total : Sats) (h : parts.toNat ≤ Room.mostGrown TxOut.size) :
    ∃ targets, withdrawalTargets total parts = .ok targets ∧
      List.Forall₂ (fun p o => TxOut.PaysKey o p.1 p.2)
        ((total.shares parts 0).zipIdx firstTargetSecret) targets := by
  have hamounts : parts.toNat ≤ Room.most Sats.size := Nat.le_trans h (by decide)
  obtain ⟨targets, htargets, hpays⟩ := mapM_targetOutput_pays total hamounts
  have hroom : Room.check (Room.mostGrown TxOut.size) targets.length = .ok () :=
    Room.check_eq_ok_iff.mpr (length_of_paysKey hpays ▸ h)
  refine ⟨targets, ?_, hpays⟩
  exact bind_eq_ok_iff.mpr ⟨_, Sats.split_eq_ok_iff.mpr ⟨hamounts, rfl⟩,
    bind_eq_ok_iff.mpr ⟨targets, htargets, bind_eq_ok_iff.mpr ⟨(), hroom, rfl⟩⟩⟩

/-- With more outputs than a list can grow to, either list has no room. -/
theorem withdrawalTargets_eq_overflow_iff (total : Sats) :
    withdrawalTargets total parts = .error .overflow ↔
      Room.mostGrown TxOut.size < parts.toNat := by
  constructor
  · intro h
    by_contra hroom
    obtain ⟨targets, htargets, -⟩ := withdrawalTargets_pays total (Nat.not_lt.mp hroom)
    rw [htargets] at h
    cases h
  · intro h
    by_cases hamounts : parts.toNat ≤ Room.most Sats.size
    · obtain ⟨targets, htargets, hpays⟩ := mapM_targetOutput_pays total hamounts
      have hfull : Room.check (Room.mostGrown TxOut.size) targets.length = .error .overflow :=
        Room.check_eq_overflow_iff.mpr (length_of_paysKey hpays ▸ h)
      exact bind_eq_error_iff.mpr (Or.inr ⟨_, Sats.split_eq_ok_iff.mpr ⟨hamounts, rfl⟩,
        bind_eq_error_iff.mpr (Or.inr ⟨targets, htargets,
          bind_eq_error_iff.mpr (Or.inl hfull)⟩)⟩)
    · exact bind_eq_error_iff.mpr
        (Or.inl (Sats.split_eq_overflow_iff.mpr (Nat.not_le.mp hamounts)))

theorem withdrawalTargets_isOk (total : Sats) (h : parts.toNat ≤ Room.mostGrown TxOut.size) :
    ∃ targets, withdrawalTargets total parts = .ok targets :=
  (withdrawalTargets_pays total h).imp fun _ htargets => htargets.1

/-- The values of outputs that pay amounts to numbered keys are the amounts. -/
theorem values_of_paysKey {amounts : List Sats} {first : ℕ} {targets : List TxOut}
    (h : List.Forall₂ (fun p o => TxOut.PaysKey o p.1 p.2) (amounts.zipIdx first) targets) :
    targets.map (·.value) = amounts := by
  have hvalues : targets.map (·.value) = (amounts.zipIdx first).map (·.1) := by
    rw [← List.forall₂_eq_eq_eq, List.forall₂_map_left_iff, List.forall₂_map_right_iff]
    refine h.flip.imp fun o p hpays => ?_
    obtain ⟨key, -, rfl⟩ := hpays
    rfl
  rw [hvalues, List.zipIdx_map_fst]

/-- A division into parts loses nothing and stays within 64 bits at every step.
What is withdrawn is paid out exactly, to keys with consecutive secrets. -/
theorem Sats.split_divides (hpos : parts ≠ 0) :
    (parts < 0x1000000000000000 → ∀ total fee : Sats, ∃ amounts,
      total.split parts fee = .ok amounts ∧
      Divides amounts (total.toNat - fee.toNat) parts.toNat ∧
      total.checkedShares parts fee = .ok amounts) ∧
    (parts ≤ 0x200000000000000 → ∀ total : Sats, ∃ targets,
      withdrawalTargets total parts = .ok targets ∧
      targets.length = parts.toNat ∧
      (targets.map fun o => o.value.toNat).sum = total.toNat ∧
      ∀ (i : ℕ) (o : TxOut), targets[i]? = some o → o.PaysKey o.value (4 + i)) := by
  constructor
  · intro hbound total fee
    have hroom : parts.toNat ≤ Room.most size :=
      Nat.le_of_lt_succ (UInt64.lt_iff_toNat_lt.mp hbound)
    exact ⟨_, split_eq_ok_iff.mpr ⟨hroom, rfl⟩, shares_divides total fee hpos,
      checkedShares_eq total parts fee⟩
  · intro hbound total
    obtain ⟨targets, htargets, hpays⟩ :=
      withdrawalTargets_pays total (UInt64.le_iff_toNat_le.mp hbound)
    have hvalues := values_of_paysKey hpays
    refine ⟨targets, htargets, length_of_paysKey hpays, ?_, ?_⟩
    · have hsum := sum_shares total 0 hpos
      rw [← hvalues, List.map_map, minus_zero] at hsum
      exact hsum
    · intro i o ho
      obtain ⟨⟨amount, secret⟩, hp, hpay⟩ := forall₂_getElem? hpays.flip ho
      have hsecret : secret = 4 + i := by
        rw [List.getElem?_zipIdx] at hp
        obtain ⟨_, -, heq⟩ := Option.map_eq_some_iff.mp hp
        exact (Prod.mk.inj heq).2.symm
      obtain ⟨key, hkey, rfl⟩ := hpay
      exact ⟨key, hkey.trans hsecret, rfl⟩

/-- With more parts than units the last share takes everything. -/
theorem Sats.split_divides_three :
    (3 : UInt64) ≠ 0 ∧ (3 : UInt64) < 0x1000000000000000 ∧ (3 : UInt64) ≤ 0x200000000000000 ∧
    (∃ amounts, split 2 3 0 = .ok amounts ∧ amounts = [0, 0, 2] ∧ Divides amounts 2 3) ∧
    ∃ targets, withdrawalTargets 2 3 = .ok targets ∧ targets.length = 3 ∧
      (targets.map fun o => o.value.toNat).sum = 2 := by
  obtain ⟨hsplit, hpaid⟩ := split_divides (show (3 : UInt64) ≠ 0 by decide)
  obtain ⟨amounts, hamounts, hdivides, -⟩ := hsplit (by decide) 2 0
  obtain ⟨targets, htargets, hlength, hsum, -⟩ := hpaid (by decide) 2
  refine ⟨by decide, by decide, by decide, ⟨amounts, hamounts, ?_, hdivides⟩, targets, htargets,
    hlength, hsum⟩
  exact ((split_eq_ok_iff.mp hamounts).2).symm.trans (by decide)

/-- A list has no room for that many amounts, so nothing is split or paid. -/
theorem Sats.split_refuses_parts : (0x1000000000000000 : UInt64) ≠ 0 ∧
    split 10 0x1000000000000000 0 = .error .overflow ∧
    withdrawalTargets 10 0x1000000000000000 = .error .overflow :=
  ⟨by decide, split_eq_overflow_iff.mpr (by decide),
    (withdrawalTargets_eq_overflow_iff 10).mpr (by decide)⟩

end Targets

end VaultCovenant
