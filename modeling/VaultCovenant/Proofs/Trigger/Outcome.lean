import VaultCovenant.Proofs.Paying.Trigger
import VaultCovenant.Proofs.Recovery.Outcome

/-!
# When a trigger is refused

A trigger looks at its members in order, then at the coin that pays. The first
that does not fit decides. Batches that were built have members with coins, so
nothing but the coin can be in the way.

Results:
* `Trigger.checkedBuild_eq`: within `outputLimit` no position leads out of 32
  bits and no index to no batch.
* `Trigger.failureOf_build`: how a trigger ends.
* `Trigger.build_fails_exactly`: only a member without a coin and a coin that is
  too small are refused, and never with batches that were built.
-/

namespace VaultCovenant

/-! ## No check fails -/

theorem positionAfter_eq_ok {vout vout' : UInt32} (h : vout'.toNat = vout.toNat + 1) :
    positionAfter vout = .ok vout' := by
  have hlt : vout.toNat + 1 < 0x100000000 := h ▸ vout'.toNat_lt
  unfold positionAfter
  rw [if_pos hlt]
  refine congrArg Except.ok (UInt32.toNat_inj.mp ?_)
  rw [UInt32.toNat_add, h]
  exact Nat.mod_eq_of_lt hlt

theorem BatchPosition.Behind.after_eq {p p' : BatchPosition} (h : Behind p p') :
    p.after = .ok p' := by
  have hrevault : p.revault.mapM positionAfter = .ok p'.revault := by
    have hnat := h.revault
    cases hp : p.revault with
    | none =>
      rw [hp, Option.map_none, Option.map_eq_none_iff] at hnat
      rw [hnat]
      rfl
    | some vout =>
      rw [hp, Option.map_some] at hnat
      obtain ⟨vout', hp', hvout⟩ := Option.map_eq_some_iff.mp hnat
      rw [hp']
      exact optionMapM_eq_ok_iff.mpr (Or.inr ⟨vout, vout', rfl, positionAfter_eq_ok hvout, rfl⟩)
  exact bind_eq_ok_iff.mpr ⟨p'.trigger, positionAfter_eq_ok h.trigger,
    bind_eq_ok_iff.mpr ⟨p'.revault, hrevault, rfl⟩⟩

theorem memberAt_eq_ok {α : Type} {xs : List α} {i : ℕ} {x : α} (h : xs[i]? = some x) :
    memberAt xs i = .ok x := by
  unfold memberAt
  rw [h]

namespace Trigger

variable {batches : List Batch} {positions : List BatchPosition} {fee : Option Coin}
  {faults : FaultSet}

/-- The positions that are moved on are those behind the change. -/
theorem checkedPositions_eq (change : Option TxOut)
    (h : (batches.flatMap Batch.outputs).length < outputLimit) :
    checkedPositions batches change = .ok (positionsFrom change.toList.length batches) := by
  cases change with
  | none => rfl
  | some out =>
    have hbehind := forall₂_positionsFrom 0 batches (by rwa [Nat.zero_add])
    exact mapM_eq_ok_iff.mpr (hbehind.imp fun _ _ hp => hp.after_eq)

/-- The index of a member leads to the batch and the positions of a spend. -/
structure Leads (batches : List Batch) (positions : List BatchPosition) (member : ℕ × Vault)
    (s : Spend) : Prop where
  vault_eq : s.vault = member.2
  batch_eq : batches[member.1]? = some s.batch
  position_eq : positions[member.1]? = some s.position

theorem forall₂_leads (h : positions.length = batches.length) :
    List.Forall₂ (Leads batches positions) (indexedMembers batches) (spends batches positions) := by
  have hpairs : List.Forall₂ (fun (p : Batch × ℕ) (q : Batch × BatchPosition) =>
      p.1 = q.1 ∧ batches[p.2]? = some q.1 ∧ positions[p.2]? = some q.2)
      batches.zipIdx (batches.zip positions) := by
    refine forall₂_of_getElem? (by simp [h]) ?_
    rintro i ⟨b, j⟩ hp
    rw [List.getElem?_zipIdx] at hp
    obtain ⟨b', hb, heq⟩ := Option.map_eq_some_iff.mp hp
    cases heq
    obtain ⟨hi, -⟩ := List.getElem?_eq_some_iff.mp hb
    have hposition := List.getElem?_eq_getElem (l := positions) (h ▸ hi)
    rw [Nat.zero_add]
    exact ⟨(b, positions[i]), List.getElem?_zip_eq_some.mpr ⟨hb, hposition⟩, rfl, hb, hposition⟩
  refine List.rel_flatMap hpairs ?_
  rintro ⟨b, i⟩ ⟨b', position⟩ ⟨rfl, hb, hposition⟩
  rw [List.forall₂_map_left_iff, List.forall₂_map_right_iff, List.forall₂_same]
  exact fun v _ => ⟨rfl, hb, hposition⟩

/-- Members that lead to their spends have the witnesses of those. -/
theorem checkedWitnesses_eq {tx : Transaction} {spent : List TxOut} {members : List (ℕ × Vault)}
    {ss : List Spend} (h : List.Forall₂ (Leads batches positions) members ss) (index : ℕ) :
    ((members.zipIdx index).mapM fun p =>
      checkedWitness tx spent faults batches positions p.2 p.1) =
        Failure.lift (witnessesFrom tx spent faults index ss) := by
  induction h generalizing index with
  | nil => rfl
  | @cons member s _ _ hleads _ ih =>
    have hwitness : checkedWitness tx spent faults batches positions index member =
        Failure.lift (witness tx spent faults index s) := by
      unfold checkedWitness
      rw [memberAt_eq_ok hleads.batch_eq, memberAt_eq_ok hleads.position_eq, ← hleads.vault_eq]
      rfl
    rw [List.zipIdx_cons, List.mapM_cons, witnessesFrom, lift_bind, hwitness, ih]
    refine congrArg _ (funext fun w => ?_)
    rw [lift_bind]
    rfl

theorem checkedBuild_eq (h : (batches.flatMap Batch.outputs).length < outputLimit) :
    checkedBuild batches fee faults = Failure.lift (build batches fee faults) := by
  unfold checkedBuild build
  rw [lift_bind]
  refine congrArg _ (funext fun fundings => ?_)
  rw [lift_bind]
  refine congrArg _ (funext fun change => ?_)
  rw [checkedPositions_eq change h]
  let tx := unsigned fundings fee batches change
  let spent := prevouts fundings fee
  let positions := positionsFrom change.toList.length batches
  have hleads : List.Forall₂ (Leads batches positions) (indexedMembers batches)
      (spends batches positions) := forall₂_leads (length_positions _ _)
  show ((indexedMembers batches).zipIdx.mapM (fun p =>
      checkedWitness tx spent faults batches positions p.2 p.1) >>= _) =
    Failure.lift (witnessesFrom tx spent faults 0 (spends batches positions) >>= _)
  rw [checkedWitnesses_eq hleads 0, lift_bind]
  rfl

/-! ## How a trigger ends -/

/-- Why a trigger is refused: the first member that does not have all of its
coin on record, else the coin that pays. -/
def refusal (batches : List Batch) (fee : Option Coin) : Option VaultError :=
  (((batches.flatMap Batch.members).find? fun v => !v.isFunded).map fun v =>
    .notInitialized v.id).or (fee.bind Coin.shortfall)

end Trigger

/-- The first vault without all of its coin is named. -/
theorem Vault.failureOf_fundings (vs : List Vault) :
    failureOf (fundings vs) =
      (vs.find? fun v => !v.isFunded).map fun v => .notInitialized v.id := by
  unfold fundings
  rw [failureOf_mapM]
  induction vs with
  | nil => rfl
  | cons v vs ih =>
    rw [List.findSome?_cons, List.find?_cons]
    cases hf : v.funding with
    | ok f =>
      rw [isFunded_of_funding hf]
      exact ih
    | error e =>
      rw [isFunded_of_funding_error hf, funding_eq_error hf]
      rfl

namespace Trigger

variable {batches : List Batch} {fee : Option Coin} {faults : FaultSet}

theorem failureOf_build : failureOf (build batches fee faults) = refusal batches fee := by
  unfold build refusal
  rw [← Vault.failureOf_fundings]
  refine failureOf_bind fun fundings hfundings => ?_
  have hfee : failureOf (fee.mapM Coin.change) = fee.bind Coin.shortfall := by
    rw [failureOf_optionMapM]
    simp only [Coin.failureOf_change]
  rw [← hfee]
  refine failureOf_bind_of_ok fun change _ => ?_
  -- with the coins and the change there is a witness for every member
  obtain ⟨ws, hws⟩ := witnessesFrom_isOk faults 0
    (spends batches (positionsFrom change.toList.length batches))
    (length_prevouts fundings fee batches change)
  rw [failureOf_eq_none_iff]
  exact ⟨_, bind_eq_ok_iff.mpr ⟨ws, hws, rfl⟩⟩

theorem cause_of_refusal {cause : VaultError} (h : refusal batches fee = some cause) :
    (∃ b ∈ batches, ∃ v ∈ b.members, v.isFunded = false ∧ cause = .notInitialized v.id) ∨
      ∃ coin, fee = some coin ∧ coin.spent.value.toNat < 10000 ∧
        cause = .insufficientFunds 10000 coin.spent.value := by
  unfold refusal at h
  cases hfind : (batches.flatMap Batch.members).find? fun v => !v.isFunded with
  | some v =>
    rw [hfind] at h
    cases h
    obtain ⟨b, hb, hv⟩ := List.mem_flatMap.mp (List.mem_of_find?_eq_some hfind)
    have hunfunded := List.find?_some hfind
    exact Or.inl ⟨b, hb, v, hv, by simpa using hunfunded, rfl⟩
  | none =>
    rw [hfind, Option.map_none, Option.none_or] at h
    obtain ⟨coin, hfee, hshort⟩ := Option.bind_eq_some_iff.mp h
    unfold Coin.shortfall at hshort
    split_ifs at hshort with hsmall
    cases hshort
    exact Or.inr ⟨coin, hfee, hsmall, rfl⟩

end Trigger

/-- The members of a batch that was built have coins. -/
theorem Batch.Order.isFunded {q : Order} {b : Batch} (h : q.build = .ok b) {v : Vault}
    (hv : v ∈ b.members) : v.isFunded = true := by
  obtain ⟨first, total, hmade⟩ := build_eq_ok h
  obtain ⟨fundings, hfundings, -⟩ := Vault.total_eq_ok_iff.mp hmade.total_eq
  rw [hmade.members_eq] at hv
  obtain ⟨f, -, hf⟩ := forall₂_mem_right (Vault.fundings_eq_ok_iff.mp hfundings).flip hv
  exact Vault.isFunded_of_funding hf

namespace Trigger

variable {batches : List Batch} {fee : Option Coin} {faults : FaultSet}

/-- With batches that were built nothing but the coin is in the way. -/
theorem refusal_of_built {orders : List Batch.Order}
    (h : List.Forall₂ (fun q b => q.build = .ok b) orders batches) :
    refusal batches fee = fee.bind Coin.shortfall := by
  have hfunded : (batches.flatMap Batch.members).find? (fun v => !v.isFunded) = none := by
    rw [List.find?_eq_none]
    intro v hv
    obtain ⟨b, hb, hv⟩ := List.mem_flatMap.mp hv
    obtain ⟨q, -, hq⟩ := forall₂_mem_right h hb
    rw [q.isFunded hq hv]
    decide
  rw [refusal, hfunded]
  rfl

/-- With its outputs within reach of their positions a trigger is refused only
for the first member without all of its coin, else for a coin that is too small
to pay. Neither trees and leaves nor keys, signatures and positions can be in
the way. Batches that were built, under any faults, are triggered under any
faults unless the coin is too small. -/
theorem build_fails_exactly (hlen : (batches.flatMap Batch.outputs).length < outputLimit) :
    checkedBuild batches fee faults = Failure.lift (build batches fee faults) ∧
    (∀ e, checkedBuild batches fee faults = .error e ↔
      ∃ cause, refusal batches fee = some cause ∧ e = .error cause) ∧
    (∀ cause, refusal batches fee = some cause →
      (∃ b ∈ batches, ∃ v ∈ b.members, v.isFunded = false ∧ cause = .notInitialized v.id) ∨
        ∃ coin, fee = some coin ∧ coin.spent.value.toNat < 10000 ∧
          cause = .insufficientFunds 10000 coin.spent.value) ∧
    ∀ orders, List.Forall₂ (fun (q : Batch.Order) b => q.build = .ok b) orders batches →
      (∀ coin, fee = some coin → 10000 ≤ coin.spent.value.toNat) →
        ∃ t, checkedBuild batches fee faults = .ok t := by
  have hequal := @checkedBuild_eq batches fee faults hlen
  have hends : failureOf (checkedBuild batches fee faults) =
      (refusal batches fee).map Failure.error := by
    rw [hequal, failureOf_lift, failureOf_build]
  refine ⟨hequal, fun e => ?_, fun cause => cause_of_refusal, fun orders hbuilt hcoin => ?_⟩
  · rw [← failureOf_eq_some_iff, hends, Option.map_eq_some_iff]
    exact exists_congr fun cause => and_congr_right fun _ => eq_comm
  · rw [← failureOf_eq_none_iff, hends, Option.map_eq_none_iff, refusal_of_built hbuilt]
    cases fee with
    | none => rfl
    | some coin => exact if_neg (Nat.not_lt.mpr (hcoin coin rfl))

/-- A vault with a coin is triggered alone, unless the coin that pays is too
small. Beside a vault without a coin neither is triggered. -/
theorem build_fails_exactly_alone :
    ∃ (v : Vault) (b strange : Batch) (small : Coin),
      ([b, strange].flatMap Batch.outputs).length < outputLimit ∧
      strange.members = [v, .empty 7 v.policy] ∧ small.spent.value = 9999 ∧
      (∃ t, checkedBuild [b] none (.only .triggerWrongKey) = .ok t) ∧
      checkedBuild [b] (some small) .none = .error (.error (.insufficientFunds 10000 9999)) ∧
      checkedBuild [b, strange] (some small) .none = .error (.error (.notInitialized 7)) := by
  obtain ⟨p, -⟩ := Policy.ofParams_isOk (show ({} : VaultParams).recoverySecret ≠ 0 by decide)
    (by decide)
  obtain ⟨v, f, -, -, hf, -, hamount, -⟩ := Vault.exists_funded 1 p .null 990000
  obtain ⟨b, hb⟩ := Batch.build_isOk [] none (Vault.total_singleton hf)
    (show _ = Except.ok 990000 by rw [hamount]; decide)
  have hbuilt : List.Forall₂ (fun (q : Batch.Order) b => q.build = .ok b)
      [⟨[v], [], none, .none⟩] [b] := .cons hb .nil
  let strange : Batch := { b with members := [v, .empty 7 v.policy] }
  let small : Coin := ⟨TxIn.spending .null, ⟨9999, Script.anyone⟩⟩
  have hone := b.length_outputs_le
  have hshort : ([b].flatMap Batch.outputs).length < outputLimit := by
    rw [List.flatMap_singleton, outputLimit]
    omega
  have hlen : ([b, strange].flatMap Batch.outputs).length < outputLimit := by
    have htwo := strange.length_outputs_le
    rw [List.flatMap_cons, List.flatMap_singleton, List.length_append, outputLimit]
    omega
  refine ⟨v, b, strange, small, hlen, rfl, rfl, ?_, ?_, ?_⟩
  · refine (build_fails_exactly hshort).2.2.2 _ hbuilt fun coin hcoin => ?_
    cases hcoin
  · exact ((build_fails_exactly hshort).2.1 _).mpr ⟨_, refusal_of_built hbuilt, rfl⟩
  · refine ((build_fails_exactly hlen).2.1 _).mpr ⟨.notInitialized 7, ?_, rfl⟩
    have hfunded := Vault.isFunded_of_funding hf
    have hmembers : b.members = [v] := by
      obtain ⟨first, total, hmade⟩ := Batch.build_eq_ok hb
      exact hmade.members_eq
    have hempty : (Vault.empty 7 v.policy).isFunded = false := rfl
    have hid : (Vault.empty 7 v.policy).id = 7 := rfl
    simp [refusal, strange, hfunded, hempty, hid, hmembers]

end Trigger

end VaultCovenant
