import Mathlib.Algebra.GroupWithZero.Nat
import Mathlib.Data.List.Perm.Basic
import VaultCovenant.Proofs.Taproot.Opening
import VaultCovenant.Vault.Basic

/-!
# The output of a vault

The vault output is a tree of the recover leaf and the trigger leaf. Both can
be opened, whatever the policy.

Results:
* `Policy.controlBlock_recover_isOk`, `Policy.controlBlock_trigger_isOk`: both
  leaves have a control block.
* `Policy.opens_recover`, `Policy.opens_trigger`: a leaf with its control
  block opens the vault output.
* `Vault.total_eq_ok_iff`, `Vault.total_perm`: the sum of some vaults is that
  of their coins, in whatever order.
-/

namespace VaultCovenant

/-! ## Policies that can be made -/

theorem SecretKey.ofScalar_isOk {scalar : UInt64} (h : scalar ≠ 0) :
    ∃ secret, ofScalar scalar = .ok secret := by
  unfold ofScalar
  split
  · exact ⟨_, rfl⟩
  · rename_i hnone
    exact absurd (ofScalar?_eq_none_iff.mp hnone) h

theorem SecretKey.ofScalar_eq_ok {scalar : UInt64} {key : SecretKey}
    (h : ofScalar scalar = .ok key) : key.scalar = scalar.toNat := by
  unfold ofScalar ofScalar? at h
  by_cases hpos : 0 < scalar.toNat
  · rw [dif_pos hpos] at h
    cases h
    rfl
  · rw [dif_neg hpos] at h
    cases h

namespace Policy

theorem ofParams_isOk {params : VaultParams} (hrecovery : params.recoverySecret ≠ 0)
    (htrigger : params.triggerSecret ≠ 0) : ∃ p, ofParams params = .ok p := by
  obtain ⟨recovery, hr⟩ := SecretKey.ofScalar_isOk hrecovery
  obtain ⟨trigger, ht⟩ := SecretKey.ofScalar_isOk htrigger
  exact ⟨_, bind_eq_ok_iff.mpr ⟨recovery, hr, bind_eq_ok_iff.mpr ⟨trigger, ht, rfl⟩⟩⟩

theorem ofParams_eq_ok {params : VaultParams} {p : Policy} (h : ofParams params = .ok p) :
    p.spendDelay = params.spendDelay ∧ p.authorization = params.authorization := by
  obtain ⟨recovery, -, h⟩ := bind_eq_ok_iff.mp h
  obtain ⟨trigger, -, h⟩ := bind_eq_ok_iff.mp h
  cases h
  exact ⟨rfl, rfl⟩

/-! ## Opening the vault output -/

variable {p : Policy} {c : ControlBlock}

theorem leafScript_recover : p.tree.leafScript recoverLeaf = .ok p.recoverScript :=
  TaprootTree.leafScript_pair_left

theorem leafScript_trigger : p.tree.leafScript triggerLeaf = .ok p.triggerScript :=
  TaprootTree.leafScript_pair_right (by decide)

theorem controlBlock_recover_isOk (p : Policy) : ∃ c, p.tree.controlBlock recoverLeaf = .ok c :=
  TaprootTree.controlBlock_pair_isOk leafScript_recover (Or.inl rfl)

theorem controlBlock_trigger_isOk (p : Policy) : ∃ c, p.tree.controlBlock triggerLeaf = .ok c :=
  TaprootTree.controlBlock_pair_isOk leafScript_trigger (Or.inr rfl)

theorem opens_recover (h : p.tree.controlBlock recoverLeaf = .ok c) (front : List Bytes) :
    OpensOutput (front ++ [p.recoverScript.bytes, c.bytes]) p.vaultSpk := by
  have hlen := TaprootTree.length_branch_pair h
  exact TaprootTree.opens_of_controlBlock h leafScript_recover (by omega) front

theorem opens_trigger (h : p.tree.controlBlock triggerLeaf = .ok c) (front : List Bytes) :
    OpensOutput (front ++ [p.triggerScript.bytes, c.bytes]) p.vaultSpk := by
  have hlen := TaprootTree.length_branch_pair h
  exact TaprootTree.opens_of_controlBlock h leafScript_trigger (by omega) front

end Policy

/-! ## Differences of amounts -/

theorem Sats.spend_eq_ok_iff {available required rest : Sats} :
    available.spend required = .ok rest ↔ available.toNat = required.toNat + rest.toNat := by
  unfold spend
  have hlt := available.toNat_lt
  split
  · rename_i hle
    rw [UInt64.le_iff_toNat_le] at hle
    rw [Except.ok.injEq, ← UInt64.toNat_inj, UInt64.toNat_sub_of_le _ _ hle]
    omega
  · rename_i hle
    rw [UInt64.le_iff_toNat_le] at hle
    simp only [reduceCtorEq, false_iff]
    omega

/-! ## The coin on record -/

namespace Vault

theorem funding_eq_ok_iff {v : Vault} {f : Funding} :
    v.funding = .ok f ↔
      v.outpoint = some f.outpoint ∧ v.output = some f.output ∧ v.amount = some f.amount := by
  obtain ⟨o, out, amount⟩ := f
  unfold funding
  cases v.outpoint <;> cases v.output <;> cases v.amount <;> simp

theorem funding_eq_error {v : Vault} {e : VaultError} (h : v.funding = .error e) :
    e = .notInitialized v.id := by
  unfold funding at h
  split at h <;> cases h
  rfl

@[simp] theorem funding_withFunding (v : Vault) (f : Funding) :
    (v.withFunding f).funding = .ok f := rfl

/-- Any policy can hold any amount. -/
theorem exists_funded (id : VaultId) (p : Policy) (o : Outpoint) (amount : Sats) :
    ∃ (v : Vault) (f : Funding), v.id = id ∧ v.policy = p ∧ v.funding = .ok f ∧ f.outpoint = o ∧
      f.amount = amount ∧ f.output.value = amount :=
  ⟨(empty id p).withFunding ⟨o, ⟨amount, p.vaultSpk⟩, amount⟩, _, rfl, rfl,
    funding_withFunding _ _, rfl, rfl, rfl⟩

/-- A vault with keys can be made, whatever its id and its delay. -/
theorem ofParams_isOk {params : VaultParams} (id : VaultId)
    (hrecovery : params.recoverySecret ≠ 0) (htrigger : params.triggerSecret ≠ 0) :
    ∃ v, ofParams id params = .ok v := by
  obtain ⟨p, hp⟩ := Policy.ofParams_isOk hrecovery htrigger
  exact ⟨_, map_eq_ok_iff.mpr ⟨p, hp, rfl⟩⟩

/-- A coin that is worth the fee can be locked. -/
theorem lock_isOk (v : Vault) {coin : Coin} (h : lockFee ≤ coin.spent.value) :
    ∃ locked, coin.spent.value.toNat = lockFee.toNat + locked.toNat ∧
      v.lock coin none = .ok (v.lockTransaction coin locked,
        v.withFunding ⟨⟨(v.lockTransaction coin locked).txid, 0⟩,
          ⟨locked, v.policy.vaultSpk⟩, locked⟩) := by
  have hspend : coin.spent.value.spend lockFee = .ok (coin.spent.value - lockFee) := if_pos h
  exact ⟨_, Sats.spend_eq_ok_iff.mp hspend, bind_eq_ok_iff.mpr ⟨_, hspend, rfl⟩⟩

theorem fundings_eq_ok_iff {vs : List Vault} {fs : List Funding} :
    fundings vs = .ok fs ↔ List.Forall₂ (fun v f => v.funding = .ok f) vs fs :=
  mapM_eq_ok_iff

/-! ## The sum of the coins -/

/-- What some coins are worth together. -/
def worth (fs : List Funding) : ℕ := (fs.map (·.amount.toNat)).sum

theorem foldlM_funding_eq_ok_iff {vs : List Vault} {start sum : Sats} :
    vs.foldlM (fun (total : Sats) v => do
      let f ← Failure.lift v.funding
      total.add f.amount) start = .ok sum ↔
      ∃ fs, fundings vs = .ok fs ∧ sum.toNat = start.toNat + worth fs := by
  induction vs generalizing start with
  | nil =>
    simp [worth, fundings, pure, Except.pure, ← UInt64.toNat_inj, eq_comm]
  | cons v vs ih =>
    rw [List.foldlM_cons, bind_eq_ok_iff]
    simp only [ih, fundings_eq_ok_iff, List.forall₂_cons_left_iff]
    constructor
    · rintro ⟨next, hnext, fs, hfs, hsum⟩
      obtain ⟨f, hf, hnext⟩ := bind_eq_ok_iff.mp hnext
      rw [Sats.add_eq_ok_iff] at hnext
      refine ⟨f :: fs, ⟨f, fs, lift_eq_ok_iff.mp hf, hfs, rfl⟩, ?_⟩
      simp only [worth, List.map_cons, List.sum_cons] at hsum ⊢
      omega
    · rintro ⟨_, ⟨f, fs, hf, hfs, rfl⟩, hsum⟩
      simp only [worth, List.map_cons, List.sum_cons] at hsum
      -- the sum so far has room since the whole sum has
      have hlt := sum.toNat_lt
      refine ⟨start + f.amount, bind_eq_ok_iff.mpr ⟨f, lift_eq_ok_iff.mpr hf, ?_⟩, fs, hfs, ?_⟩
      · rw [Sats.add_eq_ok_iff, UInt64.toNat_add, Nat.mod_eq_of_lt (by omega)]
      · rw [UInt64.toNat_add, Nat.mod_eq_of_lt (by omega)]
        unfold worth
        omega

/-- The sum exists when every vault has a coin and 64 bits suffice. -/
theorem total_eq_ok_iff {vs : List Vault} {sum : Sats} :
    total vs = .ok sum ↔ ∃ fs, fundings vs = .ok fs ∧ sum.toNat = worth fs := by
  unfold total
  rw [foldlM_funding_eq_ok_iff]
  simp

theorem total_singleton {v : Vault} {f : Funding} (h : v.funding = .ok f) :
    total [v] = .ok f.amount :=
  total_eq_ok_iff.mpr ⟨[f], fundings_eq_ok_iff.mpr (.cons h .nil), by simp [worth]⟩

/-- The order of the vaults does not matter for their sum. -/
theorem total_perm {vs ws : List Vault} (h : vs.Perm ws) {sum : Sats} (hsum : total vs = .ok sum) :
    total ws = .ok sum := by
  obtain ⟨fs, hfs, hworth⟩ := total_eq_ok_iff.mp hsum
  obtain ⟨gs, hgs, hperm⟩ := List.perm_comp_forall₂ h.symm (fundings_eq_ok_iff.mp hfs)
  refine total_eq_ok_iff.mpr ⟨gs, fundings_eq_ok_iff.mpr hgs, ?_⟩
  rw [hworth]
  exact ((hperm.map _).sum_nat).symm

end Vault

end VaultCovenant
