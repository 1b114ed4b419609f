import VaultCovenant.Proofs.Batch.Balance
import VaultCovenant.Proofs.Records

/-!
# Triggering conserves value

What a trigger spends and what it creates differ by the fee of the coin that
pays, batch by batch and as a whole, but for the batches in which a fault
shifts an amount.

Results:
* `Vault.Funded.value_eq`: a vault's amount on record is the value of its
  output, whether its coin was locked in it or returned to it.
* `Trigger.worth_outputs`: the outputs of the batches of a trigger against
  their members.
* `Trigger.build_conserves`: what is spent against what is created.
-/

namespace VaultCovenant

/-! ## Amounts on record -/

/-- A vault in which a coin was locked, or to which some trigger returned
value. -/
inductive Vault.Funded : Vault → Prop
  | locked {v w : Vault} {coin : Coin} {fee : Option Sats} {tx : Transaction} :
      v.lock coin fee = .ok (tx, w) → Funded w
  | returned {t : Trigger} {ids : ℕ → VaultId} {vs : List Vault} {w : Vault} :
      t.revaulted ids = .ok vs → w ∈ vs → Funded w

/-- The amount on record is the value of the output on record. -/
theorem Vault.Funded.value_eq {v : Vault} (h : v.Funded) {f : Funding} (hf : v.funding = .ok f) :
    f.output.value = f.amount := by
  cases h with
  | locked hlock =>
    obtain ⟨total, -, hlock⟩ := bind_eq_ok_iff.mp hlock
    cases hlock
    cases hf
    rfl
  | returned hreturned hv =>
    obtain ⟨k, hk⟩ := List.mem_iff_getElem?.mp hv
    obtain ⟨⟨⟨b, o, out⟩, k'⟩, -, hok⟩ :=
      forall₂_getElem? (mapM_eq_ok_iff.mp hreturned).flip hk
    obtain ⟨first, -, hok⟩ := bind_eq_ok_iff.mp hok
    cases hok
    cases hf
    rfl

namespace TxOut

theorem worth_append (as bs : List TxOut) : worth (as ++ bs) = worth as + worth bs := by
  unfold worth
  rw [List.map_append, List.sum_append]

end TxOut

/-- Outputs on record are worth what their vaults' amounts say. -/
theorem Vault.worth_outputs {vs : List Vault} {fs : List Funding} (h : fundings vs = .ok fs)
    (hfunded : ∀ v ∈ vs, v.Funded) :
    TxOut.worth (fs.map Funding.output) = (vs.map fun v => (v.amount.getD 0).toNat).sum := by
  rw [← worth_eq_of_fundings h, TxOut.worth, worth, List.map_map]
  refine congrArg List.sum (List.map_congr_left ?_)
  intro f hmem
  obtain ⟨i, hi⟩ := List.mem_iff_getElem?.mp hmem
  obtain ⟨v, hv, hf⟩ := forall₂_getElem? (fundings_eq_ok_iff.mp h).flip hi
  have hvalue := (hfunded v (List.mem_iff_getElem?.mpr ⟨i, hv⟩)).value_eq hf
  show f.output.value.toNat = f.amount.toNat
  rw [hvalue]

namespace Trigger

variable {orders : List Batch.Order} {batches : List Batch} {fee : Option Coin}
  {faults : FaultSet} {t : Trigger}

/-! ## The outputs of the batches -/

/-- What the members of all orders are worth by their amounts on record. -/
def ordered (orders : List Batch.Order) : ℕ := (orders.map Batch.Order.worth).sum

theorem members_eq (h : List.Forall₂ (fun q b => q.build = .ok b) orders batches) :
    batches.flatMap Batch.members = orders.flatMap Batch.Order.members := by
  induction h with
  | nil => rfl
  | cons hq _ ih =>
    obtain ⟨_, _, hmade⟩ := Batch.build_eq_ok hq
    rw [List.flatMap_cons, List.flatMap_cons, hmade.members_eq, ih]

theorem sum_flatMap_members (orders : List Batch.Order) :
    ((orders.flatMap Batch.Order.members).map fun v => (v.amount.getD 0).toNat).sum =
      ordered orders := by
  induction orders with
  | nil => rfl
  | cons q rest ih =>
    rw [List.flatMap_cons, List.map_append, List.sum_append, ih]
    rfl

/-- The outputs of the batches are worth what their members are, but for the
batches that a fault shifts. -/
theorem worth_outputs (h : List.Forall₂ (fun q b => q.build = .ok b) orders batches)
    (hone : ∀ q ∈ orders, q.faults.amountFaults.length ≤ 1) :
    TxOut.worth (batches.flatMap Batch.outputs) + orders.countP Batch.Order.isLowered =
      ordered orders + orders.countP Batch.Order.isRaised := by
  induction h with
  | nil => rfl
  | @cons q b orders batches hq _ ih =>
    have hbalance := Batch.Order.balance hq (hone q List.mem_cons_self)
    have hrest := ih fun p hp => hone p (List.mem_cons_of_mem q hp)
    have hcount : ∀ p : Batch.Order → Bool,
        (q :: orders).countP p = (p q).toNat + orders.countP p := by
      intro p
      rw [List.countP_cons, Nat.add_comm]
      cases p q <;> rfl
    rw [List.flatMap_cons, TxOut.worth_append, hcount, hcount]
    show _ = q.worth + ordered orders + _
    omega

/-- What a coin that pays spends and what it leaves differ by the fee. -/
theorem worth_change {change : Option TxOut} (h : fee.mapM Coin.change = .ok change) :
    TxOut.worth (fee.map Coin.spent).toList =
      TxOut.worth change.toList + if fee.isSome then Coin.payingFee.toNat else 0 := by
  rcases optionMapM_eq_ok_iff.mp h with ⟨rfl, rfl⟩ | ⟨coin, out, rfl, hchange, rfl⟩
  · rfl
  · obtain ⟨-, hvalue⟩ := Coin.change_eq_ok_iff.mp hchange
    simp only [TxOut.worth, Option.map_some, Option.toList_some, List.map_cons, List.map_nil,
      List.sum_cons, List.sum_nil, Option.isSome_some, if_true]
    omega

/-! ## The whole transaction -/

/-- What is spent and what is created differ by the fee of the coin that pays,
one unit less for every batch whose outputs a fault raised and one more for
every batch whose outputs a fault lowered. -/
theorem Made.worth_spent {fundings : List Funding} {change : Option TxOut}
    {witnesses : List (List Bytes)}
    (h : Made batches fee faults fundings change witnesses t)
    (horders : List.Forall₂ (fun q b => q.build = .ok b) orders batches)
    (hfunded : ∀ q ∈ orders, ∀ v ∈ q.members, v.Funded)
    (hone : ∀ q ∈ orders, q.faults.amountFaults.length ≤ 1) :
    TxOut.worth (prevouts fundings fee) + orders.countP Batch.Order.isRaised =
      TxOut.worth t.tx.outputs + (if fee.isSome then 10000 else 0)
        + orders.countP Batch.Order.isLowered := by
  have hmembers := members_eq horders
  have hfundings := h.fundings_eq
  rw [hmembers] at hfundings
  have hspent : TxOut.worth (fundings.map Funding.output) = ordered orders := by
    rw [Vault.worth_outputs hfundings, sum_flatMap_members]
    intro v hv
    obtain ⟨q, hq, hvq⟩ := List.mem_flatMap.mp hv
    exact hfunded q hq v hvq
  have hcreated := worth_outputs horders hone
  have hfee := worth_change h.change_eq
  have hpaying : Coin.payingFee.toNat = 10000 := rfl
  rw [hpaying] at hfee
  rw [h.outputs_eq, prevouts, outputs, TxOut.worth_append, TxOut.worth_append]
  omega

/-- Triggering conserves value. The inputs spend the outputs on record for the
members, which in a session are outputs its transactions created, and then the
coin that pays. Without a fault that changes an amount each batch puts what its
members are worth into its outputs, and the transaction keeps nothing back but
ten thousand units from the coin that pays. With at most one such fault in each
batch what is kept back is one less for every batch that is raised and one more
for every batch that is lowered. So without a coin that pays more is created
than spent exactly when more batches are raised than lowered. -/
theorem build_conserves (horders : List.Forall₂ (fun q b => q.build = .ok b) orders batches)
    (hfunded : ∀ q ∈ orders, ∀ v ∈ q.members, v.Funded)
    (hbuild : build batches fee faults = .ok t) :
    ∃ fundings, Vault.fundings (orders.flatMap Batch.Order.members) = .ok fundings ∧
      t.tx.inputs.map (·.previousOutput) =
        fundings.map Funding.outpoint ++ (fee.map (·.input.previousOutput)).toList ∧
      (∀ s : Session, s.Reachable → (∀ q ∈ orders, ∀ v ∈ q.members, v ∈ s.vaults) →
        ∀ f ∈ fundings, CreatedAt s.transactions f.outpoint f.output) ∧
      List.Forall₂ (fun q b => q.faults.amountFaults = [] →
        b.triggerOutput.value.toNat + (b.revaultOutput.map (·.value.toNat)).getD 0 = q.worth)
        orders batches ∧
      ((∀ q ∈ orders, q.faults.amountFaults = []) →
        (TxOut.worth (prevouts fundings fee) : ℤ) - TxOut.worth t.tx.outputs =
          if fee.isSome then 10000 else 0) ∧
      ((∀ q ∈ orders, q.faults.amountFaults.length ≤ 1) →
        (TxOut.worth (prevouts fundings fee) : ℤ) - TxOut.worth t.tx.outputs =
          (if fee.isSome then 10000 else 0) - orders.countP Batch.Order.isRaised
            + orders.countP Batch.Order.isLowered ∧
        (fee = none → (TxOut.worth (prevouts fundings fee) < TxOut.worth t.tx.outputs ↔
          orders.countP Batch.Order.isLowered < orders.countP Batch.Order.isRaised))) := by
  obtain ⟨fundings, change, witnesses, hmade⟩ := build_eq_ok hbuild
  have hfundings := hmade.fundings_eq
  rw [members_eq horders] at hfundings
  have hkept : ((if fee.isSome then 10000 else 0 : ℕ) : ℤ) = if fee.isSome then 10000 else 0 := by
    split <;> rfl
  refine ⟨fundings, hfundings, hmade.previousOutputs, ?_, ?_, ?_, ?_⟩
  · intro s hs hmembers f hf
    obtain ⟨i, hi⟩ := List.mem_iff_getElem?.mp hf
    obtain ⟨v, hv, hvf⟩ := forall₂_getElem? (Vault.fundings_eq_ok_iff.mp hfundings).flip hi
    obtain ⟨q, hq, hvq⟩ := List.mem_flatMap.mp (List.mem_iff_getElem?.mpr ⟨i, hv⟩)
    exact ((hs.coherent.recorded v (hmembers q hq v hvq)).output hvf).2
  · exact horders.imp fun q b hq => Batch.Order.conserves hq
  · intro hnone
    have hone : ∀ q ∈ orders, q.faults.amountFaults.length ≤ 1 := by
      intro q hq
      rw [hnone q hq]
      exact Nat.zero_le 1
    obtain ⟨hraised, hlowered⟩ := Batch.Order.countP_shifted hnone
    have hworth := hmade.worth_spent horders hfunded hone
    rw [hraised, hlowered] at hworth
    rw [← hkept]
    omega
  · intro hone
    have hworth := hmade.worth_spent horders hfunded hone
    constructor
    · rw [← hkept]
      omega
    · rintro rfl
      rw [if_neg (by decide)] at hworth
      omega

/-- One batch spends a vault in which a coin was locked and returns one unit
too much, the other spends a vault to which value returned. Without a coin that
pays the transaction creates one unit. -/
theorem build_conserves_raised :
    ∃ (v w : Vault) (f g : Funding) (b b' : Batch) (t : Trigger),
      v.Funded ∧ w.Funded ∧ v.funding = .ok f ∧ w.funding = .ok g ∧
      f.amount = 990000 ∧ g.amount = 200000 ∧
      Batch.build [v] [] (some 1000) (.only .revaultAmountTooHigh) = .ok b ∧
      Batch.build [w] [] none .none = .ok b' ∧
      build [b, b'] none .none = .ok t ∧
      b'.triggerOutput.value.toNat + (b'.revaultOutput.map (·.value.toNat)).getD 0 = 200000 ∧
      (TxOut.worth [f.output, g.output] : ℤ) - TxOut.worth t.tx.outputs = -1 ∧
      TxOut.worth [f.output, g.output] < TxOut.worth t.tx.outputs := by
  obtain ⟨p, hp⟩ : ∃ p, Policy.ofParams {} = .ok p := ⟨_, rfl⟩
  obtain ⟨tx, v, f, hlock, hf, hfa⟩ : ∃ tx v f,
      (Vault.empty 1 p).lock ⟨TxIn.spending Outpoint.null, ⟨1000000, Script.anyone⟩⟩ none =
        .ok (tx, v) ∧ v.funding = .ok f ∧ f.amount = 990000 :=
    ⟨_, _, _, bind_eq_ok_iff.mpr ⟨990000, by decide, rfl⟩, Vault.funding_withFunding _ _, rfl⟩
  obtain ⟨s, -, w, -, g, t₀, ids, returned, -, -, -, -, -, -, hg, hga, -, hreturned, hw⟩ :=
    Session.exists_returned
  have hvf : v.Funded := .locked hlock
  have hwf : w.Funded := .returned hreturned hw
  have hwa : w.amount = some 200000 := hga ▸ (Vault.funding_eq_ok_iff.mp hg).2.2
  have hvtotal : Vault.total [v] = .ok 990000 := hfa ▸ Vault.total_singleton hf
  have hwtotal : Vault.total [w] = .ok 200000 := hga ▸ Vault.total_singleton hg
  obtain ⟨b, hb⟩ := Batch.build_isOk_under [] (some 1000) (.only .revaultAmountTooHigh) hvtotal rfl
    (show _ = Except.ok (some ⟨1001, _⟩) from rfl) (show _ = Except.ok 989000 by decide) rfl
  obtain ⟨b', hb'⟩ := Batch.build_isOk [] none hwtotal (show _ = Except.ok 200000 by decide)
  -- the trigger of both batches
  let orders : List Batch.Order :=
    [⟨[v], [], some 1000, .only .revaultAmountTooHigh⟩, ⟨[w], [], none, .none⟩]
  have horders : List.Forall₂ (fun q b => q.build = .ok b) orders [b, b'] :=
    .cons hb (.cons hb' .nil)
  have hfunded : ∀ q ∈ orders, ∀ u ∈ q.members, u.Funded := by
    simp [orders, hvf, hwf]
  have hfundings : Vault.fundings ([b, b'].flatMap Batch.members) = .ok [f, g] := by
    rw [members_eq horders]
    exact Vault.fundings_eq_ok_iff.mpr (.cons hf (.cons hg .nil))
  obtain ⟨t, ht⟩ := build_isOk .none hfundings (optionMapM_none_eq_ok_iff.mpr rfl)
  obtain ⟨fundings, hsame, -, -, hbatches, -, hshifted⟩ := build_conserves horders hfunded ht
  rw [← members_eq horders, hfundings] at hsame
  cases hsame
  have hone : ∀ q ∈ orders, q.faults.amountFaults.length ≤ 1 := by
    simp only [orders, List.forall_mem_cons]
    exact ⟨by decide, by decide, by simp⟩
  have hraised : orders.countP Batch.Order.isRaised = 1 := rfl
  have hlowered : orders.countP Batch.Order.isLowered = 0 := rfl
  obtain ⟨hdifference, hcreates⟩ := hshifted hone
  rw [hraised, hlowered] at hdifference
  have hspare : b'.triggerOutput.value.toNat + (b'.revaultOutput.map (·.value.toNat)).getD 0 =
      200000 := by
    obtain ⟨-, hrest⟩ := List.forall₂_cons.mp hbatches
    obtain ⟨hsecond, -⟩ := List.forall₂_cons.mp hrest
    rw [hsecond rfl]
    simp [Batch.Order.worth, hwa]
  refine ⟨v, w, f, g, b, b', t, hvf, hwf, hf, hg, hfa, hga, hb, hb', ht, hspare, ?_, ?_⟩
  · exact hdifference
  · exact (hcreates rfl).mpr (by rw [hraised, hlowered]; exact Nat.zero_lt_one)

end Trigger

end VaultCovenant
