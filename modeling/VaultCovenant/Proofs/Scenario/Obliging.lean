import VaultCovenant.Proofs.Scenario.Blame
import VaultCovenant.Proofs.Scenario.Programme

/-!
# A node that obliges

A node that hands out one coin and answers every transaction as a list of
expectations asks, in order, lets every scenario come to its end if the list
goes on with the programme of the scenario.

Results:
* `Behaviour.not_clash_obliging`: the ids of the batch recovery are different on
  this node, computed down to the digests.
* `Runner.obliging_report`: every scenario comes to its end.
-/

namespace VaultCovenant

open Run

namespace Behaviour

/-- The coin that the node hands out. -/
def usualCoin : Coin := ⟨TxIn.spending .null, ⟨500000000, Script.anyone⟩⟩

/-- A node that takes or refuses its transactions as the items ask, in order,
and takes what comes later. -/
def obliging (items : Programme) : Behaviour :=
  { taking usualCoin with
    broadcast := fun past tx => match items[(answered past).length]? with
      | some (_, .reject rejection) => .ok (.rejected rejection.reason)
      | _ => .ok (.accepted tx.txid) }

variable {items : Programme} {past calls : History}

theorem obliging_funds : (obliging items).Funds := by
  intro past coin hcoin
  cases hcoin
  decide

theorem obliging_answers {x : Exchange} (h : (obliging items).Answers past x) :
    x.failure? = none := by
  cases x with
  | broadcast tx answer =>
    obtain rfl : answer = _ := h
    unfold obliging
    dsimp only
    split <;> rfl
  | mine blocks answer =>
    obtain rfl : answer = _ := h
    rfl
  | spendableCoin answer =>
    obtain rfl : answer = _ := h
    rfl
  | bumpFee txid delta answer =>
    obtain rfl : answer = _ := h
    rfl
  | mempoolSize answer =>
    obtain rfl : answer = _ := h
    rfl

/-- The next item of the list is met. -/
theorem obliging_agrees {tx : Transaction} {verdict : Verdict} {label : String}
    {expected : Expectation} (h : (obliging items).Answers past (.broadcast tx (.ok verdict)))
    (hitem : items[(answered past).length]? = some (label, expected)) :
    expected.agreesWith verdict = true := by
  have hverdict : .ok verdict = (obliging items).broadcast past tx := h
  unfold obliging at hverdict
  dsimp only at hverdict
  rw [hitem] at hverdict
  cases expected <;> cases hverdict <;> rfl

/-! ## The ids of the batch recovery -/

/-- The transaction that locks the coin behind a script. -/
def lockedBehind (spk : Script) : Transaction := .plain [usualCoin.input] [⟨499990000, spk⟩]

theorem eq_of_secured {params : VaultParams} {v : Vault} {coin : Coin} {amount : Sats}
    (h : Secured (obliging items) params calls v coin amount) :
    coin = usualCoin ∧ amount = 499990000 ∧
      v.lockTransaction coin amount = lockedBehind v.policy.vaultSpk := by
  obtain ⟨past, hhanded⟩ := h.handed
  obtain rfl : usualCoin = coin := Except.ok.inj hhanded
  have hamount : amount = 499990000 := by
    have hvalue := h.amount_eq
    have hcoin : usualCoin.spent.value.toNat = 500000000 := rfl
    have hfee : Vault.lockFee.toNat = 10000 := rfl
    apply UInt64.toNat_inj.mp
    show amount.toNat = 499990000
    omega
  subst hamount
  exact ⟨rfl, rfl, rfl⟩

theorem txid_eq_digest (tx : Transaction) : tx.txid =
    ⟨Sha256.Numeral.digest (Sha256.Numeral.digest tx.strippedBytes).bytes⟩ := by
  simp only [Transaction.txid, sha256d, sha256_eq_digest]

/-- The vault with a recovery key of its own is locked under an id of its own. -/
theorem txid_lockedBehind_ne :
    (lockedBehind (Policy.usual Policy.ownSecret 10).vaultSpk).txid ≠
      (lockedBehind (Policy.usual Policy.commonSecret 11).vaultSpk).txid ∧
    (lockedBehind (Policy.usual Policy.ownSecret 10).vaultSpk).txid ≠
      (lockedBehind (Policy.usual Policy.commonSecret 12).vaultSpk).txid ∧
    (lockedBehind (Policy.usual Policy.ownSecret 10).vaultSpk).txid ≠
      (Transaction.plain [TxIn.spending
        ⟨(lockedBehind (Policy.usual Policy.commonSecret 10).vaultSpk).txid, 0⟩]
        [⟨499990000, (Policy.usual Policy.commonSecret 10).idleTrigger.scriptPubkey⟩]).txid := by
  obtain ⟨-, -, h10, h11, h12, hown, htrigger⟩ := Policy.outputs_usual
  rw [h10, h11, h12, hown, htrigger]
  simp only [txid_eq_digest]
  decide +kernel

theorem not_clash_obliging : ¬ Clash (obliging items) calls := by
  obtain ⟨hne11, hne12, hnetrigger⟩ := txid_lockedBehind_ne
  intro h
  cases h with
  | @lock v u coin coin' amount amount' delay hv hdelay hu hid =>
    obtain ⟨-, -, hlock⟩ := eq_of_secured hv
    obtain ⟨-, -, hlock'⟩ := eq_of_secured hu
    rw [hlock, hlock', ← Except.ok.inj (Policy.ofParams_own.symm.trans hv.policy),
      ← Except.ok.inj ((Policy.ofParams_usual delay).symm.trans hu.policy)] at hid
    rcases hdelay with rfl | rfl
    · exact hne11 hid
    · exact hne12 hid
  | @trigger v u coin coin' amount amount' batch t hv hu hbatch ht htaken hid =>
    obtain ⟨-, -, hlock⟩ := eq_of_secured hv
    obtain ⟨-, hamount, hlock'⟩ := eq_of_secured hu
    obtain ⟨witnesses, hsigned⟩ := Plan.trigger_signed hu.funding hbatch ht
    rw [hlock, hsigned, Transaction.withWitnesses_txid, Batch.tree_of_idle hbatch, hlock', hamount,
      ← Except.ok.inj (Policy.ofParams_own.symm.trans hv.policy),
      ← Except.ok.inj ((Policy.ofParams_usual 10).symm.trans hu.policy)] at hid
    exact hnetrigger hid

end Behaviour

/-! ## Every scenario comes to its end -/

namespace Runner

open Behaviour

variable {items : Programme} {authorization : Authorization}
  {scenario : Scenario} {named : ℕ} {past : History}

theorem ofNat_ne_of_lt {i j : ℕ} (hij : i < j) (hj : j < 2 ^ 64) :
    UInt64.ofNat i ≠ UInt64.ofNat j := by
  intro h
  have hnat := congrArg UInt64.toNat h
  rw [UInt64.toNat_ofNat', UInt64.toNat_ofNat', Nat.mod_eq_of_lt (by omega),
    Nat.mod_eq_of_lt hj] at hnat
  omega

/-- Where the answers that are still to come are those that a scenario asks for
it shows its programme and comes to its end. -/
theorem obliging_course {result : Except Failure Unit} {s' : RunState} {calls : History}
    (hitems : scenario.programme authorization <+: items.drop (answered past).length)
    (hnamed : named + 5 ≤ 2 ^ 64)
    (h : (on (obliging items) UInt64.ofNat authorization).course scenario (start named) past =
      ((result, s'), calls)) :
    result = .ok () ∧ s'.named ≤ named + 5 ∧
      (answered calls).length = (scenario.programme authorization).length := by
  obtain ⟨hgives, hnames, shown, hshown, hprefix, hall⟩ := follows_course _ _ _ _ _ _ _ _ _ h
  obtain ⟨steps, hsteps, horderly⟩ := orderly_course _ _ _ _ _ _ _ _ _ h
  obtain rfl : s'.steps = steps := hsteps
  obtain rfl : s'.steps.map Step.item = shown := hshown
  have hisOf : List.Forall₂ Step.IsOf s'.steps (answered calls) := by
    rcases horderly with h | ⟨h, -⟩
    · exact h.isOf
    · exact h.isOf
  -- it is not the node that ends the run
  have hfails {before : History} {x : Exchange} (hlast : calls = before ++ [x]) :
      x.failure? = none := by
    rw [hlast, Behaviour.gives_append, Behaviour.gives_singleton] at hgives
    exact obliging_answers hgives.2
  have hends : ∀ e, result ≠ .error e := by
    rintro e rfl
    have hcourse := h
    rw [← List.append_nil past] at hcourse
    obtain ⟨-, hanswerable⟩ := Delivers.course obliging_funds scenario _ _ _ _ hcourse
    replace hanswerable := hanswerable e rfl
    rw [List.nil_append] at hanswerable
    cases hanswerable with
    | failed before x cause hlast hfailure he =>
      rw [hfails hlast] at hfailure
      cases hfailure
    | surprised front before label tx expected verdict hsteps hlast hagrees he =>
      have hfront : (answered before).length = front.length := by
        have hcount := hisOf.length_eq
        rw [hsteps, hlast, answered_append, List.length_append, List.length_append] at hcount
        exact (Nat.add_right_cancel hcount).symm
      have hshown : (s'.steps.map Step.item)[front.length]? = some (label, expected) := by
        rw [hsteps, List.getElem?_map, List.getElem?_concat_length]
        rfl
      have hitem : items[(answered (past ++ before)).length]? = some (label, expected) := by
        rw [answered_append, List.length_append, hfront, ← List.getElem?_drop]
        obtain ⟨after, hafter⟩ := hprefix.trans hitems
        rw [← hafter, List.getElem?_append_left (List.getElem?_eq_some_iff.mp hshown).1, hshown]
      rw [hlast, Behaviour.gives_append, Behaviour.gives_singleton] at hgives
      rw [obliging_agrees hgives.2 hitem] at hagrees
      cases hagrees
    | misplaced current requested he =>
      subst he
      rcases course_excused h (fun i j _ hij hj => ofNat_ne_of_lt hij (by
        have hstart : (start named).named = named := rfl
        omega)) with hstateless | ⟨x, cause, hlast, hx, he⟩
      · exact hstateless _ rfl current requested rfl
      · obtain ⟨before, hbefore⟩ := List.getLast?_eq_some_iff.mp hlast
        rw [hfails hbefore] at hx
        cases hx
    | clashed built he hclash => exact not_clash_obliging hclash
  cases result with
  | ok _ =>
    refine ⟨rfl, hnames, ?_⟩
    rw [← hisOf.length_eq, ← hall () rfl, List.length_map]
  | error e => exact absurd rfl (hends e)

theorem obliging_report
    (hitems : scenario.programme authorization <+: items.drop (answered past).length)
    (hnamed : named + 5 ≤ 2 ^ 64) :
    ∃ r named' calls, (on (obliging items) UInt64.ofNat authorization).report scenario named past =
      ((some r, named'), calls) ∧ r.error = none ∧ named' ≤ named + 5 ∧
        (answered calls).length = (scenario.programme authorization).length := by
  obtain ⟨⟨⟨result, s'⟩, calls⟩, hcourse⟩ : ∃ outcome,
      (on (obliging items) UInt64.ofNat authorization).course scenario (start named) past =
        outcome := ⟨_, rfl⟩
  obtain ⟨rfl, hnames, hshown⟩ := obliging_course hitems hnamed hcourse
  refine ⟨⟨scenario, authorization.label, s'.steps, s'.lifecycle.states, none⟩, s'.named, calls,
    ?_, rfl, hnames, hshown⟩
  unfold report
  rw [Calling.bind_apply, hcourse]
  exact Prod.ext rfl (List.append_nil calls)

end Runner

end VaultCovenant
