import VaultCovenant.Proofs.Sequencing
import VaultCovenant.Scenario.Flow

/-!
# Nodes and what was asked of them

A node may answer a call in any way, and its answer may depend on every call
before. A node is given here by a function from the calls so far, with their
answers, to the next answer; a computation that calls it tells, beside its
result, which calls it made.

Results:
* `Conforming.append`, `Conforming.surprised`: steps that are those of some
  calls, put behind one another.
* `Conforming.agrees`, `Surprised.last`: which steps went as expected.
-/

namespace VaultCovenant

/-! ## Calls and answers -/

/-- A call to a node, with its answer. -/
inductive Exchange where
  | broadcast (tx : Transaction) (answer : Except VaultError Verdict)
  | mine (blocks : UInt64) (answer : Except VaultError Unit)
  | spendableCoin (answer : Except VaultError Coin)
  | bumpFee (txid : Txid) (delta : Int64) (answer : Except VaultError Unit)
  | mempoolSize (answer : Except VaultError UInt64)

/-- The calls to a node, in order. -/
abbrev History := List Exchange

/-- How a node answers a call, given all calls before. -/
structure Behaviour where
  broadcast : History → Transaction → Except VaultError Verdict
  mine : History → UInt64 → Except VaultError Unit
  spendableCoin : History → Except VaultError Coin
  bumpFee : History → Txid → Int64 → Except VaultError Unit
  mempoolSize : History → Except VaultError UInt64

/-! ## Computations that call a node -/

/-- A computation that calls a node: given the calls before, its result and the
calls that it makes itself. -/
def Calling (α : Type) : Type := History → α × History

namespace Calling

variable {α β γ : Type}

instance : Monad Calling where
  pure a := fun _ => (a, [])
  bind x f := fun past =>
    let (a, calls) := x past
    let (b, more) := f a (past ++ calls)
    (b, calls ++ more)

theorem bind_apply (x : Calling α) (f : α → Calling β) (past : History) :
    (x >>= f) past = ((f (x past).1 (past ++ (x past).2)).1,
      (x past).2 ++ (f (x past).1 (past ++ (x past).2)).2) := rfl

theorem bind_pure_apply (x : Calling α) (f : α → β) (past : History) :
    (x >>= fun a => pure (f a)) past = (f (x past).1, (x past).2) :=
  congrArg (Prod.mk (f (x past).1)) (List.append_nil (x past).2)

instance : LawfulMonad Calling := by
  refine LawfulMonad.mk' Calling ?_ ?_ ?_
  · intro α x
    funext past
    exact bind_pure_apply x id past
  · intro α β a f
    funext past
    show ((f a (past ++ [])).1, [] ++ (f a (past ++ [])).2) = f a past
    rw [List.append_nil]
    rfl
  · intro α β γ x f g
    funext past
    simp only [bind_apply, List.append_assoc]

end Calling

/-- The node that behaves so. -/
def Behaviour.node (b : Behaviour) : Node Calling where
  broadcast tx := fun past => (b.broadcast past tx, [.broadcast tx (b.broadcast past tx)])
  mine blocks := fun past => (b.mine past blocks, [.mine blocks (b.mine past blocks)])
  spendableCoin := fun past => (b.spendableCoin past, [.spendableCoin (b.spendableCoin past)])
  bumpFee txid delta := fun past =>
    (b.bumpFee past txid delta, [.bumpFee txid delta (b.bumpFee past txid delta)])
  mempoolSize := fun past => (b.mempoolSize past, [.mempoolSize (b.mempoolSize past)])

/-! ## Reading a history -/

/-- The error that a call was answered with. -/
def Exchange.failure? : Exchange → Option VaultError
  | broadcast _ (.error e) | mine _ (.error e) | spendableCoin (.error e)
  | bumpFee _ _ (.error e) | mempoolSize (.error e) => some e
  | _ => none

/-- The transaction that was offered, and what the node said of it. -/
def Exchange.verdict? : Exchange → Option (Transaction × Verdict)
  | broadcast tx (.ok verdict) => some (tx, verdict)
  | _ => none

/-- The coin that was handed out. -/
def Exchange.coin? : Exchange → Option Coin
  | spendableCoin (.ok coin) => some coin
  | _ => none

/-- The transactions that a node took or refused, with its verdicts. -/
def answered (calls : History) : List (Transaction × Verdict) :=
  calls.filterMap Exchange.verdict?

/-- The transactions that a node took. -/
def accepted (calls : History) : List Transaction :=
  ((answered calls).filter fun p => p.2.isAccepted).map Prod.fst

/-- The coins that a node handed out. -/
def coins (calls : History) : List Coin := calls.filterMap Exchange.coin?

@[simp] theorem answered_append (calls more : History) :
    answered (calls ++ more) = answered calls ++ answered more := List.filterMap_append

@[simp] theorem coins_append (calls more : History) :
    coins (calls ++ more) = coins calls ++ coins more := List.filterMap_append

theorem mem_accepted {calls : History} {tx : Transaction} {t : Txid}
    (h : .broadcast tx (.ok (.accepted t)) ∈ calls) : tx ∈ accepted calls := by
  have hanswered : (tx, .accepted t) ∈ answered calls := List.mem_filterMap.mpr ⟨_, h, rfl⟩
  unfold accepted
  rw [List.mem_map]
  exact ⟨_, List.mem_filter.mpr ⟨hanswered, rfl⟩, rfl⟩

/-! ## Steps and calls -/

/-- Whether a node took what was to be taken or refused what was to be
refused, for whatever reason. -/
def Expectation.agreesWith : Expectation → Verdict → Bool
  | accept, .accepted _ => true
  | reject _, .rejected _ => true
  | _, _ => false

/-- The step is the record of the transaction and the verdict. -/
def Step.IsOf (step : Step) (p : Transaction × Verdict) : Prop :=
  step = Step.record step.label p.1.txid step.expected p.2

theorem Step.isOf_record (label : String) (expected : Expectation) (tx : Transaction)
    (verdict : Verdict) : (Step.record label tx.txid expected verdict).IsOf (tx, verdict) := rfl

/-- The steps are those of the transactions that were taken or refused, one of
each, and all of these were as expected. -/
def Conforming (steps : List Step) (calls : History) : Prop :=
  List.Forall₂ (fun step p => step.IsOf p ∧ step.expected.agreesWith p.2 = true) steps
    (answered calls)

/-- The last call was a transaction that was taken or refused against
expectation; before it all was as expected. -/
def Surprised (steps : List Step) (calls : History) : Prop :=
  ∃ front before label tx expected verdict, Conforming front before ∧
    expected.agreesWith verdict = false ∧
    steps = front ++ [Step.record label tx.txid expected verdict] ∧
    calls = before ++ [.broadcast tx (.ok verdict)]

theorem conforming_nil : Conforming [] [] := .nil

theorem conforming_call {x : Exchange} (h : x.verdict? = none) : Conforming [] [x] := by
  have hanswered : answered [x] = [] := by
    simp [answered, h]
  unfold Conforming
  rw [hanswered]
  exact .nil

theorem conforming_broadcast (label : String) (tx : Transaction) {expected : Expectation}
    {verdict : Verdict} (h : expected.agreesWith verdict = true) :
    Conforming [Step.record label tx.txid expected verdict] [.broadcast tx (.ok verdict)] :=
  .cons ⟨Step.isOf_record label expected tx verdict, h⟩ .nil

theorem surprised_broadcast (label : String) (tx : Transaction) {expected : Expectation}
    {verdict : Verdict} (h : expected.agreesWith verdict = false) :
    Surprised [Step.record label tx.txid expected verdict] [.broadcast tx (.ok verdict)] :=
  ⟨[], [], label, tx, expected, verdict, conforming_nil, h, rfl, rfl⟩

namespace Conforming

variable {steps more : List Step} {calls later : History}

theorem append (h : Conforming steps calls) (h' : Conforming more later) :
    Conforming (steps ++ more) (calls ++ later) := by
  unfold Conforming
  rw [answered_append]
  exact List.rel_append h h'

theorem surprised (h : Conforming steps calls) (h' : Surprised more later) :
    Surprised (steps ++ more) (calls ++ later) := by
  obtain ⟨front, before, label, tx, expected, verdict, hfront, hagrees, rfl, rfl⟩ := h'
  refine ⟨steps ++ front, calls ++ before, label, tx, expected, verdict, h.append hfront, hagrees,
    ?_, ?_⟩
  · rw [List.append_assoc]
  · rw [List.append_assoc]

theorem isOf (h : Conforming steps calls) : List.Forall₂ Step.IsOf steps (answered calls) :=
  h.imp fun _ _ hp => hp.1

theorem agrees (h : Conforming steps calls) {i : ℕ} {step : Step} {p : Transaction × Verdict}
    (hstep : steps[i]? = some step) (hp : (answered calls)[i]? = some p) :
    step.expected.agreesWith p.2 = true := by
  obtain ⟨p', hp', -, hagrees⟩ := forall₂_getElem? h hstep
  rw [hp] at hp'
  cases hp'
  exact hagrees

end Conforming

namespace Surprised

variable {steps : List Step} {calls : History}

theorem isOf (h : Surprised steps calls) : List.Forall₂ Step.IsOf steps (answered calls) := by
  obtain ⟨front, before, label, tx, expected, verdict, hfront, -, rfl, rfl⟩ := h
  rw [answered_append]
  exact List.rel_append hfront.isOf (.cons (Step.isOf_record label expected tx verdict) .nil)

/-- Only the last step went against expectation, and no call came after it. -/
theorem last (h : Surprised steps calls) {i : ℕ} {step : Step} {p : Transaction × Verdict}
    (hstep : steps[i]? = some step) (hp : (answered calls)[i]? = some p) :
    step.expected.agreesWith p.2 = true ∨
      (i + 1 = steps.length ∧ calls.getLast? = some (.broadcast p.1 (.ok p.2))) := by
  obtain ⟨front, before, label, tx, expected, verdict, hfront, -, rfl, rfl⟩ := h
  have hlen : front.length = (answered before).length := hfront.length_eq
  have hlast : answered [Exchange.broadcast tx (.ok verdict)] = [(tx, verdict)] := rfl
  rw [answered_append, hlast] at hp
  by_cases hi : i < front.length
  · rw [List.getElem?_append_left hi] at hstep
    rw [List.getElem?_append_left (by omega)] at hp
    exact Or.inl (hfront.agrees hstep hp)
  · have hend : i = front.length := by
      have hlt := (List.getElem?_eq_some_iff.mp hstep).1
      rw [List.length_append, List.length_singleton] at hlt
      omega
    subst hend
    rw [hlen, List.getElem?_concat_length] at hp
    cases hp
    refine Or.inr ⟨?_, ?_⟩
    · rw [List.length_append, List.length_singleton]
    · rw [List.getLast?_concat]

end Surprised

end VaultCovenant
