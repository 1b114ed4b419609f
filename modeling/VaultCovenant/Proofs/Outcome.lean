import VaultCovenant.Proofs.Sequencing

/-!
# How a computation ends

A computation that may be refused has a result or one failure. What it fails
with is told by its steps in order: the first that fails decides.

Results:
* `failureOf_eq_none_iff`, `failureOf_eq_some_iff`: a result and a failure
  exclude each other, and there is one of them.
* `failureOf_bind`: a chain fails with its first part, else with its second.
* `failureOf_mapM`: a step over a list fails as at the first member at which it
  fails.
-/

namespace VaultCovenant

variable {ε α β : Type}

/-- The failure of a computation, if it has no result. -/
def failureOf : Except ε α → Option ε
  | .ok _ => none
  | .error e => some e

@[simp] theorem failureOf_ok (a : α) : failureOf (.ok a : Except ε α) = none := rfl

@[simp] theorem failureOf_error (e : ε) : failureOf (.error e : Except ε α) = some e := rfl

theorem failureOf_eq_none_iff {x : Except ε α} : failureOf x = none ↔ ∃ a, x = .ok a := by
  cases x <;> simp

theorem failureOf_eq_some_iff {x : Except ε α} {e : ε} :
    failureOf x = some e ↔ x = .error e := by
  cases x <;> simp

/-- Where the first of two causes does not apply the second decides. -/
theorem or_of_ite (c : Prop) [Decidable c] (first : ε) (second : Option ε) :
    (if c then some first else none).or second = if c then some first else second := by
  split <;> rfl

/-- A chain fails with its first part, or with what follows the result of
that. -/
theorem failureOf_bind {x : Except ε α} {f : α → Except ε β} {second : Option ε}
    (h : ∀ a, x = .ok a → failureOf (f a) = second) :
    failureOf (x >>= f) = (failureOf x).or second := by
  cases x with
  | ok a => exact h a rfl
  | error e => rfl

/-- A chain whose second part cannot fail fails with its first part. -/
theorem failureOf_bind_of_ok {x : Except ε α} {f : α → Except ε β}
    (h : ∀ a, x = .ok a → failureOf (f a) = none) : failureOf (x >>= f) = failureOf x := by
  rw [failureOf_bind h, Option.or_none]

theorem failureOf_lift (x : Except VaultError α) :
    failureOf (Failure.lift x) = (failureOf x).map Failure.error := by
  cases x <;> rfl

theorem failureOf_mapM (f : α → Except ε β) (xs : List α) :
    failureOf (xs.mapM f) = xs.findSome? fun x => failureOf (f x) := by
  induction xs with
  | nil => rfl
  | cons x xs ih =>
    rw [List.mapM_cons, List.findSome?_cons]
    cases hx : f x with
    | error e => rfl
    | ok y =>
      rw [failureOf_ok, ← ih]
      show failureOf (xs.mapM f >>= _) = _
      rw [failureOf_bind_of_ok fun _ _ => rfl]

theorem failureOf_optionMapM (f : α → Except ε β) (x : Option α) :
    failureOf (x.mapM f) = x.bind fun a => failureOf (f a) := by
  cases x with
  | none => rfl
  | some a =>
    rw [Option.mapM_some]
    show failureOf (Except.map _ (f a)) = _
    cases h : f a <;> simp [Except.map, h]

end VaultCovenant
