import Mathlib.Data.List.Forall2
import VaultCovenant.Failure

/-!
# Steps that may be refused

A computation that may be refused is a chain of steps, and many of its steps
run one computation over a list.

Results:
* `bind_eq_ok_iff`, `bind_eq_error_iff`: a chain succeeds when both of its
  parts do, and fails where the first of them fails.
* `mapM_eq_ok_iff`: running a step over a list relates the list to its
  results, member by member.
* `mapM_error`, `mapM_isOk`: a step over a list fails only where it fails at a
  member.
* `forall₂_getElem?`, `forall₂_of_getElem?`: lists that go together do so
  position by position.
* `filterMap_of_forall₂`: what each member of a list has, all of them together.
-/

namespace VaultCovenant

section Chains

variable {ε α β : Type}

theorem bind_eq_ok_iff {x : Except ε α} {f : α → Except ε β} {b : β} :
    (x >>= f) = .ok b ↔ ∃ a, x = .ok a ∧ f a = .ok b := by
  cases x <;> simp [bind, Except.bind]

theorem bind_eq_error_iff {x : Except ε α} {f : α → Except ε β} {e : ε} :
    (x >>= f) = .error e ↔ x = .error e ∨ ∃ a, x = .ok a ∧ f a = .error e := by
  cases x <;> simp [bind, Except.bind]

theorem lift_eq_ok_iff {x : Except VaultError α} {a : α} :
    Failure.lift x = .ok a ↔ x = .ok a := by
  cases x <;> simp [Failure.lift]

theorem lift_eq_error_iff {x : Except VaultError α} {e : Failure} :
    Failure.lift x = .error e ↔ ∃ cause, x = .error cause ∧ e = .error cause := by
  cases x <;> simp [Failure.lift, eq_comm]

theorem lift_bind (x : Except VaultError α) (f : α → Except VaultError β) :
    Failure.lift (x >>= f) = Failure.lift x >>= fun a => Failure.lift (f a) := by
  cases x <;> rfl

theorem map_eq_ok_iff {x : Except ε α} {f : α → β} {b : β} :
    x.map f = .ok b ↔ ∃ a, x = .ok a ∧ f a = b := by
  cases x <;> simp [Except.map]

end Chains

/-! ## Steps over a list -/

section Lists

variable {ε α β : Type} {f : α → Except ε β}

theorem mapM_eq_ok_iff {xs : List α} {ys : List β} :
    xs.mapM f = .ok ys ↔ List.Forall₂ (fun x y => f x = .ok y) xs ys := by
  induction xs generalizing ys with
  | nil => simp [pure, Except.pure, eq_comm]
  | cons x xs ih =>
    rw [List.mapM_cons, bind_eq_ok_iff, List.forall₂_cons_left_iff]
    constructor
    · rintro ⟨y, hy, h⟩
      obtain ⟨zs, hzs, h⟩ := bind_eq_ok_iff.mp h
      cases h
      exact ⟨y, zs, hy, ih.mp hzs, rfl⟩
    · rintro ⟨y, zs, hy, hzs, rfl⟩
      exact ⟨y, hy, bind_eq_ok_iff.mpr ⟨zs, ih.mpr hzs, rfl⟩⟩

theorem mapM_error {xs : List α} {e : ε} (h : xs.mapM f = .error e) :
    ∃ x ∈ xs, f x = .error e := by
  induction xs with
  | nil => cases h
  | cons x xs ih =>
    rw [List.mapM_cons] at h
    rcases bind_eq_error_iff.mp h with h | ⟨y, -, h⟩
    · exact ⟨x, by simp, h⟩
    · rcases bind_eq_error_iff.mp h with h | ⟨ys, -, h⟩
      · obtain ⟨z, hz, h⟩ := ih h
        exact ⟨z, by simp [hz], h⟩
      · cases h

theorem mapM_isOk {xs : List α} (h : ∀ x ∈ xs, ∃ y, f x = .ok y) :
    ∃ ys, xs.mapM f = .ok ys := by
  cases hxs : xs.mapM f with
  | ok ys => exact ⟨ys, rfl⟩
  | error e =>
    obtain ⟨x, hx, he⟩ := mapM_error hxs
    obtain ⟨y, hy⟩ := h x hx
    rw [hy] at he
    cases he

/-- The member at a position and its result. -/
theorem forall₂_getElem? {R : α → β → Prop} {xs : List α} {ys : List β}
    (h : List.Forall₂ R xs ys) {i : ℕ} {x : α} (hx : xs[i]? = some x) :
    ∃ y, ys[i]? = some y ∧ R x y := by
  induction h generalizing i with
  | nil => simp at hx
  | cons hr _ ih =>
    cases i with
    | zero => cases hx; exact ⟨_, rfl, hr⟩
    | succ i => exact ih hx

theorem forall₂_mem_right {R : α → β → Prop} {xs : List α} {ys : List β}
    (h : List.Forall₂ R xs ys) {y : β} (hy : y ∈ ys) : ∃ x ∈ xs, R x y := by
  obtain ⟨i, hi⟩ := List.mem_iff_getElem?.mp hy
  obtain ⟨x, hx, hr⟩ := forall₂_getElem? h.flip hi
  exact ⟨x, List.mem_iff_getElem?.mpr ⟨i, hx⟩, hr⟩

theorem forall₂_of_getElem? {R : α → β → Prop} {xs : List α} {ys : List β}
    (hlen : xs.length = ys.length)
    (h : ∀ (i : ℕ) x, xs[i]? = some x → ∃ y, ys[i]? = some y ∧ R x y) : List.Forall₂ R xs ys := by
  induction xs generalizing ys with
  | nil =>
    rw [List.length_nil] at hlen
    rw [List.length_eq_zero_iff.mp hlen.symm]
    exact .nil
  | cons x xs ih =>
    obtain ⟨y, hy, hr⟩ := h 0 x rfl
    cases ys with
    | nil => cases hy
    | cons y' ys =>
      cases hy
      exact .cons hr (ih (Nat.succ_inj.mp hlen) fun i x hx => h (i + 1) x hx)

/-- What each member of a list has, where all of them have it. -/
theorem filterMap_of_forall₂ {γ : Type} {g : α → Option γ} {k : β → γ} {xs : List α}
    {ys : List β} (h : List.Forall₂ (fun x y => g x = some (k y)) xs ys) :
    xs.filterMap g = ys.map k := by
  induction h with
  | nil => rfl
  | cons hy _ ih => rw [List.filterMap_cons_some hy, ih, List.map_cons]

end Lists

/-! ## A step that may be left out -/

theorem optionMapM_eq_ok_iff {ε α β : Type} {f : α → Except ε β} {x : Option α} {y : Option β} :
    x.mapM f = .ok y ↔
      (x = none ∧ y = none) ∨ ∃ a b, x = some a ∧ f a = .ok b ∧ y = some b := by
  cases x with
  | none => simp [pure, Except.pure, eq_comm]
  | some a =>
    rw [Option.mapM_some]
    cases h : f a <;> simp [Functor.map, Except.map, h, eq_comm]

theorem optionMapM_none_eq_ok_iff {ε α β : Type} {f : α → Except ε β} {y : Option β} :
    (none : Option α).mapM f = .ok y ↔ y = none := by
  rw [optionMapM_eq_ok_iff]
  simp

theorem optionMapM_some_eq_ok_iff {ε α β : Type} {f : α → Except ε β} {a : α} {y : Option β} :
    (some a).mapM f = .ok y ↔ ∃ b, f a = .ok b ∧ y = some b := by
  rw [optionMapM_eq_ok_iff]
  simp

theorem optionMapM_eq_error_iff {ε α β : Type} {f : α → Except ε β} {x : Option α} {e : ε} :
    x.mapM f = .error e ↔ ∃ a, x = some a ∧ f a = .error e := by
  cases x with
  | none => simp [pure, Except.pure]
  | some a =>
    rw [Option.mapM_some]
    cases h : f a <;> simp [Functor.map, Except.map, h]

end VaultCovenant
