import VaultCovenant.Hash.Tagged

/-!
# Collisions

Commitments bind what is hashed into them unless SHA-256 collides. A collision
is always one of two byte strings that were hashed, one in each of the two
computations that are compared.

Results:
* `eq_of_not_collision`: without a collision equal digests have equal byte
  strings.
* `taggedPreimage_inj`: in one domain equal strings hold equal data.
-/

namespace VaultCovenant

/-- Two different byte strings, one hashed in either computation, have the
same digest. -/
def Collision (first second : List Bytes) : Prop :=
  ∃ x ∈ first, ∃ y ∈ second, x ≠ y ∧ sha256 x = sha256 y

variable {first second : List Bytes}

theorem eq_of_not_collision (hno : ¬ Collision first second) {x y : Bytes} (hx : x ∈ first)
    (hy : y ∈ second) (h : sha256 x = sha256 y) : x = y :=
  Classical.byContradiction fun hne => hno ⟨x, hx, y, hy, hne, h⟩

/-- More strings on either side can only collide more. -/
theorem Collision.mono {first' second' : List Bytes} (hfirst : ∀ x ∈ first, x ∈ first')
    (hsecond : ∀ y ∈ second, y ∈ second') (h : Collision first second) :
    Collision first' second' := by
  obtain ⟨x, hx, y, hy, hne, hhash⟩ := h
  exact ⟨x, hfirst x hx, y, hsecond y hy, hne, hhash⟩

theorem taggedPreimage_inj {tag : String} {a b : Bytes}
    (h : taggedPreimage tag a = taggedPreimage tag b) : a = b :=
  List.append_cancel_left h

end VaultCovenant
