import Mathlib.Algebra.GroupWithZero.Nat
import VaultCovenant.Script.Number

/-!
# Minimal script numbers

A script takes a byte string for an integer only if no shorter string stands
for the same integer.

Results:
* `ScriptNumber.decode_concat`: the integer that the bytes stand for, by their
  digits and the sign in the last of them.
* `ScriptNumber.isMinimal_iff`: the rule that a minimal string keeps.
* `ScriptNumber.isMinimal_encode`: the encoding of an integer is minimal.
* `ScriptNumber.decodeMinimal?_eq_some_iff`: it is the only minimal string
  that stands for the integer.
-/

namespace VaultCovenant.ScriptNumber

/-- Whether the last byte is needed: it holds a digit, or the sign for which
the byte before it has no room. -/
def isMinimal : Bytes → Bool
  | [] => true
  | [b] => b.toNat % 128 != 0
  | [a, b] => b.toNat % 128 != 0 || decide (128 ≤ a.toNat)
  | _ :: a :: b :: bs => isMinimal (a :: b :: bs)

/-- The rule for the last byte of a string, where there is one. -/
def Minimal (bs : Bytes) : Prop :=
  ∀ front last, bs = front ++ [last] →
    last.toNat % 128 ≠ 0 ∨ ∃ before, front.getLast? = some before ∧ 128 ≤ before.toNat

/-- The integer that a byte string stands for, if the string is minimal. -/
def decodeMinimal? (bs : Bytes) : Option Int :=
  if isMinimal bs then some (decode bs) else none

/-! ## The last byte -/

theorem isMinimal_concat (front : Bytes) (last : UInt8) :
    isMinimal (front ++ [last]) =
      (last.toNat % 128 != 0 || front.getLast?.any fun before => decide (128 ≤ before.toNat)) := by
  match front with
  | [] => simp [isMinimal]
  | [a] => simp [isMinimal]
  | c :: a :: rest =>
    obtain ⟨b, bs, hbs⟩ : ∃ b bs, rest ++ [last] = b :: bs := by
      cases rest with
      | nil => exact ⟨_, _, rfl⟩
      | cons b bs => exact ⟨_, _, rfl⟩
    have ih := isMinimal_concat (a :: rest) last
    rw [List.cons_append, hbs] at ih
    rw [List.cons_append, List.cons_append, hbs, isMinimal, ih, List.getLast?_cons_cons]

theorem isMinimal_iff {bs : Bytes} : isMinimal bs = true ↔ Minimal bs := by
  unfold Minimal
  rcases List.eq_nil_or_concat bs with rfl | ⟨front, last, rfl⟩
  · simp [isMinimal]
  · rw [List.concat_eq_append, isMinimal_concat]
    constructor
    · intro h front' last' heq
      obtain ⟨rfl, hlast⟩ := List.append_inj' heq rfl
      obtain rfl := List.singleton_inj.mp hlast
      simpa [Option.any_eq_true] using h
    · intro h
      simpa [Option.any_eq_true] using h front last rfl

theorem decodeMagnitude_concat (front : Bytes) (last : UInt8) :
    decodeMagnitude (front ++ [last]) =
      (Bytes.toNatLE front + 256 ^ front.length * (last.toNat % 128),
        decide (128 ≤ last.toNat)) := by
  induction front with
  | nil => simp [decodeMagnitude, Bytes.toNatLE]
  | cons b front ih =>
    rw [List.cons_append, decodeMagnitude, ih]
    · simp only [Bytes.toNatLE, List.length_cons, Nat.pow_succ', Prod.mk.injEq, and_true]
      rw [Nat.mul_add, Nat.mul_assoc, Nat.add_assoc]
    · simp

/-- All bits but the last of a string are the magnitude, least significant
byte first, and the last is the sign. -/
theorem decode_concat (front : Bytes) (last : UInt8) :
    decode (front ++ [last]) = (if 128 ≤ last.toNat then -1 else 1) *
      ((Bytes.toNatLE front + 256 ^ front.length * (last.toNat % 128) : ℕ) : ℤ) := by
  unfold decode
  rw [decodeMagnitude_concat]
  by_cases h : 128 ≤ last.toNat
  · simp [h]
  · simp [h]

/-! ## Encodings -/

theorem isMinimal_magnitude (negative : Bool) {n : ℕ} (h : 0 < n) :
    isMinimal (magnitude negative n) = true := by
  fun_induction magnitude negative n with
  | case1 n hn =>
    have hmod : (UInt8.ofNat (n + if negative then 128 else 0)).toNat % 128 = n := by
      rw [UInt8.toNat_ofNat']
      cases negative <;> simp <;> omega
    simp only [isMinimal, hmod, bne_iff_ne]
    omega
  | case2 n hn ih =>
    by_cases hzero : n / 256 = 0
    -- the last digit has its top bit set and leaves the sign to a further byte
    · have hhead : 128 ≤ (UInt8.ofNat n).toNat := by
        rw [UInt8.toNat_ofNat']
        omega
      rw [hzero, magnitude, if_pos (by decide)]
      simp only [isMinimal, hhead, decide_true, Bool.or_true]
    · have hrest := ih (by omega)
      cases hm : magnitude negative (n / 256) with
      | nil => exact absurd hm (magnitude_ne_nil _ _)
      | cons b bs =>
        rw [hm] at hrest
        cases bs with
        | nil =>
          simp only [isMinimal] at hrest ⊢
          rw [hrest, Bool.true_or]
        | cons c bs => exact hrest

theorem isMinimal_encode (v : Int) : isMinimal (encode v) = true := by
  unfold encode
  split
  · rfl
  · exact isMinimal_magnitude _ (by omega)

/-- A byte as the last digit of a number and its sign. -/
theorem magnitude_last (b : UInt8) :
    magnitude (decide (128 ≤ b.toNat)) (b.toNat % 128) = [b] := by
  have hb := b.toNat_lt
  rw [magnitude, if_pos (by omega), List.singleton_inj, ← UInt8.toNat_inj, UInt8.toNat_ofNat']
  by_cases hsign : 128 ≤ b.toNat
  · simp only [hsign, decide_true, if_true]
    omega
  · simp only [hsign, decide_false, Bool.false_eq_true, if_false]
    omega

/-- A byte as a digit that others follow. -/
theorem magnitude_cons (negative : Bool) (b : UInt8) {n : ℕ} (h : 128 ≤ b.toNat + 256 * n) :
    magnitude negative (b.toNat + 256 * n) = b :: magnitude negative n := by
  have hb := b.toNat_lt
  have hdiv : (b.toNat + 256 * n) / 256 = n := by omega
  have hhead : UInt8.ofNat (b.toNat + 256 * n) = b := by
    rw [← UInt8.toNat_inj, UInt8.toNat_ofNat']
    omega
  rw [magnitude, if_neg (by omega), hdiv, hhead]

/-- The digits of a minimal string are those of a positive magnitude. -/
theorem magnitude_of_isMinimal {bs : Bytes} (hne : bs ≠ []) (h : isMinimal bs = true) :
    0 < (decodeMagnitude bs).1 ∧ magnitude (decodeMagnitude bs).2 (decodeMagnitude bs).1 = bs := by
  fun_induction isMinimal bs with
  | case1 => exact absurd rfl hne
  | case2 b =>
    rw [bne_iff_ne] at h
    exact ⟨Nat.pos_of_ne_zero h, magnitude_last b⟩
  | case3 a b =>
    rw [Bool.or_eq_true, bne_iff_ne, decide_eq_true_eq] at h
    simp only [decodeMagnitude]
    exact ⟨by omega, by rw [magnitude_cons _ _ (by omega), magnitude_last]⟩
  | case4 c a b bs ih =>
    obtain ⟨hpos, hmagnitude⟩ := ih (List.cons_ne_nil _ _) h
    rw [decodeMagnitude]
    · simp only
      exact ⟨by omega, by rw [magnitude_cons _ _ (by omega), hmagnitude]⟩
    · exact fun hnil => by cases hnil

theorem encode_decode {bs : Bytes} (h : isMinimal bs = true) : encode (decode bs) = bs := by
  by_cases hne : bs = []
  · subst hne
    rfl
  obtain ⟨hpos, hmagnitude⟩ := magnitude_of_isMinimal hne h
  unfold decode encode
  cases hn : decodeMagnitude bs with
  | mk n negative =>
    rw [hn] at hpos hmagnitude
    simp only at hpos hmagnitude
    cases negative with
    | true =>
      have hv : ((-(n : Int)) < 0) := by omega
      simp only [if_true, Int.natAbs_neg, Int.natAbs_natCast, hv, decide_true, hmagnitude]
      exact if_neg (by omega)
    | false =>
      have hv : ¬ ((n : Int) < 0) := by omega
      simp only [Bool.false_eq_true, if_false, Int.natAbs_natCast, hv, decide_false, hmagnitude]
      exact if_neg (by omega)

/-- An integer has one minimal string, its encoding. -/
theorem decodeMinimal?_eq_some_iff {bs : Bytes} {v : Int} :
    decodeMinimal? bs = some v ↔ bs = encode v := by
  unfold decodeMinimal?
  constructor
  · intro h
    obtain ⟨hminimal, hv⟩ := Option.ite_none_right_eq_some.mp h
    rw [← Option.some.inj hv, encode_decode hminimal]
  · rintro rfl
    rw [if_pos (isMinimal_encode v), decode_encode]

end VaultCovenant.ScriptNumber
