import Mathlib.Algebra.GroupWithZero.Nat
import Mathlib.Tactic.SplitIfs
import VaultCovenant.Proofs.PrefixFree
import VaultCovenant.Script.Basic

/-!
# Telling instructions apart

The instructions of a script are told apart by their bytes as long as they
push little at a time, and an integer by the instruction that pushes it.

Results:
* `Instruction.prefixFree_encode`, `Script.ofInstructions_inj`: a script of
  short instructions is determined by its bytes.
* `Instruction.number_inj`: different integers are pushed by different
  instructions.
* `Instruction.short_number`: the push of any 64-bit integer is short.
-/

namespace VaultCovenant

/-! ## The length of a script number -/

namespace ScriptNumber

theorem length_magnitude_le (negative : Bool) {n k : ℕ} (h : n < 128 * 256 ^ k) :
    (magnitude negative n).length ≤ k + 1 := by
  induction k generalizing n with
  | zero =>
    rw [magnitude, if_pos (by omega)]
    exact Nat.le_refl 1
  | succ k ih =>
    rw [Nat.pow_succ] at h
    rw [magnitude]
    split
    · exact Nat.le_add_left ..
    · have hrest := ih (n := n / 256) (by omega)
      rw [List.length_cons]
      omega

/-- A 64-bit integer takes at most nine bytes, the last one for the sign of
the smallest. -/
theorem length_encode_le (v : Int64) : (encode v.toInt).length ≤ 9 := by
  have hlow := v.le_toInt
  have hhigh := v.toInt_lt
  unfold encode
  split
  · exact Nat.zero_le _
  · exact length_magnitude_le _ (by omega)

/-- What 32 bits hold is written in at most five bytes, the last one for the
sign. -/
theorem length_encode_natCast_le {n : ℕ} (h : n ≤ 0xffffffff) :
    (encode n).length ≤ 5 := by
  unfold encode
  split
  · exact Nat.zero_le _
  · exact length_magnitude_le _ (by omega)

end ScriptNumber

/-! ## Instructions -/

namespace Instruction

/-- Pushes by their length alone, and operations above the codes that stand
for pushes. -/
def Short : Instruction → Prop
  | push data => data.length < 0x4c
  | op code => 0x4e < code.toNat

theorem encode_ne_nil (i : Instruction) : i.encode ≠ [] := by
  cases i with
  | push data =>
    intro h
    have hheader := (List.append_eq_nil_iff.mp h).1
    unfold pushHeader at hheader
    split_ifs at hheader
  | op code => exact List.cons_ne_nil _ _

theorem encode_push {data : Bytes} (h : data.length < 0x4c) :
    (push data).encode = UInt8.ofNat data.length :: data := by
  show pushHeader data.length ++ data = _
  rw [pushHeader, if_pos h]
  rfl

@[simp] theorem encode_push_digest (d : Bytes32) : (push d.bytes).encode = 0x20 :: d.bytes := by
  have hlen := d.length_eq
  rw [encode_push (by omega), hlen]
  rfl

theorem prefixFree_encode : PrefixFree Short encode := by
  intro a b ha hb rest rest' h
  cases a with
  | push data =>
    rw [encode_push ha, List.cons_append] at h
    have hdata : (UInt8.ofNat data.length).toNat = data.length := by
      have : data.length < 0x4c := ha
      rw [UInt8.toNat_ofNat']
      omega
    cases b with
    | push data' =>
      rw [encode_push hb, List.cons_append] at h
      have hdata' : (UInt8.ofNat data'.length).toNat = data'.length := by
        have : data'.length < 0x4c := hb
        rw [UInt8.toNat_ofNat']
        omega
      obtain ⟨hhead, htail⟩ := List.cons.inj h
      rw [← UInt8.toNat_inj, hdata, hdata'] at hhead
      obtain ⟨rfl, rfl⟩ := List.append_inj htail hhead
      exact ⟨rfl, rfl⟩
    | op code =>
      -- the length of what is pushed is below every code
      obtain ⟨hhead, -⟩ := List.cons.inj h
      rw [← UInt8.toNat_inj, hdata] at hhead
      have hcode : 0x4e < code.toNat := hb
      have hlen : data.length < 0x4c := ha
      omega
  | op code =>
    cases b with
    | push data =>
      rw [encode_push hb, List.cons_append] at h
      obtain ⟨hhead, -⟩ := List.cons.inj h
      have hlen : data.length < 0x4c := hb
      have hcode : 0x4e < code.toNat := ha
      rw [← UInt8.toNat_inj, UInt8.toNat_ofNat'] at hhead
      omega
    | op code' =>
      obtain ⟨rfl, rfl⟩ := List.cons.inj h
      exact ⟨rfl, rfl⟩

/-! ## Integers -/

/-- The integer that an instruction leaves on the stack. -/
def pushedNumber : Instruction → Int
  | push data => ScriptNumber.decode data
  | op code => if code = Opcode.negativeOne then -1 else code.toNat - 0x50

theorem pushedNumber_number (v : Int) : (number v).pushedNumber = v := by
  unfold number
  split
  · rename_i h
    rw [h]
    rfl
  split
  · rename_i hrange
    have hcode : (UInt8.ofNat (0x50 + v.toNat)).toNat = 0x50 + v.toNat := by
      rw [UInt8.toNat_ofNat']
      omega
    have hne : UInt8.ofNat (0x50 + v.toNat) ≠ Opcode.negativeOne := by
      intro h
      rw [← UInt8.toNat_inj, hcode] at h
      have : Opcode.negativeOne.toNat = 0x4f := rfl
      omega
    show (if _ then _ else _) = v
    rw [if_neg hne, hcode]
    omega
  · exact ScriptNumber.decode_encode v

theorem number_inj {v w : Int} (h : number v = number w) : v = w := by
  have hpushed := congrArg pushedNumber h
  rwa [pushedNumber_number, pushedNumber_number] at hpushed

theorem short_number (v : Int64) : (number v.toInt).Short := by
  unfold number
  split
  · show 0x4e < Opcode.negativeOne.toNat
    decide
  split
  · show 0x4e < (UInt8.ofNat (0x50 + v.toInt.toNat)).toNat
    rw [UInt8.toNat_ofNat']
    omega
  · have hlen := ScriptNumber.length_encode_le v
    show (ScriptNumber.encode v.toInt).length < 0x4c
    omega

/-- The push of a 64-bit integer takes at most ten bytes. -/
theorem length_encode_number_le (v : Int64) : (number v.toInt).encode.length ≤ 10 := by
  have hlen := ScriptNumber.length_encode_le v
  unfold number
  split
  · exact Nat.le_add_left ..
  split
  · exact Nat.le_add_left ..
  · rw [encode_push (by omega), List.length_cons]
    omega

theorem short_push_digest (d : Bytes32) : (push d.bytes).Short := by
  have hlen := d.length_eq
  show d.bytes.length < 0x4c
  omega

end Instruction

/-! ## Scripts -/

namespace Script

theorem ofInstructions_inj {is js : List Instruction} (his : ∀ i ∈ is, i.Short)
    (hjs : ∀ j ∈ js, j.Short) (h : ofInstructions is = ofInstructions js) : is = js :=
  Instruction.prefixFree_encode.flatMap_inj Instruction.encode_ne_nil his hjs
    (congrArg Script.bytes h)

/-- The last byte of a script whose last instruction is an operation. -/
theorem getLast?_ofInstructions (front : List Instruction) (code : Opcode) :
    (ofInstructions (front ++ [.op code])).bytes.getLast? = some code := by
  rw [ofInstructions_append, bytes_append]
  exact List.getLast?_concat

theorem replaceLast_ofInstructions (front : List Instruction) (code other : Opcode) :
    (ofInstructions (front ++ [.op code])).replaceLast other =
      ofInstructions (front ++ [.op other]) := by
  rw [ofInstructions_append, ofInstructions_append]
  exact congrArg (fun bytes => (⟨bytes ++ [other]⟩ : Script)) List.dropLast_concat

end Script

end VaultCovenant
