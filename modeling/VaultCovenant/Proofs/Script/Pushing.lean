import VaultCovenant.Proofs.Leaves
import VaultCovenant.Proofs.Script.Machine
import VaultCovenant.Proofs.Script.Minimal

/-!
# Pushing integers

An integer stands in a witness by its bytes, and in a script by an instruction
that pushes the same bytes. All 64-bit integers have such an instruction, and
it takes a single byte for the small ones.

Results:
* `Script.pushNumber_eq`: pushing an integer never fails, and what it adds is
  one instruction.
* `Batch.pushNumber_withdrawScriptFor`, `Policy.pushNumber_triggerScript`: the
  leaves push their delays so.
* `Instruction.length_encode_number_eq_one_iff`: the integers that have an
  opcode of their own.
* `numbers_agree`: the bytes of an integer are minimal, stand for nothing
  else, and are what its instruction pushes.
-/

namespace VaultCovenant

/-! ## The instruction of an integer -/

theorem ScriptNumber.encode_eq_nil_iff {v : ℤ} : encode v = [] ↔ v = 0 := by
  constructor
  · intro h
    rw [← decode_encode v, h]
    rfl
  · rintro rfl
    rfl

namespace Instruction

theorem number_of_large {v : ℤ} (h : ¬ (-1 ≤ v ∧ v ≤ 16)) :
    number v = push (ScriptNumber.encode v) := by
  unfold number
  rw [if_neg (by omega), if_neg (by omega)]

/-- Zero is pushed as the empty string, and the other small integers by
opcodes. -/
theorem length_encode_number_of_small {v : ℤ} (h : -1 ≤ v ∧ v ≤ 16) :
    (number v).encode.length = 1 := by
  unfold number
  split
  · rfl
  split
  · rfl
  · have hzero : v = 0 := by omega
    rw [hzero]
    rfl

/-- The integers from -1 to 16 are pushed by one byte, and no others. -/
theorem length_encode_number_eq_one_iff (v : Int64) :
    (number v.toInt).encode.length = 1 ↔ -1 ≤ v.toInt ∧ v.toInt ≤ 16 := by
  constructor
  · intro hlen
    by_contra hlarge
    have hshort := ScriptNumber.length_encode_le v
    rw [number_of_large hlarge, encode_push (by omega), List.length_cons] at hlen
    have hnil : (ScriptNumber.encode v.toInt).length = 0 := by omega
    have hzero := ScriptNumber.encode_eq_nil_iff.mp (List.eq_nil_of_length_eq_zero hnil)
    omega
  · exact length_encode_number_of_small

end Instruction

/-! ## Scripts with an integer behind them -/

theorem Script.bytes_ofInstructions_singleton (i : Instruction) :
    (ofInstructions [i]).bytes = i.encode :=
  List.flatMap_singleton _ _

/-- What stands for an integer in a script is read back as one instruction. -/
theorem Script.instructions?_number (v : Int64) :
    instructions? (Instruction.number v.toInt).encode = some [.number v.toInt] := by
  rw [← bytes_ofInstructions_singleton]
  exact instructions?_ofInstructions (by simp [(Instruction.short_number v).sized])

/-- No 64-bit integer is too long for a push. -/
theorem Script.pushNumber_eq (tooLong : ℕ → String) (s : Script) (v : Int64) :
    s.pushNumber tooLong v = .ok (s ++ ofInstructions [.number v.toInt]) := by
  unfold pushNumber
  split
  · rfl
  · rename_i hlarge
    have hshort := ScriptNumber.length_encode_le v
    dsimp only
    rw [if_pos (by omega), Instruction.number_of_large hlarge]

/-- The leaf that enforces a delay begins with the push of the delay. -/
theorem Batch.pushNumber_withdrawScriptFor (tooLong : ℕ → String) (delay : Int64)
    (template : Digest) :
    (Script.empty.pushNumber tooLong delay).map (· ++ Script.ofInstructions
      [.op Opcode.checkSequenceVerify, .op Opcode.drop, .push template.bytes,
        .op Opcode.checkTemplateVerify]) = .ok (withdrawScriptFor delay template) := by
  rw [Script.pushNumber_eq]
  show Except.ok (Script.ofInstructions [] ++ Script.ofInstructions [_] ++
    Script.ofInstructions _) = _
  rw [← Script.ofInstructions_append, ← Script.ofInstructions_append]
  rfl

/-- The trigger leaf pushes the delay in front of its last opcode. -/
theorem Policy.pushNumber_triggerScript (tooLong : ℕ → String) (p : Policy) :
    ((Script.ofInstructions [.push p.triggerKey.bytes, .op Opcode.checkSigVerify]).pushNumber
      tooLong p.spendDelay).map (· ++ Script.ofInstructions [.op Opcode.vault]) =
      .ok p.triggerScript := by
  rw [Script.pushNumber_eq]
  show Except.ok (Script.ofInstructions _ ++ Script.ofInstructions [_] ++
    Script.ofInstructions _) = _
  rw [← Script.ofInstructions_append, ← Script.ofInstructions_append]
  rfl

/-! ## Bytes, scripts and stacks -/

/-- The bytes of a 64-bit integer are at most nine and minimal, and stand for
it: all bits but the last are the magnitude, least significant byte first, and
the last is the sign. No other minimal string stands for it. Behind any script
the integer is pushed by one instruction more, of a single byte for the
integers from -1 to 16 alone, which leaves the script as it was and puts those
bytes on any stack. -/
theorem numbers_agree :
    (∀ v : Int64, (ScriptNumber.encode v.toInt).length ≤ 9 ∧
      ScriptNumber.Minimal (ScriptNumber.encode v.toInt) ∧
      ScriptNumber.decode (ScriptNumber.encode v.toInt) = v.toInt) ∧
    (ScriptNumber.decode [] = 0 ∧ ∀ (front : Bytes) (last : UInt8),
      ScriptNumber.decode (front ++ [last]) = (if 128 ≤ last.toNat then -1 else 1) *
        ((Bytes.toNatLE front + 256 ^ front.length * (last.toNat % 128) : ℕ) : ℤ)) ∧
    (∀ (bs : Bytes) (v : Int64), ScriptNumber.Minimal bs → ScriptNumber.decode bs = v.toInt →
      bs = ScriptNumber.encode v.toInt) ∧
    ∀ (tooLong : ℕ → String) (s : Script) (v : Int64), ∃ i : Instruction,
      s.pushNumber tooLong v = .ok ⟨s.bytes ++ i.encode⟩ ∧
      (∀ accepts stack, i.step accepts stack = some (ScriptNumber.encode v.toInt :: stack)) ∧
      (i.encode.length = 1 ↔ -1 ≤ v.toInt ∧ v.toInt ≤ 16) ∧
      ∀ is, Script.instructions? s.bytes = some is →
        Script.instructions? (s.bytes ++ i.encode) = some (is ++ [i]) := by
  refine ⟨fun v => ?_, ⟨rfl, ScriptNumber.decode_concat⟩, fun bs v hminimal hv => ?_,
    fun tooLong s v => ?_⟩
  · exact ⟨ScriptNumber.length_encode_le v,
      ScriptNumber.isMinimal_iff.mp (ScriptNumber.isMinimal_encode _),
      ScriptNumber.decode_encode _⟩
  · rw [← hv, ScriptNumber.encode_decode (ScriptNumber.isMinimal_iff.mpr hminimal)]
  · refine ⟨.number v.toInt, ?_, fun _ _ => Instruction.step_number _,
      Instruction.length_encode_number_eq_one_iff v, fun is his => ?_⟩
    · rw [Script.pushNumber_eq, ← Script.bytes_ofInstructions_singleton]
      rfl
    · rw [Script.instructions?_append his, Script.instructions?_number]
      rfl

/-- The smallest 64-bit integer, of which the magnitude has 64 bits: nine
bytes, the last for the sign. Behind a script of one push of two bytes it is
one push more. -/
theorem numbers_agree_smallest :
    ScriptNumber.Minimal [0, 0, 0, 0, 0, 0, 0, 0x80, 0x80] ∧
      ScriptNumber.decode [0, 0, 0, 0, 0, 0, 0, 0x80, 0x80] = Int64.minValue.toInt ∧
      ScriptNumber.encode Int64.minValue.toInt = [0, 0, 0, 0, 0, 0, 0, 0x80, 0x80] ∧
      ∃ i : Instruction,
        (⟨[2, 0xaa, 0xbb]⟩ : Script).pushNumber (fun n => toString n) Int64.minValue =
          .ok ⟨[2, 0xaa, 0xbb] ++ i.encode⟩ ∧
        i.encode.length ≠ 1 ∧
        Script.instructions? ([2, 0xaa, 0xbb] ++ i.encode) = some [.push [0xaa, 0xbb], i] := by
  obtain ⟨-, -, hunique, hpush⟩ := numbers_agree
  have hminimal : ScriptNumber.Minimal [0, 0, 0, 0, 0, 0, 0, 0x80, 0x80] :=
    ScriptNumber.isMinimal_iff.mp rfl
  have hvalue : ScriptNumber.decode [0, 0, 0, 0, 0, 0, 0, 0x80, 0x80] = Int64.minValue.toInt := by
    decide
  have hread : Script.instructions? [2, 0xaa, 0xbb] = some [.push [0xaa, 0xbb]] := by
    show Script.instructions? (Script.ofInstructions [.push [0xaa, 0xbb]]).bytes = _
    refine Script.instructions?_ofInstructions fun i hi => ?_
    rw [List.mem_singleton.mp hi]
    show 2 < 2 ^ 32
    omega
  obtain ⟨i, hok, -, hlen, happend⟩ :=
    hpush (fun n => toString n) ⟨[2, 0xaa, 0xbb]⟩ Int64.minValue
  refine ⟨hminimal, hvalue, (hunique _ _ hminimal hvalue).symm, i, hok, ?_, happend _ hread⟩
  intro hone
  exact absurd (hlen.mp hone).1 (by decide)

end VaultCovenant
