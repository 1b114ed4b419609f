import VaultCovenant.Batch
import VaultCovenant.Proofs.Script.Instruction

/-!
# What the leaves say

Every leaf of a vault or a trigger output ends with an opcode of its own, and
what it commits to can be read off its bytes.

Results:
* `Policy.recoverScriptFor_inj`: a recover leaf tells its authorization and
  its commitment.
* `Policy.triggerScript_inj`: a trigger leaf tells its key and its delay.
* `Batch.withdrawScriptFor_inj`: a withdraw leaf tells its delay and its
  template hash.
* `Policy.length_recoverScript`, `Policy.length_triggerScript_le`,
  `Batch.length_withdrawScriptFor_le`: how long the leaves are.
* `Batch.withdrawScriptUnder_eq`: the withdraw leaf of any batch, whatever its
  faults, instruction by instruction.
-/

namespace VaultCovenant

/-! ## Leaves of a vault -/

namespace Policy

variable {p q : Policy} {c d : Digest}

theorem bytes_recoverScriptFor (p : Policy) (c : Digest) :
    (p.recoverScriptFor c).bytes =
      p.authorization.script.bytes ++ (0x20 :: c.bytes ++ [Opcode.vaultRecover]) := by
  show p.authorization.script.bytes ++ (Instruction.encode (.push c.bytes) ++ ([_] ++ [])) = _
  rw [Instruction.encode_push_digest]
  rfl

theorem length_recoverScript (p : Policy) :
    p.recoverScript.bytes.length = p.authorization.script.bytes.length + 34 := by
  simp [recoverScript, bytes_recoverScriptFor, Bytes32.length_eq]

theorem recoverScriptFor_inj (h : p.recoverScriptFor c = q.recoverScriptFor d) :
    p.authorization.script = q.authorization.script ∧ c = d := by
  have hbytes := congrArg Script.bytes h
  rw [bytes_recoverScriptFor, bytes_recoverScriptFor] at hbytes
  -- the commitment and what stands around it have a fixed length
  obtain ⟨hauth, hcommitment⟩ := List.append_inj' hbytes (by simp [Bytes32.length_eq])
  obtain ⟨hcommitment, -⟩ := List.append_inj' hcommitment rfl
  refine ⟨?_, Bytes32.ext_bytes (List.cons.inj hcommitment).2⟩
  exact congrArg Script.mk hauth

theorem getLast?_recoverScript (p : Policy) :
    p.recoverScript.bytes.getLast? = some Opcode.vaultRecover := by
  rw [recoverScript, bytes_recoverScriptFor, ← List.append_assoc]
  exact List.getLast?_concat

theorem short_triggerScript (p : Policy) :
    ∀ i ∈ [Instruction.push p.triggerKey.bytes, .op Opcode.checkSigVerify,
      .number p.spendDelay.toInt, .op Opcode.vault], i.Short := by
  have hcheck : 0x4e < Opcode.checkSigVerify.toNat := by decide
  have hvault : 0x4e < Opcode.vault.toNat := by decide
  simp only [List.forall_mem_cons]
  exact ⟨Instruction.short_push_digest _, hcheck, Instruction.short_number _, hvault, by simp⟩

theorem length_triggerScript_le (p : Policy) : p.triggerScript.bytes.length ≤ 45 := by
  have hkey : (Instruction.push p.triggerKey.bytes).encode.length = 33 := by
    simp [XOnlyKey.bytes, Bytes32.length_eq]
  have hdelay := Instruction.length_encode_number_le p.spendDelay
  simp only [triggerScript, Script.ofInstructions, List.flatMap_cons, List.flatMap_nil,
    List.length_append, hkey]
  show 33 + (1 + (_ + (1 + 0))) ≤ 45
  omega

theorem triggerScript_inj (h : p.triggerScript = q.triggerScript) :
    p.triggerKey = q.triggerKey ∧ p.spendDelay = q.spendDelay := by
  have his := Script.ofInstructions_inj p.short_triggerScript q.short_triggerScript h
  simp only [List.cons.injEq, Instruction.push.injEq, and_true, true_and] at his
  obtain ⟨hkey, hdelay⟩ := his
  refine ⟨?_, Int64.toInt_inj.mp (Instruction.number_inj hdelay)⟩
  exact congrArg XOnlyKey.mk (Bytes32.ext_bytes hkey)

theorem getLast?_triggerScript (p : Policy) :
    p.triggerScript.bytes.getLast? = some Opcode.vault :=
  Script.getLast?_ofInstructions [_, _, _] _

end Policy

/-! ## The withdraw leaf -/

namespace Batch

variable {delay delay' : Int64} {c d : Digest}

/-- The instructions of a withdraw leaf that ends with a given opcode. -/
def withdrawInstructions (delay : Int64) (template : Digest) (last : Opcode) : List Instruction :=
  [.number delay.toInt, .op Opcode.checkSequenceVerify, .op Opcode.drop, .push template.bytes,
    .op last]

/-- The last opcode of a withdraw leaf, which one of the faults changes. -/
def withdrawOpcode (faults : FaultSet) : Opcode :=
  if faults.contains .triggerWithdrawLeafWrongOpcode then Opcode.vault
  else Opcode.checkTemplateVerify

theorem withdrawScriptUnder_eq (faults : FaultSet) (delay : Int64) (template : Digest) :
    withdrawScriptUnder faults delay template =
      Script.ofInstructions (withdrawInstructions delay template (withdrawOpcode faults)) := by
  unfold withdrawScriptUnder withdrawOpcode
  split
  · exact Script.replaceLast_ofInstructions [_, _, _, _] _ _
  · rfl

theorem bytes_withdrawInstructions (delay : Int64) (template : Digest) (last : Opcode) :
    (Script.ofInstructions (withdrawInstructions delay template last)).bytes =
      (Script.ofInstructions [.number delay.toInt, .op Opcode.checkSequenceVerify,
        .op Opcode.drop]).bytes ++ 0x20 :: template.bytes ++ [last] := by
  have hpush : Script.ofInstructions [.push template.bytes, .op last] =
      ⟨0x20 :: template.bytes ++ [last]⟩ := by
    show (⟨Instruction.encode (.push template.bytes) ++ ([last] ++ [])⟩ : Script) = _
    rw [Instruction.encode_push_digest]
    rfl
  have happend := Script.ofInstructions_append
    [.number delay.toInt, .op Opcode.checkSequenceVerify, .op Opcode.drop]
    [.push template.bytes, .op last]
  rw [hpush] at happend
  have hbytes := congrArg Script.bytes happend
  rw [Script.bytes_append] at hbytes
  rw [List.append_assoc]
  exact hbytes

theorem short_withdrawInstructions (delay : Int64) (template : Digest) {last : Opcode}
    (hlast : 0x4e < last.toNat) : ∀ i ∈ withdrawInstructions delay template last, i.Short := by
  have hsequence : 0x4e < Opcode.checkSequenceVerify.toNat := by decide
  have hdrop : 0x4e < Opcode.drop.toNat := by decide
  simp only [withdrawInstructions, List.forall_mem_cons]
  exact ⟨Instruction.short_number _, hsequence, hdrop, Instruction.short_push_digest _, hlast,
    by simp⟩

theorem short_withdrawOpcode (faults : FaultSet) : 0x4e < (withdrawOpcode faults).toNat := by
  unfold withdrawOpcode
  split <;> decide

theorem length_withdrawScriptFor_le (delay : Int64) (template : Digest) :
    (withdrawScriptFor delay template).bytes.length ≤ 46 := by
  have hdelay := Instruction.length_encode_number_le delay
  have htemplate : (Instruction.push template.bytes).encode.length = 33 := by
    simp [Bytes32.length_eq]
  simp only [withdrawScriptFor, Script.ofInstructions, List.flatMap_cons, List.flatMap_nil,
    List.length_append, htemplate]
  show _ + (1 + (1 + (33 + (1 + 0)))) ≤ 46
  omega

theorem withdrawScriptFor_inj (h : withdrawScriptFor delay c = withdrawScriptFor delay' d) :
    delay = delay' ∧ c = d := by
  have hlast : 0x4e < Opcode.checkTemplateVerify.toNat := by decide
  have his := Script.ofInstructions_inj (short_withdrawInstructions delay c hlast)
    (short_withdrawInstructions delay' d hlast) h
  simp only [withdrawInstructions, List.cons.injEq, Instruction.push.injEq, and_true, true_and]
    at his
  obtain ⟨hdelay, hhash⟩ := his
  exact ⟨Int64.toInt_inj.mp (Instruction.number_inj hdelay), Bytes32.ext_bytes hhash⟩

theorem getLast?_withdrawScriptFor (delay : Int64) (template : Digest) :
    (withdrawScriptFor delay template).bytes.getLast? = some Opcode.checkTemplateVerify :=
  Script.getLast?_ofInstructions [_, _, _, _] _

end Batch

end VaultCovenant
