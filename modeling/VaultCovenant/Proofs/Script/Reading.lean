import VaultCovenant.Proofs.Script.Instruction
import VaultCovenant.Proofs.Transaction.Reading

/-!
# Reading a script

A script is read instruction by instruction, as an interpreter does. Reading
the bytes of some instructions gives the instructions back.

Results:
* `Transaction.Reader.instruction_append`: an instruction is read back,
  whatever follows it.
* `Script.instructions?_ofInstructions`: so is a script.
* `Transaction.Reader.Local.instruction`, `Script.instructions?_append`: what
  was read is read again when more bytes follow.
-/

namespace VaultCovenant

/-- The length of what is pushed fits into the four bytes that may stand in
front of it, and an operation is none of the codes that stand for pushes. -/
def Instruction.Sized : Instruction → Prop
  | push data => data.length < 2 ^ 32
  | op code => 0x4e < code.toNat

theorem Instruction.Short.sized {i : Instruction} (h : i.Short) : i.Sized := by
  cases i with
  | push data =>
    have hlen : data.length < 0x4c := h
    show data.length < 2 ^ 32
    omega
  | op code => exact h

/-! ## One instruction -/

namespace Transaction.Reader

/-- The first instruction of a script. -/
def instruction : Reader Instruction := do
  let head ← number 1
  if head < 0x4c then return .push (← take head)
  else if head = 0x4c then return .push (← take (← number 1))
  else if head = 0x4d then return .push (← take (← number 2))
  else if head = 0x4e then return .push (← take (← number 4))
  else return .op (UInt8.ofNat head)

variable {i : Instruction} {data bs rest : Bytes}

theorem pushed_append (data rest : Bytes) :
    (do return .push (← take data.length) : Reader Instruction) (data ++ rest) =
      some (.push data, rest) :=
  bind_eq_some (take_append data rest) rfl

theorem sizedPush_append {width : ℕ} (h : data.length < 256 ^ width) :
    (do return .push (← take (← number width)) : Reader Instruction)
      (Bytes.littleEndian width data.length ++ (data ++ rest)) = some (.push data, rest) :=
  bind_eq_some (number_append h) (bind_eq_some (take_append data rest) rfl)

/-- An instruction is read back, whatever follows it. -/
theorem instruction_append (h : i.Sized) : instruction (i.encode ++ rest) = some (i, rest) := by
  cases i with
  | push data =>
    have hlen : data.length < 2 ^ 32 := h
    show instruction (Instruction.pushHeader data.length ++ data ++ rest) = _
    rw [List.append_assoc]
    unfold Instruction.pushHeader instruction
    split_ifs with h1 h2 h3
    · refine bind_eq_some (number_head data.length (by omega)) ?_
      rw [if_pos h1]
      exact pushed_append data rest
    · refine bind_eq_some (number_head 0x4c (by omega)) ?_
      exact sizedPush_append (by omega)
    · refine bind_eq_some (number_head 0x4d (by omega)) ?_
      exact sizedPush_append (by omega)
    · refine bind_eq_some (number_head 0x4e (by omega)) ?_
      exact sizedPush_append (by omega)
  | op code =>
    have hcode : 0x4e < code.toNat := h
    have hhead : number 1 (code :: rest) = some (code.toNat, rest) := by
      rw [← number_head code.toNat code.toNat_lt, UInt8.ofNat_toNat]
    unfold instruction
    refine bind_eq_some hhead ?_
    rw [if_neg (by omega), if_neg (by omega), if_neg (by omega), if_neg (by omega),
      UInt8.ofNat_toNat]
    rfl

/-! ## Further bytes -/

/-- A reader that reads the same, and leaves the more, when more bytes follow
those that it has read from. -/
def Local {α : Type} (reader : Reader α) : Prop :=
  ∀ bs a rest more, reader bs = some (a, rest) → reader (bs ++ more) = some (a, rest ++ more)

namespace Local

theorem pure {α : Type} (a : α) : Local (Pure.pure a : Reader α) := by
  intro bs b rest more h
  cases h
  rfl

theorem bind {α β : Type} {first : Reader α} {next : α → Reader β} (hfirst : Local first)
    (hnext : ∀ a, Local (next a)) : Local (first >>= next) := by
  intro bs b rest more h
  obtain ⟨⟨a, mid⟩, ha, hb⟩ := Option.bind_eq_some_iff.mp h
  exact bind_eq_some (hfirst _ _ _ more ha) (hnext a _ _ _ more hb)

theorem take (count : ℕ) : Local (take count) := by
  intro bs data rest more h
  unfold Reader.take at h ⊢
  obtain ⟨hle, h⟩ := Option.ite_none_right_eq_some.mp h
  cases h
  have hle' : count ≤ (bs ++ more).length := by
    rw [List.length_append]
    omega
  rw [if_pos hle', List.take_append_of_le_length hle, List.drop_append_of_le_length hle]

theorem number (width : ℕ) : Local (number width) := bind (take width) fun _ => pure _

theorem pushed (count : ℕ) : Local (do return Instruction.push (← Reader.take count)) :=
  bind (take count) fun _ => pure _

theorem sizedPush (width : ℕ) :
    Local (do return Instruction.push (← Reader.take (← Reader.number width))) :=
  bind (number width) fun _ => pushed _

theorem instruction : Local instruction := by
  refine bind (number 1) fun head => ?_
  split_ifs
  · exact pushed head
  · exact sizedPush 1
  · exact sizedPush 2
  · exact sizedPush 4
  · exact pure _

end Local

/-! ## What reading leaves -/

theorem bind_eq_some_iff {α β : Type} {first : Reader α} {next : α → Reader β} {b : β} :
    (first >>= next) bs = some (b, rest) ↔
      ∃ a mid, first bs = some (a, mid) ∧ next a mid = some (b, rest) := by
  show (first bs).bind _ = _ ↔ _
  rw [Option.bind_eq_some_iff]
  exact ⟨fun ⟨⟨a, mid⟩, hfirst, hnext⟩ => ⟨a, mid, hfirst, hnext⟩,
    fun ⟨a, mid, hfirst, hnext⟩ => ⟨⟨a, mid⟩, hfirst, hnext⟩⟩

theorem length_take {count : ℕ} (h : take count bs = some (data, rest)) :
    rest.length + count = bs.length := by
  unfold take at h
  split at h
  · rename_i hle
    cases h
    rw [List.length_drop]
    omega
  · cases h

theorem length_number {width n : ℕ} (h : number width bs = some (n, rest)) :
    rest.length + width = bs.length := by
  obtain ⟨digits, mid, htake, hrest⟩ := bind_eq_some_iff.mp h
  cases hrest
  exact length_take htake

theorem length_pushed {count : ℕ}
    (h : (do return .push (← take count) : Reader Instruction) bs = some (i, rest)) :
    rest.length ≤ bs.length := by
  obtain ⟨data, mid, htake, hrest⟩ := bind_eq_some_iff.mp h
  cases hrest
  have := length_take htake
  omega

theorem length_sizedPush {width : ℕ}
    (h : (do return .push (← take (← number width)) : Reader Instruction) bs = some (i, rest)) :
    rest.length ≤ bs.length := by
  obtain ⟨n, mid, hnumber, hrest⟩ := bind_eq_some_iff.mp h
  have := length_number hnumber
  have := length_pushed hrest
  omega

/-- Every instruction takes at least one byte. -/
theorem length_instruction (h : instruction bs = some (i, rest)) : rest.length < bs.length := by
  obtain ⟨head, mid, hhead, hrest⟩ := bind_eq_some_iff.mp h
  have hmid := length_number hhead
  suffices hle : rest.length ≤ mid.length by omega
  split_ifs at hrest
  · exact length_pushed hrest
  · exact length_sizedPush hrest
  · exact length_sizedPush hrest
  · exact length_sizedPush hrest
  · cases hrest
    exact Nat.le_refl _

end Transaction.Reader

/-! ## All instructions -/

namespace Script

/-- The instructions of a script, if its bytes are those of instructions. -/
def instructions? (bytes : Bytes) : Option (List Instruction) :=
  if bytes = [] then some []
  else
    match _h : Transaction.Reader.instruction bytes with
    | none => none
    | some (i, rest) => (instructions? rest).map (i :: ·)
termination_by bytes.length
decreasing_by exact Transaction.Reader.length_instruction _h

theorem instructions?_nil : instructions? [] = some [] := by
  rw [instructions?, if_pos rfl]

theorem instructions?_cons {i : Instruction} {bytes rest : Bytes}
    (h : Transaction.Reader.instruction bytes = some (i, rest)) :
    instructions? bytes = (instructions? rest).map (i :: ·) := by
  have hlen := Transaction.Reader.length_instruction h
  have hne : bytes ≠ [] := by
    rintro rfl
    cases hlen
  rw [instructions?, if_neg hne]
  split
  · rename_i hnone
    rw [h] at hnone
    cases hnone
  · rename_i hsome
    rw [h] at hsome
    cases hsome
    rfl

theorem eq_cons_of_instructions? {bytes : Bytes} {is : List Instruction} (hne : bytes ≠ [])
    (h : instructions? bytes = some is) :
    ∃ i rest js, Transaction.Reader.instruction bytes = some (i, rest) ∧
      instructions? rest = some js ∧ is = i :: js := by
  cases hread : Transaction.Reader.instruction bytes with
  | none =>
    rw [instructions?, if_neg hne] at h
    split at h
    · cases h
    · rename_i hsome
      rw [hread] at hsome
      cases hsome
  | some read =>
    obtain ⟨i, rest⟩ := read
    rw [instructions?_cons hread] at h
    obtain ⟨js, hjs, rfl⟩ := Option.map_eq_some_iff.mp h
    exact ⟨i, rest, js, rfl, hjs, rfl⟩

/-- The instructions of a script stand in front of those of what follows. -/
theorem instructions?_append {bytes more : Bytes} {is : List Instruction}
    (h : instructions? bytes = some is) :
    instructions? (bytes ++ more) = (instructions? more).map (is ++ ·) := by
  by_cases hne : bytes = []
  · subst hne
    rw [instructions?_nil] at h
    cases h
    simp
  · obtain ⟨i, rest, js, hread, hjs, rfl⟩ := eq_cons_of_instructions? hne h
    have hlen := Transaction.Reader.length_instruction hread
    rw [instructions?_cons (Transaction.Reader.Local.instruction _ _ _ more hread),
      instructions?_append hjs, Option.map_map]
    rfl
termination_by bytes.length

/-- A script is read back. -/
theorem instructions?_ofInstructions {is : List Instruction} (h : ∀ i ∈ is, i.Sized) :
    instructions? (ofInstructions is).bytes = some is := by
  induction is with
  | nil => exact instructions?_nil
  | cons i is ih =>
    rw [List.forall_mem_cons] at h
    have hread : Transaction.Reader.instruction (ofInstructions (i :: is)).bytes =
        some (i, (ofInstructions is).bytes) :=
      Transaction.Reader.instruction_append h.1
    rw [instructions?_cons hread, ih h.2]
    rfl

end Script

end VaultCovenant
