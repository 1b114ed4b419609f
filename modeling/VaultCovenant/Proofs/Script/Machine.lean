import VaultCovenant.Proofs.Script.Reading
import VaultCovenant.Proofs.Transaction.Witnesses

/-!
# Running a leaf

What the instructions of a leaf do to the stack, up to the opcode that looks
at the whole transaction. A witness shows the leaf with its control block on
top, and the items below them are the stack that the leaf starts with. The
head of a list of items is the top of the stack; a witness has its bottom
first.

Results:
* `Instruction.step_number`: the push of an integer pushes its encoding.
* `Script.runTo_append`: what stands in front of the opcode runs first.
* `Transaction.stackAt?_eq`: the stack at an opcode, by the instructions of
  the leaf.
-/

namespace VaultCovenant

/-! ## Instructions -/

/-- Whether an operation pushes a small integer. -/
def Opcode.pushesNumber (code : Opcode) : Bool :=
  code = negativeOne || decide (0x51 ≤ code.toNat ∧ code.toNat ≤ 0x60)

/-- What an instruction leaves of a stack, if it does not fail. Whether a key
accepts a signature is told from outside. Operations that no leaf uses in
front of its last opcode fail. -/
def Instruction.step (accepts : Bytes → Bytes → Bool) : Instruction → List Bytes →
    Option (List Bytes)
  | push data, stack => some (data :: stack)
  | op code, stack =>
    if code.pushesNumber then some (ScriptNumber.encode (op code).pushedNumber :: stack)
    else if code = Opcode.hashSha256 then
      match stack with
      | top :: rest => some ((sha256 top).bytes :: rest)
      | [] => none
    else if code = Opcode.equalVerify then
      match stack with
      | a :: b :: rest => if a = b then some rest else none
      | _ => none
    else if code = Opcode.drop then
      match stack with
      | _ :: rest => some rest
      | [] => none
    else if code = Opcode.checkSigVerify then
      match stack with
      | key :: signature :: rest => if accepts key signature then some rest else none
      | _ => none
    else if code = Opcode.checkSequenceVerify then some stack
    else none

namespace Instruction

variable {accepts : Bytes → Bytes → Bool} {stack : List Bytes}

theorem step_number (v : Int) :
    (number v).step accepts stack = some (ScriptNumber.encode v :: stack) := by
  have hpushed := pushedNumber_number v
  unfold number at hpushed ⊢
  split
  · rename_i hv
    rw [hv]
    rfl
  split
  · rename_i hne hrange
    rw [if_neg hne, if_pos hrange] at hpushed
    have hcode : (UInt8.ofNat (0x50 + v.toNat)).toNat = 0x50 + v.toNat := by
      rw [UInt8.toNat_ofNat']
      omega
    have hpushes : Opcode.pushesNumber (UInt8.ofNat (0x50 + v.toNat)) = true := by
      unfold Opcode.pushesNumber
      rw [Bool.or_eq_true, decide_eq_true_eq, decide_eq_true_eq, hcode]
      exact Or.inr (by omega)
    refine (if_pos hpushes).trans ?_
    rw [hpushed]
  · rfl

/-- The push of an integer is none of the operations behind the small
integers. -/
theorem number_ne_op (v : Int) {code : Opcode} (h : 0x60 < code.toNat) : number v ≠ op code := by
  unfold number
  split
  · intro heq
    rw [← op.inj heq] at h
    exact absurd h (by decide)
  split
  · intro heq
    rw [← op.inj heq, UInt8.toNat_ofNat'] at h
    omega
  · exact nofun

theorem step_checkSigVerify {key signature : Bytes} (h : accepts key signature = true) :
    (op Opcode.checkSigVerify).step accepts (key :: signature :: stack) = some stack := by
  show (if accepts key signature then some stack else none) = some stack
  rw [if_pos h]

theorem step_hashSha256 (item : Bytes) :
    (op Opcode.hashSha256).step accepts (item :: stack) = some ((sha256 item).bytes :: stack) := rfl

theorem step_drop (item : Bytes) : (op Opcode.drop).step accepts (item :: stack) = some stack := rfl

theorem step_checkSequenceVerify :
    (op Opcode.checkSequenceVerify).step accepts stack = some stack := rfl

theorem step_equalVerify (item : Bytes) :
    (op Opcode.equalVerify).step accepts (item :: item :: stack) = some stack := by
  show (if item = item then some stack else none) = some stack
  rw [if_pos rfl]

end Instruction

/-! ## Scripts -/

namespace Script

/-- What instructions one after the other leave of a stack. -/
def run (accepts : Bytes → Bytes → Bool) : List Instruction → List Bytes → Option (List Bytes)
  | [], stack => some stack
  | i :: is, stack => (i.step accepts stack).bind (run accepts is)

/-- The stack when a script first comes to an opcode. -/
def runTo (accepts : Bytes → Bytes → Bool) (code : Opcode) :
    List Instruction → List Bytes → Option (List Bytes)
  | [], _ => none
  | i :: is, stack =>
    if i = .op code then some stack else (i.step accepts stack).bind (runTo accepts code is)

variable {accepts : Bytes → Bytes → Bool} {code : Opcode} {i : Instruction}
  {is js : List Instruction} {stack next : List Bytes}

theorem run_cons (h : i.step accepts stack = some next) :
    run accepts (i :: is) stack = run accepts is next := by
  rw [run, h]
  rfl

theorem run_push (data : Bytes) :
    run accepts (.push data :: is) stack = run accepts is (data :: stack) := run_cons rfl

theorem runTo_here : runTo accepts code (.op code :: is) stack = some stack := if_pos rfl

theorem runTo_cons (hne : i ≠ .op code) (h : i.step accepts stack = some next) :
    runTo accepts code (i :: is) stack = runTo accepts code is next := by
  rw [runTo, if_neg hne, h]
  rfl

theorem runTo_push (data : Bytes) :
    runTo accepts code (.push data :: is) stack = runTo accepts code is (data :: stack) :=
  runTo_cons nofun rfl

/-- What stands in front of the opcode runs first. -/
theorem runTo_append (hne : ∀ i ∈ is, i ≠ .op code) (h : run accepts is stack = some next) :
    runTo accepts code (is ++ js) stack = runTo accepts code js next := by
  induction is generalizing stack with
  | nil =>
    cases h
    rfl
  | cons i is ih =>
    rw [List.forall_mem_cons] at hne
    obtain ⟨mid, hstep, hrest⟩ := Option.bind_eq_some_iff.mp h
    rw [List.cons_append, runTo_cons hne.1 hstep, ih hne.2 hrest]

end Script

/-! ## Witnesses -/

/-- A check of signatures: whether a key, by its bytes, accepts some bytes as
a signature for an input that spends an output of a list through a leaf. What
the holder of a key signs is accepted for that key. -/
structure SignatureCheck where
  accepts : Transaction → ℕ → List TxOut → Digest → Bytes → Bytes → Bool
  accepts_signed : ∀ {tx : Transaction} {index : ℕ} {spent : List TxOut} {leaf : Digest}
    {secret : SecretKey} {signature : Bytes},
    signScriptPath tx index spent leaf secret = .ok signature →
      accepts tx index spent leaf secret.xOnly.bytes signature = true

/-- The check that accepts nothing but what the holder of the key signs. -/
noncomputable def SignatureCheck.strict : SignatureCheck := by
  classical
  exact {
    accepts := fun tx index spent leaf key signature =>
      decide (∃ secret : SecretKey, secret.xOnly.bytes = key ∧
        signScriptPath tx index spent leaf secret = .ok signature)
    accepts_signed := fun h => decide_eq_true ⟨_, rfl, h⟩ }

namespace Transaction

/-- The stack, bottom first, when the leaf in the witness of an input first
comes to an opcode, given the outputs that the inputs spend. -/
def stackAt? (check : SignatureCheck) (tx : Transaction) (spent : List TxOut) (index : ℕ)
    (code : Opcode) : Option (List Bytes) := do
  let input ← tx.inputs[index]?
  match input.witness.reverse with
  | _control :: leaf :: items =>
    let is ← Script.instructions? leaf
    let stack ← Script.runTo (check.accepts tx index spent (leafHash ⟨leaf⟩)) code is items
    return stack.reverse
  | _ => none

theorem stackAt?_eq {check : SignatureCheck} {tx : Transaction} {spent : List TxOut} {index : ℕ}
    {code : Opcode} {input : TxIn} {items stack : List Bytes} {control : Bytes}
    {is : List Instruction} (hinput : tx.inputs[index]? = some input)
    (hwitness : input.witness = items ++ [(Script.ofInstructions is).bytes, control])
    (hsized : ∀ i ∈ is, i.Sized)
    (hrun : Script.runTo (check.accepts tx index spent (leafHash (Script.ofInstructions is))) code
      is items.reverse = some stack) :
    tx.stackAt? check spent index code = some stack.reverse := by
  unfold stackAt?
  rw [hinput, Option.bind_eq_bind, Option.bind_some, hwitness, List.reverse_append]
  show (Script.instructions? (Script.ofInstructions is).bytes).bind _ = _
  rw [Script.instructions?_ofInstructions hsized, Option.bind_some]
  show (Script.runTo _ code is items.reverse).bind _ = _
  rw [hrun]
  rfl

end Transaction

end VaultCovenant
