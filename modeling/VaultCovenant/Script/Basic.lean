import VaultCovenant.Failure
import VaultCovenant.Script.Number

/-!
# Scripts

A script is a byte string; the scripts of this library are assembled from instructions, each of
which pushes a byte string or is an operation of one byte.

Results:
* `ofInstructions_append`: assembling a concatenation concatenates the assembled bytes.
-/

namespace VaultCovenant

/-! ## Opcodes -/

/-- The byte of an operation. -/
abbrev Opcode := UInt8

namespace Opcode

/-- Pushes minus one. -/
def negativeOne : Opcode := 0x4f
/-- Pushes one; the fifteen opcodes that follow push 2 to 16. -/
def one : Opcode := 0x51
/-- Pushes three. -/
def three : Opcode := 0x53
/-- Drops the top element. -/
def drop : Opcode := 0x75
/-- Copies the element at a given depth. -/
def pick : Opcode := 0x79
/-- Fails unless the two top elements are equal. -/
def equalVerify : Opcode := 0x88
/-- Replaces the top element by its SHA-256 digest. -/
def hashSha256 : Opcode := 0xa8
/-- Fails unless the element below the top key is its signature. -/
def checkSigVerify : Opcode := 0xad
/-- Fails before the relative timelock on the stack has passed. -/
def checkSequenceVerify : Opcode := 0xb2
/-- Fails unless the transaction has the template hash on the stack. -/
def checkTemplateVerify : Opcode := 0xb3
/-- Checks a trigger spend against the trigger leaf of a vault. -/
def vault : Opcode := 0xbb
/-- Checks a sweep to the committed recovery output. -/
def vaultRecover : Opcode := 0xbc

end Opcode

/-! ## Instructions -/

/-- One step of a script. -/
inductive Instruction where
  /-- Pushes a byte string. -/
  | push (data : Bytes)
  /-- An operation of one byte. -/
  | op (code : Opcode)
  deriving DecidableEq

namespace Instruction

/-- What stands in front of pushed data of a given length: the length itself up to 75, else one of
three opcodes and the length over one, two or four bytes. -/
def pushHeader (length : Nat) : Bytes :=
  if length < 0x4c then [UInt8.ofNat length]
  else if length < 0x100 then 0x4c :: Bytes.littleEndian 1 length
  else if length < 0x10000 then 0x4d :: Bytes.littleEndian 2 length
  else 0x4e :: Bytes.littleEndian 4 length

/-- The bytes of an instruction. -/
def encode : Instruction → Bytes
  | push data => pushHeader data.length ++ data
  | op code => [code]

/-- The push of an integer as a script number, by its one-byte opcode where it has one. -/
def number (v : Int) : Instruction :=
  if v = -1 then op Opcode.negativeOne
  else if 1 ≤ v ∧ v ≤ 16 then op (UInt8.ofNat (0x50 + v.toNat))
  else push (ScriptNumber.encode v)

end Instruction

/-! ## Scripts -/

/-- A script, by its bytes. -/
structure Script where
  bytes : Bytes
  deriving DecidableEq

namespace Script

instance : Inhabited Script := ⟨⟨[]⟩⟩

/-- The script without instructions. -/
def empty : Script := ⟨[]⟩

/-- One script after the other. -/
def append (a b : Script) : Script := ⟨a.bytes ++ b.bytes⟩

instance : Append Script := ⟨append⟩

/-- The script with the given instructions. -/
def ofInstructions (instructions : List Instruction) : Script :=
  ⟨instructions.flatMap Instruction.encode⟩

/-- Whether a script has no bytes. -/
def isEmpty (s : Script) : Bool := s.bytes.isEmpty

/-- The hexadecimal text of a script. -/
def toHex (s : Script) : String := s.bytes.toHex

/-- The script with its last byte replaced; an empty script becomes that one byte. -/
def replaceLast (s : Script) (code : Opcode) : Script := ⟨s.bytes.dropLast ++ [code]⟩

@[simp] theorem bytes_append (a b : Script) : (a ++ b).bytes = a.bytes ++ b.bytes := rfl

theorem ofInstructions_append (a b : List Instruction) :
    ofInstructions (a ++ b) = ofInstructions a ++ ofInstructions b :=
  congrArg Script.mk List.flatMap_append

/-! ## Pushing integers -/

/-- A script with the push of an integer behind it: by the opcode of a small one, and by the bytes
of any other. Bytes that are too many for one push are refused, in given words for their length. -/
def pushNumber (tooLong : Nat → String) (s : Script) (v : Int64) : Except VaultError Script :=
  if -1 ≤ v.toInt ∧ v.toInt ≤ 16 then .ok (s ++ ofInstructions [.number v.toInt])
  else
    let bytes := ScriptNumber.encode v.toInt
    if bytes.length < 0x100000000 then .ok (s ++ ofInstructions [.push bytes])
    else .error (.transaction
      ("script number " ++ toString v.toInt ++ ": " ++ tooLong bytes.length))

/-! ## Standard output scripts -/

/-- The script anyone can satisfy. -/
def anyone : Script := ofInstructions [.op Opcode.one]

/-- The keyless anchor output, which anyone may spend to pay for the transaction. -/
def anchor : Script := ofInstructions [.op Opcode.one, .push [0x4e, 0x73]]

/-- The version-one output of a taproot key. -/
def taproot (key : Bytes) : Script := ofInstructions [.op Opcode.one, .push key]

/-- The version-zero output of a script given by its digest. -/
def witnessScriptHash (digest : Bytes) : Script := ofInstructions [.push [], .push digest]

end Script

end VaultCovenant
