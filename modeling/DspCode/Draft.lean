import DspCode.ByteWindow
import DspCode.Mnemonic.Renaming
import DspCode.Signed

/-!
# Drafts

An instruction while the fields of its encoding contribute to it, and what those fields may ask of
their surroundings.
-/

namespace DspCode

/-- Why a field cannot contribute. -/
inductive FieldError where
  /-- All operand slots are taken. -/
  | tooManyOperands
  /-- No row answers a renaming. -/
  | renaming (error : RenamingError)
  /-- A byte after the code word is not mapped. -/
  | unmapped (address : Address)
  /-- A byte after the code word lies past the end of the window. -/
  | exhausted
  deriving DecidableEq, Repr

/-- The wording of a field error. -/
def FieldError.message : FieldError → String
  | .tooManyOperands => "more than 6 operands"
  | .renaming error => error.message
  | .unmapped a => "trailing byte at " ++ addressText a ++ " is unmapped"
  | .exhausted => "byte cache exhausted"

/-- The error of a field that reads a byte which cannot be had. -/
def FieldError.ofWindow : WindowError → FieldError
  | .unmapped a => .unmapped a
  | .exhausted => .exhausted

/-- What the fields of an instruction may consult. -/
structure Surroundings where
  /-- The bytes from the instruction's address on. -/
  bytes : Nat → Except WindowError UInt8
  /-- The mnemonic table. -/
  mnemonics : Array Mnemonic
  /-- What a register holds at an address, if it is known. -/
  context : Address → RegisterId → Option UInt32
  /-- The address code distances count from, for an instruction at an address with a length. -/
  nextAddress : Address → Nat → Address
  /-- The bits of a code address. -/
  codeMask : UInt32

/-- An instruction under construction. -/
structure Draft where
  /-- The instruction so far. -/
  insn : Instruction
  /-- The slot that an optional operand is compared with. -/
  compared : Option Nat := none
  deriving DecidableEq, Repr

namespace Draft

/-- Puts an operand into the first free slot. -/
def push (d : Draft) (op : Operand) : Except FieldError Draft :=
  let slot := d.insn.operandCount
  if slot < 6 then .ok { d with insn := d.insn.setOperand slot op } else .error .tooManyOperands

/-- Puts an operand into a given slot, whatever is before it. -/
def put (d : Draft) (slot : Nat) (op : Operand) : Except FieldError Draft :=
  if slot < 6 then .ok { d with insn := d.insn.setOperand slot op } else .error .tooManyOperands

/-- Changes the last operand, if there is one. -/
def modifyLast (d : Draft) (f : Operand → Operand) : Draft :=
  match d.insn.operandCount with
  | 0 => d
  | slot + 1 => { d with insn := d.insn.setOperand slot (f (d.insn.operand slot)) }

/-- Chooses the slot that an optional operand is compared with. -/
def compareWith (d : Draft) (slot : Nat) : Draft := { d with compared := some slot }

/-- Puts an operand into the first free slot and compares optional operands with it. -/
def pushCompared (d : Draft) (op : Operand) : Except FieldError Draft :=
  (d.push op).map (·.compareWith d.insn.operandCount)

/-- Whether an operand is the register that optional operands are compared with. -/
def repeats (d : Draft) (op : Operand) : Bool :=
  match d.compared, op.register? with
  | some slot, some id => (d.insn.operand slot).register? == some id
  | _, _ => false

/-- Puts an optional register into the first free slot unless it repeats the compared one. An
instruction that keeps it is of the next kind. -/
def pushOptional (d : Draft) (op : Operand) : Except FieldError Draft :=
  if d.repeats op then .ok d
  else do
    let d ← d.push op
    return { insn := { d.insn with kind := d.insn.kind + 1 }, compared := none }

/-- Sets the kind. -/
def withKind (d : Draft) (kind : Kind) : Draft := { d with insn := { d.insn with kind } }

/-- Renames the instruction. -/
def rename (d : Draft) (mnemonics : Array Mnemonic) (r : Renaming) : Except FieldError Draft :=
  match r.apply mnemonics d.insn.kind with
  | .ok kind => .ok (d.withKind kind)
  | .error e => .error (.renaming e)

/-- Starts the second line after the operands so far. -/
def split (d : Draft) : Draft := { d with insn := d.insn.withSplit d.insn.operandCount }

/-- Reads `count` more bytes after those read so far, appending them to the number `value`. -/
def readMore (d : Draft) (s : Surroundings) (value : Nat) : Nat → Except FieldError (Nat × Draft)
  | 0 => .ok (value, d)
  | count + 1 =>
    match s.bytes d.insn.length with
    | .error e => .error (.ofWindow e)
    | .ok b =>
      readMore { d with insn := { d.insn with length := d.insn.length + 1 } } s
        (value * 256 + b.toNat) count

/-- Reads the number in the `count` bytes after those read so far. -/
def trailing (d : Draft) (s : Surroundings) (count : Nat) : Except FieldError (Nat × Draft) :=
  d.readMore s 0 count

/-- What a register holds at the instruction, if it is known. -/
def contextOf (d : Draft) (s : Surroundings) (r : Register) : Option UInt32 :=
  s.context d.insn.address r.id

/-- The code target at a distance from the next instruction. The distance is kept to 32 bits. -/
def relativeTarget (d : Draft) (s : Surroundings) (distance : Int) : Operand :=
  let next := s.nextAddress d.insn.address d.insn.length
  let address := (next + UInt32.ofInt distance) &&& s.codeMask
  .of (.target address (some (signedValue 32 distance))) .code

end Draft

end DspCode
