import DspCode.AddressSpace
import DspCode.Register

/-!
# Operands

What an instruction operates on, with the operators written around it, the text after it and the
way the instruction uses it.
-/

namespace DspCode

/-- The size of the data an operand stands for. -/
inductive DataWidth where
  /-- Not fixed by the operand. -/
  | unspecified
  /-- Eight bits. -/
  | byte
  /-- Sixteen bits. -/
  | word
  /-- Thirty-two bits. -/
  | dword
  /-- A code address. -/
  | code
  deriving DecidableEq, Repr

/-- How an instruction uses an operand. -/
inductive Role where
  /-- Not known. -/
  | none
  /-- The operand is read. -/
  | read
  /-- The operand is written. -/
  | write
  /-- The operand is read and written. -/
  | readWrite
  /-- The operand is where execution may go. -/
  | target
  deriving DecidableEq, Repr

/-- Operators written around an operand, outermost first. -/
inductive Operator where
  | assignT3 | invert | unsigned | double | round | pair | low | high | lowByte | highByte
  | saturate | dual | port
  deriving DecidableEq, Repr

/-- Every operator in the order in which they are written. -/
def Operator.all : List Operator :=
  [.assignT3, .invert, .unsigned, .double, .round, .pair, .low, .high, .lowByte, .highByte,
    .saturate, .dual, .port]

/-- A set of operators. -/
structure OperatorSet where
  /-- One bit for each operator, in writing order from the lowest bit. -/
  bits : BitVec 13
  deriving DecidableEq, Repr

namespace OperatorSet

/-- The set without operators. -/
def empty : OperatorSet := ⟨0⟩

/-- Adds an operator. -/
def insert (o : Operator) (s : OperatorSet) : OperatorSet :=
  ⟨s.bits ||| BitVec.twoPow 13 o.ctorIdx⟩

/-- The operators of either set. -/
def union (s t : OperatorSet) : OperatorSet := ⟨s.bits ||| t.bits⟩

/-- Whether an operator belongs to the set. -/
def contains (s : OperatorSet) (o : Operator) : Bool := s.bits.getLsbD o.ctorIdx

/-- The members in writing order. -/
def toList (s : OperatorSet) : List Operator := Operator.all.filter s.contains

instance : EmptyCollection OperatorSet := ⟨empty⟩

instance : Insert Operator OperatorSet := ⟨insert⟩

instance : Singleton Operator OperatorSet := ⟨fun o => insert o ∅⟩

end OperatorSet

/-- The direction of a shift. -/
inductive Direction where
  | left | right
  deriving DecidableEq, Repr

/-- The amount of a shift. -/
inductive ShiftAmount where
  /-- A constant number of places. -/
  | constant (places : Int)
  /-- The value of a register. -/
  | register (id : RegisterId)
  deriving DecidableEq, Repr

/-- A shift of an operand. -/
structure Shift where
  /-- Which way bits move. -/
  direction : Direction
  /-- How far. -/
  amount : ShiftAmount
  deriving DecidableEq, Repr

/-- Text after an operand. -/
inductive Suffix where
  /-- A shift, inside or outside the brackets of the operators. -/
  | shift (shift : Shift) (outside : Bool)
  /-- A test for equality with a constant. -/
  | equals (value : Int)
  /-- A test for difference from a constant. -/
  | notEquals (value : Int)
  deriving DecidableEq, Repr

/-- A comparison of a register. -/
inductive Relation where
  | equal | less | greaterOrEqual | notEqual
  deriving DecidableEq, Repr

/-- What a register is compared with. -/
inductive Comparand where
  /-- A register. -/
  | register (id : RegisterId)
  /-- A constant. -/
  | constant (value : Int)
  deriving DecidableEq, Repr

/-- How the pointer of an indirect operand is used and changed. -/
inductive PointerMode where
  /-- The pointer as it is. -/
  | plain
  /-- One up afterwards. -/
  | postIncrement
  /-- One down afterwards. -/
  | postDecrement
  /-- One up before. -/
  | preIncrement
  /-- One down before. -/
  | preDecrement
  /-- A register added afterwards. -/
  | postAdd (id : RegisterId)
  /-- A register subtracted afterwards. -/
  | postSubtract (id : RegisterId)
  /-- A register as an index, the pointer unchanged. -/
  | indexed (id : RegisterId)
  /-- A constant as an index, the pointer unchanged. -/
  | offset (places : Int)
  /-- A constant added before. -/
  | preOffset (places : Int)
  /-- A three-bit constant as an index, the pointer unchanged. -/
  | shortOffset (places : Nat)
  /-- A register added afterwards with reversed carry. -/
  | postAddReversed (id : RegisterId)
  /-- A register subtracted afterwards with reversed carry. -/
  | postSubtractReversed (id : RegisterId)
  deriving DecidableEq, Repr

/-- How a direct address was written in the code. -/
inductive AddressForm where
  /-- A bare address. -/
  | plain
  /-- An offset in the data page. -/
  | page
  /-- Sixteen bits, completed by the high page register. -/
  | absolute16
  /-- A full address. -/
  | absolute
  /-- An offset in the space of memory-mapped registers. -/
  | mapped
  /-- An address of the peripheral space. -/
  | port
  /-- An offset in the peripheral page. -/
  | portPage
  deriving DecidableEq, Repr

/-- Whether the address belongs to the peripheral space. -/
def AddressForm.isPeripheral : AddressForm → Bool
  | .port | .portPage => true
  | _ => false

/-- What an operand stands for. -/
inductive OperandValue where
  /-- Nothing: the slot is free. -/
  | empty
  /-- A register. -/
  | register (id : RegisterId)
  /-- A constant, signed or not; `dataPage` marks a bit address within the data page. -/
  | immediate (value : Int) (signed dataPage : Bool)
  /-- Memory at an address, with the page registers that complete it. -/
  | direct (address : UInt32) (high page : Option RegisterId) (form : AddressForm)
  /-- Memory at a pointer register. -/
  | indirect (base : RegisterId) (mode : PointerMode)
  /-- A code address, with its distance from the next instruction if it was given by that. -/
  | target (address : Address) (displacement : Option Int)
  /-- A condition of the condition code table, on a register if it tests one. -/
  | condition (code : UInt8) (register : Option RegisterId)
  /-- A bare shift amount. -/
  | shift (shift : Shift)
  /-- A comparison. -/
  | comparison (id : RegisterId) (relation : Relation) (right : Comparand)
  /-- The registers whose bits are set in a mask. -/
  | registers (mask : UInt32)
  /-- Bytes printed as they are. -/
  | text (bytes : List UInt8)
  deriving DecidableEq, Repr

/-- An operand of an instruction. -/
structure Operand where
  /-- What it stands for. -/
  value : OperandValue := .empty
  /-- The size of its data. -/
  width : DataWidth := .unspecified
  /-- How the instruction uses it. -/
  role : Role := .none
  /-- Operators written around it. -/
  operators : OperatorSet := .empty
  /-- Text written after it. -/
  suffix : Option Suffix := none
  deriving DecidableEq, Repr

namespace Operand

/-- An operand with a value and a width, and nothing else. -/
def of (value : OperandValue) (width : DataWidth) : Operand := { value, width }

/-- A register operand of word size. -/
def ofRegister (id : RegisterId) : Operand := of (.register id) .word

/-- A constant operand. -/
def ofConstant (value : Int) (signed : Bool) (width : DataWidth) : Operand :=
  of (.immediate value signed false) width

/-- Whether the slot is free. -/
def isEmpty (op : Operand) : Bool :=
  match op.value with
  | .empty => true
  | _ => false

/-- The register, if the operand is one. -/
def register? (op : Operand) : Option RegisterId :=
  match op.value with
  | .register id => some id
  | _ => none

/-- The constant, if the operand is one. -/
def constant? (op : Operand) : Option Int :=
  match op.value with
  | .immediate value _ _ => some value
  | _ => none

end Operand

end DspCode
