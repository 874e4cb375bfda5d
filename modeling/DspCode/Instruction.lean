import DspCode.Operand

/-!
# Instructions

A decoded instruction: where it is, how long, its kind, and its operands in six slots. Operands
fill the slots from the front; the first free slot ends them.
-/

namespace DspCode

/-- A position in a mnemonic table; zero is the null kind. -/
abbrev Kind := Nat

/-- Marks on an instruction as a whole. -/
structure Marks where
  /-- It runs in parallel with the instruction before it. -/
  parallel : Bool := false
  /-- It is qualified as a local repeat. -/
  localRepeat : Bool := false
  /-- It is qualified as a circular access. -/
  circular : Bool := false
  deriving DecidableEq, Repr

/-- Which half of a packed pair an instruction is, and where the other half starts. -/
inductive Half where
  /-- The first half; the second starts at `tail`. -/
  | head (tail : Address)
  /-- The second half; the first starts at `head`. -/
  | tail (head : Address)
  deriving DecidableEq, Repr

/-- How an instruction is joined with another: two lines of one mnemonic, or a packed pair. -/
structure Grouping where
  /-- The slot at which the second line of a two-line mnemonic starts. -/
  split : Option Nat := none
  /-- The place in a packed pair. -/
  half : Option Half := none
  deriving DecidableEq, Repr

/-- A decoded instruction. -/
structure Instruction where
  /-- The address of its first byte. -/
  address : Address
  /-- How many bytes it takes. -/
  length : Nat := 0
  /-- Its kind. -/
  kind : Kind := 0
  /-- Its operands, in slots. -/
  operands : Vector Operand 6 := Vector.replicate 6 {}
  /-- Marks on the whole. -/
  marks : Marks := {}
  /-- How it is joined with another instruction. -/
  grouping : Option Grouping := none
  /-- The slot of the memory operand that a qualifier byte may change. -/
  memorySlot : Option Nat := none
  deriving DecidableEq, Repr

namespace Instruction

/-- How many slots are filled before the first free one. -/
def operandCount (insn : Instruction) : Nat :=
  (insn.operands.toList.takeWhile (!·.isEmpty)).length

/-- The operands before the first free slot. -/
def filled (insn : Instruction) : List Operand :=
  insn.operands.toList.takeWhile (!·.isEmpty)

/-- The address after the last byte. -/
def limit (insn : Instruction) : Address := insn.address + UInt32.ofNat insn.length

/-- The place in a packed pair, if any. -/
def half? (insn : Instruction) : Option Half := insn.grouping.bind Grouping.half

/-- The slot at which the second line starts, if any. -/
def split? (insn : Instruction) : Option Nat := insn.grouping.bind Grouping.split

/-- The operand in a slot; a slot past the last is free. -/
def operand (insn : Instruction) (slot : Nat) : Operand := insn.operands[slot]?.getD {}

/-- Replaces the operand in a slot; there is nothing to replace past the last slot. -/
def setOperand (insn : Instruction) (slot : Nat) (op : Operand) : Instruction :=
  { insn with operands := insn.operands.setIfInBounds slot op }

/-- Records the place in a packed pair. -/
def withHalf (insn : Instruction) (half : Half) : Instruction :=
  { insn with grouping := some { insn.grouping.getD {} with half := some half } }

/-- Records where the second line starts. -/
def withSplit (insn : Instruction) (slot : Nat) : Instruction :=
  { insn with grouping := some { insn.grouping.getD {} with split := some slot } }

end Instruction

end DspCode
