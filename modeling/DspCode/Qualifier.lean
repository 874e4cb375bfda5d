import DspCode.Instruction

/-!
# Qualifier bytes

A byte after an instruction can qualify it: its memory operand is then a memory-mapped register or a
peripheral port, or the whole is marked as a repeat. A qualifier that does not fit is not part of
the instruction.
-/

namespace DspCode

/-- What a qualifier byte asks for. -/
inductive Qualifier where
  /-- The memory operand is a memory-mapped register. -/
  | mapped
  /-- The memory operand is a peripheral port. -/
  | port
  /-- The instruction is a local repeat. -/
  | localRepeat
  /-- The instruction is a circular access. -/
  | circular
  deriving DecidableEq, Repr

namespace Qualifier

/-- The qualifier a byte stands for. -/
def ofByte? (b : UInt8) : Option Qualifier :=
  if b = 0x98 then some .mapped
  else if b = 0x99 ∨ b = 0x9A then some .port
  else if b = 0x9C then some .localRepeat
  else if b = 0x9D then some .circular
  else none

/-- An access to the data page or the stack, read as an access to memory-mapped registers. -/
def mappedOperand? (op : Operand) : Option Operand :=
  match op.value with
  | .direct address high page .page =>
    if high = some Register.dph.id ∧ page = some Register.dp.id then
      some { op with value := .direct address none none .mapped }
    else none
  | .indirect base (.offset places) =>
    if base = Register.sp.id then
      some { op with value := .direct (UInt32.ofInt places) none none .mapped }
    else none
  | _ => none

/-- A data access, read as an access to a peripheral port. -/
def portOperand? (op : Operand) : Option Operand :=
  match op.value with
  | .direct address _ _ form =>
    if form.isPeripheral then none
    else some { op with value := .direct (address >>> 1) none (some Register.pdp.id) .portPage }
  | .register _ | .indirect _ _ => some { op with operators := op.operators.union {.port} }
  | _ => none

/-- Changes the memory operand of an instruction, if it has one and the change fits. -/
def onMemory? (insn : Instruction) (f : Operand → Option Operand) : Option Instruction := do
  let slot ← insn.memorySlot
  let op ← insn.operands[slot]?
  let op ← f op
  return insn.setOperand slot op

/-- The qualified instruction, before the qualifier byte is counted. -/
def change? (q : Qualifier) (insn : Instruction) : Option Instruction :=
  match q with
  | .mapped => onMemory? insn mappedOperand?
  | .port => onMemory? insn portOperand?
  | .localRepeat => some { insn with marks := { insn.marks with localRepeat := true } }
  | .circular => some { insn with marks := { insn.marks with circular := true } }

/-- The instruction qualified by the byte after it, with that byte; `none` if the byte is not part
of the instruction. -/
def qualify? (insn : Instruction) (next : UInt8) : Option Instruction := do
  let q ← ofByte? next
  let insn ← q.change? insn
  return { insn with length := insn.length + 1 }

end Qualifier

end DspCode
