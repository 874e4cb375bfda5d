import DspCode.DataSpace
import DspCode.Form
import DspCode.Signed

/-!
# Effects

What an instruction does beyond its own operands: which addresses it refers to, whether execution
goes on after it, what it does to the page and mode registers, and how far it moves the stack
pointer. Effects are only described here; `Effects.apply` carries the register changes out.
-/

namespace DspCode

/-- How an instruction refers to an address. -/
inductive ReferenceKind where
  /-- The address is called. -/
  | call
  /-- The address is jumped to. -/
  | jump
  /-- The data at the address is read. -/
  | read
  /-- The data at the address is written. -/
  | write
  /-- The address is the end of a repeated block. -/
  | info
  deriving DecidableEq, Repr

/-- A reference from an instruction to an address. -/
structure Reference where
  /-- The address of the instruction. -/
  origin : Address
  /-- The address referred to. -/
  target : UInt32
  /-- How it is referred to. -/
  kind : ReferenceKind
  /-- The slot of the operand that refers to it. -/
  slot : Nat
  deriving DecidableEq, Repr

/-- Whether a reference may direct execution. -/
def Reference.isCode (r : Reference) : Bool :=
  match r.kind with
  | .call | .jump => true
  | _ => false

/-- A register holds a value, or is unknown, from an address on. -/
structure ContextWrite where
  /-- The first address at which it does. -/
  address : Address
  /-- The register. -/
  register : RegisterId
  /-- The value, if it is known. -/
  value : Option UInt32
  deriving DecidableEq, Repr

/-- What an instruction does beyond its own operands. -/
structure Effects where
  /-- The addresses it refers to. -/
  references : List Reference
  /-- Execution may go on with the next instruction. -/
  flows : Bool
  /-- What it does to the page and mode registers, in order. -/
  contextWrites : List ContextWrite
  /-- How many bytes the stack pointer moves up, where that is known. -/
  stackChange : Option Int
  deriving DecidableEq, Repr

namespace Effects

/-- Whether a register selects a page of memory. -/
def isPageRegister (id : RegisterId) : Bool :=
  id == Register.dp.id || id == Register.dph.id || id == Register.pdp.id

/-- One access to an operand. -/
structure Access where
  /-- The slot of the operand. -/
  slot : Nat
  /-- The operand is read, and otherwise written. -/
  isRead : Bool
  deriving DecidableEq, Repr

/-- The accesses of an instruction: all reads by slot, then all writes by slot. -/
def accesses (insn : Instruction) (usage : Usage) : List Access :=
  let slots := List.range insn.operandCount
  (slots.filter usage.readsSlot).map (⟨·, true⟩) ++
    (slots.filter usage.writesSlot).map (⟨·, false⟩)

/-- How an instruction refers to its code targets. -/
def targetKind (insn : Instruction) (usage : Usage) : ReferenceKind :=
  if insn.kind = Form.rptb.kind ∨ insn.kind = Form.rptblocal.kind then .info
  else if usage.calls then .call
  else .jump

/-- The address that an access refers to, if it refers to one that is known. -/
def reference? (insn : Instruction) (usage : Usage) (c : Context) (access : Access) :
    Option Reference :=
  let op := insn.operand access.slot
  match op.value with
  | .target address _ =>
    some ⟨insn.address, address, targetKind insn usage, access.slot⟩
  | .direct _ _ _ form =>
    if form.isPeripheral then none
    else
      (insn.dataAddress? op c).map fun address =>
        ⟨insn.address, address, if access.isRead then .read else .write, access.slot⟩
  | _ => none

/-- The page register that an access overwrites, by its name or at its mapped address. -/
def overwritten? (insn : Instruction) (c : Context) (access : Access) : Option RegisterId :=
  if access.isRead then none
  else
    let op := insn.operand access.slot
    match op.value with
    | .register id => if isPageRegister id then some id else none
    | .direct _ _ _ form =>
      if form.isPeripheral then none
      else
        match (insn.dataAddress? op c).bind mappedRegister? with
        | some r => if isPageRegister r.id then some r.id else none
        | none => none
    | _ => none

/-- The bits that a page register keeps of a constant moved to it. -/
def pageMask? (id : RegisterId) : Option UInt32 :=
  if id = Register.dp.id then some 0xFFFF
  else if id = Register.dph.id then some 0x7F
  else if id = Register.pdp.id then some 0x1FF
  else none

/-- The mode register that an instruction clears or sets by name. -/
def modeWrite? (insn : Instruction) : Option ContextWrite :=
  if insn.kind = Form.bclr1.kind ∨ insn.kind = Form.bset1.kind then
    match (insn.operand 0).register? with
    | some id =>
      if id = Register.cpl.id ∨ id = Register.arms.id then
        some ⟨insn.limit, id, some (if insn.kind = Form.bset1.kind then 1 else 0)⟩
      else none
    | none => none
  else none

/-- The page register that an instruction loads with a constant. -/
def pageLoad? (insn : Instruction) : Option ContextWrite :=
  if insn.kind = Form.mov2.kind then
    match (insn.operand 0).constant?, (insn.operand 1).register? with
    | some value, some id =>
      (pageMask? id).map fun mask => ⟨insn.limit, id, some (UInt32.ofInt value &&& mask)⟩
    | _, _ => none
  else none

/-- How many bytes an instruction moves the stack pointer up, where that is known. -/
def stackChange? (insn : Instruction) : Option Int :=
  let double := (insn.operand 0).operators.contains .double
  match Form.ofKind? insn.kind with
  | some .pop1 => some (if double then 4 else 2)
  | some .pop2 => some 4
  | some .psh1 => some (if double then -4 else -2)
  | some .psh2 => some (-4)
  | some .popboth | some .ret => some 2
  | some .pshboth => some (-2)
  | some .reti => some 6
  | some .aadd =>
    if (insn.operand 1).register? = some Register.sp.id then
      (insn.operand 0).constant?.map fun places => 2 * signedValue 32 places
    else none
  | _ => none

/-- The effects of an instruction with the given usage. -/
def of (insn : Instruction) (usage : Usage) (c : Context) : Effects :=
  let accesses := accesses insn usage
  let unknown := accesses.filterMap fun access =>
    (overwritten? insn c access).map (⟨insn.limit, ·, none⟩)
  { references := accesses.filterMap (reference? insn usage c)
    flows := !usage.stops
    contextWrites := unknown ++ (modeWrite? insn).toList ++ (pageLoad? insn).toList
    stackChange := stackChange? insn }

/-- Carries out what the instruction does to the page and mode registers. -/
def apply (e : Effects) (c : Context) : Context :=
  e.contextWrites.foldl (fun c w => c.set w.address w.register w.value) c

/-- The references that may direct execution. -/
def codeReferences (e : Effects) : List Reference := e.references.filter (·.isCode)

end Effects

/-- Whether a kind of instruction only fills space. -/
def isFiller (kind : Kind) : Bool := kind == Form.nop.kind || kind == Form.nop16.kind

end DspCode
