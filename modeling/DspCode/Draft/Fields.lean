import DspCode.Draft
import DspCode.Field

/-!
# Field rules

What each field of an encoding does to the draft of an instruction. A field that meets a reserved
value leaves the null kind.
-/

namespace DspCode

/-- An operand in memory at a pointer. -/
def indirectOperand (base : RegisterId) (mode : PointerMode) (width : DataWidth) : Operand :=
  .of (.indirect base mode) width

/-- An operand in memory at an address. -/
def directOperand (address : Nat) (high page : Option Register) (form : AddressForm)
    (width : DataWidth) : Operand :=
  .of (.direct (UInt32.ofNat address) (high.map (·.id)) (page.map (·.id)) form) width

/-- The eight pointer modes of dual memory; coefficient memory has the first four. -/
def dualMode (selector : Nat) : PointerMode :=
  match selector % 8 with
  | 0 => .plain
  | 1 => .postIncrement
  | 2 => .postDecrement
  | 3 => .postAdd Register.t0.id
  | 4 => .postAdd Register.t1.id
  | 5 => .postSubtract Register.t0.id
  | 6 => .postSubtract Register.t1.id
  | _ => .indexed Register.t0.id

/-- The accumulators and extended pointers, by their number in a field. -/
def extendedRegister (selector : Nat) : Register :=
  match selector % 16 with
  | 0 => .ac0
  | 1 => .ac1
  | 2 => .ac2
  | 3 => .ac3
  | 4 => .xsp
  | 5 => .xssp
  | 6 => .xdp
  | 7 => .xcdp
  | 8 => .xar0
  | 9 => .xar1
  | 10 => .xar2
  | 11 => .xar3
  | 12 => .xar4
  | 13 => .xar5
  | 14 => .xar6
  | _ => .xar7

/-- The registers an exchange selector names, and the renaming for exchanges of several pairs. -/
def swapOperands? (selector : Nat) : Option (Register × Register × Option RenameRequest) :=
  match selector with
  | 0x00 => some (.ac0, .ac2, none)
  | 0x01 => some (.ac1, .ac3, none)
  | 0x04 => some (.t0, .t2, none)
  | 0x05 => some (.t1, .t3, none)
  | 0x08 => some (.ar0, .ar2, none)
  | 0x09 => some (.ar1, .ar3, none)
  | 0x0C => some (.ar4, .t0, none)
  | 0x0D => some (.ar5, .t1, none)
  | 0x0E => some (.ar6, .t2, none)
  | 0x0F => some (.ar7, .t3, none)
  | 0x10 => some (.ac0, .ac2, some .pair)
  | 0x14 => some (.t0, .t2, some .pair)
  | 0x18 => some (.ar0, .ar2, some .pair)
  | 0x1C => some (.ar4, .t0, some .pair)
  | 0x1E => some (.ar6, .t2, some .pair)
  | 0x2C => some (.ar4, .t0, some .quad)
  | 0x38 => some (.ar0, .ar1, none)
  | _ => none

/-- The condition a selector names: a test of a register, or of status flags. -/
def conditionOperand? (selector : Nat) : Option OperandValue :=
  let code := UInt8.ofNat selector
  let group := selector / 4
  if group ≤ 0x17 then
    some (.condition (code &&& 0x70) (some (Register.ac0.offset (selector % 16))))
  else if group = 0x18 ∨ group = 0x1C then
    some (.condition (code &&& 0x7C) (some (Register.ac0.offset (selector % 4))))
  else if (group = 0x19 ∨ group = 0x1A ∨ (0x1D ≤ group ∧ group ≤ 0x1F)) ∧
      selector ≠ 0x67 ∧ selector ≠ 0x77 then
    some (.condition code none)
  else none

/-- A shift by a signed number of places; negative numbers shift to the right. -/
def signedShift (places : Int) : Shift :=
  if places < 0 then ⟨.right, .constant (signedValue 32 (-places))⟩
  else ⟨.left, .constant (signedValue 32 places)⟩

/-- A left shift by a register. -/
def registerShift (id : RegisterId) : Shift := ⟨.left, .register id⟩

/-- The relation a selector names. -/
def relationOf (selector : Nat) : Relation :=
  match selector % 4 with
  | 0 => .equal
  | 1 => .less
  | 2 => .greaterOrEqual
  | _ => .notEqual

namespace Draft

/-- Adds a memory operand and makes it the one that a qualifier byte may change. -/
def pushMemory (d : Draft) (op : Operand) : Except FieldError Draft :=
  let slot := d.insn.operandCount
  (d.push op).map fun d => { d with insn := { d.insn with memorySlot := some slot } }

/-- Adds memory at a pointer with a signed 16-bit distance, read from the bytes that follow. -/
def pushDistant (d : Draft) (s : Surroundings) (base : RegisterId) (mode : Int → PointerMode)
    (width : DataWidth) : Except FieldError Draft := do
  let (v, d) ← d.trailing s 2
  d.pushMemory (indirectOperand base (mode (signedValue 16 v)) width)

/-- Single memory in the data page, or from the stack pointer when the stack mode is on. -/
def pushPageOrStack (d : Draft) (s : Surroundings) (offset : Nat) (width : DataWidth) :
    Except FieldError Draft :=
  if (d.contextOf s .cpl).getD 0 = 0 then
    d.pushMemory (directOperand offset (some .dph) (some .dp) .page width)
  else
    d.pushMemory (indirectOperand Register.sp.id (.offset (signedValue 32 offset)) width)

/-- Single memory at an address or at the coefficient pointer. -/
def pushAbsoluteOrCoefficient (d : Draft) (s : Surroundings) (selector : Nat)
    (width : DataWidth) : Except FieldError Draft :=
  let cdp := Register.cdp.id
  match selector with
  | 0 => do
    let (v, d) ← d.trailing s 2
    d.pushMemory (directOperand v (some .dph) none .absolute16 width)
  | 1 => do
    let (v, d) ← d.trailing s 3
    d.pushMemory (directOperand v none none .absolute width)
  | 2 => do
    let (v, d) ← d.trailing s 2
    d.pushMemory (directOperand v none none .port width)
  | 3 => d.pushMemory (indirectOperand cdp .plain width)
  | 4 => d.pushMemory (indirectOperand cdp .postIncrement width)
  | 5 => d.pushMemory (indirectOperand cdp .postDecrement width)
  | 6 => d.pushDistant s cdp .offset width
  | _ => d.pushDistant s cdp .preOffset width

/-- The pointer modes that mean the same in every context. -/
def pushPointer (d : Draft) (s : Surroundings) (base : RegisterId) (selector : Nat)
    (width : DataWidth) : Except FieldError Draft :=
  let t0 := Register.t0.id
  match selector with
  | 0 => d.pushMemory (indirectOperand base .plain width)
  | 1 => d.pushMemory (indirectOperand base .postIncrement width)
  | 2 => d.pushMemory (indirectOperand base .postDecrement width)
  | 3 => d.pushMemory (indirectOperand base (.postAdd t0) width)
  | 4 => d.pushMemory (indirectOperand base (.postSubtract t0) width)
  | 5 => d.pushMemory (indirectOperand base (.indexed t0) width)
  | 6 => d.pushDistant s base .offset width
  | _ => d.pushDistant s base .preOffset width

/-- The pointer modes that a context with short offsets reads as an offset of three bits. -/
def pointerMode (short : Bool) (selector : Nat) : PointerMode :=
  if short then .shortOffset selector
  else
    match selector with
    | 1 => .postAdd Register.t1.id
    | 2 => .postSubtract Register.t1.id
    | 3 => .indexed Register.t1.id
    | 4 => .preIncrement
    | 5 => .preDecrement
    | 6 => .postAddReversed Register.t0.id
    | _ => .postSubtractReversed Register.t0.id

/-- A single memory operand. An even value is an offset in the data page or from the stack pointer;
an odd one names a pointer and a mode, or an address in the bytes that follow. With `update` the
pointer modes do not depend on the context. -/
def pushSingleMemory (d : Draft) (s : Surroundings) (v : Nat) (width : DataWidth)
    (update : Bool) : Except FieldError Draft :=
  if v % 2 = 0 then d.pushPageOrStack s (v / 2) width
  else if v % 32 = 0x11 then d.pushAbsoluteOrCoefficient s (v / 32) width
  else
    let base := Register.ar0.offset (v / 32)
    if v / 16 % 2 = 0 then d.pushPointer s base (v / 2 % 16) width
    else
      let short := !update && (d.contextOf s .arms).getD 0 != 0
      d.pushMemory (indirectOperand base (pointerMode short (v / 2 % 8)) width)

/-- Puts text after the last operand. -/
def withSuffix (d : Draft) (suffix : Suffix) : Draft :=
  d.modifyLast fun op => { op with suffix := some suffix }

/-- Makes the last operand a comparison with zero, if it is a register. -/
def withRelation (d : Draft) (relation : Relation) : Draft :=
  d.modifyLast fun op =>
    match op.value with
    | .register id => { op with value := .comparison id relation (.constant 0) }
    | _ => op

/-- Replaces the right side of the last operand, if it is a comparison. -/
def withComparand (d : Draft) (right : Comparand) : Draft :=
  d.modifyLast fun op =>
    match op.value with
    | .comparison id relation _ => { op with value := .comparison id relation right }
    | _ => op

/-- Compares optional operands with the last operand, if there is one. -/
def compareWithLast (d : Draft) : Draft :=
  match d.insn.operandCount with
  | 0 => d
  | slot + 1 => d.compareWith slot

/-- Adds a condition; a reserved selector leaves the null kind. -/
def pushCondition (d : Draft) (selector : Nat) : Except FieldError Draft :=
  match conditionOperand? selector with
  | none => .ok (d.withKind 0)
  | some value =>
    let op := Operand.of value .unspecified
    match value with
    | .condition _ (some _) => d.pushCompared op
    | _ => d.push op

/-- Adds the registers of an exchange; a reserved selector leaves the null kind. -/
def pushSwap (d : Draft) (s : Surroundings) (selector : Nat) : Except FieldError Draft :=
  match swapOperands? selector with
  | none => .ok (d.withKind 0)
  | some (a, b, request) => do
    let d ←
      match request with
      | none => pure d
      | some r => d.rename s.mnemonics r.renaming
    let d ← d.put 0 (.ofRegister a.id)
    d.put 1 (.ofRegister b.id)

/-- What a field with the value `v` does to a draft. -/
def contribute (d : Draft) (s : Surroundings) (field : Field) (v : Nat) :
    Except FieldError Draft :=
  match field with
  | .unsignedByte => d.push (.ofConstant (signedValue 64 v) false .byte)
  | .unsignedWord => d.push (.ofConstant (signedValue 64 v) false .word)
  | .signedByte => d.push (.ofConstant (signedValue 8 v) true .byte)
  | .signedWord => d.push (.ofConstant (signedValue 16 v) true .word)
  | .negatedByte => d.push (.ofConstant (-signedValue 64 v) true .byte)
  | .one => d.push (.ofConstant 1 false .byte)
  | .minusOne => d.push (.ofConstant (-1) true .byte)
  | .source => d.pushCompared (.ofRegister (Register.ac0.offset v))
  | .optionalSource => d.pushOptional (.ofRegister (Register.ac0.offset v))
  | .temporary => d.push (.ofRegister (Register.t0.offset v))
  | .testControl => d.push (.ofRegister (Register.tc1.offset v))
  | .transition => d.push (.ofRegister (Register.trn0.offset v))
  | .status => d.push (.ofRegister (Register.st0_55.offset v))
  | .extended => d.push (.of (.register (extendedRegister v).id) .dword)
  | .carryOrTest =>
    let r : Register := if v % 2 = 1 then .tc2 else .carry
    d.push (.of (.register r.id) .byte)
  | .fixed r => d.push (.ofRegister r.id)
  | .xmem => d.push (indirectOperand (Register.ar0.offset (v / 8)) (dualMode v) .word)
  | .cmem => d.push (indirectOperand Register.cdp.id (dualMode (v % 4)) .word)
  | .smem => d.pushSingleMemory s v .word false
  | .lmem => d.pushSingleMemory s v .dword false
  | .pointerUpdate => d.pushSingleMemory s v .word true
  | .bitAddress =>
    if v % 2 = 0 then d.push (.of (.immediate (signedValue 64 (v / 2)) false true) .byte)
    else d.pushSingleMemory s v .byte false
  | .dataAddress => d.push (directOperand v none none .plain .word)
  | .wrap operators =>
    .ok (if v % 2 = 1 then
      d.modifyLast fun op => { op with operators := op.operators.union operators }
    else d)
  | .shiftSigned => .ok (d.withSuffix (.shift (signedShift (signedValue 6 v)) false))
  | .shiftSignedOutside => .ok (d.withSuffix (.shift (signedShift (signedValue 6 v)) true))
  | .shiftLeft => .ok (d.withSuffix (.shift (signedShift (signedValue 64 v)) false))
  | .shiftByTemporary =>
    .ok (d.withSuffix (.shift (registerShift (Register.t0.offset v)) false))
  | .shiftByT2 => .ok (d.withSuffix (.shift (registerShift Register.t2.id) false))
  | .shiftLeft16 => .ok (d.withSuffix (.shift (signedShift 16) false))
  | .shiftRight =>
    .ok (d.withSuffix (.shift ⟨.right, .constant (signedValue 32 v)⟩ false))
  | .equalsWord => .ok (d.withSuffix (.equals (signedValue 16 v)))
  | .notZero => .ok (d.withSuffix (.notEquals 0))
  | .relation => .ok (d.withRelation (relationOf v))
  | .relationRegister =>
    .ok (d.withComparand (.register (Register.ac0.offset v))).compareWithLast
  | .relationByte => .ok (d.withComparand (.constant (signedValue 8 v)))
  | .rename request =>
    if v % 2 = 1 then d.rename s.mnemonics request.renaming else .ok d
  | .parallelMark =>
    .ok { d with insn := { d.insn with marks := { d.insn.marks with parallel := true } } }
  | .split => .ok d.split
  | .shiftAmount => d.push (.of (.shift (signedShift (signedValue 6 v))) .unspecified)
  | .swapPair => d.pushSwap s v
  | .condition => d.pushCondition v
  | .forward => d.push (d.relativeTarget s (signedValue 64 v))
  | .relative bits => d.push (d.relativeTarget s (signedValue bits v))
  | .absoluteTarget => do
    let (v, d) ← d.trailing s 3
    d.push (.of (.target (UInt32.ofNat v) none) .code)

/-- Lets the fields of an encoding contribute in order, taking their values from the code word. The
result is `none` as soon as a field leaves the null kind: the encoding is reserved. -/
def contributeAll (d : Draft) (s : Surroundings) (word : Nat) :
    List FieldUse → Except FieldError (Option Instruction)
  | [] => .ok (some d.insn)
  | use :: rest => do
    let d ← d.contribute s use.field (use.selector.select word)
    if d.insn.kind = 0 then return none
    d.contributeAll s word rest

end Draft

end DspCode
