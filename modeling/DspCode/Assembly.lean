import DspCode.DataSpace
import DspCode.Form
import DspCode.Settings
import DspCode.Text.Utf8

/-!
# Assembly text

Prints instructions. Operators open before an operand and close after it; code targets with a label
are printed by name, and data addresses of mapped registers by the register's name.
-/

namespace DspCode

/-- What printing depends on. -/
structure Printer where
  /-- The settings of the run. -/
  settings : Settings
  /-- What registers hold. -/
  context : Context
  /-- The names of code addresses. -/
  label? : Address → Option String := fun _ => none

namespace Printer

/-- The text that opens an operator. -/
def operatorText : Operator → String
  | .assignT3 => "T3="
  | .invert => "!"
  | .unsigned => "uns("
  | .double => "dbl("
  | .round => "rnd("
  | .pair => "pair("
  | .low => "lo("
  | .high => "hi("
  | .lowByte => "low_byte("
  | .highByte => "high_byte("
  | .saturate => "saturate("
  | .dual => "dual("
  | .port => "port("

/-- Whether an operator has brackets to close. -/
def hasBrackets : Operator → Bool
  | .assignT3 | .invert => false
  | _ => true

/-- The text of a shift after an operand. -/
def shiftText (s : Shift) : String :=
  let arrows :=
    match s.direction with
    | .left => " << "
    | .right => " >> "
  match s.amount with
  | .constant places => arrows ++ "#" ++ decimalText places
  | .register id => arrows ++ registerText id

/-- The text after an operand. -/
def suffixText : Suffix → String
  | .shift s _ => shiftText s
  | .equals value => " == #" ++ decimalText value
  | .notEquals value => " != #" ++ decimalText value

/-- Whether the text after an operand stands outside its brackets. -/
def isOutside : Suffix → Bool
  | .shift _ outside => outside
  | _ => false

/-- Puts the operators and the text of an operand around its body. -/
def wrap (op : Operand) (body : String) : String :=
  let opening := String.join (op.operators.toList.map operatorText)
  let closing := String.ofList (List.replicate (op.operators.toList.countP hasBrackets) ')')
  let inside := (op.suffix.filter (!isOutside ·)).elim "" suffixText
  let outside := (op.suffix.filter isOutside).elim "" suffixText
  opening ++ body ++ inside ++ closing ++ outside

/-- The text of memory at a pointer. -/
def indirectText (base : RegisterId) (mode : PointerMode) : String :=
  let r := registerText base
  match mode with
  | .plain => "*" ++ r
  | .postIncrement => "*" ++ r ++ "+"
  | .postDecrement => "*" ++ r ++ "-"
  | .preIncrement => "*+" ++ r
  | .preDecrement => "*-" ++ r
  | .postAdd id => "*(" ++ r ++ "+" ++ registerText id ++ ")"
  | .postSubtract id => "*(" ++ r ++ "-" ++ registerText id ++ ")"
  | .indexed id => "*" ++ r ++ "(" ++ registerText id ++ ")"
  | .offset places => "*" ++ r ++ "(#" ++ numeralText places ++ ")"
  | .preOffset places => "*+" ++ r ++ "(#" ++ numeralText places ++ ")"
  | .shortOffset places => "*" ++ r ++ "(short(#" ++ decimalText places ++ "))"
  | .postAddReversed _ => "*(" ++ r ++ "+T0B)"
  | .postSubtractReversed _ => "*(" ++ r ++ "-T0B)"

/-- The register mapped to the address of a direct operand, if it is to be printed by name. -/
def mappedName? (p : Printer) (insn : Instruction) (op : Operand) (form : AddressForm) :
    Option Register :=
  if p.settings.mappedRegisters && !form.isPeripheral then
    (insn.dataAddress? op p.context).bind mappedRegister?
  else none

/-- The text around the address of a direct operand; `named` tells whether a register stands for
the address. -/
def directBrackets (form : AddressForm) (named : Bool) : String × String :=
  match form with
  | .plain => ("", "")
  | .page => (if named then "" else "@", "")
  | .absolute16 => ("*abs16(#", ")")
  | .absolute => ("*(#", ")")
  | .mapped => ("mmap(@", ")")
  | .port => ("port(#", ")")
  | .portPage => ("port(@", ")")

/-- The text of memory at an address. -/
def directText (p : Printer) (insn : Instruction) (op : Operand) (address : UInt32)
    (form : AddressForm) : String :=
  let mapped? := p.mappedName? insn op form
  let (opening, closing) := directBrackets form mapped?.isSome
  let body :=
    match mapped? with
    | some r => r.name
    | none =>
      if form.isPeripheral then
        numeralText ((insn.portAddress? op p.context).getD address).toNat
      else numeralText address.toNat
  opening ++ body ++ closing

/-- The text of a combination of the two test control flags. -/
def flagPairText (code : UInt8) : String :=
  let operation :=
    if code &&& 0xFC = 0x68 then " & " else if code &&& 0xFC = 0x78 then " | " else " ^ "
  let first := if code &&& 2 = 0 then "TC1" else "!TC1"
  let second := if code &&& 1 = 0 then "TC2" else "!TC2"
  first ++ operation ++ second

/-- The text of a condition. -/
def conditionText (code : UInt8) (register : Option RegisterId) : String :=
  let r := register.elim "?" registerText
  if code = 0x00 then r ++ " == #0"
  else if code = 0x10 then r ++ " != #0"
  else if code = 0x20 then r ++ " < #0"
  else if code = 0x30 then r ++ " <= #0"
  else if code = 0x40 then r ++ " > #0"
  else if code = 0x50 then r ++ " >= #0"
  else if code = 0x60 then "overflow(" ++ r ++ ")"
  else if code = 0x70 then "!overflow(" ++ r ++ ")"
  else if code = 0x64 then "TC1"
  else if code = 0x65 then "TC2"
  else if code = 0x66 then "CARRY"
  else if code = 0x74 then "!TC1"
  else if code = 0x75 then "!TC2"
  else if code = 0x76 then "!CARRY"
  else if (0x68 ≤ code ∧ code ≤ 0x6B) ∨ (0x78 ≤ code ∧ code ≤ 0x7F) then flagPairText code
  else "cond(" ++ hexText code.toNat ++ ")"

/-- The text of a relation between the sides of a comparison. -/
def relationText : Relation → String
  | .equal => " == "
  | .less => " < "
  | .greaterOrEqual => " >= "
  | .notEqual => " != "

/-- The text of the right side of a comparison. -/
def comparandText : Comparand → String
  | .register id => registerText id
  | .constant value => "#" ++ numeralText value

/-- The text of a bare shift amount: right shifts are negative. -/
def amountText (s : Shift) : String :=
  match s.amount, s.direction with
  | .constant places, .right => "#" ++ decimalText (-places)
  | .constant places, .left => "#" ++ decimalText places
  | .register _, _ => "#0"

/-- The registers whose bits are set in a mask. -/
def registersText (mask : UInt32) : String :=
  let names := ((List.range 32).filter fun i => mask.toNat.testBit i).map registerText
  "\x7b" ++ ", ".intercalate names ++ "\x7d"

/-- The text of an operand. -/
def operandText (p : Printer) (insn : Instruction) (op : Operand) : String :=
  match op.value with
  | .empty => ""
  | .register id => wrap op (registerText id)
  | .indirect base mode => wrap op (indirectText base mode)
  | .direct address _ _ form => wrap op (p.directText insn op address form)
  | .immediate value _ dataPage =>
    (if dataPage then "@" else "#") ++ numeralText value ++ op.suffix.elim "" suffixText
  | .target address _ => (p.label? address).getD (hexText address.toNat)
  | .condition code register => conditionText code register
  | .shift s => amountText s
  | .comparison id relation right =>
    registerText id ++ relationText relation ++ comparandText right
  | .registers mask => registersText mask
  | .text bytes => String.ofList (Text.decodeUtf8 bytes)

/-- The text before the operand in a slot: the second line of a two-line mnemonic starts at the
slot of the split. -/
def separator (insn : Instruction) (second : Option String) (slot : Nat) : String :=
  if slot = 0 then " "
  else if insn.split? = some slot then "\n:: " ++ second.getD "?" ++ " "
  else ", "

/-- The mark of a qualified instruction. -/
def qualifierText (marks : Marks) : String :=
  if marks.localRepeat then ".lr" else if marks.circular then ".cr" else ""

/-- The text of an instruction. -/
def render (p : Printer) (insn : Instruction) : String :=
  match Form.mnemonics[insn.kind]? with
  | none => ".kind " ++ decimalText insn.kind
  | some m =>
    (if insn.marks.parallel then "|| " else "") ++ m.name ++ qualifierText insn.marks ++
      String.join (insn.filled.zipIdx.map fun (op, slot) =>
        separator insn m.second slot ++ p.operandText insn op)

end Printer

end DspCode
