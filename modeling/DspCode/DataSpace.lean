import DspCode.Context
import DspCode.Instruction

/-!
# Data space

Addresses of data operands. A direct operand may be completed by page registers; its address is
known if the context knows all of them. Registers are mapped to the lowest words of the data space.
-/

namespace DspCode

/-- The register mapped to a word of the data space. -/
def mappedWord? : Nat → Option Register
  | 0x00 => some .ier0
  | 0x01 => some .ifr0
  | 0x02 => some .st0_55
  | 0x03 => some .st1_55
  | 0x04 => some .st3_55
  | 0x06 => some .st0
  | 0x07 => some .st1
  | 0x08 => some .ac0l
  | 0x09 => some .ac0h
  | 0x0A => some .ac0g
  | 0x0B => some .ac1l
  | 0x0C => some .ac1h
  | 0x0D => some .ac1g
  | 0x0E => some .t3
  | 0x0F => some .trn0
  | 0x10 => some .ar0
  | 0x11 => some .ar1
  | 0x12 => some .ar2
  | 0x13 => some .ar3
  | 0x14 => some .ar4
  | 0x15 => some .ar5
  | 0x16 => some .ar6
  | 0x17 => some .ar7
  | 0x18 => some .sp
  | 0x19 => some .bk03
  | 0x1A => some .brc0
  | 0x1B => some .rsa0l
  | 0x1C => some .rea0l
  | 0x1D => some .pmst
  | 0x1E => some .xpc
  | 0x20 => some .t0
  | 0x21 => some .t1
  | 0x22 => some .t2
  | 0x23 => some .t3
  | 0x24 => some .ac2l
  | 0x25 => some .ac2h
  | 0x26 => some .ac2g
  | 0x27 => some .cdp
  | 0x28 => some .ac3l
  | 0x29 => some .ac3h
  | 0x2A => some .ac3h
  | 0x2B => some .dph
  | 0x2E => some .dp
  | 0x2F => some .pdp
  | 0x30 => some .bk47
  | 0x31 => some .bkc
  | 0x32 => some .bsa01
  | 0x33 => some .bsa23
  | 0x34 => some .bsa45
  | 0x35 => some .bsa67
  | 0x36 => some .bsac
  | 0x38 => some .trn1
  | 0x39 => some .brc1
  | 0x3A => some .brs1
  | 0x3B => some .csr
  | 0x3C => some .rsa0h
  | 0x3D => some .rsa0l
  | 0x3E => some .rea0h
  | 0x3F => some .rea0l
  | 0x40 => some .rsa1h
  | 0x41 => some .rsa1l
  | 0x42 => some .rea1h
  | 0x43 => some .rea1l
  | 0x44 => some .rptc
  | 0x45 => some .ier1
  | 0x46 => some .ifr1
  | 0x47 => some .dbier0
  | 0x48 => some .dbier1
  | 0x49 => some .ivpd
  | 0x4A => some .ivph
  | 0x4B => some .st2_55
  | 0x4C => some .ssp
  | 0x4D => some .sp
  | 0x4E => some .sph
  | 0x4F => some .cdph
  | _ => none

/-- The register mapped to a byte address of the data space. -/
def mappedRegister? (address : UInt32) : Option Register := mappedWord? (address.toNat / 2)

/-- The value of a page register where an operand uses it: the value the context knows, zero if the
operand does not use the register, and `none` if it does and the value is not known. -/
def pageValue? (c : Context) (a : Address) (used : Option RegisterId) (r : Register) :
    Option UInt32 :=
  if used = some r.id then c.get a r.id else some 0

/-- The byte address of a direct operand in the data space, if its page registers are known. -/
def Instruction.dataAddress? (insn : Instruction) (op : Operand) (c : Context) :
    Option UInt32 :=
  match op.value with
  | .direct address high page _ => do
    let dph ← pageValue? c insn.address high .dph
    let dp ← pageValue? c insn.address page .dp
    let offset :=
      if high = some Register.dph.id ∨ page = some Register.dp.id then address &&& 0xFFFF
      else address
    return (((dph &&& 0x7F) <<< 16) ||| (dp + offset)) <<< 1
  | _ => none

/-- The address of a direct operand in the peripheral space, if its page register is known. -/
def Instruction.portAddress? (insn : Instruction) (op : Operand) (c : Context) :
    Option UInt32 :=
  match op.value with
  | .direct address _ page _ => do
    let pdp ← pageValue? c insn.address page .pdp
    let offset := if page = some Register.pdp.id then address &&& 0x7F else address
    return ((pdp &&& 0x1FF) <<< 7) ||| offset
  | _ => none

end DspCode
