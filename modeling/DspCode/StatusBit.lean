import DspCode.Form

/-!
# Named status bits

Clearing or setting a bit of a status register is written with the name of the bit, if it has one.
-/

namespace DspCode.StatusBit

/-- The named bits of the first status register. -/
def st0 : Nat → Option Register
  | 9 => some .acov1
  | 10 => some .acov0
  | 11 => some .carry
  | 12 => some .tc2
  | 13 => some .tc1
  | 14 => some .acov3
  | 15 => some .acov2
  | _ => none

/-- The named bits of the second status register. -/
def st1 : Nat → Option Register
  | 5 => some .c54cm
  | 6 => some .frct
  | 7 => some .c16
  | 8 => some .sxmd
  | 9 => some .satd
  | 10 => some .m40
  | 11 => some .intm
  | 12 => some .hm
  | 13 => some .xf
  | 14 => some .cpl
  | 15 => some .braf
  | _ => none

/-- The named bits of the third status register. -/
def st2 : Nat → Option Register
  | 0 => some .ar0lc
  | 1 => some .ar1lc
  | 2 => some .ar2lc
  | 3 => some .ar3lc
  | 4 => some .ar4lc
  | 5 => some .ar5lc
  | 6 => some .ar6lc
  | 7 => some .ar7lc
  | 8 => some .cdplc
  | 10 => some .rdm
  | 11 => some .eallow
  | 12 => some .dbgm
  | 15 => some .arms
  | _ => none

/-- The named bits of the fourth status register. -/
def st3 : Nat → Option Register
  | 0 => some .sst
  | 1 => some .smul
  | 2 => some .clkoff
  | 5 => some .sata
  | 6 => some .mpnmc
  | 7 => some .cberr
  | 12 => some .hint
  | 13 => some .caclr
  | 14 => some .caen
  | 15 => some .cafrz
  | _ => none

/-- The name of a bit of a status register. -/
def name? (status : RegisterId) (bit : Int) : Option Register :=
  if bit < 0 then none
  else if status = Register.st0_55.id then st0 bit.toNat
  else if status = Register.st1_55.id then st1 bit.toNat
  else if status = Register.st2_55.id then st2 bit.toNat
  else if status = Register.st3_55.id then st3 bit.toNat
  else none

/-- The form with a named bit, for a form with a bit number and a status register. -/
def namedForm? (kind : Kind) : Option Form :=
  if kind = Form.bclr2.kind then some .bclr1
  else if kind = Form.bset2.kind then some .bset1
  else none

/-- Names the status bit that an instruction clears or sets. Instructions of other kinds, and bits
without a name, stay as they are. -/
def nameBit (insn : Instruction) : Instruction :=
  match namedForm? insn.kind, (insn.operand 0).constant?, (insn.operand 1).register? with
  | some form, some bit, some status =>
    match name? status bit with
    | some flag =>
      let named := Operand.of (.register flag.id) (insn.operand 0).width
      ({ insn with kind := form.kind }.setOperand 0 named).setOperand 1 {}
    | none => insn
  | _, _, _ => insn

end DspCode.StatusBit
