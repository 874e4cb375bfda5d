import DspCode.PackedPair
import DspCode.Qualifier
import DspCode.StatusBit

/-!
# Machines

A machine is a pair of tables, encodings and mnemonics, together with the rules that apply around a
table match: packed pairs, parallel execution, named status bits and qualifier bytes.
-/

namespace DspCode

/-- The tables and rules of a processor. Without rules of its own, a machine is decoded by its
tables alone. -/
structure Machine where
  /-- The encodings, in search order. -/
  encodings : List Encoding
  /-- The mnemonics, by kind. -/
  mnemonics : Array Mnemonic
  /-- How many bits of each byte a code word takes. -/
  unitBits : Nat := 8
  /-- The bits of a code address. -/
  codeMask : UInt32 := 0xFFFFFFFF
  /-- Whether a first byte that starts no plain instruction may start a packed pair. -/
  isPairMarker : UInt8 → Bool := fun _ => false
  /-- The halves of the packed pair at an address. -/
  unpack? : AddressSpace → Address → Option PackedPair := fun _ _ => none
  /-- Whether an instruction with this first byte runs in parallel with the one before it. -/
  isParallel : UInt8 → Bool := fun _ => false
  /-- Changes that depend on the operands. -/
  settle : Instruction → Instruction := fun insn => insn
  /-- The instruction qualified by the byte after it, if that byte belongs to it. -/
  qualify? : Instruction → UInt8 → Option Instruction := fun _ _ => none

namespace Machine

/-- Whether a first byte has the parallel bit: a first byte up to 0x5F with its lowest bit set. -/
def parallelBit (first : UInt8) : Bool := first ≤ 0x5F && first &&& 1 == 1

/-- The rules of the TMS320C55x around given tables. -/
def withRules (m : Machine) : Machine :=
  { m with
    isPairMarker := PackedPair.isMarker
    unpack? := PackedPair.unpack?
    isParallel := parallelBit
    settle := StatusBit.nameBit
    qualify? := Qualifier.qualify? }

/-- The TMS320C55x. -/
def c55x : Machine :=
  { encodings := Encoding.table, mnemonics := Form.mnemonics, codeMask := 0xFFFFFF : Machine }
    |>.withRules

end Machine

end DspCode
