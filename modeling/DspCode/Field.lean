import DspCode.Form
import DspCode.Mnemonic.Renaming

/-!
# Fields

The fields of an encoding: which bits of the code word a field selects, and what it contributes to
the instruction.
-/

namespace DspCode

/-- The renamings a single bit of the code can ask for. -/
inductive RenameRequest where
  | roundBoth | wide40Both | roundSecond | wide40Second | round | wide40 | roundFirst | unsigned
  | pair | quad
  deriving DecidableEq, Repr

/-- The renaming a request stands for. -/
def RenameRequest.renaming : RenameRequest → Renaming
  | .roundBoth => ⟨"r", true, true, true⟩
  | .wide40Both => ⟨"40", true, true, true⟩
  | .roundSecond => ⟨"r", true, false, true⟩
  | .wide40Second => ⟨"40", true, false, true⟩
  | .round => ⟨"r", false, true, false⟩
  | .wide40 => ⟨"40", false, true, false⟩
  | .roundFirst => ⟨"r", true, true, false⟩
  | .unsigned => ⟨"u", false, true, false⟩
  | .pair => ⟨"p", false, true, false⟩
  | .quad => ⟨"4", false, true, false⟩

/-- What a field of an encoding contributes. -/
inductive Field where
  /-- An unsigned constant of byte size. -/
  | unsignedByte
  /-- An unsigned constant of word size. -/
  | unsignedWord
  /-- A signed constant of eight bits. -/
  | signedByte
  /-- A signed constant of sixteen bits. -/
  | signedWord
  /-- The negative of an unsigned constant. -/
  | negatedByte
  /-- The constant one. -/
  | one
  /-- The constant minus one. -/
  | minusOne
  /-- A register counted from the first accumulator. -/
  | source
  /-- Such a register, left out if it repeats the last one. -/
  | optionalSource
  /-- A temporary register. -/
  | temporary
  /-- A test control flag. -/
  | testControl
  /-- A transition register. -/
  | transition
  /-- A status register. -/
  | status
  /-- An accumulator or an extended pointer. -/
  | extended
  /-- The carry, or the second test control flag. -/
  | carryOrTest
  /-- Always the same register. -/
  | fixed (register : Register)
  /-- Dual memory: a pointer and one of eight modes. -/
  | xmem
  /-- Coefficient memory: the coefficient pointer and one of four modes. -/
  | cmem
  /-- Single memory of word size. -/
  | smem
  /-- Single memory of double-word size. -/
  | lmem
  /-- Single memory taken for its pointer, whose modes do not depend on the context. -/
  | pointerUpdate
  /-- A bit address: an offset in the data page, or memory. -/
  | bitAddress
  /-- A data address. -/
  | dataAddress
  /-- Operators around the last operand, if the bit is set. -/
  | wrap (operators : OperatorSet)
  /-- A signed shift of the last operand, inside its brackets. -/
  | shiftSigned
  /-- A signed shift of the last operand, outside its brackets. -/
  | shiftSignedOutside
  /-- A left shift of the last operand. -/
  | shiftLeft
  /-- A shift of the last operand by a temporary register. -/
  | shiftByTemporary
  /-- A shift of the last operand by the temporary register T2. -/
  | shiftByT2
  /-- A left shift of the last operand by sixteen places. -/
  | shiftLeft16
  /-- A right shift of the last operand. -/
  | shiftRight
  /-- A test of the last operand for equality with a signed word. -/
  | equalsWord
  /-- A test of the last operand for being other than zero. -/
  | notZero
  /-- Makes the last operand, a register, a comparison with zero. -/
  | relation
  /-- A register as the right side of the comparison. -/
  | relationRegister
  /-- A signed byte as the right side of the comparison. -/
  | relationByte
  /-- A renaming, if the bit is set. -/
  | rename (request : RenameRequest)
  /-- The mark of an instruction in parallel with the one before. -/
  | parallelMark
  /-- The end of the first line of a two-line mnemonic. -/
  | split
  /-- A bare signed shift amount. -/
  | shiftAmount
  /-- The register pair of an exchange. -/
  | swapPair
  /-- A condition. -/
  | condition
  /-- A code target ahead of the next instruction. -/
  | forward
  /-- A code target at a signed distance of so many bits from the next instruction. -/
  | relative (bits : Nat)
  /-- A code target given in the three bytes after the code word. -/
  | absoluteTarget
  deriving DecidableEq, Repr

/-- Where a field's value comes from. -/
inductive BitSelector where
  /-- The bits of the code word under a mask, moved to the low end. -/
  | bits (mask : Nat)
  /-- A constant. -/
  | constant (value : Nat)
  /-- The complement of the lowest bit under a mask. -/
  | inverted (mask : Nat)
  deriving DecidableEq, Repr

/-- The lowest bit that is set in a mask, as a power of two; zero for the zero mask. -/
def lowestBit (mask : Nat) : Nat := mask - (mask &&& (mask - 1))

/-- The value a selector takes from a code word. A zero mask selects nothing and gives zero. -/
def BitSelector.select : BitSelector → Nat → Nat
  | .bits mask, word => (word &&& mask) / lowestBit mask
  | .constant value, _ => value
  | .inverted mask, word =>
    if mask = 0 then 0 else 1 - (word &&& mask) / lowestBit mask % 2

/-- A field together with the source of its value. -/
structure FieldUse where
  /-- What the field contributes. -/
  field : Field
  /-- Where its value comes from. -/
  selector : BitSelector
  deriving DecidableEq, Repr

end DspCode
