import DspCode.Encoding.Table

/-!
# Packed pairs

A packed pair keeps the first bytes of two instructions interleaved in one 32-bit word. Unpacking
restores the bytes each of them would have on its own; the further bytes of both follow the word in
memory, those of the first half first.
-/

namespace DspCode

/-- The bytes of the two halves of a packed pair, as instructions of their own. -/
structure PackedPair where
  /-- The first half. -/
  head : List UInt8
  /-- The second half. -/
  tail : List UInt8
  deriving DecidableEq, Repr

namespace PackedPair

/-- Whether a byte marks the start of a packed pair. -/
def isMarker (first : UInt8) : Bool := first &&& 0xF8 == 0x88

/-- The low bits of the memory byte for each of the eight packed pointer modes. -/
def modeBits (mode : Nat) : Nat :=
  match mode with
  | 0 => 0
  | 1 => 1
  | 2 => 2
  | 3 => 3
  | 4 => 9
  | 5 => 4
  | 6 => 10
  | _ => 5

/-- The memory byte of a packed memory field of six bits: a pointer and one of eight modes. -/
def memoryByte (field : Nat) : UInt8 :=
  UInt8.ofNat ((modeBits (field % 8) + field / 8 % 8 * 16) * 2 + 1)

/-- The first byte of the first half. -/
def headOpcode (word : Nat) : Nat := word / 0x1000000 % 16 * 16 + word / 0x100 % 16

/-- The first byte of the second half, where both halves have memory fields. -/
def tailOpcode (word : Nat) : Nat := word % 256

/-- The packed memory field of the first half. -/
def headField (word : Nat) : Nat := word / 0x40000 % 64

/-- The packed memory field of the second half. -/
def tailField (word : Nat) : Nat := word / 0x1000 % 64

/-- The width of the instruction whose first bytes are those of a word. -/
def widthOf (word : Nat) : Nat := Encoding.leadingWidth Encoding.table word

/-- The value of the byte at an offset. -/
def byteAt? (space : AddressSpace) (a : Address) (offset : Nat) : Option Nat :=
  (space (a + UInt32.ofNat offset)).map UInt8.toNat

/-- The width of a second half with a memory field. Its first byte may settle it; otherwise the
bytes after the first half, which stand in its third and fourth places, are consulted in turn. -/
def memoryTailWidth? (space : AddressSpace) (a : Address) (opcode headWidth : Nat) : Option Nat :=
  let probe := opcode * 0x1000000
  if 2 ≤ widthOf probe then some (widthOf probe)
  else do
    let third ← byteAt? space a (headWidth + 2)
    let probe := probe + third * 0x100
    if 2 ≤ widthOf probe then return widthOf probe
    let fourth ← byteAt? space a (headWidth + 3)
    let probe := probe + fourth
    if 2 ≤ widthOf probe then return widthOf probe
    none

/-- Unpacks a word in which both halves have a memory field. -/
def withMemoryFields? (space : AddressSpace) (a : Address) (word : Nat) : Option PackedPair := do
  let headWidth := widthOf (headOpcode word * 0x1000000)
  if headWidth < 2 then none
  let tailWidth ← memoryTailWidth? space a (tailOpcode word) headWidth
  let headRest ← space.bytesBetween? a 4 (headWidth + 2)
  let tailRest ← space.bytesBetween? a (headWidth + 2) (headWidth + tailWidth)
  return {
    head := UInt8.ofNat (headOpcode word) :: memoryByte (headField word) :: headRest
    tail := UInt8.ofNat (tailOpcode word) :: memoryByte (tailField word) :: tailRest }

/-- The width of a first half before a short second half. Its first two bytes may settle it;
otherwise the bytes after the word, which stand in its third and fourth places, are consulted in
turn. -/
def shortHeadWidth? (space : AddressSpace) (a : Address) (probe : Nat) : Option Nat :=
  if widthOf probe ≠ 0 then some (widthOf probe)
  else do
    let third ← byteAt? space a 4
    let probe := probe + third * 0x100
    if 3 ≤ widthOf probe then return widthOf probe
    let fourth ← byteAt? space a 5
    let probe := probe + fourth
    if widthOf probe = 4 then return 4
    none

/-- Unpacks a word whose second half is a register instruction of three bytes. -/
def withShortTail? (space : AddressSpace) (a : Address) (word : Nat) : Option PackedPair := do
  let second := word / 0x10000 % 256
  let headWidth ← shortHeadWidth? space a (headOpcode word * 0x1000000 + second * 0x10000)
  let tailFirst := word / 16 % 16 * 16 + 4
  let tailThird := word / 0x1000 % 16 * 16 + word % 16
  if headWidth < 2 ∨ widthOf (tailFirst * 0x1000000 + tailThird * 0x100) ≠ 3 then none
  let headRest ← space.bytesBetween? a 4 (headWidth + 2)
  let tailSecond ← byteAt? space a (headWidth + 2)
  return {
    head := UInt8.ofNat (headOpcode word) :: UInt8.ofNat second :: headRest
    tail := [UInt8.ofNat tailFirst, UInt8.ofNat tailSecond, UInt8.ofNat tailThird] }

/-- The halves of the packed pair at an address, if the word there holds two instructions. -/
def unpack? (space : AddressSpace) (a : Address) : Option PackedPair :=
  match space.readBigEndian a 4 with
  | .error _ => none
  | .ok w =>
    let word := w.toNat
    if 0x80 ≤ tailOpcode word then withMemoryFields? space a word
    else withShortTail? space a word

end PackedPair

end DspCode
