import DspCode.Context
import DspCode.DecodeError
import DspCode.Draft.Fields
import DspCode.Machine
import DspCode.PairLedger

/-!
# Decoding

Decodes the instruction at an address of an address space. What was learned so far, the pair ledger
and the register context, decides how the bytes are read: at a known second half the pair before it
is unpacked again, everywhere else the bytes are matched with the encodings as they stand.

Decoding as such changes nothing; it says which update of the ledger it asks for.
-/

namespace DspCode

/-- What has been learned about the code: register context and packed pairs. -/
structure Knowledge where
  /-- What registers hold. -/
  context : Context := {}
  /-- Known second halves. -/
  pairs : PairLedger := {}

/-- A decoded instruction and the update it asks for. -/
structure Decoded where
  /-- The instruction. -/
  insn : Instruction
  /-- The update of the pair ledger, if one is needed. -/
  update : Option PairUpdate
  deriving DecidableEq, Repr

/-- The role of an operand in a slot of an instruction with the given usage. -/
def roleOf (usage : Usage) (slot : Nat) (value : OperandValue) : Role :=
  match value, usage.readsSlot slot, usage.writesSlot slot with
  | .target _ _, true, _ => .target
  | _, true, true => .readWrite
  | _, false, true => .write
  | _, true, false => .read
  | _, false, false => .none

/-- Gives each operand before the first free slot its role. -/
def Instruction.withRoles (insn : Instruction) (usage : Usage) : Instruction :=
  let count := insn.operandCount
  { insn with
    operands := insn.operands.mapIdx fun slot op =>
      if slot < count then { op with role := roleOf usage slot op.value } else op }

namespace Machine

/-- The address code distances count from, for an instruction at an address with a length. -/
abbrev NextAddress := Address → Nat → Address

/-- The address after an instruction. -/
def plainNext : NextAddress := fun a length => a + UInt32.ofNat length

/-- What the fields of an instruction read from a window may consult. -/
def surroundings (m : Machine) (context : Context) (next : NextAddress) (w : ByteWindow) :
    Surroundings where
  bytes offset := (w.at? offset).1
  mnemonics := m.mnemonics
  context := context.get
  nextAddress := next
  codeMask := m.codeMask

/-- Builds the instruction of a row that agrees with the bytes of a window; `none` if the encoding
is reserved. -/
def build (m : Machine) (context : Context) (next : NextAddress) (w : ByteWindow)
    (row : Encoding) (word : Nat) : Except DecodeError (Option Instruction) :=
  let draft : Draft := ⟨{ address := w.base, length := row.width, kind := row.kind }, none⟩
  match draft.contributeAll (m.surroundings context next w) word row.fields with
  | .ok insn => .ok insn
  | .error (.unmapped _) => .error (.outOfBounds w.base)
  | .error e => .error (.inconsistent w.base e.message)

/-- Matches the bytes of a window with the encodings and builds the instruction; `none` if there is
no instruction for them. -/
def matchWindow (m : Machine) (context : Context) (next : NextAddress) (w : ByteWindow) :
    Except DecodeError (Option Instruction) :=
  match Encoding.search m.unitBits m.encodings w with
  | (.found row word, w) => m.build context next w row word
  | (.cutOff, w) => .error (.outOfBounds w.base)
  | (.absent, _) => .ok none

/-- The instruction that has exactly the given bytes, placed at an address. -/
def matchExactly (m : Machine) (space : AddressSpace) (context : Context) (next : NextAddress)
    (a : Address) (bytes : List UInt8) : Except DecodeError (Option Instruction) :=
  match m.matchWindow context next (.primed space a bytes) with
  | .ok (some insn) => .ok (if insn.length = bytes.length then some insn else none)
  | .ok none => .ok none
  | .error (.outOfBounds _) => .ok none
  | .error e => .error e

/-- Completes an instruction matched at its own address: parallel mark and qualifier byte. -/
def finishPlain (m : Machine) (space : AddressSpace) (first : UInt8) (insn : Instruction) :
    Instruction :=
  let insn := m.settle insn
  let insn :=
    if m.isParallel first then { insn with marks := { insn.marks with parallel := true } }
    else insn
  match space insn.limit with
  | some b => (m.qualify? insn b).getD insn
  | none => insn

/-- Decodes the first half of the packed pair at an address. Both halves have to be instructions. -/
def decodeHead (m : Machine) (space : AddressSpace) (context : Context) (next : NextAddress)
    (a : Address) : Except DecodeError Decoded := do
  let some pair := m.unpack? space a | throw (.malformedPair a)
  let some insn ← m.matchExactly space context next a pair.head | throw (.malformedPair a)
  let tail := insn.limit
  let some _ ← m.matchExactly space context next tail pair.tail | throw (.malformedPair a)
  let insn := (m.settle insn).withHalf (.head tail)
  return ⟨insn, some (.record tail insn.length)⟩

/-- Decodes the first half of a packed pair; bytes that do not split into a pair are no
instruction. -/
def decodePacked (m : Machine) (space : AddressSpace) (context : Context) (next : NextAddress)
    (a : Address) : Except DecodeError Decoded :=
  match m.decodeHead space context next a with
  | .error (.malformedPair b) => .error (.unrecognized b)
  | outcome => outcome

/-- Decodes an address that is not a known second half. A packed pair is looked for only where no
encoding agrees. -/
def decodePlain (m : Machine) (space : AddressSpace) (context : Context) (next : NextAddress)
    (a : Address) : Except DecodeError Decoded :=
  match space a with
  | none => .error (.outOfBounds a)
  | some first =>
    match m.matchWindow context next (.new space a) with
    | .ok (some insn) => .ok ⟨m.finishPlain space first insn, some (.clear insn.limit)⟩
    | .ok none =>
      if m.isPairMarker first then m.decodePacked space context next a
      else .error (.unrecognized a)
    | .error (.outOfBounds b) =>
      if m.isPairMarker first then m.decodePacked space context next a
      else .error (.outOfBounds b)
    | .error e => .error e

/-- Decodes the second half at an address, after a first half of `headLength` bytes. The pair before
it still has to unpack into halves of these lengths. -/
def decodeTail (m : Machine) (space : AddressSpace) (context : Context) (next : NextAddress)
    (a : Address) (headLength : Nat) : Except DecodeError Decoded := do
  let head := a - UInt32.ofNat headLength
  let some pair := m.unpack? space head | throw (.unrecognized a)
  if pair.head.length ≠ headLength then throw (.unrecognized a)
  let some insn ← m.matchExactly space context next a pair.tail | throw (.unrecognized a)
  let insn := m.settle insn
  let insn := { insn with marks := { insn.marks with parallel := true } }
  return ⟨insn.withHalf (.tail head), none⟩

/-- Decodes an address, with code distances counted from where `next` says. -/
def decodeWith (m : Machine) (space : AddressSpace) (k : Knowledge) (next : NextAddress)
    (a : Address) : Except DecodeError Decoded := do
  let decoded ←
    match k.pairs.headLength? a with
    | some headLength => m.decodeTail space k.context next a headLength
    | none => m.decodePlain space k.context next a
  return { decoded with
    insn := decoded.insn.withRoles (usageOf m.mnemonics decoded.insn.kind) }

/-- The length of the instruction at an address that runs in parallel with the one before it; zero
if there is none. -/
def partnerLength (m : Machine) (space : AddressSpace) (k : Knowledge) (a : Address) : Nat :=
  match space a with
  | none => 0
  | some first =>
    if m.isParallel first then
      match m.decodeWith space k plainNext a with
      | .ok decoded => decoded.insn.length
      | .error _ => 0
    else 0

/-- The address code distances count from: after the instruction, and after the one in parallel with
it if it is short enough to have one. -/
def nextAddress (m : Machine) (space : AddressSpace) (k : Knowledge) : NextAddress :=
  fun a length =>
    let next := a + UInt32.ofNat length
    if 3 < length then next else next + UInt32.ofNat (m.partnerLength space k next)

/-- Decodes an address. -/
def decode (m : Machine) (space : AddressSpace) (k : Knowledge) (a : Address) :
    Except DecodeError Decoded :=
  m.decodeWith space k (m.nextAddress space k) a

/-- Decodes an address and makes the update of the ledger that the instruction asks for. -/
def decodeAndRecord (m : Machine) (space : AddressSpace) (k : Knowledge) (a : Address) :
    Except DecodeError Instruction × Knowledge :=
  match m.decode space k a with
  | .error e => (.error e, k)
  | .ok ⟨insn, none⟩ => (.ok insn, k)
  | .ok ⟨insn, some update⟩ => (.ok insn, { k with pairs := k.pairs.apply update })

end Machine

end DspCode
