import DspCode.AddressSpace.Region
import DspCode.Listing

/-!
# Surveys

A survey goes over all bytes of a file in one pass, lists what it finds, and counts how many of them
are code and how many are data. Bytes that start no instruction are taken from the file itself.
-/

namespace DspCode

/-- What a survey has found, up to the address it has come to. -/
structure Survey where
  /-- The lines printed so far. -/
  listing : String
  /-- The instructions in order. -/
  decoded : Array Instruction
  /-- How many packed pairs there are: one for each first half. -/
  pairCount : Nat
  /-- How many bytes are data. -/
  dataCount : Nat
  /-- For each byte of the file, whether it belongs to an instruction. -/
  covered : Array Bool
  /-- The address it has come to. -/
  stop : Address
  /-- Why it was given up, if it was. -/
  failure? : Option DecodeError
  deriving DecidableEq, Repr

namespace Survey

/-- A survey of so many bytes that has not begun. -/
def start (size : Nat) (a : Address) : Survey :=
  ⟨"", #[], 0, 0, Array.replicate size false, a, none⟩

/-- Marks `count` bytes from an offset on, as far as there are so many. -/
def cover (covered : Array Bool) (offset count : Nat) : Array Bool :=
  (List.range' offset count).foldl (fun marks i => marks.setIfInBounds i true) covered

/-- Whether an instruction is the first half of a packed pair. -/
def isHead (insn : Instruction) : Bool :=
  match insn.half? with
  | some (.head _) => true
  | _ => false

/-- The line of an instruction. Further lines of its text are indented by ten places. -/
def codeLine (a : Address) (text : String) : String :=
  addressText a ++ ": " ++ Listing.indented 10 text ++ "\n"

/-- The line of a data byte. -/
def dataLine (a : Address) (byte : UInt8) : String :=
  addressText a ++ ": .byte " ++ byteText byte ++ "\n"

/-- Takes up the instruction at an address. Its bytes are marked up to the end of the file. -/
def addCode (s : Survey) (base a : Address) (insn : Instruction) (text : String) : Survey :=
  let offset := (a - base).toNat
  { s with
    listing := s.listing ++ codeLine a text
    decoded := s.decoded.push insn
    pairCount := if isHead insn then s.pairCount + 1 else s.pairCount
    covered := cover s.covered offset (min insn.length (s.covered.size - offset)) }

/-- Takes up the data byte at an address. -/
def addData (s : Survey) (a : Address) (byte : UInt8) : Survey :=
  { s with listing := s.listing ++ dataLine a byte, dataCount := s.dataCount + 1 }

/-- Goes on from an address while it lies before the end of the region. An instruction is printed
with the context before it, and its effects hold afterwards. A round that does not lead to a higher
address is the last. -/
def extend (settings : Settings) (region : Region) (k : Knowledge) (a : Address)
    (hbase : region.base ≤ a) (s : Survey) : Survey :=
  if hbefore : a < region.limit then
    match Machine.c55x.decodeAndRecord region.space k a with
    | (.ok insn, k) =>
      let printer : Printer := { settings, context := k.context }
      let s := s.addCode region.base a insn (printer.render insn)
      let effects := Effects.of insn (usageOf Form.mnemonics insn.kind) k.context
      let k := { k with context := effects.apply k.context }
      if hnext : a < insn.limit then
        extend settings region k insn.limit (UInt32.le_trans hbase (UInt32.le_of_lt hnext)) s
      else { s with stop := insn.limit }
    | (.error e, k) =>
      if e.isRecoverable then
        have := region.toNat_sub_base_lt hbase hbefore
        let s := s.addData a region.bytes[(a - region.base).toNat]
        if hnext : a < a + 1 then
          extend settings region k (a + 1) (UInt32.le_trans hbase (UInt32.le_of_lt hnext)) s
        else { s with stop := a + 1 }
      else { s with stop := a, failure? := some e }
  else { s with stop := a }
  termination_by UInt32.size - a.toNat
  decreasing_by
  · have h : a.toNat < insn.limit.toNat := hnext
    have := insn.limit.toNat_lt_size
    omega
  · have h : a.toNat < (a + 1).toNat := hnext
    have := (a + 1).toNat_lt_size
    omega

/-- Surveys a region. -/
def of (settings : Settings) (region : Region) : Survey :=
  extend settings region settings.knowledge region.base (UInt32.le_refl _)
    (start region.bytes.size region.base)

/-- The instructions of a survey. -/
def instructions (s : Survey) : List Instruction := s.decoded.toList

/-- How many bytes belong to instructions. -/
def coveredCount (s : Survey) : Nat := s.covered.count true

/-- The counts of a survey. -/
def summary (s : Survey) : String :=
  "instructions : " ++ decimalText s.instructions.length ++ "\n" ++
    "packed pairs : " ++ decimalText s.pairCount ++ "\n" ++
    "code bytes   : " ++ decimalText s.coveredCount ++ "/" ++ decimalText s.covered.size ++ "\n" ++
    "data bytes   : " ++ decimalText s.dataCount ++ "\n"

end Survey

end DspCode
