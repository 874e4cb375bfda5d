import DspCode.AddressSpace

/-!
# Images

A loaded program: named segments of bytes. The first segment that contains an address holds its
byte. A segment that would reach the top of the address space contains no address.
-/

namespace DspCode

/-- A run of bytes of an image. -/
structure Segment where
  /-- The segment's name. -/
  name : String
  /-- The address of its first byte. -/
  base : Address
  /-- Its bytes. -/
  bytes : Array UInt8
  /-- Access permissions, as listed. -/
  permissions : String
  /-- Where the bytes come from, as listed. -/
  kind : String
  deriving DecidableEq, Repr

namespace Segment

/-- The address after the last byte. -/
def limit (s : Segment) : Address := s.base + UInt32.ofNat s.bytes.size

/-- Whether the segment covers an address. -/
def contains (s : Segment) (a : Address) : Bool := s.base ≤ a && a < s.limit

/-- An executable segment of raw bytes. -/
def raw (name : String) (base : Address) (bytes : Array UInt8) : Segment :=
  ⟨name, base, bytes, "r-x", "raw"⟩

end Segment

/-- A loaded program. -/
structure Image where
  /-- The segments, in the order in which they are searched. -/
  segments : List Segment
  deriving DecidableEq, Repr

/-- Why a file cannot be loaded. -/
inductive LoadError where
  /-- More bytes are to be skipped than the file has. -/
  | skipTooLarge
  /-- More bytes are to be loaded than follow the skipped ones. -/
  | lengthTooLarge
  deriving DecidableEq, Repr

/-- The wording of a load error. -/
def LoadError.message : LoadError → String
  | .skipTooLarge => "--skip exceeds file size"
  | .lengthTooLarge => "--len exceeds remaining file size after skip"

namespace Image

/-- The address space of an image. -/
def space (image : Image) : AddressSpace := fun a =>
  (image.segments.find? (·.contains a)).bind fun s => s.bytes[(a - s.base).toNat]?

/-- The image of one segment of raw bytes. -/
def ofBytes (base : Address) (bytes : Array UInt8) : Image := ⟨[.raw "segment0" base bytes]⟩

/-- Loads a file at a base address, without its first `skip` bytes and cut to `length` bytes. -/
def load (file : Array UInt8) (base : Address) (skip : Nat) (length? : Option Nat) :
    Except LoadError Image :=
  if file.size < skip then .error .skipTooLarge
  else
    match length? with
    | none => .ok (ofBytes base (file.extract skip file.size))
    | some length =>
      if file.size - skip < length then .error .lengthTooLarge
      else .ok (ofBytes base (file.extract skip (skip + length)))

end Image

end DspCode
