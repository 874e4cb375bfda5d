import DspCode.Numeral

/-!
# Address spaces

An address space says which 32-bit addresses hold a byte, and which byte. Address arithmetic wraps
at the top.
-/

namespace DspCode

/-- A 32-bit address, one byte each. -/
abbrev Address := UInt32

/-- The byte at each mapped address; `none` where nothing is mapped. -/
abbrev AddressSpace := Address → Option UInt8

/-- An access met an address at which nothing is mapped. -/
structure Unmapped where
  /-- The address that is not mapped. -/
  address : Address
  deriving DecidableEq, Repr

/-- The wording of an access to an unmapped address. -/
def Unmapped.message (e : Unmapped) : String := "Unmapped address " ++ addressText e.address

namespace AddressSpace

/-- Whether an address holds a byte. -/
def isMapped (space : AddressSpace) (a : Address) : Bool := (space a).isSome

/-- The byte at an address, or the address itself as the fault. -/
def read (space : AddressSpace) (a : Address) : Except Unmapped UInt8 :=
  match space a with
  | some b => .ok b
  | none => .error ⟨a⟩

/-- Appends the `n` bytes from `a` on to the low end of `value`; bits past 32 drop out. -/
def appendBigEndian (space : AddressSpace) (a : Address) (value : UInt32) :
    Nat → Except Unmapped UInt32
  | 0 => .ok value
  | n + 1 =>
    match space a with
    | none => .error ⟨a⟩
    | some b => appendBigEndian space (a + 1) ((value <<< 8) ||| b.toUInt32) n

/-- The number whose big-endian digits are the `n` bytes from `a` on, kept to 32 bits. -/
def readBigEndian (space : AddressSpace) (a : Address) (n : Nat) : Except Unmapped UInt32 :=
  appendBigEndian space a 0 n

/-- The mapped ones among the `n` bytes from `a` on. -/
def mappedBytes (space : AddressSpace) (a : Address) (n : Nat) : List UInt8 :=
  (List.range n).filterMap fun i => space (a + UInt32.ofNat i)

/-- All bytes at the offsets `lo ≤ i < hi` after `a`, if every one of them is mapped. -/
def bytesBetween? (space : AddressSpace) (a : Address) (lo hi : Nat) : Option (List UInt8) :=
  (List.range' lo (hi - lo)).mapM fun i => space (a + UInt32.ofNat i)

end AddressSpace

end DspCode
