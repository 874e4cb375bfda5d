import DspCode.AddressSpace
import Std.Data.TreeMap

/-!
# The pair ledger

Which addresses are known to hold the second half of a packed pair, and how long the first half
before each of them is.
-/

namespace DspCode

/-- What decoding an instruction asks of the ledger. -/
inductive PairUpdate where
  /-- The second half at `tail` follows a first half of `headLength` bytes. -/
  | record (tail : Address) (headLength : Nat)
  /-- A plain instruction ends at `tail`, so no second half is there. -/
  | clear (tail : Address)
  deriving DecidableEq, Repr

/-- The known second halves: the length of the first half by the address of the second. -/
structure PairLedger where
  /-- The entries. -/
  entries : Std.TreeMap Address Nat := ∅

namespace PairLedger

/-- The ledger without entries. -/
def empty : PairLedger := {}

/-- The length of the first half before a known second half. -/
def headLength? (l : PairLedger) (tail : Address) : Option Nat := l.entries[tail]?

/-- Enters a second half. -/
def record (l : PairLedger) (tail : Address) (headLength : Nat) : PairLedger :=
  ⟨l.entries.insert tail headLength⟩

/-- Forgets the second half at an address. -/
def clear (l : PairLedger) (tail : Address) : PairLedger := ⟨l.entries.erase tail⟩

/-- Makes the change that an update asks for. -/
def apply (l : PairLedger) : PairUpdate → PairLedger
  | .record tail headLength => l.record tail headLength
  | .clear tail => l.clear tail

/-- Forgets every second half whose first half starts at `head`. -/
def forgetHead (l : PairLedger) (head : Address) : PairLedger :=
  ⟨l.entries.filter fun tail length => tail - UInt32.ofNat length != head⟩

/-- How many second halves are known. -/
def size (l : PairLedger) : Nat := l.entries.size

end PairLedger

end DspCode
