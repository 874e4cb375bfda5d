import DspCode.Instruction

/-!
# Mnemonics

Rows of a mnemonic table. A row names one kind of instruction and says which operand slots it reads
and writes, whether execution goes on after it, and whether it calls.
-/

namespace DspCode

/-- How a kind of instruction uses its operand slots and directs execution. -/
structure Usage where
  /-- The slots that are read, one bit each. -/
  reads : BitVec 6 := 0
  /-- The slots that are written, one bit each. -/
  writes : BitVec 6 := 0
  /-- Execution does not go on with the next instruction. -/
  stops : Bool := false
  /-- Code targets are called. -/
  calls : Bool := false
  deriving DecidableEq, Repr

namespace Usage

/-- The bit set of a list of slots. -/
def slots (l : List Nat) : BitVec 6 := l.foldl (fun s slot => s ||| BitVec.twoPow 6 slot) 0

/-- Reads and writes the listed slots. -/
def of (reads writes : List Nat) : Usage := { reads := slots reads, writes := slots writes }

/-- The same slots, without going on. -/
def stopping (u : Usage) : Usage := { u with stops := true }

/-- The same slots, with calls. -/
def calling (u : Usage) : Usage := { u with calls := true }

/-- Whether a slot is read. -/
def readsSlot (u : Usage) (slot : Nat) : Bool := u.reads.getLsbD slot

/-- Whether a slot is written. -/
def writesSlot (u : Usage) (slot : Nat) : Bool := u.writes.getLsbD slot

end Usage

/-- A row of a mnemonic table. -/
structure Mnemonic where
  /-- The name on the first line. -/
  name : String
  /-- The name on the second line, for mnemonics of two lines. -/
  second : Option String
  /-- The use of operands and the direction of execution. -/
  usage : Usage
  deriving DecidableEq, Repr

/-- Whether two rows have the same names on both lines. -/
def Mnemonic.sameNames (m n : Mnemonic) : Bool := m.name == n.name && m.second == n.second

/-- The usage of a kind; a kind outside the table uses nothing. -/
def usageOf (mnemonics : Array Mnemonic) (kind : Kind) : Usage :=
  match mnemonics[kind]? with
  | some m => m.usage
  | none => {}

end DspCode
