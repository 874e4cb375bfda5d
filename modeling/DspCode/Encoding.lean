import DspCode.ByteWindow
import DspCode.Field

/-!
# Encodings

An encoding fixes some bits of a code word and lists the fields in the others. A code word is read
unit by unit, one unit from each byte. Encodings are searched in table order, and the first one
whose units all agree is taken.
-/

namespace DspCode

/-- A row of an encoding table. -/
structure Encoding where
  /-- The values of the fixed bits. -/
  code : Nat
  /-- Which bits are fixed. -/
  mask : Nat
  /-- How many units the code word has. -/
  width : Nat
  /-- The kind of the instruction. -/
  kind : Kind
  /-- The fields, in the order in which they contribute. -/
  fields : List FieldUse
  deriving DecidableEq, Repr

/-- What comparing a row with the bytes of a window gives. -/
inductive RowMatch where
  /-- All units agree; the code word they make up. -/
  | full (word : Nat)
  /-- Some unit differs, or lies past the end of the window. -/
  | differs
  /-- All units before an unmapped byte agree. -/
  | cutOff
  deriving DecidableEq, Repr

/-- What a search of a table gives. -/
inductive SearchResult where
  /-- The first row that agrees, and its code word. -/
  | found (row : Encoding) (word : Nat)
  /-- No row agrees, but some row agrees up to an unmapped byte. -/
  | cutOff
  /-- No row agrees. -/
  | absent
  deriving DecidableEq, Repr

namespace Encoding

/-- A row of the processor's table. -/
def row (code mask width : Nat) (form : Form) (fields : List FieldUse) : Encoding :=
  ⟨code, mask, width, form.kind, fields⟩

/-- The low `unit` bits of a byte. -/
def unitOf (unit : Nat) (b : UInt8) : Nat := b.toNat % (1 <<< unit)

/-- Whether a byte agrees with the fixed bits of the unit that `after` more units follow. -/
def unitAgrees (e : Encoding) (unit after : Nat) (b : UInt8) : Bool :=
  let mask := e.mask >>> (after * unit) % (1 <<< unit)
  (e.code >>> (after * unit) % (1 <<< unit)) &&& mask == unitOf unit b &&& mask

/-- Reads the last `left` units of a row from a window, after the units that make up `word`. -/
def readUnits (e : Encoding) (unit : Nat) :
    (left : Nat) → (word : Nat) → ByteWindow → RowMatch × ByteWindow
  | 0, word, w => (.full word, w)
  | left + 1, word, w =>
    match w.next with
    | (.error (.unmapped _), w) => (.cutOff, w)
    | (.error .exhausted, w) => (.differs, w)
    | (.ok b, w) =>
      if e.unitAgrees unit left b then
        readUnits e unit left ((word <<< unit) + unitOf unit b) w
      else (.differs, w)

/-- Compares a row with the bytes of a window from its base on. -/
def compareRow (e : Encoding) (unit : Nat) (w : ByteWindow) : RowMatch × ByteWindow :=
  e.readUnits unit e.width 0 w.reset

/-- Searches rows in order; `cut` tells whether an earlier row was cut off. -/
def searchFrom (unit : Nat) (cut : Bool) :
    List Encoding → ByteWindow → SearchResult × ByteWindow
  | [], w => (if cut then .cutOff else .absent, w)
  | e :: rest, w =>
    match e.compareRow unit w with
    | (.full word, w) => (.found e word, w)
    | (.cutOff, w) => searchFrom unit true rest w
    | (.differs, w) => searchFrom unit cut rest w

/-- The first row of a table that agrees with the bytes of a window. -/
def search (unit : Nat) (table : List Encoding) (w : ByteWindow) : SearchResult × ByteWindow :=
  searchFrom unit false table w

/-- Whether a row of at most four bytes agrees with a word of four bytes, aligned at the top. -/
def agreesWithWord (e : Encoding) (word : Nat) : Bool :=
  e.width ≤ 4 && e.mask &&& (word >>> (8 * (4 - e.width))) == e.code

/-- The width of the first row of at most four bytes that agrees with a word of four bytes, aligned
at the top; zero if there is none. -/
def leadingWidth (table : List Encoding) (word : Nat) : Nat :=
  match table.find? (·.agreesWithWord word) with
  | some e => e.width
  | none => 0

end Encoding

end DspCode
