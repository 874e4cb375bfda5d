import DspCode.Step

/-!
# Listings

A scan reads code from one address to another in one pass and cuts it into pieces, instructions and
single data bytes. A listing prints one piece after the other.
-/

namespace DspCode

/-- A piece of scanned code. -/
inductive Piece where
  /-- An instruction, with its text. -/
  | code (insn : Instruction) (text : String)
  /-- A byte that starts no instruction. -/
  | data (address : Address) (byte : UInt8)
  deriving DecidableEq, Repr

namespace Piece

/-- Where a piece starts. -/
def address : Piece → Address
  | .code insn _ => insn.address
  | .data a _ => a

/-- How many bytes a piece takes. -/
def length : Piece → Nat
  | .code insn _ => insn.length
  | .data _ _ => 1

/-- The text of a piece. -/
def text : Piece → String
  | .code _ text => text
  | .data _ byte => ".byte " ++ byteText byte

end Piece

/-- Why a scan ended. -/
inductive ScanEnd where
  /-- The last address was reached. -/
  | reached
  /-- There is no byte at the next address. -/
  | unmapped
  /-- Decoding failed for good. -/
  | failed (error : DecodeError)
  deriving DecidableEq, Repr

/-- A finished scan. -/
structure Scan where
  /-- The pieces in order. -/
  pieces : List Piece
  /-- The address after the last piece. -/
  stop : Address
  /-- Why there is no further piece. -/
  ending : ScanEnd
  deriving DecidableEq, Repr

namespace Scan

/-- Scans from an address on, after the pieces in `done`, which are listed last first. A piece that
does not lead to a higher address is the last. -/
def extend (settings : Settings) (space : AddressSpace) (stop : Address) (k : Knowledge)
    (a : Address) (done : List Piece) : Scan :=
  if a < stop then
    match Step.take settings space k a with
    | (.ok step, k) =>
      let done := .code step.insn step.text :: done
      if a < step.insn.limit then Scan.extend settings space stop k step.insn.limit done
      else ⟨done.reverse, step.insn.limit, .reached⟩
    | (.error e, k) =>
      if e.isRecoverable then
        match space a with
        | none => ⟨done.reverse, a, .unmapped⟩
        | some byte =>
          let done := .data a byte :: done
          if a < a + 1 then Scan.extend settings space stop k (a + 1) done
          else ⟨done.reverse, a + 1, .reached⟩
      else ⟨done.reverse, a, .failed e⟩
  else ⟨done.reverse, a, .reached⟩
  termination_by UInt32.size - a.toNat
  decreasing_by
  · have h : a.toNat < step.insn.limit.toNat := by assumption
    have := step.insn.limit.toNat_lt_size
    omega
  · have h : a.toNat < (a + 1).toNat := by assumption
    have := (a + 1).toNat_lt_size
    omega

/-- Scans an address space between two addresses. -/
def of (settings : Settings) (space : AddressSpace) (start stop : Address) : Scan :=
  Scan.extend settings space stop settings.knowledge start []

end Scan

namespace Listing

/-- Indents the lines of a text after the first. -/
def indented (places : Nat) (text : String) : String :=
  let pad := String.ofList (List.replicate places ' ')
  String.join (text.toList.map fun c => if c = '\n' then "\n" ++ pad else String.singleton c)

/-- A line of a listing: the address, the bytes if they are shown, and the text. Further lines of
the text are indented to stand below its first. -/
def line (a : Address) (bytes : Option (List UInt8)) (text : String) : String :=
  let columns :=
    match bytes with
    | none => ""
    | some bytes => String.join (bytes.map fun b => hexPadded 2 b.toNat ++ " ") ++ "  "
  let head := addressText a ++ ": " ++ columns
  head ++ indented head.length text ++ "\n"

/-- The line of a piece. -/
def pieceLine (space : AddressSpace) (showBytes : Bool) (p : Piece) : String :=
  let bytes := if showBytes then some (space.mappedBytes p.address p.length) else none
  line p.address bytes p.text

/-- The listing of an address space between two addresses. It ends early at an address that is not
mapped. -/
def render (settings : Settings) (space : AddressSpace) (start stop : Address)
    (showBytes : Bool) : Except DecodeError String :=
  let scan := Scan.of settings space start stop
  let lines := String.join (scan.pieces.map (pieceLine space showBytes))
  match scan.ending with
  | .reached => .ok lines
  | .unmapped => .ok (lines ++ addressText scan.stop ++ ": <oob>\n")
  | .failed e => .error e

end Listing

end DspCode
