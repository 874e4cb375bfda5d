import DspCode.Flow.Labels
import DspCode.Flow.Routine
import DspCode.Json.Printer
import DspCode.Listing
import DspCode.Text.Blank

/-!
# Reports

What a walk found, put together: blocks, edges, routines and labels. A report is printed as text,
with a listing of the visited instructions if asked for, or in JSON form.
-/

namespace DspCode

/-- The outcome of a walk with all that follows from it. -/
structure Report where
  /-- How registers are named and reset. -/
  settings : Settings
  /-- The code. -/
  space : AddressSpace
  /-- The entries. -/
  entries : List Address
  /-- The walk from the entries. -/
  walk : Walk
  /-- Its blocks. -/
  blocks : List Block
  /-- The edges between the blocks. -/
  edges : List Edge
  /-- The routine of each entry. -/
  routines : List Routine
  /-- The labels. -/
  labels : Labels

namespace Report

/-- The report on code walked from its entries, with the given labels. -/
def of (settings : Settings) (space : AddressSpace) (entries : List Address) (limit : Nat)
    (given : List (Address × String)) : Report :=
  let walk := Walk.of settings space entries limit
  let blocks := walk.blocks entries
  let edges := walk.blockEdges blocks
  { settings, space, entries, walk, blocks, edges
    routines := entries.map (Routine.of edges)
    labels := Labels.of given entries walk blocks }

/-- How a report prints instructions: with the context at the end of the walk. -/
def printer (r : Report) : Printer where
  settings := r.settings
  context := r.walk.known.context
  label? := fun a => r.labels[a]?

/-- The line of the instruction at an address, without blanks at its end. -/
def line? (r : Report) (showBytes : Bool) (a : Address) : Option String :=
  match Machine.c55x.decode r.space r.walk.known a with
  | .error _ => none
  | .ok decoded =>
    let bytes := if showBytes then some (r.space.mappedBytes a decoded.insn.length) else none
    let line := Listing.line a bytes (r.printer.render decoded.insn)
    some (String.ofList (Text.trimEnd line.toList))

/-- The visited instruction at an address in a listing: its label and its line. -/
def listed (r : Report) (showBytes : Bool) (a : Address) : String :=
  let label :=
    match r.labels[a]? with
    | some name => addressText a ++ " <" ++ name ++ ">:\n"
    | none => ""
  let line :=
    match r.line? showBytes a with
    | some line => "  " ++ Listing.indented 2 line ++ "\n"
    | none => ""
  label ++ line

/-- A list of addresses in brackets, each in quotes. -/
def addressList (addresses : List Address) : String :=
  "[" ++ ", ".intercalate (addresses.map fun a => "\"" ++ addressText a ++ "\"") ++ "]"

/-- The counts of a report, its routines and its edges. -/
def summary (r : Report) : String :=
  let routine (f : Routine) :=
    "  " ++ addressText f.entry ++ " blocks=" ++ decimalText f.blocks.length ++ "\n"
  let edge (e : Edge) :=
    "  " ++ addressText e.source ++ " -> " ++ addressText e.target ++ " (" ++ e.kind.tag ++ ")\n"
  "Analysis summary:\n" ++
    "  entries   : " ++ addressList r.entries ++ "\n" ++
    "  insts     : " ++ decimalText r.walk.widths.size ++ "\n" ++
    "  blocks    : " ++ decimalText r.blocks.length ++ "\n" ++
    "  edges     : " ++ decimalText r.walk.edges.size ++ "\n" ++
    "  functions : " ++ decimalText r.routines.length ++ "\n" ++
    "Functions:\n" ++ String.join (r.routines.map routine) ++
    "Edges:\n" ++ String.join (r.edges.map edge)

/-- The listing of all visited instructions. -/
def listing (r : Report) (showBytes : Bool) : String :=
  "\nListing (analyzed PCs):\n" ++ String.join (r.walk.visited.map (r.listed showBytes))

/-- An address in JSON form. -/
def addressJson (a : Address) : Json := .ofNat a.toNat

/-- The JSON form of a report. -/
def toJson (r : Report) (showBytes : Bool) : Json :=
  let block (b : Block) : Json := .ofFields [("start", addressJson b.start),
    ("end", addressJson b.stop),
    ("insns", .array (((r.walk.addresses b).filterMap (r.line? showBytes)).map .ofString))]
  let edge (e : Edge) : Json := .ofFields [("from", addressJson e.source),
    ("to", addressJson e.target), ("kind", .ofString e.kind.tag)]
  let routine (f : Routine) : Json := .ofFields [("entry", addressJson f.entry),
    ("blocks", .array (f.blocks.map addressJson))]
  .ofFields [("entries", .array (r.entries.map addressJson)),
    ("blocks", .array (r.blocks.map block)), ("edges", .array (r.edges.map edge)),
    ("functions", .array (r.routines.map routine)), ("labels", r.labels.toJson)]

end Report

end DspCode
