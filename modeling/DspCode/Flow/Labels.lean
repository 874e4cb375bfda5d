import DspCode.Flow.Block
import DspCode.Json.Reader

/-!
# Labels

Names for addresses of walked code. Given names come first; entries and the targets of calls are
named as routines, and the other block starts as places.
-/

namespace DspCode

/-- Names of addresses. -/
abbrev Labels := Std.TreeMap Address String

namespace Labels

/-- The name of a routine at an address. -/
def routineName (a : Address) : String := "sub_" ++ hexPadded 6 a.toNat

/-- The name of a place at an address. -/
def placeName (a : Address) : String := "loc_" ++ hexPadded 6 a.toNat

/-- Names those of the addresses that have no name yet. -/
def nameAll (labels : Labels) (name : Address → String) (addresses : List Address) : Labels :=
  addresses.foldl (fun labels a => labels.insertIfNew a (name a)) labels

/-- The labels of a walk: the given ones, where the last name of an address counts, and one for each
entry, call target and block that has none. -/
def of (given : List (Address × String)) (entries : List Address) (w : Walk)
    (blocks : List Block) : Labels :=
  let calls := (w.edges.toList.filter fun e => e.kind == .call).map Edge.target
  let labels : Labels := Std.TreeMap.ofList given
  ((labels.nameAll routineName entries).nameAll routineName calls).nameAll placeName
    (blocks.map Block.start)

/-- A label in JSON form. -/
def entryOfJson? (value : Json) : Option (Address × String) := do
  match ← value.fields? ["addr", "name"] with
  | [some address, some name] => return (← address.uint32?, ← name.string?)
  | _ => none

/-- The labels in a JSON text. -/
def read? (text : String) : Option (List (Address × String)) := do
  match ← Json.read? text with
  | .array items => items.mapM entryOfJson?
  | _ => none

/-- The JSON form of labels, from the lowest address on. -/
def toJson (labels : Labels) : Json :=
  .array (labels.toList.map fun (a, name) =>
    .ofFields [("addr", .ofNat a.toNat), ("name", .ofString name)])

end Labels

end DspCode
