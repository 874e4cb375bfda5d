import DspCode.Mnemonic

/-!
# Renamings

A bit of the code can ask for a longer name of the same instruction, such as its rounding form. The
renamed row stands later in the mnemonic table, in the first run of rows with the longer names, and
uses its operands in the same way.
-/

namespace DspCode

/-- A request for a longer name. -/
structure Renaming where
  /-- The text to append. -/
  suffix : String
  /-- Second names are compared too. -/
  twoLines : Bool
  /-- The first name gets the suffix. -/
  first : Bool
  /-- The second name gets the suffix. -/
  second : Bool
  deriving DecidableEq, Repr

/-- No row answers a renaming. -/
structure RenamingError where
  /-- The kind that was to be renamed. -/
  kind : Kind
  /-- The names looked for, or the bare suffix if the kind itself is not in the table. -/
  wanted : String
  deriving DecidableEq, Repr

/-- The wording of a renaming error. -/
def RenamingError.message (e : RenamingError) : String :=
  "kind " ++ decimalText e.kind ++ " has no `" ++ e.wanted ++
    "` sibling with the same operand features"

namespace Renaming

/-- The first name asked for, given the present one. -/
def firstName (r : Renaming) (m : Mnemonic) : String :=
  if r.first then m.name ++ r.suffix else m.name

/-- The second name asked for, given the present one; no second name counts as the empty name. -/
def secondName (r : Renaming) (m : Mnemonic) : String :=
  if r.second then m.second.getD "" ++ r.suffix else m.second.getD ""

/-- Whether `n` still has the names of `m`. -/
def keeps (r : Renaming) (m n : Mnemonic) : Bool :=
  n.name == m.name && (!r.twoLines || n.second == m.second)

/-- Whether `n` has the names asked for, starting from `m`. -/
def reaches (r : Renaming) (m n : Mnemonic) : Bool :=
  n.name == r.firstName m && (!r.twoLines || n.second.getD "" == r.secondName m)

/-- The names asked for, as they are reported when no row has them. -/
def wanted (r : Renaming) (m : Mnemonic) : String :=
  if r.twoLines then r.firstName m ++ "::" ++ r.secondName m else r.firstName m

/-- The rows after `kind`, each with its own kind. -/
def rowsAfter (mnemonics : Array Mnemonic) (kind : Kind) : List (Mnemonic × Kind) :=
  (mnemonics.toList.zipIdx 0).drop (kind + 1)

/-- The first run of rows with the names asked for, past the rows that keep the names of `m`. -/
def run (r : Renaming) (m : Mnemonic) (rows : List (Mnemonic × Kind)) : List (Mnemonic × Kind) :=
  ((rows.dropWhile (r.keeps m ·.1)).dropWhile (!r.reaches m ·.1)).takeWhile (r.reaches m ·.1)

/-- The kind of the row that answers the renaming of `kind`: the first one in the run of the names
asked for that uses its operands as `kind` does. -/
def apply (r : Renaming) (mnemonics : Array Mnemonic) (kind : Kind) : Except RenamingError Kind :=
  match mnemonics[kind]? with
  | none => .error ⟨kind, r.suffix⟩
  | some m =>
    match (r.run m (rowsAfter mnemonics kind)).find? (·.1.usage == m.usage) with
    | some (_, renamed) => .ok renamed
    | none => .error ⟨kind, r.wanted m⟩

end Renaming

end DspCode
