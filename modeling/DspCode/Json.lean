/-!
# JSON values

Values of the files and reports in JSON form. Numbers keep their written form.
-/

namespace DspCode

/-- A JSON value. A text is `none` if its escapes leave half of a surrogate pair on its own: such a
text is well formed but stands for no characters. -/
inductive Json where
  /-- The null value. -/
  | null
  /-- A truth value. -/
  | bool (value : Bool)
  /-- A number, as it is written. -/
  | number (written : String)
  /-- A text. -/
  | text (value : Option String)
  /-- A list of values. -/
  | array (items : List Json)
  /-- Named values, in the order in which they are written. -/
  | object (members : List (Option String × Json))
  deriving Inhabited, Repr

namespace Json

/-- The value of a text. -/
def ofString (s : String) : Json := .text (some s)

/-- The value of a natural number. -/
def ofNat (n : Nat) : Json := .number (String.ofList (Nat.toDigits 10 n))

/-- An object with the given names. -/
def ofFields (fields : List (String × Json)) : Json :=
  .object (fields.map fun (name, value) => (some name, value))

/-- The truth value, if the value is one. -/
def bool? : Json → Option Bool
  | .bool value => some value
  | _ => none

/-- The characters of a text, if the value is a text that stands for some. -/
def string? : Json → Option String
  | .text value => value
  | _ => none

/-- The number, if the value is a natural number below 2³² written in digits alone. -/
def uint32? : Json → Option UInt32
  | .number written =>
    let digits := written.toList
    if digits.all Char.isDigit then
      let value := digits.foldl (fun n c => n * 10 + (c.toNat - '0'.toNat)) 0
      if value < UInt32.size then some (UInt32.ofNat value) else none
    else none
  | _ => none

/-- The value with a name among named values: at most one may have it. -/
def member? (members : List (Option String × Json)) (name : String) : Option (Option Json) :=
  match members.filter (·.1 == some name) with
  | [] => some none
  | [(_, value)] => some (some value)
  | _ => none

/-- The values of the named fields of a record, each of which may be missing. A record is an object,
whose other names are passed over, or a list of the values from the first field on. -/
def fields? (names : List String) : Json → Option (List (Option Json))
  | .object members =>
    if members.all (·.1.isSome) then names.mapM (member? members) else none
  | .array items =>
    if items.length ≤ names.length then
      some (items.map some ++ List.replicate (names.length - items.length) none)
    else none
  | _ => none

end Json

end DspCode
