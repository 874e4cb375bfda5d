import DspCode.Json
import DspCode.Numeral.Reading

/-!
# Reading JSON

Reads JSON text one character at a time: a reader is the stack of containers that are still open
and what is expected next, and reading is a fold of its one-character step. Nesting is not limited.
-/

namespace DspCode.Json

/-- How much of a number has been read. -/
inductive NumberPart where
  | minus | zero | whole | point | fraction | exponent | exponentSign | exponentDigits
  deriving DecidableEq, Repr

namespace NumberPart

/-- The part that a character continues a number to. -/
def next? (part : NumberPart) (c : Char) : Option NumberPart :=
  let isExponent := c == 'e' || c == 'E'
  match part with
  | .minus => if c == '0' then some .zero else if c.isDigit then some .whole else none
  | .zero => if c == '.' then some .point else if isExponent then some .exponent else none
  | .whole =>
    if c.isDigit then some .whole
    else if c == '.' then some .point
    else if isExponent then some .exponent
    else none
  | .point => if c.isDigit then some .fraction else none
  | .fraction =>
    if c.isDigit then some .fraction else if isExponent then some .exponent else none
  | .exponent =>
    if c.isDigit then some .exponentDigits
    else if c == '+' || c == '-' then some .exponentSign
    else none
  | .exponentSign | .exponentDigits => if c.isDigit then some .exponentDigits else none

/-- Whether a number may end here. -/
def isComplete : NumberPart → Bool
  | .zero | .whole | .fraction | .exponentDigits => true
  | _ => false

end NumberPart

/-- Where reading stands within an escape. -/
inductive Escape where
  /-- Not in an escape. -/
  | none
  /-- After the backslash. -/
  | started
  /-- After the letter u and so many of its four digits. -/
  | digits (count value : Nat)
  deriving DecidableEq, Repr

/-- A text of which the characters so far have been read. -/
structure TextPart where
  /-- The characters, last first. -/
  chars : List Char := []
  /-- The first half of a surrogate pair that waits for its second half. -/
  pending : Option Nat := none
  /-- No half of a surrogate pair is on its own so far. -/
  isPaired : Bool := true
  /-- The escape that is being read. -/
  escape : Escape := .none
  deriving DecidableEq, Repr

namespace TextPart

/-- Adds a character; a first half of a surrogate pair before it stays on its own. -/
def add (t : TextPart) (c : Char) : TextPart :=
  { chars := c :: t.chars, pending := none, isPaired := t.isPaired && t.pending.isNone }

/-- Adds the code unit of an escape with four digits. -/
def addUnit (t : TextPart) (unit : Nat) : TextPart :=
  if 0xD800 ≤ unit ∧ unit ≤ 0xDBFF then
    { chars := t.chars, pending := some unit, isPaired := t.isPaired && t.pending.isNone }
  else if 0xDC00 ≤ unit ∧ unit ≤ 0xDFFF then
    match t.pending with
    | some first =>
      let code := 0x10000 + (first - 0xD800) * 0x400 + (unit - 0xDC00)
      { chars := Char.ofNat code :: t.chars, pending := none, isPaired := t.isPaired }
    | none => { chars := t.chars, pending := none, isPaired := false }
  else t.add (Char.ofNat unit)

/-- The character of an escape with one letter. -/
def escaped? (c : Char) : Option Char :=
  match c with
  | '"' => some '"'
  | '\\' => some '\\'
  | '/' => some '/'
  | 'b' => some '\x08'
  | 'f' => some '\x0c'
  | 'n' => some '\n'
  | 'r' => some '\r'
  | 't' => some '\t'
  | _ => none

/-- Reads one character other than the closing quote. -/
def step? (t : TextPart) (c : Char) : Option TextPart :=
  match t.escape with
  | .none =>
    if c == '\\' then some { t with escape := .started }
    else if c.toNat < 0x20 then none
    else some (t.add c)
  | .started =>
    if c == 'u' then some { t with escape := .digits 0 0 }
    else (escaped? c).map t.add
  | .digits count value =>
    (digitValue? 16 c).map fun d =>
      let value := value * 16 + d
      if count = 3 then t.addUnit value else { t with escape := .digits (count + 1) value }

/-- The text at its closing quote. -/
def value (t : TextPart) : Option String :=
  if t.isPaired && t.pending.isNone then some (String.ofList t.chars.reverse) else none

end TextPart

/-- A container that is still open, with what it holds so far, last first. -/
inductive Frame where
  /-- A list. -/
  | array (items : List Json)
  /-- An object in which a name or the end is next. -/
  | object (members : List (Option String × Json))
  /-- An object in which the value of a name is next. -/
  | field (members : List (Option String × Json)) (name : Option String)

/-- What a reader expects. -/
inductive Expectation where
  /-- A value. -/
  | value
  /-- The first item of a list, or its end. -/
  | firstItem
  /-- The first name of an object, or its end. -/
  | firstName
  /-- A further name of an object. -/
  | name
  /-- The colon after a name. -/
  | colon
  /-- A comma or the end of the innermost container. -/
  | separator
  /-- Nothing more: the whole value has been read. -/
  | nothing (value : Json)
  /-- The rest of a word that stands for a value. -/
  | word (rest : List Char) (value : Json)
  /-- More of a number, whose characters so far are given last first. -/
  | number (part : NumberPart) (written : List Char)
  /-- More of a text, which is a name or a value. -/
  | text (isName : Bool) (part : TextPart)

/-- A reader within a JSON text. -/
structure Reader where
  /-- The open containers, innermost first. -/
  stack : List Frame
  /-- What is expected next. -/
  expects : Expectation

namespace Reader

/-- The reader before the first character. -/
def start : Reader := ⟨[], .value⟩

/-- Whether a character may stand between the parts of a JSON text. -/
def isSpace (c : Char) : Bool := c == ' ' || c == '\n' || c == '\r' || c == '\t'

/-- Hands a complete value to the innermost open container. -/
def complete (stack : List Frame) (value : Json) : Option Reader :=
  match stack with
  | [] => some ⟨[], .nothing value⟩
  | .array items :: rest => some ⟨.array (value :: items) :: rest, .separator⟩
  | .field members name :: rest =>
    some ⟨.object ((name, value) :: members) :: rest, .separator⟩
  | .object _ :: _ => none

/-- Starts a value with its first character. -/
def startValue (stack : List Frame) (c : Char) : Option Reader :=
  match c with
  | '\x7b' => some ⟨.object [] :: stack, .firstName⟩
  | '[' => some ⟨.array [] :: stack, .firstItem⟩
  | '"' => some ⟨stack, .text false {}⟩
  | 'n' => some ⟨stack, .word ['u', 'l', 'l'] .null⟩
  | 't' => some ⟨stack, .word ['r', 'u', 'e'] (.bool true)⟩
  | 'f' => some ⟨stack, .word ['a', 'l', 's', 'e'] (.bool false)⟩
  | '-' => some ⟨stack, .number .minus ['-']⟩
  | c => (NumberPart.minus.next? c).map fun part => ⟨stack, .number part [c]⟩

/-- Closes the innermost container, if the character closes containers of its kind. -/
def close (stack : List Frame) (c : Char) : Option Reader :=
  match stack, c with
  | .array items :: rest, ']' => complete rest (.array items.reverse)
  | .object members :: rest, '\x7d' => complete rest (.object members.reverse)
  | _, _ => none

/-- Reads a character after a complete value. -/
def afterValue (r : Reader) (c : Char) : Option Reader :=
  if isSpace c then some r
  else
    match r.expects, r.stack, c with
    | .separator, .array _ :: _, ',' => some { r with expects := .value }
    | .separator, .object _ :: _, ',' => some { r with expects := .name }
    | .separator, stack, c => close stack c
    | _, _, _ => none

/-- The closing quote of a text: a name goes to its object, a value to its container. -/
def endText (stack : List Frame) (isName : Bool) (value : Option String) : Option Reader :=
  if isName then
    match stack with
    | .object members :: rest => some ⟨.field members value :: rest, .colon⟩
    | _ => none
  else complete stack (.text value)

/-- Reads one character. -/
def step? (r : Reader) (c : Char) : Option Reader :=
  match r.expects with
  | .value => if isSpace c then some r else startValue r.stack c
  | .firstItem =>
    if isSpace c then some r
    else if c == ']' then close r.stack c
    else startValue r.stack c
  | .firstName =>
    if isSpace c then some r
    else if c == '"' then some { r with expects := .text true {} }
    else close r.stack c
  | .name =>
    if isSpace c then some r
    else if c == '"' then some { r with expects := .text true {} }
    else none
  | .colon =>
    if isSpace c then some r
    else if c == ':' then some { r with expects := .value }
    else none
  | .separator | .nothing _ => r.afterValue c
  | .word rest value =>
    match rest with
    | [] => none
    | expected :: rest =>
      if c != expected then none
      else if rest.isEmpty then complete r.stack value
      else some { r with expects := .word rest value }
  | .number part written =>
    match part.next? c with
    | some part => some { r with expects := .number part (c :: written) }
    | none =>
      if part.isComplete then
        (complete r.stack (.number (String.ofList written.reverse))).bind (·.afterValue c)
      else none
  | .text isName part =>
    if c == '"' && part.escape == .none then endText r.stack isName part.value
    else (part.step? c).map fun part => { r with expects := .text isName part }

/-- The value read, if the text may end here. -/
def finish? (r : Reader) : Option Json :=
  match r.stack, r.expects with
  | [], .nothing value => some value
  | [], .number part written =>
    if part.isComplete then some (.number (String.ofList written.reverse)) else none
  | _, _ => none

end Reader

/-- The value of a JSON text. -/
def read? (text : String) : Option Json :=
  (text.toList.foldlM Reader.step? Reader.start).bind Reader.finish?

end DspCode.Json
