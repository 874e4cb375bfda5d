import DspCode.Text.Blank

/-!
# Reading 32-bit numbers

A number is decimal, or hexadecimal after the mark `0x` or `0X`, with blanks around it and at most
one plus sign in front of its digits. Digits are judged from the left, so the first fault decides
which error is reported.
-/

namespace DspCode

/-- Why a text is no 32-bit number. -/
inductive NumeralError where
  /-- There are no digits at all. -/
  | empty
  /-- Some character is no digit of the base, or a sign stands alone. -/
  | invalidDigit
  /-- The value is 2³² or more. -/
  | tooLarge
  deriving DecidableEq, Repr

/-- The wording of a numeral error. -/
def NumeralError.message : NumeralError → String
  | .empty => "cannot parse integer from empty string"
  | .invalidDigit => "invalid digit found in string"
  | .tooLarge => "number too large to fit in target type"

/-- The value of a digit in the given base; letters of either case continue after nine. -/
def digitValue? (base : Nat) (c : Char) : Option Nat :=
  let value? :=
    if '0' ≤ c ∧ c ≤ '9' then some (c.toNat - '0'.toNat)
    else if 'a' ≤ c ∧ c ≤ 'z' then some (c.toNat - 'a'.toNat + 10)
    else if 'A' ≤ c ∧ c ≤ 'Z' then some (c.toNat - 'A'.toNat + 10)
    else none
  value?.filter (· < base)

/-- Continues the number `value` with the given digits; it stays below 2³². -/
def readDigits (base : Nat) (value : Nat) : List Char → Except NumeralError Nat
  | [] => .ok value
  | c :: rest =>
    match digitValue? base c with
    | none => .error .invalidDigit
    | some d =>
      let next := value * base + d
      if next < UInt32.size then readDigits base next rest else .error .tooLarge

/-- Reads the digits of one base after an optional plus sign. -/
def readUnsigned (base : Nat) : List Char → Except NumeralError Nat
  | [] => .error .empty
  | ['+'] => .error .invalidDigit
  | '+' :: digits => readDigits base 0 digits
  | digits => readDigits base 0 digits

/-- Reads a 32-bit number: blanks around it are dropped, the mark selects the base. -/
def readUInt32 (text : String) : Except NumeralError UInt32 :=
  let value :=
    match Text.trim text.toList with
    | '0' :: 'x' :: digits => readUnsigned 16 digits
    | '0' :: 'X' :: digits => readUnsigned 16 digits
    | digits => readUnsigned 10 digits
  value.map UInt32.ofNat

end DspCode
