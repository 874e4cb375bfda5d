/-!
# Numerals

Written forms of addresses, bytes and operand values. Addresses have at least six hexadecimal
digits after the mark, operand values of one decimal digit are written in decimal.
-/

namespace DspCode

/-- `n` in lower-case hexadecimal without a mark, with zeros in front up to `width` digits. -/
def hexPadded (width n : Nat) : String :=
  String.ofList ((Nat.toDigits 16 n).leftpad width '0')

/-- `n` in hexadecimal with its mark and no leading zeros. -/
def hexText (n : Nat) : String := "0x" ++ hexPadded 1 n

/-- `n` in decimal, with a sign only if it is negative. -/
def decimalText (n : Int) : String :=
  match n with
  | .ofNat m => String.ofList (Nat.toDigits 10 m)
  | .negSucc m => "-" ++ String.ofList (Nat.toDigits 10 (m + 1))

/-- The written form of an address: the mark and at least six digits. -/
def addressText (a : UInt32) : String := "0x" ++ hexPadded 6 a.toNat

/-- The written form of a data byte: the mark and two digits. -/
def byteText (b : UInt8) : String := "0x" ++ hexPadded 2 b.toNat

/-- An operand value: decimal for magnitudes of one digit, otherwise hexadecimal with the sign
before the mark. -/
def numeralText (v : Int) : String :=
  if -9 ≤ v ∧ v ≤ 9 then decimalText v
  else if v < 0 then "-" ++ hexText v.natAbs
  else hexText v.natAbs

end DspCode
