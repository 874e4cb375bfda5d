/-!
# Text from bytes

Decodes UTF-8. Bytes that start no character, and the beginnings of characters that break off, are
each read as one replacement character.
-/

namespace DspCode.Text

/-- What a byte that starts a longer character asks for: how many bytes continue it, and the least
and greatest value of the first of them. -/
def continuation? (first : UInt8) : Option (Nat × UInt8 × UInt8) :=
  if 0xC2 ≤ first ∧ first ≤ 0xDF then some (1, 0x80, 0xBF)
  else if first = 0xE0 then some (2, 0xA0, 0xBF)
  else if first = 0xED then some (2, 0x80, 0x9F)
  else if 0xE1 ≤ first ∧ first ≤ 0xEF then some (2, 0x80, 0xBF)
  else if first = 0xF0 then some (3, 0x90, 0xBF)
  else if 0xF1 ≤ first ∧ first ≤ 0xF3 then some (3, 0x80, 0xBF)
  else if first = 0xF4 then some (3, 0x80, 0x8F)
  else none

/-- The bytes at the front that continue a character: at most `count`, the first of them between
`low` and `high`, the others any continuation byte. -/
def continuing : Nat → UInt8 → UInt8 → List UInt8 → List UInt8
  | 0, _, _, _ => []
  | _, _, _, [] => []
  | count + 1, low, high, b :: rest =>
    if low ≤ b ∧ b ≤ high then b :: continuing count 0x80 0xBF rest else []

/-- The character that starts with `first`, and how many of the bytes after it belong to it. -/
def leadingChar (first : UInt8) (rest : List UInt8) : Char × Nat :=
  if first < 0x80 then (Char.ofNat first.toNat, 0)
  else
    match continuation? first with
    | none => ('�', 0)
    | some (count, low, high) =>
      let more := continuing count low high rest
      if more.length = count then
        let value := more.foldl (fun acc b => acc * 64 + b.toNat % 64)
          (first.toNat &&& (0x3F >>> count))
        (Char.ofNat value, count)
      else ('�', more.length)

/-- The characters of a byte sequence. -/
def decodeUtf8 : List UInt8 → List Char
  | [] => []
  | first :: rest =>
    let (c, used) := leadingChar first rest
    c :: decodeUtf8 (rest.drop used)
  termination_by bytes => bytes.length
  decreasing_by simp only [List.length_drop, List.length_cons]; omega

end DspCode.Text
