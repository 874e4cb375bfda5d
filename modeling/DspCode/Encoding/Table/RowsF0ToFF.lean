import DspCode.Encoding

/-!
# Encodings with first byte 0xF0 to 0xFF

Rows for memory operands with 16-bit constants.
-/

namespace DspCode.Encoding

/-- Encodings whose first byte lies between 0xF0 and 0xFF, in search order. -/
def rowsF0ToFF : List Encoding := [
  row 0xF0000000 0xFF000000 4 .cmp [
    ⟨.smem, .bits 0xFF0000⟩, ⟨.equalsWord, .bits 0xFFFF⟩, ⟨.fixed .tc1, .bits 0⟩],
  row 0xF1000000 0xFF000000 4 .cmp [
    ⟨.smem, .bits 0xFF0000⟩, ⟨.equalsWord, .bits 0xFFFF⟩, ⟨.fixed .tc2, .bits 0⟩],
  row 0xF2000000 0xFF000000 4 .band [
    ⟨.smem, .bits 0xFF0000⟩, ⟨.unsignedWord, .bits 0xFFFF⟩, ⟨.fixed .tc1, .bits 0⟩],
  row 0xF3000000 0xFF000000 4 .band [
    ⟨.smem, .bits 0xFF0000⟩, ⟨.unsignedWord, .bits 0xFFFF⟩, ⟨.fixed .tc2, .bits 0⟩],
  row 0xF4000000 0xFF000000 4 .and2 [⟨.unsignedWord, .bits 0xFFFF⟩, ⟨.smem, .bits 0xFF0000⟩],
  row 0xF5000000 0xFF000000 4 .or2 [⟨.unsignedWord, .bits 0xFFFF⟩, ⟨.smem, .bits 0xFF0000⟩],
  row 0xF6000000 0xFF000000 4 .xor2 [⟨.unsignedWord, .bits 0xFFFF⟩, ⟨.smem, .bits 0xFF0000⟩],
  row 0xF7000000 0xFF000000 4 .add2 [⟨.signedWord, .bits 0xFFFF⟩, ⟨.smem, .bits 0xFF0000⟩],
  row 0xF8000000 0xFF000004 4 .mpymk [
    ⟨.rename .round, .bits 1⟩, ⟨.smem, .bits 0xFF0000⟩, ⟨.wrap {.assignT3}, .bits 2⟩,
    ⟨.signedByte, .bits 0xFF00⟩, ⟨.source, .bits 0x30⟩],
  row 0xF8000004 0xFF000004 4 .macmk3 [
    ⟨.rename .round, .bits 1⟩, ⟨.smem, .bits 0xFF0000⟩, ⟨.wrap {.assignT3}, .bits 2⟩,
    ⟨.signedByte, .bits 0xFF00⟩, ⟨.source, .bits 0xC0⟩, ⟨.optionalSource, .bits 0x30⟩],
  row 0xF9000000 0xFF00000C 4 .add2 [
    ⟨.smem, .bits 0xFF0000⟩, ⟨.wrap {.unsigned}, .bits 0x8000⟩,
    ⟨.shiftSignedOutside, .bits 0x3F00⟩, ⟨.source, .bits 0xC0⟩, ⟨.optionalSource, .bits 0x30⟩],
  row 0xF9000004 0xFF00000C 4 .sub2 [
    ⟨.smem, .bits 0xFF0000⟩, ⟨.wrap {.unsigned}, .bits 0x8000⟩,
    ⟨.shiftSignedOutside, .bits 0x3F00⟩, ⟨.source, .bits 0xC0⟩, ⟨.optionalSource, .bits 0x30⟩],
  row 0xF9000008 0xFF00000C 4 .mov2 [
    ⟨.smem, .bits 0xFF0000⟩, ⟨.wrap {.unsigned}, .bits 0x8000⟩,
    ⟨.shiftSignedOutside, .bits 0x3F00⟩, ⟨.source, .bits 0x30⟩],
  row 0xFA000000 0xFF000004 4 .mov2 [
    ⟨.source, .bits 0xC0⟩, ⟨.shiftSigned, .bits 0x3F00⟩, ⟨.wrap {.high}, .constant 1⟩,
    ⟨.wrap {.round}, .bits 1⟩, ⟨.smem, .bits 0xFF0000⟩],
  row 0xFA000004 0xFF000004 4 .mov2 [
    ⟨.source, .bits 0xC0⟩, ⟨.shiftSigned, .bits 0x3F00⟩, ⟨.wrap {.saturate}, .constant 1⟩,
    ⟨.wrap {.high}, .constant 1⟩, ⟨.wrap {.round}, .bits 1⟩, ⟨.wrap {.unsigned}, .bits 0x8000⟩,
    ⟨.smem, .bits 0xFF0000⟩],
  row 0xFB000000 0xFF000000 4 .mov2 [⟨.signedWord, .bits 0xFFFF⟩, ⟨.smem, .bits 0xFF0000⟩],
  row 0xFC000000 0xFF000000 4 .bcc [
    ⟨.relative 16, .bits 0xFFFF⟩, ⟨.pointerUpdate, .bits 0xFF0000⟩, ⟨.notZero, .constant 1⟩]]

end DspCode.Encoding
