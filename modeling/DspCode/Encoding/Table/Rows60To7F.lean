import DspCode.Encoding

/-!
# Encodings with first byte 0x60 to 0x7F

Rows for short branches, long branches and operations with 16-bit constants.
-/

namespace DspCode.Encoding

/-- Encodings whose first byte lies between 0x60 and 0x7F, in search order. -/
def rows60To7F : List Encoding := [
  row 0x6000 0xF800 2 .bcc [⟨.forward, .bits 0x780⟩, ⟨.condition, .bits 0x7F⟩],
  row 0x6800 0xFF00 2 .bcc [⟨.absoluteTarget, .bits 0⟩, ⟨.condition, .bits 0x7F⟩],
  row 0x6900 0xFF00 2 .callcc [⟨.absoluteTarget, .bits 0⟩, ⟨.condition, .bits 0x7F⟩],
  row 0x6A 0xFF 1 .b [⟨.absoluteTarget, .bits 0⟩],
  row 0x6C 0xFF 1 .call [⟨.absoluteTarget, .bits 0⟩],
  row 0x6D000000 0xFF000000 4 .bcc [⟨.relative 16, .bits 0xFFFF⟩, ⟨.condition, .bits 0x7F0000⟩],
  row 0x6E000000 0xFF000000 4 .callcc [
    ⟨.relative 16, .bits 0xFFFF⟩, ⟨.condition, .bits 0x7F0000⟩],
  row 0x6F000000 0xFF000000 4 .bcc [
    ⟨.rename .unsigned, .bits 0x10000⟩, ⟨.relative 8, .bits 0xFF⟩, ⟨.source, .bits 0xF00000⟩,
    ⟨.relation, .bits 0xC0000⟩, ⟨.relationByte, .bits 0xFF00⟩],
  row 0x70000000 0xFF000000 4 .add2 [
    ⟨.signedWord, .bits 0xFFFF00⟩, ⟨.shiftLeft, .bits 0xF⟩, ⟨.source, .bits 0xC0⟩,
    ⟨.optionalSource, .bits 0x30⟩],
  row 0x71000000 0xFF000000 4 .sub2 [
    ⟨.signedWord, .bits 0xFFFF00⟩, ⟨.shiftLeft, .bits 0xF⟩, ⟨.source, .bits 0xC0⟩,
    ⟨.optionalSource, .bits 0x30⟩],
  row 0x72000000 0xFF000000 4 .and2 [
    ⟨.unsignedWord, .bits 0xFFFF00⟩, ⟨.shiftLeft, .bits 0xF⟩, ⟨.source, .bits 0xC0⟩,
    ⟨.optionalSource, .bits 0x30⟩],
  row 0x73000000 0xFF000000 4 .or2 [
    ⟨.unsignedWord, .bits 0xFFFF00⟩, ⟨.shiftLeft, .bits 0xF⟩, ⟨.source, .bits 0xC0⟩,
    ⟨.optionalSource, .bits 0x30⟩],
  row 0x74000000 0xFF000000 4 .xor2 [
    ⟨.unsignedWord, .bits 0xFFFF00⟩, ⟨.shiftLeft, .bits 0xF⟩, ⟨.source, .bits 0xC0⟩,
    ⟨.optionalSource, .bits 0x30⟩],
  row 0x75000000 0xFF000000 4 .mov2 [
    ⟨.signedWord, .bits 0xFFFF00⟩, ⟨.shiftLeft, .bits 0xF⟩, ⟨.source, .bits 0x30⟩],
  row 0x76000000 0xFF00000C 4 .bfxtr [
    ⟨.unsignedWord, .bits 0xFFFF00⟩, ⟨.source, .bits 3⟩, ⟨.source, .bits 0xF0⟩],
  row 0x76000004 0xFF00000C 4 .bfxpa [
    ⟨.unsignedWord, .bits 0xFFFF00⟩, ⟨.source, .bits 3⟩, ⟨.source, .bits 0xF0⟩],
  row 0x76000008 0xFF00000C 4 .mov2 [⟨.signedWord, .bits 0xFFFF00⟩, ⟨.source, .bits 0xF0⟩],
  row 0x77000000 0xFF000000 4 .amov [⟨.dataAddress, .bits 0xFFFF00⟩, ⟨.source, .bits 0xF0⟩],
  row 0x78000000 0xFF00001E 4 .mov2 [⟨.unsignedWord, .bits 0xFFFF00⟩, ⟨.fixed .dp, .bits 0⟩],
  row 0x78000002 0xFF00001E 4 .mov2 [⟨.unsignedWord, .bits 0xFFFF00⟩, ⟨.fixed .ssp, .bits 0⟩],
  row 0x78000004 0xFF00001E 4 .mov2 [⟨.unsignedWord, .bits 0xFFFF00⟩, ⟨.fixed .cdp, .bits 0⟩],
  row 0x78000006 0xFF00001E 4 .mov2 [⟨.unsignedWord, .bits 0xFFFF00⟩, ⟨.fixed .bsa01, .bits 0⟩],
  row 0x78000008 0xFF00001E 4 .mov2 [⟨.unsignedWord, .bits 0xFFFF00⟩, ⟨.fixed .bsa23, .bits 0⟩],
  row 0x7800000A 0xFF00001E 4 .mov2 [⟨.unsignedWord, .bits 0xFFFF00⟩, ⟨.fixed .bsa45, .bits 0⟩],
  row 0x7800000C 0xFF00001E 4 .mov2 [⟨.unsignedWord, .bits 0xFFFF00⟩, ⟨.fixed .bsa67, .bits 0⟩],
  row 0x7800000E 0xFF00001E 4 .mov2 [⟨.unsignedWord, .bits 0xFFFF00⟩, ⟨.fixed .bsac, .bits 0⟩],
  row 0x78000010 0xFF00001E 4 .mov2 [⟨.unsignedWord, .bits 0xFFFF00⟩, ⟨.fixed .sp, .bits 0⟩],
  row 0x79000000 0xFF000002 4 .mpyk2 [
    ⟨.rename .round, .bits 1⟩, ⟨.signedWord, .bits 0xFFFF00⟩, ⟨.source, .bits 0xC0⟩,
    ⟨.optionalSource, .bits 0x30⟩],
  row 0x79000002 0xFF000002 4 .mack3 [
    ⟨.rename .round, .bits 1⟩, ⟨.temporary, .bits 0xC⟩, ⟨.signedWord, .bits 0xFFFF00⟩,
    ⟨.source, .bits 0xC0⟩, ⟨.optionalSource, .bits 0x30⟩],
  row 0x7A000000 0xFF00000E 4 .add2 [
    ⟨.signedWord, .bits 0xFFFF00⟩, ⟨.shiftLeft16, .bits 0⟩, ⟨.source, .bits 0xC0⟩,
    ⟨.optionalSource, .bits 0x30⟩],
  row 0x7A000002 0xFF00000E 4 .sub2 [
    ⟨.signedWord, .bits 0xFFFF00⟩, ⟨.shiftLeft16, .bits 0⟩, ⟨.source, .bits 0xC0⟩,
    ⟨.optionalSource, .bits 0x30⟩],
  row 0x7A000004 0xFF00000E 4 .and2 [
    ⟨.unsignedWord, .bits 0xFFFF00⟩, ⟨.shiftLeft16, .bits 0⟩, ⟨.source, .bits 0xC0⟩,
    ⟨.optionalSource, .bits 0x30⟩],
  row 0x7A000006 0xFF00000E 4 .or2 [
    ⟨.unsignedWord, .bits 0xFFFF00⟩, ⟨.shiftLeft16, .bits 0⟩, ⟨.source, .bits 0xC0⟩,
    ⟨.optionalSource, .bits 0x30⟩],
  row 0x7A000008 0xFF00000E 4 .xor2 [
    ⟨.unsignedWord, .bits 0xFFFF00⟩, ⟨.shiftLeft16, .bits 0⟩, ⟨.source, .bits 0xC0⟩,
    ⟨.optionalSource, .bits 0x30⟩],
  row 0x7A00000A 0xFF00000E 4 .mov2 [
    ⟨.signedWord, .bits 0xFFFF00⟩, ⟨.shiftLeft16, .bits 0⟩, ⟨.source, .bits 0x30⟩],
  row 0x7A00000C 0xFF00000E 4 .idle [],
  row 0x7B000000 0xFF000000 4 .add2 [
    ⟨.signedWord, .bits 0xFFFF00⟩, ⟨.source, .bits 0xF⟩, ⟨.optionalSource, .bits 0xF0⟩],
  row 0x7C000000 0xFF000000 4 .sub2 [
    ⟨.signedWord, .bits 0xFFFF00⟩, ⟨.source, .bits 0xF⟩, ⟨.optionalSource, .bits 0xF0⟩],
  row 0x7D000000 0xFF000000 4 .and2 [
    ⟨.unsignedWord, .bits 0xFFFF00⟩, ⟨.source, .bits 0xF⟩, ⟨.source, .bits 0xF0⟩],
  row 0x7E000000 0xFF000000 4 .or2 [
    ⟨.unsignedWord, .bits 0xFFFF00⟩, ⟨.source, .bits 0xF⟩, ⟨.source, .bits 0xF0⟩],
  row 0x7F000000 0xFF000000 4 .xor2 [
    ⟨.unsignedWord, .bits 0xFFFF00⟩, ⟨.source, .bits 0xF⟩, ⟨.source, .bits 0xF0⟩]]

end DspCode.Encoding
