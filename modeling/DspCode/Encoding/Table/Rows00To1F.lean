import DspCode.Encoding

/-!
# Encodings with first byte 0x00 to 0x1F

Rows for conditional control, wide register operations and page register loads.
-/

namespace DspCode.Encoding

/-- Encodings whose first byte lies between 0x00 and 0x1F, in search order. -/
def rows00To1F : List Encoding := [
  row 0x000000 0xFE0000 3 .rptcc [⟨.unsignedByte, .bits 0xFF⟩, ⟨.condition, .bits 0x7F00⟩],
  row 0x020000 0xFE0000 3 .retcc [⟨.condition, .bits 0x7F00⟩],
  row 0x040000 0xFE0000 3 .bcc [⟨.relative 8, .bits 0xFF⟩, ⟨.condition, .bits 0x7F00⟩],
  row 0x060000 0xFE0000 3 .b [⟨.relative 16, .bits 0xFFFF⟩],
  row 0x080000 0xFE0000 3 .call [⟨.relative 16, .bits 0xFFFF⟩],
  row 0x0C0000 0xFE0000 3 .rpt [⟨.unsignedWord, .bits 0xFFFF⟩],
  row 0x0E0000 0xFE0000 3 .rptb [⟨.forward, .bits 0xFFFF⟩],
  row 0x100000 0xFE0F00 3 .and1 [
    ⟨.source, .bits 0x3000⟩, ⟨.shiftSigned, .bits 0x3F⟩, ⟨.optionalSource, .bits 0xC000⟩],
  row 0x100100 0xFE0F00 3 .or1 [
    ⟨.source, .bits 0x3000⟩, ⟨.shiftSigned, .bits 0x3F⟩, ⟨.optionalSource, .bits 0xC000⟩],
  row 0x100200 0xFE0F00 3 .xor1 [
    ⟨.source, .bits 0x3000⟩, ⟨.shiftSigned, .bits 0x3F⟩, ⟨.optionalSource, .bits 0xC000⟩],
  row 0x100300 0xFE0F00 3 .add2 [
    ⟨.source, .bits 0x3000⟩, ⟨.shiftSigned, .bits 0x3F⟩, ⟨.source, .bits 0xC000⟩],
  row 0x100400 0xFE0F00 3 .sub2 [
    ⟨.source, .bits 0x3000⟩, ⟨.shiftSigned, .bits 0x3F⟩, ⟨.source, .bits 0xC000⟩],
  row 0x100500 0xFE0F00 3 .sfts2 [
    ⟨.source, .bits 0x3000⟩, ⟨.shiftAmount, .bits 0x3F⟩, ⟨.optionalSource, .bits 0xC000⟩],
  row 0x100600 0xFE0F00 3 .sftsc2 [
    ⟨.source, .bits 0x3000⟩, ⟨.shiftAmount, .bits 0x3F⟩, ⟨.optionalSource, .bits 0xC000⟩],
  row 0x100700 0xFE0F00 3 .sftl2 [
    ⟨.source, .bits 0x3000⟩, ⟨.shiftAmount, .bits 0x3F⟩, ⟨.optionalSource, .bits 0xC000⟩],
  row 0x100800 0xFE0F00 3 .exp [⟨.source, .bits 0x3000⟩, ⟨.temporary, .bits 0x30⟩],
  row 0x100900 0xFE0F00 3 .mantNexp [
    ⟨.source, .bits 0x3000⟩, ⟨.source, .bits 0xC000⟩, ⟨.split, .bits 0⟩, ⟨.source, .bits 0x3000⟩,
    ⟨.temporary, .bits 0x30⟩],
  row 0x100A00 0xFE0F00 3 .bcnt [
    ⟨.source, .bits 0x3000⟩, ⟨.source, .bits 0xC0⟩, ⟨.testControl, .bits 1⟩,
    ⟨.temporary, .bits 0x30⟩],
  row 0x100C00 0xFE0F00 3 .maxdiff [
    ⟨.source, .bits 0x3000⟩, ⟨.source, .bits 0xC0⟩, ⟨.source, .bits 0xC000⟩,
    ⟨.source, .bits 0x30⟩],
  row 0x100D00 0xFE0F00 3 .dmaxdiff [
    ⟨.source, .bits 0x3000⟩, ⟨.source, .bits 0xC0⟩, ⟨.source, .bits 0xC000⟩,
    ⟨.source, .bits 0x30⟩, ⟨.transition, .bits 1⟩],
  row 0x100E00 0xFE0F00 3 .mindiff [
    ⟨.source, .bits 0x3000⟩, ⟨.source, .bits 0xC0⟩, ⟨.source, .bits 0xC000⟩,
    ⟨.source, .bits 0x30⟩],
  row 0x100F00 0xFE0F00 3 .dmindiff [
    ⟨.source, .bits 0x3000⟩, ⟨.source, .bits 0xC0⟩, ⟨.source, .bits 0xC000⟩,
    ⟨.source, .bits 0x30⟩, ⟨.transition, .bits 1⟩],
  row 0x120000 0xFE0300 3 .cmp [
    ⟨.rename .unsigned, .bits 4⟩, ⟨.source, .bits 0xF000⟩, ⟨.relation, .bits 0xC00⟩,
    ⟨.relationRegister, .bits 0xF0⟩, ⟨.testControl, .bits 1⟩],
  row 0x120100 0xFE0308 3 .cmpand [
    ⟨.rename .unsigned, .bits 4⟩, ⟨.source, .bits 0xF000⟩, ⟨.relation, .bits 0xC00⟩,
    ⟨.relationRegister, .bits 0xF0⟩, ⟨.testControl, .bits 2⟩, ⟨.testControl, .bits 1⟩],
  row 0x120108 0xFE0308 3 .cmpand [
    ⟨.rename .unsigned, .bits 4⟩, ⟨.source, .bits 0xF000⟩, ⟨.relation, .bits 0xC00⟩,
    ⟨.relationRegister, .bits 0xF0⟩, ⟨.testControl, .bits 2⟩, ⟨.wrap {.invert}, .constant 1⟩,
    ⟨.testControl, .bits 1⟩],
  row 0x120200 0xFE0308 3 .cmpor [
    ⟨.rename .unsigned, .inverted 4⟩, ⟨.source, .bits 0xF000⟩, ⟨.relation, .bits 0xC00⟩,
    ⟨.relationRegister, .bits 0xF0⟩, ⟨.testControl, .bits 2⟩, ⟨.testControl, .bits 1⟩],
  row 0x120208 0xFE0308 3 .cmpor [
    ⟨.rename .unsigned, .inverted 4⟩, ⟨.source, .bits 0xF000⟩, ⟨.relation, .bits 0xC00⟩,
    ⟨.relationRegister, .bits 0xF0⟩, ⟨.testControl, .bits 2⟩, ⟨.wrap {.invert}, .constant 1⟩,
    ⟨.testControl, .bits 1⟩],
  row 0x120300 0xFE0308 3 .rol [
    ⟨.carryOrTest, .bits 1⟩, ⟨.source, .bits 0xF000⟩, ⟨.carryOrTest, .bits 2⟩,
    ⟨.source, .bits 0xF0⟩],
  row 0x120308 0xFE0308 3 .ror [
    ⟨.carryOrTest, .bits 2⟩, ⟨.source, .bits 0xF000⟩, ⟨.carryOrTest, .bits 1⟩,
    ⟨.source, .bits 0xF0⟩],
  row 0x140000 0xFE000F 3 .aadd [⟨.source, .bits 0xF000⟩, ⟨.source, .bits 0xF0⟩],
  row 0x140001 0xFE000F 3 .amov [⟨.source, .bits 0xF000⟩, ⟨.source, .bits 0xF0⟩],
  row 0x140002 0xFE000F 3 .asub [⟨.source, .bits 0xF000⟩, ⟨.source, .bits 0xF0⟩],
  row 0x140004 0xFE000F 3 .aadd [⟨.unsignedByte, .bits 0xFF00⟩, ⟨.source, .bits 0xF0⟩],
  row 0x140005 0xFE000F 3 .amov [⟨.unsignedByte, .bits 0xFF00⟩, ⟨.source, .bits 0xF0⟩],
  row 0x140006 0xFE000F 3 .asub [⟨.unsignedByte, .bits 0xFF00⟩, ⟨.source, .bits 0xF0⟩],
  row 0x140008 0xFE000F 3 .aadd [⟨.source, .bits 0xF000⟩, ⟨.source, .bits 0xF0⟩],
  row 0x140009 0xFE000F 3 .amov [⟨.source, .bits 0xF000⟩, ⟨.source, .bits 0xF0⟩],
  row 0x14000A 0xFE000F 3 .asub [⟨.source, .bits 0xF000⟩, ⟨.source, .bits 0xF0⟩],
  row 0x14000C 0xFE000F 3 .aadd [⟨.unsignedByte, .bits 0xFF00⟩, ⟨.source, .bits 0xF0⟩],
  row 0x14000D 0xFE000F 3 .amov [⟨.unsignedByte, .bits 0xFF00⟩, ⟨.source, .bits 0xF0⟩],
  row 0x14000E 0xFE000F 3 .asub [⟨.unsignedByte, .bits 0xFF00⟩, ⟨.source, .bits 0xF0⟩],
  row 0x160000 0xFE000F 3 .mov2 [⟨.unsignedByte, .bits 0x7F0⟩, ⟨.fixed .dph, .bits 0⟩],
  row 0x160001 0xFE000F 3 .mov2 [⟨.unsignedByte, .bits 0x7F0⟩, ⟨.fixed .mdp05, .bits 0⟩],
  row 0x160002 0xFE000F 3 .mov2 [⟨.unsignedByte, .bits 0x7F0⟩, ⟨.fixed .mdp67, .bits 0⟩],
  row 0x160003 0xFE000F 3 .mov2 [⟨.unsignedWord, .bits 0x1FF0⟩, ⟨.fixed .pdp, .bits 0⟩],
  row 0x160004 0xFE000F 3 .mov2 [⟨.unsignedWord, .bits 0xFFF0⟩, ⟨.fixed .bk03, .bits 0⟩],
  row 0x160005 0xFE000F 3 .mov2 [⟨.unsignedWord, .bits 0xFFF0⟩, ⟨.fixed .bk47, .bits 0⟩],
  row 0x160006 0xFE000F 3 .mov2 [⟨.unsignedWord, .bits 0xFFF0⟩, ⟨.fixed .bkc, .bits 0⟩],
  row 0x160008 0xFE000F 3 .mov2 [⟨.unsignedWord, .bits 0xFFF0⟩, ⟨.fixed .csr, .bits 0⟩],
  row 0x160009 0xFE000F 3 .mov2 [⟨.unsignedWord, .bits 0xFFF0⟩, ⟨.fixed .brc0, .bits 0⟩],
  row 0x16000A 0xFE000F 3 .mov2 [⟨.unsignedWord, .bits 0xFFF0⟩, ⟨.fixed .brc1, .bits 0⟩],
  row 0x180000 0xFE0000 3 .and3 [
    ⟨.unsignedByte, .bits 0xFF00⟩, ⟨.source, .bits 0xF⟩, ⟨.source, .bits 0xF0⟩],
  row 0x1A0000 0xFE0000 3 .or3 [
    ⟨.unsignedByte, .bits 0xFF00⟩, ⟨.source, .bits 0xF⟩, ⟨.source, .bits 0xF0⟩],
  row 0x1C0000 0xFE0000 3 .xor3 [
    ⟨.unsignedByte, .bits 0xFF00⟩, ⟨.source, .bits 0xF⟩, ⟨.source, .bits 0xF0⟩],
  row 0x1E0000 0xFE0002 3 .mpyk2 [
    ⟨.rename .round, .bits 1⟩, ⟨.signedByte, .bits 0xFF00⟩, ⟨.source, .bits 0xC0⟩,
    ⟨.optionalSource, .bits 0x30⟩],
  row 0x1E0002 0xFE0002 3 .mack3 [
    ⟨.rename .round, .bits 1⟩, ⟨.temporary, .bits 0xC⟩, ⟨.signedByte, .bits 0xFF00⟩,
    ⟨.source, .bits 0xC0⟩, ⟨.optionalSource, .bits 0x30⟩]]

end DspCode.Encoding
