import DspCode.Encoding

/-!
# Encodings with first byte 0xD0 to 0xDF

Rows for memory operands in arithmetic and multiplication.
-/

namespace DspCode.Encoding

/-- Encodings whose first byte lies between 0xD0 and 0xDF, in search order. -/
def rowsD0ToDF : List Encoding := [
  row 0xD00000 0xFF0040 3 .macmz [
    ⟨.smem, .bits 0xFF00⟩, ⟨.wrap {.assignT3}, .bits 0x80⟩, ⟨.cmem, .bits 3⟩,
    ⟨.source, .bits 0x30⟩],
  row 0xD00040 0xFF0040 3 .macmrz [
    ⟨.smem, .bits 0xFF00⟩, ⟨.wrap {.assignT3}, .bits 0x80⟩, ⟨.cmem, .bits 3⟩,
    ⟨.source, .bits 0x30⟩],
  row 0xD10000 0xFF000C 3 .mpym3 [
    ⟨.rename .round, .bits 0x40⟩, ⟨.smem, .bits 0xFF00⟩, ⟨.wrap {.assignT3}, .bits 0x80⟩,
    ⟨.cmem, .bits 3⟩, ⟨.source, .bits 0x30⟩],
  row 0xD10004 0xFF000C 3 .macm3 [
    ⟨.rename .round, .bits 0x40⟩, ⟨.smem, .bits 0xFF00⟩, ⟨.wrap {.assignT3}, .bits 0x80⟩,
    ⟨.cmem, .bits 3⟩, ⟨.source, .bits 0x30⟩],
  row 0xD10008 0xFF000C 3 .masm3 [
    ⟨.rename .round, .bits 0x40⟩, ⟨.smem, .bits 0xFF00⟩, ⟨.wrap {.assignT3}, .bits 0x80⟩,
    ⟨.cmem, .bits 3⟩, ⟨.source, .bits 0x30⟩],
  row 0xD20000 0xFF000C 3 .macm2 [
    ⟨.rename .round, .bits 0x40⟩, ⟨.smem, .bits 0xFF00⟩, ⟨.wrap {.assignT3}, .bits 0x80⟩,
    ⟨.source, .bits 3⟩, ⟨.optionalSource, .bits 0x30⟩],
  row 0xD20004 0xFF000C 3 .masm2 [
    ⟨.rename .round, .bits 0x40⟩, ⟨.smem, .bits 0xFF00⟩, ⟨.wrap {.assignT3}, .bits 0x80⟩,
    ⟨.source, .bits 3⟩, ⟨.optionalSource, .bits 0x30⟩],
  row 0xD20008 0xFF000C 3 .sqam2 [
    ⟨.rename .round, .bits 0x40⟩, ⟨.smem, .bits 0xFF00⟩, ⟨.wrap {.assignT3}, .bits 0x80⟩,
    ⟨.source, .bits 3⟩, ⟨.optionalSource, .bits 0x30⟩],
  row 0xD2000C 0xFF000C 3 .sqsm2 [
    ⟨.rename .round, .bits 0x40⟩, ⟨.smem, .bits 0xFF00⟩, ⟨.wrap {.assignT3}, .bits 0x80⟩,
    ⟨.source, .bits 3⟩, ⟨.optionalSource, .bits 0x30⟩],
  row 0xD30000 0xFF000C 3 .mpym2 [
    ⟨.rename .round, .bits 0x40⟩, ⟨.smem, .bits 0xFF00⟩, ⟨.wrap {.assignT3}, .bits 0x80⟩,
    ⟨.source, .bits 3⟩, ⟨.optionalSource, .bits 0x30⟩],
  row 0xD30008 0xFF000C 3 .sqrm [
    ⟨.rename .round, .bits 0x40⟩, ⟨.smem, .bits 0xFF00⟩, ⟨.wrap {.assignT3}, .bits 0x80⟩,
    ⟨.source, .bits 0x30⟩],
  row 0xD30004 0xFF0004 3 .mpym3 [
    ⟨.rename .round, .bits 0x40⟩, ⟨.rename .unsigned, .bits 8⟩, ⟨.smem, .bits 0xFF00⟩,
    ⟨.wrap {.assignT3}, .bits 0x80⟩, ⟨.temporary, .bits 3⟩, ⟨.source, .bits 0x30⟩],
  row 0xD40000 0xFF0000 3 .macm3 [
    ⟨.rename .round, .bits 0x40⟩, ⟨.smem, .bits 0xFF00⟩, ⟨.wrap {.assignT3}, .bits 0x80⟩,
    ⟨.temporary, .bits 0xC⟩, ⟨.source, .bits 3⟩, ⟨.optionalSource, .bits 0x30⟩],
  row 0xD50000 0xFF0000 3 .masm3 [
    ⟨.rename .round, .bits 0x40⟩, ⟨.smem, .bits 0xFF00⟩, ⟨.wrap {.assignT3}, .bits 0x80⟩,
    ⟨.temporary, .bits 0xC⟩, ⟨.source, .bits 3⟩, ⟨.optionalSource, .bits 0x30⟩],
  row 0xD60000 0xFF0000 3 .add2 [
    ⟨.smem, .bits 0xFF00⟩, ⟨.source, .bits 0xF⟩, ⟨.optionalSource, .bits 0xF0⟩],
  row 0xD70000 0xFF0000 3 .sub2 [
    ⟨.smem, .bits 0xFF00⟩, ⟨.source, .bits 0xF⟩, ⟨.optionalSource, .bits 0xF0⟩],
  row 0xD80000 0xFF0000 3 .sub3 [
    ⟨.source, .bits 0xF⟩, ⟨.smem, .bits 0xFF00⟩, ⟨.source, .bits 0xF0⟩],
  row 0xD90000 0xFF0000 3 .and3 [
    ⟨.smem, .bits 0xFF00⟩, ⟨.source, .bits 0xF⟩, ⟨.source, .bits 0xF0⟩],
  row 0xDA0000 0xFF0000 3 .or3 [
    ⟨.smem, .bits 0xFF00⟩, ⟨.source, .bits 0xF⟩, ⟨.source, .bits 0xF0⟩],
  row 0xDB0000 0xFF0000 3 .xor3 [
    ⟨.smem, .bits 0xFF00⟩, ⟨.source, .bits 0xF⟩, ⟨.source, .bits 0xF0⟩],
  row 0xDC0000 0xFF0002 3 .btst [
    ⟨.unsignedByte, .bits 0xF0⟩, ⟨.smem, .bits 0xFF00⟩, ⟨.testControl, .bits 1⟩],
  row 0xDC0002 0xFF00F3 3 .mov2 [⟨.smem, .bits 0xFF00⟩, ⟨.fixed .dp, .bits 0⟩],
  row 0xDC0012 0xFF00F3 3 .mov2 [⟨.smem, .bits 0xFF00⟩, ⟨.fixed .cdp, .bits 0⟩],
  row 0xDC0022 0xFF00F3 3 .mov2 [⟨.smem, .bits 0xFF00⟩, ⟨.fixed .bsa01, .bits 0⟩],
  row 0xDC0032 0xFF00F3 3 .mov2 [⟨.smem, .bits 0xFF00⟩, ⟨.fixed .bsa23, .bits 0⟩],
  row 0xDC0042 0xFF00F3 3 .mov2 [⟨.smem, .bits 0xFF00⟩, ⟨.fixed .bsa45, .bits 0⟩],
  row 0xDC0052 0xFF00F3 3 .mov2 [⟨.smem, .bits 0xFF00⟩, ⟨.fixed .bsa67, .bits 0⟩],
  row 0xDC0062 0xFF00F3 3 .mov2 [⟨.smem, .bits 0xFF00⟩, ⟨.fixed .bsac, .bits 0⟩],
  row 0xDC0072 0xFF00F3 3 .mov2 [⟨.smem, .bits 0xFF00⟩, ⟨.fixed .sp, .bits 0⟩],
  row 0xDC0082 0xFF00F3 3 .mov2 [⟨.smem, .bits 0xFF00⟩, ⟨.fixed .ssp, .bits 0⟩],
  row 0xDC0092 0xFF00F3 3 .mov2 [⟨.smem, .bits 0xFF00⟩, ⟨.fixed .bk03, .bits 0⟩],
  row 0xDC00A2 0xFF00F3 3 .mov2 [⟨.smem, .bits 0xFF00⟩, ⟨.fixed .bk47, .bits 0⟩],
  row 0xDC00B2 0xFF00F3 3 .mov2 [⟨.smem, .bits 0xFF00⟩, ⟨.fixed .bkc, .bits 0⟩],
  row 0xDC00C2 0xFF00F3 3 .mov2 [⟨.smem, .bits 0xFF00⟩, ⟨.fixed .dph, .bits 0⟩],
  row 0xDC00D2 0xFF00F3 3 .mov2 [⟨.smem, .bits 0xFF00⟩, ⟨.fixed .mdp05, .bits 0⟩],
  row 0xDC00E2 0xFF00F3 3 .mov2 [⟨.smem, .bits 0xFF00⟩, ⟨.fixed .mdp67, .bits 0⟩],
  row 0xDC00F2 0xFF00F3 3 .mov2 [⟨.smem, .bits 0xFF00⟩, ⟨.fixed .pdp, .bits 0⟩],
  row 0xDC0003 0xFF0073 3 .mov2 [⟨.smem, .bits 0xFF00⟩, ⟨.fixed .csr, .bits 0⟩],
  row 0xDC0013 0xFF0073 3 .mov2 [⟨.smem, .bits 0xFF00⟩, ⟨.fixed .brc0, .bits 0⟩],
  row 0xDC0023 0xFF0073 3 .mov2 [⟨.smem, .bits 0xFF00⟩, ⟨.fixed .brc1, .bits 0⟩],
  row 0xDC0033 0xFF0073 3 .mov2 [⟨.smem, .bits 0xFF00⟩, ⟨.fixed .trn0, .bits 0⟩],
  row 0xDC0043 0xFF0073 3 .mov2 [⟨.smem, .bits 0xFF00⟩, ⟨.fixed .trn1, .bits 0⟩],
  row 0xDD0000 0xFF0003 3 .add2 [
    ⟨.smem, .bits 0xFF00⟩, ⟨.shiftByTemporary, .bits 0xC⟩, ⟨.source, .bits 0xC0⟩,
    ⟨.optionalSource, .bits 0x30⟩],
  row 0xDD0001 0xFF0003 3 .sub2 [
    ⟨.smem, .bits 0xFF00⟩, ⟨.shiftByTemporary, .bits 0xC⟩, ⟨.source, .bits 0xC0⟩,
    ⟨.optionalSource, .bits 0x30⟩],
  row 0xDD0002 0xFF0003 3 .addsub2cc [
    ⟨.smem, .bits 0xFF00⟩, ⟨.source, .bits 0xC0⟩, ⟨.temporary, .bits 0xC⟩,
    ⟨.fixed .tc1, .bits 0⟩, ⟨.fixed .tc2, .bits 0⟩, ⟨.source, .bits 0x30⟩],
  row 0xDD0003 0xFF0003 3 .mov2 [
    ⟨.smem, .bits 0xFF00⟩, ⟨.shiftByTemporary, .bits 0xC⟩, ⟨.wrap {.round}, .bits 0x40⟩,
    ⟨.source, .bits 0x30⟩],
  row 0xDE0000 0xFF000F 3 .addsubcc4 [
    ⟨.smem, .bits 0xFF00⟩, ⟨.source, .bits 0xC0⟩, ⟨.fixed .tc1, .bits 0⟩, ⟨.source, .bits 0x30⟩],
  row 0xDE0001 0xFF000F 3 .addsubcc4 [
    ⟨.smem, .bits 0xFF00⟩, ⟨.source, .bits 0xC0⟩, ⟨.fixed .tc2, .bits 0⟩, ⟨.source, .bits 0x30⟩],
  row 0xDE0002 0xFF000F 3 .addsubcc4 [
    ⟨.smem, .bits 0xFF00⟩, ⟨.source, .bits 0xC0⟩, ⟨.fixed .tc1, .bits 0⟩, ⟨.fixed .tc2, .bits 0⟩,
    ⟨.source, .bits 0x30⟩],
  row 0xDE0003 0xFF000F 3 .subc2 [
    ⟨.smem, .bits 0xFF00⟩, ⟨.source, .bits 0xC0⟩, ⟨.optionalSource, .bits 0x30⟩],
  row 0xDE0004 0xFF000F 3 .add2 [
    ⟨.smem, .bits 0xFF00⟩, ⟨.shiftLeft16, .bits 0⟩, ⟨.source, .bits 0xC0⟩,
    ⟨.optionalSource, .bits 0x30⟩],
  row 0xDE0005 0xFF000F 3 .sub2 [
    ⟨.smem, .bits 0xFF00⟩, ⟨.shiftLeft16, .bits 0⟩, ⟨.source, .bits 0xC0⟩,
    ⟨.optionalSource, .bits 0x30⟩],
  row 0xDE0006 0xFF000F 3 .sub3 [
    ⟨.source, .bits 0xC0⟩, ⟨.smem, .bits 0xFF00⟩, ⟨.shiftLeft16, .bits 0⟩, ⟨.source, .bits 0x30⟩],
  row 0xDE0008 0xFF000F 3 .addsub [
    ⟨.temporary, .bits 0xC0⟩, ⟨.smem, .bits 0xFF00⟩, ⟨.source, .bits 0x30⟩],
  row 0xDE0009 0xFF000F 3 .subadd [
    ⟨.temporary, .bits 0xC0⟩, ⟨.smem, .bits 0xFF00⟩, ⟨.source, .bits 0x30⟩],
  row 0xDF0000 0xFF000E 3 .mov2 [
    ⟨.smem, .bits 0xFF00⟩, ⟨.wrap {.highByte}, .constant 1⟩, ⟨.wrap {.unsigned}, .inverted 1⟩,
    ⟨.source, .bits 0xF0⟩],
  row 0xDF0002 0xFF000E 3 .mov2 [
    ⟨.smem, .bits 0xFF00⟩, ⟨.wrap {.lowByte}, .constant 1⟩, ⟨.wrap {.unsigned}, .inverted 1⟩,
    ⟨.source, .bits 0xF0⟩],
  row 0xDF0004 0xFF000E 3 .mov2 [
    ⟨.smem, .bits 0xFF00⟩, ⟨.wrap {.unsigned}, .bits 1⟩, ⟨.source, .bits 0x30⟩],
  row 0xDF0008 0xFF000E 3 .add3 [
    ⟨.smem, .bits 0xFF00⟩, ⟨.wrap {.unsigned}, .bits 1⟩, ⟨.fixed .carry, .bits 0⟩,
    ⟨.source, .bits 0xC0⟩, ⟨.optionalSource, .bits 0x30⟩],
  row 0xDF000A 0xFF000E 3 .sub3 [
    ⟨.smem, .bits 0xFF00⟩, ⟨.wrap {.unsigned}, .bits 1⟩, ⟨.fixed .borrow, .bits 0⟩,
    ⟨.source, .bits 0xC0⟩, ⟨.optionalSource, .bits 0x30⟩],
  row 0xDF000C 0xFF000E 3 .add2 [
    ⟨.smem, .bits 0xFF00⟩, ⟨.wrap {.unsigned}, .bits 1⟩, ⟨.source, .bits 0xC0⟩,
    ⟨.optionalSource, .bits 0x30⟩],
  row 0xDF000E 0xFF000E 3 .sub2 [
    ⟨.smem, .bits 0xFF00⟩, ⟨.wrap {.unsigned}, .bits 1⟩, ⟨.source, .bits 0xC0⟩,
    ⟨.optionalSource, .bits 0x30⟩]]

end DspCode.Encoding
