import DspCode.Encoding

/-!
# Encodings with first byte 0x20 to 0x5F

Rows for register-to-register operations, short branches and stack operations.
-/

namespace DspCode.Encoding

/-- Encodings whose first byte lies between 0x20 and 0x5F, in search order. -/
def rows20To5F : List Encoding := [
  row 0x20 0xFE 1 .nop [],
  row 0x2200 0xFE00 2 .mov2 [⟨.source, .bits 0xF0⟩, ⟨.source, .bits 0xF⟩],
  row 0x2400 0xFE00 2 .add1 [⟨.source, .bits 0xF0⟩, ⟨.optionalSource, .bits 0xF⟩],
  row 0x2600 0xFE00 2 .sub1 [⟨.source, .bits 0xF0⟩, ⟨.optionalSource, .bits 0xF⟩],
  row 0x2800 0xFE00 2 .and2 [⟨.source, .bits 0xF0⟩, ⟨.source, .bits 0xF⟩],
  row 0x2A00 0xFE00 2 .or2 [⟨.source, .bits 0xF0⟩, ⟨.source, .bits 0xF⟩],
  row 0x2C00 0xFE00 2 .xor2 [⟨.source, .bits 0xF0⟩, ⟨.source, .bits 0xF⟩],
  row 0x2E00 0xFE00 2 .max1 [⟨.source, .bits 0xF0⟩, ⟨.source, .bits 0xF⟩],
  row 0x3000 0xFE00 2 .min1 [⟨.source, .bits 0xF0⟩, ⟨.source, .bits 0xF⟩],
  row 0x3200 0xFE00 2 .abs1 [⟨.source, .bits 0xF0⟩, ⟨.optionalSource, .bits 0xF⟩],
  row 0x3400 0xFE00 2 .neg1 [⟨.source, .bits 0xF0⟩, ⟨.optionalSource, .bits 0xF⟩],
  row 0x3600 0xFE00 2 .not1 [⟨.source, .bits 0xF0⟩, ⟨.optionalSource, .bits 0xF⟩],
  row 0x3800 0xFE00 2 .psh2 [⟨.source, .bits 0xF0⟩, ⟨.source, .bits 0xF⟩],
  row 0x3A00 0xFE00 2 .pop2 [⟨.source, .bits 0xF0⟩, ⟨.source, .bits 0xF⟩],
  row 0x3C00 0xFE00 2 .mov2 [⟨.unsignedByte, .bits 0xF0⟩, ⟨.source, .bits 0xF⟩],
  row 0x3E00 0xFE00 2 .mov2 [⟨.negatedByte, .bits 0xF0⟩, ⟨.source, .bits 0xF⟩],
  row 0x4000 0xFE00 2 .add2 [⟨.unsignedByte, .bits 0xF0⟩, ⟨.source, .bits 0xF⟩],
  row 0x4200 0xFE00 2 .sub2 [⟨.unsignedByte, .bits 0xF0⟩, ⟨.source, .bits 0xF⟩],
  row 0x4400 0xFEC0 2 .mov2 [
    ⟨.source, .bits 0x30⟩, ⟨.wrap {.high}, .constant 1⟩, ⟨.source, .bits 0xF⟩],
  row 0x4440 0xFED0 2 .sfts2 [⟨.source, .bits 0xF⟩, ⟨.minusOne, .bits 0⟩],
  row 0x4450 0xFED0 2 .sfts2 [⟨.source, .bits 0xF⟩, ⟨.one, .bits 0⟩],
  row 0x4480 0xFEF0 2 .mov2 [⟨.fixed .sp, .bits 0⟩, ⟨.source, .bits 0xF⟩],
  row 0x4490 0xFEF0 2 .mov2 [⟨.fixed .ssp, .bits 0⟩, ⟨.source, .bits 0xF⟩],
  row 0x44A0 0xFEF0 2 .mov2 [⟨.fixed .cdp, .bits 0⟩, ⟨.source, .bits 0xF⟩],
  row 0x44C0 0xFEF0 2 .mov2 [⟨.fixed .brc0, .bits 0⟩, ⟨.source, .bits 0xF⟩],
  row 0x44D0 0xFEF0 2 .mov2 [⟨.fixed .brc1, .bits 0⟩, ⟨.source, .bits 0xF⟩],
  row 0x44E0 0xFEF0 2 .mov2 [⟨.fixed .rptc, .bits 0⟩, ⟨.source, .bits 0xF⟩],
  row 0x4600 0xFE09 2 .bclr2 [⟨.unsignedByte, .bits 0xF0⟩, ⟨.status, .bits 6⟩],
  row 0x4601 0xFE09 2 .bset2 [⟨.unsignedByte, .bits 0xF0⟩, ⟨.status, .bits 6⟩],
  row 0x4800 0xFE07 2 .rpt [⟨.fixed .csr, .bits 0⟩],
  row 0x4801 0xFE07 2 .rptadd [⟨.fixed .csr, .bits 0⟩, ⟨.source, .bits 0xF0⟩],
  row 0x4802 0xFE07 2 .rptadd [⟨.fixed .csr, .bits 0⟩, ⟨.unsignedByte, .bits 0xF0⟩],
  row 0x4803 0xFE07 2 .rptsub [⟨.fixed .csr, .bits 0⟩, ⟨.unsignedByte, .bits 0xF0⟩],
  row 0x4804 0xFE07 2 .ret [],
  row 0x4805 0xFE07 2 .reti [],
  row 0x4A00 0xFE80 2 .b [⟨.relative 7, .bits 0x7F⟩],
  row 0x4A80 0xFE80 2 .rptblocal [⟨.forward, .bits 0x7F⟩],
  row 0x4C00 0xFE00 2 .rpt [⟨.unsignedByte, .bits 0xFF⟩],
  row 0x4E00 0xFE00 2 .aadd [⟨.signedByte, .bits 0xFF⟩, ⟨.fixed .sp, .bits 0⟩],
  row 0x5000 0xFE07 2 .sftl2 [⟨.source, .bits 0xF0⟩, ⟨.one, .bits 0⟩],
  row 0x5001 0xFE07 2 .sftl2 [⟨.source, .bits 0xF0⟩, ⟨.minusOne, .bits 0⟩],
  row 0x5002 0xFE07 2 .pop1 [⟨.source, .bits 0xF0⟩],
  row 0x5003 0xFE07 2 .pop1 [⟨.source, .bits 0x30⟩, ⟨.wrap {.double}, .constant 1⟩],
  row 0x5004 0xFE07 2 .popboth [⟨.extended, .bits 0xF0⟩],
  row 0x5005 0xFE07 2 .pshboth [⟨.extended, .bits 0xF0⟩],
  row 0x5006 0xFE07 2 .psh1 [⟨.source, .bits 0xF0⟩],
  row 0x5007 0xFE07 2 .psh1 [⟨.source, .bits 0x30⟩, ⟨.wrap {.double}, .constant 1⟩],
  row 0x5200 0xFE0C 2 .mov2 [
    ⟨.source, .bits 0xF0⟩, ⟨.source, .bits 3⟩, ⟨.wrap {.high}, .constant 1⟩],
  row 0x5208 0xFE0F 2 .mov2 [⟨.source, .bits 0xF0⟩, ⟨.fixed .sp, .bits 0⟩],
  row 0x5209 0xFE0F 2 .mov2 [⟨.source, .bits 0xF0⟩, ⟨.fixed .ssp, .bits 0⟩],
  row 0x520A 0xFE0F 2 .mov2 [⟨.source, .bits 0xF0⟩, ⟨.fixed .cdp, .bits 0⟩],
  row 0x520C 0xFE0F 2 .mov2 [⟨.source, .bits 0xF0⟩, ⟨.fixed .csr, .bits 0⟩],
  row 0x520D 0xFE0F 2 .mov2 [⟨.source, .bits 0xF0⟩, ⟨.fixed .brc1, .bits 0⟩],
  row 0x520E 0xFE0F 2 .mov2 [⟨.source, .bits 0xF0⟩, ⟨.fixed .brc0, .bits 0⟩],
  row 0x5400 0xFE0F 2 .addv1 [⟨.source, .bits 0x30⟩, ⟨.optionalSource, .bits 0xC0⟩],
  row 0x5401 0xFE0F 2 .addrv1 [⟨.source, .bits 0x30⟩, ⟨.optionalSource, .bits 0xC0⟩],
  row 0x5402 0xFE0E 2 .sqa1 [
    ⟨.rename .round, .bits 1⟩, ⟨.source, .bits 0x30⟩, ⟨.optionalSource, .bits 0xC0⟩],
  row 0x5404 0xFE0E 2 .sqs1 [
    ⟨.rename .round, .bits 1⟩, ⟨.source, .bits 0x30⟩, ⟨.optionalSource, .bits 0xC0⟩],
  row 0x5406 0xFE0E 2 .mpy1 [
    ⟨.rename .round, .bits 1⟩, ⟨.source, .bits 0x30⟩, ⟨.optionalSource, .bits 0xC0⟩],
  row 0x5408 0xFE0E 2 .sqr1 [
    ⟨.rename .round, .bits 1⟩, ⟨.source, .bits 0x30⟩, ⟨.optionalSource, .bits 0xC0⟩],
  row 0x540A 0xFE0E 2 .round1 [⟨.source, .bits 0x30⟩, ⟨.optionalSource, .bits 0xC0⟩],
  row 0x540C 0xFE0E 2 .sat1 [
    ⟨.rename .round, .bits 1⟩, ⟨.source, .bits 0x30⟩, ⟨.optionalSource, .bits 0xC0⟩],
  row 0x5600 0xFE02 2 .mac3 [
    ⟨.rename .round, .bits 1⟩, ⟨.source, .bits 0x30⟩, ⟨.temporary, .bits 0xC⟩,
    ⟨.optionalSource, .bits 0xC0⟩, ⟨.source, .bits 0xC0⟩],
  row 0x5602 0xFE02 2 .mas2 [
    ⟨.rename .round, .bits 1⟩, ⟨.temporary, .bits 0xC⟩, ⟨.source, .bits 0x30⟩,
    ⟨.optionalSource, .bits 0xC0⟩],
  row 0x5800 0xFE02 2 .mpy2 [
    ⟨.rename .round, .bits 1⟩, ⟨.temporary, .bits 0xC⟩, ⟨.source, .bits 0x30⟩,
    ⟨.optionalSource, .bits 0xC0⟩],
  row 0x5802 0xFE02 2 .mac4 [
    ⟨.rename .round, .bits 1⟩, ⟨.source, .bits 0xC0⟩, ⟨.temporary, .bits 0xC⟩,
    ⟨.source, .bits 0x30⟩, ⟨.source, .bits 0xC0⟩],
  row 0x5A00 0xFE03 2 .add2 [
    ⟨.source, .bits 0x30⟩, ⟨.shiftByTemporary, .bits 0xC⟩, ⟨.source, .bits 0xC0⟩],
  row 0x5A01 0xFE03 2 .sub2 [
    ⟨.source, .bits 0x30⟩, ⟨.shiftByTemporary, .bits 0xC⟩, ⟨.source, .bits 0xC0⟩],
  row 0x5A02 0xFE02 2 .sftcc [⟨.source, .bits 0xC0⟩, ⟨.testControl, .bits 1⟩],
  row 0x5C00 0xFE03 2 .sftl2 [
    ⟨.source, .bits 0x30⟩, ⟨.temporary, .bits 0xC⟩, ⟨.optionalSource, .bits 0xC0⟩],
  row 0x5C01 0xFE03 2 .sfts2 [
    ⟨.source, .bits 0x30⟩, ⟨.temporary, .bits 0xC⟩, ⟨.optionalSource, .bits 0xC0⟩],
  row 0x5C02 0xFE03 2 .sftsc2 [
    ⟨.source, .bits 0x30⟩, ⟨.temporary, .bits 0xC⟩, ⟨.optionalSource, .bits 0xC0⟩],
  row 0x5E00 0xFEC0 2 .swap [⟨.swapPair, .bits 0x3F⟩],
  row 0x5E80 0xFEC0 2 .nop16 []]

end DspCode.Encoding
