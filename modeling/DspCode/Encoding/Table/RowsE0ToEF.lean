import DspCode.Encoding

/-!
# Encodings with first byte 0xE0 to 0xEF

Rows for bit tests, shifted memory operands and double-word moves.
-/

namespace DspCode.Encoding

/-- Encodings whose first byte lies between 0xE0 and 0xEF, in search order. -/
def rowsE0ToEF : List Encoding := [
  row 0xE00000 0xFF0000 3 .btst [
    ⟨.source, .bits 0xF0⟩, ⟨.smem, .bits 0xFF00⟩, ⟨.testControl, .bits 1⟩],
  row 0xE10000 0xFF0000 3 .mov2 [
    ⟨.smem, .bits 0xFF00⟩, ⟨.wrap {.lowByte}, .constant 1⟩, ⟨.shiftSignedOutside, .bits 0x3F⟩,
    ⟨.source, .bits 0xC0⟩],
  row 0xE20000 0xFF0000 3 .mov2 [
    ⟨.smem, .bits 0xFF00⟩, ⟨.wrap {.highByte}, .constant 1⟩, ⟨.shiftSignedOutside, .bits 0x3F⟩,
    ⟨.source, .bits 0xC0⟩],
  row 0xE30000 0xFF000E 3 .btstset [
    ⟨.unsignedByte, .bits 0xF0⟩, ⟨.smem, .bits 0xFF00⟩, ⟨.fixed .tc1, .bits 0⟩],
  row 0xE30002 0xFF000E 3 .btstset [
    ⟨.unsignedByte, .bits 0xF0⟩, ⟨.smem, .bits 0xFF00⟩, ⟨.fixed .tc2, .bits 0⟩],
  row 0xE30004 0xFF000E 3 .btstclr [
    ⟨.unsignedByte, .bits 0xF0⟩, ⟨.smem, .bits 0xFF00⟩, ⟨.fixed .tc1, .bits 0⟩],
  row 0xE30006 0xFF000E 3 .btstclr [
    ⟨.unsignedByte, .bits 0xF0⟩, ⟨.smem, .bits 0xFF00⟩, ⟨.fixed .tc2, .bits 0⟩],
  row 0xE30008 0xFF000E 3 .btstnot [
    ⟨.unsignedByte, .bits 0xF0⟩, ⟨.smem, .bits 0xFF00⟩, ⟨.fixed .tc1, .bits 0⟩],
  row 0xE3000A 0xFF000E 3 .btstnot [
    ⟨.unsignedByte, .bits 0xF0⟩, ⟨.smem, .bits 0xFF00⟩, ⟨.fixed .tc2, .bits 0⟩],
  row 0xE3000C 0xFF000F 3 .bset2 [⟨.source, .bits 0xF0⟩, ⟨.smem, .bits 0xFF00⟩],
  row 0xE3000D 0xFF000F 3 .bclr2 [⟨.source, .bits 0xF0⟩, ⟨.smem, .bits 0xFF00⟩],
  row 0xE3000E 0xFF000E 3 .bnot [⟨.source, .bits 0xF0⟩, ⟨.smem, .bits 0xFF00⟩],
  row 0xE40000 0xFF0004 3 .psh2 [⟨.source, .bits 0xF0⟩, ⟨.smem, .bits 0xFF00⟩],
  row 0xE40004 0xFF0004 3 .pop2 [⟨.source, .bits 0xF0⟩, ⟨.smem, .bits 0xFF00⟩],
  row 0xE50004 0xFF000D 3 .mov2 [
    ⟨.source, .bits 0xF0⟩, ⟨.smem, .bits 0xFF00⟩, ⟨.wrap {.highByte}, .constant 1⟩],
  row 0xE50005 0xFF000D 3 .mov2 [
    ⟨.source, .bits 0xF0⟩, ⟨.smem, .bits 0xFF00⟩, ⟨.wrap {.lowByte}, .constant 1⟩],
  row 0xE50008 0xFF00FC 3 .mov2 [⟨.fixed .dp, .bits 0⟩, ⟨.smem, .bits 0xFF00⟩],
  row 0xE50018 0xFF00FC 3 .mov2 [⟨.fixed .cdp, .bits 0⟩, ⟨.smem, .bits 0xFF00⟩],
  row 0xE50028 0xFF00FC 3 .mov2 [⟨.fixed .bsa01, .bits 0⟩, ⟨.smem, .bits 0xFF00⟩],
  row 0xE50038 0xFF00FC 3 .mov2 [⟨.fixed .bsa23, .bits 0⟩, ⟨.smem, .bits 0xFF00⟩],
  row 0xE50048 0xFF00FC 3 .mov2 [⟨.fixed .bsa45, .bits 0⟩, ⟨.smem, .bits 0xFF00⟩],
  row 0xE50058 0xFF00FC 3 .mov2 [⟨.fixed .bsa67, .bits 0⟩, ⟨.smem, .bits 0xFF00⟩],
  row 0xE50068 0xFF00FC 3 .mov2 [⟨.fixed .bsac, .bits 0⟩, ⟨.smem, .bits 0xFF00⟩],
  row 0xE50078 0xFF00FC 3 .mov2 [⟨.fixed .sp, .bits 0⟩, ⟨.smem, .bits 0xFF00⟩],
  row 0xE50088 0xFF00FC 3 .mov2 [⟨.fixed .ssp, .bits 0⟩, ⟨.smem, .bits 0xFF00⟩],
  row 0xE50098 0xFF00FC 3 .mov2 [⟨.fixed .bk03, .bits 0⟩, ⟨.smem, .bits 0xFF00⟩],
  row 0xE500A8 0xFF00FC 3 .mov2 [⟨.fixed .bk47, .bits 0⟩, ⟨.smem, .bits 0xFF00⟩],
  row 0xE500B8 0xFF00FC 3 .mov2 [⟨.fixed .bkc, .bits 0⟩, ⟨.smem, .bits 0xFF00⟩],
  row 0xE500C8 0xFF00FC 3 .mov2 [⟨.fixed .dph, .bits 0⟩, ⟨.smem, .bits 0xFF00⟩],
  row 0xE500D8 0xFF00FC 3 .mov2 [⟨.fixed .mdp05, .bits 0⟩, ⟨.smem, .bits 0xFF00⟩],
  row 0xE500E8 0xFF00FC 3 .mov2 [⟨.fixed .mdp67, .bits 0⟩, ⟨.smem, .bits 0xFF00⟩],
  row 0xE500F8 0xFF00FC 3 .mov2 [⟨.fixed .pdp, .bits 0⟩, ⟨.smem, .bits 0xFF00⟩],
  row 0xE5000C 0xFF007C 3 .mov2 [⟨.fixed .csr, .bits 0⟩, ⟨.smem, .bits 0xFF00⟩],
  row 0xE5001C 0xFF007C 3 .mov2 [⟨.fixed .brc0, .bits 0⟩, ⟨.smem, .bits 0xFF00⟩],
  row 0xE5002C 0xFF007C 3 .mov2 [⟨.fixed .brc1, .bits 0⟩, ⟨.smem, .bits 0xFF00⟩],
  row 0xE5003C 0xFF007C 3 .mov2 [⟨.fixed .trn0, .bits 0⟩, ⟨.smem, .bits 0xFF00⟩],
  row 0xE5004C 0xFF007C 3 .mov2 [⟨.fixed .trn1, .bits 0⟩, ⟨.smem, .bits 0xFF00⟩],
  row 0xE60000 0xFF0000 3 .mov2 [⟨.signedByte, .bits 0xFF⟩, ⟨.smem, .bits 0xFF00⟩],
  row 0xE70000 0xFF000C 3 .mov2 [
    ⟨.source, .bits 0xC0⟩, ⟨.shiftByTemporary, .bits 0x30⟩, ⟨.smem, .bits 0xFF00⟩],
  row 0xE70008 0xFF000C 3 .mov2 [
    ⟨.source, .bits 0xC0⟩, ⟨.shiftByTemporary, .bits 0x30⟩, ⟨.wrap {.high}, .constant 1⟩,
    ⟨.wrap {.round}, .bits 1⟩, ⟨.smem, .bits 0xFF00⟩],
  row 0xE7000C 0xFF000C 3 .mov2 [
    ⟨.source, .bits 0xC0⟩, ⟨.shiftByTemporary, .bits 0x30⟩, ⟨.wrap {.saturate}, .constant 1⟩,
    ⟨.wrap {.high}, .constant 1⟩, ⟨.wrap {.round}, .bits 1⟩, ⟨.wrap {.unsigned}, .bits 2⟩,
    ⟨.smem, .bits 0xFF00⟩],
  row 0xE80000 0xFF0004 3 .mov2 [
    ⟨.source, .bits 0xC0⟩, ⟨.wrap {.high}, .constant 1⟩, ⟨.wrap {.round}, .bits 1⟩,
    ⟨.smem, .bits 0xFF00⟩],
  row 0xE80004 0xFF0004 3 .mov2 [
    ⟨.source, .bits 0xC0⟩, ⟨.wrap {.saturate}, .constant 1⟩, ⟨.wrap {.high}, .constant 1⟩,
    ⟨.wrap {.round}, .bits 1⟩, ⟨.wrap {.unsigned}, .bits 2⟩, ⟨.smem, .bits 0xFF00⟩],
  row 0xE90000 0xFF0000 3 .mov2 [
    ⟨.source, .bits 0xC0⟩, ⟨.shiftSigned, .bits 0x3F⟩, ⟨.smem, .bits 0xFF00⟩],
  row 0xEA0000 0xFF0000 3 .mov2 [
    ⟨.source, .bits 0xC0⟩, ⟨.shiftSigned, .bits 0x3F⟩, ⟨.wrap {.high}, .constant 1⟩,
    ⟨.smem, .bits 0xFF00⟩],
  row 0xEB0004 0xFF000D 3 .mov2 [
    ⟨.fixed .reta, .bits 0⟩, ⟨.lmem, .bits 0xFF00⟩, ⟨.wrap {.double}, .constant 1⟩],
  row 0xEB0005 0xFF000D 3 .mov2 [
    ⟨.extended, .bits 0xF0⟩, ⟨.lmem, .bits 0xFF00⟩, ⟨.wrap {.double}, .constant 1⟩],
  row 0xEB0008 0xFF000D 3 .mov2 [
    ⟨.source, .bits 0x30⟩, ⟨.lmem, .bits 0xFF00⟩, ⟨.wrap {.double}, .constant 1⟩],
  row 0xEB0009 0xFF000D 3 .mov2 [
    ⟨.source, .bits 0x30⟩, ⟨.wrap {.saturate}, .constant 1⟩, ⟨.wrap {.unsigned}, .bits 2⟩,
    ⟨.lmem, .bits 0xFF00⟩, ⟨.wrap {.double}, .constant 1⟩],
  row 0xEB000C 0xFF000F 3 .mov2 [
    ⟨.source, .bits 0xF0⟩, ⟨.wrap {.pair}, .constant 1⟩, ⟨.lmem, .bits 0xFF00⟩,
    ⟨.wrap {.double}, .constant 1⟩],
  row 0xEB000D 0xFF000F 3 .mov2 [
    ⟨.source, .bits 0xF0⟩, ⟨.shiftRight, .constant 1⟩, ⟨.lmem, .bits 0xFF00⟩,
    ⟨.wrap {.dual}, .constant 1⟩],
  row 0xEB000E 0xFF000F 3 .mov2 [
    ⟨.source, .bits 0xF0⟩, ⟨.wrap {.high}, .constant 1⟩, ⟨.wrap {.pair}, .constant 1⟩,
    ⟨.lmem, .bits 0xFF00⟩, ⟨.wrap {.double}, .constant 1⟩],
  row 0xEB000F 0xFF000F 3 .mov2 [
    ⟨.source, .bits 0xF0⟩, ⟨.wrap {.low}, .constant 1⟩, ⟨.wrap {.pair}, .constant 1⟩,
    ⟨.lmem, .bits 0xFF00⟩, ⟨.wrap {.double}, .constant 1⟩],
  row 0xEC0000 0xFF000E 3 .bset2 [⟨.bitAddress, .bits 0xFF00⟩, ⟨.source, .bits 0xF0⟩],
  row 0xEC0002 0xFF000E 3 .bclr2 [⟨.bitAddress, .bits 0xFF00⟩, ⟨.source, .bits 0xF0⟩],
  row 0xEC0004 0xFF000E 3 .btstp [⟨.bitAddress, .bits 0xFF00⟩, ⟨.source, .bits 0xF0⟩],
  row 0xEC0006 0xFF000E 3 .bnot [⟨.bitAddress, .bits 0xFF00⟩, ⟨.source, .bits 0xF0⟩],
  row 0xEC0008 0xFF000E 3 .btst [
    ⟨.bitAddress, .bits 0xFF00⟩, ⟨.source, .bits 0xF0⟩, ⟨.testControl, .bits 1⟩],
  row 0xEC000E 0xFF000F 3 .amar2 [⟨.smem, .bits 0xFF00⟩, ⟨.extended, .bits 0xF0⟩],
  row 0xED0000 0xFF000E 3 .add2 [
    ⟨.lmem, .bits 0xFF00⟩, ⟨.wrap {.double}, .constant 1⟩, ⟨.source, .bits 0xC0⟩,
    ⟨.optionalSource, .bits 0x30⟩],
  row 0xED0002 0xFF000E 3 .sub2 [
    ⟨.lmem, .bits 0xFF00⟩, ⟨.wrap {.double}, .constant 1⟩, ⟨.source, .bits 0xC0⟩,
    ⟨.optionalSource, .bits 0x30⟩],
  row 0xED0004 0xFF000E 3 .sub3 [
    ⟨.source, .bits 0xC0⟩, ⟨.lmem, .bits 0xFF00⟩, ⟨.wrap {.double}, .constant 1⟩,
    ⟨.source, .bits 0x30⟩],
  row 0xED0006 0xFF000E 3 .mov2 [
    ⟨.lmem, .bits 0xFF00⟩, ⟨.wrap {.double}, .constant 1⟩, ⟨.fixed .reta, .bits 0⟩],
  row 0xED0008 0xFF000E 3 .mov2 [
    ⟨.rename .wide40, .bits 1⟩, ⟨.lmem, .bits 0xFF00⟩, ⟨.wrap {.double}, .constant 1⟩,
    ⟨.source, .bits 0x30⟩],
  row 0xED000A 0xFF000E 3 .mov2 [
    ⟨.lmem, .bits 0xFF00⟩, ⟨.wrap {.double}, .constant 1⟩, ⟨.source, .bits 0x30⟩,
    ⟨.wrap {.high}, .constant 1⟩, ⟨.wrap {.pair}, .constant 1⟩],
  row 0xED000C 0xFF000E 3 .mov2 [
    ⟨.lmem, .bits 0xFF00⟩, ⟨.wrap {.double}, .constant 1⟩, ⟨.source, .bits 0x30⟩,
    ⟨.wrap {.low}, .constant 1⟩, ⟨.wrap {.pair}, .constant 1⟩],
  row 0xED000E 0xFF000F 3 .mov2 [
    ⟨.lmem, .bits 0xFF00⟩, ⟨.wrap {.double}, .constant 1⟩, ⟨.source, .bits 0xF0⟩,
    ⟨.wrap {.pair}, .constant 1⟩],
  row 0xED000F 0xFF000F 3 .mov2 [
    ⟨.lmem, .bits 0xFF00⟩, ⟨.wrap {.double}, .constant 1⟩, ⟨.extended, .bits 0xF0⟩],
  row 0xEE0000 0xFF000E 3 .add2 [
    ⟨.lmem, .bits 0xFF00⟩, ⟨.wrap {.dual}, .constant 1⟩, ⟨.source, .bits 0xC0⟩,
    ⟨.optionalSource, .bits 0x30⟩],
  row 0xEE0002 0xFF000E 3 .sub2 [
    ⟨.lmem, .bits 0xFF00⟩, ⟨.wrap {.dual}, .constant 1⟩, ⟨.source, .bits 0xC0⟩,
    ⟨.optionalSource, .bits 0x30⟩],
  row 0xEE0004 0xFF000E 3 .sub3 [
    ⟨.lmem, .bits 0xFF00⟩, ⟨.wrap {.dual}, .constant 1⟩, ⟨.source, .bits 0xC0⟩,
    ⟨.source, .bits 0x30⟩],
  row 0xEE0006 0xFF000E 3 .sub3 [
    ⟨.lmem, .bits 0xFF00⟩, ⟨.wrap {.dual}, .constant 1⟩, ⟨.temporary, .bits 0xC0⟩,
    ⟨.source, .bits 0x30⟩],
  row 0xEE0008 0xFF000E 3 .add3 [
    ⟨.lmem, .bits 0xFF00⟩, ⟨.wrap {.dual}, .constant 1⟩, ⟨.temporary, .bits 0xC0⟩,
    ⟨.source, .bits 0x30⟩],
  row 0xEE000A 0xFF000E 3 .sub3 [
    ⟨.temporary, .bits 0xC0⟩, ⟨.lmem, .bits 0xFF00⟩, ⟨.wrap {.dual}, .constant 1⟩,
    ⟨.source, .bits 0x30⟩],
  row 0xEE000C 0xFF000E 3 .addsub [
    ⟨.temporary, .bits 0xC0⟩, ⟨.lmem, .bits 0xFF00⟩, ⟨.wrap {.dual}, .constant 1⟩,
    ⟨.source, .bits 0x30⟩],
  row 0xEE000E 0xFF000E 3 .subadd [
    ⟨.temporary, .bits 0xC0⟩, ⟨.lmem, .bits 0xFF00⟩, ⟨.wrap {.dual}, .constant 1⟩,
    ⟨.source, .bits 0x30⟩],
  row 0xEF0000 0xFF000C 3 .mov2 [⟨.cmem, .bits 3⟩, ⟨.smem, .bits 0xFF00⟩],
  row 0xEF0004 0xFF000C 3 .mov2 [⟨.smem, .bits 0xFF00⟩, ⟨.cmem, .bits 3⟩],
  row 0xEF0008 0xFF000C 3 .mov2 [
    ⟨.cmem, .bits 3⟩, ⟨.lmem, .bits 0xFF00⟩, ⟨.wrap {.double}, .constant 1⟩],
  row 0xEF000C 0xFF000C 3 .mov2 [
    ⟨.lmem, .bits 0xFF00⟩, ⟨.wrap {.double}, .constant 1⟩, ⟨.cmem, .bits 3⟩]]

end DspCode.Encoding
