import DspCode.Encoding

/-!
# Encodings with first byte 0x80 to 0x8F

Rows for dual memory operands and two-line instructions.
-/

namespace DspCode.Encoding

/-- Encodings whose first byte lies between 0x80 and 0x8F, in search order. -/
def rows80To8F : List Encoding := [
  row 0x800000 0xFF000C 3 .mov2 [
    ⟨.xmem, .bits 0xFC00⟩, ⟨.wrap {.double}, .constant 1⟩, ⟨.xmem, .bits 0x3F0⟩,
    ⟨.wrap {.double}, .constant 1⟩],
  row 0x800004 0xFF000C 3 .mov2 [⟨.xmem, .bits 0xFC00⟩, ⟨.xmem, .bits 0x3F0⟩],
  row 0x800008 0xFF000C 3 .mov3 [
    ⟨.source, .bits 3⟩, ⟨.xmem, .bits 0xFC00⟩, ⟨.xmem, .bits 0x3F0⟩],
  row 0x810000 0xFF000C 3 .add3 [
    ⟨.xmem, .bits 0xFC00⟩, ⟨.xmem, .bits 0x3F0⟩, ⟨.source, .bits 3⟩],
  row 0x810004 0xFF000C 3 .sub3 [
    ⟨.xmem, .bits 0xFC00⟩, ⟨.xmem, .bits 0x3F0⟩, ⟨.source, .bits 3⟩],
  row 0x810008 0xFF000C 3 .mov3 [
    ⟨.xmem, .bits 0xFC00⟩, ⟨.xmem, .bits 0x3F0⟩, ⟨.source, .bits 3⟩],
  row 0x82000000 0xFF000C00 4 .mpyMpy [
    ⟨.rename .roundBoth, .bits 1⟩, ⟨.rename .wide40Both, .bits 2⟩, ⟨.xmem, .bits 0xFC0000⟩,
    ⟨.wrap {.unsigned}, .bits 0x80⟩, ⟨.cmem, .bits 0x300⟩, ⟨.wrap {.unsigned}, .bits 0x40⟩,
    ⟨.source, .bits 0x30⟩, ⟨.split, .bits 0⟩, ⟨.xmem, .bits 0x3F000⟩,
    ⟨.wrap {.unsigned}, .bits 0x80⟩, ⟨.cmem, .bits 0x300⟩, ⟨.wrap {.unsigned}, .bits 0x40⟩,
    ⟨.source, .bits 0xC⟩],
  row 0x82000400 0xFF000C00 4 .macMpy [
    ⟨.rename .roundBoth, .bits 1⟩, ⟨.rename .wide40Both, .bits 2⟩, ⟨.xmem, .bits 0xFC0000⟩,
    ⟨.wrap {.unsigned}, .bits 0x80⟩, ⟨.cmem, .bits 0x300⟩, ⟨.wrap {.unsigned}, .bits 0x40⟩,
    ⟨.source, .bits 0x30⟩, ⟨.split, .bits 0⟩, ⟨.xmem, .bits 0x3F000⟩,
    ⟨.wrap {.unsigned}, .bits 0x80⟩, ⟨.cmem, .bits 0x300⟩, ⟨.wrap {.unsigned}, .bits 0x40⟩,
    ⟨.source, .bits 0xC⟩],
  row 0x82000800 0xFF000C00 4 .masMpy [
    ⟨.rename .roundBoth, .bits 1⟩, ⟨.rename .wide40Both, .bits 2⟩, ⟨.xmem, .bits 0xFC0000⟩,
    ⟨.wrap {.unsigned}, .bits 0x80⟩, ⟨.cmem, .bits 0x300⟩, ⟨.wrap {.unsigned}, .bits 0x40⟩,
    ⟨.source, .bits 0x30⟩, ⟨.split, .bits 0⟩, ⟨.xmem, .bits 0x3F000⟩,
    ⟨.wrap {.unsigned}, .bits 0x80⟩, ⟨.cmem, .bits 0x300⟩, ⟨.wrap {.unsigned}, .bits 0x40⟩,
    ⟨.source, .bits 0xC⟩],
  row 0x82000C00 0xFF000C00 4 .amarMpy [
    ⟨.rename .roundSecond, .bits 1⟩, ⟨.rename .wide40Second, .bits 2⟩, ⟨.xmem, .bits 0xFC0000⟩,
    ⟨.split, .bits 0⟩, ⟨.xmem, .bits 0x3F000⟩, ⟨.wrap {.unsigned}, .bits 0x80⟩,
    ⟨.cmem, .bits 0x300⟩, ⟨.wrap {.unsigned}, .bits 0x40⟩, ⟨.source, .bits 0xC⟩],
  row 0x83000000 0xFF000C00 4 .macMac [
    ⟨.rename .roundBoth, .bits 1⟩, ⟨.rename .wide40Both, .bits 2⟩, ⟨.xmem, .bits 0xFC0000⟩,
    ⟨.wrap {.unsigned}, .bits 0x80⟩, ⟨.cmem, .bits 0x300⟩, ⟨.wrap {.unsigned}, .bits 0x40⟩,
    ⟨.source, .bits 0x30⟩, ⟨.split, .bits 0⟩, ⟨.xmem, .bits 0x3F000⟩,
    ⟨.wrap {.unsigned}, .bits 0x80⟩, ⟨.cmem, .bits 0x300⟩, ⟨.wrap {.unsigned}, .bits 0x40⟩,
    ⟨.source, .bits 0xC⟩],
  row 0x83000400 0xFF000C00 4 .masMac [
    ⟨.rename .roundBoth, .bits 1⟩, ⟨.rename .wide40Both, .bits 2⟩, ⟨.xmem, .bits 0xFC0000⟩,
    ⟨.wrap {.unsigned}, .bits 0x80⟩, ⟨.cmem, .bits 0x300⟩, ⟨.wrap {.unsigned}, .bits 0x40⟩,
    ⟨.source, .bits 0x30⟩, ⟨.split, .bits 0⟩, ⟨.xmem, .bits 0x3F000⟩,
    ⟨.wrap {.unsigned}, .bits 0x80⟩, ⟨.cmem, .bits 0x300⟩, ⟨.wrap {.unsigned}, .bits 0x40⟩,
    ⟨.source, .bits 0xC⟩],
  row 0x83000800 0xFF000C00 4 .macMac [
    ⟨.rename .roundBoth, .bits 1⟩, ⟨.rename .wide40Both, .bits 2⟩, ⟨.xmem, .bits 0xFC0000⟩,
    ⟨.wrap {.unsigned}, .bits 0x80⟩, ⟨.cmem, .bits 0x300⟩, ⟨.wrap {.unsigned}, .bits 0x40⟩,
    ⟨.source, .bits 0x30⟩, ⟨.shiftRight, .constant 16⟩, ⟨.split, .bits 0⟩,
    ⟨.xmem, .bits 0x3F000⟩, ⟨.wrap {.unsigned}, .bits 0x80⟩, ⟨.cmem, .bits 0x300⟩,
    ⟨.wrap {.unsigned}, .bits 0x40⟩, ⟨.source, .bits 0xC⟩],
  row 0x83000C00 0xFF000C00 4 .amarMac [
    ⟨.rename .roundSecond, .bits 1⟩, ⟨.rename .wide40Second, .bits 2⟩, ⟨.xmem, .bits 0xFC0000⟩,
    ⟨.split, .bits 0⟩, ⟨.xmem, .bits 0x3F000⟩, ⟨.wrap {.unsigned}, .bits 0x80⟩,
    ⟨.cmem, .bits 0x300⟩, ⟨.wrap {.unsigned}, .bits 0x40⟩, ⟨.source, .bits 0xC⟩],
  row 0x84000000 0xFF000C00 4 .masMac [
    ⟨.rename .roundBoth, .bits 1⟩, ⟨.rename .wide40Both, .bits 2⟩, ⟨.xmem, .bits 0xFC0000⟩,
    ⟨.wrap {.unsigned}, .bits 0x80⟩, ⟨.cmem, .bits 0x300⟩, ⟨.wrap {.unsigned}, .bits 0x40⟩,
    ⟨.source, .bits 0x30⟩, ⟨.split, .bits 0⟩, ⟨.xmem, .bits 0x3F000⟩,
    ⟨.wrap {.unsigned}, .bits 0x80⟩, ⟨.cmem, .bits 0x300⟩, ⟨.wrap {.unsigned}, .bits 0x40⟩,
    ⟨.source, .bits 0xC⟩, ⟨.shiftRight, .constant 16⟩],
  row 0x84000400 0xFF000C00 4 .amarMac [
    ⟨.rename .roundSecond, .bits 1⟩, ⟨.rename .wide40Second, .bits 2⟩, ⟨.xmem, .bits 0xFC0000⟩,
    ⟨.split, .bits 0⟩, ⟨.xmem, .bits 0x3F000⟩, ⟨.wrap {.unsigned}, .bits 0x80⟩,
    ⟨.cmem, .bits 0x300⟩, ⟨.wrap {.unsigned}, .bits 0x40⟩, ⟨.source, .bits 0xC⟩,
    ⟨.shiftRight, .constant 16⟩],
  row 0x84000800 0xFF000C00 4 .mpyMac [
    ⟨.rename .roundBoth, .bits 1⟩, ⟨.rename .wide40Both, .bits 2⟩, ⟨.xmem, .bits 0xFC0000⟩,
    ⟨.wrap {.unsigned}, .bits 0x80⟩, ⟨.cmem, .bits 0x300⟩, ⟨.wrap {.unsigned}, .bits 0x40⟩,
    ⟨.source, .bits 0x30⟩, ⟨.split, .bits 0⟩, ⟨.xmem, .bits 0x3F000⟩,
    ⟨.wrap {.unsigned}, .bits 0x80⟩, ⟨.cmem, .bits 0x300⟩, ⟨.wrap {.unsigned}, .bits 0x40⟩,
    ⟨.source, .bits 0xC⟩, ⟨.shiftRight, .constant 16⟩],
  row 0x84000C00 0xFF000C00 4 .macMac [
    ⟨.rename .roundBoth, .bits 1⟩, ⟨.rename .wide40Both, .bits 2⟩, ⟨.xmem, .bits 0xFC0000⟩,
    ⟨.wrap {.unsigned}, .bits 0x80⟩, ⟨.cmem, .bits 0x300⟩, ⟨.wrap {.unsigned}, .bits 0x40⟩,
    ⟨.source, .bits 0x30⟩, ⟨.shiftRight, .constant 16⟩, ⟨.split, .bits 0⟩,
    ⟨.xmem, .bits 0x3F000⟩, ⟨.wrap {.unsigned}, .bits 0x80⟩, ⟨.cmem, .bits 0x300⟩,
    ⟨.wrap {.unsigned}, .bits 0x40⟩, ⟨.source, .bits 0xC⟩, ⟨.shiftRight, .constant 16⟩],
  row 0x85000000 0xFF000C00 4 .amarMas [
    ⟨.rename .roundSecond, .bits 1⟩, ⟨.rename .wide40Second, .bits 2⟩, ⟨.xmem, .bits 0xFC0000⟩,
    ⟨.split, .bits 0⟩, ⟨.xmem, .bits 0x3F000⟩, ⟨.wrap {.unsigned}, .bits 0x80⟩,
    ⟨.cmem, .bits 0x300⟩, ⟨.wrap {.unsigned}, .bits 0x40⟩, ⟨.source, .bits 0xC⟩],
  row 0x85000400 0xFF000C00 4 .masMas [
    ⟨.rename .roundBoth, .bits 1⟩, ⟨.rename .wide40Both, .bits 2⟩, ⟨.xmem, .bits 0xFC0000⟩,
    ⟨.wrap {.unsigned}, .bits 0x80⟩, ⟨.cmem, .bits 0x300⟩, ⟨.wrap {.unsigned}, .bits 0x40⟩,
    ⟨.source, .bits 0x30⟩, ⟨.split, .bits 0⟩, ⟨.xmem, .bits 0x3F000⟩,
    ⟨.wrap {.unsigned}, .bits 0x80⟩, ⟨.cmem, .bits 0x300⟩, ⟨.wrap {.unsigned}, .bits 0x40⟩,
    ⟨.source, .bits 0xC⟩],
  row 0x85000800 0xFF000C00 4 .amar3 [
    ⟨.xmem, .bits 0xFC0000⟩, ⟨.xmem, .bits 0x3F000⟩, ⟨.cmem, .bits 0x300⟩],
  row 0x85000C00 0xFF000C10 4 .firsadd [
    ⟨.xmem, .bits 0xFC0000⟩, ⟨.xmem, .bits 0x3F000⟩, ⟨.cmem, .bits 0x300⟩, ⟨.source, .bits 0xC0⟩,
    ⟨.source, .bits 0xC⟩],
  row 0x85000C10 0xFF000C10 4 .firssub [
    ⟨.xmem, .bits 0xFC0000⟩, ⟨.xmem, .bits 0x3F000⟩, ⟨.cmem, .bits 0x300⟩, ⟨.source, .bits 0xC0⟩,
    ⟨.source, .bits 0xC⟩],
  row 0x86000000 0xFF0000E0 4 .mpym3 [
    ⟨.rename .round, .bits 1⟩, ⟨.rename .wide40, .bits 0x10⟩, ⟨.xmem, .bits 0xFC0000⟩,
    ⟨.wrap {.unsigned}, .bits 8⟩, ⟨.wrap {.assignT3}, .bits 2⟩, ⟨.xmem, .bits 0x3F000⟩,
    ⟨.wrap {.unsigned}, .bits 4⟩, ⟨.source, .bits 0x300⟩],
  row 0x86000020 0xFF0000E0 4 .macm3 [
    ⟨.rename .round, .bits 1⟩, ⟨.rename .wide40, .bits 0x10⟩, ⟨.xmem, .bits 0xFC0000⟩,
    ⟨.wrap {.unsigned}, .bits 8⟩, ⟨.wrap {.assignT3}, .bits 2⟩, ⟨.xmem, .bits 0x3F000⟩,
    ⟨.wrap {.unsigned}, .bits 4⟩, ⟨.source, .bits 0xC00⟩, ⟨.optionalSource, .bits 0x300⟩],
  row 0x86000040 0xFF0000E0 4 .macm3 [
    ⟨.rename .round, .bits 1⟩, ⟨.rename .wide40, .bits 0x10⟩, ⟨.xmem, .bits 0xFC0000⟩,
    ⟨.wrap {.unsigned}, .bits 8⟩, ⟨.wrap {.assignT3}, .bits 2⟩, ⟨.xmem, .bits 0x3F000⟩,
    ⟨.wrap {.unsigned}, .bits 4⟩, ⟨.source, .bits 0xC00⟩, ⟨.shiftRight, .constant 16⟩,
    ⟨.optionalSource, .bits 0x300⟩],
  row 0x86000060 0xFF0000E0 4 .masm3 [
    ⟨.rename .round, .bits 1⟩, ⟨.rename .wide40, .bits 0x10⟩, ⟨.xmem, .bits 0xFC0000⟩,
    ⟨.wrap {.unsigned}, .bits 8⟩, ⟨.wrap {.assignT3}, .bits 2⟩, ⟨.xmem, .bits 0x3F000⟩,
    ⟨.wrap {.unsigned}, .bits 4⟩, ⟨.source, .bits 0xC00⟩, ⟨.optionalSource, .bits 0x300⟩],
  row 0x86000080 0xFF0000E0 4 .masmMov [
    ⟨.rename .roundFirst, .bits 1⟩, ⟨.xmem, .bits 0xFC0000⟩, ⟨.wrap {.assignT3}, .bits 2⟩,
    ⟨.temporary, .bits 0xC⟩, ⟨.source, .bits 0xC00⟩, ⟨.split, .bits 0⟩, ⟨.xmem, .bits 0x3F000⟩,
    ⟨.shiftLeft16, .bits 0⟩, ⟨.source, .bits 0x300⟩],
  row 0x860000A0 0xFF0000E0 4 .macmMov [
    ⟨.rename .roundFirst, .bits 1⟩, ⟨.xmem, .bits 0xFC0000⟩, ⟨.wrap {.assignT3}, .bits 2⟩,
    ⟨.temporary, .bits 0xC⟩, ⟨.source, .bits 0xC00⟩, ⟨.split, .bits 0⟩, ⟨.xmem, .bits 0x3F000⟩,
    ⟨.shiftLeft16, .bits 0⟩, ⟨.source, .bits 0x300⟩],
  row 0x860000C0 0xFF0000E0 4 .lms [
    ⟨.xmem, .bits 0xFC0000⟩, ⟨.xmem, .bits 0x3F000⟩, ⟨.source, .bits 0xC00⟩,
    ⟨.source, .bits 0x300⟩],
  row 0x860000E0 0xFF0000F0 4 .sqdst [
    ⟨.xmem, .bits 0xFC0000⟩, ⟨.xmem, .bits 0x3F000⟩, ⟨.source, .bits 0xC00⟩,
    ⟨.source, .bits 0x300⟩],
  row 0x860000F0 0xFF0000F0 4 .abdst [
    ⟨.xmem, .bits 0xFC0000⟩, ⟨.xmem, .bits 0x3F000⟩, ⟨.source, .bits 0xC00⟩,
    ⟨.source, .bits 0x300⟩],
  row 0x87000000 0xFF0000E0 4 .mpymMov [
    ⟨.rename .roundFirst, .bits 1⟩, ⟨.xmem, .bits 0xFC0000⟩, ⟨.wrap {.assignT3}, .bits 2⟩,
    ⟨.temporary, .bits 0xC⟩, ⟨.source, .bits 0x300⟩, ⟨.split, .bits 0⟩, ⟨.source, .bits 0xC00⟩,
    ⟨.wrap {.high}, .constant 1⟩, ⟨.shiftByT2, .bits 0⟩, ⟨.xmem, .bits 0x3F000⟩],
  row 0x87000020 0xFF0000E0 4 .macmMov [
    ⟨.rename .roundFirst, .bits 1⟩, ⟨.xmem, .bits 0xFC0000⟩, ⟨.wrap {.assignT3}, .bits 2⟩,
    ⟨.temporary, .bits 0xC⟩, ⟨.source, .bits 0x300⟩, ⟨.split, .bits 0⟩, ⟨.source, .bits 0xC00⟩,
    ⟨.wrap {.high}, .constant 1⟩, ⟨.shiftByT2, .bits 0⟩, ⟨.xmem, .bits 0x3F000⟩],
  row 0x87000040 0xFF0000E0 4 .masmMov [
    ⟨.rename .roundFirst, .bits 1⟩, ⟨.xmem, .bits 0xFC0000⟩, ⟨.wrap {.assignT3}, .bits 2⟩,
    ⟨.temporary, .bits 0xC⟩, ⟨.source, .bits 0x300⟩, ⟨.split, .bits 0⟩, ⟨.source, .bits 0xC00⟩,
    ⟨.wrap {.high}, .constant 1⟩, ⟨.shiftByT2, .bits 0⟩, ⟨.xmem, .bits 0x3F000⟩],
  row 0x87000080 0xFF0000E0 4 .addMov [
    ⟨.xmem, .bits 0xFC0000⟩, ⟨.shiftLeft16, .bits 0⟩, ⟨.source, .bits 0xC00⟩,
    ⟨.source, .bits 0x300⟩, ⟨.split, .bits 0⟩, ⟨.source, .bits 0x300⟩,
    ⟨.wrap {.high}, .constant 1⟩, ⟨.shiftByT2, .bits 0⟩, ⟨.xmem, .bits 0x3F000⟩],
  row 0x870000A0 0xFF0000E0 4 .subMov [
    ⟨.xmem, .bits 0xFC0000⟩, ⟨.shiftLeft16, .bits 0⟩, ⟨.source, .bits 0xC00⟩,
    ⟨.source, .bits 0x300⟩, ⟨.split, .bits 0⟩, ⟨.source, .bits 0x300⟩,
    ⟨.wrap {.high}, .constant 1⟩, ⟨.shiftByT2, .bits 0⟩, ⟨.xmem, .bits 0x3F000⟩],
  row 0x870000C0 0xFF0000E0 4 .movMov [
    ⟨.xmem, .bits 0xFC0000⟩, ⟨.shiftLeft16, .bits 0⟩, ⟨.source, .bits 0x300⟩, ⟨.split, .bits 0⟩,
    ⟨.source, .bits 0xC00⟩, ⟨.wrap {.high}, .constant 1⟩, ⟨.shiftByT2, .bits 0⟩,
    ⟨.xmem, .bits 0x3F000⟩],
  row 0x8A0000A0 0xFF0000F0 4 .movMov [
    ⟨.xmem, .bits 0xFC0000⟩, ⟨.source, .bits 0xF00⟩, ⟨.split, .bits 0⟩, ⟨.xmem, .bits 0x3F000⟩,
    ⟨.source, .bits 0xF⟩],
  row 0x8A00001000 0xFF0000F700 5 .movAadd [
    ⟨.smem, .bits 0xFF000000⟩, ⟨.source, .bits 0xF0000⟩, ⟨.split, .bits 0⟩,
    ⟨.source, .bits 0xF0⟩, ⟨.source, .bits 0xF00000⟩],
  row 0x8A0000D600 0xFF0000FF00 5 .movAdd [
    ⟨.xmem, .bits 0xFC000000⟩, ⟨.source, .bits 0xF0000⟩, ⟨.split, .bits 0⟩,
    ⟨.xmem, .bits 0x3F00000⟩, ⟨.source, .bits 0xF0⟩, ⟨.source, .bits 0xF⟩],
  row 0x8A0000E708 0xFF0000FF0C 5 .movMov [
    ⟨.xmem, .bits 0xFC000000⟩, ⟨.source, .bits 0xF0000⟩, ⟨.split, .bits 0⟩,
    ⟨.source, .bits 0xC0⟩, ⟨.shiftByTemporary, .bits 0x30⟩, ⟨.wrap {.high}, .constant 1⟩,
    ⟨.wrap {.round}, .bits 1⟩, ⟨.xmem, .bits 0x3F00000⟩],
  row 0x8B0004B4 0xFF000FFF 4 .amarAmar [
    ⟨.xmem, .bits 0xFC0000⟩, ⟨.split, .bits 0⟩, ⟨.xmem, .bits 0x3F000⟩],
  row 0x8C00001400 0xFF0000F700 5 .movAadd [
    ⟨.source, .bits 0xF0000⟩, ⟨.smem, .bits 0xFF000000⟩, ⟨.split, .bits 0⟩,
    ⟨.unsignedByte, .bits 0xFF⟩, ⟨.source, .bits 0xF00000⟩],
  row 0x8D000CB000 0xFF000FFC03 5 .btstMov [
    ⟨.unsignedByte, .bits 0xF0⟩, ⟨.xmem, .bits 0xFC000000⟩, ⟨.testControl, .bits 1⟩,
    ⟨.split, .bits 0⟩, ⟨.xmem, .bits 0x3F00000⟩, ⟨.shiftLeft16, .bits 0⟩, ⟨.source, .bits 0x300⟩],
  row 0x8D00061A0000 0xFF000FF70000 6 .addAsub [
    ⟨.smem, .bits 0xFF00000000⟩, ⟨.source, .bits 0xF000⟩, ⟨.source, .bits 0xF00⟩,
    ⟨.split, .bits 0⟩, ⟨.source, .bits 0xF0⟩, ⟨.source, .bits 0xF0000000⟩],
  row 0x8E000B100500 0xFF000FF70F00 6 .movAadd [
    ⟨.extended, .bits 0xF000⟩, ⟨.lmem, .bits 0xFF00000000⟩, ⟨.wrap {.double}, .constant 1⟩,
    ⟨.split, .bits 0⟩, ⟨.source, .bits 0xF0⟩, ⟨.source, .bits 0xF0000000⟩],
  row 0x8E000B160500 0xFF000FF70F00 6 .movAsub [
    ⟨.extended, .bits 0xF000⟩, ⟨.lmem, .bits 0xFF00000000⟩, ⟨.wrap {.double}, .constant 1⟩,
    ⟨.split, .bits 0⟩, ⟨.unsignedByte, .bits 0xFF⟩, ⟨.source, .bits 0xF0000000⟩],
  row 0x8E000D100800 0xFF000FF70F00 6 .movAadd [
    ⟨.lmem, .bits 0xFF00000000⟩, ⟨.wrap {.double}, .constant 1⟩, ⟨.source, .bits 0x3000⟩,
    ⟨.split, .bits 0⟩, ⟨.source, .bits 0xF0⟩, ⟨.source, .bits 0xF0000000⟩],
  row 0x8E000B140500 0xFF000FF70F00 6 .movAadd [
    ⟨.extended, .bits 0xF000⟩, ⟨.lmem, .bits 0xFF00000000⟩, ⟨.wrap {.double}, .constant 1⟩,
    ⟨.split, .bits 0⟩, ⟨.unsignedByte, .bits 0xFF⟩, ⟨.source, .bits 0xF0000000⟩],
  row 0x8E000B140800 0xFF000FF70F00 6 .movAadd [
    ⟨.source, .bits 0x3000⟩, ⟨.lmem, .bits 0xFF00000000⟩, ⟨.wrap {.double}, .constant 1⟩,
    ⟨.split, .bits 0⟩, ⟨.unsignedByte, .bits 0xFF⟩, ⟨.source, .bits 0xF0000000⟩],
  row 0x8E000B100800 0xFF000FF70F00 6 .movAadd [
    ⟨.source, .bits 0x3000⟩, ⟨.lmem, .bits 0xFF00000000⟩, ⟨.wrap {.double}, .constant 1⟩,
    ⟨.split, .bits 0⟩, ⟨.source, .bits 0xF0⟩, ⟨.source, .bits 0xF0000000⟩],
  row 0x8E0006140000 0xFF000FF70000 6 .movAadd [
    ⟨.unsignedByte, .bits 0xFF00⟩, ⟨.lmem, .bits 0xFF00000000⟩, ⟨.split, .bits 0⟩,
    ⟨.unsignedByte, .bits 0xFF⟩, ⟨.source, .bits 0xF0000000⟩],
  row 0x8E000DEB080D 0xFF000FFF0F0F 6 .movMov [
    ⟨.xmem, .bits 0xFC00000000⟩, ⟨.wrap {.double}, .constant 1⟩, ⟨.source, .bits 0x3000⟩,
    ⟨.split, .bits 0⟩, ⟨.source, .bits 0x30⟩, ⟨.shiftRight, .constant 1⟩,
    ⟨.xmem, .bits 0x3F0000000⟩, ⟨.wrap {.dual}, .constant 1⟩],
  row 0x8E000EEB040D 0xFF000FFF0F0F 6 .subMov [
    ⟨.xmem, .bits 0xFC00000000⟩, ⟨.wrap {.dual}, .constant 1⟩, ⟨.source, .bits 0xC000⟩,
    ⟨.source, .bits 0x3000⟩, ⟨.split, .bits 0⟩, ⟨.source, .bits 0x30⟩,
    ⟨.shiftRight, .constant 1⟩, ⟨.xmem, .bits 0x3F0000000⟩, ⟨.wrap {.dual}, .constant 1⟩],
  row 0x8E000EEB000D 0xFF000FFF0F0F 6 .addMov [
    ⟨.xmem, .bits 0xFC00000000⟩, ⟨.wrap {.dual}, .constant 1⟩, ⟨.source, .bits 0xC000⟩,
    ⟨.source, .bits 0x3000⟩, ⟨.split, .bits 0⟩, ⟨.source, .bits 0x30⟩,
    ⟨.shiftRight, .constant 1⟩, ⟨.xmem, .bits 0x3F0000000⟩, ⟨.wrap {.dual}, .constant 1⟩],
  row 0x8E000EEB0408 0xFF000FFF0F0F 6 .subMov [
    ⟨.xmem, .bits 0xFC00000000⟩, ⟨.wrap {.dual}, .constant 1⟩, ⟨.source, .bits 0xC000⟩,
    ⟨.source, .bits 0x3000⟩, ⟨.split, .bits 0⟩, ⟨.source, .bits 0x30⟩,
    ⟨.xmem, .bits 0x3F0000000⟩, ⟨.wrap {.double}, .constant 1⟩],
  row 0x8E000EEB0008 0xFF000FFF0F0F 6 .addMov [
    ⟨.xmem, .bits 0xFC00000000⟩, ⟨.wrap {.dual}, .constant 1⟩, ⟨.source, .bits 0xC000⟩,
    ⟨.source, .bits 0x3000⟩, ⟨.split, .bits 0⟩, ⟨.source, .bits 0x30⟩,
    ⟨.xmem, .bits 0x3F0000000⟩, ⟨.wrap {.double}, .constant 1⟩]]

end DspCode.Encoding
