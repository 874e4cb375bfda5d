import DspCode.Encoding

/-!
# Encodings with first byte 0x90 to 0xCF

Rows for extended moves, conditional execution and plain memory moves.
-/

namespace DspCode.Encoding

/-- Encodings whose first byte lies between 0x90 and 0xCF, in search order. -/
def rows90ToCF : List Encoding := [
  row 0x9000 0xFF00 2 .mov2 [⟨.extended, .bits 0xF0⟩, ⟨.extended, .bits 0xF⟩],
  row 0x9100 0xFF00 2 .b [⟨.source, .bits 3⟩],
  row 0x9200 0xFF00 2 .call [⟨.source, .bits 3⟩],
  row 0x9400 0xFF00 2 .reset [],
  row 0x9500 0xFF80 2 .intr [⟨.unsignedByte, .bits 0x1F⟩],
  row 0x9580 0xFF80 2 .trap [⟨.unsignedByte, .bits 0x1F⟩],
  row 0x9600 0xFF80 2 .xcc [⟨.condition, .bits 0x7F⟩],
  row 0x9680 0xFF80 2 .xccpart [⟨.condition, .bits 0x7F⟩],
  row 0x9E00 0xFF80 2 .xcc [⟨.condition, .bits 0x7F⟩, ⟨.parallelMark, .bits 0⟩],
  row 0x9E80 0xFF80 2 .xccpart [⟨.condition, .bits 0x7F⟩],
  row 0x9F00 0xFF80 2 .xcc [⟨.condition, .bits 0x7F⟩],
  row 0x9F80 0xFF80 2 .xccpart [⟨.condition, .bits 0x7F⟩],
  row 0xA000 0xF000 2 .mov2 [⟨.smem, .bits 0xFF⟩, ⟨.source, .bits 0xF00⟩],
  row 0xB000 0xFC00 2 .mov2 [
    ⟨.smem, .bits 0xFF⟩, ⟨.shiftLeft16, .bits 0⟩, ⟨.source, .bits 0x300⟩],
  row 0xB400 0xFF00 2 .amar1 [⟨.smem, .bits 0xFF⟩],
  row 0xB500 0xFF00 2 .psh1 [⟨.smem, .bits 0xFF⟩],
  row 0xB600 0xFF00 2 .delay [⟨.smem, .bits 0xFF⟩],
  row 0xB700 0xFF00 2 .psh1 [⟨.lmem, .bits 0xFF⟩, ⟨.wrap {.double}, .constant 1⟩],
  row 0xB800 0xFF00 2 .pop1 [⟨.lmem, .bits 0xFF⟩, ⟨.wrap {.double}, .constant 1⟩],
  row 0xBB00 0xFF00 2 .pop1 [⟨.smem, .bits 0xFF⟩],
  row 0xBC00 0xFC00 2 .mov2 [
    ⟨.source, .bits 0x300⟩, ⟨.wrap {.high}, .constant 1⟩, ⟨.smem, .bits 0xFF⟩],
  row 0xC000 0xF000 2 .mov2 [⟨.source, .bits 0xF00⟩, ⟨.smem, .bits 0xFF⟩]]

end DspCode.Encoding
