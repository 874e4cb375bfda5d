import DspCode.Proofs.Lengths

/-!
# Plain instructions that start like a packed pair

Some rows of the table start with the marker of a packed pair: they are two instructions in one code
word, laid out as a pair would be. Where such a row agrees, no pair is looked for. If the bytes also
unpack into two instructions, these take every byte that the row takes. The widths of the halves add
up to that of the row, and where the memory operand of the row needs further bytes, so does that of
the first half, which has the same memory byte.
-/

namespace DspCode

namespace BytePattern

/-- The pattern of the byte made of the low halves of two bytes. -/
def joined (high low : BytePattern) : BytePattern :=
  ⟨high.code % 16 * 16 + low.code % 16, high.mask % 16 * 16 + low.mask % 16⟩

/-- The byte made of the low halves of two bytes. -/
def joinedByte (high low : UInt8) : UInt8 := UInt8.ofNat (high.toNat % 16 * 16 + low.toNat % 16)

private theorem and_joined (x y m n : Nat) :
    (x % 16 * 16 + y % 16) &&& (m % 16 * 16 + n % 16) = (x &&& m) % 16 * 16 + (y &&& n) % 16 := by
  have hhigh := Nat.and_div_two_pow (a := x % 16 * 16 + y % 16) (b := m % 16 * 16 + n % 16) (n := 4)
  have hlow := Nat.and_mod_two_pow (a := x % 16 * 16 + y % 16) (b := m % 16 * 16 + n % 16) (n := 4)
  have hx : (x &&& m) % 16 = x % 16 &&& m % 16 := Nat.and_mod_two_pow (n := 4)
  have hy : (y &&& n) % 16 = y % 16 &&& n % 16 := Nat.and_mod_two_pow (n := 4)
  have hdiv : ∀ u v : Nat, (u % 16 * 16 + v % 16) / 2 ^ 4 = u % 16 := by omega
  have hmod : ∀ u v : Nat, (u % 16 * 16 + v % 16) % 2 ^ 4 = v % 16 := by omega
  rw [hdiv, hdiv] at hhigh
  rw [hmod, hmod] at hlow
  rw [hx, hy, ← hhigh, ← hlow]
  omega

/-- Bytes that fit two patterns join to one that fits the joined pattern. -/
theorem fits_joined {p q : BytePattern} {b c : UInt8} (hp : p.fits b = true)
    (hq : q.fits c = true) : (joined p q).fits (joinedByte b c) = true := by
  have hbyte : (joinedByte b c).toNat = b.toNat % 16 * 16 + c.toNat % 16 :=
    UInt8.toNat_ofNat_of_lt' (by show _ < 256; omega)
  rw [fits, beq_iff_eq] at hp hq ⊢
  rw [hbyte]
  simp only [joined, and_joined, hp, hq]

/-- The pattern of the first byte of a packed pair. -/
def marker : BytePattern := ⟨0x88, 0xF8⟩

private theorem fits_marker {b : UInt8} (h : PackedPair.isMarker b = true) :
    marker.fits b = true := by
  have hall : ∀ n < 256, PackedPair.isMarker (UInt8.ofNat n) = true →
      marker.fits (UInt8.ofNat n) = true := by decide +kernel
  have := hall b.toNat b.toNat_lt
  rw [UInt8.ofNat_toNat] at this
  exact this h

/-- The pattern of bytes below 0x80. -/
def below0x80 : BytePattern := ⟨0, 0x80⟩

/-- The pattern of bytes from 0x80 on. -/
def from0x80 : BytePattern := ⟨0x80, 0x80⟩

private theorem fits_below0x80 {b : UInt8} (h : b < 0x80) : below0x80.fits b = true := by
  have hall : ∀ n < 128, 0 = n &&& 0x80 := by decide +kernel
  exact beq_iff_eq.mpr (hall b.toNat h)

private theorem fits_from0x80 {b : UInt8} (h : 0x80 ≤ b) : from0x80.fits b = true := by
  have hall : ∀ n < 256, 0x80 ≤ n → 0x80 = n &&& 0x80 := by decide +kernel
  exact beq_iff_eq.mpr (hall b.toNat b.toNat_lt h)

end BytePattern

namespace Encoding

/-- The code word of a row that agrees is made of the units read. -/
theorem compareUnits_full_word {e : Encoding} {bytes : Answers} {left position word result : Nat}
    (h : e.compareUnits 8 bytes left position word = .full result) :
    result >>> (8 * left) = word ∧ ∀ i < left, ∀ b, bytes (position + i) = .ok b →
      result >>> (8 * (left - 1 - i)) % 256 = b.toNat := by
  induction left generalizing position word with
  | zero =>
    cases h
    exact ⟨rfl, fun i hi => absurd hi (Nat.not_lt_zero i)⟩
  | succ left ih =>
    unfold compareUnits at h
    split at h
    next => cases h
    next => cases h
    next b hb =>
      split at h
      next =>
        have hlt := b.toNat_lt
        obtain ⟨htop, hrest⟩ := ih h
        have hunit : result >>> (8 * left) = word * 256 + b.toNat := by
          rw [htop, show unitOf 8 b = b.toNat from Nat.mod_eq_of_lt hlt, Nat.shiftLeft_eq]
        refine ⟨?_, fun i hi c hc => ?_⟩
        · rw [Nat.mul_succ, Nat.shiftRight_add, hunit, Nat.shiftRight_eq_div_pow]
          omega
        · cases i with
          | zero =>
            cases hb.symm.trans hc
            rw [Nat.add_sub_cancel, Nat.sub_zero, hunit]
            omega
          | succ i =>
            have hplace : position + (i + 1) = position + 1 + i := by omega
            rw [hplace] at hc
            have := hrest i (Nat.lt_of_succ_lt_succ hi) c hc
            rwa [show left + 1 - 1 - (i + 1) = left - 1 - i by omega]
      next => cases h

end Encoding

/-- A field that reads nothing takes no bytes. -/
theorem Field.bytesAfter_of_not_reads {field : Field} (h : field.reads = false) (v : Nat) :
    field.bytesAfter v = 0 := by
  cases field with
  | smem | lmem | pointerUpdate | bitAddress | absoluteTarget => cases h
  | _ => rfl

/-- Only the fields that read bytes take any. -/
theorem FieldUse.bytesAfter_filter (word : Nat) (fields : List FieldUse) :
    bytesAfter word fields = bytesAfter word (fields.filter (·.field.reads)) := by
  induction fields with
  | nil => rfl
  | cons use rest ih =>
    rw [bytesAfter, ih]
    cases h : use.field.reads with
    | true => rw [List.filter_cons, if_pos h, bytesAfter]
    | false =>
      rw [List.filter_cons, if_neg (by rw [h]; decide), Field.bytesAfter_of_not_reads h,
        Nat.zero_add]

namespace Encoding

/-- Whether a row takes no bytes after its code word. -/
def readsNothing (e : Encoding) : Bool := (e.fields.filter (·.field.reads)).isEmpty

/-- Whether a row takes bytes after its code word for a single memory operand alone, whose value is
the second byte. -/
def readsBySecond (e : Encoding) : Bool :=
  Nat.ble 2 e.width &&
    match e.fields.filter (·.field.reads) with
    | [⟨.smem, .bits mask⟩] | [⟨.lmem, .bits mask⟩] => mask == 0xFF <<< (8 * (e.width - 2))
    | _ => false

variable {e : Encoding}

/-- A row whose fields read nothing takes no bytes after its code word. -/
theorem bytesAfter_of_readsNothing (h : e.readsNothing = true) (word : Nat) :
    e.bytesAfter word = 0 := by
  rw [bytesAfter, FieldUse.bytesAfter_filter, List.isEmpty_iff.mp h]
  rfl

/-- Selecting a whole byte of a code word of at most six bytes. -/
theorem select_byte (word : Nat) {n : Nat} (hn : n < 5) :
    (BitSelector.bits (0xFF <<< (8 * n))).select word = word >>> (8 * n) % 256 := by
  have hlowest : ∀ n < 5, lowestBit (0xFF <<< (8 * n)) = 2 ^ (8 * n) := by decide
  rw [BitSelector.select, hlowest n hn, ← Nat.shiftRight_eq_div_pow, Nat.shiftRight_and_distrib,
    Nat.shiftLeft_shiftRight]
  exact Nat.and_two_pow_sub_one_eq_mod _ 8

/-- What a row with one memory operand takes after its code word is told by its second byte. -/
theorem bytesAfter_of_readsBySecond (h : e.readsBySecond = true) (hw : e.width ≤ 6) (word : Nat) :
    2 ≤ e.width ∧
      e.bytesAfter word = MemoryAccess.bytesAfter (word >>> (8 * (e.width - 2)) % 256) := by
  rw [readsBySecond, Bool.and_eq_true, Nat.ble_eq] at h
  obtain ⟨htwo, h⟩ := h
  refine ⟨htwo, ?_⟩
  rw [bytesAfter, FieldUse.bytesAfter_filter, ← select_byte word (by omega)]
  split at h
  next mask hfields =>
    rw [hfields, ← beq_iff_eq.mp h]
    rfl
  next mask hfields =>
    rw [hfields, ← beq_iff_eq.mp h]
    rfl
  next => cases h

/-- The pattern of the first byte that a first half has where the row agrees. -/
def headPattern (e : Encoding) : BytePattern := .joined (e.pattern 0) (e.pattern 2)

/-- The rows that can be the first half where the row agrees. -/
def heads (e : Encoding) : List Encoding :=
  table.filter fun head => !(head.pattern 0).excludes e.headPattern

/-- The rows that can be the second half where the row agrees and both halves have memory fields. -/
def tails (e : Encoding) : List Encoding :=
  table.filter fun tail => !(tail.pattern 0).excludes (e.pattern 3)

/-- Whether a row is laid out like pairs with two memory fields, and takes no byte past them. -/
def coversMemoryPair (e : Encoding) : Bool :=
  (e.pattern 3).excludes .below0x80 && e.readsNothing &&
    e.heads.all fun head => e.tails.all fun tail => Nat.ble e.width (head.width + tail.width)

/-- Whether a row is laid out like pairs with a short second half, and takes no byte past them. -/
def coversShortPair (e : Encoding) : Bool :=
  (e.pattern 3).excludes .from0x80 && e.readsBySecond &&
    e.heads.all fun head => head.readsBySecond && Nat.ble e.width (head.width + 3)

/-- Every row that starts with a marker is laid out like a packed pair. -/
theorem table_covers : (table.all fun e => (e.pattern 0).excludes .marker ||
    Nat.ble 4 e.width && (e.coversMemoryPair || e.coversShortPair)) = true := by
  decide +kernel

/-- A row that fits a byte is not excluded by a pattern which the byte fits too. -/
theorem mem_filter_excludes {p : BytePattern} (he : e ∈ table) {b : UInt8}
    (hb : (e.pattern 0).fits b = true) (hp : p.fits b = true) :
    e ∈ table.filter fun other => !(other.pattern 0).excludes p := by
  refine List.mem_filter.mpr ⟨he, ?_⟩
  rw [BytePattern.not_excludes_of_fits hb hp]
  rfl

/-- In rows laid out like pairs with two memory fields, the fourth byte is 0x80 or more. -/
theorem from_of_coversMemoryPair (h : e.coversMemoryPair = true) {b : UInt8}
    (hb : (e.pattern 3).fits b = true) : 0x80 ≤ b := by
  simp only [coversMemoryPair, Bool.and_eq_true] at h
  refine UInt8.not_lt.mp fun hlow => ?_
  have hexcludes := h.1.1
  rw [BytePattern.not_excludes_of_fits hb (BytePattern.fits_below0x80 hlow)] at hexcludes
  cases hexcludes

/-- In rows laid out like pairs with a short second half, the fourth byte is below 0x80. -/
theorem below_of_coversShortPair (h : e.coversShortPair = true) {b : UInt8}
    (hb : (e.pattern 3).fits b = true) : b < 0x80 := by
  simp only [coversShortPair, Bool.and_eq_true] at h
  refine UInt8.not_le.mp fun hhigh => ?_
  have hexcludes := h.1.1
  rw [BytePattern.not_excludes_of_fits hb (BytePattern.fits_from0x80 hhigh)] at hexcludes
  cases hexcludes

/-- A row laid out like pairs with two memory fields needs no more than the two code words. -/
theorem length_le_of_coversMemoryPair (h : e.coversMemoryPair = true) {head tail : Encoding}
    (hhead : head ∈ e.heads) (htail : tail ∈ e.tails) (word : Nat) :
    e.width + e.bytesAfter word ≤ head.width + tail.width := by
  simp only [coversMemoryPair, Bool.and_eq_true, List.all_eq_true, Nat.ble_eq] at h
  obtain ⟨⟨-, hnothing⟩, hwidth⟩ := h
  rw [bytesAfter_of_readsNothing hnothing, Nat.add_zero]
  exact hwidth head hhead tail htail

/-- A row laid out like pairs with a short second half needs no more than its three bytes after the
first half: the memory byte is the same, and so is what it asks for. -/
theorem length_le_of_coversShortPair (h : e.coversShortPair = true) (he : e ∈ table)
    {head : Encoding} (hhead : head ∈ e.heads) {word headWord : Nat} {b : UInt8}
    (hb : word >>> (8 * (e.width - 1 - 1)) % 256 = b.toNat)
    (hheadByte : 1 < head.width → headWord >>> (8 * (head.width - 1 - 1)) % 256 = b.toNat) :
    e.width + e.bytesAfter word ≤ head.width + head.bytesAfter headWord + 3 := by
  simp only [coversShortPair, Bool.and_eq_true, List.all_eq_true, Nat.ble_eq] at h
  obtain ⟨⟨-, hreads⟩, hcovers⟩ := h
  obtain ⟨hheadReads, hwidth⟩ := hcovers head hhead
  obtain ⟨-, hafter⟩ := bytesAfter_of_readsBySecond hreads (width_of_mem he).2 word
  obtain ⟨htwo, hheadAfter⟩ := bytesAfter_of_readsBySecond hheadReads
    (width_of_mem (List.mem_filter.mp hhead).1).2 headWord
  have hsame : e.bytesAfter word = head.bytesAfter headWord := by
    rw [hafter, hheadAfter]
    exact congrArg MemoryAccess.bytesAfter (hb.trans (hheadByte htwo).symm)
  omega

end Encoding

namespace PackedPair

/-- What the first bytes of the halves are, given the bytes of the packed word. -/
structure Front (space : AddressSpace) (a : Address) (pair : PackedPair) (b₀ b₁ b₂ b₃ : UInt8) :
    Prop where
  byte₀ : space a = some b₀
  byte₁ : space (a + 1) = some b₁
  byte₂ : space (a + 2) = some b₂
  byte₃ : space (a + 3) = some b₃
  /-- The first half starts with the low halves of two bytes. -/
  head_first : pair.head[0]? = some (BytePattern.joinedByte b₀ b₂)
  /-- A second half with a memory field starts with the last byte. -/
  memory : 0x80 ≤ b₃ → pair.tail[0]? = some b₃
  /-- Before a short second half, the first half has the second byte as it is. -/
  short : b₃ < 0x80 → pair.head[1]? = some b₁ ∧ pair.tail.length = 3

section Front

variable {space : AddressSpace} {a : Address} {word : Nat} {pair : PackedPair}

/-- The halves of a pair with two memory fields start with their opcodes. -/
theorem front_of_withMemoryFields (h : withMemoryFields? space a word = some pair) :
    pair.head[0]? = some (UInt8.ofNat (headOpcode word)) ∧
      pair.tail[0]? = some (UInt8.ofNat (tailOpcode word)) := by
  simp only [withMemoryFields?] at h
  split at h
  next => cases h
  next =>
    obtain ⟨tailWidth, -, h⟩ := Option.bind_eq_some_iff.mp h
    obtain ⟨headRest, -, h⟩ := Option.bind_eq_some_iff.mp h
    obtain ⟨tailRest, -, h⟩ := Option.bind_eq_some_iff.mp h
    cases h
    exact ⟨rfl, rfl⟩

/-- The first half of a pair with a short second half starts with its opcode and memory field. -/
theorem front_of_withShortTail (h : withShortTail? space a word = some pair) :
    pair.head[0]? = some (UInt8.ofNat (headOpcode word)) ∧
      pair.head[1]? = some (UInt8.ofNat (word / 0x10000 % 256)) ∧ pair.tail.length = 3 := by
  simp only [withShortTail?] at h
  obtain ⟨headWidth, -, h⟩ := Option.bind_eq_some_iff.mp h
  split at h
  next => cases h
  next =>
    obtain ⟨headRest, -, h⟩ := Option.bind_eq_some_iff.mp h
    obtain ⟨middle, -, h⟩ := Option.bind_eq_some_iff.mp h
    cases h
    exact ⟨rfl, rfl, rfl⟩

/-- The first bytes of both halves are made of the bytes of the packed word. -/
theorem front_of_unpack (h : unpack? space a = some pair) :
    ∃ b₀ b₁ b₂ b₃, Front space a pair b₀ b₁ b₂ b₃ := by
  unfold unpack? at h
  split at h
  next => cases h
  next w hw =>
    obtain ⟨b₀, b₁, b₂, b₃, h₀, h₁, h₂, h₃, hword⟩ := AddressSpace.readBigEndian_four hw
    have l₁ := b₁.toNat_lt
    have l₂ := b₂.toNat_lt
    have l₃ := b₃.toNat_lt
    have hhead : headOpcode w.toNat = b₀.toNat % 16 * 16 + b₂.toNat % 16 := by
      unfold headOpcode
      omega
    have hsecond : w.toNat / 0x10000 % 256 = b₁.toNat := by omega
    have htail : tailOpcode w.toNat = b₃.toNat := by
      unfold tailOpcode
      omega
    simp only [htail] at h
    refine ⟨b₀, b₁, b₂, b₃, ?_⟩
    split at h
    next hm =>
      obtain ⟨hh, ht⟩ := front_of_withMemoryFields h
      rw [hhead] at hh
      rw [htail, UInt8.ofNat_toNat] at ht
      exact ⟨h₀, h₁, h₂, h₃, hh, fun _ => ht, fun hlow => absurd hm (Nat.not_le.mpr hlow)⟩
    next hm =>
      obtain ⟨hh, hs, hl⟩ := front_of_withShortTail h
      rw [hhead] at hh
      rw [hsecond, UInt8.ofNat_toNat] at hs
      exact ⟨h₀, h₁, h₂, h₃, hh, fun hhigh => absurd hhigh hm, fun _ => ⟨hs, hl⟩⟩

end Front

end PackedPair

namespace Machine

namespace Matched

variable {context : Context} {next : NextAddress} {row : Encoding} {word : Nat}
  {insn : Instruction}

/-- Each byte of the code word fits its pattern, and stands at its place in the code word. -/
theorem unit_spec {w : ByteWindow} (h : Matched context next w row word insn) {i : Nat}
    (hi : i < row.width) {b : UInt8} (hb : w.answer i = .ok b) :
    (row.pattern i).fits b = true ∧ word >>> (8 * (row.width - 1 - i)) % 256 = b.toNat := by
  have hfull := (Encoding.firstMatch_found h.found).2
  obtain ⟨c, hc, hfits⟩ := Encoding.fits_of_compareBytes hfull hi
  cases hb.symm.trans hc
  refine ⟨hfits, (Encoding.compareUnits_full_word hfull).2 i hi b ?_⟩
  rw [Nat.zero_add]
  exact hb

private theorem unit_spec_new {space : AddressSpace} {a : Address}
    (h : Matched context next (.new space a) row word insn) {i : Nat} (hi : i < row.width)
    {b : UInt8} (hb : space (a + UInt32.ofNat i) = some b) :
    (row.pattern i).fits b = true ∧ word >>> (8 * (row.width - 1 - i)) % 256 = b.toNat := by
  obtain ⟨c, hc⟩ := h.exists_answer (Nat.lt_of_lt_of_le hi h.width_le)
  have hshown : space (a + UInt32.ofNat i) = some c := (ByteWindow.answer_eq_ok_iff.mp hc).2.2
  cases hb.symm.trans hshown
  exact h.unit_spec hi hc

/-- The first byte of an instruction is mapped and fits its row. -/
theorem exists_first {space : AddressSpace} {a : Address}
    (h : Matched context next (.new space a) row word insn) :
    ∃ b, space a = some b ∧ (row.pattern 0).fits b = true := by
  obtain ⟨b, hb, hfits⟩ := Encoding.fits_of_compareBytes (Encoding.firstMatch_found h.found).2
    (Encoding.width_of_mem h.mem).1
  have hshown : space (a + 0) = some b := (ByteWindow.answer_eq_ok_iff.mp hb).2.2
  rw [UInt32.add_zero] at hshown
  exact ⟨b, hshown, hfits⟩

/-- A matched row fits the bytes that a half was unpacked to, and its code word is made of them. -/
theorem unit_spec_primed {space : AddressSpace} {a : Address} {bytes : List UInt8}
    (h : Matched context next (.primed space a bytes) row word insn)
    (hl : insn.length = bytes.length) {i : Nat} (hi : i < row.width) {b : UInt8}
    (hb : bytes[i]? = some b) :
    (row.pattern i).fits b = true ∧ word >>> (8 * (row.width - 1 - i)) % 256 = b.toNat := by
  obtain ⟨hlt, rfl⟩ := List.getElem?_eq_some_iff.mp hb
  exact h.unit_spec hi (ByteWindow.answer_primed_of_lt (hl ▸ h.length_le_capacity) hlt)

end Matched

/-- A plain instruction that starts with a marker takes no byte past the pair that its bytes unpack
into. -/
theorem Halves.length_le_of_matched {space : AddressSpace} {context : Context}
    {next next' : NextAddress} {a : Address} {pair : PackedPair} {head tail : Instruction}
    {first : UInt8} {row : Encoding} {word : Nat} {insn : Instruction}
    (hh : Halves space context next a pair head tail) (hf : space a = some first)
    (hmarker : PackedPair.isMarker first = true)
    (hm : Matched context next' (.new space a) row word insn) :
    insn.length ≤ pair.head.length + pair.tail.length := by
  obtain ⟨b₀, b₁, b₂, b₃, hfront⟩ := PackedPair.front_of_unpack hh.unpacked
  cases hf.symm.trans hfront.byte₀
  obtain ⟨⟨headRow, headWord, hhead⟩, hheadLength, -⟩ := exists_matched_of_exactly hh.matchedHead
  obtain ⟨⟨tailRow, tailWord, htail⟩, htailLength, -⟩ := exists_matched_of_exactly hh.matchedTail
  have hplace : a + UInt32.ofNat 0 = a := UInt32.add_zero a
  have hbyte₀ := (hm.unit_spec_new (Encoding.width_of_mem hm.mem).1
    (hplace.symm ▸ hfront.byte₀)).1
  have hcovers := List.all_eq_true.mp Encoding.table_covers row hm.mem
  rw [BytePattern.not_excludes_of_fits hbyte₀ (BytePattern.fits_marker hmarker), Bool.false_or,
    Bool.and_eq_true, Nat.ble_eq, Bool.or_eq_true] at hcovers
  obtain ⟨hfour, hcovers⟩ := hcovers
  have hbyte₂ := (hm.unit_spec_new (i := 2) (by omega) hfront.byte₂).1
  have hbyte₃ := (hm.unit_spec_new (i := 3) (by omega) hfront.byte₃).1
  have hheads : headRow ∈ row.heads := Encoding.mem_filter_excludes hhead.mem
    (hhead.unit_spec_primed hheadLength (Encoding.width_of_mem hhead.mem).1 hfront.head_first).1
    (BytePattern.fits_joined hbyte₀ hbyte₂)
  rw [hm.length_eq, ← hheadLength, hhead.length_eq]
  rcases hcovers with hcovers | hcovers
  · have htails : tailRow ∈ row.tails := Encoding.mem_filter_excludes htail.mem
      (htail.unit_spec_primed htailLength (Encoding.width_of_mem htail.mem).1
        (hfront.memory (Encoding.from_of_coversMemoryPair hcovers hbyte₃))).1 hbyte₃
    have hle := Encoding.length_le_of_coversMemoryPair hcovers hheads htails word
    rw [← htailLength, htail.length_eq]
    omega
  · obtain ⟨hsecond, hthree⟩ := hfront.short (Encoding.below_of_coversShortPair hcovers hbyte₃)
    rw [hthree]
    exact Encoding.length_le_of_coversShortPair hcovers hm.mem hheads
      (hm.unit_spec_new (i := 1) (by omega) hfront.byte₁).2
      fun htwo => (hhead.unit_spec_primed hheadLength htwo hsecond).2

end Machine

end DspCode
