import DspCode.Proofs.Locality

/-!
# The widths of packed code words

A packed word holds the first two bytes of both halves; how many more bytes each half has is guessed
from the table. For a second half with a memory field the guess is right, since the bytes after the
first half are consulted until they settle it. The first half is guessed from its first byte alone,
which settles the width for all but four opcodes. Main statement: two code words with memory fields
are unpacked exactly if the first of them does not start with one of these four.
-/

namespace DspCode

/-- Whether all units of a row agree. -/
def RowMatch.isFull : RowMatch → Bool
  | .full _ => true
  | .differs | .cutOff => false

/-- A full match comes with its code word. -/
theorem RowMatch.exists_full {m : RowMatch} (h : m.isFull = true) : ∃ word, m = .full word := by
  cases m with
  | full word => exact ⟨word, rfl⟩
  | differs | cutOff => cases h

/-- The bytes that are read between two places are those of the memory. -/
theorem AddressSpace.getElem?_bytesBetween {space : AddressSpace} {a : Address} {lo hi i : Nat}
    {bytes : List UInt8} {b : UInt8} (h : space.bytesBetween? a lo hi = some bytes)
    (hb : bytes[i]? = some b) : space (a + UInt32.ofNat (lo + i)) = some b := by
  have hi := (List.getElem?_eq_some_iff.mp hb).1
  have hlength := length_bytesBetween h
  have hplace := congrArg (·[i]?) (map_some_bytesBetween h)
  simp only [List.getElem?_map, hb, Option.map_some] at hplace
  rw [List.getElem?_range' (by omega), Option.map_some, Nat.one_mul] at hplace
  exact (Option.some.inj hplace).symm

namespace Encoding

variable {e : Encoding}

/-- The bits that a row fixes are bits of its code word, and only they are in its code. -/
theorem code_of_mem : ∀ e ∈ table, e.width ≤ 4 →
    e.code &&& e.mask = e.code ∧ e.mask >>> (8 * e.width) = 0 := by
  decide +kernel

/-- A row of at most four bytes agrees with a word if each of its patterns fits. -/
theorem agreesWithWord_of_fits (he : e ∈ table) (hw : e.width ≤ 4) {word : Nat}
    (h : ∀ i < e.width, (e.pattern i).fits (wordByte word i) = true) :
    e.agreesWithWord word = true := by
  obtain ⟨hcode, hmask⟩ := code_of_mem e he hw
  have hfixed : ∀ j, e.code.testBit j = (e.code.testBit j && e.mask.testBit j) := by
    intro j
    rw [← Nat.testBit_and, hcode]
  refine Bool.and_eq_true_iff.mpr ⟨decide_eq_true hw, beq_iff_eq.mpr ?_⟩
  apply Nat.eq_of_testBit_eq
  intro j
  rw [Nat.testBit_and, Nat.testBit_shiftRight, hfixed]
  by_cases hj : j < 8 * e.width
  · -- the bit belongs to the unit that `j / 8` more units follow
    have hfits := h (e.width - 1 - j / 8) (by omega)
    have hunit : e.width - 1 - (e.width - 1 - j / 8) = j / 8 := by omega
    have hplace : 8 * (3 - (e.width - 1 - j / 8)) + j % 8 = 8 * (4 - e.width) + j := by omega
    have hbit : j / 8 * 8 + j % 8 = j := by omega
    simp only [pattern, BytePattern.fits, beq_iff_eq, hunit, wordByte,
      UInt8.toNat_ofNat_of_lt' (Nat.mod_lt _ (by decide : 0 < 256))] at hfits
    have hlow := congrArg (·.testBit (j % 8)) hfits
    simp only [Nat.testBit_and, Nat.testBit_mod_two_pow (j := 8), Nat.testBit_shiftRight, hplace,
      hbit, Nat.mod_lt j (by decide : 0 < 8), decide_true, Bool.true_and] at hlow
    rw [hlow, Bool.and_comm]
  · have hnone : e.mask.testBit j = false := by
      rw [← Nat.add_sub_cancel' (Nat.not_lt.mp hj), ← Nat.testBit_shiftRight, hmask,
        Nat.zero_testBit]
    rw [hnone, Bool.false_and, Bool.and_false]

end Encoding

namespace PackedPair

/-- The width of the code words whose first byte does not settle it: with these first bytes, every
row fixes bits of the bytes after the second one. -/
def openWidth? (opcode : Nat) : Option Nat :=
  match opcode with
  | 0x8A | 0x8B => some 4
  | 0xE5 | 0xEB => some 3
  | _ => none

/-- Whether the width of a row is what its first byte, or else the table of open widths, tells; the
rows that can start with the byte are given. -/
def settlesWidth (rows : List Encoding) (opcode : Nat) (e : Encoding) : Bool :=
  Nat.blt 4 e.width || !(e.pattern 0).fits (UInt8.ofNat opcode) ||
    match openWidth? opcode with
    | none => Encoding.leadingWidth rows (opcode * 0x1000000) == e.width
    | some width => e.width == width && (e.pattern 1).mask == 0

/-- The first byte settles the width of every row for a memory operand, except for the open ones. -/
theorem settlesWidth_startingWith : ∀ high < 16, 8 ≤ high → ∀ low < 16,
    (Encoding.startingWith high).all
      (settlesWidth (Encoding.startingWith high) (high * 16 + low)) = true := by
  decide +kernel

/-- The first bytes with an open width settle none. -/
theorem widthOf_open : ∀ opcode < 256, (openWidth? opcode).isSome →
    widthOf (opcode * 0x1000000) = 0 := by
  decide +kernel

section Widths

variable {e : Encoding} {opcode n : Nat}

private theorem wordByte_eq {word i : Nat} {b : UInt8}
    (h : word >>> (8 * (3 - i)) % 256 = b.toNat) : Encoding.wordByte word i = b := by
  rw [Encoding.wordByte, h, UInt8.ofNat_toNat]

/-- The first byte of a word is its opcode. -/
theorem wordByte_first (hop : opcode < 256) {rest : Nat} (hrest : rest < 0x1000000) :
    Encoding.wordByte (opcode * 0x1000000 + rest) 0 = UInt8.ofNat opcode := by
  refine wordByte_eq ?_
  rw [UInt8.toNat_ofNat_of_lt' hop, Nat.shiftRight_eq_div_pow]
  omega

/-- A width that is found is that of a row which agrees with the word. -/
theorem exists_of_leadingWidth {rows : List Encoding} {word : Nat}
    (h : Encoding.leadingWidth rows word ≠ 0) :
    ∃ e ∈ rows, e.agreesWithWord word = true ∧ e.width = Encoding.leadingWidth rows word := by
  unfold Encoding.leadingWidth at h ⊢
  cases he : rows.find? (·.agreesWithWord word) with
  | none =>
    rw [he] at h
    exact absurd rfl h
  | some e =>
    have hagrees := List.find?_some he
    exact ⟨e, List.mem_of_find?_eq_some he, hagrees, rfl⟩

/-- Where a row agrees with a word, the width of the word is that of the row. -/
theorem widthOf_eq_of_agrees (he : e ∈ Encoding.table) {word : Nat}
    (h : e.agreesWithWord word = true) : widthOf word = e.width := by
  unfold widthOf Encoding.leadingWidth
  split
  next e' he' =>
    have hagrees := List.find?_some he'
    exact Encoding.width_eq_of_agreesWithWord (List.mem_of_find?_eq_some he') he hagrees h
  next hnone => exact absurd h (List.find?_eq_none.mp hnone e he)

section First

variable (he : e ∈ Encoding.table) (hop : opcode < 256) (hhigh : 0x80 ≤ opcode)
  (hfits : (e.pattern 0).fits (UInt8.ofNat opcode) = true) (hw : e.width ≤ 4)
include he hop hhigh hfits

/-- Every row passes the check for the first bytes that fit it. -/
theorem settlesWidth_of_fits :
    settlesWidth (Encoding.startingWith (opcode / 16)) opcode e = true := by
  have hmem := Encoding.mem_startingWith he hfits
  rw [UInt8.toNat_ofNat_of_lt' hop] at hmem
  have hall := settlesWidth_startingWith (opcode / 16) (by omega) (by omega) (opcode % 16)
    (by omega)
  rw [show opcode / 16 * 16 + opcode % 16 = opcode by omega] at hall
  exact List.all_eq_true.mp hall e hmem

include hw

/-- Apart from the open ones, the first byte of a row is enough to find its width. -/
theorem widthOf_settled (hopen : openWidth? opcode = none) :
    widthOf (opcode * 0x1000000) = e.width := by
  have hsettles := settlesWidth_of_fits he hop hhigh hfits
  simp only [settlesWidth, hfits, hopen, Bool.not_true, Bool.or_false, Bool.or_eq_true,
    Nat.blt_eq, beq_iff_eq] at hsettles
  have hlead := hsettles.resolve_left (Nat.not_lt.mpr hw)
  have hpos := (Encoding.width_of_mem he).1
  obtain ⟨e', he', hagrees, hwidth⟩ := exists_of_leadingWidth (by rw [hlead]; omega)
  rw [widthOf_eq_of_agrees (List.mem_filter.mp he').1 hagrees, hwidth, hlead]

/-- All rows with an open first byte have the same width, and fix nothing of the second byte. -/
theorem width_of_open (hopen : openWidth? opcode = some n) :
    e.width = n ∧ (e.pattern 1).mask = 0 := by
  have hsettles := settlesWidth_of_fits he hop hhigh hfits
  simp only [settlesWidth, hfits, hopen, Bool.not_true, Bool.or_false, Bool.or_eq_true,
    Bool.and_eq_true, Nat.blt_eq, beq_iff_eq] at hsettles
  exact hsettles.resolve_left (Nat.not_lt.mpr hw)

end First

/-- Open widths are of three bytes or more, for first bytes from 0x80 on. -/
theorem openWidth?_eq_some (h : openWidth? opcode = some n) :
    0x80 ≤ opcode ∧ opcode < 256 ∧ 3 ≤ n := by
  unfold openWidth? at h
  split at h
  case h_5 => cases h
  all_goals
    cases h
    decide

/-- After an open first byte, more bytes give the width of its rows or none. -/
theorem widthOf_of_open (hopen : openWidth? opcode = some n) {rest : Nat}
    (hrest : rest < 0x1000000) :
    widthOf (opcode * 0x1000000 + rest) = 0 ∨ widthOf (opcode * 0x1000000 + rest) = n := by
  by_cases hzero : widthOf (opcode * 0x1000000 + rest) = 0
  · exact .inl hzero
  · obtain ⟨hhigh, hop, -⟩ := openWidth?_eq_some hopen
    obtain ⟨e, he, hagrees, hwidth⟩ := exists_of_leadingWidth hzero
    have hw : e.width ≤ 4 := of_decide_eq_true (Bool.and_eq_true_iff.mp hagrees).1
    have hfits := Encoding.fits_of_agreesWithWord hagrees (Encoding.width_of_mem he).1
    rw [wordByte_first hop hrest] at hfits
    right
    exact hwidth.symm.trans (width_of_open he hop hhigh hfits hw hopen).1

end Widths

/-- The bytes are a code word: all units of some row agree, and the row has as many units. -/
def IsCodeWord (bytes : List UInt8) : Prop :=
  ∃ e ∈ Encoding.table, e.width = bytes.length ∧
    (e.compareRow 8 (.primed (fun _ => none) 0 bytes)).1.isFull = true

instance (bytes : List UInt8) : Decidable (IsCodeWord bytes) :=
  inferInstanceAs (Decidable (∃ e ∈ Encoding.table, _))

/-- The bytes of a code word fit a row of their own length. -/
theorem IsCodeWord.exists_row {bytes : List UInt8} (h : IsCodeWord bytes)
    (hlength : bytes.length ≤ ByteWindow.capacity) :
    ∃ e ∈ Encoding.table, e.width = bytes.length ∧
      ∀ i b, bytes[i]? = some b → (e.pattern i).fits b = true := by
  obtain ⟨e, he, hwidth, hfull⟩ := h
  rw [(e.compareRow_eq 8 _).1] at hfull
  obtain ⟨word, hword⟩ := RowMatch.exists_full hfull
  refine ⟨e, he, hwidth, fun i b hb => ?_⟩
  obtain ⟨hi, rfl⟩ := List.getElem?_eq_some_iff.mp hb
  obtain ⟨c, hc, hfits⟩ := Encoding.fits_of_compareBytes hword (hwidth ▸ hi)
  rw [ByteWindow.answer_primed_of_lt hlength hi] at hc
  cases hc
  exact hfits

section Unpacking

variable {space : AddressSpace} {a : Address}

/-- A row with an open first byte is found from its third and fourth bytes, whatever its second. -/
theorem widthOf_open_word {e : Encoding} {opcode n low : Nat} {bytes : List UInt8} {third : UInt8}
    (he : e ∈ Encoding.table) (hopen : openWidth? opcode = some n)
    (hwidth : e.width = bytes.length) (hlength : bytes.length ≤ 4)
    (hfits : ∀ i b, bytes[i]? = some b → (e.pattern i).fits b = true)
    (hfirst : bytes[0]? = some (UInt8.ofNat opcode)) (hthird : bytes[2]? = some third)
    (hlow : low < 256) (hfourth : 3 < bytes.length → bytes[3]? = some (UInt8.ofNat low)) :
    widthOf (opcode * 0x1000000 + (third.toNat * 0x100 + low)) = n := by
  obtain ⟨hhigh, hop, -⟩ := openWidth?_eq_some hopen
  have hw : e.width ≤ 4 := hwidth ▸ hlength
  obtain ⟨hn, hmask⟩ := width_of_open he hop hhigh (hfits 0 _ hfirst) hw hopen
  have l₂ := third.toNat_lt
  rw [← hn]
  refine widthOf_eq_of_agrees he (Encoding.agreesWithWord_of_fits he hw fun i hi => ?_)
  rcases i with _ | _ | _ | _ | i
  · rw [wordByte_first hop (by omega)]
    exact hfits 0 _ hfirst
  · simp only [BytePattern.fits, hmask, Nat.and_zero, beq_self_eq_true]
  · rw [wordByte_eq (b := third) (by rw [Nat.shiftRight_eq_div_pow]; omega)]
    exact hfits 2 _ hthird
  · have hbyte : (UInt8.ofNat low).toNat = low := UInt8.toNat_ofNat_of_lt' hlow
    rw [wordByte_eq (b := UInt8.ofNat low) (by rw [hbyte, Nat.shiftRight_eq_div_pow]; omega)]
    exact hfits 3 _ (hfourth (by omega))
  · omega

/-- Behind an open first byte, the bytes after the first half are consulted until they tell the
width. -/
theorem memoryTailWidth?_of_open {e : Encoding} {opcode n headWidth hi : Nat} {m : UInt8}
    {rest : List UInt8} (he : e ∈ Encoding.table) (hopen : openWidth? opcode = some n)
    (hwidth : e.width = (UInt8.ofNat opcode :: m :: rest).length) (hlength : rest.length ≤ 2)
    (hfits : ∀ i b, (UInt8.ofNat opcode :: m :: rest)[i]? = some b → (e.pattern i).fits b = true)
    (hrest : space.bytesBetween? a (headWidth + 2) hi = some rest) :
    memoryTailWidth? space a opcode headWidth = some n := by
  obtain ⟨hhigh, hop, hthree⟩ := openWidth?_eq_some hopen
  have hlength' : (UInt8.ofNat opcode :: m :: rest).length ≤ 4 := Nat.add_le_add_right hlength 2
  have hn := (width_of_open he hop hhigh (hfits 0 _ rfl) (hwidth ▸ hlength') hopen).1
  simp only [memoryTailWidth?]
  rw [if_neg (by rw [widthOf_open opcode hop (by rw [hopen]; rfl)]; decide)]
  cases rest with
  | nil => exact absurd (hn.symm.trans hwidth) (Nat.ne_of_gt hthree)
  | cons third more =>
    have hthird : byteAt? space a (headWidth + 2) = some third.toNat := by
      rw [byteAt?, AddressSpace.getElem?_bytesBetween hrest (i := 0) rfl, Option.map_some]
    have lthird := third.toNat_lt
    have hrange : third.toNat * 0x100 < 0x1000000 := by omega
    rw [hthird, Option.bind_eq_bind, Option.bind_some]
    rcases widthOf_of_open hopen hrange with hnone | hfound
    · rw [if_neg (by rw [hnone]; decide)]
      cases more with
      | nil =>
        -- a row of three bytes is found by now
        have hfound := widthOf_open_word he hopen hwidth hlength' hfits rfl rfl
          (by decide : 0 < 256) fun hlong => absurd hlong (Nat.lt_irrefl 3)
        rw [Nat.add_zero, hnone] at hfound
        omega
      | cons fourth more =>
        have hfourth : byteAt? space a (headWidth + 3) = some fourth.toNat := by
          rw [byteAt?, AddressSpace.getElem?_bytesBetween hrest (i := 1) rfl, Option.map_some]
        have hfound := widthOf_open_word he hopen hwidth hlength' hfits rfl rfl
          fourth.toNat_lt fun _ => by rw [UInt8.ofNat_toNat]; rfl
        rw [hfourth, Option.bind_some, Nat.add_assoc, hfound, if_pos (by omega), Option.pure_def]
    · rw [hfound, if_pos (by omega), Option.pure_def]

/-- The width of a second half with a memory field is found. -/
theorem memoryTailWidth?_of_codeWord {opcode headWidth hi : Nat} {m : UInt8} {rest : List UInt8}
    (hop : opcode < 256) (hhigh : 0x80 ≤ opcode) (hlength : rest.length ≤ 2)
    (hrest : space.bytesBetween? a (headWidth + 2) hi = some rest)
    (hcode : IsCodeWord (UInt8.ofNat opcode :: m :: rest)) :
    memoryTailWidth? space a opcode headWidth = some (rest.length + 2) := by
  have hlength' : (UInt8.ofNat opcode :: m :: rest).length ≤ 4 := Nat.add_le_add_right hlength 2
  obtain ⟨e, he, hwidth, hfits⟩ := hcode.exists_row (Nat.le_trans hlength' (by decide))
  have hw : e.width ≤ 4 := hwidth ▸ hlength'
  have hcount : e.width = rest.length + 2 := hwidth
  have hfirst := hfits 0 _ rfl
  cases hopen : openWidth? opcode with
  | none =>
    have hsettled := widthOf_settled he hop hhigh hfirst hw hopen
    rw [memoryTailWidth?, hsettled, if_pos (by omega), hcount]
  | some n =>
    have hn := (width_of_open he hop hhigh hfirst hw hopen).1
    rw [memoryTailWidth?_of_open he hopen hwidth hlength hfits hrest, ← hn, hcount]

/-- The memory at `a` spells two code words with memory fields: their first bytes and their packed
fields are those of `word`, their further bytes follow the word in memory. -/
structure Spells (space : AddressSpace) (a : Address) (word : Nat) (pair : PackedPair) : Prop where
  /-- The first half has two to four bytes. -/
  head_length : 2 ≤ pair.head.length ∧ pair.head.length ≤ 4
  /-- The second half has two to four bytes. -/
  tail_length : 2 ≤ pair.tail.length ∧ pair.tail.length ≤ 4
  /-- The bytes of the first half. -/
  head_bytes : ∃ rest, space.bytesBetween? a 4 (pair.head.length + 2) = some rest ∧
    pair.head = UInt8.ofNat (headOpcode word) :: memoryByte (headField word) :: rest
  /-- The bytes of the second half. -/
  tail_bytes : ∃ rest,
    space.bytesBetween? a (pair.head.length + 2) (pair.head.length + pair.tail.length) =
      some rest ∧
    pair.tail = UInt8.ofNat (tailOpcode word) :: memoryByte (tailField word) :: rest
  /-- The first half is a code word. -/
  head_code : IsCodeWord pair.head
  /-- The second half is a code word. -/
  tail_code : IsCodeWord pair.tail

/-- Where two code words are spelled, they are unpacked if the first byte of the first one settles
its width; otherwise nothing is unpacked. -/
theorem Spells.withMemoryFields? {word : Nat} {pair : PackedPair} (h : Spells space a word pair)
    (hhead : 0x80 ≤ headOpcode word) (htail : 0x80 ≤ tailOpcode word) :
    withMemoryFields? space a word =
      if openWidth? (headOpcode word) = none then some pair else none := by
  obtain ⟨hl, tl, ⟨headRest, hhr, hheadBytes⟩, ⟨tailRest, htr, htailBytes⟩, hcode, tcode⟩ := h
  have hop : headOpcode word < 256 := by unfold headOpcode; omega
  have top : tailOpcode word < 256 := Nat.mod_lt _ (by decide)
  obtain ⟨e, he, hwidth, hfits⟩ := hcode.exists_row (Nat.le_trans hl.2 (by decide))
  have hfirst : (e.pattern 0).fits (UInt8.ofNat (headOpcode word)) = true := by
    refine hfits 0 _ ?_
    rw [hheadBytes]
    rfl
  have htailLength : pair.tail.length = tailRest.length + 2 := by
    rw [htailBytes, List.length_cons, List.length_cons]
  simp only [PackedPair.withMemoryFields?]
  cases hopen : openWidth? (headOpcode word) with
  | some n =>
    rw [widthOf_open _ hop (by rw [hopen]; rfl), if_pos (by decide)]
    rfl
  | none =>
    rw [htailBytes] at tcode
    rw [widthOf_settled he hop hhead hfirst (hwidth ▸ hl.2) hopen, hwidth,
      if_neg (Nat.not_lt.mpr hl.1),
      memoryTailWidth?_of_codeWord top htail (by omega) htr tcode, Option.bind_eq_bind,
      Option.bind_some, hhr, Option.bind_eq_bind, Option.bind_some, ← htailLength, htr,
      Option.bind_some, ← hheadBytes, ← htailBytes, if_pos rfl, Option.pure_def]

end Unpacking

/-- Two code words with memory fields behind a marker are unpacked exactly if the first byte of the
first one settles its width; otherwise nothing is unpacked. -/
theorem unpack?_spelled_iff {space : AddressSpace} {a : Address} {first : UInt8} {w : UInt32}
    {pair : PackedPair} (hf : space a = some first) (hmarker : isMarker first = true)
    (hw : space.readBigEndian a 4 = .ok w) (hm : 0x80 ≤ tailOpcode w.toNat)
    (h : Spells space a w.toNat pair) :
    (unpack? space a = some pair ↔ openWidth? (headOpcode w.toNat) = none) ∧
      (openWidth? (headOpcode w.toNat) ≠ none → unpack? space a = none) := by
  obtain ⟨b₀, b₁, b₂, b₃, h₀, -, -, -, hword⟩ := AddressSpace.readBigEndian_four hw
  cases hf.symm.trans h₀
  have hhead : 0x80 ≤ headOpcode w.toNat := by
    have l₁ := b₁.toNat_lt
    have l₂ := b₂.toNat_lt
    have l₃ := b₃.toNat_lt
    have hop : headOpcode w.toNat < 256 := by unfold headOpcode; omega
    have hle := le_headOpcode (show w.toNat / 0x1000000 = first.toNat by omega) hmarker
    rwa [UInt8.le_iff_toNat_le, UInt8.toNat_ofNat_of_lt' hop] at hle
  have hunpack : unpack? space a = withMemoryFields? space a w.toNat := by
    rw [unpack?, hw]
    exact if_pos hm
  rw [hunpack, h.withMemoryFields? hhead hm]
  by_cases hopen : openWidth? (headOpcode w.toNat) = none
  · rw [if_pos hopen]
    exact ⟨⟨fun _ => hopen, fun _ => rfl⟩, fun hne => absurd hopen hne⟩
  · rw [if_neg hopen]
    refine ⟨⟨fun hnone => ?_, fun hnone => absurd hnone hopen⟩, fun _ => rfl⟩
    exact absurd hnone.symm (Option.some_ne_none pair)

private theorem spells_sixBytePair :
    Spells Machine.sixBytePair 0 0x8F0600C0 ⟨[0xF0, 0x03, 0x21, 0x00], [0xC0, 0x81]⟩ where
  head_length := by decide
  tail_length := by decide
  head_bytes := ⟨[0x21, 0x00], by decide, by decide⟩
  tail_bytes := ⟨[], by decide, by decide⟩
  head_code := by decide +kernel
  tail_code := by decide +kernel

/-- The packed word of the six bytes spells both halves, which are unpacked from it. -/
theorem unpack?_spelled_iff_sixBytePair :
    Machine.sixBytePair 0 = some 0x8F ∧ isMarker 0x8F = true ∧
      Machine.sixBytePair.readBigEndian 0 4 = .ok 0x8F0600C0 ∧
      0x80 ≤ tailOpcode (0x8F0600C0 : UInt32).toNat ∧ openWidth? (headOpcode 0x8F0600C0) = none ∧
      unpack? Machine.sixBytePair 0 = some ⟨[0xF0, 0x03, 0x21, 0x00], [0xC0, 0x81]⟩ :=
  have h := unpack?_spelled_iff (w := 0x8F0600C0) (rfl : Machine.sixBytePair 0 = some 0x8F) rfl rfl
    (by decide) spells_sixBytePair
  ⟨rfl, rfl, rfl, by decide, by decide, h.1.mpr (by decide)⟩

/-- A pair whose first half, a move of a high byte to memory, is told from others by its third byte
only. -/
def openPair : AddressSpace := .holding 0 [0x8E, 0x04, 0x95, 0xC0, 0x04]

/-- Two code words that are spelled in memory and are not unpacked. -/
theorem unpack?_openPair :
    Spells openPair 0 0x8E0495C0 ⟨[0xE5, 0x03, 0x04], [0xC0, 0x23]⟩ ∧
      openPair.readBigEndian 0 4 = .ok 0x8E0495C0 ∧ isMarker 0x8E = true ∧
      unpack? openPair 0 = none := by
  refine ⟨?_, rfl, rfl, by decide +kernel⟩
  exact {
    head_length := by decide
    tail_length := by decide
    head_bytes := ⟨[0x04], by decide, by decide⟩
    tail_bytes := ⟨[], by decide, by decide⟩
    head_code := by decide +kernel
    tail_code := by decide +kernel }

end PackedPair

end DspCode
