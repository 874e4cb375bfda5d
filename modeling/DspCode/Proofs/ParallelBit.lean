import DspCode.Proofs.Frames
import DspCode.Proofs.Locality

/-!
# The parallel bit

A first byte up to 0x5F has the parallel bit as its lowest one. No row that starts with such a byte
fixes this bit, and no field of it takes a value from it. Nor does anything else in decoding look at
it, the parallel mark apart: the bytes of a partner lie behind the instruction. Main statement:
setting the parallel bit sets the parallel mark and changes nothing else.
-/

namespace DspCode

/-- The address space with another byte at an address. -/
def AddressSpace.withByte (space : AddressSpace) (a : Address) (b : UInt8) : AddressSpace :=
  fun x => if x = a then some b else space x

namespace AddressSpace

variable (space : AddressSpace) (a : Address) (b : UInt8)

private theorem withByte_self : space.withByte a b a = some b := if_pos rfl

/-- Behind the changed byte everything is as before. -/
theorem withByte_add {n : Nat} (hpos : 0 < n) (hlt : n < UInt32.size) :
    space.withByte a b (a + UInt32.ofNat n) = space (a + UInt32.ofNat n) := by
  refine if_neg fun heq => ?_
  have hzero : UInt32.ofNat n = 0 := by
    have := congrArg (· - a) heq
    simpa [UInt32.add_comm a, UInt32.add_sub_cancel] using this
  have := congrArg UInt32.toNat hzero
  rw [UInt32.toNat_ofNat_of_lt' hlt] at this
  exact absurd this (Nat.ne_of_gt hpos)

end AddressSpace

/-- An answer depends on which bytes up to it are there, and on the last of them. -/
theorem ByteWindow.answer_congr {v w : ByteWindow} (hbase : v.base = w.base) {offset : Nat}
    (hsome : ∀ j ≤ offset, (v.shown? j).isSome = (w.shown? j).isSome)
    (hlast : v.shown? offset = w.shown? offset) : v.answer offset = w.answer offset := by
  cases hw : w.answer offset with
  | ok b =>
    obtain ⟨hcapacity, hall, hb⟩ := answer_eq_ok_iff.mp hw
    exact answer_eq_ok_iff.mpr
      ⟨hcapacity, fun j hj => (hsome j hj).trans (hall j hj), hlast.trans hb⟩
  | error e =>
    cases e with
    | exhausted => exact answer_eq_exhausted_iff.mpr (answer_eq_exhausted_iff.mp hw)
    | unmapped a =>
      obtain ⟨hcapacity, j, hj, rfl, hnone, hall⟩ := answer_eq_unmapped_iff.mp hw
      refine answer_eq_unmapped_iff.mpr ⟨hcapacity, j, hj, by rw [hbase], ?_, fun i hi => ?_⟩
      · rw [← Option.not_isSome_iff_eq_none, hsome j hj, hnone]
        decide
      · rw [hsome i (Nat.le_of_lt (Nat.lt_of_lt_of_le hi hj))]
        exact hall i hi

/-- The match with another code word. -/
def RowMatch.mapWord (f : Nat → Nat) : RowMatch → RowMatch
  | .full word => .full (f word)
  | .differs => .differs
  | .cutOff => .cutOff

/-- The search result with another code word, depending on the row. -/
def SearchResult.mapWord (f : Encoding → Nat → Nat) : SearchResult → SearchResult
  | .found row word => .found row (f row word)
  | .cutOff => .cutOff
  | .absent => .absent

/-- Whether a selector looks at no bit from the `n`-th on. -/
def BitSelector.looksBelow (n : Nat) : BitSelector → Bool
  | .bits mask | .inverted mask => mask >>> n == 0
  | .constant _ => true

/-- A selector that looks below a bit selects the same when the bit is set. -/
theorem BitSelector.select_add {selector : BitSelector} {n : Nat}
    (h : selector.looksBelow n = true) (word : Nat) :
    selector.select (word + 1 <<< n) = selector.select word := by
  have hand : ∀ mask, mask >>> n = 0 → (word + 1 <<< n) &&& mask = word &&& mask := by
    intro mask hmask
    apply Nat.eq_of_testBit_eq
    intro j
    rw [Nat.testBit_and, Nat.testBit_and]
    by_cases hj : j < n
    · rw [Nat.add_comm, Nat.one_shiftLeft, Nat.testBit_two_pow_add_gt hj]
    · have hnone : mask.testBit j = false := by
        rw [← Nat.add_sub_cancel' (Nat.not_lt.mp hj), ← Nat.testBit_shiftRight, hmask,
          Nat.zero_testBit]
      rw [hnone, Bool.and_false, Bool.and_false]
  cases selector with
  | bits mask => rw [select, select, hand mask (beq_iff_eq.mp h)]
  | constant value => rfl
  | inverted mask => rw [select, select, hand mask (beq_iff_eq.mp h)]

namespace Encoding

/-- Whether neither a row nor its fields look at the lowest bit of the first byte, and no field
reads bytes or sets the parallel mark. -/
def ignoresParallel (e : Encoding) : Bool :=
  (e.pattern 0).mask % 2 == 0 && e.fields.all fun use =>
    !use.field.reads && use.field != .parallelMark && use.selector.looksBelow (8 * (e.width - 1))

/-- The rows that start with a byte below 0x40 or from there up to 0x5F ignore the parallel bit. -/
theorem table_ignoresParallel : (table.all fun e =>
    (e.pattern 0).excludes ⟨0x00, 0xC0⟩ && (e.pattern 0).excludes ⟨0x40, 0xE0⟩ ||
      e.ignoresParallel) = true := by
  decide +kernel

variable {e : Encoding} {b : UInt8}

/-- Rows for first bytes below 0x60 ignore the parallel bit. -/
theorem ignoresParallel_of_fits (he : e ∈ table) (hb : b < 0x60)
    (hfits : (e.pattern 0).fits b = true) : e.ignoresParallel = true := by
  have hlow : ∀ n < 0x60, n &&& 0xC0 = 0 ∨ n &&& 0xE0 = 0x40 := by decide +kernel
  have hrow := List.all_eq_true.mp table_ignoresParallel e he
  rw [Bool.or_eq_true, Bool.and_eq_true] at hrow
  refine hrow.resolve_left ?_
  rintro ⟨hexcludes, hexcludes'⟩
  rcases hlow b.toNat hb with hzero | hfour
  · have hp : (⟨0x00, 0xC0⟩ : BytePattern).fits b = true := beq_iff_eq.mpr hzero.symm
    rw [BytePattern.not_excludes_of_fits hfits hp] at hexcludes
    cases hexcludes
  · have hp : (⟨0x40, 0xE0⟩ : BytePattern).fits b = true := beq_iff_eq.mpr hfour.symm
    rw [BytePattern.not_excludes_of_fits hfits hp] at hexcludes'
    cases hexcludes'

/-- Where a row ignores the parallel bit, none of its fields reads bytes, sets the parallel mark or
looks at the first byte's lowest bit. -/
theorem fields_of_ignoresParallel (h : e.ignoresParallel = true) {use : FieldUse}
    (huse : use ∈ e.fields) : use.field.reads = false ∧ use.field ≠ .parallelMark ∧
      use.selector.looksBelow (8 * (e.width - 1)) = true := by
  have hall := List.all_eq_true.mp (Bool.and_eq_true_iff.mp h).2 use huse
  simp only [Bool.and_eq_true, Bool.not_eq_true', bne_iff_ne] at hall
  exact ⟨hall.1.1, hall.1.2, hall.2⟩

/-- A mask without the lowest bit does not tell an even number from the next one. -/
theorem succ_and_of_even {n mask : Nat} (hn : n % 2 = 0) (hmask : mask % 2 = 0) :
    (n + 1) &&& mask = n &&& mask := by
  apply Nat.eq_of_testBit_eq
  intro j
  rw [Nat.testBit_and, Nat.testBit_and]
  cases j with
  | zero => simp [hmask]
  | succ j =>
    have hhalf : (n + 1) / 2 = n / 2 := by omega
    simp only [Nat.testBit_succ, hhalf]

/-- A row agrees with a first byte exactly if it agrees with this byte and the parallel bit. -/
theorem fits_succ (he : e ∈ table) (heven : b.toNat % 2 = 0) (hb : b < 0x5F) :
    (e.pattern 0).fits (b + 1) = (e.pattern 0).fits b := by
  have hle : b.toNat < 0x5F := hb
  have hnext : (b + 1).toNat = b.toNat + 1 := by
    rw [UInt8.toNat_add]
    exact Nat.mod_eq_of_lt (Nat.lt_of_lt_of_le (Nat.succ_lt_succ hle) (by decide))
  have hsame : e.ignoresParallel = true →
      (e.pattern 0).fits (b + 1) = (e.pattern 0).fits b := by
    intro hignores
    have hmask := beq_iff_eq.mp (Bool.and_eq_true_iff.mp hignores).1
    rw [BytePattern.fits, BytePattern.fits, hnext, succ_and_of_even heven hmask]
  cases hfits : (e.pattern 0).fits b with
  | true => rw [hsame (ignoresParallel_of_fits he (Nat.lt_succ_of_lt hle) hfits), hfits]
  | false =>
    cases hfits' : (e.pattern 0).fits (b + 1) with
    | false => rfl
    | true =>
      have hlt : b + 1 < 0x60 := by
        rw [UInt8.lt_iff_toNat_lt, hnext]
        exact Nat.succ_lt_succ hle
      rw [← hsame (ignoresParallel_of_fits he hlt hfits'), hfits'] at hfits
      cases hfits

/-- From a place on, a row is compared with the bytes from that place on. -/
theorem compareUnits_congr {bytes bytes' : Answers} {left position : Nat} (word : Nat)
    (h : ∀ i, position ≤ i → bytes' i = bytes i) :
    e.compareUnits 8 bytes' left position word = e.compareUnits 8 bytes left position word := by
  induction left generalizing position word with
  | zero => rfl
  | succ left ih =>
    unfold compareUnits
    rw [h position (Nat.le_refl _)]
    simp only [fun word => ih word fun i hi => h i (Nat.le_of_succ_le hi)]

/-- The units read so far stand in front of the others. -/
theorem compareUnits_add {bytes : Answers} {left position : Nat} (word x : Nat) :
    e.compareUnits 8 bytes left position (word + x) =
      (e.compareUnits 8 bytes left position word).mapWord (· + x <<< (8 * left)) := by
  induction left generalizing position word x with
  | zero => rfl
  | succ left ih =>
    unfold compareUnits
    split
    next => rfl
    next => rfl
    next b hb =>
      split
      next =>
        have hshift : (word + x) <<< 8 + unitOf 8 b = (word <<< 8 + unitOf 8 b) + x <<< 8 := by
          rw [Nat.shiftLeft_eq, Nat.shiftLeft_eq, Nat.shiftLeft_eq]
          omega
        rw [hshift, ih, ← Nat.shiftLeft_add, Nat.mul_succ, Nat.add_comm 8]
      next => rfl

section Bytes

variable {bytes bytes' : Answers} (hfirst : bytes 0 = .ok b) (hfirst' : bytes' 0 = .ok (b + 1))
  (hrest : ∀ i, 1 ≤ i → bytes' i = bytes i) (heven : b.toNat % 2 = 0) (hb : b < 0x5F)
include hfirst hfirst' hrest heven hb

/-- With the parallel bit, a row agrees as before, and its code word has the bit. -/
theorem compareBytes_parallel (he : e ∈ table) :
    e.compareBytes 8 bytes' =
      (e.compareBytes 8 bytes).mapWord (· + 1 <<< (8 * (e.width - 1))) := by
  have hle : b.toNat < 0x5F := hb
  have hunit : unitOf 8 (b + 1) = unitOf 8 b + 1 := by
    rw [unitOf, unitOf, UInt8.toNat_add]
    show (b.toNat + 1) % 256 % 256 = b.toNat % 256 + 1
    omega
  obtain ⟨n, hn⟩ := Nat.exists_eq_add_of_lt (width_of_mem he).1
  rw [Nat.zero_add] at hn
  have hagrees : e.unitAgrees 8 n (b + 1) = e.unitAgrees 8 n b := by
    have := fits_succ he heven hb
    rwa [← unitAgrees_eq, ← unitAgrees_eq, Nat.sub_zero, hn, Nat.add_sub_cancel] at this
  rw [compareBytes, compareBytes, hn, Nat.add_sub_cancel, compareUnits, compareUnits, hfirst,
    hfirst']
  simp only [hagrees]
  split
  · rw [compareUnits_congr _ hrest, hunit, ← Nat.add_assoc, compareUnits_add]
  · rfl

/-- The parallel bit changes the code word of the first row that agrees, but not which row that is.
-/
theorem firstMatch_parallel {rows : List Encoding} (hrows : ∀ e ∈ rows, e ∈ table) (cut : Bool) :
    firstMatch 8 bytes' cut rows =
      (firstMatch 8 bytes cut rows).mapWord fun e word => word + 1 <<< (8 * (e.width - 1)) := by
  induction rows generalizing cut with
  | nil =>
    unfold firstMatch
    split <;> rfl
  | cons e rest ih =>
    obtain ⟨he, hrest'⟩ := List.forall_mem_cons.mp hrows
    unfold firstMatch
    rw [compareBytes_parallel hfirst hfirst' hrest heven hb he]
    cases e.compareBytes 8 bytes with
    | full word => rfl
    | cutOff => exact ih hrest' true
    | differs => exact ih hrest' cut

end Bytes

end Encoding

namespace Draft

/-- A field that reads no bytes contributes the same whatever they are. -/
theorem contribute_of_not_reads (d : Draft) (s : Surroundings) {field : Field}
    (h : field.reads = false) (bytes : Answers) (v : Nat) :
    d.contribute { s with bytes } field v = d.contribute s field v := by
  cases field with
  | smem | lmem | pointerUpdate | bitAddress | absoluteTarget => cases h
  | _ => rfl

/-- Fields that read no bytes and look at no bit from the `n`-th on do not see that bit. -/
theorem contributeAll_add (d : Draft) (s : Surroundings) (bytes : Answers) (word n : Nat)
    {fields : List FieldUse}
    (h : ∀ use ∈ fields, use.field.reads = false ∧ use.selector.looksBelow n = true) :
    d.contributeAll { s with bytes } (word + 1 <<< n) fields = d.contributeAll s word fields := by
  induction fields generalizing d with
  | nil => rfl
  | cons use rest ih =>
    obtain ⟨⟨hreads, hbelow⟩, hrest⟩ := List.forall_mem_cons.mp h
    unfold contributeAll
    rw [BitSelector.select_add hbelow, contribute_of_not_reads d s hreads]
    simp only [fun d => ih d hrest]

end Draft

namespace Machine

open AddressSpace (AgreeOn)

section Partner

variable {space space' : AddressSpace} {a : Address}

/-- Matching sees of an address space what a window on it can show. -/
theorem matchWindow_congr_space (h : AgreeOn space space' a ByteWindow.capacity) (context : Context)
    (next : NextAddress) :
    c55x.matchWindow context next (.new space' a) =
      c55x.matchWindow context next (.new space a) := by
  have hanswer : (ByteWindow.new space' a).answer = (ByteWindow.new space a).answer := by
    funext offset
    by_cases hoffset : offset < ByteWindow.capacity
    · have hshown : ∀ j ≤ offset,
          (ByteWindow.new space' a).shown? j = (ByteWindow.new space a).shown? j :=
        fun j hj => h j (Nat.lt_of_le_of_lt hj hoffset)
      exact ByteWindow.answer_congr (v := .new space' a) (w := .new space a) rfl
        (fun j hj => by rw [hshown j hj]) (hshown offset (Nat.le_refl _))
    · have hpast := Nat.not_lt.mp hoffset
      rw [ByteWindow.answer_eq_exhausted_iff.mpr hpast,
        ByteWindow.answer_eq_exhausted_iff.mpr hpast]
  rw [matchWindow_eq, matchWindow_eq, hanswer]
  simp only [build_eq]
  have hsurroundings : c55x.surroundings context next (.new space' a) =
      c55x.surroundings context next (.new space a) :=
    congrArg (fun bytes => { c55x.surroundings context next (.new space a) with bytes }) hanswer
  rw [hsurroundings]
  rfl

/-- Without a marker, decoding is matching. -/
theorem decodePlain_of_not_marker {first : UInt8} (hf : space a = some first)
    (hm : PackedPair.isMarker first = false) (context : Context) (next : NextAddress) :
    c55x.decodePlain space context next a =
      match c55x.matchWindow context next (.new space a) with
      | .ok (some insn) => .ok ⟨c55x.finishPlain space first insn, some (.clear insn.limit)⟩
      | .ok none => .error (.unrecognized a)
      | .error e => .error e := by
  unfold decodePlain
  simp only [hf, isPairMarker_c55x, hm, Bool.false_eq_true, if_false]
  cases c55x.matchWindow context next (.new space a) with
  | error e => cases e <;> rfl
  | ok result => cases result <;> rfl

/-- A byte below 0x60 starts no packed pair. -/
theorem isMarker_of_lt {b : UInt8} (h : b < 0x60) : PackedPair.isMarker b = false := by
  have hall : ∀ n < 0x60, PackedPair.isMarker (UInt8.ofNat n) = false := by decide +kernel
  have := hall b.toNat h
  rwa [UInt8.ofNat_toNat] at this

/-- Only bytes below 0x60 have a parallel bit. -/
theorem lt_of_parallelBit {b : UInt8} (h : parallelBit b = true) : b < 0x60 := by
  simp only [parallelBit, Bool.and_eq_true, decide_eq_true_eq] at h
  exact Nat.lt_succ_of_le h.1

/-- A partner is as long in every address space that agrees from its first byte on. -/
theorem partnerLength_congr_space (h : AgreeOn space space' a ByteWindow.capacity) {k : Knowledge}
    (hk : k.pairs.headLength? a = none) :
    c55x.partnerLength space' k a = c55x.partnerLength space k a := by
  have hfirst : space' a = space a := h.first (by decide)
  unfold partnerLength
  rw [hfirst]
  cases hf : space a with
  | none => rfl
  | some first =>
    simp only
    split
    next hp =>
      have hm := isMarker_of_lt (lt_of_parallelBit hp)
      rw [decodeWith_of_none hk, decodeWith_of_none hk,
        decodePlain_of_not_marker (hfirst.trans hf) hm, decodePlain_of_not_marker hf hm,
        matchWindow_congr_space h]
      cases hmatch : c55x.matchWindow k.context plainNext (.new space a) with
      | error e => rfl
      | ok result =>
        cases result with
        | none => rfl
        | some insn =>
          obtain ⟨row, word, hmatched⟩ := exists_matched hmatch
          have hlimit : space' insn.limit = space insn.limit := by
            rw [Instruction.limit, hmatched.address_eq]
            exact h insn.length (Nat.lt_of_le_of_lt hmatched.length_le (by decide))
          simp only [finishPlain_congr_space hlimit]
    next => rfl

end Partner

/-- Where code distances count from does not depend on the byte that an instruction starts with. -/
theorem nextAddress_withByte (space : AddressSpace) (context : Context) (a : Address) (b : UInt8)
    {n : Nat} (hpos : 0 < n) :
    c55x.nextAddress (space.withByte a b) { context } a n =
      c55x.nextAddress space { context } a n := by
  simp only [nextAddress]
  split
  next => rfl
  next hshort =>
    have hagree : AgreeOn space (space.withByte a b) (a + UInt32.ofNat n) ByteWindow.capacity := by
      intro i hi
      have hsmall : i < 32 := hi
      have hsize : n + i < UInt32.size :=
        Nat.lt_of_lt_of_le (by omega) (by decide : 35 ≤ UInt32.size)
      rw [UInt32.add_assoc, ← UInt32.ofNat_add]
      exact space.withByte_add a b (by omega) hsize
    rw [partnerLength_congr_space hagree rfl]

/-- Only where code distances count from for the row itself matters. -/
theorem build_congr_next {context : Context} {next next' : NextAddress} {w : ByteWindow}
    {row : Encoding} (h : row ∈ Encoding.table) (word : Nat)
    (hn : next' w.base row.width = next w.base row.width) :
    c55x.build context next' w row word = c55x.build context next w row word := by
  rw [build_retarget context next w word h next', hn, ← build_retarget context next w word h next]

private theorem answer_new_zero {space : AddressSpace} {a : Address} {b : UInt8}
    (hb : space a = some b) : (ByteWindow.new space a).answer 0 = .ok b := by
  have hshown : (ByteWindow.new space a).shown? 0 = some b :=
    (congrArg space (UInt32.add_zero a)).trans hb
  refine ByteWindow.answer_eq_ok_iff.mpr ⟨by decide, fun j hj => ?_, hshown⟩
  rw [Nat.le_zero.mp hj, hshown]
  rfl

/-- Past the changed byte, a window answers as before. -/
theorem answer_withByte {space : AddressSpace} {a : Address} {b : UInt8} (hb : space a = some b)
    (c : UInt8) {i : Nat} (hi : 1 ≤ i) :
    (ByteWindow.new (space.withByte a c) a).answer i = (ByteWindow.new space a).answer i := by
  by_cases hcapacity : i < ByteWindow.capacity
  · have hshown : ∀ j, 0 < j → j ≤ i → (ByteWindow.new (space.withByte a c) a).shown? j =
        (ByteWindow.new space a).shown? j := by
      intro j hpos hj
      refine space.withByte_add a c hpos ?_
      exact Nat.lt_trans (Nat.lt_of_le_of_lt hj hcapacity) (by decide)
    refine ByteWindow.answer_congr (v := .new (space.withByte a c) a) (w := .new space a) rfl
      (fun j hj => ?_) (hshown i hi (Nat.le_refl i))
    rcases Nat.eq_zero_or_pos j with rfl | hpos
    · have hold := (ByteWindow.answer_eq_ok_iff.mp (answer_new_zero hb)).2.2
      have hnew := (ByteWindow.answer_eq_ok_iff.mp
        (answer_new_zero (space.withByte_self a c))).2.2
      rw [hold, hnew]
      rfl
    · rw [hshown j hpos hj]
  · have hpast := Nat.not_lt.mp hcapacity
    rw [ByteWindow.answer_eq_exhausted_iff.mpr hpast, ByteWindow.answer_eq_exhausted_iff.mpr hpast]

section Transparent

variable {space : AddressSpace} {a : Address} {b : UInt8} (hb : space a = some b)
  (heven : b.toNat % 2 = 0) (hlt : b < 0x5F)
include hb heven hlt

/-- With the parallel bit, the same instruction is matched. -/
theorem matchWindow_withByte (context : Context) :
    c55x.matchWindow context (c55x.nextAddress (space.withByte a (b + 1)) { context })
        (.new (space.withByte a (b + 1)) a) =
      c55x.matchWindow context (c55x.nextAddress space { context }) (.new space a) := by
  have hold := answer_new_zero hb
  rw [matchWindow_eq, matchWindow_eq, unitBits_c55x, encodings_c55x,
    Encoding.firstMatch_parallel hold (answer_new_zero (space.withByte_self a (b + 1)))
      (fun i hi => answer_withByte hb (b + 1) hi) heven hlt (fun _ he => he)]
  cases hf : Encoding.firstMatch 8 (ByteWindow.new space a).answer false Encoding.table with
  | cutOff => rfl
  | absent => rfl
  | found row word =>
    obtain ⟨hrow, hfull⟩ := Encoding.firstMatch_found hf
    have hwidth := (Encoding.width_of_mem hrow).1
    obtain ⟨c, hc, hfits⟩ := Encoding.fits_of_compareBytes hfull hwidth
    cases hold.symm.trans hc
    have hignores := Encoding.ignoresParallel_of_fits hrow (Nat.lt_succ_of_lt hlt) hfits
    have hfields : ∀ use ∈ row.fields, use.field.reads = false ∧
        use.selector.looksBelow (8 * (row.width - 1)) = true := by
      intro use huse
      obtain ⟨hreads, -, hbelow⟩ := Encoding.fields_of_ignoresParallel hignores huse
      exact ⟨hreads, hbelow⟩
    show c55x.build context _ (.new (space.withByte a (b + 1)) a) row
      (word + 1 <<< (8 * (row.width - 1))) = c55x.build context _ (.new space a) row word
    rw [build_congr_next hrow _ (nextAddress_withByte space context a (b + 1) hwidth), build_eq,
      build_eq]
    exact congrArg (outcomeAt a) (Draft.contributeAll_add (draftAt a row)
      (c55x.surroundings context (c55x.nextAddress space { context }) (.new space a)) _ word _
      hfields)

omit hb in
/-- An even byte below 0x60 has no parallel bit set, and the byte after it has. -/
theorem parallelBit_succ : parallelBit b = false ∧ parallelBit (b + 1) = true := by
  have hall : ∀ n < 0x5F, n % 2 = 0 →
      parallelBit (UInt8.ofNat n) = false ∧ parallelBit (UInt8.ofNat n + 1) = true := by
    decide +kernel
  have := hall b.toNat hlt heven
  rwa [UInt8.ofNat_toNat] at this

end Transparent

section Qualified

variable (insn : Instruction)

private theorem onMemory?_withParallel (f : Operand → Option Operand) :
    Qualifier.onMemory? (insn.withParallel true) f =
      (Qualifier.onMemory? insn f).map (·.withParallel true) := by
  have hslot : (insn.withParallel true).memorySlot = insn.memorySlot := rfl
  have hoperands : (insn.withParallel true).operands = insn.operands := rfl
  unfold Qualifier.onMemory?
  rw [hslot, hoperands]
  cases insn.memorySlot with
  | none => rfl
  | some slot =>
    simp only [bind, Option.bind]
    cases insn.operands[slot]? with
    | none => rfl
    | some op =>
      simp only
      cases f op <;> rfl

private theorem change?_withParallel (q : Qualifier) :
    q.change? (insn.withParallel true) = (q.change? insn).map (·.withParallel true) := by
  cases q with
  | mapped => exact onMemory?_withParallel insn Qualifier.mappedOperand?
  | port => exact onMemory?_withParallel insn Qualifier.portOperand?
  | localRepeat => rfl
  | circular => rfl

/-- A byte qualifies an instruction with or without the parallel mark. -/
theorem qualify?_withParallel (b : UInt8) :
    Qualifier.qualify? (insn.withParallel true) b =
      (Qualifier.qualify? insn b).map (·.withParallel true) := by
  unfold Qualifier.qualify?
  cases Qualifier.ofByte? b with
  | none => rfl
  | some q =>
    simp only [bind, Option.bind, change?_withParallel]
    cases q.change? insn <;> rfl

/-- A qualifier byte is taken in whether or not the instruction is marked as parallel. -/
theorem qualified_withParallel (space : AddressSpace) :
    qualified space (insn.withParallel true) = (qualified space insn).withParallel true := by
  have hlimit : (insn.withParallel true).limit = insn.limit := rfl
  unfold qualified
  rw [hlimit]
  cases space insn.limit with
  | none => rfl
  | some b =>
    simp only [qualify?_withParallel]
    cases Qualifier.qualify? insn b <;> rfl

/-- A qualifier keeps the parallel mark as it is. -/
theorem parallel_change? {q : Qualifier} {insn insn' : Instruction}
    (h : q.change? insn = some insn') : insn'.marks.parallel = insn.marks.parallel := by
  have hon : ∀ {f}, Qualifier.onMemory? insn f = some insn' →
      insn'.marks.parallel = insn.marks.parallel := by
    intro f h
    obtain ⟨slot, -, h⟩ := Option.bind_eq_some_iff.mp h
    obtain ⟨op, -, h⟩ := Option.bind_eq_some_iff.mp h
    obtain ⟨op', -, h⟩ := Option.bind_eq_some_iff.mp h
    cases h
    rfl
  cases q with
  | mapped => exact hon h
  | port => exact hon h
  | localRepeat | circular =>
    cases h
    rfl

/-- No qualifier byte sets the parallel mark. -/
theorem parallel_qualified (space : AddressSpace) :
    (qualified space insn).marks.parallel = insn.marks.parallel := by
  unfold qualified
  cases space insn.limit with
  | none => rfl
  | some b =>
    simp only
    cases hq : Qualifier.qualify? insn b with
    | none => rfl
    | some insn' =>
      obtain ⟨q, -, hq⟩ := Option.bind_eq_some_iff.mp hq
      obtain ⟨changed, hc, hq⟩ := Option.bind_eq_some_iff.mp hq
      cases hq
      have hparallel := parallel_change? hc
      exact hparallel

end Qualified

/-- Naming a status bit keeps all marks. -/
theorem marks_nameBit (insn : Instruction) : (StatusBit.nameBit insn).marks = insn.marks := by
  unfold StatusBit.nameBit
  split
  · split <;> rfl
  · rfl

/-- A matched instruction is unmarked if no field of its row marks it. -/
theorem Matched.marks_eq {context : Context} {next : NextAddress} {w : ByteWindow} {row : Encoding}
    {word : Nat} {insn : Instruction} (h : Matched context next w row word insn)
    (hf : ∀ use ∈ row.fields, use.field ≠ .parallelMark) : insn.marks = {} :=
  Draft.of_contributeAll (P := fun insn => insn.marks = {}) (fun use huse _ hd _ hc =>
    ((Draft.frame_contribute hc).marks (hf use huse)).trans hd) rfl h.contributed

end Machine

/-- The second result is the first one but for the parallel mark, which the first lacks and the
second has. -/
structure Decoded.GainsMark (d d' : Decoded) : Prop where
  update : d'.update = d.update
  unmarked : d.insn.marks.parallel = false
  insn : d'.insn = { d.insn with marks := { d.insn.marks with parallel := true } }

namespace Machine

/-- An instruction matched at a byte without the parallel bit gains the mark with the bit. -/
theorem Matched.gainsMark {space : AddressSpace} {context : Context} {next : NextAddress}
    {a : Address} {b : UInt8} {row : Encoding} {word : Nat} {insn : Instruction}
    (h : Matched context next (.new space a) row word insn) (hb : space a = some b)
    (heven : b.toNat % 2 = 0) (hlt : b < 0x5F) :
    Decoded.GainsMark
      (c55x.assignRoles ⟨c55x.finishPlain space b insn, some (.clear insn.limit)⟩)
      (c55x.assignRoles ⟨c55x.finishPlain (space.withByte a (b + 1)) (b + 1) insn,
        some (.clear insn.limit)⟩) := by
  obtain ⟨hclear, hset⟩ := parallelBit_succ heven hlt
  obtain ⟨c, hc, hfits⟩ := h.exists_first
  cases hb.symm.trans hc
  have hignores := Encoding.ignoresParallel_of_fits h.mem (Nat.lt_succ_of_lt hlt) hfits
  have hmarks := h.marks_eq fun use huse =>
    (Encoding.fields_of_ignoresParallel hignores huse).2.1
  have hlimit : space.withByte a (b + 1) insn.limit = space insn.limit := by
    have hpos := Nat.lt_of_lt_of_le (Encoding.width_of_mem h.mem).1 h.width_le
    rw [Instruction.limit, h.address_eq]
    exact space.withByte_add a (b + 1) hpos (Nat.lt_of_le_of_lt h.length_le (by decide))
  refine ⟨rfl, ?_, ?_⟩
  · show (c55x.finishPlain space b insn).marks.parallel = false
    rw [finishPlain_eq, hclear, parallel_qualified]
    show (StatusBit.nameBit insn).marks.parallel = false
    rw [marks_nameBit, hmarks]
  · show c55x.withUsage (c55x.finishPlain (space.withByte a (b + 1)) (b + 1) insn) =
      (c55x.withUsage (c55x.finishPlain space b insn)).withParallel true
    rw [finishPlain_congr_space hlimit, finishPlain_eq, finishPlain_eq, hclear, hset,
      qualified_withParallel]
    rfl

/-- Setting the parallel bit of a first byte sets the parallel mark of the instruction and changes
nothing else: where decoding fails, it fails in the same way. -/
theorem decode_parallelBit (context : Context) {space : AddressSpace} {a : Address} {b : UInt8}
    (hb : space a = some b) (heven : b.toNat % 2 = 0) (hle : b ≤ 0x5E) :
    SameOutcome Decoded.GainsMark (c55x.decode space { context } a)
      (c55x.decode (space.withByte a (b + 1)) { context } a) := by
  have hlt : b < 0x5F := Nat.lt_succ_of_le hle
  have hmarker := isMarker_of_lt (lt_of_parallelBit (parallelBit_succ heven hlt).2)
  rw [decode, decode, decodeWith_of_none rfl, decodeWith_of_none rfl,
    decodePlain_of_not_marker hb (isMarker_of_lt (Nat.lt_succ_of_lt hlt)),
    decodePlain_of_not_marker (space.withByte_self a (b + 1)) hmarker,
    matchWindow_withByte hb heven hlt]
  cases hmatch : c55x.matchWindow context (c55x.nextAddress space { context }) (.new space a) with
  | error e => exact .error e
  | ok result =>
    cases result with
    | none => exact .error _
    | some insn =>
      obtain ⟨row, word, hm⟩ := exists_matched hmatch
      exact .ok (hm.gainsMark hb heven hlt)

/-- A short branch in front of a partner: the branch counts its target from behind both. -/
theorem decode_parallelBit_branch :
    let branch := AddressSpace.holding 0 [0x4A, 0x02, 0x21]
    branch 0 = some 0x4A ∧ (0x4A : UInt8).toNat % 2 = 0 ∧ (0x4A : UInt8) ≤ 0x5E ∧
      (c55x.decode branch {} 0).toOption.map (fun d => (d.insn.operand 0).value) =
        some (.target 5 (some 2)) ∧
      SameOutcome Decoded.GainsMark (c55x.decode branch {} 0)
        (c55x.decode (branch.withByte 0 0x4B) {} 0) := by
  intro branch
  have hfirst : branch 0 = some 0x4A := rfl
  have hnext : (0x4B : UInt8) = 0x4A + 1 := by decide
  rw [hnext]
  exact ⟨hfirst, by decide, by decide, by decide +kernel,
    decode_parallelBit {} hfirst (by decide) (by decide)⟩

end Machine

end DspCode
