import DspCode.Proofs.Locality
import DspCode.Proofs.Partners

/-!
# Instructions cut off by unmapped memory

Memory that holds more may turn a failure to decode into an instruction. Bytes that rule out all
encodings by what is mapped of them go on to do so. A search that was cut off does not, and decoding
reports it as out of bounds; but where the first byte marks a packed pair, the pair is tried
instead, and a pair that lacks bytes is reported as no instruction. Main statement: a failure to
recognise is final exactly if no instruction was cut off, and an instruction that is cut off is
reported as out of bounds exactly if it does not start with a marker.
-/

namespace DspCode

namespace AddressSpace

/-- The second address space holds everything that the first one holds. -/
def ExtendedBy (space space' : AddressSpace) : Prop :=
  ∀ x b, space x = some b → space' x = some b

/-- What an address space holds, and where it holds nothing, what another one holds. -/
def orElse (space other : AddressSpace) : AddressSpace := fun x => (space x).or (other x)

private theorem extendedBy_orElse (space other : AddressSpace) :
    space.ExtendedBy (space.orElse other) :=
  fun x b hb => by rw [orElse, hb, Option.some_or]

/-- Holding more bytes after the same ones extends an address space. -/
theorem holding_extendedBy (a : Address) {bytes bytes' : List UInt8} (h : bytes <+: bytes') :
    (holding a bytes).ExtendedBy (holding a bytes') := by
  obtain ⟨rest, rfl⟩ := h
  intro x b hb
  obtain ⟨hlt, -⟩ := List.getElem?_eq_some_iff.mp hb
  exact (List.getElem?_append_left hlt).trans hb

/-- Mapped bytes from an address on, as a list. -/
theorem exists_bytes {space : AddressSpace} {a : Address} {n : Nat}
    (hmapped : ∀ i < n, space.isMapped (a + UInt32.ofNat i) = true) :
    ∃ bytes : List UInt8, bytes.length = n ∧
      ∀ i < n, bytes[i]? = space (a + UInt32.ofNat i) := by
  refine ⟨(List.range n).map fun i => (space (a + UInt32.ofNat i)).getD 0, by simp, ?_⟩
  intro i hi
  obtain ⟨b, hb⟩ := Option.isSome_iff_exists.mp (hmapped i hi)
  rw [List.getElem?_map, List.getElem?_range hi, Option.map_some, hb, Option.getD_some]

end AddressSpace

/-- All bytes read from the first are read from the second, and both end at the same offset. -/
structure Answers.ExtendedBy (bytes bytes' : Answers) : Prop where
  /-- Bytes that can be read are the same. -/
  ok : ∀ {i b}, bytes i = .ok b → bytes' i = .ok b
  /-- What lies past the end does so in both. -/
  exhausted : ∀ {i}, bytes i = .error .exhausted → bytes' i = .error .exhausted

/-- A window on an extension reads the bytes that could be read before. -/
theorem ByteWindow.answer_extendedBy {space space' : AddressSpace} (h : space.ExtendedBy space')
    (a : Address) : Answers.ExtendedBy (new space a).answer (new space' a).answer where
  ok {i b} hb := by
    obtain ⟨hi, hall, hlast⟩ := answer_eq_ok_iff.mp hb
    refine answer_eq_ok_iff.mpr ⟨hi, fun j hj => ?_, h _ b hlast⟩
    obtain ⟨c, hc⟩ := Option.isSome_iff_exists.mp (hall j hj)
    exact Option.isSome_iff_exists.mpr ⟨c, h _ c hc⟩
  exhausted h := answer_eq_exhausted_iff.mpr (answer_eq_exhausted_iff.mp h)

namespace Encoding

variable {unit : Nat} {bytes bytes' : Answers}

/-- A unit that differs does so from whatever else reads the bytes up to it. -/
theorem compareUnits_differs_of_extendedBy (hbytes : bytes.ExtendedBy bytes') {e : Encoding}
    {left position word : Nat} (h : e.compareUnits unit bytes left position word = .differs) :
    e.compareUnits unit bytes' left position word = .differs := by
  induction left generalizing position word with
  | zero => cases h
  | succ left ih =>
    unfold compareUnits at h ⊢
    split at h
    next => cases h
    next hend => rw [hbytes.exhausted hend]
    next b hb =>
      rw [hbytes.ok hb]
      simp only
      split at h
      next hagrees => rw [if_pos hagrees]; exact ih h
      next hagrees => rw [if_neg hagrees]

/-- No row agrees, not even up to an unmapped byte, exactly if all rows differ. -/
theorem firstMatch_eq_absent_iff {cut : Bool} {rows : List Encoding} :
    firstMatch unit bytes cut rows = .absent ↔
      cut = false ∧ ∀ e ∈ rows, e.compareBytes unit bytes = .differs := by
  induction rows generalizing cut with
  | nil => cases cut <;> simp [firstMatch]
  | cons e rest ih =>
    unfold firstMatch
    cases hc : e.compareBytes unit bytes with
    | full word => simp [hc]
    | cutOff => simp [hc, ih]
    | differs => simp [hc, ih]

end Encoding

/-- Fields that end in a reserved encoding do so whatever else reads the bytes that they read. -/
theorem Draft.contributeAll_none_of_extendedBy {s : Surroundings} {bytes : Answers}
    (hbytes : Answers.ExtendedBy s.bytes bytes) {word : Nat} {fields : List FieldUse} {d : Draft}
    (hread : ∀ i < d.insn.length, ∃ b, s.bytes i = .ok b)
    (h : d.contributeAll s word fields = .ok none) :
    d.contributeAll { s with bytes := bytes } word fields = .ok none := by
  induction fields generalizing d with
  | nil => cases h
  | cons use rest ih =>
    unfold contributeAll at h ⊢
    cases hc : d.contribute s use.field (use.selector.select word) with
    | error e => rw [hc] at h; cases h
    | ok d' =>
      rw [hc] at h
      -- all bytes of the draft have been read so far, so the field reads no others now
      have hread' : ∀ i < d'.insn.length, ∃ b, s.bytes i = .ok b := by
        intro i hi
        by_cases hold : i < d.insn.length
        · exact hread i hold
        · exact (takes_contribute hc).2 i (Nat.not_lt.mp hold) hi
      have hc' := contribute_agree hc fun i hi => by
        obtain ⟨b, hb⟩ := hread' i hi
        rw [hb]
        exact hbytes.ok hb
      rw [hc']
      simp only [bind, Except.bind] at h ⊢
      split at h
      next hkind => rw [if_pos hkind]; exact h
      next hkind => rw [if_neg hkind]; exact ih hread' h

namespace Machine

open AddressSpace (AgreeOn)

section Windows

variable {space space' : AddressSpace} {context : Context} {next : NextAddress} {a : Address}

/-- Bytes that are no instruction by all that is mapped of them are none in an extension. -/
theorem matchWindow_none_of_extendedBy (hspace : space.ExtendedBy space')
    (h : c55x.matchWindow context next (.new space a) = .ok none) :
    c55x.matchWindow context next (.new space' a) = .ok none := by
  have hbytes := ByteWindow.answer_extendedBy hspace a
  rw [matchWindow_eq, unitBits_c55x, encodings_c55x] at h ⊢
  split at h
  next row word hfound =>
    have hread : ∀ i < row.width, ∃ b, (ByteWindow.new space a).answer i = .ok b := fun i hi => by
      obtain ⟨b, hb, -⟩ :=
        Encoding.compareUnits_full_read (Encoding.firstMatch_found hfound).2 hi
      exact ⟨b, by rwa [Nat.zero_add] at hb⟩
    have hsame : ∀ i < row.width,
        (ByteWindow.new space' a).answer i = (ByteWindow.new space a).answer i := fun i hi => by
      obtain ⟨b, hb⟩ := hread i hi
      rw [hb]
      exact hbytes.ok hb
    rw [Encoding.firstMatch_congr (fun _ he => he) hfound hsame]
    simp only
    rw [build_eq]
    exact congrArg (outcomeAt a)
      (Draft.contributeAll_none_of_extendedBy hbytes hread (contributeAll_of_build h))
  next => cases h
  next habsent =>
    obtain ⟨-, hdiffers⟩ := Encoding.firstMatch_eq_absent_iff.mp habsent
    rw [Encoding.firstMatch_eq_absent_iff.mpr ⟨rfl, fun e he =>
      Encoding.compareUnits_differs_of_extendedBy hbytes (hdiffers e he)⟩]

end Windows

/-! ## Where an instruction starts -/

/-- The bytes from an address on are an instruction, or a packed pair after a marker. -/
def StartsInstruction (space : AddressSpace) (context : Context) (a : Address) : Prop :=
  (∃ insn, c55x.matchWindow context plainNext (.new space a) = .ok (some insn)) ∨
    ∃ first pair head tail, space a = some first ∧ PackedPair.isMarker first = true ∧
      Halves space context plainNext a pair head tail

section Starts

variable {space space' : AddressSpace} {context : Context} {k : Knowledge} {a : Address}

/-- What decodes at an address that is not on record starts an instruction. -/
theorem StartsInstruction.of_decodes {next : NextAddress} {d : Decoded}
    (hk : k.pairs.headLength? a = none) (h : Decodes space k next a d) :
    StartsInstruction space k.context a := by
  cases h with
  | plain _ _ hm => exact Or.inl ⟨_, (hm.retarget plainNext).matchWindow⟩
  | head _ hf hmarker _ hh =>
    obtain ⟨_, _, hh'⟩ := hh.retarget plainNext
    exact Or.inr ⟨_, _, _, _, hf, hmarker, hh'⟩
  | tail known => cases hk.symm.trans known

/-- What starts an instruction decodes at an address that is not on record. -/
theorem StartsInstruction.exists_decodes (hk : k.pairs.headLength? a = none)
    (h : StartsInstruction space k.context a) (next : NextAddress) :
    ∃ d, Decodes space k next a d := by
  by_cases hmatch : ∃ insn, c55x.matchWindow k.context next (.new space a) = .ok (some insn)
  · obtain ⟨insn, hm⟩ := hmatch
    obtain ⟨row, word, hm⟩ := exists_matched hm
    obtain ⟨first, hf, -⟩ := hm.exists_first
    exact ⟨_, .plain hk hf hm⟩
  · obtain hplain | ⟨first, pair, head, tail, hf, hmarker, hh⟩ := h
    · exact absurd ((exists_match_iff _ _ _ _).mp hplain) hmatch
    · obtain ⟨_, _, hh'⟩ := hh.retarget next
      exact ⟨_, .head hk hf hmarker hmatch hh'⟩

/-- Where nothing is on record, decoding succeeds exactly at the start of an instruction. -/
theorem exists_decode_iff (hk : k.pairs.headLength? a = none) :
    (∃ d, c55x.decode space k a = .ok d) ↔ StartsInstruction space k.context a := by
  constructor
  · rintro ⟨d, hd⟩
    exact .of_decodes hk (decode_eq_ok_iff.mp hd)
  · intro h
    obtain ⟨d, hd⟩ := h.exists_decodes hk (c55x.nextAddress space k)
    exact ⟨d, decode_eq_ok_iff.mpr hd⟩

/-- Mapped bytes make up an instruction, and do so wherever they are the same. -/
theorem StartsInstruction.exists_own (h : StartsInstruction space context a) :
    ∃ n ≤ 9, (∀ i < n, space.isMapped (a + UInt32.ofNat i) = true) ∧
      ∀ space', AgreeOn space space' a n → StartsInstruction space' context a := by
  obtain ⟨insn, hmatch⟩ | ⟨first, pair, head, tail, hf, hmarker, hh⟩ := h
  · obtain ⟨row, word, hm⟩ := exists_matched hmatch
    exact ⟨insn.length, hm.length_le, fun i hi => hm.isMapped hi, fun space' hagree =>
      Or.inl ⟨insn, (hm.congr_space hagree).matchWindow⟩⟩
  · have hlayout := PackedPair.layout_of_unpack hh.unpacked
    have hhead := hlayout.head_length
    have htail := hlayout.tail_length
    refine ⟨pair.head.length + pair.tail.length, by omega,
      fun i hi => PackedPair.isMapped_of_unpack hh.unpacked hi, fun space' hagree => ?_⟩
    exact Or.inr ⟨first, pair, head, tail, (hagree.first (by omega)).trans hf, hmarker,
      PackedPair.unpack?_congr hh.unpacked hagree, matchExactly_congr_space hh.matchedHead,
      matchExactly_congr_space hh.matchedTail⟩

/-- What decoding can give where nothing is on record. -/
theorem decode_cases (space : AddressSpace) (hk : k.pairs.headLength? a = none) :
    (∃ d, c55x.decode space k a = .ok d) ∨ c55x.decode space k a = .error (.unrecognized a) ∨
      c55x.decode space k a = .error (.outOfBounds a) := by
  unfold decode
  rw [decodeWith_of_none hk]
  obtain ⟨_, _, _, _, h⟩ | ⟨_, _, _, _, _, _, _, _, h⟩ | h | ⟨h, -⟩ :=
    decodePlain_cases space k.context (c55x.nextAddress space k) a
  · exact Or.inl ⟨_, congrArg _ h⟩
  · exact Or.inl ⟨_, congrArg _ h⟩
  · exact Or.inr (Or.inl (congrArg _ h))
  · exact Or.inr (Or.inr (congrArg _ h))

/-- An address at which nothing is mapped is out of bounds. -/
theorem decode_of_unmapped (hk : k.pairs.headLength? a = none) (hf : space a = none) :
    c55x.decode space k a = .error (.outOfBounds a) := by
  unfold decode
  rw [decodeWith_of_none hk]
  simp only [decodePlain, hf]
  rfl

/-- After a marker, whatever is no instruction is not recognised. -/
theorem decode_of_marker {first : UInt8} (hk : k.pairs.headLength? a = none)
    (hf : space a = some first) (hmarker : PackedPair.isMarker first = true)
    (hnot : ¬StartsInstruction space k.context a) :
    c55x.decode space k a = .error (.unrecognized a) := by
  have hmatch : ¬∃ insn, c55x.matchWindow k.context (c55x.nextAddress space k) (.new space a) =
      .ok (some insn) := fun hmatch =>
    hnot (Or.inl ((exists_match_iff _ _ _ _).mp hmatch))
  have hhalves : ∀ pair head tail,
      ¬Halves space k.context (c55x.nextAddress space k) a pair head tail := by
    intro pair head tail hh
    obtain ⟨_, _, hh'⟩ := hh.retarget plainNext
    exact hnot (Or.inr ⟨_, _, _, _, hf, hmarker, hh'⟩)
  unfold decode
  rw [decodeWith_of_none hk, decodePlain_of_marker hf hmarker hmatch,
    decodePacked_of_not_halves hhalves]
  rfl

/-- Without a marker, bytes are not recognised exactly if what is mapped of them rules out all
encodings. -/
theorem decode_eq_unrecognized_iff {first : UInt8} (hk : k.pairs.headLength? a = none)
    (hf : space a = some first) (hmarker : PackedPair.isMarker first = false) :
    c55x.decode space k a = .error (.unrecognized a) ↔
      c55x.matchWindow k.context plainNext (.new space a) = .ok none := by
  obtain ⟨_, hnext⟩ :=
    matchWindow_retarget k.context plainNext (c55x.nextAddress space k) (.new space a)
  unfold decode
  rw [decodeWith_of_none hk]
  simp only [decodePlain, hf, isPairMarker_c55x, hmarker]
  obtain hr | ⟨_, _, insn, -, hr⟩ | ⟨hr, -⟩ := matchWindow_cases k.context plainNext (.new space a)
  · rw [hnext, hr]
    exact iff_of_true rfl rfl
  · rw [hnext, hr]
    exact iff_of_false (fun h => by cases h) (fun h => by cases h)
  · rw [hnext, hr]
    exact iff_of_false (fun h => by cases h) (fun h => by cases h)

end Starts

/-! ## Extensions of a memory -/

section Extensions

variable {space space' : AddressSpace} {k : Knowledge} {a : Address}

/-- Bytes that are not recognised are not in an extension either, unless they are an instruction
there. -/
theorem decode_unrecognized_of_extendedBy (hk : k.pairs.headLength? a = none)
    (h : c55x.decode space k a = .error (.unrecognized a)) (hspace : space.ExtendedBy space')
    (hnot : ¬StartsInstruction space' k.context a) :
    c55x.decode space' k a = .error (.unrecognized a) := by
  cases hf : space a with
  | none => cases (decode_of_unmapped hk hf).symm.trans h
  | some first =>
    have hf' := hspace a first hf
    cases hmarker : PackedPair.isMarker first with
    | true => exact decode_of_marker hk hf' hmarker hnot
    | false =>
      exact (decode_eq_unrecognized_iff hk hf' hmarker).mpr
        (matchWindow_none_of_extendedBy hspace ((decode_eq_unrecognized_iff hk hf hmarker).mp h))

/-- Without a marker, bytes that are not recognised are no instruction in any extension. -/
theorem not_startsInstruction_of_extendedBy {first : UInt8} (hk : k.pairs.headLength? a = none)
    (hf : space a = some first) (hmarker : PackedPair.isMarker first = false)
    (h : c55x.decode space k a = .error (.unrecognized a)) (hspace : space.ExtendedBy space') :
    ¬StartsInstruction space' k.context a := by
  rw [decode_eq_unrecognized_iff hk hf hmarker] at h
  rintro (⟨insn, hmatch⟩ | ⟨first', _, _, _, hf', hmarker', -⟩)
  · cases hmatch.symm.trans (matchWindow_none_of_extendedBy hspace h)
  · cases hf'.symm.trans (hspace a first hf)
    cases hmarker.symm.trans hmarker'

/-- What is mapped from `a` on is part of the bytes of an instruction. -/
def IsPartOfInstruction (space : AddressSpace) (k : Knowledge) (a : Address) : Prop :=
  ∃ bytes d, c55x.decode (.holding a bytes) k a = .ok d ∧
    ∀ i < bytes.length, ∀ b, space (a + UInt32.ofNat i) = some b → bytes[i]? = some b

/-- Parts of instructions are what decodes in some extension. -/
theorem isPartOfInstruction_iff (hk : k.pairs.headLength? a = none) :
    IsPartOfInstruction space k a ↔
      ∃ space', space.ExtendedBy space' ∧ StartsInstruction space' k.context a := by
  constructor
  · -- the bytes of the instruction fill the gaps of the memory
    rintro ⟨bytes, d, hd, hbytes⟩
    obtain ⟨n, hn, hmapped, hsame⟩ := ((exists_decode_iff hk).mp ⟨d, hd⟩).exists_own
    refine ⟨_, AddressSpace.extendedBy_orElse space (.holding a bytes), hsame _ fun i hi => ?_⟩
    obtain ⟨b, hb⟩ := Option.isSome_iff_exists.mp (hmapped i hi)
    have hi' : bytes[i]? = some b := by
      rwa [AddressSpace.holding_add a bytes (Nat.lt_of_lt_of_le hi
        (Nat.le_trans hn (by decide)))] at hb
    rw [AddressSpace.orElse, hb]
    cases hc : space (a + UInt32.ofNat i) with
    | none => rfl
    | some c =>
      have hc' := hbytes i (List.getElem?_eq_some_iff.mp hi').1 c hc
      exact hc'.symm.trans hi'
  · -- of the extension, nothing but the bytes of the instruction is needed
    rintro ⟨space', hspace, hstarts⟩
    obtain ⟨n, hn, hmapped, hsame⟩ := hstarts.exists_own
    obtain ⟨bytes, hlength, hbytes⟩ := AddressSpace.exists_bytes hmapped
    have hagree : AgreeOn space' (.holding a bytes) a n := fun i hi => by
      rw [AddressSpace.holding_add a bytes (Nat.lt_of_lt_of_le hi (Nat.le_trans hn (by decide)))]
      exact hbytes i hi
    obtain ⟨d, hd⟩ := (exists_decode_iff hk).mpr (hsame _ hagree)
    refine ⟨bytes, d, hd, fun i hi b hb => ?_⟩
    rw [hbytes i (hlength ▸ hi)]
    exact hspace _ b hb

/-- An instruction that does not decode because some of its bytes are not mapped. -/
structure CutOff (space : AddressSpace) (k : Knowledge) (a : Address) : Prop where
  /-- It does not decode. -/
  fails : ∀ d, c55x.decode space k a ≠ .ok d
  /-- What is mapped of it is part of an instruction. -/
  part : IsPartOfInstruction space k a

/-- Where nothing is on record, a failure to recognise bytes is final exactly if these are not what
is left of an instruction cut off by unmapped memory: then no memory that holds more makes an
instruction of them, nor a failure of another sort. An instruction that is cut off is out of bounds
exactly if its first byte is no marker of a packed pair; otherwise it is not recognised. -/
theorem unrecognized_final_iff (hk : k.pairs.headLength? a = none) :
    (c55x.decode space k a = .error (.unrecognized a) →
      ((∀ space', space.ExtendedBy space' →
          c55x.decode space' k a = .error (.unrecognized a)) ↔ ¬CutOff space k a)) ∧
      (CutOff space k a →
        c55x.decode space k a = .error
          (if (space a).any PackedPair.isMarker then .unrecognized a else .outOfBounds a)) := by
  constructor
  · intro h
    constructor
    · intro hfinal hcut
      obtain ⟨space', hspace, hstarts⟩ := (isPartOfInstruction_iff hk).mp hcut.part
      obtain ⟨d, hd⟩ := (exists_decode_iff hk).mpr hstarts
      cases (hfinal space' hspace).symm.trans hd
    · intro hcut space' hspace
      refine decode_unrecognized_of_extendedBy hk h hspace fun hstarts => hcut ⟨fun d hd => ?_, ?_⟩
      · cases h.symm.trans hd
      · exact (isPartOfInstruction_iff hk).mpr ⟨space', hspace, hstarts⟩
  · intro hcut
    have hnot : ¬StartsInstruction space k.context a := fun hstarts => by
      obtain ⟨d, hd⟩ := (exists_decode_iff hk).mpr hstarts
      exact hcut.fails d hd
    cases hf : space a with
    | none => exact decode_of_unmapped hk hf
    | some first =>
      rw [Option.any_some]
      cases hmarker : PackedPair.isMarker first with
      | true => exact decode_of_marker hk hf hmarker hnot
      | false =>
        obtain ⟨d, hd⟩ | h | h := decode_cases space hk
        · exact absurd hd (hcut.fails d)
        · obtain ⟨space', hspace, hstarts⟩ := (isPartOfInstruction_iff hk).mp hcut.part
          exact absurd hstarts (not_startsInstruction_of_extendedBy hk hf hmarker h hspace)
        · exact h

end Extensions

/-- A byte that starts no instruction. -/
def unknownByte : AddressSpace := .holding 0 [0xFF]

/-- It is not recognised whatever follows it. -/
theorem unrecognized_final_iff_unknownByte :
    c55x.decode unknownByte {} 0 = .error (.unrecognized 0) ∧
      ∀ space', unknownByte.ExtendedBy space' →
        c55x.decode space' {} 0 = .error (.unrecognized 0) := by
  have hdecode : c55x.decode unknownByte {} 0 = .error (.unrecognized 0) :=
    eq_error_of_failure (by decide +kernel)
  have hfacts := @unrecognized_final_iff unknownByte {} 0 rfl
  exact ⟨hdecode, (hfacts.1 hdecode).mpr fun hcut => by cases hdecode.symm.trans (hfacts.2 hcut)⟩

/-- The first three bytes of the pair of four bytes. -/
def cutPair : AddressSpace := .holding 0 [0x8A, 0x04, 0x90]

/-- A packed pair without its last byte is not recognised, and with it decodes. -/
theorem cut_pair_unrecognized :
    c55x.decode cutPair {} 0 = .error (.unrecognized 0) ∧ cutPair.ExtendedBy fourBytePair ∧
      ∃ d, c55x.decode fourBytePair {} 0 = .ok d ∧ d.insn.half? = some (.head 2) := by
  have hfacts : (c55x.decode fourBytePair {} 0).toOption.map (·.insn.half?) =
      some (some (.head 2)) := by decide +kernel
  exact ⟨eq_error_of_failure (by decide +kernel),
    AddressSpace.holding_extendedBy 0 ⟨[0xC0], rfl⟩, exists_ok_of_toOption hfacts⟩

end Machine

end DspCode
