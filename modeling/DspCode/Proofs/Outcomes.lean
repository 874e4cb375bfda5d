import DspCode.Proofs.Finishing

/-!
# Outcomes of decoding

What decoding an address can give, one lemma for each way of decoding: a plain instruction, the
first half of a packed pair, or the second half of a known pair. Where it gives no instruction, the
bytes are either no instruction or run into unmapped memory; the encoding table never contradicts
itself.
-/

namespace DspCode.Machine

section Exactly

variable {space : AddressSpace} {context : Context} {next : NextAddress} {a : Address}
  {bytes : List UInt8}

/-- Given bytes are matched exactly by an instruction of their length. -/
theorem matchExactly_eq_some_iff {insn : Instruction} :
    c55x.matchExactly space context next a bytes = .ok (some insn) ↔
      c55x.matchWindow context next (.primed space a bytes) = .ok (some insn) ∧
        insn.length = bytes.length := by
  unfold matchExactly
  split
  next insn' h =>
    simp only [h, Except.ok.injEq, Option.ite_none_right_eq_some, Option.some.injEq]
    constructor
    · rintro ⟨hl, rfl⟩
      exact ⟨rfl, hl⟩
    · rintro ⟨rfl, hl⟩
      exact ⟨hl, rfl⟩
  next h => simp [h]
  next b h => simp [h]
  next e _ h => simp [h]

/-- Matching given bytes exactly never fails. -/
theorem exists_matchExactly (space : AddressSpace) (context : Context) (next : NextAddress)
    (a : Address) (bytes : List UInt8) :
    ∃ result, c55x.matchExactly space context next a bytes = .ok result := by
  unfold matchExactly
  obtain h | ⟨_, _, insn, -, h⟩ | ⟨h, -⟩ := matchWindow_cases context next (.primed space a bytes)
  · rw [h]
    exact ⟨none, rfl⟩
  · rw [h]
    exact ⟨_, rfl⟩
  · rw [h]
    exact ⟨none, rfl⟩

/-- Bytes that give no instruction do not match; matching them exactly never fails otherwise. -/
theorem matchExactly_eq_none (h : ∀ insn,
    c55x.matchExactly space context next a bytes ≠ .ok (some insn)) :
    c55x.matchExactly space context next a bytes = .ok none := by
  obtain ⟨result, hr⟩ := exists_matchExactly space context next a bytes
  cases result with
  | none => exact hr
  | some insn => exact absurd hr (h insn)

end Exactly

/-- The two instructions of the packed pair at an address. -/
structure Halves (space : AddressSpace) (context : Context) (next : NextAddress) (a : Address)
    (pair : PackedPair) (head tail : Instruction) : Prop where
  /-- The bytes unpack. -/
  unpacked : PackedPair.unpack? space a = some pair
  /-- The first half is an instruction. -/
  matchedHead : c55x.matchExactly space context next a pair.head = .ok (some head)
  /-- The second half is an instruction after the first. -/
  matchedTail : c55x.matchExactly space context next head.limit pair.tail = .ok (some tail)

/-- The second half at an address, unpacked together with the first half of `headLength` bytes
before it. -/
structure SecondHalf (space : AddressSpace) (context : Context) (next : NextAddress) (a : Address)
    (headLength : Nat) (pair : PackedPair) (insn : Instruction) : Prop where
  /-- The bytes before the address unpack. -/
  unpacked : PackedPair.unpack? space (a - UInt32.ofNat headLength) = some pair
  /-- The first half takes all bytes up to the address. -/
  length : pair.head.length = headLength
  /-- The second half is an instruction. -/
  matched : c55x.matchExactly space context next a pair.tail = .ok (some insn)

/-- A matched first half, as it is decoded. -/
def asHead (insn : Instruction) : Instruction :=
  (StatusBit.nameBit insn).withHalf (.head insn.limit)

/-- A matched second half, as it is decoded after a first half at `head`. -/
def asTail (head : Address) (insn : Instruction) : Instruction :=
  (StatusBit.nameBit insn).asSecond head

/-- A first half is as long as it was matched. -/
@[simp] theorem length_asHead (insn : Instruction) : (asHead insn).length = insn.length :=
  StatusBit.length_nameBit insn

/-- A second half is as long as it was matched. -/
@[simp] theorem length_asTail (head : Address) (insn : Instruction) :
    (asTail head insn).length = insn.length :=
  StatusBit.length_nameBit insn

section Ways

variable {space : AddressSpace} {context : Context} {next : NextAddress} {a : Address}

/-- A packed pair decodes as its first half and asks for the second one to be recorded. -/
theorem decodePacked_of_halves {pair : PackedPair} {head tail : Instruction}
    (h : Halves space context next a pair head tail) :
    c55x.decodePacked space context next a =
      .ok ⟨asHead head, some (.record head.limit head.length)⟩ := by
  unfold decodePacked decodeHead
  simp only [unpack?_c55x, h.unpacked, h.matchedHead, h.matchedTail, settle_c55x, bind, Except.bind]
  rw [← length_asHead head]
  rfl

/-- Bytes that are no packed pair are not recognised as one. -/
theorem decodePacked_of_not_halves (h : ∀ pair head tail,
    ¬Halves space context next a pair head tail) :
    c55x.decodePacked space context next a = .error (.unrecognized a) := by
  unfold decodePacked decodeHead
  cases hu : PackedPair.unpack? space a with
  | none => simp only [unpack?_c55x, hu]; rfl
  | some pair =>
    obtain ⟨result, hh⟩ := exists_matchExactly space context next a pair.head
    cases result with
    | none => simp only [unpack?_c55x, hu, hh]; rfl
    | some head =>
      have ht := matchExactly_eq_none fun tail ht => h pair head tail ⟨hu, hh, ht⟩
      simp only [unpack?_c55x, hu, hh, bind, Except.bind]
      rw [ht]
      rfl

/-- A second half decodes with the address of the first half, and asks for no update. -/
theorem decodeTail_of_secondHalf {headLength : Nat} {pair : PackedPair} {insn : Instruction}
    (h : SecondHalf space context next a headLength pair insn) :
    c55x.decodeTail space context next a headLength =
      .ok ⟨asTail (a - UInt32.ofNat headLength) insn, none⟩ := by
  unfold decodeTail
  simp only [unpack?_c55x, h.unpacked, h.length, h.matched, ne_eq, not_true_eq_false, if_false]
  rfl

/-- What is on record as a second half and is none is not recognised. -/
theorem decodeTail_of_not_secondHalf {headLength : Nat} (h : ∀ pair insn,
    ¬SecondHalf space context next a headLength pair insn) :
    c55x.decodeTail space context next a headLength = .error (.unrecognized a) := by
  unfold decodeTail
  cases hu : PackedPair.unpack? space (a - UInt32.ofNat headLength) with
  | none => simp only [unpack?_c55x, hu]; rfl
  | some pair =>
    by_cases hl : pair.head.length = headLength
    · have ht := matchExactly_eq_none fun insn ht => h pair insn ⟨hu, hl, ht⟩
      simp only [unpack?_c55x, hu, hl, ht, ne_eq, not_true_eq_false, if_false]
      rfl
    · simp only [unpack?_c55x, hu, ne_eq, hl, not_false_eq_true, if_true]
      rfl

/-- A row that matches decodes as a plain instruction, and the record of its end is cleared. -/
theorem decodePlain_of_match {first : UInt8} {insn : Instruction} (hf : space a = some first)
    (h : c55x.matchWindow context next (.new space a) = .ok (some insn)) :
    c55x.decodePlain space context next a =
      .ok ⟨c55x.finishPlain space first insn, some (.clear insn.limit)⟩ := by
  unfold decodePlain
  simp only [hf, h]

/-- Bytes that no encoding agrees with are a packed pair if they start with a marker. -/
theorem decodePlain_of_marker {first : UInt8} (hf : space a = some first)
    (hm : PackedPair.isMarker first = true)
    (h : ¬∃ insn, c55x.matchWindow context next (.new space a) = .ok (some insn)) :
    c55x.decodePlain space context next a = c55x.decodePacked space context next a := by
  unfold decodePlain
  simp only [hf, isPairMarker_c55x, hm, if_true]
  obtain hr | ⟨_, _, insn, -, hr⟩ | ⟨hr, -⟩ := matchWindow_cases context next (.new space a)
  · rw [hr]
  · exact absurd ⟨insn, hr⟩ h
  · rw [hr]

/-- The first unmapped byte behind an answer lies no further than the answer. -/
theorem exists_unmapped {i : Nat} {b : Address}
    (h : (ByteWindow.new space a).answer i = .error (.unmapped b)) :
    ∃ j ≤ i, space (a + UInt32.ofNat j) = none := by
  obtain ⟨-, j, hj, -, hn, -⟩ := ByteWindow.answer_eq_unmapped_iff.mp h
  exact ⟨j, hj, hn⟩

/-- What decoding an address that is not a known second half gives. -/
theorem decodePlain_cases (space : AddressSpace) (context : Context) (next : NextAddress)
    (a : Address) :
    (∃ first insn, space a = some first ∧
        c55x.matchWindow context next (.new space a) = .ok (some insn) ∧
        c55x.decodePlain space context next a =
          .ok ⟨c55x.finishPlain space first insn, some (.clear insn.limit)⟩) ∨
      (∃ first pair head tail, space a = some first ∧ PackedPair.isMarker first = true ∧
        (¬∃ insn, c55x.matchWindow context next (.new space a) = .ok (some insn)) ∧
        Halves space context next a pair head tail ∧
        c55x.decodePlain space context next a =
          .ok ⟨asHead head, some (.record head.limit head.length)⟩) ∨
      c55x.decodePlain space context next a = .error (.unrecognized a) ∨
      c55x.decodePlain space context next a = .error (.outOfBounds a) ∧
        ∃ i ≤ 8, space (a + UInt32.ofNat i) = none := by
  cases hf : space a with
  | none =>
    refine Or.inr (Or.inr (Or.inr ⟨by simp only [decodePlain, hf], 0, Nat.zero_le 8, ?_⟩))
    rw [← hf]
    exact congrArg space (UInt32.add_zero a)
  | some first =>
    by_cases hmatch : ∃ insn, c55x.matchWindow context next (.new space a) = .ok (some insn)
    · obtain ⟨insn, h⟩ := hmatch
      exact Or.inl ⟨first, insn, rfl, h, decodePlain_of_match hf h⟩
    · by_cases hm : PackedPair.isMarker first = true
      · have hp := decodePlain_of_marker hf hm hmatch
        by_cases hh : ∃ pair head tail, Halves space context next a pair head tail
        · obtain ⟨pair, head, tail, h⟩ := hh
          exact Or.inr (Or.inl ⟨first, pair, head, tail, rfl, hm, hmatch, h,
            hp.trans (decodePacked_of_halves h)⟩)
        · simp only [not_exists] at hh
          exact Or.inr (Or.inr (Or.inl (hp.trans (decodePacked_of_not_halves hh))))
      · refine Or.inr (Or.inr ?_)
        unfold decodePlain
        simp only [hf, isPairMarker_c55x, hm]
        obtain hr | ⟨_, _, insn, -, hr⟩ | ⟨hr, i, hi, b, hb⟩ :=
          matchWindow_cases context next (.new space a)
        · exact Or.inl (by rw [hr]; rfl)
        · exact absurd ⟨insn, hr⟩ hmatch
        · obtain ⟨j, hj, hn⟩ := exists_unmapped hb
          exact Or.inr ⟨by rw [hr]; rfl, j, by omega, hn⟩

/-- What decoding a known second half gives. -/
theorem decodeTail_cases (space : AddressSpace) (context : Context) (next : NextAddress)
    (a : Address) (headLength : Nat) :
    (∃ pair insn, SecondHalf space context next a headLength pair insn ∧
        c55x.decodeTail space context next a headLength =
          .ok ⟨asTail (a - UInt32.ofNat headLength) insn, none⟩) ∨
      c55x.decodeTail space context next a headLength = .error (.unrecognized a) := by
  by_cases hh : ∃ pair insn, SecondHalf space context next a headLength pair insn
  · obtain ⟨pair, insn, h⟩ := hh
    exact Or.inl ⟨pair, insn, h, decodeTail_of_secondHalf h⟩
  · simp only [not_exists] at hh
    exact Or.inr (decodeTail_of_not_secondHalf hh)

end Ways

/-- A decoded instruction, with the roles of its operands. -/
def assignRoles (m : Machine) (d : Decoded) : Decoded := { d with insn := m.withUsage d.insn }

section Roles

variable {m : Machine} {space : AddressSpace} {k : Knowledge} {next : NextAddress} {a : Address}

/-- An address that is not on record decodes as a plain instruction or a packed pair. -/
theorem decodeWith_of_none (h : k.pairs.headLength? a = none) :
    m.decodeWith space k next a =
      (m.decodePlain space k.context next a).map m.assignRoles := by
  unfold decodeWith
  rw [h]
  rfl

/-- An address that is on record decodes as a second half. -/
theorem decodeWith_of_some {headLength : Nat} (h : k.pairs.headLength? a = some headLength) :
    m.decodeWith space k next a =
      (m.decodeTail space k.context next a headLength).map m.assignRoles := by
  unfold decodeWith
  rw [h]
  rfl

end Roles

/-- The three ways in which an address decodes. -/
inductive Decodes (space : AddressSpace) (k : Knowledge) (next : NextAddress) (a : Address) :
    Decoded → Prop where
  /-- No pair is known here, and an encoding agrees with the bytes. -/
  | plain {first : UInt8} {row : Encoding} {word : Nat} {insn : Instruction}
      (unknown : k.pairs.headLength? a = none) (byte : space a = some first)
      (matched : Matched k.context next (.new space a) row word insn) :
      Decodes space k next a
        (c55x.assignRoles ⟨c55x.finishPlain space first insn, some (.clear insn.limit)⟩)
  /-- No pair is known here, no encoding agrees, and the bytes are marked as a pair. -/
  | head {first : UInt8} {pair : PackedPair} {head tail : Instruction}
      (unknown : k.pairs.headLength? a = none) (byte : space a = some first)
      (marked : PackedPair.isMarker first = true)
      (unmatched : ¬∃ insn, c55x.matchWindow k.context next (.new space a) = .ok (some insn))
      (halves : Halves space k.context next a pair head tail) :
      Decodes space k next a
        (c55x.assignRoles ⟨asHead head, some (.record head.limit head.length)⟩)
  /-- A second half is known here, and the bytes before it unpack accordingly. -/
  | tail {headLength : Nat} {pair : PackedPair} {insn : Instruction}
      (known : k.pairs.headLength? a = some headLength)
      (half : SecondHalf space k.context next a headLength pair insn) :
      Decodes space k next a
        (c55x.assignRoles ⟨asTail (a - UInt32.ofNat headLength) insn, none⟩)

/-- Decoding succeeds in one of the three ways. -/
theorem decodeWith_eq_ok_iff {space : AddressSpace} {k : Knowledge} {next : NextAddress}
    {a : Address} {d : Decoded} :
    c55x.decodeWith space k next a = .ok d ↔ Decodes space k next a d := by
  constructor
  · intro h
    cases hk : k.pairs.headLength? a with
    | none =>
      rw [decodeWith_of_none hk] at h
      obtain ⟨first, insn, hf, hm, hd⟩ | ⟨first, pair, head, tail, hf, hm, hno, hh, hd⟩ | hd |
        ⟨hd, -⟩ := decodePlain_cases space k.context next a
      · rw [hd] at h
        cases h
        obtain ⟨row, word, hmatched⟩ := exists_matched hm
        exact .plain hk hf hmatched
      · rw [hd] at h
        cases h
        exact .head hk hf hm hno hh
      · rw [hd] at h
        cases h
      · rw [hd] at h
        cases h
    | some n =>
      rw [decodeWith_of_some hk] at h
      obtain ⟨pair, insn, hs, hd⟩ | hd := decodeTail_cases space k.context next a n
      · rw [hd] at h
        cases h
        exact .tail hk hs
      · rw [hd] at h
        cases h
  · intro h
    cases h with
    | plain hk hf hm => rw [decodeWith_of_none hk, decodePlain_of_match hf hm.matchWindow]; rfl
    | head hk hf hm hno hh =>
      rw [decodeWith_of_none hk, decodePlain_of_marker hf hm hno, decodePacked_of_halves hh]
      rfl
    | tail hk hs => rw [decodeWith_of_some hk, decodeTail_of_secondHalf hs]; rfl

/-- The fields of an encoding fail for unmapped memory alone: every renaming they ask for has its
row, no operand lacks a slot, and no byte lies past the window. Decoding an address either gives an
instruction, or fails there because the bytes are no instruction or because one of the nine bytes
from the address on is not mapped. -/
theorem decode_fails_only_unrecognized_or_unmapped (space : AddressSpace) (k : Knowledge)
    (a : Address) :
    (∀ row ∈ Encoding.table, ∀ (context : Context) (next : NextAddress) (w : ByteWindow)
        (word : Nat) (e : FieldError),
      (draftAt w.base row).contributeAll (c55x.surroundings context next w) word row.fields =
          .error e → ∃ b, e = .unmapped b) ∧
      ((∃ d, c55x.decode space k a = .ok d) ∨
        c55x.decode space k a = .error (.unrecognized a) ∨
        c55x.decode space k a = .error (.outOfBounds a) ∧
          ∃ i ≤ 8, space (a + UInt32.ofNat i) = none) := by
  constructor
  · intro row hrow context next w word e he
    obtain hr | ⟨insn, hr, -⟩ | ⟨i, -, b, -, hr⟩ := fields_cases context next w word hrow
    · rw [hr] at he
      cases he
    · rw [hr] at he
      cases he
    · rw [hr] at he
      cases he
      exact ⟨b, rfl⟩
  · unfold decode
    cases hl : k.pairs.headLength? a with
    | none =>
      rw [decodeWith_of_none hl]
      obtain ⟨_, _, _, _, h⟩ | ⟨_, _, _, _, _, _, _, _, h⟩ | h | ⟨h, hn⟩ :=
        decodePlain_cases space k.context (c55x.nextAddress space k) a
      · exact Or.inl ⟨_, congrArg _ h⟩
      · exact Or.inl ⟨_, congrArg _ h⟩
      · exact Or.inr (Or.inl (congrArg _ h))
      · exact Or.inr (Or.inr ⟨congrArg _ h, hn⟩)
    | some headLength =>
      rw [decodeWith_of_some hl]
      obtain ⟨_, _, _, h⟩ | h :=
        decodeTail_cases space k.context (c55x.nextAddress space k) a headLength
      · exact Or.inl ⟨_, congrArg _ h⟩
      · exact Or.inr (Or.inl (congrArg _ h))

end DspCode.Machine
