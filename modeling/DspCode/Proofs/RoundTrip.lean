import DspCode.Proofs.Lookahead
import DspCode.Proofs.Unpacking

/-!
# Decoding both halves of a packed pair

After the first half of a packed pair is decoded, its second half decodes too. Each of the halves
is the instruction that its unpacked bytes are on their own, and together they take every byte
after the packed word once.
-/

namespace DspCode.Machine

/-- Bytes that are matched exactly decode as that instruction where nothing else is held. -/
theorem decode_holding {space : AddressSpace} {l : Knowledge} {a : Address} {bytes : List UInt8}
    {row : Encoding} {word : Nat} {insn : Instruction} {first : UInt8}
    (hm : Matched l.context (c55x.nextAddress (.holding a bytes) l) (.primed space a bytes) row
      word insn)
    (hl : insn.length = bytes.length) (hfirst : bytes[0]? = some first)
    (hp : parallelBit first = false) (hk : l.pairs.headLength? a = none) :
    c55x.decode (.holding a bytes) l a =
      .ok (c55x.assignRoles ⟨StatusBit.nameBit insn, some (.clear insn.limit)⟩) := by
  have hc : bytes.length ≤ ByteWindow.capacity := hl ▸ hm.length_le_capacity
  have hown : Matched l.context (c55x.nextAddress (.holding a bytes) l)
      (.new (.holding a bytes) a) row word insn := by
    refine hm.congr_bytes rfl fun i hi => ?_
    rw [hl] at hi
    rw [ByteWindow.answer_primed_of_lt hc hi]
    exact (ByteWindow.answer_holding_eq_ok_iff hc).mpr (List.getElem?_eq_getElem hi)
  have hf : AddressSpace.holding a bytes a = some first := by
    have := AddressSpace.holding_add a bytes (i := 0) (by decide)
    rwa [hfirst, show UInt32.ofNat 0 = 0 from rfl, UInt32.add_zero] at this
  have hend : AddressSpace.holding a bytes insn.limit = none := by
    rw [Instruction.limit, hown.address_eq, hl, ByteWindow.base_new]
    rw [AddressSpace.holding_add a bytes (Nat.lt_of_le_of_lt hc (by decide))]
    exact List.getElem?_eq_none (Nat.le_refl _)
  have hfinish : c55x.finishPlain (.holding a bytes) first insn = StatusBit.nameBit insn := by
    rw [finishPlain_eq, hp]
    simp only [Instruction.withParallel, Bool.false_eq_true, if_false, qualified,
      StatusBit.limit_nameBit, hend]
  rw [decode_eq_ok_iff, ← hfinish]
  exact .plain hk hf hown

/-- Bytes that are matched exactly are matched by a row, and the instruction takes all of them. -/
theorem exists_matched_of_exactly {space : AddressSpace} {context : Context} {next : NextAddress}
    {a : Address} {bytes : List UInt8} {insn : Instruction}
    (h : c55x.matchExactly space context next a bytes = .ok (some insn)) :
    (∃ row word, Matched context next (.primed space a bytes) row word insn) ∧
      insn.length = bytes.length ∧ insn.limit = a + UInt32.ofNat bytes.length := by
  obtain ⟨hm, hl⟩ := matchExactly_eq_some_iff.mp h
  obtain ⟨row, word, hmatched⟩ := exists_matched hm
  refine ⟨⟨row, word, hmatched⟩, hl, ?_⟩
  rw [Instruction.limit, hmatched.address_eq, hl]
  rfl

/-- A first half is matched in the same way whatever follows it. -/
theorem exists_matched_head {space : AddressSpace} {k : Knowledge} {a : Address}
    {bytes : List UInt8} {head : Instruction} {opcode : UInt8}
    (hm : c55x.matchExactly space k.context (c55x.nextAddress space k) a bytes = .ok (some head))
    (hop : bytes[0]? = some opcode) (hge : 0x80 ≤ opcode) (space' : AddressSpace)
    (k' : Knowledge) :
    ∃ row word, Matched k.context (c55x.nextAddress space' k') (.primed space a bytes) row word
      head := by
  obtain ⟨⟨row, word, hmatched⟩, hl, -⟩ := exists_matched_of_exactly hm
  obtain ⟨hi, rfl⟩ := List.getElem?_eq_some_iff.mp hop
  have hc : bytes.length ≤ ByteWindow.capacity := hl ▸ hmatched.length_le_capacity
  exact ⟨row, word, hmatched.congr_lookahead (ByteWindow.answer_primed_of_lt hc hi) hge⟩

/-- A first half is the plain instruction that its bytes are, apart from its place in the pair. -/
theorem head_eq_plain {space : AddressSpace} {k l : Knowledge} {a : Address} {pair : PackedPair}
    {head : Instruction} {opcode : UInt8}
    (hm : c55x.matchExactly space k.context (c55x.nextAddress space k) a pair.head =
      .ok (some head))
    (hop : pair.head[0]? = some opcode) (hge : 0x80 ≤ opcode) (hcontext : l.context = k.context)
    (hk : l.pairs.headLength? a = none) :
    ∃ d, c55x.decode (.holding a pair.head) l a = .ok d ∧
      (c55x.assignRoles ⟨asHead head, some (.record head.limit head.length)⟩).insn =
        d.insn.withHalf (.head head.limit) := by
  obtain ⟨row, word, hplain⟩ := exists_matched_head hm hop hge (.holding a pair.head) l
  rw [← hcontext] at hplain
  exact ⟨_, decode_holding hplain (exists_matched_of_exactly hm).2.1 hop
    (PackedPair.parallelBit_of_le hge) hk, rfl⟩

/-- A second half is the plain instruction that its bytes are, apart from its place in the pair and
from where its code targets count. -/
theorem tail_eq_plain {space : AddressSpace} {k l : Knowledge} {a t : Address} {pair : PackedPair}
    {tail : Instruction} {opcode : UInt8}
    (hm : c55x.matchExactly space k.context (c55x.nextAddress space k) t pair.tail =
      .ok (some tail))
    (hop : pair.tail[0]? = some opcode) (hp : parallelBit opcode = false)
    (hcontext : l.context = k.context) (hk : l.pairs.headLength? t = none) :
    ∃ d next, c55x.decode (.holding t pair.tail) l t = .ok d ∧
      (c55x.assignRoles ⟨asTail a tail, none⟩).insn =
        (d.insn.asSecond a).retarget next c55x.codeMask := by
  obtain ⟨⟨row, word, hmatched⟩, hl, -⟩ := exists_matched_of_exactly hm
  have hplain := hmatched.retarget (c55x.nextAddress (.holding t pair.tail) l)
  rw [← hcontext] at hplain
  refine ⟨_, c55x.nextAddress space k t row.width, decode_holding hplain hl hop hp hk, ?_⟩
  generalize c55x.nextAddress (.holding t pair.tail) l (ByteWindow.primed space t pair.tail).base
    row.width = plainNext
  have hself : tail.retarget (c55x.nextAddress space k t row.width) c55x.codeMask = tail :=
    hmatched.retarget_self
  calc
    c55x.withUsage ((StatusBit.nameBit tail).asSecond a)
    _ = (c55x.withUsage (StatusBit.nameBit tail)).asSecond a := rfl
    _ = (c55x.withUsage (StatusBit.nameBit (tail.retarget (c55x.nextAddress space k t row.width)
          c55x.codeMask))).asSecond a := by rw [hself]
    _ = ((c55x.withUsage (StatusBit.nameBit (tail.retarget plainNext c55x.codeMask))).asSecond
          a).retarget (c55x.nextAddress space k t row.width) c55x.codeMask := by
      simp only [StatusBit.nameBit_retarget, withUsage_retarget, Instruction.asSecond_retarget,
        Instruction.retarget_retarget]

/-- The second half is matched again after the pair is recorded; only its code targets may move. -/
theorem exists_rematch {space : AddressSpace} {context : Context} {next : NextAddress}
    {a : Address} {bytes : List UInt8} {insn : Instruction}
    (h : c55x.matchExactly space context next a bytes = .ok (some insn)) (next' : NextAddress) :
    ∃ insn', c55x.matchExactly space context next' a bytes = .ok (some insn') := by
  obtain ⟨⟨row, word, hm⟩, hl, -⟩ := exists_matched_of_exactly h
  exact ⟨_, matchExactly_eq_some_iff.mpr ⟨(hm.retarget next').matchWindow, hl⟩⟩

/-- The first half of a pair starts where the pair does. -/
theorem Halves.limit_sub_length {space : AddressSpace} {context : Context} {next : NextAddress}
    {a : Address} {pair : PackedPair} {head tail : Instruction}
    (h : Halves space context next a pair head tail) :
    head.limit - UInt32.ofNat head.length = a := by
  obtain ⟨-, hl, hlimit⟩ := exists_matched_of_exactly h.matchedHead
  rw [hlimit, hl, UInt32.add_sub_cancel]

/-- Once the pair is on record, its second half decodes. -/
theorem Halves.exists_decode_tail {space : AddressSpace} {k k' : Knowledge} {a : Address}
    {pair : PackedPair} {head tail : Instruction}
    (h : Halves space k.context (c55x.nextAddress space k) a pair head tail)
    (hcontext : k'.context = k.context)
    (hrecord : k'.pairs.headLength? head.limit = some head.length) :
    ∃ tail', c55x.matchExactly space k'.context (c55x.nextAddress space k') head.limit pair.tail =
        .ok (some tail') ∧
      c55x.decode space k' head.limit = .ok (c55x.assignRoles ⟨asTail a tail', none⟩) := by
  obtain ⟨tail', htail'⟩ := exists_rematch h.matchedTail (c55x.nextAddress space k')
  rw [← hcontext] at htail'
  obtain ⟨-, hl, -⟩ := exists_matched_of_exactly h.matchedHead
  have hback := h.limit_sub_length
  have hs : SecondHalf space k'.context (c55x.nextAddress space k') head.limit head.length pair
      tail' := ⟨by rw [hback]; exact h.unpacked, hl.symm, htail'⟩
  refine ⟨tail', htail', ?_⟩
  rw [decode_eq_ok_iff, ← hback]
  exact .tail hrecord hs

/-- What it means that the pair at `a` decodes into both halves: into the first half `insn` with
what is known before, and into `second` at `t` with what is known after it. -/
structure DecodesAsPair (space : AddressSpace) (before after : Knowledge) (a t : Address)
    (insn : Instruction) (pair : PackedPair) (second : Instruction) : Prop where
  /-- The bytes at `a` unpack into the bytes of both halves. -/
  unpacked : PackedPair.unpack? space a = some pair
  /-- The second half decodes. -/
  decoded : (c55x.decodeAndRecord space after t).1 = .ok second
  /-- It belongs to the first half. -/
  place : second.half? = some (.tail a)
  /-- It runs in parallel with the first half. -/
  parallel : second.marks.parallel = true
  /-- The first half takes as many bytes as were unpacked for it. -/
  head_length : pair.head.length = insn.length
  /-- The second half takes as many bytes as were unpacked for it. -/
  tail_length : pair.tail.length = second.length
  /-- The second half starts where the first one ends. -/
  tail_address : t = a + UInt32.ofNat pair.head.length
  /-- The further bytes of the halves are the bytes after the packed word, each used once and in
  order; where the last byte of the word says so, the second half is a register instruction. -/
  rest : ∃ last, space (a + 3) = some last ∧ (last < 0x80 → pair.tail.length = 3) ∧
    (pair.head.drop 2 ++ pair.extension last).map some =
      (List.range' 4 (pair.head.length + pair.tail.length - 4)).map
        fun i => space (a + UInt32.ofNat i)
  /-- Apart from its place, the first half is the plain instruction that its bytes alone are. -/
  head_plain : ∀ l : Knowledge, l.context = before.context → l.pairs.headLength? a = none →
    ∃ plain, (c55x.decodeAndRecord (.holding a pair.head) l a).1 = .ok plain ∧
      insn = plain.withHalf (.head t)
  /-- Apart from its place, its mark and where code targets count from, the second half is the plain
  instruction that its bytes alone are. -/
  tail_plain : ∀ l : Knowledge, l.context = before.context → l.pairs.headLength? t = none →
    ∃ plain next, (c55x.decodeAndRecord (.holding t pair.tail) l t).1 = .ok plain ∧
      second = (plain.asSecond a).retarget next c55x.codeMask

/-- After the first half of a packed pair is decoded, its second half decodes where the first one
ends, and both are what their unpacked bytes are. -/
theorem decode_tail_after_head {space : AddressSpace} {k k' : Knowledge} {a t : Address}
    {insn : Instruction} (hd : c55x.decodeAndRecord space k a = (.ok insn, k'))
    (ht : insn.half? = some (.head t)) :
    ∃ pair second, DecodesAsPair space k k' a t insn pair second := by
  obtain ⟨update, hdecode, rfl⟩ := decode_of_decodeAndRecord hd
  obtain ⟨first, pair, head, tail, hf, hmarker, -, hh, rfl, hinsn⟩ :=
    (decode_eq_ok_iff.mp hdecode).exists_halves ht
  cases hinsn
  have hlayout := PackedPair.layout_of_unpack hh.unpacked
  obtain ⟨marker, opcode, hmk, hop, hge⟩ := hlayout.head_first
  obtain ⟨tailOpcode, htop, hpar⟩ := hlayout.tail_first
  cases hf.symm.trans hmk
  obtain ⟨-, hhl, hhlimit⟩ := exists_matched_of_exactly hh.matchedHead
  generalize hk' : k.learn (some (.record head.limit head.length)) = k'
  have hcontext : k'.context = k.context := by rw [← hk', Knowledge.context_learn]
  have hrecord : k'.pairs.headLength? head.limit = some head.length := by
    rw [← hk']
    simp only [Knowledge.learn, PairLedger.apply, PairLedger.headLength?_record, if_true]
  obtain ⟨tail', htail', hsecond⟩ := hh.exists_decode_tail hcontext hrecord
  refine ⟨pair, (c55x.assignRoles ⟨asTail a tail', none⟩).insn, ?_⟩
  exact {
    unpacked := hh.unpacked
    decoded := by rw [decodeAndRecord_of_ok hsecond]
    place := rfl
    parallel := rfl
    head_length := hhl.symm.trans (length_asHead head).symm
    tail_length :=
      (exists_matched_of_exactly htail').2.1.symm.trans (length_asTail a tail').symm
    tail_address := hhlimit
    rest := hlayout.rest
    head_plain := by
      intro l hl hlk
      obtain ⟨d, hplain, heq⟩ := head_eq_plain hh.matchedHead hop (hge hmarker) hl hlk
      exact ⟨d.insn, by rw [decodeAndRecord_of_ok hplain], heq⟩
    tail_plain := by
      intro l hl hlk
      obtain ⟨d, next, hplain, heq⟩ := tail_eq_plain htail' htop hpar (hl.trans hcontext.symm) hlk
      exact ⟨d.insn, next, by rw [decodeAndRecord_of_ok hplain], heq⟩ }

/-- A pair of two memory instructions in four bytes. -/
def fourBytePair : AddressSpace := .holding 0 [0x8A, 0x04, 0x90, 0xC0]

/-- A pair of two memory instructions, the first of them with two bytes after the packed word. -/
def sixBytePair : AddressSpace := .holding 0 [0x8F, 0x06, 0x00, 0xC0, 0x21, 0x00]

/-- After its first half at 0 is decoded, the second half of the pair of six bytes decodes at 4. -/
theorem decode_tail_after_head_sixBytePair :
    ∃ insn k', c55x.decodeAndRecord sixBytePair {} 0 = (.ok insn, k') ∧
      insn.half? = some (.head 4) ∧
      ∃ pair second, DecodesAsPair sixBytePair {} k' 0 4 insn pair second := by
  have hhalf : (c55x.decode sixBytePair {} 0).toOption.map (fun d => d.insn.half?) =
      some (some (.head 4)) := by decide +kernel
  obtain ⟨d, hd, ht⟩ := exists_ok_of_toOption hhalf
  exact ⟨d.insn, _, decodeAndRecord_of_ok hd, ht,
    decode_tail_after_head (decodeAndRecord_of_ok hd) ht⟩

end DspCode.Machine
