import DspCode.Proofs.RoundTrip
import DspCode.Proofs.Session

/-!
# Decoding an address twice

Decoding may change the ledger, and what the ledger says about the next address decides where the
code targets of a short instruction count from. An address therefore decodes to the same result
again unless its instruction clears the record of a second half that it had looked ahead to.
-/

namespace DspCode.Machine

private theorem decodeAndRecord_fst (m : Machine) (space : AddressSpace) (k : Knowledge)
    (a : Address) : (m.decodeAndRecord space k a).1 = (m.decode space k a).map Decoded.insn := by
  cases h : m.decode space k a with
  | error e => rw [decodeAndRecord_of_error h]; rfl
  | ok d => rw [decodeAndRecord_of_ok h]; rfl

section Lengths

variable {space : AddressSpace} {k : Knowledge} {next : NextAddress} {a : Address}

/-- A decoded instruction takes at most ten bytes. -/
theorem length_decodeWith_le {d : Decoded} (h : c55x.decodeWith space k next a = .ok d) :
    d.insn.length ≤ 10 := by
  cases decodeWith_eq_ok_iff.mp h with
  | @plain first _ _ insn _ _ hm =>
    exact Nat.le_trans (finishPlain_place space first insn).1 (Nat.succ_le_succ hm.length_le)
  | @head _ _ head _ _ _ _ _ hh =>
    obtain ⟨⟨row, word, hm⟩, -⟩ := exists_matched_of_exactly hh.matchedHead
    exact Nat.le_trans (Nat.le_of_eq (length_asHead head)) (Nat.le_succ_of_le hm.length_le)
  | @tail n _ insn _ hs =>
    obtain ⟨⟨row, word, hm⟩, -⟩ := exists_matched_of_exactly hs.matched
    exact Nat.le_trans (Nat.le_of_eq (length_asTail (a - UInt32.ofNat n) insn))
      (Nat.le_succ_of_le hm.length_le)

/-- The instruction looked ahead to has at most ten bytes. -/
theorem partnerLength_le (space : AddressSpace) (k : Knowledge) (a : Address) :
    c55x.partnerLength space k a ≤ 10 := by
  unfold partnerLength
  split
  · exact Nat.zero_le 10
  · split
    · split
      next d hd => exact length_decodeWith_le hd
      next => exact Nat.zero_le 10
    · exact Nat.zero_le 10

end Lengths

/-- A code address keeps the low 24 bits. -/
theorem toNat_and_codeMask (x : UInt32) : (x &&& c55x.codeMask).toNat = x.toNat % 16777216 := by
  rw [UInt32.toNat_and]
  exact Nat.and_two_pow_sub_one_eq_mod x.toNat 24

/-- Code addresses tell apart how far the last instruction reaches. -/
theorem eq_of_masked_eq {a offset : Address} {p q : Nat} (hp : p ≤ 10) (hq : q ≤ 10)
    (h : (a + UInt32.ofNat p + offset) &&& c55x.codeMask =
      (a + UInt32.ofNat q + offset) &&& c55x.codeMask) : p = q := by
  have := congrArg UInt32.toNat h
  rw [toNat_and_codeMask, toNat_and_codeMask] at this
  simp only [UInt32.toNat_add, UInt32.toNat_ofNat'] at this
  omega

section Again

variable {space : AddressSpace} {k : Knowledge} {a : Address}

private theorem Matched.limit_ne {context : Context} {next : NextAddress} {w : ByteWindow}
    {row : Encoding} {word : Nat} {insn : Instruction}
    (h : Matched context next w row word insn) : insn.limit ≠ w.base := by
  have hpos := (Encoding.width_of_mem h.mem).1
  have hw := h.width_le
  have hl := h.length_le
  have hlt := w.base.toNat_lt
  intro heq
  have := congrArg UInt32.toNat heq
  rw [Instruction.limit, h.address_eq] at this
  simp only [UInt32.toNat_add, UInt32.toNat_ofNat'] at this
  omega

/-- A first half decodes to itself again. -/
theorem decode_again_head {first : UInt8} {pair : PackedPair} {head tail : Instruction}
    (hk : k.pairs.headLength? a = none) (hf : space a = some first)
    (hm : PackedPair.isMarker first = true)
    (hno : ¬∃ insn, c55x.matchWindow k.context (c55x.nextAddress space k) (.new space a) =
      .ok (some insn))
    (hh : Halves space k.context (c55x.nextAddress space k) a pair head tail) :
    c55x.decode space (k.learn (some (.record head.limit head.length))) a =
      .ok (c55x.assignRoles ⟨asHead head, some (.record head.limit head.length)⟩) := by
  obtain ⟨⟨row, word, hmatched⟩, hl, -⟩ := exists_matched_of_exactly hh.matchedHead
  have hne : (PairUpdate.record head.limit head.length).tail ≠ a := hmatched.limit_ne
  generalize hlearn : k.learn (some (.record head.limit head.length)) = k'
  have hk' : k'.pairs.headLength? a = none := by
    rw [← hlearn, Knowledge.headLength?_learn_of_ne k hne, hk]
  have hcontext : k'.context = k.context := by rw [← hlearn, Knowledge.context_learn]
  obtain ⟨marker, opcode, hmk, hop, hge⟩ := (PackedPair.layout_of_unpack hh.unpacked).head_first
  cases hf.symm.trans hmk
  obtain ⟨_, _, hhead⟩ := exists_matched_head hh.matchedHead hop (hge hm) space k'
  obtain ⟨tail', htail'⟩ := exists_rematch hh.matchedTail (c55x.nextAddress space k')
  have hh' : Halves space k'.context (c55x.nextAddress space k') a pair head tail' := by
    rw [hcontext]
    exact ⟨hh.unpacked, matchExactly_eq_some_iff.mpr ⟨hhead.matchWindow, hl⟩, htail'⟩
  rw [exists_match_iff _ _ (c55x.nextAddress space k'), ← hcontext] at hno
  exact decode_eq_ok_iff.mpr (.head hk' hf hm hno hh')

variable {first : UInt8} {insn : Instruction} {row : Encoding} {word : Nat}

/-- A plain instruction decodes to itself again, apart from where its code targets count from. -/
theorem decode_again_plain (hk : k.pairs.headLength? a = none) (hf : space a = some first)
    (hm : Matched k.context (c55x.nextAddress space k) (.new space a) row word insn) :
    c55x.decode space (k.learn (some (.clear insn.limit))) a =
      .ok ⟨(finished space first insn).retarget
        (c55x.nextAddress space (k.learn (some (.clear insn.limit))) a row.width) c55x.codeMask,
        some (.clear insn.limit)⟩ := by
  have hne : (PairUpdate.clear insn.limit).tail ≠ a := hm.limit_ne
  generalize hlearn : k.learn (some (.clear insn.limit)) = k'
  have hk' : k'.pairs.headLength? a = none := by
    rw [← hlearn, Knowledge.headLength?_learn_of_ne k hne, hk]
  have hcontext : k'.context = k.context := by rw [← hlearn, Knowledge.context_learn]
  have hagain := hm.retarget (c55x.nextAddress space k')
  rw [← hcontext] at hagain
  rw [← finished_retarget]
  exact decode_eq_ok_iff.mpr (.plain hk' hf hagain)

/-- Where targets count from is the same for two states of knowledge that look ahead to the same
length. -/
theorem nextAddress_congr {width : Nat} {k' : Knowledge}
    (h : 3 < width ∨ c55x.partnerLength space k (a + UInt32.ofNat width) =
      c55x.partnerLength space k' (a + UInt32.ofNat width)) :
    c55x.nextAddress space k a width = c55x.nextAddress space k' a width := by
  obtain hw | hp := h
  · rw [nextAddress_of_lt hw, nextAddress_of_lt hw]
  · simp only [nextAddress, hp]

/-- Code targets tell apart where they count from: only partners of the same length, or none at all
for a long instruction, give the same target. -/
theorem partnerLength_eq_of_target_eq {offset : Address} {width : Nat} {k' : Knowledge}
    (h : (c55x.nextAddress space k a width + offset) &&& c55x.codeMask =
      (c55x.nextAddress space k' a width + offset) &&& c55x.codeMask) :
    3 < width ∨ c55x.partnerLength space k (a + UInt32.ofNat width) =
      c55x.partnerLength space k' (a + UInt32.ofNat width) := by
  by_cases hw : 3 < width
  · exact Or.inl hw
  · simp only [nextAddress, hw, if_false] at h
    exact Or.inr (eq_of_masked_eq (partnerLength_le space k _) (partnerLength_le space k' _) h)

/-- A matched instruction counts its code targets from where it was matched. -/
theorem Matched.finished_retarget_self {context : Context} {next : NextAddress} {w : ByteWindow}
    (h : Matched context next w row word insn) :
    (finished space first insn).retarget (next w.base row.width) c55x.codeMask =
      finished space first insn := by
  rw [← finished_retarget, h.retarget_self]

/-- Code targets given by their distance come from rows that have them. -/
theorem Matched.seeks_of_hasDistance {context : Context} {next : NextAddress} {w : ByteWindow}
    (h : Matched context next w row word insn) (hd : (finished space first insn).HasDistance) :
    row.seeks = true := by
  apply Bool.of_not_eq_false
  intro hs
  have hself : ∀ n : Address, (finished space first insn).retarget n c55x.codeMask =
      finished space first insn :=
    fun n => (h.of_not_seeks hs fun _ _ => n).finished_retarget_self
  obtain ⟨offset, ho⟩ := Instruction.exists_of_retarget_eq _ _ hd
    ((hself (0 + UInt32.ofNat 0)).trans (hself (0 + UInt32.ofNat 1)).symm)
  exact absurd (eq_of_masked_eq (by decide) (by decide) ho) (by decide)

section Partner

variable {k' : Knowledge}
  (hm : Matched k.context (c55x.nextAddress space k) (.new space a) row word insn)
include hm

/-- With a code target at a distance, a plain instruction comes out the same exactly if its partner
keeps its length or it is too long for one. -/
theorem Matched.retarget_eq_iff_partnerLength_eq
    (hd : (finished space first insn).HasDistance) :
    (finished space first insn).retarget (c55x.nextAddress space k' a row.width) c55x.codeMask =
        finished space first insn ↔
      3 < row.width ∨ c55x.partnerLength space k (a + UInt32.ofNat row.width) =
        c55x.partnerLength space k' (a + UInt32.ofNat row.width) := by
  have hself : (finished space first insn).retarget (c55x.nextAddress space k a row.width)
      c55x.codeMask = finished space first insn := hm.finished_retarget_self
  constructor
  · intro h
    obtain ⟨offset, ho⟩ := Instruction.exists_of_retarget_eq _ _ hd (hself.trans h.symm)
    exact partnerLength_eq_of_target_eq ho
  · intro h
    rw [← nextAddress_congr h, hself]

/-- A plain instruction comes out differently the second time exactly if it has a code target at a
distance, is short enough to look ahead, and finds a partner of another length. -/
theorem Matched.retarget_eq_iff :
    (finished space first insn).retarget (c55x.nextAddress space k' a row.width) c55x.codeMask =
        finished space first insn ↔
      ¬((finished space first insn).HasDistance ∧ (insn.limit - a).toNat ≤ 3 ∧
        c55x.partnerLength space k insn.limit ≠ c55x.partnerLength space k' insn.limit) := by
  have hwidth := hm.width_le
  have hlimit : insn.limit = a + UInt32.ofNat insn.length := by
    rw [Instruction.limit, hm.address_eq]
    rfl
  have hlength : (insn.limit - a).toNat = insn.length := by
    rw [hlimit, UInt32.add_comm, UInt32.add_sub_cancel,
      UInt32.toNat_ofNat_of_lt' (Nat.lt_of_le_of_lt hm.length_le (by decide))]
  rw [hlength]
  by_cases hd : (finished space first insn).HasDistance
  · rw [hm.retarget_eq_iff_partnerLength_eq hd]
    by_cases hw : 3 < row.width
    · have hnot : ¬insn.length ≤ 3 := by omega
      simp only [hw, hnot, true_or, false_and, and_false, not_false_eq_true]
    · -- a short row with such a target takes its code word alone
      have hl := hm.length_eq_width (hm.seeks_of_hasDistance hd) (Nat.not_lt.mp hw)
      rw [hlimit, hl]
      simp only [hw, hd, Nat.not_lt.mp hw, false_or, true_and, ne_eq, Decidable.not_not]
  · simp only [Instruction.retarget_of_not_hasDistance _ _ hd, hd, false_and, not_false_eq_true]

end Partner

/-- A plain instruction decodes again as it was, unless clearing the record at its end moves where
its targets count from. -/
theorem decode_again_plain_eq_iff (hk : k.pairs.headLength? a = none) (hf : space a = some first)
    (hm : Matched k.context (c55x.nextAddress space k) (.new space a) row word insn) :
    (c55x.decode space (k.learn (some (.clear insn.limit))) a).map Decoded.insn =
        .ok (finished space first insn) ↔
      ¬((finished space first insn).HasDistance ∧ (insn.limit - a).toNat ≤ 3 ∧
        c55x.partnerLength space k insn.limit ≠
          c55x.partnerLength space (k.learn (some (.clear insn.limit))) insn.limit) := by
  rw [decode_again_plain hk hf hm, ← hm.retarget_eq_iff]
  exact ⟨Except.ok.inj, congrArg Except.ok⟩

end Again

/-- Decoding an address twice in a row gives the same result both times, instruction or error,
unless the address holds a plain instruction of at most three bytes with a code target at a
distance, whose own update of the ledger changes the length of its partner. -/
theorem decode_twice_eq_iff (space : AddressSpace) (k : Knowledge) (a : Address) :
    (c55x.decodeAndRecord space (c55x.decodeAndRecord space k a).2 a).1 =
        (c55x.decodeAndRecord space k a).1 ↔
      ¬∃ insn tail, c55x.decode space k a = .ok ⟨insn, some (.clear tail)⟩ ∧ insn.HasDistance ∧
        (tail - a).toNat ≤ 3 ∧
        c55x.partnerLength space k tail ≠
          c55x.partnerLength space { k with pairs := k.pairs.clear tail } tail := by
  cases hd : c55x.decode space k a with
  | error e =>
    rw [decodeAndRecord_of_error hd, decodeAndRecord_of_error hd]
    exact iff_of_true rfl (by rintro ⟨_, _, h, -⟩; cases h)
  | ok d =>
    rw [decodeAndRecord_of_ok hd, decodeAndRecord_fst]
    cases decode_eq_ok_iff.mp hd with
    | tail hk hs =>
      refine iff_of_true ?_ (by rintro ⟨_, _, h, -⟩; cases h)
      exact congrArg (Except.map Decoded.insn) hd
    | head hk hf hm hno hh =>
      refine iff_of_true ?_ (by rintro ⟨_, _, h, -⟩; cases h)
      exact congrArg (Except.map Decoded.insn) (decode_again_head hk hf hm hno hh)
    | @plain first row word insn hk hf hm =>
      refine (decode_again_plain_eq_iff hk hf hm).trans (not_congr ⟨?_, ?_⟩)
      · rintro ⟨hdistance, hshort, hne⟩
        exact ⟨_, _, rfl, hdistance, hshort, hne⟩
      · rintro ⟨_, _, h, hdistance, hshort, hne⟩
        cases h
        exact ⟨hdistance, hshort, hne⟩

/-- Decoding the pair of six bytes records its second half. -/
theorem after_decode_sixBytePair :
    Session.after ⟨sixBytePair, {}⟩ (.decode 0) =
      ⟨sixBytePair, { pairs := PairLedger.empty.record 4 4 }⟩ :=
  Session.after_decode (some (.record 4 4)) (by decide +kernel)

/-- In overlapping code a target moves: after the pair at 0 is decoded, the branch at 1 looks ahead
to its second half at 4 and clears the record of it, so that it does not find it there again. -/
theorem decode_twice_moves_target :
    let s := Session.run ⟨sixBytePair, {}⟩ [.decode 0]
    ∃ insn again, (c55x.decodeAndRecord s.space s.knowledge 1).1 = .ok insn ∧
      (c55x.decodeAndRecord s.space (c55x.decodeAndRecord s.space s.knowledge 1).2 1).1 =
        .ok again ∧
      (insn.operand 0).value = .target 198 (some 192) ∧
      (again.operand 0).value = .target 197 (some 192) ∧ again ≠ insn := by
  have hs : Session.run ⟨sixBytePair, {}⟩ [.decode 0] =
      ⟨sixBytePair, { pairs := PairLedger.empty.record 4 4 }⟩ := after_decode_sixBytePair
  rw [hs]
  obtain ⟨insn, hinsn, hvalue⟩ := exists_ok_of_toOption
    (r := (c55x.decodeAndRecord sixBytePair { pairs := PairLedger.empty.record 4 4 } 1).1)
    (f := fun insn => (insn.operand 0).value) (b := .target 198 (some 192)) (by decide +kernel)
  obtain ⟨again, hagain, hmoved⟩ := exists_ok_of_toOption
    (r := (c55x.decodeAndRecord sixBytePair (c55x.decodeAndRecord sixBytePair
      { pairs := PairLedger.empty.record 4 4 } 1).2 1).1)
    (f := fun insn => (insn.operand 0).value) (b := .target 197 (some 192)) (by decide +kernel)
  refine ⟨insn, again, hinsn, hagain, hvalue, hmoved, ?_⟩
  rintro rfl
  exact absurd (hvalue.symm.trans hmoved) (by decide)

end DspCode.Machine
