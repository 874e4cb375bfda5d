import DspCode.Proofs.Shadowing

/-!
# Locality of decoding

Decoding tries long rows before it finds a short one, and unpacking a pair probes bytes that may not
belong to it. None of this shows in the result. A plain instruction is settled by its own bytes and
the byte after them, which could have been a qualifier, up to the addresses of code targets at a
distance. The first half of a packed pair is settled by the bytes of both halves.
-/

namespace DspCode

/-- Both address spaces hold the same at `n` addresses from `a` on. -/
def AddressSpace.AgreeOn (space space' : AddressSpace) (a : Address) (n : Nat) : Prop :=
  ∀ i < n, space' (a + UInt32.ofNat i) = space (a + UInt32.ofNat i)

namespace AddressSpace.AgreeOn

variable {space space' : AddressSpace} {a : Address} {n : Nat}

/-- Memories that agree on a stretch agree on a shorter one. -/
theorem mono (h : AgreeOn space space' a n) {m : Nat} (hm : m ≤ n) : AgreeOn space space' a m :=
  fun i hi => h i (Nat.lt_of_lt_of_le hi hm)

/-- Memories that agree on a stretch hold the same at its start. -/
theorem first (h : AgreeOn space space' a n) (hn : 0 < n) : space' a = space a := by
  have := h 0 hn
  rwa [show a + UInt32.ofNat 0 = a from UInt32.add_zero a] at this

private theorem appendBigEndian (h : AgreeOn space space' a n) (value : UInt32) :
    space'.appendBigEndian a value n = space.appendBigEndian a value n := by
  induction n generalizing a value with
  | zero => rfl
  | succ n ih =>
    have hrest : AgreeOn space space' (a + 1) n := by
      intro i hi
      have hplace : a + 1 + UInt32.ofNat i = a + UInt32.ofNat (i + 1) := by
        rw [UInt32.ofNat_add, UInt32.add_assoc, UInt32.add_comm 1]
        rfl
      rw [hplace]
      exact h (i + 1) (Nat.succ_lt_succ hi)
    unfold AddressSpace.appendBigEndian
    rw [h.first (Nat.succ_pos n)]
    simp only [ih hrest]

/-- The same bytes are read where memories agree. -/
theorem bytesBetween? (h : AgreeOn space space' a n) (lo : Nat) {hi : Nat} (hn : hi ≤ n) :
    space'.bytesBetween? a lo hi = space.bytesBetween? a lo hi := by
  have hsame : ∀ l : List Nat, (∀ i ∈ l, i < n) →
      l.mapM (fun i => space' (a + UInt32.ofNat i)) =
        l.mapM fun i => space (a + UInt32.ofNat i) := by
    intro l hl
    induction l with
    | nil => rfl
    | cons i rest ih =>
      obtain ⟨hi, hrest⟩ := List.forall_mem_cons.mp hl
      rw [List.mapM_cons, List.mapM_cons, h i hi, ih hrest]
  refine hsame _ fun i hi => ?_
  have := List.mem_range'_1.mp hi
  omega

private theorem byteAt? (h : AgreeOn space space' a n) {i : Nat} (hi : i < n) :
    PackedPair.byteAt? space' a i = PackedPair.byteAt? space a i := by
  rw [PackedPair.byteAt?, PackedPair.byteAt?, h i hi]

end AddressSpace.AgreeOn

namespace PackedPair

open AddressSpace (AgreeOn)

variable {space space' : AddressSpace} {a : Address}

private theorem lt_of_byteAt {i n : Nat} (h : byteAt? space a i = some n) : n < 256 := by
  obtain ⟨b, -, rfl⟩ := Option.map_eq_some_iff.mp h
  exact b.toNat_lt

/-- A width of two is found from two bytes, without the third and fourth. -/
theorem widthOf_two {opcode rest : Nat} (hrest : rest < 0x10000)
    (h : widthOf (opcode * 0x1000000 + rest) = 2) : widthOf (opcode * 0x1000000) = 2 := by
  refine Encoding.leadingWidth_congr h (by decide) ?_
  rw [Nat.shiftRight_eq_div_pow, Nat.shiftRight_eq_div_pow]
  show _ / 0x10000 = _ / 0x10000
  omega

/-- A width of three is found from three bytes, without the fourth. -/
theorem widthOf_three {front fourth : Nat} (hfourth : fourth < 256)
    (h : widthOf (front * 0x100 + fourth) = 3) : widthOf (front * 0x100) = 3 := by
  refine Encoding.leadingWidth_congr h (by decide) ?_
  rw [Nat.shiftRight_eq_div_pow, Nat.shiftRight_eq_div_pow]
  show _ / 0x100 = _ / 0x100
  omega

/-- The bytes that are consulted for the width of a second half belong to it. -/
theorem memoryTailWidth?_congr {opcode headWidth tailWidth : Nat}
    (h : memoryTailWidth? space a opcode headWidth = some tailWidth)
    (hagree : AgreeOn space space' a (headWidth + tailWidth)) :
    memoryTailWidth? space' a opcode headWidth = some tailWidth := by
  simp only [memoryTailWidth?] at h ⊢
  split at h
  next hfirst => rwa [if_pos hfirst]
  next hfirst =>
    rw [if_neg hfirst]
    obtain ⟨third, hthird, h⟩ := Option.bind_eq_some_iff.mp h
    have lthird := lt_of_byteAt hthird
    split at h
    next hsecond =>
      cases h
      have hne : widthOf (opcode * 0x1000000 + third * 0x100) ≠ 2 := fun heq =>
        hfirst (Nat.le_of_eq (widthOf_two (by omega) heq).symm)
      rw [hagree.byteAt? (by omega), hthird, Option.bind_eq_bind, Option.bind_some, if_pos hsecond,
        Option.pure_def]
    next hsecond =>
      obtain ⟨fourth, hfourth, h⟩ := Option.bind_eq_some_iff.mp h
      have lfourth := lt_of_byteAt hfourth
      split at h
      next hlast =>
        cases h
        have hne : widthOf (opcode * 0x1000000 + third * 0x100 + fourth) ≠ 2 := by
          intro heq
          rw [Nat.add_assoc] at heq
          exact hfirst (Nat.le_of_eq (widthOf_two (by omega) heq).symm)
        have hne' : widthOf (opcode * 0x1000000 + third * 0x100 + fourth) ≠ 3 := by
          intro heq
          have hfront :
              opcode * 0x1000000 + third * 0x100 = (opcode * 0x10000 + third) * 0x100 := by
            omega
          rw [hfront] at heq hsecond
          exact hsecond (by rw [widthOf_three lfourth heq]; decide)
        rw [hagree.byteAt? (by omega), hthird, Option.bind_eq_bind, Option.bind_some,
          if_neg hsecond, hagree.byteAt? (by omega), hfourth, Option.bind_some, if_pos hlast,
          Option.pure_def]
      next => cases h

/-- The bytes that are consulted for the width of a first half before a short second half belong to
the pair. -/
theorem shortHeadWidth?_congr {probe headWidth : Nat}
    (h : shortHeadWidth? space a probe = some headWidth)
    (hagree : AgreeOn space space' a (headWidth + 3)) :
    shortHeadWidth? space' a probe = some headWidth := by
  simp only [shortHeadWidth?] at h ⊢
  split at h
  next hfirst => rwa [if_pos hfirst]
  next hfirst =>
    rw [if_neg hfirst]
    obtain ⟨third, hthird, h⟩ := Option.bind_eq_some_iff.mp h
    split at h
    next hsecond =>
      cases h
      rw [hagree.byteAt? (by omega), hthird, Option.bind_eq_bind, Option.bind_some, if_pos hsecond,
        Option.pure_def]
    next hsecond =>
      obtain ⟨fourth, hfourth, h⟩ := Option.bind_eq_some_iff.mp h
      split at h
      next hlast =>
        cases h
        rw [hagree.byteAt? (by decide), hthird, Option.bind_eq_bind, Option.bind_some,
          if_neg hsecond, hagree.byteAt? (by decide), hfourth, Option.bind_some, if_pos hlast,
          Option.pure_def]
      next => cases h

/-- A pair with two memory fields is unpacked from the bytes of its halves alone. -/
theorem withMemoryFields?_congr {word : Nat} {pair : PackedPair}
    (h : withMemoryFields? space a word = some pair)
    (hagree : AgreeOn space space' a (pair.head.length + pair.tail.length)) :
    withMemoryFields? space' a word = some pair := by
  simp only [withMemoryFields?] at h ⊢
  generalize widthOf (headOpcode word * 0x1000000) = headWidth at h ⊢
  split at h
  next => cases h
  next hw =>
    rw [if_neg hw]
    obtain ⟨tailWidth, htail, hrest⟩ := Option.bind_eq_some_iff.mp h
    obtain ⟨headRest, hhr, hrest⟩ := Option.bind_eq_some_iff.mp hrest
    obtain ⟨tailRest, htr, hrest⟩ := Option.bind_eq_some_iff.mp hrest
    cases hrest
    have htwo := (memoryTailWidth?_bounds htail).1
    have lhr := AddressSpace.length_bytesBetween hhr
    have ltr := AddressSpace.length_bytesBetween htr
    have hown : AgreeOn space space' a (headWidth + tailWidth) := hagree.mono (by
      simp only [List.length_cons]
      omega)
    rw [memoryTailWidth?_congr htail hown, Option.bind_eq_bind, Option.bind_some,
      hown.bytesBetween? 4 (Nat.add_le_add_left htwo headWidth), hhr, Option.bind_eq_bind,
      Option.bind_some, hown.bytesBetween? _ (Nat.le_refl _), htr, Option.bind_some,
      Option.pure_def]

/-- A pair with a short second half is unpacked from the bytes of its halves alone. -/
theorem withShortTail?_congr {word : Nat} {pair : PackedPair}
    (h : withShortTail? space a word = some pair)
    (hagree : AgreeOn space space' a (pair.head.length + pair.tail.length)) :
    withShortTail? space' a word = some pair := by
  simp only [withShortTail?] at h ⊢
  obtain ⟨headWidth, hhead, hrest⟩ := Option.bind_eq_some_iff.mp h
  split at hrest
  next => cases hrest
  next hw =>
    obtain ⟨headRest, hhr, hrest⟩ := Option.bind_eq_some_iff.mp hrest
    obtain ⟨middle, hmid, hrest⟩ := Option.bind_eq_some_iff.mp hrest
    cases hrest
    have lhr := AddressSpace.length_bytesBetween hhr
    have hown : AgreeOn space space' a (headWidth + 3) := hagree.mono (by
      simp only [List.length_cons, List.length_nil]
      omega)
    rw [shortHeadWidth?_congr hhead hown, Option.bind_eq_bind, Option.bind_some, if_neg hw,
      hown.bytesBetween? 4 (Nat.le_succ _), hhr, Option.bind_eq_bind, Option.bind_some,
      hown.byteAt? (Nat.lt_succ_self _), hmid, Option.bind_some, Option.pure_def]

/-- A packed pair unpacks in the same way wherever the bytes of both halves are the same. -/
theorem unpack?_congr {pair : PackedPair} (h : unpack? space a = some pair)
    (hagree : AgreeOn space space' a (pair.head.length + pair.tail.length)) :
    unpack? space' a = some pair := by
  have hlayout := layout_of_unpack h
  have hword : space'.readBigEndian a 4 = space.readBigEndian a 4 :=
    (hagree.mono (Nat.add_le_add hlayout.head_length.1 hlayout.tail_length.1)).appendBigEndian 0
  unfold unpack? at h ⊢
  rw [hword]
  split at h
  next => cases h
  next w hw =>
    simp only at h ⊢
    split at h
    next hm =>
      rw [if_pos hm]
      exact withMemoryFields?_congr h hagree
    next hm =>
      rw [if_neg hm]
      exact withShortTail?_congr h hagree

end PackedPair

namespace Machine

open AddressSpace (AgreeOn)

section Plain

variable {space space' : AddressSpace} {a : Address} {context : Context} {next : NextAddress}
  {row : Encoding} {word : Nat} {insn : Instruction}

/-- An instruction is matched in the same way wherever its own bytes are the same. -/
theorem Matched.congr_space (h : Matched context next (.new space a) row word insn)
    (hagree : AgreeOn space space' a insn.length) :
    Matched context next (.new space' a) row word insn := by
  have hshown : ∀ i < insn.length,
      (ByteWindow.new space' a).shown? i = (ByteWindow.new space a).shown? i := hagree
  refine h.congr_bytes rfl fun i hi => ?_
  obtain ⟨b, hb⟩ := h.exists_answer hi
  obtain ⟨hcapacity, hall, hlast⟩ := ByteWindow.answer_eq_ok_iff.mp hb
  rw [hb]
  refine ByteWindow.answer_eq_ok_iff.mpr ⟨hcapacity, fun j hj => ?_, ?_⟩
  · rw [hshown j (Nat.lt_of_le_of_lt hj hi)]
    exact hall j hj
  · rw [hshown i hi, hlast]

/-- Given bytes that are matched exactly are so in every address space. -/
theorem matchExactly_congr_space {bytes : List UInt8}
    (h : c55x.matchExactly space context next a bytes = .ok (some insn)) :
    c55x.matchExactly space' context next a bytes = .ok (some insn) := by
  obtain ⟨⟨row, word, hm⟩, hl, -⟩ := exists_matched_of_exactly h
  have hc : bytes.length ≤ ByteWindow.capacity := hl ▸ hm.length_le_capacity
  have hm' : Matched context next (.primed space' a bytes) row word insn := by
    refine hm.congr_bytes rfl fun i hi => ?_
    rw [hl] at hi
    rw [ByteWindow.answer_primed_of_lt hc hi, ByteWindow.answer_primed_of_lt hc hi]
  exact matchExactly_eq_some_iff.mpr ⟨hm'.matchWindow, hl⟩

/-- Finishing makes no instruction shorter. -/
theorem le_length_finishPlain (space : AddressSpace) (first : UInt8) (insn : Instruction) :
    insn.length ≤ (c55x.finishPlain space first insn).length := by
  obtain ⟨_, _, h⟩ | ⟨_, h⟩ := finishPlain_cases space first insn
  · rw [h]
    exact Nat.le_succ insn.length
  · exact Nat.le_of_eq (by rw [h, length_marked])

/-- Finishing looks at the byte after an instruction and no other. -/
theorem finishPlain_congr_space (h : space' insn.limit = space insn.limit) (first : UInt8) :
    c55x.finishPlain space' first insn = c55x.finishPlain space first insn := by
  rw [finishPlain_eq, finishPlain_eq, ← marked, qualified, qualified, limit_marked, h]

/-- A plain instruction is settled by its own bytes and the byte after them. -/
theorem Decodes.plain_local {k : Knowledge} {first : UInt8} (hk : k.pairs.headLength? a = none)
    (hf : space a = some first)
    (hm : Matched k.context (c55x.nextAddress space k) (.new space a) row word insn)
    (hagree : AgreeOn space space' a ((c55x.finishPlain space first insn).length + 1)) :
    c55x.decode space' k a = .ok ⟨(finished space first insn).retarget
      (c55x.nextAddress space' k a row.width) c55x.codeMask, some (.clear insn.limit)⟩ := by
  have hlength := le_length_finishPlain space first insn
  have hlimit : space' insn.limit = space insn.limit := by
    rw [Instruction.limit, hm.address_eq]
    exact hagree insn.length (Nat.lt_succ_of_le hlength)
  have hm' := (hm.congr_space (hagree.mono (Nat.le_succ_of_le hlength))).retarget
    (c55x.nextAddress space' k)
  rw [decode_eq_ok_iff]
  have hd := Decodes.plain hk ((hagree.first (Nat.succ_pos _)).trans hf) hm'
  rw [assignRoles, finishPlain_retarget, finishPlain_congr_space hlimit, withUsage_retarget,
    Instruction.limit_retarget] at hd
  exact hd

end Plain

section Head

variable {space space' : AddressSpace} {a : Address} {k : Knowledge} {pair : PackedPair}
  {head tail : Instruction} {first : UInt8}

/-- Both halves of a pair are there wherever their bytes are the same. -/
theorem Halves.congr_space (hh : Halves space k.context (c55x.nextAddress space k) a pair head tail)
    (hf : space a = some first) (hmarker : PackedPair.isMarker first = true)
    (hagree : AgreeOn space space' a (pair.head.length + pair.tail.length)) :
    ∃ tail', Halves space' k.context (c55x.nextAddress space' k) a pair head tail' := by
  obtain ⟨marker, opcode, hmk, hop, hge⟩ := (PackedPair.layout_of_unpack hh.unpacked).head_first
  cases hf.symm.trans hmk
  obtain ⟨headRow, headWord, hhead⟩ :=
    exists_matched_head hh.matchedHead hop (hge hmarker) space' k
  have hheadLength := (exists_matched_of_exactly hh.matchedHead).2.1
  obtain ⟨tail', htail'⟩ := exists_rematch hh.matchedTail (c55x.nextAddress space' k)
  exact ⟨tail', PackedPair.unpack?_congr hh.unpacked hagree,
    matchExactly_congr_space (matchExactly_eq_some_iff.mpr ⟨hhead.matchWindow, hheadLength⟩),
    matchExactly_congr_space htail'⟩

/-- The first half of a pair is settled by the bytes of both halves: a plain instruction in its
place would take no other bytes, and so would have been found before. -/
theorem Decodes.head_local (hk : k.pairs.headLength? a = none) (hf : space a = some first)
    (hmarker : PackedPair.isMarker first = true)
    (hno : ¬∃ insn, c55x.matchWindow k.context (c55x.nextAddress space k) (.new space a) =
      .ok (some insn))
    (hh : Halves space k.context (c55x.nextAddress space k) a pair head tail)
    (hagree : AgreeOn space space' a (pair.head.length + pair.tail.length)) :
    c55x.decode space' k a =
      .ok (c55x.assignRoles ⟨asHead head, some (.record head.limit head.length)⟩) := by
  obtain ⟨tail', hh'⟩ := hh.congr_space hf hmarker hagree
  have hpos : 0 < pair.head.length + pair.tail.length := by
    have := (PackedPair.layout_of_unpack hh.unpacked).head_length.1
    omega
  have hf' : space' a = some first := (hagree.first hpos).trans hf
  rw [decode_eq_ok_iff]
  refine .head hk hf' hmarker ?_ hh'
  rintro ⟨insn, hmatch⟩
  obtain ⟨row, word, hm⟩ := exists_matched hmatch
  have hshort := hh'.length_le_of_matched hf' hmarker hm
  have hback : AgreeOn space' space a insn.length := fun i hi =>
    (hagree i (Nat.lt_of_lt_of_le hi hshort)).symm
  exact hno ⟨_, ((hm.congr_space hback).retarget (c55x.nextAddress space k)).matchWindow⟩

end Head

/-- Decoding is local. Where nothing is recorded, a plain instruction decodes in the same way from
every memory with the same bytes up to and with the one after it, apart from the addresses of code
targets at a distance. A first half decodes in the same way from every memory with the same bytes of
both halves. -/
theorem decode_local {space space' : AddressSpace} {k : Knowledge} {a : Address} {d : Decoded}
    (hk : k.pairs.headLength? a = none) (hd : c55x.decode space k a = .ok d) :
    (d.insn.half? = none → AgreeOn space space' a (d.insn.length + 1) →
      ∃ next, c55x.decode space' k a = .ok ⟨d.insn.retarget next c55x.codeMask, d.update⟩) ∧
    ∀ t, d.insn.half? = some (.head t) →
      ∃ second, c55x.decode space (k.learn d.update) t = .ok second ∧
        (AgreeOn space space' a (d.insn.length + second.insn.length) →
          c55x.decode space' k a = .ok d) := by
  constructor
  · intro hhalf hagree
    cases decode_eq_ok_iff.mp hd with
    | plain _ hf hm => exact ⟨_, Decodes.plain_local hk hf hm hagree⟩
    | head => cases hhalf
    | tail => cases hhalf
  · intro t ht
    obtain ⟨first, pair, head, tail, hf, hmarker, hno, hh, rfl, rfl⟩ :=
      (decode_eq_ok_iff.mp hd).exists_halves ht
    have hrecord : (k.learn (some (.record head.limit head.length))).pairs.headLength? head.limit =
        some head.length := by
      simp only [Knowledge.learn, PairLedger.apply, PairLedger.headLength?_record, if_true]
    obtain ⟨tail', htail', hsecond⟩ :=
      hh.exists_decode_tail (k.context_learn _) hrecord
    refine ⟨_, hsecond, fun hagree => Decodes.head_local hk hf hmarker hno hh ?_⟩
    have hheadLength := (exists_matched_of_exactly hh.matchedHead).2.1
    have htailLength := (exists_matched_of_exactly htail').2.1
    have hsum :
        (c55x.assignRoles ⟨asHead head, some (.record head.limit head.length)⟩).insn.length +
          (c55x.assignRoles ⟨asTail a tail', none⟩).insn.length =
            pair.head.length + pair.tail.length := by
      rw [← hheadLength, ← htailLength, ← length_asHead head, ← length_asTail a tail']
      rfl
    rwa [hsum] at hagree

/-- The pair of six bytes with a byte after it. -/
def sixBytePairAndMore : AddressSpace := .holding 0 [0x8F, 0x06, 0x00, 0xC0, 0x21, 0x00, 0x98]

/-- The byte after a pair does not change its first half. -/
theorem decode_local_sixBytePair :
    ∃ d, c55x.decode sixBytePair {} 0 = .ok d ∧ d.insn.half? = some (.head 4) ∧
      c55x.decode sixBytePairAndMore {} 0 = .ok d := by
  have hhead : (c55x.decode sixBytePair {} 0).toOption.map
      (fun d => (d.insn.half?, d.insn.length, d.update)) =
        some (some (.head 4), 4, some (.record 4 4)) := by decide +kernel
  have htail :
      (c55x.decode sixBytePair (({} : Knowledge).learn (some (.record 4 4))) 4).toOption.map
        (·.insn.length) = some 2 := by decide +kernel
  obtain ⟨d, hd, hfacts⟩ := exists_ok_of_toOption hhead
  obtain ⟨hhalf, hlength, hupdate⟩ :
      d.insn.half? = some (.head 4) ∧ d.insn.length = 4 ∧ d.update = some (.record 4 4) := by
    simpa using hfacts
  obtain ⟨second, hsecond, hsame⟩ :=
    (@decode_local sixBytePair sixBytePairAndMore {} 0 d rfl hd).2 4 hhalf
  have hlength' : second.insn.length = 2 := by
    rw [hupdate] at hsecond
    rw [hsecond] at htail
    exact Option.some.inj htail
  refine ⟨d, hd, hhalf, hsame ?_⟩
  rw [hlength, hlength']
  unfold AgreeOn
  decide +kernel

end Machine

end DspCode
