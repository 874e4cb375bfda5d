import DspCode.Proofs.RoundTrip

/-!
# How long instructions are

The bytes of an instruction are those of its code word, the bytes that its fields read after it, and
a qualifier byte if one is taken in. How many bytes a field reads is settled by its value alone.
Each of these bytes is mapped, also for the halves of a packed pair, whose bytes lie elsewhere than
where they are decoded.
-/

namespace DspCode

/-- How many bytes after the code word a single memory operand with the value `v` takes: two or
three for an address, two for a distance from a pointer. -/
def MemoryAccess.bytesAfter (v : Nat) : Nat :=
  if v % 2 = 0 then 0
  else if v % 32 = 0x11 then
    match v / 32 with
    | 1 => 3
    | 3 | 4 | 5 => 0
    | _ => 2
  else if v / 16 % 2 = 0 ∧ 6 ≤ v / 2 % 16 then 2
  else 0

/-- How many bytes after the code word a field with the value `v` takes. -/
def Field.bytesAfter (field : Field) (v : Nat) : Nat :=
  match field with
  | .smem | .lmem | .pointerUpdate | .bitAddress => MemoryAccess.bytesAfter v
  | .absoluteTarget => 3
  | _ => 0

/-- How many bytes after the code word a list of fields takes. -/
def FieldUse.bytesAfter (word : Nat) : List FieldUse → Nat
  | [] => 0
  | use :: rest => use.field.bytesAfter (use.selector.select word) + bytesAfter word rest

/-- How many bytes the instructions of a row take after the given code word. -/
def Encoding.bytesAfter (e : Encoding) (word : Nat) : Nat := FieldUse.bytesAfter word e.fields

namespace MemoryAccess

/-- An absolute address takes as many bytes as its value says. -/
theorem count_absoluteOrCoefficient (v : Nat) (width : DataWidth) (h : v % 32 = 0x11) :
    (absoluteOrCoefficient (v / 32) width).count = bytesAfter v := by
  have hodd : ¬v % 2 = 0 := by omega
  simp only [bytesAfter, hodd, h, if_false, if_true]
  generalize v / 32 = selector
  rcases selector with _ | _ | _ | _ | _ | _ | _ | _ <;> rfl

/-- A pointer takes two bytes for a distance, and none otherwise. -/
theorem count_pointer (base : RegisterId) (selector : Nat) (width : DataWidth) :
    (pointer base selector width).count = if 6 ≤ selector then 2 else 0 := by
  rcases selector with _ | _ | _ | _ | _ | _ | _ | selector
  case succ.succ.succ.succ.succ.succ.succ =>
    rw [if_pos (by omega)]
    rfl
  all_goals rfl

/-- The bytes read for a single memory operand do not depend on the register context. -/
theorem count_of (context : Register → Option UInt32) (v : Nat) (width : DataWidth)
    (update : Bool) : (of context v width update).count = bytesAfter v := by
  unfold of
  split
  next h => simp only [fixed, bytesAfter, h, if_true]
  next h =>
    split
    next h' => exact count_absoluteOrCoefficient v width h'
    next h' =>
      simp only [bytesAfter, h, h', if_false]
      split
      next h'' => simp only [count_pointer, h'', true_and]
      next h'' => simp only [h'', false_and, if_false, fixed]

end MemoryAccess

namespace Draft

variable {d d' : Draft} {s : Surroundings}

/-- A step from `d` takes in `count` bytes, each of which can be read. -/
def Takes (s : Surroundings) (d : Draft) (count : Nat) (d' : Draft) : Prop :=
  d'.insn.length = d.insn.length + count ∧
    ∀ i, d.insn.length ≤ i → i < d'.insn.length → ∃ b, s.bytes i = .ok b

private theorem Takes.refl_of_length (h : d'.insn.length = d.insn.length) : Takes s d 0 d' :=
  ⟨h, fun i hl hu => by omega⟩

/-- What two steps take in adds up. -/
theorem Takes.trans {e : Draft} {m n : Nat} (h : Takes s d m d') (h' : Takes s d' n e) :
    Takes s d (m + n) e := by
  refine ⟨by rw [h'.1, h.1, Nat.add_assoc], fun i hl hu => ?_⟩
  by_cases hi : i < d'.insn.length
  · exact h.2 i hl hi
  · exact h'.2 i (Nat.not_lt.mp hi) hu

/-- Only taking in bytes makes an instruction longer. -/
theorem steady_length (n : Nat) : Steady (fun insn => insn.length = n) where
  setOperand _ _ h := h
  kind _ h := h
  memorySlot _ h := h
  withSplit _ h := h
  marks _ h := h

/-- Reading takes in as many bytes as are asked for. -/
theorem takes_readMore {value count : Nat} {r : Nat × Draft}
    (h : d.readMore s value count = .ok r) : Takes s d count r.2 := by
  induction count generalizing d value with
  | zero =>
    cases h
    exact .refl_of_length rfl
  | succ count ih =>
    unfold readMore at h
    split at h
    next => cases h
    next b hb =>
      obtain ⟨hlength, hread⟩ := ih h
      refine ⟨by rw [hlength]; simp only; omega, fun i hl hu => ?_⟩
      rcases Nat.eq_or_lt_of_le hl with rfl | hl
      · exact ⟨b, hb⟩
      · exact hread i hl hu

/-- Bytes are read after the code word, and then something is done that reads none. -/
theorem takes_trailing {count : Nat} {f : Nat × Draft → Except FieldError Draft}
    (h : d.trailing s count >>= f = .ok d')
    (hf : ∀ r, f r = .ok d' → d'.insn.length = r.2.insn.length) : Takes s d count d' := by
  cases hr : d.trailing s count with
  | error e => rw [hr] at h; cases h
  | ok r =>
    rw [hr] at h
    exact (takes_readMore hr).trans (.refl_of_length (hf r h))

/-- A single memory operand takes the bytes that its value asks for. -/
theorem takes_pushSingleMemory {v : Nat} {width : DataWidth} {update : Bool}
    (h : d.pushSingleMemory s v width update = .ok d') :
    Takes s d (MemoryAccess.bytesAfter v) d' := by
  rw [MemoryAccess.pushSingleMemory_eq] at h
  rw [← MemoryAccess.count_of (d.contextOf s) v width update]
  exact takes_trailing h fun r hr => (steady_length _).pushMemory rfl trivial d' hr

/-- A field takes in the bytes that its value asks for. -/
theorem takes_contribute {field : Field} {v : Nat} (h : d.contribute s field v = .ok d') :
    Takes s d (field.bytesAfter v) d' := by
  cases field with
  | smem | lmem | pointerUpdate => exact takes_pushSingleMemory h
  | bitAddress =>
    simp only [contribute] at h
    split at h
    next he =>
      have hnone : MemoryAccess.bytesAfter v = 0 := if_pos he
      simp only [Field.bytesAfter, hnone]
      exact .refl_of_length ((steady_length _).push rfl trivial d' h)
    next => exact takes_pushSingleMemory h
  | absoluteTarget =>
    exact takes_trailing h fun r hr => (steady_length _).push rfl trivial d' hr
  | _ => exact .refl_of_length ((steady_length _).contribute rfl rfl v d' h)

/-- The fields of an encoding take in the bytes that their values ask for. -/
theorem takes_contributeAll {word : Nat} {fields : List FieldUse} {insn : Instruction}
    (h : d.contributeAll s word fields = .ok (some insn)) :
    Takes s d (FieldUse.bytesAfter word fields) ⟨insn, none⟩ := by
  induction fields generalizing d with
  | nil =>
    cases h
    exact .refl_of_length rfl
  | cons use rest ih =>
    unfold contributeAll at h
    cases hc : d.contribute s use.field (use.selector.select word) with
    | error e => rw [hc] at h; cases h
    | ok d' =>
      rw [hc] at h
      simp only [bind, Except.bind] at h
      split at h
      · cases h
      · exact (takes_contribute hc).trans (ih h)

end Draft

namespace Machine.Matched

variable {context : Context} {next : NextAddress} {w : ByteWindow} {row : Encoding} {word : Nat}
  {insn : Instruction}

/-- A matched instruction takes the bytes after its code word that its row asks for. -/
theorem takes (h : Matched context next w row word insn) :
    Draft.Takes (c55x.surroundings context next w) (draftAt w.base row) (row.bytesAfter word)
      ⟨insn, none⟩ :=
  Draft.takes_contributeAll h.contributed

/-- A matched instruction takes its code word and what its fields read. -/
theorem length_eq (h : Matched context next w row word insn) :
    insn.length = row.width + row.bytesAfter word := h.takes.1

/-- Every byte of a matched instruction can be read. -/
theorem exists_answer (h : Matched context next w row word insn) {i : Nat} (hi : i < insn.length) :
    ∃ b, w.answer i = .ok b := by
  by_cases hw : i < row.width
  · obtain ⟨b, hb, -⟩ :=
      Encoding.compareUnits_full_read (Encoding.firstMatch_found h.found).2 hw
    exact ⟨b, by rwa [Nat.zero_add] at hb⟩
  · exact h.takes.2 i (Nat.not_lt.mp hw) hi

end Machine.Matched

namespace AddressSpace

private theorem isMapped_of_appendBigEndian {space : AddressSpace} {a : Address} {value w : UInt32}
    {n : Nat} (h : space.appendBigEndian a value n = .ok w) {i : Nat} (hi : i < n) :
    space.isMapped (a + UInt32.ofNat i) = true := by
  induction n generalizing a value i with
  | zero => omega
  | succ n ih =>
    obtain ⟨b, hb, h⟩ := appendBigEndian_succ h
    cases i with
    | zero =>
      rw [show a + UInt32.ofNat 0 = a from UInt32.add_zero a, isMapped, hb]
      rfl
    | succ i =>
      have hplace : a + UInt32.ofNat (i + 1) = a + 1 + UInt32.ofNat i := by
        rw [UInt32.ofNat_add, UInt32.add_assoc, UInt32.add_comm 1]
        rfl
      rw [hplace]
      exact ih h (Nat.lt_of_succ_lt_succ hi)

end AddressSpace

/-- The bytes of a packed pair are mapped, from the word on to the last byte of the second half. -/
theorem PackedPair.isMapped_of_unpack {space : AddressSpace} {a : Address} {pair : PackedPair}
    (h : unpack? space a = some pair) {i : Nat} (hi : i < pair.head.length + pair.tail.length) :
    space.isMapped (a + UInt32.ofNat i) = true := by
  by_cases hword : i < 4
  · unfold unpack? at h
    split at h
    next => cases h
    next w hw => exact AddressSpace.isMapped_of_appendBigEndian hw hword
  · obtain ⟨last, -, -, hrest⟩ := (layout_of_unpack h).rest
    have hplace : i - 4 < pair.head.length + pair.tail.length - 4 := by omega
    have hbyte := congrArg (fun bytes => bytes[i - 4]?) hrest
    simp only [List.getElem?_map, List.getElem?_range' hplace, Option.map_some, Nat.one_mul,
      Nat.add_sub_cancel' (Nat.not_lt.mp hword)] at hbyte
    obtain ⟨b, -, hb⟩ := Option.map_eq_some_iff.mp hbyte
    rw [AddressSpace.isMapped, ← hb]
    rfl

namespace Machine

/-- A matched instruction as it is before a qualifier byte is looked for. -/
def marked (first : UInt8) (insn : Instruction) : Instruction :=
  (StatusBit.nameBit insn).withParallel (parallelBit first)

/-- The byte after a matched instruction is a qualifier that fits it and makes it `changed`. -/
def Qualifies (space : AddressSpace) (first : UInt8) (insn changed : Instruction) : Prop :=
  ∃ b q, space insn.limit = some b ∧ Qualifier.ofByte? b = some q ∧
    q.change? (marked first insn) = some changed

section Qualified

variable {space : AddressSpace} {first : UInt8} {insn : Instruction}

/-- Marking an instruction keeps its length. -/
@[simp] theorem length_marked (first : UInt8) (insn : Instruction) :
    (marked first insn).length = insn.length := by
  rw [marked, Instruction.length_withParallel, StatusBit.length_nameBit]

@[simp] theorem address_marked (first : UInt8) (insn : Instruction) :
    (marked first insn).address = insn.address := by
  rw [marked]
  cases parallelBit first <;> exact StatusBit.address_nameBit insn

/-- Marking an instruction keeps where it ends. -/
@[simp] theorem limit_marked (first : UInt8) (insn : Instruction) :
    (marked first insn).limit = insn.limit := by
  rw [Instruction.limit, Instruction.limit, address_marked, length_marked]

/-- A qualifier that fits is taken in with its byte. -/
theorem finishPlain_of_qualifies {changed : Instruction} (h : Qualifies space first insn changed) :
    c55x.finishPlain space first insn = { changed with length := insn.length + 1 } := by
  obtain ⟨b, q, hb, hq, hc⟩ := h
  have hlength : changed.length = insn.length :=
    (Qualifier.change?_place hc).1.trans (length_marked first insn)
  have hqualify : Qualifier.qualify? (marked first insn) b =
      some { changed with length := insn.length + 1 } := by
    simp only [Qualifier.qualify?, hq, bind, Option.bind, hc, hlength]
    rfl
  rw [finishPlain_eq, qualified, ← marked, limit_marked, hb]
  simp only [hqualify, Option.getD_some]

/-- Where no qualifier fits, the byte after the instruction is not part of it. -/
theorem finishPlain_of_not_qualifies (h : ∀ changed, ¬Qualifies space first insn changed) :
    c55x.finishPlain space first insn = marked first insn := by
  rw [finishPlain_eq, qualified, ← marked, limit_marked]
  cases hb : space insn.limit with
  | none => rfl
  | some b =>
    cases hq : Qualifier.ofByte? b with
    | none => simp only [Qualifier.qualify?, hq, bind, Option.bind, Option.getD_none]
    | some q =>
      cases hc : q.change? (marked first insn) with
      | none => simp only [Qualifier.qualify?, hq, bind, Option.bind, hc, Option.getD_none]
      | some changed => exact absurd ⟨b, q, hb, hq, hc⟩ (h changed)

/-- A matched instruction is finished with a qualifier or without one. -/
theorem finishPlain_cases (space : AddressSpace) (first : UInt8) (insn : Instruction) :
    (∃ changed, Qualifies space first insn changed ∧
        c55x.finishPlain space first insn = { changed with length := insn.length + 1 }) ∨
      (¬∃ changed, Qualifies space first insn changed) ∧
        c55x.finishPlain space first insn = marked first insn := by
  by_cases hq : ∃ changed, Qualifies space first insn changed
  · obtain ⟨changed, hchanged⟩ := hq
    exact Or.inl ⟨changed, hchanged, finishPlain_of_qualifies hchanged⟩
  · exact Or.inr ⟨hq, finishPlain_of_not_qualifies (not_exists.mp hq)⟩

/-- Finishing an instruction keeps its address. -/
@[simp] theorem address_finishPlain (space : AddressSpace) (first : UInt8) (insn : Instruction) :
    (c55x.finishPlain space first insn).address = insn.address := by
  obtain ⟨_, ⟨_, _, -, -, hc⟩, hfinish⟩ | ⟨_, hfinish⟩ := finishPlain_cases space first insn
  · obtain ⟨_, _, rfl⟩ := Qualifier.change?_frame hc
    rw [hfinish]
    exact address_marked first insn
  · rw [hfinish, address_marked]

/-- A qualifier byte moves the end of an instruction on by one. -/
theorem limit_finishPlain (space : AddressSpace) (first : UInt8) (insn : Instruction) :
    (c55x.finishPlain space first insn).limit = insn.limit ∨
      (c55x.finishPlain space first insn).limit = insn.limit + 1 := by
  have haddress := address_finishPlain space first insn
  obtain ⟨_, -, hfinish⟩ | ⟨_, hfinish⟩ := finishPlain_cases space first insn
  · right
    rw [Instruction.limit, haddress, hfinish, Instruction.limit, UInt32.add_assoc]
    exact congrArg (insn.address + ·) (UInt32.ofNat_add insn.length 1)
  · left
    rw [hfinish, limit_marked]

end Qualified

/-- What the length of the instruction decoded at an address is made of. -/
structure Measured (space : AddressSpace) (k : Knowledge) (a : Address) (d : Decoded) : Prop where
  /-- There is at least one byte. -/
  pos : 1 ≤ d.insn.length
  /-- There are at most ten bytes. -/
  le : d.insn.length ≤ 10
  /-- All of them are mapped. -/
  mapped : ∀ i < d.insn.length, space.isMapped (a + UInt32.ofNat i) = true
  /-- A plain instruction takes the code word of the row that agrees, the bytes that its fields
  read, and one more exactly if the byte after these is a qualifier that fits. -/
  plain : d.insn.half? = none → ∃ first row word insn,
    space a = some first ∧
    (Encoding.search 8 Encoding.table (.new space a)).1 = .found row word ∧
    c55x.matchWindow k.context (c55x.nextAddress space k) (.new space a) = .ok (some insn) ∧
    ((∃ changed, Qualifies space first insn changed ∧
        d.insn = c55x.withUsage { changed with length := insn.length + 1 } ∧
        d.insn.length = row.width + row.bytesAfter word + 1) ∨
      (¬∃ changed, Qualifies space first insn changed) ∧
        d.insn = c55x.withUsage (marked first insn) ∧
        d.insn.length = row.width + row.bytesAfter word)
  /-- A first half takes as many bytes as were unpacked for it. -/
  head : ∀ t, d.insn.half? = some (.head t) →
    ∃ pair, PackedPair.unpack? space a = some pair ∧ d.insn.length = pair.head.length
  /-- A second half takes as many bytes as were unpacked for it. -/
  tail : ∀ h, d.insn.half? = some (.tail h) →
    ∃ pair, PackedPair.unpack? space h = some pair ∧ d.insn.length = pair.tail.length

section Decoded

variable {space : AddressSpace} {k : Knowledge} {a : Address}

/-- The bytes of an instruction matched at its own address are mapped. -/
theorem Matched.isMapped {context : Context} {next : NextAddress} {row : Encoding} {word : Nat}
    {insn : Instruction} (h : Matched context next (.new space a) row word insn) {i : Nat}
    (hi : i < insn.length) : space.isMapped (a + UInt32.ofNat i) = true := by
  obtain ⟨b, hb⟩ := h.exists_answer hi
  obtain ⟨-, -, hshown⟩ := ByteWindow.answer_eq_ok_iff.mp hb
  have hbyte : space (a + UInt32.ofNat i) = some b := hshown
  rw [AddressSpace.isMapped, hbyte]
  rfl

/-- The length of a plain instruction is that of its code word, of what its fields take and of a
qualifier byte. -/
theorem measured_plain {first : UInt8} {row : Encoding} {word : Nat} {insn : Instruction}
    (hf : space a = some first)
    (hm : Matched k.context (c55x.nextAddress space k) (.new space a) row word insn) :
    Measured space k a
      (c55x.assignRoles ⟨c55x.finishPlain space first insn, some (.clear insn.limit)⟩) := by
  have hpos : 0 < insn.length := Nat.lt_of_lt_of_le (Encoding.width_of_mem hm.mem).1 hm.width_le
  have hlimit : insn.limit = a + UInt32.ofNat insn.length := by
    rw [Instruction.limit, hm.address_eq]
    rfl
  have hhalf : (c55x.finishPlain space first insn).half? = none :=
    (finishPlain_place space first insn).2.trans hm.half?_eq_none
  have hcases := finishPlain_cases space first insn
  exact {
    pos := by
      obtain ⟨_, _, hfinish⟩ | ⟨_, hfinish⟩ := hcases
      · rw [assignRoles, hfinish]
        exact Nat.le_add_left 1 insn.length
      · rw [assignRoles, hfinish]
        exact (length_marked first insn).symm ▸ hpos
    le := Nat.le_trans (finishPlain_place space first insn).1 (Nat.succ_le_succ hm.length_le)
    mapped := by
      intro i hi
      by_cases hown : i < insn.length
      · exact hm.isMapped hown
      · -- only a qualifier byte lies past the bytes that were matched
        obtain ⟨_, ⟨b, q, hb, -⟩, hfinish⟩ | ⟨_, hfinish⟩ := hcases
        · rw [assignRoles, hfinish] at hi
          have hlast : i = insn.length :=
            Nat.le_antisymm (Nat.le_of_lt_succ hi) (Nat.not_lt.mp hown)
          rw [hlast, ← hlimit, AddressSpace.isMapped, hb]
          rfl
        · rw [assignRoles, hfinish] at hi
          exact absurd (length_marked first insn ▸ hi) hown
    plain := by
      intro _
      have hsearch := (Encoding.search_eq 8 Encoding.table (.new space a)).1.trans hm.found
      refine ⟨first, row, word, insn, hf, hsearch, hm.matchWindow, ?_⟩
      rw [← hm.length_eq, assignRoles]
      obtain ⟨changed, hq, hfinish⟩ | ⟨hq, hfinish⟩ := hcases
      · rw [hfinish]
        exact Or.inl ⟨changed, hq, rfl, rfl⟩
      · rw [hfinish]
        exact Or.inr ⟨hq, rfl, length_marked first insn⟩
    head := fun t ht => by cases hhalf.symm.trans ht
    tail := fun h ht => by cases hhalf.symm.trans ht }

/-- The length of a first half is that of the bytes it was unpacked from. -/
theorem measured_head {pair : PackedPair} {head tail : Instruction}
    (hh : Halves space k.context (c55x.nextAddress space k) a pair head tail) :
    Measured space k a (c55x.assignRoles ⟨asHead head, some (.record head.limit head.length)⟩) := by
  have hlength : (asHead head).length = pair.head.length :=
    (length_asHead head).trans (exists_matched_of_exactly hh.matchedHead).2.1
  have hbounds := (PackedPair.layout_of_unpack hh.unpacked).head_length
  exact {
    pos := by rw [assignRoles]; exact hlength ▸ Nat.le_of_succ_le hbounds.1
    le := by rw [assignRoles]; exact hlength ▸ Nat.le_trans hbounds.2 (by decide)
    mapped := fun i hi =>
      PackedPair.isMapped_of_unpack hh.unpacked (Nat.lt_add_right _ (hlength ▸ hi))
    plain := fun hnone => by cases hnone
    head := fun t _ => ⟨pair, hh.unpacked, hlength⟩
    tail := fun h ht => by cases ht }

/-- The length of a second half is that of the bytes it was unpacked from. -/
theorem measured_tail {headLength : Nat} {pair : PackedPair} {insn : Instruction}
    (hs : SecondHalf space k.context (c55x.nextAddress space k) a headLength pair insn) :
    Measured space k a (c55x.assignRoles ⟨asTail (a - UInt32.ofNat headLength) insn, none⟩) := by
  have hlength : (asTail (a - UInt32.ofNat headLength) insn).length = pair.tail.length :=
    (length_asTail _ insn).trans (exists_matched_of_exactly hs.matched).2.1
  have hbounds := (PackedPair.layout_of_unpack hs.unpacked).tail_length
  exact {
    pos := by rw [assignRoles]; exact hlength ▸ Nat.le_of_succ_le hbounds.1
    le := by rw [assignRoles]; exact hlength ▸ Nat.le_trans hbounds.2 (by decide)
    mapped := by
      intro i hi
      have hi : i < pair.tail.length := hlength ▸ hi
      have hplace : a + UInt32.ofNat i =
          a - UInt32.ofNat headLength + UInt32.ofNat (headLength + i) := by
        rw [UInt32.ofNat_add, ← UInt32.add_assoc, UInt32.sub_add_cancel]
      rw [hplace]
      exact PackedPair.isMapped_of_unpack hs.unpacked (by rw [hs.length]; omega)
    plain := fun hnone => by cases hnone
    head := fun t ht => by cases ht
    tail := fun h ht => by
      cases ht
      exact ⟨pair, hs.unpacked, hlength⟩ }

/-- The length of every decoded instruction is accounted for. -/
theorem Decodes.measured {d : Decoded} (h : Decodes space k (c55x.nextAddress space k) a d) :
    Measured space k a d := by
  cases h with
  | plain _ hf hm => exact measured_plain hf hm
  | head _ _ _ _ hh => exact measured_head hh
  | tail _ hs => exact measured_tail hs

/-- A decoded instruction stands at the address that was decoded. -/
theorem Decodes.address_eq {next : NextAddress} {d : Decoded} (h : Decodes space k next a d) :
    d.insn.address = a := by
  cases h with
  | plain _ _ hm => exact (address_finishPlain space _ _).trans hm.address_eq
  | head _ _ _ _ hh =>
    obtain ⟨⟨_, _, hm⟩, -⟩ := exists_matched_of_exactly hh.matchedHead
    exact (StatusBit.address_nameBit _).trans hm.address_eq
  | tail _ hs =>
    obtain ⟨⟨_, _, hm⟩, -⟩ := exists_matched_of_exactly hs.matched
    exact (StatusBit.address_nameBit _).trans hm.address_eq

end Decoded

/-- Whatever is decoded has one to ten bytes, all of them mapped, and exactly those that its row,
its fields and a qualifier take, or those that were unpacked for a half of a pair. -/
theorem measured_of_decode {space : AddressSpace} {k : Knowledge} {a : Address} {d : Decoded}
    (h : c55x.decode space k a = .ok d) : Measured space k a d :=
  (decode_eq_ok_iff.mp h).measured

/-- A move from a 16-bit address, qualified as an access to a port. -/
def qualifiedMove : AddressSpace := .holding 0 [0xA0, 0x11, 0x12, 0x34, 0x99]

/-- Two bytes of code word, two of address and one qualifier. -/
theorem measured_qualifiedMove :
    ∃ d, c55x.decode qualifiedMove {} 0 = .ok d ∧ d.insn.length = 5 ∧
      Measured qualifiedMove {} 0 d := by
  have hlength : (c55x.decode qualifiedMove {} 0).toOption.map (·.insn.length) = some 5 := by
    decide +kernel
  obtain ⟨d, hd, hl⟩ := exists_ok_of_toOption hlength
  exact ⟨d, hd, hl, measured_of_decode hd⟩

end Machine

end DspCode
