import DspCode.Proofs.Frames
import DspCode.Proofs.Shadowing
import DspCode.Proofs.Shapes

/-!
# Packed memory fields

Where both halves of a packed pair have a memory field, unpacking spells each field of six bits as
the memory byte of a single memory operand. Dual memory operands have fields of the same six bits.
Both name the same pointer, and six of the eight modes mean the same in either place. For the other
two the memory byte is one that means a short offset while the short offset mode is on, and the
field of a dual memory operand is not. Main statement: a packed memory field gives the pointer and
the mode of dual memory, except for these two modes in the short offset mode.
-/

namespace DspCode

/-- Whether a field is a single memory operand that nothing is done to. -/
def Field.isSingle : Field → Bool
  | .smem | .lmem => true
  | _ => false

private theorem Field.usesContext_of_isSingle {field : Field} (h : field.isSingle = true) :
    field.usesContext = true := by
  cases field with
  | smem | lmem => rfl
  | _ => cases h

/-! ## The memory byte of a field -/

namespace PackedPair

/-- The mode that a packed memory field gives where short offsets are on or off. -/
def fieldMode (short : Bool) (field : Nat) : PointerMode :=
  if short ∧ field % 8 = 4 then .shortOffset 1
  else if short ∧ field % 8 = 6 then .shortOffset 2
  else dualMode field

/-- Short offsets change the mode of a packed memory field only at two of its eight values. -/
theorem fieldMode_eq_dualMode_iff (short : Bool) (field : Nat) :
    fieldMode short field = dualMode field ↔
      short = false ∨ field % 8 ≠ 4 ∧ field % 8 ≠ 6 := by
  unfold fieldMode
  split
  next h => simp [dualMode, h]
  next =>
    split
    next h => simp [dualMode, h]
    next => cases short <;> simp_all

/-- A packed memory field that is no dual mode is a short offset. -/
theorem fieldMode_of_ne {short : Bool} {field : Nat}
    (h : fieldMode short field ≠ dualMode field) :
    fieldMode short field = .shortOffset (field % 8 / 2 - 1) := by
  unfold fieldMode at h ⊢
  split
  next hc => rw [hc.2]
  next h₄ =>
    rw [if_neg h₄] at h
    split
    next hc => rw [hc.2]
    next h₆ =>
      rw [if_neg h₆] at h
      exact absurd rfl h

/-- The parts of the memory byte that single memory looks at. -/
theorem memoryByte_parts : ∀ field < 64,
    (memoryByte field).toNat % 2 ≠ 0 ∧ (memoryByte field).toNat % 32 ≠ 0x11 ∧
      (memoryByte field).toNat / 32 = field / 8 ∧
      if field % 8 = 4 then
        (memoryByte field).toNat / 16 % 2 ≠ 0 ∧ (memoryByte field).toNat / 2 % 8 = 1
      else if field % 8 = 6 then
        (memoryByte field).toNat / 16 % 2 ≠ 0 ∧ (memoryByte field).toNat / 2 % 8 = 2
      else (memoryByte field).toNat / 16 % 2 = 0 ∧
        (memoryByte field).toNat / 2 % 16 = modeBits (field % 8) := by
  decide +kernel

/-- The modes that mean the same in every context. -/
theorem pointer_modeBits (base : RegisterId) (width : DataWidth) {field : Nat}
    (h₄ : field % 8 ≠ 4) (h₆ : field % 8 ≠ 6) :
    MemoryAccess.pointer base (modeBits (field % 8)) width =
      .fixed (indirectOperand base (dualMode field) width) := by
  have hlt : field % 8 < 8 := Nat.mod_lt field (by decide)
  unfold dualMode
  generalize field % 8 = mode at *
  rcases mode with _ | _ | _ | _ | _ | _ | _ | _ | mode
  · rfl
  · rfl
  · rfl
  · rfl
  · exact absurd rfl h₄
  · rfl
  · exact absurd rfl h₆
  · rfl
  · omega

/-- The memory byte of a field is memory at the pointer of the field, in its mode. -/
theorem of_memoryByte (context : Register → Option UInt32) (width : DataWidth) {field : Nat}
    (h : field < 64) :
    MemoryAccess.of context (memoryByte field).toNat width false =
      .fixed (indirectOperand (Register.ar0.offset (field / 8))
        (fieldMode ((context .arms).getD 0 != 0) field) width) := by
  obtain ⟨hodd, hplain, hbase, hmode⟩ := memoryByte_parts field h
  rw [MemoryAccess.of, if_neg hodd, if_neg hplain, hbase]
  simp only [Bool.not_false, Bool.true_and]
  split at hmode
  next h₄ =>
    rw [if_neg hmode.1, hmode.2, fieldMode]
    cases (context .arms).getD 0 != 0 with
    | true => rw [if_pos ⟨rfl, h₄⟩]; rfl
    | false => simp [Draft.pointerMode, dualMode, h₄]
  next h₄ =>
    split at hmode
    next h₆ =>
      rw [if_neg hmode.1, hmode.2, fieldMode, if_neg (fun hc => h₄ hc.2)]
      cases (context .arms).getD 0 != 0 with
      | true => rw [if_pos ⟨rfl, h₆⟩]; rfl
      | false => simp [Draft.pointerMode, dualMode, h₆]
    next h₆ =>
      rw [if_pos hmode.1, hmode.2, pointer_modeBits _ width h₄ h₆, fieldMode,
        if_neg (fun hc => h₄ hc.2), if_neg (fun hc => h₆ hc.2)]

/-- The second bytes of two halves with memory fields are the memory bytes of these. -/
theorem second_of_withMemoryFields {space : AddressSpace} {a : Address} {word : Nat}
    {pair : PackedPair} (h : withMemoryFields? space a word = some pair) :
    pair.head[1]? = some (memoryByte (headField word)) ∧
      pair.tail[1]? = some (memoryByte (tailField word)) := by
  simp only [withMemoryFields?] at h
  split at h
  next => cases h
  next =>
    obtain ⟨tailWidth, -, h⟩ := Option.bind_eq_some_iff.mp h
    obtain ⟨headRest, -, h⟩ := Option.bind_eq_some_iff.mp h
    obtain ⟨tailRest, -, h⟩ := Option.bind_eq_some_iff.mp h
    cases h
    exact ⟨rfl, rfl⟩

end PackedPair

/-! ## The single memory operand of a row -/

namespace Draft

variable {d d' : Draft} {s : Surroundings} {word : Nat} {insn : Instruction}

/-- A single memory operand goes into a slot of its own and is noted there. -/
theorem exists_of_single {field : Field} (hf : field.isSingle = true) {v : Nat}
    (h : d.contribute s field v = .ok d') :
    ∃ slot width number, d'.insn.memorySlot = some slot ∧
      d'.insn.operand slot = (MemoryAccess.of (d.contextOf s) v width false).operand number := by
  have hpush : ∃ width, d.pushSingleMemory s v width false = .ok d' := by
    cases field with
    | smem => exact ⟨.word, h⟩
    | lmem => exact ⟨.dword, h⟩
    | _ => cases hf
  obtain ⟨width, hpush⟩ := hpush
  obtain ⟨hfree, length, number, hinsn⟩ := exists_of_pushSingleMemory hpush
  refine ⟨d.insn.operandCount, width, number, by rw [hinsn], ?_⟩
  have hslot := d.insn.operand_setOperand d.insn.operandCount d.insn.operandCount
    ((MemoryAccess.of (d.contextOf s) v width false).operand number)
  rw [if_pos ⟨rfl, hfree⟩] at hslot
  rw [hinsn]
  exact hslot

/-- Fields after the memory operand leave it where and what it is. -/
theorem memory_contributeAll {fields : List FieldUse}
    (hcontext : ∀ use ∈ fields, use.field.usesContext = false)
    (hswap : ∀ use ∈ fields, use.field ≠ .swapPair) {slot : Nat}
    (hslot : d.insn.memorySlot = some slot) (hmemory : (d.insn.operand slot).isMemory = true)
    (h : d.contributeAll s word fields = .ok (some insn)) :
    insn.memorySlot = some slot ∧ (insn.operand slot).value = (d.insn.operand slot).value := by
  induction fields generalizing d with
  | nil =>
    cases h
    exact ⟨hslot, rfl⟩
  | cons use rest ih =>
    obtain ⟨d', hc, -, hrest⟩ := exists_of_contributeAll_cons h
    have hframe := frame_contribute hc
    have hvalue := hframe.memory (hswap use List.mem_cons_self) slot hmemory
    have hslot' : d'.insn.memorySlot = some slot :=
      (hframe.memorySlot (hcontext use List.mem_cons_self)).trans hslot
    have hmemory' : (d'.insn.operand slot).isMemory = true :=
      (Operand.isMemory_congr hvalue).trans hmemory
    obtain ⟨hlast, hlastValue⟩ := ih (fun u hu => hcontext u (List.mem_cons_of_mem _ hu))
      (fun u hu => hswap u (List.mem_cons_of_mem _ hu)) hslot' hmemory' hrest
    exact ⟨hlast, hlastValue.trans hvalue⟩

/-- The single memory operand of a row is found at the address of the instruction, whatever fields
stand before and after it. -/
theorem exists_of_contributeAll_single {fields : List FieldUse}
    (hcount : fields.countP (·.field.usesContext) ≤ 1)
    (hswap : ∀ use ∈ fields, use.field ≠ .swapPair) {use : FieldUse} (huse : use ∈ fields)
    (hsingle : use.field.isSingle = true)
    (h : d.contributeAll s word fields = .ok (some insn)) :
    ∃ slot width number, insn.memorySlot = some slot ∧
      (insn.operand slot).value =
        ((MemoryAccess.of (d.contextOf s) (use.selector.select word) width false).operand
          number).value := by
  induction fields generalizing d with
  | nil => cases huse
  | cons first rest ih =>
    obtain ⟨d', hc, -, hrest⟩ := exists_of_contributeAll_cons h
    have hswap' : ∀ u ∈ rest, u.field ≠ .swapPair := fun u hu => hswap u (List.mem_cons_of_mem _ hu)
    rw [List.countP_cons] at hcount
    cases List.mem_cons.mp huse with
    | inl heq =>
      -- this is the one field that uses the context, so no later one does
      subst heq
      have huses : use.field.usesContext = true := Field.usesContext_of_isSingle hsingle
      rw [if_pos huses] at hcount
      have hnone : rest.countP (·.field.usesContext) = 0 := by omega
      have hcontext : ∀ u ∈ rest, u.field.usesContext = false := fun u hu =>
        Bool.eq_false_iff.mpr (List.countP_eq_zero.mp hnone u hu)
      obtain ⟨slot, width, number, hslot, hop⟩ := exists_of_single hsingle hc
      have hmemory : (d'.insn.operand slot).isMemory = true := by
        rw [hop]
        exact MemoryAccess.isMemory_of _ _ _ _ _
      obtain ⟨hlast, hvalue⟩ := memory_contributeAll hcontext hswap' hslot hmemory hrest
      exact ⟨slot, width, number, hlast, hvalue.trans (congrArg Operand.value hop)⟩
    | inr hmem =>
      have hcontextOf : d'.contextOf s = d.contextOf s := by
        funext r
        rw [contextOf, contextOf, (frame_contribute hc).address]
      rw [← hcontextOf]
      exact ih (by omega) hswap' hmem hrest

end Draft

namespace Encoding

/-- Whether a row takes its single memory operand from the second byte of the code word, and has no
exchange that could displace it. -/
def keepsSingle (e : Encoding) : Bool :=
  e.fields.all fun use => !use.field.isSingle ||
    Nat.ble 2 e.width && use.selector == .bits (0xFF <<< (8 * (e.width - 2))) &&
      e.fields.all (·.field != .swapPair)

/-- All rows of the table pass this check. -/
theorem table_keepsSingle : table.all keepsSingle = true := by decide +kernel

/-- A row of the table takes its single memory operand from the second byte of its code word, and
has no exchange. -/
theorem single_of_mem {e : Encoding} (he : e ∈ table) {use : FieldUse} (huse : use ∈ e.fields)
    (hsingle : use.field.isSingle = true) :
    2 ≤ e.width ∧ use.selector = .bits (0xFF <<< (8 * (e.width - 2))) ∧
      ∀ u ∈ e.fields, u.field ≠ .swapPair := by
  have hrow := List.all_eq_true.mp (List.all_eq_true.mp table_keepsSingle e he) use huse
  simp only [hsingle, Bool.not_true, Bool.false_or, Bool.and_eq_true, Nat.ble_eq, beq_iff_eq,
    List.all_eq_true, bne_iff_ne] at hrow
  exact ⟨hrow.1.1, hrow.1.2, hrow.2⟩

end Encoding

/-! ## Finished halves -/

/-- The memory operand stays where and what it is. -/
structure Instruction.KeepsMemory (i j : Instruction) : Prop where
  slot : j.memorySlot = i.memorySlot
  /-- A memory operand keeps its value. -/
  value : ∀ slot, (i.operand slot).isMemory = true →
    (j.operand slot).value = (i.operand slot).value

namespace Instruction.KeepsMemory

variable {i j k : Instruction}

/-- Memory that is kept in two steps is kept. -/
theorem trans (h : KeepsMemory i j) (h' : KeepsMemory j k) : KeepsMemory i k where
  slot := h'.slot.trans h.slot
  value slot hmemory := by
    have hvalue := h.value slot hmemory
    have hmemory' : (j.operand slot).isMemory = true :=
      (Operand.isMemory_congr hvalue).trans hmemory
    exact (h'.value slot hmemory').trans hvalue

/-- Only a constant and a register are replaced when a status bit is named. -/
theorem nameBit (insn : Instruction) : KeepsMemory insn (StatusBit.nameBit insn) := by
  unfold StatusBit.nameBit
  split
  next form bit status _ hbit hstatus =>
    split
    next flag _ =>
      refine ⟨rfl, fun slot hmemory => ?_⟩
      have h₀ : slot ≠ 0 := by
        rintro rfl
        cases (Operand.constant?_of_isMemory hmemory).symm.trans hbit
      have h₁ : slot ≠ 1 := by
        rintro rfl
        cases (Operand.register?_of_isMemory hmemory).symm.trans hstatus
      rw [operand_setOperand, if_neg (fun hc => h₁ hc.1.symm), operand_setOperand,
        if_neg (fun hc => h₀ hc.1.symm)]
      rfl
    next => exact ⟨rfl, fun _ _ => rfl⟩
  next => exact ⟨rfl, fun _ _ => rfl⟩

/-- Roles do not touch the values of operands. -/
theorem withUsage (insn : Instruction) : KeepsMemory insn (Machine.c55x.withUsage insn) where
  slot := rfl
  value slot _ := by
    rw [Machine.withUsage, operand_withRoles]
    split <;> rfl

/-- Memory is kept where an instruction is made a first half. -/
theorem asHead (insn : Instruction) :
    KeepsMemory insn (Machine.c55x.withUsage (Machine.asHead insn)) := by
  have hmarked : KeepsMemory (StatusBit.nameBit insn) (Machine.asHead insn) :=
    ⟨rfl, fun _ _ => rfl⟩
  exact ((nameBit insn).trans hmarked).trans (withUsage _)

/-- Memory is kept where an instruction is made a second half. -/
theorem asTail (head : Address) (insn : Instruction) :
    KeepsMemory insn (Machine.c55x.withUsage (Machine.asTail head insn)) := by
  have hmarked : KeepsMemory (StatusBit.nameBit insn) (Machine.asTail head insn) :=
    ⟨rfl, fun _ _ => rfl⟩
  exact ((nameBit insn).trans hmarked).trans (withUsage _)

end Instruction.KeepsMemory

namespace Machine

/-- What the memory operand of a half at `a` has to do with its packed memory field. -/
structure FromField (context : Context) (a : Address) (field : Nat) (value : Nat)
    (insn : Instruction) : Prop where
  /-- The value of the operand is the memory byte of the field. -/
  byte : value = (PackedPair.memoryByte field).toNat
  /-- A dual memory operand with this field has the pointer and the mode of dual memory. -/
  dual : ∀ (d : Draft) (s : Surroundings), ∃ op, d.contribute s .xmem field = d.push op ∧
    op.value = .indirect (Register.ar0.offset (field / 8)) (dualMode field)
  /-- The operand has the same pointer, and the same mode unless it is one of two and short offsets
  are on. -/
  operand : ∃ slot mode, insn.memorySlot = some slot ∧
    (insn.operand slot).value = .indirect (Register.ar0.offset (field / 8)) mode ∧
    (mode = dualMode field ↔
      (context.get a Register.arms.id).getD 0 = 0 ∨ field % 8 ≠ 4 ∧ field % 8 ≠ 6) ∧
    (mode ≠ dualMode field → mode = .shortOffset (field % 8 / 2 - 1))

/-- The row found in the bytes of a half takes its single memory operand from the packed memory
field. -/
def ReadsField (space : AddressSpace) (context : Context) (a : Address) (bytes : List UInt8)
    (field : Nat) (insn : Instruction) : Prop :=
  ∃ row word, (Encoding.search 8 Encoding.table (.primed space a bytes)).1 = .found row word ∧
    ∀ use ∈ row.fields, use.field = .smem ∨ use.field = .lmem →
      FromField context a field (use.selector.select word) insn

section Half

variable {space : AddressSpace} {context : Context} {next : NextAddress} {a : Address}
  {bytes : List UInt8} {insn : Instruction}

/-- A matched half whose second byte is the memory byte of a field has the memory operand of the
field. -/
theorem readsField_of_matchExactly
    (h : c55x.matchExactly space context next a bytes = .ok (some insn)) {field : Nat}
    (hfield : field < 64) (hbyte : bytes[1]? = some (PackedPair.memoryByte field)) :
    ReadsField space context a bytes field insn := by
  obtain ⟨⟨row, word, hm⟩, hlength, -⟩ := exists_matched_of_exactly h
  refine ⟨row, word, (Encoding.search_eq 8 Encoding.table _).1.trans hm.found, ?_⟩
  intro use huse hkind
  have hsingle : use.field.isSingle = true := by
    rcases hkind with hkind | hkind <;> rw [hkind] <;> rfl
  obtain ⟨hwidth, hselector, hswap⟩ := Encoding.single_of_mem hm.mem huse hsingle
  have hvalue : use.selector.select word = (PackedPair.memoryByte field).toNat := by
    have hunit := (hm.unit_spec_primed hlength (i := 1) (by omega) hbyte).2
    have hsix := (Encoding.width_of_mem hm.mem).2
    rw [hselector, Encoding.select_byte word (by omega)]
    exact hunit
  obtain ⟨slot, width, number, hslot, hop⟩ := Draft.exists_of_contributeAll_single
    (Encoding.countP_usesContext_le row hm.mem) hswap huse hsingle hm.contributed
  rw [hvalue, PackedPair.of_memoryByte _ width hfield] at hop
  refine ⟨hvalue, fun d s => ⟨_, rfl, rfl⟩, slot, _, hslot, hop, ?_, PackedPair.fieldMode_of_ne⟩
  rw [PackedPair.fieldMode_eq_dualMode_iff, bne_eq_false_iff_eq]
  rfl

/-- A half still reads its field after a change that keeps memory. -/
theorem ReadsField.keepsMemory {field : Nat} (h : ReadsField space context a bytes field insn)
    {insn' : Instruction} (hkeeps : insn.KeepsMemory insn') :
    ReadsField space context a bytes field insn' := by
  obtain ⟨row, word, hfound, hrow⟩ := h
  refine ⟨row, word, hfound, fun use huse hkind => ?_⟩
  obtain ⟨hbyte, hdual, slot, mode, hslot, hop, hmode⟩ := hrow use huse hkind
  have hmemory : (insn.operand slot).isMemory = true := by
    rw [Operand.isMemory, hop]
  exact ⟨hbyte, hdual, slot, mode, hkeeps.slot.trans hslot,
    (hkeeps.value slot hmemory).trans hop, hmode⟩

end Half

/-- Packed memory fields keep their meaning but for two modes. Where both halves of a decoded pair
have a memory field, the second half decodes too, and the single memory operand of either half has
the pointer that a dual memory operand has for the same field. It has the same mode exactly if short
offsets are off or the mode is none of the two that turn into short offsets. -/
theorem decode_packedMemory {space : AddressSpace} {k : Knowledge} {a t : Address} {d : Decoded}
    {w : UInt32} (h : c55x.decode space k a = .ok d) (ht : d.insn.half? = some (.head t))
    (hw : space.readBigEndian a 4 = .ok w) (hmemory : 0x80 ≤ PackedPair.tailOpcode w.toNat) :
    ∃ pair second, PackedPair.unpack? space a = some pair ∧
      c55x.decode space (k.learn d.update) t = .ok second ∧
      second.insn.half? = some (.tail a) ∧
      ReadsField space k.context a pair.head (PackedPair.headField w.toNat) d.insn ∧
      ReadsField space k.context t pair.tail (PackedPair.tailField w.toNat) second.insn := by
  obtain ⟨first, pair, head, tail, -, -, -, hh, rfl, rfl⟩ :=
    (decode_eq_ok_iff.mp h).exists_halves ht
  have hrecord : (k.learn (some (.record head.limit head.length))).pairs.headLength? head.limit =
      some head.length := by
    simp only [Knowledge.learn, PairLedger.apply, PairLedger.headLength?_record, if_true]
  obtain ⟨tail', htail, hsecond⟩ := hh.exists_decode_tail (k.context_learn _) hrecord
  rw [k.context_learn] at htail
  have hfields : PackedPair.withMemoryFields? space a w.toNat = some pair := by
    have hunpacked := hh.unpacked
    rw [PackedPair.unpack?, hw] at hunpacked
    simp only [if_pos hmemory] at hunpacked
    exact hunpacked
  obtain ⟨hheadByte, htailByte⟩ := PackedPair.second_of_withMemoryFields hfields
  have hhead := readsField_of_matchExactly hh.matchedHead (Nat.mod_lt _ (by decide)) hheadByte
  have htail' := readsField_of_matchExactly htail (Nat.mod_lt _ (by decide)) htailByte
  exact ⟨pair, _, hh.unpacked, hsecond, rfl, hhead.keepsMemory (.asHead head),
    htail'.keepsMemory (.asTail a tail')⟩

/-- A pair whose first half reads memory in the fifth of the dual memory modes. -/
def steppingPair : AddressSpace := .holding 0 [0x8A, 0x10, 0x90, 0xC0]

/-- Without short offsets the first half steps its pointer, as dual memory does. -/
theorem decode_packedMemory_steppingPair :
    ∃ d, c55x.decode steppingPair {} 0 = .ok d ∧ d.insn.half? = some (.head 2) ∧
      steppingPair.readBigEndian 0 4 = .ok 0x8A1090C0 ∧
      0x80 ≤ PackedPair.tailOpcode (0x8A1090C0 : UInt32).toNat ∧
      PackedPair.headField (0x8A1090C0 : UInt32).toNat = 4 ∧
      (d.insn.operand 0).value = .indirect Register.ar0.id (dualMode 4) ∧
      ∃ pair second, PackedPair.unpack? steppingPair 0 = some pair ∧
        c55x.decode steppingPair (({} : Knowledge).learn d.update) 2 = .ok second ∧
        second.insn.half? = some (.tail 0) ∧
        ReadsField steppingPair {} 0 pair.head
          (PackedPair.headField (0x8A1090C0 : UInt32).toNat) d.insn ∧
        ReadsField steppingPair {} 2 pair.tail
          (PackedPair.tailField (0x8A1090C0 : UInt32).toNat) second.insn := by
  have hfacts : (c55x.decode steppingPair {} 0).toOption.map
      (fun d => (d.insn.half?, (d.insn.operand 0).value)) =
        some (some (.head 2), .indirect Register.ar0.id (dualMode 4)) := by
    decide +kernel
  have hword : steppingPair.readBigEndian 0 4 = .ok 0x8A1090C0 := by rfl
  obtain ⟨d, hd, hresult⟩ := exists_ok_of_toOption hfacts
  obtain ⟨hhalf, hvalue⟩ := Prod.mk.inj hresult
  exact ⟨d, hd, hhalf, hword, by decide, by decide, hvalue,
    decode_packedMemory hd hhalf hword (by decide)⟩

/-- With short offsets it does not: the same pair reads memory at a short offset, and dual memory
still steps its pointer. -/
theorem packedMemory_shortOffset :
    let k : Knowledge := { context := Context.empty.withDefault Register.arms.id 1 }
    ∃ d, c55x.decode steppingPair k 0 = .ok d ∧ d.insn.half? = some (.head 2) ∧
      k.context.get 0 Register.arms.id = some 1 ∧
      d.insn.memorySlot = some 0 ∧
      (d.insn.operand 0).value = .indirect Register.ar0.id (.shortOffset 1) ∧
      PackedPair.headField (0x8A1090C0 : UInt32).toNat = 4 ∧
      dualMode 4 = .postAdd Register.t1.id := by
  intro k
  have hfacts : (c55x.decode steppingPair k 0).toOption.map
      (fun d => (d.insn.half?, d.insn.memorySlot, (d.insn.operand 0).value)) =
        some (some (.head 2), some 0, .indirect Register.ar0.id (.shortOffset 1)) := by
    decide +kernel
  obtain ⟨d, hd, hresult⟩ := exists_ok_of_toOption hfacts
  obtain ⟨hhalf, hresult⟩ := Prod.mk.inj hresult
  obtain ⟨hslot, hvalue⟩ := Prod.mk.inj hresult
  exact ⟨d, hd, hhalf, by decide +kernel, hslot, hvalue, by decide, rfl⟩

end Machine

end DspCode
