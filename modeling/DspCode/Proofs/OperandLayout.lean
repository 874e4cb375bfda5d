import DspCode.Proofs.PackedMemory

/-!
# The layout of operands

Whatever reads an instruction goes through its slots from the front and stops at the first free one,
so a gap would hide the operands behind it. Operands are pushed, put into fixed slots, completed and
replaced by fields, then one is deleted where a status bit is named, and one is replaced by a
qualifier byte. Main statement: the operands of a decoded instruction fill the first slots, its
second line starts between two of them, and the slot noted for the memory operand holds memory.
-/

namespace DspCode

namespace Instruction

/-- The slot noted for the memory operand, if there is one, holds memory. -/
def NotesMemory (insn : Instruction) : Prop :=
  ∀ slot, insn.memorySlot = some slot → (insn.operand slot).isMemory = true

/-- The operands of an instruction lie in their slots as its readers expect. -/
structure WellLaid (insn : Instruction) : Prop where
  /-- No free slot stands before a filled one. -/
  front : ∀ slot later, slot < later → (insn.operand later).isEmpty = false →
    (insn.operand slot).isEmpty = false
  /-- The second line has an operand before it and one in it. -/
  split : ∀ i, insn.split? = some i → 0 < i ∧ i < insn.operandCount
  /-- The memory operand is an operand, and it is memory at an address or at a pointer. -/
  memory : ∀ slot, insn.memorySlot = some slot → slot < insn.operandCount ∧
    ((∃ address high page form, (insn.operand slot).value = .direct address high page form) ∨
      ∃ base mode, (insn.operand slot).value = .indirect base mode)

variable {insn : Instruction}

/-- A change that keeps memory keeps the note of its slot. -/
theorem NotesMemory.of_keepsMemory {i j : Instruction} (h : i.NotesMemory)
    (hkeeps : KeepsMemory i j) : j.NotesMemory := by
  intro slot hslot
  have hmemory := h slot (hkeeps.slot.symm.trans hslot)
  exact (Operand.isMemory_congr (hkeeps.value slot hmemory)).trans hmemory

/-- Filled slots come first. -/
theorem Filled.front {n : Nat} (h : insn.Filled n) {slot later : Nat} (hlt : slot < later)
    (hlater : (insn.operand later).isEmpty = false) : (insn.operand slot).isEmpty = false :=
  h.isEmpty_of_lt (Nat.lt_trans hlt (h.lt_of_isEmpty_eq_false hlater))

end Instruction

/-- Memory operands stay memory when a qualifier byte replaces them. -/
theorem Qualifier.Replaces.isMemory {op op' : Operand} (h : Replaces op op')
    (hop : op.isMemory = true) : op'.isMemory = true := by
  obtain ⟨-, -, ⟨address, high, page, form, hv⟩ | hv⟩ := h.cases
  · rw [Operand.isMemory, hv]
  · exact (Operand.isMemory_congr hv).trans hop

/-- An operand that is memory is at an address or at a pointer. -/
theorem Operand.cases_of_isMemory {op : Operand} (h : op.isMemory = true) :
    (∃ address high page form, op.value = .direct address high page form) ∨
      ∃ base mode, op.value = .indirect base mode := by
  unfold isMemory at h
  split at h
  next address high page form hv => exact Or.inl ⟨address, high, page, form, hv⟩
  next base mode hv => exact Or.inr ⟨base, mode, hv⟩
  next => cases h

namespace Draft

variable {d d' : Draft} {s : Surroundings} {field : Field} {v : Nat}

/-- The slot of a single memory operand is noted when it is added. -/
theorem notesMemory_pushSingleMemory {width : DataWidth} {update : Bool}
    (h : d.pushSingleMemory s v width update = .ok d') : d'.insn.NotesMemory := by
  obtain ⟨hfree, length, number, hinsn⟩ := exists_of_pushSingleMemory h
  intro slot hslot
  rw [hinsn] at hslot
  cases hslot
  have hop := d.insn.operand_setOperand d.insn.operandCount d.insn.operandCount
    ((MemoryAccess.of (d.contextOf s) v width update).operand number)
  rw [if_pos ⟨rfl, hfree⟩] at hop
  rw [hinsn]
  exact (congrArg Operand.isMemory hop).trans (MemoryAccess.isMemory_of _ v width update number)

/-- A field that notes no memory operand and displaces none leaves the noted one. -/
theorem notesMemory_of_frame (h : d.insn.NotesMemory) (hframe : field.Frame d.insn d'.insn)
    (hcontext : field.usesContext = false) (hswap : field ≠ .swapPair) : d'.insn.NotesMemory :=
  h.of_keepsMemory ⟨hframe.memorySlot hcontext, hframe.memory hswap⟩

/-- Every field but an exchange leaves memory in the slot that is noted for it. -/
theorem notesMemory_contribute (h : d.insn.NotesMemory) (hswap : field ≠ .swapPair) :
    Keeps Instruction.NotesMemory (d.contribute s field v) := by
  intro d' hd
  cases field with
  | smem | lmem | pointerUpdate => exact notesMemory_pushSingleMemory hd
  | bitAddress =>
    simp only [contribute] at hd
    split at hd
    · have hcontinues := continues_push hd
      exact h.of_keepsMemory ⟨hcontinues.memorySlot, hcontinues.memory⟩
    · exact notesMemory_pushSingleMemory hd
  | _ => exact notesMemory_of_frame h (frame_contribute hd) rfl hswap

end Draft

namespace Encoding

/-- Whether a row has no exchange, or no memory operand that one could displace. -/
def exchangesApart (e : Encoding) : Bool :=
  e.fields.all (·.field != .swapPair) || e.fields.all (!·.field.usesContext)

/-- All rows of the table pass this check. -/
theorem table_exchangesApart : table.all exchangesApart = true := by decide +kernel

end Encoding

namespace Machine

/-- The note of the memory slot lasts while an instruction is finished. -/
theorem lasting_notesMemory : Lasting Instruction.NotesMemory where
  marks _ h := h
  length h := h
  qualified {insn slot op'} hr h other hother := by
    rw [Instruction.operand_setOperand]
    split
    next hc =>
      rw [hc.1] at hr
      exact hr.isMemory (h other hother)
    next => exact h other hother
  withHalf _ h := h
  withRoles {insn} usage h slot hslot := by
    rw [Instruction.operand_withRoles]
    split
    · exact h slot hslot
    · exact h slot hslot

/-- A matched instruction notes the slot of its memory operand. -/
theorem Matched.notesMemory {context : Context} {next : NextAddress} {w : ByteWindow}
    {row : Encoding} {word : Nat} {insn : Instruction}
    (h : Matched context next w row word insn) : insn.NotesMemory := by
  have hnone : (draftAt w.base row).insn.memorySlot = none := rfl
  have hrow := List.all_eq_true.mp Encoding.table_exchangesApart row h.mem
  rw [Encoding.exchangesApart, Bool.or_eq_true, List.all_eq_true, List.all_eq_true] at hrow
  rcases hrow with hswap | hcontext
  · refine Draft.of_contributeAll (fun use huse d hd => ?_) ?_ h.contributed
    · exact Draft.notesMemory_contribute hd (bne_iff_ne.mp (hswap use huse))
    · intro slot hslot
      cases hnone.symm.trans hslot
  · -- without a memory operand nothing is noted, whatever is exchanged
    have hlast : insn.memorySlot = none := by
      refine Draft.of_contributeAll (P := (·.memorySlot = none)) (fun use huse d hd d' hd' => ?_)
        hnone h.contributed
      have huses : use.field.usesContext = false := by simpa using hcontext use huse
      exact ((Draft.frame_contribute hd').memorySlot huses).trans hd
    intro slot hslot
    cases hlast.symm.trans hslot

/-- The operands of a decoded instruction fill the first slots, its second line starts between two
of them, and the slot noted for the memory operand holds memory, after its status bit was named and
its qualifier byte was taken in. -/
theorem wellLaid_of_decode {space : AddressSpace} {k : Knowledge} {a : Address} {d : Decoded}
    (h : c55x.decode space k a = .ok d) : d.insn.WellLaid := by
  obtain ⟨o, ⟨m, hfits⟩, hshape⟩ := exists_shape_of_decode h
  have hnotes : d.insn.NotesMemory :=
    lasting_notesMemory.decode (fun hm => hm.notesMemory.of_keepsMemory (.nameBit _)) h
  have hcount := hshape.filled.operandCount
  refine ⟨fun slot later => hshape.filled.front, fun i hi => ?_, fun slot hslot => ?_⟩
  · have hlined := hfits.lined
    rw [Outline.isLined, ← hshape.split, hi] at hlined
    simp only [Option.all_some, Bool.and_eq_true, decide_eq_true_eq] at hlined
    rw [hcount]
    exact hlined.2
  · have hmemory := hnotes slot hslot
    rw [hcount]
    exact ⟨hshape.filled.lt_of_isEmpty_eq_false (Operand.isEmpty_of_isMemory hmemory),
      Operand.cases_of_isMemory hmemory⟩

/-- A move and an address addition in two lines, followed by the qualifier of mapped registers. -/
def qualifiedTwoLines : AddressSpace := .holding 0 [0x8A, 0x5E, 0x01, 0x10, 0x20, 0x98]

/-- The setting of a status bit that has a name. -/
def namedBitSet : AddressSpace := .holding 0 [0x46, 0xE3]

/-- A qualified memory operand before the second line, and the one operand left of two. -/
theorem wellLaid_of_decode_qualifiedTwoLines :
    (∃ d, c55x.decode qualifiedTwoLines {} 0 = .ok d ∧
      (d.insn.length, d.insn.operandCount, d.insn.split?, d.insn.memorySlot) =
        (6, 4, some 2, some 0) ∧ d.insn.WellLaid) ∧
    ∃ d, c55x.decode namedBitSet {} 0 = .ok d ∧
      (d.insn.kind, d.insn.operandCount) = (Form.bset1.kind, 1) ∧ d.insn.WellLaid := by
  have hlines : (c55x.decode qualifiedTwoLines {} 0).toOption.map (fun d =>
      (d.insn.length, d.insn.operandCount, d.insn.split?, d.insn.memorySlot)) =
        some (6, 4, some 2, some 0) := by
    decide +kernel
  have hnamed : (c55x.decode namedBitSet {} 0).toOption.map (fun d =>
      (d.insn.kind, d.insn.operandCount)) = some (Form.bset1.kind, 1) := by
    decide +kernel
  obtain ⟨d, hd, hfacts⟩ := exists_ok_of_toOption hlines
  obtain ⟨d', hd', hfacts'⟩ := exists_ok_of_toOption hnamed
  exact ⟨⟨d, hd, hfacts, wellLaid_of_decode hd⟩, d', hd', hfacts', wellLaid_of_decode hd'⟩

end Machine

end DspCode
