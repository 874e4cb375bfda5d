import DspCode.Proofs.Shapes

/-!
# Legible operands

Operands hold the numbers of registers and the codes of conditions, and not every number names
something. An operand is legible if all that it holds does. The fields of the table never count past
the last register and accept no unknown condition, and nothing done to an instruction later changes
that. Main statement: all operands of decoded instructions are legible.
-/

namespace DspCode

/-- Whether a number is that of a register. -/
def isRegister (id : RegisterId) : Bool := id < Register.all.size

@[simp] theorem isRegister_id (r : Register) : isRegister r.id = true := by
  cases r <;> decide +kernel

/-- Whether all numbers in a pointer mode are those of registers. -/
def PointerMode.isLegible : PointerMode → Bool
  | .postAdd id | .postSubtract id | .indexed id => isRegister id
  | _ => true

/-- Whether a shift is by a constant or by a register. -/
def Shift.isLegible (s : Shift) : Bool :=
  match s.amount with
  | .register id => isRegister id
  | .constant _ => true

/-- Whether the shift after an operand is legible, if there is one. -/
def Suffix.isLegible : Suffix → Bool
  | .shift s _ => s.isLegible
  | _ => true

/-- Whether the right side of a comparison is a constant or a register. -/
def Comparand.isLegible : Comparand → Bool
  | .register id => isRegister id
  | .constant _ => true

/-- Whether a condition is in the condition code table: eight codes test a register, six a flag and
the others both test control flags. -/
def isCondition (code : UInt8) : Option RegisterId → Bool
  | some id =>
    isRegister id && [0x00, 0x10, 0x20, 0x30, 0x40, 0x50, 0x60, 0x70].contains code
  | none =>
    [0x64, 0x65, 0x66, 0x74, 0x75, 0x76, 0x68, 0x69, 0x6A, 0x6B, 0x78, 0x79, 0x7A, 0x7B, 0x7C, 0x7D,
      0x7E, 0x7F].contains code

/-- Whether all that a value holds names something. Register sets and bare text are left out: no
field gives them. -/
def OperandValue.isLegible : OperandValue → Bool
  | .register id => isRegister id
  | .indirect base mode => isRegister base && mode.isLegible
  | .condition code tested => isCondition code tested
  | .shift s => s.isLegible
  | .comparison id _ right => isRegister id && right.isLegible
  | .registers _ | .text _ => false
  | .empty | .immediate _ _ _ | .direct _ _ _ _ | .target _ _ => true

/-- Whether an operand and the text after it can be printed. -/
def Operand.isLegible (op : Operand) : Bool := op.value.isLegible && op.suffix.all (·.isLegible)

/-- All operands can be printed. -/
def Instruction.Legible (insn : Instruction) : Prop := ∀ slot, (insn.operand slot).isLegible = true

namespace Instruction

variable {insn : Instruction}

/-- A legible operand may be put into any slot. -/
theorem Legible.setOperand (h : insn.Legible) (slot : Nat) {op : Operand}
    (hop : op.isLegible = true) : (insn.setOperand slot op).Legible := by
  intro other
  rw [operand_setOperand]
  split
  · exact hop
  · exact h other

/-- Naming a status bit puts a flag in the place of a bit number. -/
theorem Legible.nameBit (h : insn.Legible) : (StatusBit.nameBit insn).Legible := by
  unfold StatusBit.nameBit
  split
  · split
    next flag _ =>
      refine Legible.setOperand (Legible.setOperand h 0 ?_) 1 rfl
      simp [Operand.isLegible, Operand.of, OperandValue.isLegible, isRegister_id]
    next => exact h
  · exact h

end Instruction

/-- Memory operands are replaced by legible ones. -/
theorem Qualifier.Replaces.isLegible {op op' : Operand} (h : Replaces op op')
    (hop : op.isLegible = true) : op'.isLegible = true := by
  rw [Operand.isLegible, Bool.and_eq_true] at hop ⊢
  obtain ⟨-, hsuffix, ⟨address, high, page, form, hv⟩ | hv⟩ := h.cases
  · rw [hv, hsuffix]
    exact ⟨rfl, hop.2⟩
  · rw [hv, hsuffix]
    exact hop

namespace Machine

/-- A legible instruction stays legible while it is finished. -/
theorem lasting_legible : Lasting Instruction.Legible where
  marks _ h := h
  length h := h
  qualified hr h := h.setOperand _ (hr.isLegible (h _))
  withHalf _ h := h
  withRoles {insn} usage h slot := by
    rw [Instruction.operand_withRoles]
    split
    · exact h slot
    · exact h slot

end Machine

/-- No selector takes more than the largest value. -/
theorem BitSelector.select_le (selector : BitSelector) (word : Nat) :
    selector.select word ≤ selector.largest := by
  cases selector with
  | bits mask => exact Nat.div_le_div_right Nat.and_le_right
  | constant value => exact Nat.le_refl value
  | inverted mask =>
    simp only [select, largest]
    split <;> omega

namespace Field

variable {field : Field} {v w : Nat}

/-- A field that reaches registers with a value does so with every smaller one. -/
theorem reaches_mono (h : field.reaches w = true) (hle : v ≤ w) : field.reaches v = true := by
  unfold reaches at h ⊢
  cases hf : field.family? with
  | none => rfl
  | some p =>
    rw [hf] at h
    simp only [Option.all_some, decide_eq_true_eq] at h ⊢
    have := Nat.div_le_div_right (c := p.2) hle
    omega

/-- A field that counts from a register comes to a register. -/
theorem isRegister_of_reaches {r : Register} {n : Nat} (hf : field.family? = some (r, n))
    (h : field.reaches v = true) : isRegister (r.offset (v / n)) = true := by
  simp only [reaches, hf, Option.all_some, decide_eq_true_eq] at h
  rw [isRegister, decide_eq_true_eq, Register.offset]
  exact Nat.lt_of_le_of_lt (Nat.add_le_add_left (Nat.mod_le _ _) _) h

end Field

/-- The conditions that selectors name are in the table. -/
theorem isLegible_conditionOperand? {selector : Nat} {value : OperandValue}
    (h : conditionOperand? selector = some value) : value.isLegible = true := by
  have hsmall : ((List.range 128).all fun selector =>
      (conditionOperand? selector).all (·.isLegible)) = true := by decide +kernel
  by_cases hlt : selector < 128
  · have := List.all_eq_true.mp hsmall selector (List.mem_range.mpr hlt)
    rwa [h] at this
  · -- there is no condition behind the last group
    simp only [conditionOperand?] at h
    repeat rw [if_neg (by omega)] at h
    cases h

section Memory

variable {base : RegisterId} (hbase : isRegister base = true) (selector : Nat) (width : DataWidth)
  (number : Nat)

/-- An access by a pointer is legible if the pointer is a register and the mode is legible. -/
theorem isLegible_indirectOperand {mode : PointerMode} (hbase : isRegister base = true)
    (hmode : mode.isLegible = true) (width : DataWidth) :
    (indirectOperand base mode width).isLegible = true := by
  simp [indirectOperand, Operand.of, Operand.isLegible, OperandValue.isLegible, hbase, hmode]

private theorem isLegible_dualMode : (dualMode selector).isLegible = true := by
  unfold dualMode
  split <;> simp [PointerMode.isLegible]

private theorem isLegible_pointerMode (short : Bool) :
    (Draft.pointerMode short selector).isLegible = true := by
  unfold Draft.pointerMode
  split
  · rfl
  · split <;> simp [PointerMode.isLegible]

include hbase in
/-- An access by one of the pointers that a memory byte selects is legible. -/
theorem isLegible_pointer :
    ((MemoryAccess.pointer base selector width).operand number).isLegible = true := by
  unfold MemoryAccess.pointer
  split <;> exact isLegible_indirectOperand hbase (by simp [PointerMode.isLegible]) width

/-- An absolute address and the coefficient pointer are legible. -/
theorem isLegible_absoluteOrCoefficient :
    ((MemoryAccess.absoluteOrCoefficient selector width).operand number).isLegible = true := by
  unfold MemoryAccess.absoluteOrCoefficient
  -- the first three are addresses, the others go through the coefficient pointer
  split
  · rfl
  · rfl
  · rfl
  all_goals exact isLegible_indirectOperand (isRegister_id _) rfl width

end Memory

/-- A single memory operand is legible if the pointer it names is a register. -/
theorem isLegible_memoryAccess {v : Nat}
    (hbase : isRegister (Register.ar0.offset (v / 32)) = true)
    (context : Register → Option UInt32) (width : DataWidth) (update : Bool) (number : Nat) :
    ((MemoryAccess.of context v width update).operand number).isLegible = true := by
  unfold MemoryAccess.of
  split
  · simp only [MemoryAccess.fixed, MemoryAccess.pageOrStack]
    split
    · rfl
    · exact isLegible_indirectOperand (isRegister_id _) rfl width
  · split
    · exact isLegible_absoluteOrCoefficient _ width number
    · simp only
      split
      · exact isLegible_pointer hbase _ width number
      · exact isLegible_indirectOperand hbase (isLegible_pointerMode _ _) width

namespace Draft

variable {d : Draft} {s : Surroundings} {field : Field} {v : Nat}

/-- An instruction stays legible while legible operands are added. -/
theorem stable_legible : Stable Instruction.Legible (·.isLegible = true) where
  setOperand slot hop h := h.setOperand slot hop
  kind _ h := h
  length h := h
  memorySlot _ h := h
  withSplit _ h := h
  marks _ h := h

private theorem isLegible_ofRegister {id : RegisterId} (h : isRegister id = true) :
    (Operand.ofRegister id).isLegible = true := by
  simp [Operand.ofRegister, Operand.of, Operand.isLegible, OperandValue.isLegible, h]

private theorem isLegible_signedShift (places : Int) : (signedShift places).isLegible = true := by
  unfold signedShift
  split <;> rfl

/-- Text after the last operand leaves the operands legible if it is so itself. -/
theorem legible_withSuffix (h : d.insn.Legible) {suffix : Suffix}
    (hsuffix : suffix.isLegible = true) : (d.withSuffix suffix).insn.Legible := by
  refine stable_legible.modifyLast h fun slot => ?_
  have := h slot
  simp_all [Operand.isLegible]

private theorem legible_withRelation (h : d.insn.Legible) (relation : Relation) :
    (d.withRelation relation).insn.Legible := by
  refine stable_legible.modifyLast h fun slot => ?_
  have := h slot
  split
  · simp_all [Operand.isLegible, OperandValue.isLegible, Comparand.isLegible]
  · exact this

private theorem legible_withComparand (h : d.insn.Legible) {right : Comparand}
    (hright : right.isLegible = true) : (d.withComparand right).insn.Legible := by
  refine stable_legible.modifyLast h fun slot => ?_
  have := h slot
  split
  · simp_all [Operand.isLegible, OperandValue.isLegible]
  · exact this

/-- A field that comes to registers only leaves the operands legible. -/
theorem legible_contribute (h : d.insn.Legible) (hv : field.reaches v = true) :
    Keeps Instruction.Legible (d.contribute s field v) := by
  have hregister : ∀ r : Register, field.family? = some (r, 1) →
      isRegister (r.offset v) = true := fun r hf =>
    Nat.div_one v ▸ Field.isRegister_of_reaches hf hv
  have hcounted : ∀ {r : Register}, field.family? = some (r, 1) →
      (Operand.ofRegister (r.offset v)).isLegible = true := fun hf =>
    isLegible_ofRegister (hregister _ hf)
  have hmemory : ∀ {width : DataWidth} {update : Bool}, field.family? = some (.ar0, 32) →
      Keeps Instruction.Legible (d.pushSingleMemory s v width update) := fun hf =>
    stable_legible.pushSingleMemory h
      (isLegible_memoryAccess (Field.isRegister_of_reaches hf hv) _ _ _)
  cases field with
  | unsignedByte | unsignedWord | signedByte | signedWord | negatedByte | one | minusOne
  | dataAddress | forward | relative => exact stable_legible.push h rfl
  | shiftAmount =>
    refine stable_legible.push h ?_
    simp [Operand.isLegible, Operand.of, OperandValue.isLegible, isLegible_signedShift]
  | source => exact stable_legible.pushCompared h (hcounted rfl)
  | optionalSource => exact stable_legible.pushOptional h (hcounted rfl)
  | temporary | testControl | transition | status => exact stable_legible.push h (hcounted rfl)
  | extended | carryOrTest | fixed =>
    exact stable_legible.push h (isLegible_ofRegister (isRegister_id _))
  | xmem =>
    exact stable_legible.push h (isLegible_indirectOperand
      (Field.isRegister_of_reaches rfl hv) (isLegible_dualMode v) _)
  | cmem =>
    exact stable_legible.push h
      (isLegible_indirectOperand (isRegister_id _) (isLegible_dualMode _) _)
  | smem | lmem | pointerUpdate => exact hmemory rfl
  | bitAddress =>
    simp only [contribute]
    split
    · exact stable_legible.push h rfl
    · exact hmemory rfl
  | wrap operators =>
    intro d' hd
    simp only [contribute] at hd
    split at hd
    · cases hd
      exact stable_legible.modifyLast h h
    · cases hd
      exact h
  | shiftSigned | shiftSignedOutside | shiftLeft =>
    intro d' hd
    cases hd
    exact legible_withSuffix h (isLegible_signedShift _)
  | shiftLeft16 =>
    intro d' hd
    cases hd
    exact legible_withSuffix h (isLegible_signedShift 16)
  | shiftRight | equalsWord | notZero =>
    intro d' hd
    cases hd
    exact legible_withSuffix h rfl
  | shiftByTemporary =>
    intro d' hd
    cases hd
    exact legible_withSuffix h (hregister .t0 rfl)
  | shiftByT2 =>
    intro d' hd
    cases hd
    exact legible_withSuffix h (isRegister_id .t2)
  | relation =>
    intro d' hd
    cases hd
    exact legible_withRelation h _
  | relationByte =>
    intro d' hd
    cases hd
    exact legible_withComparand h rfl
  | relationRegister =>
    intro d' hd
    cases hd
    have hright : (Comparand.register (Register.ac0.offset v)).isLegible = true :=
      hregister .ac0 rfl
    have hwith := legible_withComparand h hright
    unfold compareWithLast
    split <;> exact hwith
  | rename request =>
    simp only [contribute]
    split
    · exact stable_legible.rename h _ _
    · intro d' hd
      cases hd
      exact h
  | parallelMark =>
    intro d' hd
    cases hd
    exact h
  | split =>
    intro d' hd
    cases hd
    exact h
  | swapPair => exact stable_legible.pushSwap h (fun r => isLegible_ofRegister (isRegister_id r)) v
  | condition =>
    refine stable_legible.pushCondition h fun value hvalue => ?_
    simp [Operand.isLegible, Operand.of, isLegible_conditionOperand? hvalue]
  | absoluteTarget => exact stable_legible.trailing h fun r hr => stable_legible.push hr rfl

end Draft

namespace Machine

/-- Every matched instruction is legible. -/
theorem Matched.legible {context : Context} {next : NextAddress} {w : ByteWindow} {row : Encoding}
    {word : Nat} {insn : Instruction} (h : Matched context next w row word insn) :
    insn.Legible := by
  refine Draft.of_contributeAll (fun use huse d hd => ?_) ?_ h.contributed
  · exact Draft.legible_contribute hd
      (Field.reaches_mono (Encoding.reaches_of_mem h.mem huse) (use.selector.select_le word))
  · intro slot
    rw [operand_draftAt]
    rfl

/-- All operands of a decoded instruction can be printed. -/
theorem legible_of_decode {space : AddressSpace} {k : Knowledge} {a : Address} {d : Decoded}
    (h : c55x.decode space k a = .ok d) : d.insn.Legible :=
  lasting_legible.decode (fun hm => hm.legible.nameBit) h

end Machine

end DspCode
