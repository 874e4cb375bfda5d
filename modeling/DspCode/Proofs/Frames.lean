import DspCode.Proofs.Modes

/-!
# What the fields of an encoding leave alone

Most fields add an operand or complete the last one, and leave everything else as it is. A few do
more: they change the kind, mark the instruction, note the memory operand, or put the operands of an
exchange in place. No field changes the value of a memory operand that is there already, an
exchange apart.
-/

namespace DspCode

/-- Whether a field may change the kind of an instruction. -/
def Field.renames : Field → Bool
  | .optionalSource | .rename _ | .swapPair | .condition => true
  | _ => false

/-- Whether an operand is memory is a matter of its value. -/
theorem Operand.isMemory_congr {op op' : Operand} (h : op'.value = op.value) :
    op'.isMemory = op.isMemory := by
  rw [isMemory, isMemory, h]

namespace Instruction

/-- The first slot after the filled ones is free. -/
theorem isEmpty_operand_operandCount (insn : Instruction) :
    (insn.operand insn.operandCount).isEmpty = true := by
  have hfirst : ∀ l : List Operand, ∀ op,
      l[(l.takeWhile (!·.isEmpty)).length]? = some op → op.isEmpty = true := by
    intro l
    induction l with
    | nil =>
      intro op hop
      cases hop
    | cons x rest ih =>
      intro op hop
      cases hx : x.isEmpty with
      | true =>
        simp only [List.takeWhile_cons, hx, Bool.not_true, Bool.false_eq_true, if_false,
          List.length_nil, List.getElem?_cons_zero, Option.some.injEq] at hop
        rw [← hop, hx]
      | false =>
        simp only [List.takeWhile_cons, hx, Bool.not_false, if_true, List.length_cons,
          List.getElem?_cons_succ] at hop
        exact ih op hop
  unfold operand
  cases hop : insn.operands[insn.operandCount]? with
  | none => rfl
  | some op => exact hfirst insn.operands.toList op (by rw [Vector.getElem?_toList]; exact hop)

/-- What adding and completing operands leaves as it is. -/
structure Continues (i j : Instruction) : Prop where
  address : j.address = i.address
  kind : j.kind = i.kind
  marks : j.marks = i.marks
  memorySlot : j.memorySlot = i.memorySlot
  /-- A memory operand keeps its value. -/
  memory : ∀ slot, (i.operand slot).isMemory = true →
    (j.operand slot).value = (i.operand slot).value

namespace Continues

variable {i j : Instruction}

/-- Every instruction continues itself. -/
theorem refl (i : Instruction) : Continues i i := ⟨rfl, rfl, rfl, rfl, fun _ _ => rfl⟩

/-- An operand may be put into a slot if memory there keeps its value. -/
theorem setOperand {slot : Nat} {op : Operand}
    (h : (i.operand slot).isMemory = true → op.value = (i.operand slot).value) :
    Continues i (i.setOperand slot op) := by
  refine ⟨rfl, rfl, rfl, rfl, fun other hother => ?_⟩
  rw [operand_setOperand]
  split
  next hc =>
    rw [hc.1] at h
    exact h hother
  next => rfl

/-- A free slot holds no memory operand. -/
theorem setOperand_operandCount (i : Instruction) (op : Operand) :
    Continues i (i.setOperand i.operandCount op) := by
  refine setOperand fun hmemory => ?_
  have hempty := i.isEmpty_operand_operandCount
  rw [Operand.isEmpty_of_isMemory hmemory] at hempty
  cases hempty

end Continues

end Instruction

/-- What a field leaves as it is, from one draft to the next. -/
structure Field.Frame (field : Field) (i j : Instruction) : Prop where
  address : j.address = i.address
  kind : field.renames = false → j.kind = i.kind
  marks : field ≠ .parallelMark → j.marks = i.marks
  memorySlot : field.usesContext = false → j.memorySlot = i.memorySlot
  /-- A memory operand keeps its value. -/
  memory : field ≠ .swapPair → ∀ slot, (i.operand slot).isMemory = true →
    (j.operand slot).value = (i.operand slot).value

/-- Adding and completing operands is within what every field may change. -/
theorem Instruction.Continues.frame {i j : Instruction} (h : Continues i j) (field : Field) :
    field.Frame i j :=
  ⟨h.address, fun _ => h.kind, fun _ => h.marks, fun _ => h.memorySlot, fun _ => h.memory⟩

namespace Draft

open Instruction (Continues)

variable {d d' : Draft} {s : Surroundings} {op : Operand}

/-- Adding an operand leaves the others as they are. -/
theorem continues_push (h : d.push op = .ok d') : Continues d.insn d'.insn := by
  simp only [push] at h
  split at h
  · cases h
    exact .setOperand_operandCount d.insn op
  · cases h

/-- Adding an operand to compare with leaves the others as they are. -/
theorem continues_pushCompared (h : d.pushCompared op = .ok d') : Continues d.insn d'.insn := by
  cases hp : d.push op with
  | error e => rw [pushCompared, hp] at h; cases h
  | ok e =>
    rw [pushCompared, hp] at h
    cases h
    have hcontinues : Continues d.insn e.insn := continues_push hp
    exact hcontinues

/-- Changing the last operand leaves the others as they are, and memory its value. -/
theorem continues_modifyLast (d : Draft) {f : Operand → Operand}
    (hf : ∀ op, op.isMemory = true → (f op).value = op.value) :
    Continues d.insn (d.modifyLast f).insn := by
  unfold modifyLast
  split
  · exact .refl _
  · exact .setOperand (hf _)

/-- Completing a register or a comparison leaves memory operands alone. -/
theorem continues_withRelation (d : Draft) (relation : Relation) :
    Continues d.insn (d.withRelation relation).insn := by
  refine continues_modifyLast d fun op hop => ?_
  split
  next id hv => simp [Operand.isMemory, hv] at hop
  next => rfl

private theorem continues_withComparand (d : Draft) (right : Comparand) :
    Continues d.insn (d.withComparand right).insn := by
  refine continues_modifyLast d fun op hop => ?_
  split
  next id relation _ hv => simp [Operand.isMemory, hv] at hop
  next => rfl

section Special

open DspCode.Field (Frame)

variable {field : Field}

/-- Another kind is of no matter to a field that may rename. -/
theorem frame_withKind {i j : Instruction} (h : Continues i j) (hf : field.renames = true)
    (kind : Kind) : field.Frame i { j with kind } where
  address := h.address
  kind hno := by rw [hf] at hno; cases hno
  marks _ := h.marks
  memorySlot _ := h.memorySlot
  memory _ := h.memory

/-- An optional operand is left out, or kept under the next kind. -/
theorem pushOptional_cases (h : d.pushOptional op = .ok d') :
    d' = d ∨ ∃ e, d.push op = .ok e ∧
      d' = { insn := { e.insn with kind := e.insn.kind + 1 }, compared := none } := by
  unfold pushOptional at h
  split at h
  · cases h
    exact Or.inl rfl
  · cases hp : d.push op with
    | error e => rw [hp] at h; cases h
    | ok e =>
      rw [hp] at h
      cases h
      exact Or.inr ⟨e, rfl, rfl⟩

/-- A renaming changes the kind alone. -/
theorem exists_of_rename {mnemonics : Array Mnemonic} {r : Renaming}
    (h : d.rename mnemonics r = .ok d') :
    ∃ kind, r.apply mnemonics d.insn.kind = .ok kind ∧ d' = d.withKind kind := by
  unfold rename at h
  split at h
  next kind hkind =>
    cases h
    exact ⟨kind, hkind, rfl⟩
  next => cases h

/-- A condition leaves the null kind or adds an operand. -/
theorem pushCondition_cases {selector : Nat} (h : d.pushCondition selector = .ok d') :
    d' = d.withKind 0 ∨ Continues d.insn d'.insn := by
  unfold pushCondition at h
  split at h
  · cases h
    exact Or.inl rfl
  · split at h
    · exact Or.inr (continues_pushCompared h)
    · exact Or.inr (continues_push h)

private theorem eq_of_put {slot : Nat} (h : d.put slot op = .ok d') :
    d' = { d with insn := d.insn.setOperand slot op } := by
  unfold put at h
  split at h <;> cases h
  rfl

/-- An exchange leaves the null kind, or puts its registers in place after the renaming that it
asks for. -/
theorem pushSwap_cases {selector : Nat} (h : d.pushSwap s selector = .ok d') :
    d' = d.withKind 0 ∨ ∃ a b request e, swapOperands? selector = some (a, b, request) ∧
      (request = none ∧ e = d ∨
        ∃ r, request = some r ∧ d.rename s.mnemonics r.renaming = .ok e) ∧
      d'.insn = (e.insn.setOperand 0 (.ofRegister a.id)).setOperand 1 (.ofRegister b.id) := by
  have hput : ∀ {e : Draft} {x y : Operand}, e.put 0 x >>= (fun e => e.put 1 y) = .ok d' →
      d'.insn = (e.insn.setOperand 0 x).setOperand 1 y := by
    intro e x y h
    cases h₀ : e.put 0 x with
    | error _ => rw [h₀] at h; cases h
    | ok e' =>
      rw [h₀] at h
      have h₁ : e'.put 1 y = .ok d' := h
      rw [eq_of_put h₁, eq_of_put h₀]
  unfold pushSwap at h
  split at h
  next =>
    cases h
    exact Or.inl rfl
  next a b request hswap =>
    refine Or.inr ⟨a, b, request, ?_⟩
    cases request with
    | none => exact ⟨d, hswap, Or.inl ⟨rfl, rfl⟩, hput h⟩
    | some r =>
      cases hr : d.rename s.mnemonics r.renaming with
      | error e => simp only [hr] at h; cases h
      | ok e =>
        simp only [hr] at h
        exact ⟨e, hswap, Or.inr ⟨r, rfl, hr⟩, hput h⟩

private theorem frame_pushOptional (h : d.pushOptional op = .ok d') :
    Field.optionalSource.Frame d.insn d'.insn := by
  obtain rfl | ⟨e, hp, rfl⟩ := pushOptional_cases h
  · exact (Continues.refl _).frame _
  · exact frame_withKind (continues_push hp) rfl _

/-- A renaming is within what a field that renames may change. -/
theorem frame_rename {mnemonics : Array Mnemonic} {r : Renaming}
    (h : d.rename mnemonics r = .ok d') (hf : field.renames = true) :
    field.Frame d.insn d'.insn := by
  obtain ⟨kind, -, rfl⟩ := exists_of_rename h
  exact frame_withKind (.refl _) hf kind

private theorem frame_pushCondition {selector : Nat} (h : d.pushCondition selector = .ok d') :
    Field.condition.Frame d.insn d'.insn := by
  obtain rfl | hcontinues := pushCondition_cases h
  · exact frame_withKind (.refl _) rfl 0
  · exact hcontinues.frame _

/-- An exchange leaves all alone but the kind and the operands. -/
theorem frame_pushSwap {selector : Nat} (h : d.pushSwap s selector = .ok d') :
    Field.swapPair.Frame d.insn d'.insn := by
  obtain rfl | ⟨a, b, request, e, -, hrenamed, hinsn⟩ := pushSwap_cases h
  · exact frame_withKind (.refl _) rfl 0
  have hframe : Field.swapPair.Frame d.insn e.insn := by
    obtain ⟨-, rfl⟩ | ⟨r, -, hr⟩ := hrenamed
    · exact (Continues.refl _).frame _
    · exact frame_rename hr rfl
  rw [hinsn]
  exact {
    address := hframe.address
    kind := fun hno => by cases hno
    marks := hframe.marks
    memorySlot := hframe.memorySlot
    memory := fun hno => absurd rfl hno }

/-- Reading bytes lengthens the draft only. -/
theorem exists_of_trailing {count : Nat} {r : Nat × Draft} (h : d.trailing s count = .ok r) :
    r.2 = { d with insn := { d.insn with length := d.insn.length + count } } := by
  obtain ⟨v, hv⟩ | ⟨i, -, -, w, -, he⟩ := d.readMore_cases s 0 count
  · cases hv.symm.trans h
    rfl
  · cases he.symm.trans h

private theorem eq_of_pushMemory (h : d.pushMemory op = .ok d') :
    d.insn.operandCount < 6 ∧ d'.insn =
      { d.insn.setOperand d.insn.operandCount op with memorySlot := some d.insn.operandCount } := by
  simp only [pushMemory, push] at h
  split at h
  next hfree =>
    cases h
    exact ⟨hfree, rfl⟩
  next => cases h

/-- A single memory operand goes into the first free slot and is noted there. -/
theorem exists_of_pushSingleMemory {v : Nat} {width : DataWidth} {update : Bool}
    (h : d.pushSingleMemory s v width update = .ok d') :
    d.insn.operandCount < 6 ∧ ∃ length number, d'.insn =
      { d.insn.setOperand d.insn.operandCount
          ((MemoryAccess.of (d.contextOf s) v width update).operand number) with
        length, memorySlot := some d.insn.operandCount } := by
  rw [MemoryAccess.pushSingleMemory_eq, MemoryAccess.push] at h
  cases hr : d.trailing s (MemoryAccess.of (d.contextOf s) v width update).count with
  | error e => rw [hr] at h; cases h
  | ok r =>
    rw [hr] at h
    obtain ⟨hfree, hinsn⟩ := eq_of_pushMemory (show r.2.pushMemory _ = .ok d' from h)
    rw [exists_of_trailing hr] at hfree hinsn
    exact ⟨hfree, _, r.1, hinsn⟩

/-- A memory operand is within what a field that depends on the context may change. -/
theorem frame_pushSingleMemory {v : Nat} {width : DataWidth} {update : Bool}
    (h : d.pushSingleMemory s v width update = .ok d') (hf : field.usesContext = true) :
    field.Frame d.insn d'.insn := by
  obtain ⟨-, length, number, hinsn⟩ := exists_of_pushSingleMemory h
  rw [hinsn]
  exact {
    address := rfl
    kind := fun _ => rfl
    marks := fun _ => rfl
    memorySlot := fun hno => absurd hf (by rw [hno]; decide)
    memory := fun _ => (Continues.setOperand_operandCount d.insn _).memory }

end Special

/-- Every field leaves alone what its frame says. -/
theorem frame_contribute {field : Field} {v : Nat} (h : d.contribute s field v = .ok d') :
    field.Frame d.insn d'.insn := by
  cases field with
  | unsignedByte | unsignedWord | signedByte | signedWord | negatedByte | one | minusOne
  | temporary | testControl | transition | status | extended | carryOrTest | fixed | xmem | cmem
  | dataAddress | shiftAmount | forward | relative => exact (continues_push h).frame _
  | source => exact (continues_pushCompared h).frame _
  | optionalSource => exact frame_pushOptional h
  | smem | lmem | pointerUpdate => exact frame_pushSingleMemory h rfl
  | bitAddress =>
    simp only [contribute] at h
    split at h
    · exact (continues_push h).frame _
    · exact frame_pushSingleMemory h rfl
  | wrap operators =>
    simp only [contribute] at h
    split at h
    · cases h
      refine Continues.frame ?_ _
      exact continues_modifyLast d fun _ _ => rfl
    · cases h
      exact (Continues.refl _).frame _
  | shiftSigned | shiftSignedOutside | shiftLeft | shiftByTemporary | shiftByT2 | shiftLeft16
  | shiftRight | equalsWord | notZero =>
    cases h
    refine Continues.frame ?_ _
    exact continues_modifyLast d fun _ _ => rfl
  | relation =>
    cases h
    exact (continues_withRelation d _).frame _
  | relationByte =>
    cases h
    exact (continues_withComparand d _).frame _
  | relationRegister =>
    cases h
    have hcontinues := continues_withComparand d (.register (Register.ac0.offset v))
    unfold compareWithLast
    split
    · exact hcontinues.frame _
    · exact hcontinues.frame _
  | rename request =>
    simp only [contribute] at h
    split at h
    · exact frame_rename h rfl
    · cases h
      exact (Continues.refl _).frame _
  | parallelMark =>
    cases h
    exact ⟨rfl, fun _ => rfl, fun hno => absurd rfl hno, fun _ => rfl, fun _ _ _ => rfl⟩
  | split =>
    cases h
    exact ⟨rfl, fun _ => rfl, fun _ => rfl, fun _ => rfl, fun _ _ _ => rfl⟩
  | swapPair => exact frame_pushSwap h
  | condition => exact frame_pushCondition h
  | absoluteTarget =>
    cases hr : d.trailing s 3 with
    | error e => simp only [contribute, hr] at h; cases h
    | ok r =>
      simp only [contribute, hr] at h
      have hpush := continues_push (show r.2.push _ = .ok d' from h)
      rw [exists_of_trailing hr] at hpush
      exact ⟨hpush.address, fun _ => hpush.kind, fun _ => hpush.marks,
        fun _ => hpush.memorySlot, fun _ => hpush.memory⟩

/-- The first field leaves a draft that the others complete. -/
theorem exists_of_contributeAll_cons {word : Nat} {use : FieldUse} {rest : List FieldUse}
    {insn : Instruction}
    (h : d.contributeAll s word (use :: rest) = .ok (some insn)) :
    ∃ d', d.contribute s use.field (use.selector.select word) = .ok d' ∧ d'.insn.kind ≠ 0 ∧
      d'.contributeAll s word rest = .ok (some insn) := by
  unfold contributeAll at h
  cases hc : d.contribute s use.field (use.selector.select word) with
  | error e => rw [hc] at h; cases h
  | ok d' =>
    rw [hc] at h
    simp only [bind, Except.bind] at h
    split at h
    next => cases h
    next hkind => exact ⟨d', rfl, hkind, h⟩

end Draft

end DspCode
