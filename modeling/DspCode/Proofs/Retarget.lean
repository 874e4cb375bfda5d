import DspCode.Proofs.MemoryAccess

/-!
# Counting code targets from another address

A code target given by its distance is the only part of an instruction that depends on where code
distances count from. Counting them from another address therefore commutes with everything the
fields of an encoding do to a draft.
-/

namespace DspCode

/-- The operand with a code target given by its distance counted from `next`. -/
def Operand.retarget (next : Address) (mask : UInt32) (op : Operand) : Operand :=
  match op.value with
  | .target _ (some distance) =>
    { op with value := .target ((next + UInt32.ofInt distance) &&& mask) (some distance) }
  | _ => op

/-- The instruction with all code targets given by their distance counted from `next`. -/
def Instruction.retarget (next : Address) (mask : UInt32) (insn : Instruction) : Instruction :=
  { insn with operands := insn.operands.map (·.retarget next mask) }

/-- The draft with all code targets given by their distance counted from `next`. -/
def Draft.retarget (next : Address) (mask : UInt32) (d : Draft) : Draft :=
  { d with insn := d.insn.retarget next mask }

/-- The same surroundings, in which code distances count from `next` for every instruction. -/
def Surroundings.countingFrom (s : Surroundings) (next : Address) (mask : UInt32) :
    Surroundings :=
  { s with nextAddress := fun _ _ => next, codeMask := mask }

variable (next : Address) (mask : UInt32)

namespace Operand

/-- Operands other than code targets given by their distance stay as they are. -/
theorem retarget_of_value {op : Operand} (h : ∀ a distance, op.value ≠ .target a (some distance)) :
    op.retarget next mask = op := by
  unfold retarget
  split
  next a distance he => exact absurd he (h a distance)
  next => rfl

/-- A target that is given by its distance is counted from the new address. -/
theorem retarget_of_target {op : Operand} {a : Address} {distance : Int}
    (h : op.value = .target a (some distance)) :
    op.retarget next mask =
      { op with value := .target ((next + UInt32.ofInt distance) &&& mask) (some distance) } := by
  simp only [retarget, h]

/-- An operand either is a code target given by its distance or does not depend on the address. -/
theorem retarget_cases (op : Operand) :
    (∃ a distance, op.value = .target a (some distance)) ∨
      ∀ next mask, op.retarget next mask = op := by
  by_cases h : ∃ a distance, op.value = .target a (some distance)
  · exact Or.inl h
  · refine Or.inr fun next mask => retarget_of_value next mask fun a distance he => ?_
    exact h ⟨a, distance, he⟩

@[simp] theorem isEmpty_retarget (op : Operand) : (op.retarget next mask).isEmpty = op.isEmpty := by
  obtain ⟨a, distance, h⟩ | h := op.retarget_cases
  · simp only [retarget_of_target next mask h, isEmpty, h]
  · rw [h]

/-- A code target is no register, wherever it is counted from. -/
@[simp] theorem register?_retarget (op : Operand) :
    (op.retarget next mask).register? = op.register? := by
  obtain ⟨a, distance, h⟩ | h := op.retarget_cases
  · simp only [retarget_of_target next mask h, register?, h]
  · rw [h]

/-- A code target is no constant, wherever it is counted from. -/
@[simp] theorem constant?_retarget (op : Operand) :
    (op.retarget next mask).constant? = op.constant? := by
  obtain ⟨a, distance, h⟩ | h := op.retarget_cases
  · simp only [retarget_of_target next mask h, constant?, h]
  · rw [h]

/-- Counting a target anew keeps the width of the operand. -/
@[simp] theorem width_retarget (op : Operand) : (op.retarget next mask).width = op.width := by
  unfold retarget
  split <;> rfl

@[simp] theorem retarget_empty : ({} : Operand).retarget next mask = {} := rfl

/-- Only the address that a target is counted from last matters. -/
@[simp] theorem retarget_retarget (next' : Address) (mask' : UInt32) (op : Operand) :
    (op.retarget next mask).retarget next' mask' = op.retarget next' mask' := by
  obtain ⟨a, distance, h⟩ | h := op.retarget_cases
  · rw [retarget_of_target next mask h, retarget_of_target next' mask' h,
      retarget_of_target next' mask' rfl]
  · rw [h next mask]

end Operand

namespace Instruction

/-- Counting targets anew keeps the length of an instruction. -/
@[simp] theorem length_retarget (insn : Instruction) :
    (insn.retarget next mask).length = insn.length := rfl

/-- Counting targets anew keeps where an instruction ends. -/
@[simp] theorem limit_retarget (insn : Instruction) :
    (insn.retarget next mask).limit = insn.limit := rfl

@[simp] theorem kind_retarget (insn : Instruction) :
    (insn.retarget next mask).kind = insn.kind := rfl

/-- Each operand of an instruction is counted anew for itself. -/
@[simp] theorem operand_retarget (insn : Instruction) (slot : Nat) :
    (insn.retarget next mask).operand slot = (insn.operand slot).retarget next mask := by
  simp only [operand, retarget, Vector.getElem?_map]
  cases insn.operands[slot]? <;> rfl

/-- Counting targets anew fills and frees no slot. -/
@[simp] theorem operandCount_retarget (insn : Instruction) :
    (insn.retarget next mask).operandCount = insn.operandCount := by
  simp only [operandCount, retarget, Vector.toList_map, List.takeWhile_map, List.length_map,
    Function.comp_def, Operand.isEmpty_retarget]

/-- An operand can be counted anew before or after it is put into its slot. -/
theorem setOperand_retarget (insn : Instruction) (slot : Nat) (op : Operand) :
    (insn.setOperand slot op).retarget next mask =
      (insn.retarget next mask).setOperand slot (op.retarget next mask) := by
  simp only [setOperand, retarget, Vector.map_setIfInBounds]

/-- Only the address that the targets of an instruction are counted from last matters. -/
@[simp] theorem retarget_retarget (next' : Address) (mask' : UInt32) (insn : Instruction) :
    (insn.retarget next mask).retarget next' mask' = insn.retarget next' mask' := by
  simp only [retarget, Vector.map_map, Function.comp_def, Operand.retarget_retarget]

/-- Whether an instruction has a code target given by its distance. -/
def HasDistance (insn : Instruction) : Prop :=
  ∃ slot a distance, (insn.operand slot).value = .target a (some distance)

/-- An instruction without a target given by its distance is the same wherever targets count from.
-/
theorem retarget_of_not_hasDistance {insn : Instruction} (h : ¬insn.HasDistance) :
    insn.retarget next mask = insn := by
  have hops : (insn.retarget next mask).operands = insn.operands := by
    apply Vector.ext
    intro slot hslot
    simp only [retarget, Vector.getElem_map]
    apply Operand.retarget_of_value
    intro a distance hv
    refine h ⟨slot, a, distance, ?_⟩
    rw [operand, Vector.getElem?_eq_getElem hslot]
    exact hv
  exact congrArg (fun operands => { insn with operands }) hops

/-- Targets that come out the same are the same distance from both addresses. -/
theorem exists_of_retarget_eq {insn : Instruction} (h : insn.HasDistance) {next' : Address}
    (he : insn.retarget next mask = insn.retarget next' mask) :
    ∃ offset, (next + offset) &&& mask = (next' + offset) &&& mask := by
  obtain ⟨slot, a, distance, hv⟩ := h
  have hop := congrArg (fun i => (i.operand slot).value) he
  simp only [operand_retarget, Operand.retarget_of_target _ _ hv, OperandValue.target.injEq] at hop
  exact ⟨UInt32.ofInt distance, hop.1⟩

end Instruction

namespace Draft

@[simp] theorem insn_retarget (d : Draft) :
    (d.retarget next mask).insn = d.insn.retarget next mask := rfl

@[simp] theorem compared_retarget (d : Draft) : (d.retarget next mask).compared = d.compared := rfl

/-- An operand can be counted anew before or after it is added to a draft. -/
theorem push_retarget (d : Draft) (op : Operand) :
    (d.push op).map (·.retarget next mask) =
      (d.retarget next mask).push (op.retarget next mask) := by
  simp only [push, insn_retarget, Instruction.operandCount_retarget]
  split
  · simp only [Except.map, retarget, Instruction.setOperand_retarget]
  · rfl

private theorem put_retarget (d : Draft) (slot : Nat) (op : Operand) :
    (d.put slot op).map (·.retarget next mask) =
      (d.retarget next mask).put slot (op.retarget next mask) := by
  unfold put
  split
  · simp only [Except.map, retarget, Instruction.setOperand_retarget]
  · rfl

/-- A change of the last operand that does not see code targets commutes with counting them. -/
theorem modifyLast_retarget (d : Draft) {f : Operand → Operand}
    (hf : ∀ op, (f op).retarget next mask = f (op.retarget next mask)) :
    (d.modifyLast f).retarget next mask = (d.retarget next mask).modifyLast f := by
  simp only [modifyLast, insn_retarget, Instruction.operandCount_retarget]
  split
  · rfl
  · simp only [retarget, Instruction.setOperand_retarget, hf, Instruction.operand_retarget]

/-- An operand to compare with can be counted anew before or after it is added to a draft. -/
theorem pushCompared_retarget (d : Draft) (op : Operand) :
    (d.pushCompared op).map (·.retarget next mask) =
      (d.retarget next mask).pushCompared (op.retarget next mask) := by
  simp only [pushCompared, ← push_retarget, insn_retarget, Instruction.operandCount_retarget]
  cases d.push op <;> rfl

/-- Whether an optional operand is left out does not depend on where targets count from. -/
theorem pushOptional_retarget (d : Draft) (op : Operand) :
    (d.pushOptional op).map (·.retarget next mask) =
      (d.retarget next mask).pushOptional (op.retarget next mask) := by
  have hr : (d.retarget next mask).repeats (op.retarget next mask) = d.repeats op := by
    simp only [repeats, compared_retarget, insn_retarget, Instruction.operand_retarget,
      Operand.register?_retarget]
  unfold pushOptional
  rw [hr, ← push_retarget]
  split
  · rfl
  · cases d.push op <;> rfl

private theorem pushMemory_retarget (d : Draft) (op : Operand) :
    (d.pushMemory op).map (·.retarget next mask) =
      (d.retarget next mask).pushMemory (op.retarget next mask) := by
  simp only [pushMemory, ← push_retarget, insn_retarget, Instruction.operandCount_retarget]
  cases d.push op <;> rfl

/-- A renaming does not look at code targets. -/
theorem rename_retarget (d : Draft) (mnemonics : Array Mnemonic) (r : Renaming) :
    (d.rename mnemonics r).map (·.retarget next mask) =
      (d.retarget next mask).rename mnemonics r := by
  simp only [rename, insn_retarget, Instruction.kind_retarget]
  cases r.apply mnemonics d.insn.kind <;> rfl

/-- The bytes after the code word are read alike. -/
theorem readMore_retarget (d : Draft) (s : Surroundings) (value count : Nat) :
    (d.readMore s value count).map (fun r => (r.1, r.2.retarget next mask)) =
      (d.retarget next mask).readMore (s.countingFrom next mask) value count := by
  induction count generalizing d value with
  | zero => rfl
  | succ count ih =>
    unfold readMore
    simp only [Surroundings.countingFrom, insn_retarget, Instruction.length_retarget]
    split
    · rfl
    · exact ih _ _

/-- The bytes after the code word are the same wherever targets count from. -/
theorem trailing_retarget (d : Draft) (s : Surroundings) (count : Nat) :
    (d.trailing s count).map (fun r => (r.1, r.2.retarget next mask)) =
      (d.retarget next mask).trailing (s.countingFrom next mask) count :=
  readMore_retarget next mask d s 0 count

/-- Single memory operands are no code targets. -/
theorem pushSingleMemory_retarget (d : Draft) (s : Surroundings) (v : Nat) (width : DataWidth)
    (update : Bool) :
    (d.pushSingleMemory s v width update).map (·.retarget next mask) =
      (d.retarget next mask).pushSingleMemory (s.countingFrom next mask) v width update := by
  rw [MemoryAccess.pushSingleMemory_eq, MemoryAccess.pushSingleMemory_eq, MemoryAccess.push,
    MemoryAccess.push, ← trailing_retarget]
  change _ =
    Except.map _ (d.trailing s (MemoryAccess.of (d.contextOf s) v width update).count) >>= _
  cases d.trailing s (MemoryAccess.of (d.contextOf s) v width update).count with
  | error e => rfl
  | ok r =>
    have hm := MemoryAccess.isMemory_of (d.contextOf s) v width update r.1
    refine (pushMemory_retarget next mask r.2 _).trans ?_
    rw [Operand.retarget_of_value]
    · rfl
    · intro a distance he
      simp only [Operand.isMemory, he, Bool.false_eq_true] at hm

private theorem pushCondition_retarget (d : Draft) (selector : Nat) :
    (d.pushCondition selector).map (·.retarget next mask) =
      (d.retarget next mask).pushCondition selector := by
  unfold pushCondition
  split
  next => rfl
  next value hv =>
    have hr : ∀ width, (Operand.of value width).retarget next mask = Operand.of value width := by
      obtain ⟨code, r, rfl⟩ := conditionOperand?_eq_some hv
      exact fun _ => rfl
    split
    · rw [pushCompared_retarget, hr]
    · rw [push_retarget, hr]

private theorem pushSwap_retarget (d : Draft) (s : Surroundings) (selector : Nat) :
    (d.pushSwap s selector).map (·.retarget next mask) =
      (d.retarget next mask).pushSwap (s.countingFrom next mask) selector := by
  unfold pushSwap
  split
  next => rfl
  next a b request hs =>
    have hput : ∀ d : Draft,
        (do let d ← d.put 0 (.ofRegister a.id)
            d.put 1 (.ofRegister b.id) : Except FieldError Draft).map (·.retarget next mask) =
          (do let d ← (d.retarget next mask).put 0 (.ofRegister a.id)
              d.put 1 (.ofRegister b.id)) := by
      intro d
      have h0 := put_retarget next mask d 0 (.ofRegister a.id)
      change _ = (d.retarget next mask).put 0 (.ofRegister a.id) at h0
      rw [← h0]
      cases d.put 0 (.ofRegister a.id) with
      | error e => rfl
      | ok d => exact put_retarget next mask d 1 _
    cases request with
    | none => exact hput d
    | some r =>
      have hr := rename_retarget next mask d s.mnemonics r.renaming
      simp only [Surroundings.countingFrom, ← hr]
      cases d.rename s.mnemonics r.renaming with
      | error e => rfl
      | ok d => exact hput d

/-- A code target at a distance is counted from `next` either way. -/
theorem relativeTarget_retarget (d : Draft) (s : Surroundings) (distance : Int) :
    (d.relativeTarget s distance).retarget next mask =
      (d.retarget next mask).relativeTarget (s.countingFrom next mask) distance := by
  have h : UInt32.ofInt (signedValue 32 distance) = UInt32.ofInt distance := by
    simp only [signedValue, UInt32.ofInt, BitVec.toInt_ofInt]
    exact congrArg (fun z : Int => UInt32.ofNat z.toNat) Int.bmod_emod
  simp only [relativeTarget, Operand.of, Operand.retarget, Surroundings.countingFrom, h]

private theorem withSuffix_retarget (d : Draft) (suffix : Suffix) :
    (d.withSuffix suffix).retarget next mask = (d.retarget next mask).withSuffix suffix :=
  modifyLast_retarget next mask d fun op => by
    simp only [Operand.retarget]
    split <;> rfl

/-- Relations are made from registers, which are no code targets. -/
theorem withRelation_retarget (d : Draft) (relation : Relation) :
    (d.withRelation relation).retarget next mask =
      (d.retarget next mask).withRelation relation :=
  modifyLast_retarget next mask d fun op => by
    simp only [Operand.retarget]
    cases h : op.value with
    | target a distance => cases distance <;> simp [h]
    | _ => simp [h]

private theorem withComparand_retarget (d : Draft) (right : Comparand) :
    (d.withComparand right).retarget next mask = (d.retarget next mask).withComparand right :=
  modifyLast_retarget next mask d fun op => by
    simp only [Operand.retarget]
    cases h : op.value with
    | target a distance => cases distance <;> simp [h]
    | _ => simp [h]

private theorem compareWithLast_retarget (d : Draft) :
    d.compareWithLast.retarget next mask = (d.retarget next mask).compareWithLast := by
  simp only [compareWithLast, insn_retarget, Instruction.operandCount_retarget]
  split <;> rfl

private theorem split_retarget (d : Draft) :
    d.split.retarget next mask = (d.retarget next mask).split := by
  simp only [split, insn_retarget, Instruction.operandCount_retarget]
  rfl

/-- What a field does commutes with counting code targets from another address. -/
theorem contribute_retarget (d : Draft) (s : Surroundings) (field : Field) (v : Nat) :
    (d.contribute s field v).map (·.retarget next mask) =
      (d.retarget next mask).contribute (s.countingFrom next mask) field v := by
  cases field with
  | unsignedByte | unsignedWord | signedByte | signedWord | negatedByte | one | minusOne
  | temporary | testControl | transition | status | extended | carryOrTest | fixed | xmem | cmem
  | dataAddress | shiftAmount => exact push_retarget next mask d _
  | source => exact pushCompared_retarget next mask d _
  | optionalSource => exact pushOptional_retarget next mask d _
  | smem | lmem | pointerUpdate => exact pushSingleMemory_retarget next mask d s v _ _
  | bitAddress =>
    simp only [contribute]
    split
    · exact push_retarget next mask d _
    · exact pushSingleMemory_retarget next mask d s v _ _
  | wrap operators =>
    simp only [contribute]
    split
    · refine congrArg Except.ok (modifyLast_retarget next mask d fun op => ?_)
      simp only [Operand.retarget]
      split <;> rfl
    · rfl
  | shiftSigned | shiftSignedOutside | shiftLeft | shiftByTemporary | shiftByT2 | shiftLeft16
  | shiftRight | equalsWord | notZero =>
    exact congrArg Except.ok (withSuffix_retarget next mask d _)
  | relation => exact congrArg Except.ok (withRelation_retarget next mask d _)
  | relationRegister =>
    refine congrArg Except.ok ((compareWithLast_retarget next mask _).trans ?_)
    rw [withComparand_retarget]
  | relationByte => exact congrArg Except.ok (withComparand_retarget next mask d _)
  | rename request =>
    simp only [contribute]
    split
    · exact rename_retarget next mask d _ _
    · rfl
  | parallelMark => rfl
  | split => exact congrArg Except.ok (split_retarget next mask d)
  | swapPair => exact pushSwap_retarget next mask d s v
  | condition => exact pushCondition_retarget next mask d v
  | forward | relative =>
    refine (push_retarget next mask d _).trans ?_
    rw [relativeTarget_retarget]
    rfl
  | absoluteTarget =>
    simp only [contribute, ← trailing_retarget]
    cases d.trailing s 3 with
    | error e => rfl
    | ok r => exact push_retarget next mask r.2 _

/-- Counting the code targets of the finished instruction from another address gives what the
fields make of the draft when distances count from there all along. -/
theorem contributeAll_retarget (d : Draft) (s : Surroundings) (word : Nat)
    (fields : List FieldUse) :
    (d.contributeAll s word fields).map (Option.map (·.retarget next mask)) =
      (d.retarget next mask).contributeAll (s.countingFrom next mask) word fields := by
  induction fields generalizing d with
  | nil => rfl
  | cons use rest ih =>
    unfold contributeAll
    rw [← contribute_retarget]
    cases d.contribute s use.field (use.selector.select word) with
    | error e => rfl
    | ok d =>
      change Except.map _ (if d.insn.kind = 0 then _ else _) =
        if d.insn.kind = 0 then _ else _
      split
      · rfl
      · exact ih d

end Draft

end DspCode
