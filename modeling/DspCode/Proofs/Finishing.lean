import DspCode.Proofs.Matching

/-!
# Finishing a matched instruction

What is done to an instruction after it is matched: status bits are named, a qualifier byte is taken
in, marks and the place in a packed pair are set, operands get their roles. Where the instruction is
and where its code targets count from matters to none of these.
-/

namespace DspCode

namespace StatusBit

variable (insn : Instruction)

/-- Naming a status bit keeps the address of an instruction. -/
@[simp] theorem address_nameBit : (nameBit insn).address = insn.address := by
  unfold nameBit
  split
  · split <;> rfl
  · rfl

/-- Naming a status bit keeps the length of an instruction. -/
@[simp] theorem length_nameBit : (nameBit insn).length = insn.length := by
  unfold nameBit
  split
  · split <;> rfl
  · rfl

/-- Naming a status bit keeps where an instruction ends. -/
@[simp] theorem limit_nameBit : (nameBit insn).limit = insn.limit := by
  simp only [Instruction.limit, address_nameBit, length_nameBit]

@[simp] theorem half?_nameBit : (nameBit insn).half? = insn.half? := by
  unfold nameBit
  split
  · split <;> rfl
  · rfl

/-- A status bit is named by operands that are no code targets. -/
theorem nameBit_retarget (next : Address) (mask : UInt32) :
    nameBit (insn.retarget next mask) = (nameBit insn).retarget next mask := by
  unfold nameBit
  simp only [Instruction.kind_retarget, Instruction.operand_retarget, Operand.constant?_retarget,
    Operand.register?_retarget, Operand.width_retarget]
  split
  next form bit status =>
    split
    next flag =>
      rw [Instruction.setOperand_retarget, Instruction.setOperand_retarget]
      rfl
    next => rfl
  next => rfl

end StatusBit

namespace Qualifier

/-- A change of an operand that does not apply to code targets given by their distance, and gives
none. -/
def Spares (f : Operand → Option Operand) : Prop :=
  (∀ op a distance, op.value = .target a (some distance) → f op = none) ∧
    ∀ op op', f op = some op' → ∀ a distance, op'.value ≠ .target a (some distance)

/-- Only memory is read as a memory-mapped register. -/
theorem spares_mappedOperand? : Spares mappedOperand? := by
  constructor
  · intro op a distance h
    simp only [mappedOperand?, h]
  · intro op op' h
    unfold mappedOperand? at h
    split at h
    · split at h <;> cases h
      simp
    · split at h <;> cases h
      simp
    · cases h

/-- Only memory is read as a port. -/
theorem spares_portOperand? : Spares portOperand? := by
  constructor
  · intro op a distance h
    simp only [portOperand?, h]
  · intro op op' h
    unfold portOperand? at h
    split at h
    · split at h <;> cases h
      simp
    next hv =>
      cases h
      simp [hv]
    next hv =>
      cases h
      simp [hv]
    · cases h

/-- A change that spares code targets can be made before or after targets are counted anew. -/
theorem Spares.retarget {f : Operand → Option Operand} (hf : Spares f) (next : Address)
    (mask : UInt32) (op : Operand) :
    f (op.retarget next mask) = (f op).map (·.retarget next mask) := by
  obtain ⟨a, distance, h⟩ | h := Operand.retarget_cases op
  · rw [hf.1 op a distance h, Operand.retarget_of_target next mask h,
      hf.1 _ _ distance rfl]
    rfl
  · rw [h next mask]
    cases hop : f op with
    | none => rfl
    | some op' =>
      rw [Option.map_some, Operand.retarget_of_value next mask (hf.2 op op' hop)]

/-- A change of the memory operand that spares code targets can be made before or after they are
counted anew. -/
theorem onMemory?_retarget {f : Operand → Option Operand} (hf : Spares f) (next : Address)
    (mask : UInt32) (insn : Instruction) :
    onMemory? (insn.retarget next mask) f = (onMemory? insn f).map (·.retarget next mask) := by
  unfold onMemory?
  have hm : (insn.retarget next mask).memorySlot = insn.memorySlot := rfl
  rw [hm]
  cases insn.memorySlot with
  | none => rfl
  | some slot =>
    have ho : (insn.retarget next mask).operands[slot]? =
        (insn.operands[slot]?).map (·.retarget next mask) := Vector.getElem?_map ..
    simp only [bind, Option.bind, ho]
    cases insn.operands[slot]? with
    | none => rfl
    | some op =>
      simp only [Option.map_some, hf.retarget]
      cases f op with
      | none => rfl
      | some op' =>
        exact congrArg some (Instruction.setOperand_retarget next mask insn slot op').symm

private theorem change?_retarget (q : Qualifier) (next : Address) (mask : UInt32)
    (insn : Instruction) :
    q.change? (insn.retarget next mask) = (q.change? insn).map (·.retarget next mask) := by
  cases q with
  | mapped => exact onMemory?_retarget spares_mappedOperand? next mask insn
  | port => exact onMemory?_retarget spares_portOperand? next mask insn
  | localRepeat => rfl
  | circular => rfl

/-- A byte qualifies an instruction wherever its targets count from, or never. -/
theorem qualify?_retarget (next : Address) (mask : UInt32) (insn : Instruction) (b : UInt8) :
    qualify? (insn.retarget next mask) b = (qualify? insn b).map (·.retarget next mask) := by
  unfold qualify?
  cases ofByte? b with
  | none => rfl
  | some q =>
    simp only [bind, Option.bind, change?_retarget]
    cases q.change? insn <;> rfl

/-- A qualifier changes operands and marks alone, apart from its own byte. -/
theorem change?_frame {q : Qualifier} {insn insn' : Instruction} (h : q.change? insn = some insn') :
    ∃ operands marks, insn' = { insn with operands, marks } := by
  have hon : ∀ f, onMemory? insn f = some insn' →
      ∃ operands marks, insn' = { insn with operands, marks } := by
    intro f h
    obtain ⟨slot, -, h⟩ := Option.bind_eq_some_iff.mp h
    obtain ⟨op, -, h⟩ := Option.bind_eq_some_iff.mp h
    obtain ⟨op', -, h⟩ := Option.bind_eq_some_iff.mp h
    cases h
    exact ⟨_, insn.marks, rfl⟩
  cases q with
  | mapped => exact hon _ h
  | port => exact hon _ h
  | localRepeat =>
    cases h
    exact ⟨insn.operands, _, rfl⟩
  | circular =>
    cases h
    exact ⟨insn.operands, _, rfl⟩

/-- A qualifier keeps the place of an instruction, and adds its own byte. -/
theorem change?_place {q : Qualifier} {insn insn' : Instruction} (h : q.change? insn = some insn') :
    insn'.length = insn.length ∧ insn'.half? = insn.half? := by
  obtain ⟨_, _, rfl⟩ := change?_frame h
  exact ⟨rfl, rfl⟩

/-- A qualifier makes an instruction one byte longer and keeps the half of a pair that it is. -/
theorem qualify?_place {b : UInt8} {insn insn' : Instruction} (h : qualify? insn b = some insn') :
    insn'.length = insn.length + 1 ∧ insn'.half? = insn.half? := by
  obtain ⟨q, -, h⟩ := Option.bind_eq_some_iff.mp h
  obtain ⟨insn'', hc, h⟩ := Option.bind_eq_some_iff.mp h
  cases h
  obtain ⟨hl, hh⟩ := change?_place hc
  exact ⟨congrArg (· + 1) hl, hh⟩

end Qualifier

namespace Instruction

/-- Marks an instruction as parallel with the one before it, if it is. -/
def withParallel (insn : Instruction) (parallel : Bool) : Instruction :=
  if parallel then { insn with marks := { insn.marks with parallel := true } } else insn

/-- Marks an instruction as the second half of the packed pair at `head`. -/
def asSecond (insn : Instruction) (head : Address) : Instruction :=
  (insn.withParallel true).withHalf (.tail head)

/-- The parallel mark does not lengthen an instruction. -/
@[simp] theorem length_withParallel (insn : Instruction) (parallel : Bool) :
    (insn.withParallel parallel).length = insn.length := by
  cases parallel <;> rfl

@[simp] theorem half?_withParallel (insn : Instruction) (parallel : Bool) :
    (insn.withParallel parallel).half? = insn.half? := by
  cases parallel <;> rfl

private theorem withParallel_retarget (insn : Instruction) (parallel : Bool) (next : Address)
    (mask : UInt32) :
    (insn.retarget next mask).withParallel parallel =
      (insn.withParallel parallel).retarget next mask := by
  cases parallel <;> rfl

/-- An instruction can be marked as a second half before or after its targets are counted anew. -/
theorem asSecond_retarget (insn : Instruction) (head : Address) (next : Address) (mask : UInt32) :
    (insn.retarget next mask).asSecond head = (insn.asSecond head).retarget next mask := rfl

private theorem roleOf_retarget (usage : Usage) (slot : Nat) (next : Address) (mask : UInt32)
    (op : Operand) :
    roleOf usage slot (op.retarget next mask).value = roleOf usage slot op.value := by
  obtain ⟨a, distance, h⟩ | h := Operand.retarget_cases op
  · rw [Operand.retarget_of_target next mask h, h]
    cases hr : usage.readsSlot slot <;> cases hw : usage.writesSlot slot <;>
      simp only [roleOf, hr, hw]
  · rw [h next mask]

private theorem withRole_retarget (role : Role) (next : Address) (mask : UInt32) (op : Operand) :
    ({ op with role } : Operand).retarget next mask =
      { op.retarget next mask with role } := by
  unfold Operand.retarget
  simp only
  split <;> rfl

/-- Roles do not depend on where targets count from. -/
theorem withRoles_retarget (insn : Instruction) (usage : Usage) (next : Address) (mask : UInt32) :
    (insn.retarget next mask).withRoles usage = (insn.withRoles usage).retarget next mask := by
  have hops : ((insn.retarget next mask).withRoles usage).operands =
      ((insn.withRoles usage).retarget next mask).operands := by
    apply Vector.ext
    intro slot hslot
    simp only [withRoles, operandCount_retarget]
    simp only [retarget, Vector.getElem_mapIdx, Vector.getElem_map, roleOf_retarget]
    split
    · exact (withRole_retarget _ next mask _).symm
    · rfl
  exact congrArg (fun operands => { insn with operands }) hops

end Instruction

namespace Machine

/-- The instruction with the roles that its kind gives its operands. -/
def withUsage (m : Machine) (insn : Instruction) : Instruction :=
  insn.withRoles (usageOf m.mnemonics insn.kind)

/-- Roles can be given before or after targets are counted anew. -/
theorem withUsage_retarget (m : Machine) (insn : Instruction) (next : Address) (mask : UInt32) :
    m.withUsage (insn.retarget next mask) = (m.withUsage insn).retarget next mask :=
  Instruction.withRoles_retarget insn _ next mask

/-- The instruction with the qualifier byte after it, if that byte is one and fits. -/
def qualified (space : AddressSpace) (insn : Instruction) : Instruction :=
  match space insn.limit with
  | some b => (Qualifier.qualify? insn b).getD insn
  | none => insn

/-- A plain instruction is finished in three steps: its status bit is named, it is marked as
parallel, and the qualifier byte after it is taken in. -/
theorem finishPlain_eq (space : AddressSpace) (first : UInt8) (insn : Instruction) :
    c55x.finishPlain space first insn =
      qualified space ((StatusBit.nameBit insn).withParallel (parallelBit first)) := rfl

/-- The qualifier byte after an instruction is taken in wherever its targets count from, or never.
-/
theorem qualified_retarget (space : AddressSpace) (insn : Instruction) (next : Address)
    (mask : UInt32) :
    qualified space (insn.retarget next mask) = (qualified space insn).retarget next mask := by
  unfold qualified
  rw [Instruction.limit_retarget]
  cases space insn.limit with
  | none => rfl
  | some b =>
    simp only [Qualifier.qualify?_retarget]
    cases Qualifier.qualify? insn b <;> rfl

/-- At most the qualifier byte is added, and a half of a pair stays that half. -/
theorem qualified_place (space : AddressSpace) (insn : Instruction) :
    (qualified space insn).length ≤ insn.length + 1 ∧
      (qualified space insn).half? = insn.half? := by
  unfold qualified
  cases space insn.limit with
  | none => exact ⟨Nat.le_succ _, rfl⟩
  | some b =>
    simp only
    cases hq : Qualifier.qualify? insn b with
    | none => exact ⟨Nat.le_succ _, rfl⟩
    | some insn' =>
      obtain ⟨hl, hh⟩ := Qualifier.qualify?_place hq
      exact ⟨Nat.le_of_eq hl, hh⟩

/-- A plain instruction can be finished before or after its targets are counted anew. -/
theorem finishPlain_retarget (space : AddressSpace) (first : UInt8) (insn : Instruction)
    (next : Address) (mask : UInt32) :
    c55x.finishPlain space first (insn.retarget next mask) =
      (c55x.finishPlain space first insn).retarget next mask := by
  rw [finishPlain_eq, finishPlain_eq, StatusBit.nameBit_retarget,
    Instruction.withParallel_retarget, qualified_retarget]

/-- A finished instruction may have taken in one byte. -/
theorem finishPlain_place (space : AddressSpace) (first : UInt8) (insn : Instruction) :
    (c55x.finishPlain space first insn).length ≤ insn.length + 1 ∧
      (c55x.finishPlain space first insn).half? = insn.half? := by
  rw [finishPlain_eq]
  have h := qualified_place space ((StatusBit.nameBit insn).withParallel (parallelBit first))
  rwa [Instruction.length_withParallel, Instruction.half?_withParallel, StatusBit.length_nameBit,
    StatusBit.half?_nameBit] at h

/-- A matched plain instruction, as it is decoded. -/
def finished (space : AddressSpace) (first : UInt8) (insn : Instruction) : Instruction :=
  c55x.withUsage (c55x.finishPlain space first insn)

/-- A plain instruction is decoded the same way before or after its targets are counted anew. -/
theorem finished_retarget (space : AddressSpace) (first : UInt8) (insn : Instruction)
    (next : Address) (mask : UInt32) :
    finished space first (insn.retarget next mask) =
      (finished space first insn).retarget next mask := by
  rw [finished, finishPlain_retarget, withUsage_retarget, finished]

end Machine

end DspCode
