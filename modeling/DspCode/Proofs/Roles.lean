import DspCode.Proofs.Shapes

/-!
# The roles of operands

The number of operands comes from the fields of a row, their roles from the usage of the kind. The
two agree up to one operand: the usage never tells about a slot behind the operands, and it tells
about every operand but the last one of the six forms in `Form.leavingOut`. Those are named as forms
with one operand fewer, and their last operand is without a role.
-/

namespace DspCode

/-- An operand is without a role if its slot is neither read nor written. -/
theorem roleOf_eq_none_iff (usage : Usage) (slot : Nat) (value : OperandValue) :
    roleOf usage slot value = .none ↔ (usage.readsSlot slot || usage.writesSlot slot) = false := by
  unfold roleOf
  split <;> simp_all

namespace Outline

variable {o : Outline} {m : Mnemonic}

/-- The usage of a kind tells about no more operands than there are. -/
theorem assigned_le (o : Outline) : o.assigned ≤ o.count := by
  rw [assigned]
  split <;> omega

/-- The usage of the mnemonic tells about the slots before the last assigned operand. -/
theorem Fits.reads_or_writes (h : o.Fits m) (hcount : o.count ≤ 6) (slot : Nat) :
    (m.usage.readsSlot slot || m.usage.writesSlot slot) = decide (slot < o.assigned) := by
  by_cases hslot : slot < 6
  · have := List.all_eq_true.mp h.assigned slot (List.mem_range.mpr hslot)
    exact eq_of_beq this
  · -- there are six bits in a usage and at most six operands
    have hge : ¬slot < o.assigned := by
      have := o.assigned_le
      omega
    simp [Usage.readsSlot, Usage.writesSlot, BitVec.getLsbD_of_ge _ _ (Nat.not_lt.mp hslot), hge]

end Outline

namespace Machine

variable {space : AddressSpace} {k : Knowledge} {a : Address} {d : Decoded}

/-- The last thing done to an instruction is to give its operands the roles of its kind. -/
theorem exists_withUsage_of_decode (h : c55x.decode space k a = .ok d) :
    ∃ insn, d.insn = c55x.withUsage insn := by
  cases decode_eq_ok_iff.mp h with
  | plain => exact ⟨_, rfl⟩
  | head => exact ⟨_, rfl⟩
  | tail => exact ⟨_, rfl⟩

/-- Each operand of a decoded instruction has the role that its kind gives it. -/
theorem role_of_decode (h : c55x.decode space k a = .ok d) {slot : Nat}
    (hslot : slot < d.insn.operandCount) :
    (d.insn.operand slot).role =
      roleOf (usageOf Form.mnemonics d.insn.kind) slot (d.insn.operand slot).value := by
  obtain ⟨o, -, hshape⟩ := exists_shape_of_decode h
  obtain ⟨insn, hinsn⟩ := exists_withUsage_of_decode h
  have hcount : insn.operandCount = o.count := by
    refine Instruction.Filled.operandCount fun i => ?_
    rw [← hshape.filled i, hinsn]
    exact (Instruction.isEmpty_operand_withRoles insn _ i).symm
  rw [hshape.filled.operandCount, ← hcount] at hslot
  rw [hinsn]
  simp only [withUsage, Instruction.operand_withRoles, if_pos hslot]
  rfl

/-- No slot behind the operands of a decoded instruction is read or written by its kind, and an
operand is without a role exactly if it is the last one and the form leaves it out. -/
theorem role_eq_none_iff (h : c55x.decode space k a = .ok d) :
    (∀ slot, d.insn.operandCount ≤ slot →
      (usageOf Form.mnemonics d.insn.kind).readsSlot slot = false ∧
        (usageOf Form.mnemonics d.insn.kind).writesSlot slot = false) ∧
      ∀ slot, (d.insn.operand slot).isEmpty = false →
        ((d.insn.operand slot).role = .none ↔
          leavesOutLast d.insn.kind d.insn.operandCount = true ∧
            slot + 1 = d.insn.operandCount) := by
  obtain ⟨o, ⟨m, hfits⟩, hshape⟩ := exists_shape_of_decode h
  have hcount : d.insn.operandCount = o.count := hshape.filled.operandCount
  have husage : usageOf Form.mnemonics d.insn.kind = m.usage := by
    rw [usageOf, hshape.kind, hfits.named]
  have hassigned := hfits.reads_or_writes hshape.filled.le
  constructor
  · intro slot hslot
    have hge : ¬slot < o.assigned := by
      have := o.assigned_le
      omega
    rw [husage, ← Bool.or_eq_false_iff, hassigned slot, decide_eq_false hge]
  · intro slot hne
    have hslot : slot < d.insn.operandCount := by
      rw [hcount]
      exact hshape.filled.lt_of_isEmpty_eq_false hne
    rw [role_of_decode h hslot, roleOf_eq_none_iff, husage, hassigned slot, hshape.kind, hcount,
      decide_eq_false_iff_not, Outline.assigned]
    cases leavesOutLast o.kind o.count with
    | true =>
      simp only [if_true, true_and]
      omega
    | false =>
      simp
      omega

/-- A move between accumulators, and the greater one of two accumulators. -/
def moveThenMax : AddressSpace := .holding 0 [0x22, 0x01, 0x2E, 0x01]

/-- Both operands of the move have a role. -/
theorem role_eq_none_iff_move :
    ∃ d, c55x.decode moveThenMax {} 0 = .ok d ∧ d.insn.kind = Form.mov2.kind ∧
      (d.insn.operand 0).role ≠ .none ∧ (d.insn.operand 1).role ≠ .none := by
  have hmove : (c55x.decode moveThenMax {} 0).toOption.map (fun d => (d.insn.kind,
      d.insn.operandCount, (d.insn.operand 0).isEmpty, (d.insn.operand 1).isEmpty)) =
        some (Form.mov2.kind, 2, false, false) := by
    decide +kernel
  obtain ⟨d, hd, hmove⟩ := exists_ok_of_toOption hmove
  simp only [Prod.mk.injEq] at hmove
  obtain ⟨hkind, hcount, hfirst, hsecond⟩ := hmove
  have hlast : leavesOutLast d.insn.kind d.insn.operandCount = false := by
    rw [hkind, hcount]
    decide
  have hrole := (role_eq_none_iff hd).2
  refine ⟨d, hd, hkind, fun h => ?_, fun h => ?_⟩
  · simpa [hlast] using (hrole 0 hfirst).mp h
  · simpa [hlast] using (hrole 1 hsecond).mp h

/-- The second operand of the maximum, where the result goes, is without a role. -/
theorem max_leaves_out_result :
    ∃ d, c55x.decode moveThenMax {} 2 = .ok d ∧ d.insn.kind = Form.max1.kind ∧
      d.insn.operandCount = 2 ∧ (d.insn.operand 1).register? = some Register.ac1.id ∧
        (d.insn.operand 1).role = .none := by
  have hmax : (c55x.decode moveThenMax {} 2).toOption.map (fun d => (d.insn.kind,
      d.insn.operandCount, (d.insn.operand 1).register?, (d.insn.operand 1).role)) =
        some (Form.max1.kind, 2, some Register.ac1.id, .none) := by
    decide +kernel
  obtain ⟨d, hd, hmax⟩ := exists_ok_of_toOption hmax
  simp only [Prod.mk.injEq] at hmax
  exact ⟨d, hd, hmax⟩

end Machine

end DspCode
