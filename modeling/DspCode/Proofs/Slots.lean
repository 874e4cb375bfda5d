import DspCode.Instruction

/-!
# Operand slots

Operands fill the slots of an instruction from the front. An instruction whose first `n` slots are
filled and whose others are free has `n` operands; putting an operand into the first free slot, or
replacing one, keeps the slots in this order.
-/

namespace DspCode.Instruction

/-- The first `n` slots are filled and all others free. -/
def Filled (insn : Instruction) (n : Nat) : Prop :=
  ∀ slot, (insn.operand slot).isEmpty = decide (n ≤ slot)

/-- Replacing an operand changes its slot alone. -/
theorem operand_setOperand (insn : Instruction) (slot other : Nat) (op : Operand) :
    (insn.setOperand slot op).operand other =
      if slot = other ∧ slot < 6 then op else insn.operand other := by
  simp only [setOperand, operand, Vector.getElem?_setIfInBounds]
  by_cases h : slot = other
  · by_cases hb : slot < 6
    · simp [h, h ▸ hb]
    · simp [h, h ▸ hb]
  · simp [h]

private theorem operand_of_le (insn : Instruction) {slot : Nat} (h : 6 ≤ slot) :
    insn.operand slot = {} := by
  simp only [operand, Vector.getElem?_eq_none h, Option.getD_none]

/-- The length of the longest prefix with a property is where the property first fails. -/
private theorem length_takeWhile_eq {α : Type} {p : α → Bool} {l : List α} {n : Nat}
    (hlt : ∀ i < n, ∃ x, l[i]? = some x ∧ p x = true)
    (hn : ∀ x, l[n]? = some x → p x = false) : (l.takeWhile p).length = n := by
  induction l generalizing n with
  | nil =>
    cases n with
    | zero => rfl
    | succ n =>
      obtain ⟨x, hx, -⟩ := hlt 0 (Nat.succ_pos n)
      cases hx
  | cons y l ih =>
    cases n with
    | zero => simp [hn y rfl]
    | succ n =>
      obtain ⟨x, hx, hp⟩ := hlt 0 (Nat.succ_pos n)
      cases hx
      rw [List.takeWhile_cons, hp, if_pos rfl, List.length_cons, ih]
      · intro i hi
        exact hlt (i + 1) (Nat.succ_lt_succ hi)
      · exact fun x hx => hn x hx

namespace Filled

variable {insn : Instruction} {n : Nat}

/-- At most six slots are filled. -/
theorem le (h : insn.Filled n) : n ≤ 6 := by
  have := h 6
  rw [operand_of_le insn (Nat.le_refl 6)] at this
  simpa [Operand.isEmpty] using this

/-- As many operands are counted as slots are filled. -/
theorem operandCount (h : insn.Filled n) : insn.operandCount = n := by
  have hslot : ∀ slot, slot < 6 → insn.operands.toList[slot]? = some (insn.operand slot) := by
    intro slot hb
    simp [operand, hb]
  apply length_takeWhile_eq
  · intro i hi
    have := h i
    refine ⟨_, hslot i (Nat.lt_of_lt_of_le hi h.le), ?_⟩
    simp [this, hi]
  · intro op hop
    have hb : n < 6 := by
      have := (List.getElem?_eq_some_iff.mp hop).1
      simpa using this
    rw [hslot n hb] at hop
    cases hop
    simp [h n]

/-- An operand put into the first free slot fills it. -/
theorem push (h : insn.Filled n) (hn : n < 6) {op : Operand} (hop : op.isEmpty = false) :
    (insn.setOperand n op).Filled (n + 1) := by
  intro slot
  rw [operand_setOperand]
  by_cases hs : n = slot
  · subst hs
    simp [hn, hop]
  · rw [if_neg (fun hc => hs hc.1), h slot, decide_eq_decide]
    omega

/-- Replacing an operand by another fills the same slots. -/
theorem replace (h : insn.Filled n) {slot : Nat} (hs : slot < n) {op : Operand}
    (hop : op.isEmpty = false) : (insn.setOperand slot op).Filled n := by
  intro other
  rw [operand_setOperand]
  split
  next hc =>
    rw [hop, ← hc.1]
    simp [hs]
  next => exact h other

/-- Freeing the last operand leaves the others. -/
theorem pop (h : insn.Filled (n + 1)) : (insn.setOperand n {}).Filled n := by
  intro slot
  rw [operand_setOperand]
  by_cases hs : n = slot
  · subst hs
    simp [Nat.lt_of_succ_le h.le, Operand.isEmpty]
  · rw [if_neg (fun hc => hs hc.1), h slot, decide_eq_decide]
    omega

/-- A slot that is not empty is among the filled ones. -/
theorem lt_of_isEmpty_eq_false (h : insn.Filled n) {slot : Nat}
    (hs : (insn.operand slot).isEmpty = false) : slot < n := by
  rw [h slot, decide_eq_false_iff_not] at hs
  exact Nat.not_le.mp hs

/-- None of the filled slots is empty. -/
theorem isEmpty_of_lt (h : insn.Filled n) {slot : Nat} (hs : slot < n) :
    (insn.operand slot).isEmpty = false := by
  rw [h slot]
  simp [hs]

end Filled

end DspCode.Instruction
