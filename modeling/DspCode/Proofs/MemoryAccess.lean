import DspCode.Draft.Fields

/-!
# Single memory operands

A single memory operand is found in one way whatever its mode: some bytes after the code word are
read, none for most modes, and the number in them gives the operand. How many bytes are read does
not depend on the register context.
-/

namespace DspCode

/-- Reading bytes after the code word lengthens the draft by them, or fails at one of them. -/
theorem Draft.readMore_cases (d : Draft) (s : Surroundings) (value count : Nat) :
    (∃ v, d.readMore s value count =
        .ok (v, { d with insn := { d.insn with length := d.insn.length + count } })) ∨
      ∃ i, d.insn.length ≤ i ∧ i < d.insn.length + count ∧
        ∃ w, s.bytes i = .error w ∧ d.readMore s value count = .error (.ofWindow w) := by
  induction count generalizing d value with
  | zero => exact Or.inl ⟨value, rfl⟩
  | succ count ih =>
    unfold readMore
    cases hb : s.bytes d.insn.length with
    | error w => exact Or.inr ⟨d.insn.length, Nat.le_refl _, by omega, w, hb, rfl⟩
    | ok b =>
      obtain ⟨v, hv⟩ | ⟨i, hl, hu, w, hw, he⟩ :=
        ih { d with insn := { d.insn with length := d.insn.length + 1 } } (value * 256 + b.toNat)
      · refine Or.inl ⟨v, hv.trans ?_⟩
        simp only [Nat.add_assoc, Nat.add_comm 1 count]
      · exact Or.inr ⟨i, Nat.le_of_succ_le hl, by simp only at hu; omega, w, hw, he⟩

/-- Condition selectors name conditions. -/
theorem conditionOperand?_eq_some {selector : Nat} {value : OperandValue}
    (h : conditionOperand? selector = some value) : ∃ code r, value = .condition code r := by
  simp only [conditionOperand?] at h
  split at h
  · exact ⟨_, _, (Option.some.inj h).symm⟩
  · split at h
    · exact ⟨_, _, (Option.some.inj h).symm⟩
    · split at h
      · exact ⟨_, _, (Option.some.inj h).symm⟩
      · cases h

/-- Whether an operand is memory at an address or at a pointer. -/
def Operand.isMemory (op : Operand) : Bool :=
  match op.value with
  | .direct _ _ _ _ | .indirect _ _ => true
  | _ => false

/-- Memory is not an empty operand. -/
theorem Operand.isEmpty_of_isMemory {op : Operand} (h : op.isMemory = true) :
    op.isEmpty = false := by
  unfold isMemory at h
  unfold isEmpty
  split at h <;> simp_all

/-- How a single memory operand is found. -/
structure MemoryAccess where
  /-- How many bytes are read after the code word. -/
  count : Nat
  /-- The operand that the number in these bytes gives. -/
  operand : Nat → Operand

namespace MemoryAccess

/-- An operand that needs no further bytes. -/
def fixed (op : Operand) : MemoryAccess := ⟨0, fun _ => op⟩

/-- Memory at a pointer with a signed 16-bit distance. -/
def distant (base : RegisterId) (mode : Int → PointerMode) (width : DataWidth) : MemoryAccess :=
  ⟨2, fun v => indirectOperand base (mode (signedValue 16 v)) width⟩

/-- Memory at an address or at the coefficient pointer. -/
def absoluteOrCoefficient (selector : Nat) (width : DataWidth) : MemoryAccess :=
  let cdp := Register.cdp.id
  match selector with
  | 0 => ⟨2, fun v => directOperand v (some .dph) none .absolute16 width⟩
  | 1 => ⟨3, fun v => directOperand v none none .absolute width⟩
  | 2 => ⟨2, fun v => directOperand v none none .port width⟩
  | 3 => fixed (indirectOperand cdp .plain width)
  | 4 => fixed (indirectOperand cdp .postIncrement width)
  | 5 => fixed (indirectOperand cdp .postDecrement width)
  | 6 => distant cdp .offset width
  | _ => distant cdp .preOffset width

/-- Memory at a pointer in a mode that means the same in every context. -/
def pointer (base : RegisterId) (selector : Nat) (width : DataWidth) : MemoryAccess :=
  let t0 := Register.t0.id
  match selector with
  | 0 => fixed (indirectOperand base .plain width)
  | 1 => fixed (indirectOperand base .postIncrement width)
  | 2 => fixed (indirectOperand base .postDecrement width)
  | 3 => fixed (indirectOperand base (.postAdd t0) width)
  | 4 => fixed (indirectOperand base (.postSubtract t0) width)
  | 5 => fixed (indirectOperand base (.indexed t0) width)
  | 6 => distant base .offset width
  | _ => distant base .preOffset width

/-- The operand in the data page, or from the stack pointer when the stack mode is on. -/
def pageOrStack (cpl : Option UInt32) (offset : Nat) (width : DataWidth) : Operand :=
  if cpl.getD 0 = 0 then directOperand offset (some .dph) (some .dp) .page width
  else indirectOperand Register.sp.id (.offset (signedValue 32 offset)) width

/-- How the single memory operand with the value `v` is found, where `context` tells what registers
hold. -/
def of (context : Register → Option UInt32) (v : Nat) (width : DataWidth) (update : Bool) :
    MemoryAccess :=
  if v % 2 = 0 then fixed (pageOrStack (context .cpl) (v / 2) width)
  else if v % 32 = 0x11 then absoluteOrCoefficient (v / 32) width
  else
    let base := Register.ar0.offset (v / 32)
    if v / 16 % 2 = 0 then pointer base (v / 2 % 16) width
    else
      let short := !update && (context .arms).getD 0 != 0
      fixed (indirectOperand base (Draft.pointerMode short (v / 2 % 8)) width)

/-- Reads the bytes and adds the operand. -/
def push (m : MemoryAccess) (d : Draft) (s : Surroundings) : Except FieldError Draft :=
  d.trailing s m.count >>= fun r => r.2.pushMemory (m.operand r.1)

private theorem push_fixed (op : Operand) (d : Draft) (s : Surroundings) :
    (fixed op).push d s = d.pushMemory op := rfl

/-- An absolute address and the coefficient pointer are added as the access describes them. -/
theorem push_absoluteOrCoefficient (selector : Nat) (width : DataWidth) (d : Draft)
    (s : Surroundings) :
    (absoluteOrCoefficient selector width).push d s =
      d.pushAbsoluteOrCoefficient s selector width := by
  rcases selector with _ | _ | _ | _ | _ | _ | _ | _ <;> rfl

/-- A pointer is added as the access describes it. -/
theorem push_pointer (base : RegisterId) (selector : Nat) (width : DataWidth) (d : Draft)
    (s : Surroundings) :
    (pointer base selector width).push d s = d.pushPointer s base selector width := by
  rcases selector with _ | _ | _ | _ | _ | _ | _ | _ <;> rfl

/-- Adding a single memory operand reads some bytes and adds what they give. -/
theorem pushSingleMemory_eq (d : Draft) (s : Surroundings) (v : Nat) (width : DataWidth)
    (update : Bool) :
    d.pushSingleMemory s v width update = (of (d.contextOf s) v width update).push d s := by
  unfold Draft.pushSingleMemory of
  split
  · rw [push_fixed]
    unfold Draft.pushPageOrStack pageOrStack
    split <;> rfl
  · split
    · rw [push_absoluteOrCoefficient]
    · simp only
      split
      · rw [push_pointer]
      · rfl

private theorem operand_absoluteOrCoefficient (selector : Nat) (width : DataWidth) (number : Nat) :
    ((absoluteOrCoefficient selector width).operand number).isMemory = true := by
  unfold absoluteOrCoefficient
  split <;> rfl

private theorem operand_pointer (base : RegisterId) (selector : Nat) (width : DataWidth)
    (number : Nat) : ((pointer base selector width).operand number).isMemory = true := by
  unfold pointer
  split <;> rfl

/-- A single memory operand is memory. -/
theorem isMemory_of (context : Register → Option UInt32) (v : Nat) (width : DataWidth)
    (update : Bool) (number : Nat) :
    ((of context v width update).operand number).isMemory = true := by
  unfold of
  split
  · simp only [fixed, pageOrStack]
    split <;> rfl
  · split
    · exact operand_absoluteOrCoefficient _ width number
    · simp only
      split
      · exact operand_pointer _ _ width number
      · rfl

/-- At most three bytes are read after the code word. -/
theorem count_of_le (context : Register → Option UInt32) (v : Nat) (width : DataWidth)
    (update : Bool) : (of context v width update).count ≤ 3 := by
  unfold of
  split
  · simp [fixed]
  · split
    · unfold absoluteOrCoefficient
      split <;> simp [fixed, distant]
    · simp only
      split
      · unfold pointer
        split <;> simp [fixed, distant]
      · simp [fixed]

end MemoryAccess

end DspCode
