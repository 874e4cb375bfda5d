import DspCode.Proofs.Lengths

/-!
# Decoding in different addressing modes

The register context tells the addressing modes that are on. It decides between two readings of a
memory operand: an offset in the data page or from the stack pointer, and a pointer mode or a short
offset from the same pointer. Everything else about an instruction is settled by its bytes, its
length above all: whatever the context, the same qualifier bytes fit and the same bytes follow.
-/

namespace DspCode

/-- Two outcomes that fail alike or succeed with related results. -/
inductive SameOutcome {ε α : Type} (T : α → α → Prop) : Except ε α → Except ε α → Prop where
  /-- Both succeed. -/
  | ok {x y : α} (h : T x y) : SameOutcome T (.ok x) (.ok y)
  /-- Both fail. -/
  | error (e : ε) : SameOutcome T (.error e) (.error e)

namespace SameOutcome

variable {ε α β : Type} {T : α → α → Prop} {U : β → β → Prop} {x y : Except ε α}

/-- Outcomes stay the same along a computation whose steps keep results related. -/
theorem bind (h : SameOutcome T x y) {f g : α → Except ε β}
    (hf : ∀ a b, T a b → SameOutcome U (f a) (g b)) : SameOutcome U (x >>= f) (y >>= g) := by
  cases h with
  | ok h => exact hf _ _ h
  | error e => exact .error e

/-- Outcomes stay the same under functions that keep results related. -/
theorem map (h : SameOutcome T x y) {f g : α → β} (hf : ∀ a b, T a b → U (f a) (g b)) :
    SameOutcome U (x.map f) (y.map g) := by
  cases h with
  | ok h => exact .ok (hf _ _ h)
  | error e => exact .error e

end SameOutcome

/-- Whether a value is an offset in the data page or from the stack pointer. -/
def OperandValue.isPageOrStack : OperandValue → Bool
  | .direct _ high page .page => high == some Register.dph.id && page == some Register.dp.id
  | .indirect base (.offset _) => base == Register.sp.id
  | _ => false

/-- What is read by the stack mode is an offset on the data page or an offset from the stack
pointer. -/
theorem OperandValue.exists_of_isPageOrStack {v : OperandValue} (h : v.isPageOrStack = true) :
    (∃ address, v = .direct address (some Register.dph.id) (some Register.dp.id) .page) ∨
      ∃ places, v = .indirect Register.sp.id (.offset places) := by
  unfold isPageOrStack at h
  split at h
  next =>
    rw [Bool.and_eq_true, beq_iff_eq, beq_iff_eq] at h
    obtain ⟨rfl, rfl⟩ := h
    exact Or.inl ⟨_, rfl⟩
  next =>
    cases beq_iff_eq.mp h
    exact Or.inr ⟨_, rfl⟩
  next => cases h

/-- Two readings of one memory value in different contexts. -/
inductive OperandValue.Variant : OperandValue → OperandValue → Prop where
  /-- Most values are read in one way only. -/
  | same (v : OperandValue) : Variant v v
  /-- An offset counts from the data page or from the stack pointer. -/
  | page {v v' : OperandValue} (h : v.isPageOrStack = true) (h' : v'.isPageOrStack = true) :
      Variant v v'
  /-- A pointer is used in one of two modes, neither of them with a long offset. -/
  | pointer {base : RegisterId} {mode mode' : PointerMode} (h : ∀ places, mode ≠ .offset places)
      (h' : ∀ places, mode' ≠ .offset places) : Variant (.indirect base mode) (.indirect base mode')

/-- Two operands that differ at most in the reading of a memory value. -/
structure Operand.Alike (op op' : Operand) : Prop where
  /-- All but the value is the same. -/
  frame : op' = { op with value := op'.value }
  /-- The values are readings of one memory value. -/
  value : op.value.Variant op'.value

namespace Operand

/-- An operand is like itself. -/
theorem Alike.refl (op : Operand) : op.Alike op := ⟨rfl, .same _⟩

private theorem isMemory_of_isPageOrStack {op : Operand} (h : op.value.isPageOrStack = true) :
    op.isMemory = true := by
  obtain ⟨address, hv⟩ | ⟨places, hv⟩ := OperandValue.exists_of_isPageOrStack h
  · rw [isMemory, hv]
  · rw [isMemory, hv]

/-- An operand is the same as another, or both are memory. -/
theorem Alike.eq_or_isMemory {op op' : Operand} (h : op.Alike op') :
    op' = op ∨ op.isMemory = true ∧ op'.isMemory = true := by
  obtain ⟨hframe, hvalue⟩ := h
  obtain ⟨v, width, role, operators, suffix⟩ := op
  obtain ⟨v', width', role', operators', suffix'⟩ := op'
  cases hvalue with
  | same => exact Or.inl hframe
  | page h h' => exact Or.inr ⟨isMemory_of_isPageOrStack h, isMemory_of_isPageOrStack h'⟩
  | pointer => exact Or.inr ⟨rfl, rfl⟩

/-- Neither reading of a memory value leaves its slot empty. -/
theorem isEmpty_of_alike {op op' : Operand} (h : op.Alike op') : op'.isEmpty = op.isEmpty := by
  obtain rfl | ⟨hm, hm'⟩ := h.eq_or_isMemory
  · rfl
  · rw [isEmpty_of_isMemory hm, isEmpty_of_isMemory hm']

/-- Memory is no register. -/
theorem register?_of_isMemory {op : Operand} (h : op.isMemory = true) : op.register? = none := by
  unfold isMemory at h
  unfold register?
  split at h <;> simp_all

/-- Memory is no constant. -/
theorem constant?_of_isMemory {op : Operand} (h : op.isMemory = true) : op.constant? = none := by
  unfold isMemory at h
  unfold constant?
  split at h <;> simp_all

/-- Operands that differ in the reading of a memory value at most are the same register, if they are
any. -/
theorem Alike.register? {op op' : Operand} (h : op.Alike op') : op'.register? = op.register? := by
  obtain rfl | ⟨hm, hm'⟩ := h.eq_or_isMemory
  · rfl
  · rw [register?_of_isMemory hm, register?_of_isMemory hm']

/-- Operands that differ in the reading of a memory value at most are the same constant, if they are
any. -/
theorem Alike.constant? {op op' : Operand} (h : op.Alike op') : op'.constant? = op.constant? := by
  obtain rfl | ⟨hm, hm'⟩ := h.eq_or_isMemory
  · rfl
  · rw [constant?_of_isMemory hm, constant?_of_isMemory hm']

/-- Both readings of a memory value access data of one width. -/
theorem Alike.width {op op' : Operand} (h : op.Alike op') : op'.width = op.width := by
  rw [h.frame]

end Operand

namespace MemoryAccess

/-- An offset on the data page and one from the stack pointer are two readings of one memory value.
-/
theorem alike_pageOrStack (cpl cpl' : Option UInt32) (offset : Nat) (width : DataWidth) :
    (pageOrStack cpl offset width).Alike (pageOrStack cpl' offset width) := by
  have hpage : ∀ cpl, (pageOrStack cpl offset width).value.isPageOrStack = true := by
    intro cpl
    unfold pageOrStack
    split <;> rfl
  have hframe : ∀ cpl,
      pageOrStack cpl offset width = .of (pageOrStack cpl offset width).value width := by
    intro cpl
    unfold pageOrStack
    split <;> rfl
  refine ⟨?_, .page (hpage cpl) (hpage cpl')⟩
  rw [hframe cpl, hframe cpl']
  rfl

/-- No mode of a pointer register is the fixed offset by which the stack is accessed. -/
theorem pointerMode_ne_offset (short : Bool) (selector : Nat) (places : Int) :
    Draft.pointerMode short selector ≠ .offset places := by
  unfold Draft.pointerMode
  split
  · simp
  · split <;> simp

/-- In two contexts a memory operand is given by two readings of one value. -/
theorem alike_of (context context' : Register → Option UInt32) (v : Nat) (width : DataWidth)
    (update : Bool) (number : Nat) :
    ((of context v width update).operand number).Alike
      ((of context' v width update).operand number) := by
  unfold of
  split
  · exact alike_pageOrStack _ _ _ width
  · split
    · exact .refl _
    · simp only
      split
      · exact .refl _
      · exact ⟨rfl, .pointer (pointerMode_ne_offset _ _) (pointerMode_ne_offset _ _)⟩

end MemoryAccess

namespace Instruction

/-- `j` is `i` with another operand in the memory slot, related by `R` to the one in `i`. -/
structure Agree (R : Operand → Operand → Prop) (i j : Instruction) : Prop where
  /-- All but the operands is the same. -/
  frame : j = { i with operands := j.operands }
  /-- The operands in the other slots are the same. -/
  other : ∀ slot, i.memorySlot ≠ some slot → j.operand slot = i.operand slot
  /-- The operands in the memory slot are related. -/
  memory : ∀ slot, i.memorySlot = some slot → R (i.operand slot) (j.operand slot)

/-- The instructions differ at most in the operand in the memory slot. -/
structure SameBesideMemory (i j : Instruction) : Prop where
  address : j.address = i.address
  length : j.length = i.length
  kind : j.kind = i.kind
  marks : j.marks = i.marks
  grouping : j.grouping = i.grouping
  memorySlot : j.memorySlot = i.memorySlot
  /-- The operands in the other slots are the same. -/
  operand : ∀ slot, i.memorySlot ≠ some slot → j.operand slot = i.operand slot

namespace Agree

variable {R S : Operand → Operand → Prop} {i j : Instruction}

private theorem refl (hR : ∀ op, R op op) (i : Instruction) : Agree R i i :=
  ⟨rfl, fun _ _ => rfl, fun _ _ => hR _⟩

/-- Instructions agree by every weaker relation of their memory operands. -/
theorem mono (hRS : ∀ op op', R op op' → S op op') (h : Agree R i j) : Agree S i j :=
  ⟨h.frame, h.other, fun slot hs => hRS _ _ (h.memory slot hs)⟩

/-- Instructions that agree start at the same address. -/
theorem address (h : Agree R i j) : j.address = i.address := by rw [h.frame]

/-- Instructions that agree have the same length. -/
theorem length (h : Agree R i j) : j.length = i.length := by rw [h.frame]

/-- Instructions that agree are of the same kind. -/
theorem kind (h : Agree R i j) : j.kind = i.kind := by rw [h.frame]

/-- Instructions that agree carry the same marks. -/
theorem marks (h : Agree R i j) : j.marks = i.marks := by rw [h.frame]

/-- Instructions that agree group their operands alike. -/
theorem grouping (h : Agree R i j) : j.grouping = i.grouping := by rw [h.frame]

/-- Instructions that agree have memory in the same slot. -/
theorem memorySlot (h : Agree R i j) : j.memorySlot = i.memorySlot := by rw [h.frame]

/-- Instructions that agree end at the same address. -/
theorem limit (h : Agree R i j) : j.limit = i.limit := by
  rw [Instruction.limit, Instruction.limit, h.address, h.length]

/-- The operands in every slot are related, if equal operands are. -/
theorem operand (hR : ∀ op, R op op) (h : Agree R i j) (slot : Nat) :
    R (i.operand slot) (j.operand slot) := by
  by_cases hs : i.memorySlot = some slot
  · exact h.memory slot hs
  · rw [h.other slot hs]
    exact hR _

/-- A change that neither sees nor touches the operands and the memory slot. -/
theorem map (h : Agree R i j) (f : Instruction → Instruction)
    (hoperands : ∀ insn, (f insn).operands = insn.operands)
    (hslot : ∀ insn, (f insn).memorySlot = insn.memorySlot)
    (hframe : ∀ insn operands, f { insn with operands } = { f insn with operands }) :
    Agree R (f i) (f j) := by
  have hoperand : ∀ insn slot, (f insn).operand slot = insn.operand slot := by
    intro insn slot
    simp only [Instruction.operand, hoperands]
  refine ⟨?_, fun slot hs => ?_, fun slot hs => ?_⟩
  · rw [hoperands, ← hframe, ← h.frame]
  · rw [hoperand, hoperand]
    exact h.other slot (hslot i ▸ hs)
  · rw [hoperand, hoperand]
    exact h.memory slot (hslot i ▸ hs)

/-- Two instructions that agree are renamed alike. -/
theorem withKind (h : Agree R i j) (kind : Kind) : Agree R { i with kind } { j with kind } :=
  h.map (fun insn => { insn with kind }) (fun _ => rfl) (fun _ => rfl) fun _ _ => rfl

/-- Two instructions that agree are lengthened alike. -/
theorem withLength (h : Agree R i j) (length : Nat) :
    Agree R { i with length } { j with length } :=
  h.map (fun insn => { insn with length }) (fun _ => rfl) (fun _ => rfl) fun _ _ => rfl

/-- Two instructions that agree are marked alike. -/
theorem withMarks (h : Agree R i j) (marks : Marks → Marks) :
    Agree R { i with marks := marks i.marks } { j with marks := marks j.marks } :=
  h.map (fun insn => { insn with marks := marks insn.marks }) (fun _ => rfl) (fun _ => rfl)
    fun _ _ => rfl

private theorem withSplit (h : Agree R i j) (slot : Nat) :
    Agree R (i.withSplit slot) (j.withSplit slot) :=
  h.map (·.withSplit slot) (fun _ => rfl) (fun _ => rfl) fun _ _ => rfl

/-- Two instructions that agree become the same half of a pair. -/
theorem withHalf (h : Agree R i j) (half : Half) : Agree R (i.withHalf half) (j.withHalf half) :=
  h.map (·.withHalf half) (fun _ => rfl) (fun _ => rfl) fun _ _ => rfl

/-- Other operands in the same slot keep the agreement, if they are the same or the slot is that of
the memory operand. -/
theorem setOperand (h : Agree R i j) {slot : Nat} {op op' : Operand} (hR : R op op')
    (heq : i.memorySlot ≠ some slot → op' = op) :
    Agree R (i.setOperand slot op) (j.setOperand slot op') := by
  refine ⟨?_, fun other hother => ?_, fun other hother => ?_⟩
  · rw [h.frame]
    rfl
  · rw [operand_setOperand, operand_setOperand]
    split
    next hc => exact heq (hc.1 ▸ hother)
    next => exact h.other other hother
  · rw [operand_setOperand, operand_setOperand]
    split
    · exact hR
    · exact h.memory other hother

/-- One instruction with related operands in what becomes its memory slot. -/
theorem of_memory (insn : Instruction) {slot : Nat} (hslot : slot < 6) {op op' : Operand}
    (hR : R op op') :
    Agree R { insn.setOperand slot op with memorySlot := some slot }
      { insn.setOperand slot op' with memorySlot := some slot } := by
  have hset : ∀ op other, ({ insn.setOperand slot op with memorySlot := some slot } :
      Instruction).operand other = if slot = other ∧ slot < 6 then op else insn.operand other :=
    fun op other => operand_setOperand insn slot other op
  refine ⟨rfl, fun other hother => ?_, fun other hother => ?_⟩
  · have hne : ¬(slot = other ∧ slot < 6) := fun h => hother (congrArg some h.1)
    rw [hset, hset, if_neg hne, if_neg hne]
  · cases hother
    rwa [hset, hset, if_pos ⟨rfl, hslot⟩, if_pos ⟨rfl, hslot⟩]

/-- As many slots are filled. -/
theorem operandCount (hR : ∀ op op', R op op' → op'.isEmpty = op.isEmpty) (h : Agree R i j) :
    j.operandCount = i.operandCount := by
  have hempty : ∀ slot (hs : slot < 6), j.operands[slot].isEmpty = i.operands[slot].isEmpty := by
    intro slot hs
    have hj : j.operand slot = j.operands[slot] := by simp [Instruction.operand, hs]
    have hi : i.operand slot = i.operands[slot] := by simp [Instruction.operand, hs]
    rw [← hj, ← hi]
    by_cases hm : i.memorySlot = some slot
    · exact hR _ _ (h.memory slot hm)
    · rw [h.other slot hm]
  have hmap : j.operands.toList.map Operand.isEmpty = i.operands.toList.map Operand.isEmpty := by
    apply List.ext_getElem
    · simp
    · intro slot hs _
      simpa using hempty slot (by simpa using hs)
  have hcount : ∀ insn : Instruction, insn.operandCount =
      ((insn.operands.toList.map Operand.isEmpty).takeWhile (!·)).length := by
    intro insn
    rw [List.takeWhile_map, List.length_map]
    rfl
  rw [hcount, hcount, hmap]

end Agree

end Instruction

/-- Whether the register context has a say in what a field contributes. -/
def Field.usesContext : Field → Bool
  | .smem | .lmem | .pointerUpdate | .bitAddress => true
  | _ => false

/-- The same surroundings in another register context. -/
def Surroundings.withContext (s : Surroundings) (context : Address → RegisterId → Option UInt32) :
    Surroundings :=
  { s with context }

namespace Draft

/-- Two drafts that differ at most in the reading of their memory operand. -/
structure Alike (d e : Draft) : Prop where
  /-- The instructions so far agree. -/
  insn : Instruction.Agree Operand.Alike d.insn e.insn
  /-- Optional operands are compared with the same slot. -/
  compared : e.compared = d.compared

private theorem Alike.refl (d : Draft) : d.Alike d := ⟨.refl Operand.Alike.refl d.insn, rfl⟩

section Steps

variable {d e : Draft} (h : d.Alike e) (s : Surroundings)
  (context : Address → RegisterId → Option UInt32)
include h

/-- Drafts that are alike have as many operands so far. -/
theorem Alike.operandCount : e.insn.operandCount = d.insn.operandCount :=
  h.insn.operandCount fun _ _ => Operand.isEmpty_of_alike

/-- Drafts stay alike when the same operand is put into the same slot. -/
theorem Alike.setOperand (slot : Nat) (op : Operand) (compared : Option Nat) :
    Alike ⟨d.insn.setOperand slot op, compared⟩ ⟨e.insn.setOperand slot op, compared⟩ :=
  ⟨h.insn.setOperand (.refl op) fun _ => rfl, rfl⟩

/-- The same operand is added to both drafts, or there is no room for it in either. -/
theorem push_alike (op : Operand) : SameOutcome Alike (d.push op) (e.push op) := by
  unfold push
  rw [h.operandCount, h.compared]
  simp only
  split
  · exact .ok (h.setOperand _ op _)
  · exact .error _

private theorem put_alike (slot : Nat) (op : Operand) :
    SameOutcome Alike (d.put slot op) (e.put slot op) := by
  unfold put
  rw [h.compared]
  split
  · exact .ok (h.setOperand slot op _)
  · exact .error _

/-- The same operand is added to both drafts as one that a later operand is compared with. -/
theorem pushCompared_alike (op : Operand) :
    SameOutcome Alike (d.pushCompared op) (e.pushCompared op) := by
  unfold pushCompared
  rw [h.operandCount]
  exact (push_alike h op).map fun _ _ hd => ⟨hd.insn, rfl⟩

private theorem Alike.withKind (kind : Kind) : (d.withKind kind).Alike (e.withKind kind) :=
  ⟨h.insn.withKind kind, h.compared⟩

/-- An optional register is compared with a register or with memory, in both drafts alike. -/
theorem pushOptional_alike (op : Operand) :
    SameOutcome Alike (d.pushOptional op) (e.pushOptional op) := by
  have hrepeats : e.repeats op = d.repeats op := by
    unfold repeats
    rw [h.compared]
    split
    next slot id _ _ =>
      rw [(h.insn.operand Operand.Alike.refl slot).register?]
    next => rfl
  unfold pushOptional
  rw [hrepeats]
  split
  · exact .ok h
  · refine (push_alike h op).bind fun d' e' hd => .ok ⟨?_, rfl⟩
    change Instruction.Agree _ _ (e'.withKind (e'.insn.kind + 1)).insn
    rw [hd.insn.kind]
    exact (hd.withKind _).insn

/-- A change of the last operand that treats the readings of a memory value alike. -/
theorem Alike.modifyLast {f : Operand → Operand}
    (hf : ∀ op op' : Operand, op.Alike op' → (f op).Alike (f op')) :
    (d.modifyLast f).Alike (e.modifyLast f) := by
  unfold Draft.modifyLast
  rw [h.operandCount]
  split
  · exact h
  next slot _ =>
    refine ⟨h.insn.setOperand (hf _ _ (h.insn.operand Operand.Alike.refl slot)) fun hs => ?_,
      h.compared⟩
    rw [h.insn.other slot hs]

/-- A change of the last operand that neither sees nor touches its value. -/
theorem Alike.modifyLast_of_frame {f : Operand → Operand} (hvalue : ∀ op, (f op).value = op.value)
    (hframe : ∀ op v, f { op with value := v } = { f op with value := v }) :
    (d.modifyLast f).Alike (e.modifyLast f) := by
  refine h.modifyLast fun op op' hop => ⟨?_, ?_⟩
  · rw [hvalue, ← hframe, ← hop.frame]
  · rw [hvalue, hvalue]
    exact hop.value

/-- A change of the last operand that leaves memory as it is. -/
theorem Alike.modifyLast_of_fixed {f : Operand → Operand}
    (hf : ∀ op : Operand, op.isMemory = true → f op = op) :
    (d.modifyLast f).Alike (e.modifyLast f) := by
  refine h.modifyLast fun op op' hop => ?_
  obtain rfl | ⟨hm, hm'⟩ := hop.eq_or_isMemory
  · exact .refl _
  · rw [hf op hm, hf op' hm']
    exact hop

private theorem withSuffix_alike (suffix : Suffix) :
    (d.withSuffix suffix).Alike (e.withSuffix suffix) :=
  h.modifyLast_of_frame (fun _ => rfl) fun _ _ => rfl

private theorem withRelation_alike (relation : Relation) :
    (d.withRelation relation).Alike (e.withRelation relation) :=
  h.modifyLast_of_fixed fun op hm => by
    unfold Operand.isMemory at hm
    split at hm <;> simp_all

private theorem withComparand_alike (right : Comparand) :
    (d.withComparand right).Alike (e.withComparand right) :=
  h.modifyLast_of_fixed fun op hm => by
    unfold Operand.isMemory at hm
    split at hm <;> simp_all

private theorem compareWithLast_alike : d.compareWithLast.Alike e.compareWithLast := by
  unfold compareWithLast
  rw [h.operandCount]
  split
  · exact h
  · exact ⟨h.insn, rfl⟩

/-- A renaming finds the same mnemonic in both drafts, or fails in both. -/
theorem rename_alike (mnemonics : Array Mnemonic) (r : Renaming) :
    SameOutcome Alike (d.rename mnemonics r) (e.rename mnemonics r) := by
  unfold rename
  rw [h.insn.kind]
  split
  · exact .ok (h.withKind _)
  · exact .error _

private theorem split_alike : d.split.Alike e.split := by
  unfold split
  rw [h.operandCount]
  exact ⟨h.insn.withSplit _, h.compared⟩

private theorem parallelMark_alike :
    Alike { d with insn := { d.insn with marks := { d.insn.marks with parallel := true } } }
      { e with insn := { e.insn with marks := { e.insn.marks with parallel := true } } } :=
  ⟨h.insn.withMarks fun marks => { marks with parallel := true }, h.compared⟩

/-- The same bytes are read after the code word. -/
theorem readMore_alike (value count : Nat) :
    SameOutcome (fun r r' => r'.1 = r.1 ∧ r.2.Alike r'.2) (d.readMore s value count)
      (e.readMore (s.withContext context) value count) := by
  induction count generalizing d e value with
  | zero => exact .ok ⟨rfl, h⟩
  | succ count ih =>
    unfold readMore
    rw [h.insn.length]
    simp only [Surroundings.withContext]
    split
    · exact .error _
    next b _ =>
      have hlonger : Alike { d with insn := { d.insn with length := d.insn.length + 1 } }
          { e with insn := { e.insn with length := d.insn.length + 1 } } :=
        ⟨h.insn.withLength _, h.compared⟩
      exact ih hlonger (value * 256 + b.toNat)

private theorem pushCondition_alike (selector : Nat) :
    SameOutcome Alike (d.pushCondition selector) (e.pushCondition selector) := by
  unfold pushCondition
  split
  · exact .ok (h.withKind 0)
  · simp only
    split
    · exact pushCompared_alike h _
    · exact push_alike h _

private theorem pushSwap_alike (selector : Nat) :
    SameOutcome Alike (d.pushSwap s selector) (e.pushSwap (s.withContext context) selector) := by
  unfold pushSwap
  split
  · exact .ok (h.withKind 0)
  next a b request hs =>
    have hput : ∀ {d e : Draft}, d.Alike e → SameOutcome Alike
        (d.put 0 (.ofRegister a.id) >>= fun d => d.put 1 (.ofRegister b.id))
        (e.put 0 (.ofRegister a.id) >>= fun e => e.put 1 (.ofRegister b.id)) :=
      fun h => (put_alike h 0 _).bind fun _ _ hd => put_alike hd 1 _
    cases request with
    | none => exact hput h
    | some r => exact (rename_alike h s.mnemonics r.renaming).bind fun _ _ hd => hput hd

/-- A code target at a distance counts from the same address. -/
theorem relativeTarget_alike (distance : Int) :
    e.relativeTarget (s.withContext context) distance = d.relativeTarget s distance := by
  unfold relativeTarget
  rw [h.insn.address, h.insn.length]
  rfl

/-- A field without a say of the context keeps drafts alike. -/
theorem contribute_alike {field : Field} (hf : field.usesContext = false) (v : Nat) :
    SameOutcome Alike (d.contribute s field v) (e.contribute (s.withContext context) field v) := by
  cases field with
  | smem | lmem | pointerUpdate | bitAddress => cases hf
  | unsignedByte | unsignedWord | signedByte | signedWord | negatedByte | one | minusOne
  | temporary | testControl | transition | status | extended | carryOrTest | fixed | xmem | cmem
  | dataAddress | shiftAmount => exact push_alike h _
  | source => exact pushCompared_alike h _
  | optionalSource => exact pushOptional_alike h _
  | wrap operators =>
    simp only [contribute]
    split
    · exact .ok (h.modifyLast_of_frame (fun _ => rfl) fun _ _ => rfl)
    · exact .ok h
  | shiftSigned | shiftSignedOutside | shiftLeft | shiftByTemporary | shiftByT2 | shiftLeft16
  | shiftRight | equalsWord | notZero => exact .ok (withSuffix_alike h _)
  | relation => exact .ok (withRelation_alike h _)
  | relationRegister => exact .ok (compareWithLast_alike (withComparand_alike h _))
  | relationByte => exact .ok (withComparand_alike h _)
  | rename request =>
    simp only [contribute]
    split
    · exact rename_alike h _ _
    · exact .ok h
  | parallelMark => exact .ok (parallelMark_alike h)
  | split => exact .ok (split_alike h)
  | swapPair => exact pushSwap_alike h s context v
  | condition => exact pushCondition_alike h v
  | forward | relative =>
    simp only [contribute, relativeTarget_alike h s context]
    exact push_alike h _
  | absoluteTarget =>
    refine (readMore_alike h s context 0 3).bind fun r r' hr => ?_
    obtain ⟨hnumber, hdraft⟩ := hr
    simp only [hnumber]
    exact push_alike hdraft _

end Steps

section OneMemory

variable (d : Draft) (s : Surroundings) (context : Address → RegisterId → Option UInt32)

/-- Two readings of one memory value, added to the same draft. -/
theorem pushMemory_alike {op op' : Operand} (hop : op.Alike op') :
    SameOutcome Alike (d.pushMemory op) (d.pushMemory op') := by
  unfold pushMemory push
  simp only
  split
  next hfree => exact .ok ⟨.of_memory d.insn hfree hop, rfl⟩
  next => exact .error _

/-- Which bytes are read after the code word does not depend on the context. -/
theorem readMore_withContext (value count : Nat) :
    d.readMore (s.withContext context) value count = d.readMore s value count := by
  induction count generalizing d value with
  | zero => rfl
  | succ count ih =>
    unfold readMore
    simp only [ih]
    rfl

/-- In two contexts the same bytes give two readings of one memory value. -/
theorem pushSingleMemory_alike (v : Nat) (width : DataWidth) (update : Bool) :
    SameOutcome Alike (d.pushSingleMemory s v width update)
      (d.pushSingleMemory (s.withContext context) v width update) := by
  rw [MemoryAccess.pushSingleMemory_eq, MemoryAccess.pushSingleMemory_eq]
  unfold MemoryAccess.push trailing
  rw [MemoryAccess.count_of, MemoryAccess.count_of, readMore_withContext]
  cases d.readMore s 0 (MemoryAccess.bytesAfter v) with
  | error e => exact .error e
  | ok r => exact pushMemory_alike r.2 (MemoryAccess.alike_of _ _ v width update r.1)

/-- In two contexts a field contributes two readings of one memory value, or the same. -/
theorem contribute_withContext (field : Field) (v : Nat) :
    SameOutcome Alike (d.contribute s field v) (d.contribute (s.withContext context) field v) := by
  cases field with
  | smem | lmem | pointerUpdate => exact pushSingleMemory_alike d s context v _ _
  | bitAddress =>
    simp only [contribute]
    split
    · exact push_alike (.refl d) _
    · exact pushSingleMemory_alike d s context v _ _
  | _ => exact contribute_alike (.refl d) s context rfl v

/-- A field without a say of the context contributes the same in every context. -/
theorem contribute_of_not_usesContext {field : Field} (hf : field.usesContext = false) (v : Nat) :
    d.contribute (s.withContext context) field v = d.contribute s field v := by
  cases field with
  | smem | lmem | pointerUpdate | bitAddress => cases hf
  | _ => rfl

end OneMemory

section AllFields

variable (s : Surroundings) (context : Address → RegisterId → Option UInt32) (word : Nat)

/-- Instructions that differ at most in the reading of their memory operand; or none. -/
abbrev AlikeResults : Option Instruction → Option Instruction → Prop :=
  Option.Rel (Instruction.Agree Operand.Alike)

/-- After the memory operand, the fields keep drafts alike. -/
theorem contributeAll_alike {d e : Draft} (h : d.Alike e) {fields : List FieldUse}
    (hf : ∀ use ∈ fields, use.field.usesContext = false) :
    SameOutcome AlikeResults (d.contributeAll s word fields)
      (e.contributeAll (s.withContext context) word fields) := by
  induction fields generalizing d e with
  | nil => exact .ok (.some h.insn)
  | cons use rest ih =>
    obtain ⟨huse, hrest⟩ := List.forall_mem_cons.mp hf
    refine (contribute_alike h s context huse _).bind fun d' e' h' => ?_
    rw [h'.insn.kind]
    split
    · exact .ok .none
    · exact ih h' hrest

/-- In two contexts the fields of an encoding give two readings of one memory value, if at most one
of them looks at the context. -/
theorem contributeAll_withContext (d : Draft) {fields : List FieldUse}
    (hf : fields.countP (·.field.usesContext) ≤ 1) :
    SameOutcome AlikeResults (d.contributeAll s word fields)
      (d.contributeAll (s.withContext context) word fields) := by
  induction fields generalizing d with
  | nil => exact .ok (.some (.refl Operand.Alike.refl d.insn))
  | cons use rest ih =>
    unfold contributeAll
    cases huse : use.field.usesContext with
    | true =>
      rw [List.countP_cons, if_pos huse] at hf
      have hrest : ∀ other ∈ rest, other.field.usesContext = false := by
        simpa [List.countP_eq_zero] using Nat.le_of_succ_le_succ hf
      refine (contribute_withContext d s context _ _).bind fun d' e' h' => ?_
      rw [h'.insn.kind]
      split
      · exact .ok .none
      · exact contributeAll_alike s context word h' hrest
    | false =>
      rw [List.countP_cons, if_neg (by rw [huse]; decide)] at hf
      rw [contribute_of_not_usesContext d s context huse]
      cases d.contribute s use.field (use.selector.select word) with
      | error e => exact .error e
      | ok d' =>
        simp only [bind, Except.bind]
        split
        · exact .ok .none
        · exact ih d' hf

end AllFields

end Draft

/-- At most one field of a row looks at the register context. -/
theorem Encoding.countP_usesContext_le :
    ∀ row ∈ Encoding.table, row.fields.countP (·.field.usesContext) ≤ 1 := by decide +kernel

end DspCode
