import DspCode.Proofs.Lookahead

/-!
# The shape of decoded instructions

What is done to an instruction after its row was matched changes little: a status bit is named, a
qualifier byte changes the memory operand, marks and roles are set. A property that all of this
keeps holds of every decoded instruction if it holds of the matched ones. One such property is the
shape of an instruction: its kind, the number of its operands and the start of its second line.
Main statement: a decoded instruction has the shape of an outline that fits the mnemonic of its
kind.
-/

namespace DspCode

namespace Instruction

variable (insn : Instruction)

/-- Roles are given to the operands before the first free slot and change nothing else. -/
theorem operand_withRoles (usage : Usage) (slot : Nat) :
    (insn.withRoles usage).operand slot =
      if slot < insn.operandCount then
        { insn.operand slot with role := roleOf usage slot (insn.operand slot).value }
      else insn.operand slot := by
  have hcount : insn.operandCount ≤ 6 := by
    have := (List.takeWhile_sublist (!·.isEmpty) (l := insn.operands.toList)).length_le
    rwa [Vector.length_toList] at this
  simp only [operand, withRoles, Vector.getElem?_mapIdx]
  by_cases hslot : slot < 6
  · rw [Vector.getElem?_eq_getElem hslot]
    split <;> simp_all
  · rw [Vector.getElem?_eq_none (Nat.not_lt.mp hslot), if_neg (by omega)]
    rfl

@[simp] theorem isEmpty_operand_withRoles (usage : Usage) (slot : Nat) :
    ((insn.withRoles usage).operand slot).isEmpty = (insn.operand slot).isEmpty := by
  rw [operand_withRoles]
  split <;> rfl

@[simp] theorem split?_withHalf (half : Half) : (insn.withHalf half).split? = insn.split? := by
  simp only [split?, withHalf, Option.bind_some]
  cases insn.grouping <;> rfl

end Instruction

/-- What a qualifier byte may put in the place of a memory operand. -/
def Qualifier.Replaces (op op' : Operand) : Prop :=
  mappedOperand? op = some op' ∨ portOperand? op = some op'

/-- A memory operand keeps the text after it and gets an address, or it keeps its value. -/
theorem Qualifier.Replaces.cases {op op' : Operand} (h : Replaces op op') :
    op.isEmpty = false ∧ op'.suffix = op.suffix ∧
      ((∃ address high page form, op'.value = .direct address high page form) ∨
        op'.value = op.value) := by
  unfold Operand.isEmpty
  rcases h with h | h
  · unfold mappedOperand? at h
    split at h
    next hv =>
      split at h
      · cases h
        exact ⟨by rw [hv], rfl, Or.inl ⟨_, _, _, _, rfl⟩⟩
      · cases h
    next hv =>
      split at h
      · cases h
        exact ⟨by rw [hv], rfl, Or.inl ⟨_, _, _, _, rfl⟩⟩
      · cases h
    next => cases h
  · unfold portOperand? at h
    split at h
    next hv =>
      split at h
      · cases h
      · cases h
        exact ⟨by rw [hv], rfl, Or.inl ⟨_, _, _, _, rfl⟩⟩
    next hv =>
      cases h
      exact ⟨by rw [hv], rfl, Or.inr rfl⟩
    next hv =>
      cases h
      exact ⟨by rw [hv], rfl, Or.inr rfl⟩
    next => cases h

/-- Memory operands are replaced by operands. -/
theorem Qualifier.Replaces.isEmpty {op op' : Operand} (h : Replaces op op') :
    op.isEmpty = false ∧ op'.isEmpty = false := by
  obtain ⟨hempty, -, ⟨address, high, page, form, hv⟩ | hv⟩ := h.cases
  · exact ⟨hempty, by rw [Operand.isEmpty, hv]⟩
  · exact ⟨hempty, by rw [Operand.isEmpty, hv]; exact hempty⟩

namespace Machine

/-- A property of instructions that nothing done after a match destroys, the naming of status bits
apart. -/
structure Lasting (P : Instruction → Prop) : Prop where
  /-- The instruction is marked. -/
  marks : ∀ {insn} (marks : Marks), P insn → P { insn with marks }
  /-- A qualifier byte is taken in. -/
  length : ∀ {insn}, P insn → P { insn with length := insn.length + 1 }
  /-- The memory operand is qualified. -/
  qualified : ∀ {insn slot op'}, Qualifier.Replaces (insn.operand slot) op' → P insn →
    P (insn.setOperand slot op')
  /-- The place in a packed pair is recorded. -/
  withHalf : ∀ {insn} (half : Half), P insn → P (insn.withHalf half)
  /-- The operands are given roles. -/
  withRoles : ∀ {insn} (usage : Usage), P insn → P (insn.withRoles usage)

namespace Lasting

variable {P : Instruction → Prop} (hP : Lasting P) {insn : Instruction}
include hP

private theorem withParallel (h : P insn) (parallel : Bool) : P (insn.withParallel parallel) := by
  cases parallel with
  | false => exact h
  | true => exact hP.marks _ h

/-- A lasting property survives a change of the memory operand that a qualifier may make. -/
theorem onMemory? (h : P insn) {f : Operand → Option Operand}
    (hf : ∀ {op op'}, f op = some op' → Qualifier.Replaces op op') {insn' : Instruction}
    (hq : Qualifier.onMemory? insn f = some insn') : P insn' := by
  obtain ⟨slot, -, hq⟩ := Option.bind_eq_some_iff.mp hq
  obtain ⟨op, hop, hq⟩ := Option.bind_eq_some_iff.mp hq
  obtain ⟨op', hop', hq⟩ := Option.bind_eq_some_iff.mp hq
  cases hq
  have hslot : insn.operand slot = op := by rw [Instruction.operand, hop, Option.getD_some]
  exact hP.qualified (hslot ▸ hf hop') h

/-- A lasting property survives a qualifier byte. -/
theorem qualify? (h : P insn) {b : UInt8} {insn' : Instruction}
    (hq : Qualifier.qualify? insn b = some insn') : P insn' := by
  obtain ⟨q, -, hq⟩ := Option.bind_eq_some_iff.mp hq
  obtain ⟨changed, hc, hq⟩ := Option.bind_eq_some_iff.mp hq
  cases hq
  refine hP.length ?_
  cases q with
  | mapped => exact hP.onMemory? h Or.inl hc
  | port => exact hP.onMemory? h Or.inr hc
  | localRepeat =>
    cases hc
    exact hP.marks _ h
  | circular =>
    cases hc
    exact hP.marks _ h

/-- A lasting property that holds once the status bit is named holds of the finished instruction. -/
theorem finishPlain (h : P (StatusBit.nameBit insn)) (space : AddressSpace) (first : UInt8) :
    P (c55x.finishPlain space first insn) := by
  have hmarked := hP.withParallel h (parallelBit first)
  rw [finishPlain_eq, Machine.qualified]
  cases space ((StatusBit.nameBit insn).withParallel (parallelBit first)).limit with
  | none => exact hmarked
  | some b =>
    simp only
    cases hq : Qualifier.qualify? ((StatusBit.nameBit insn).withParallel (parallelBit first)) b with
    | none => exact hmarked
    | some insn' => exact hP.qualify? hmarked hq

/-- A lasting property holds of every decoded instruction if it holds of the matched ones, with
their status bits named. -/
theorem decode {space : AddressSpace} {k : Knowledge} {a : Address} {d : Decoded}
    (hmatched : ∀ {next w row word insn}, Matched k.context next w row word insn →
      P (StatusBit.nameBit insn))
    (h : c55x.decode space k a = .ok d) : P d.insn := by
  cases decode_eq_ok_iff.mp h with
  | plain _ _ matched => exact hP.withRoles _ (hP.finishPlain (hmatched matched) _ _)
  | head _ _ _ _ halves =>
    obtain ⟨row, word, hm⟩ := exists_matched (matchExactly_eq_some_iff.mp halves.matchedHead).1
    exact hP.withRoles _ (hP.withHalf _ (hmatched hm))
  | tail _ half =>
    obtain ⟨row, word, hm⟩ := exists_matched (matchExactly_eq_some_iff.mp half.matched).1
    exact hP.withRoles _ (hP.withHalf _ (hP.withParallel (hmatched hm) true))

omit hP in
/-- One of several lasting properties holds. -/
theorem exists_and {ι : Type} {Q : ι → Prop} {P : ι → Instruction → Prop}
    (hP : ∀ i, Lasting (P i)) : Lasting fun insn => ∃ i, Q i ∧ P i insn where
  marks marks h := h.imp fun i hi => ⟨hi.1, (hP i).marks marks hi.2⟩
  length h := h.imp fun i hi => ⟨hi.1, (hP i).length hi.2⟩
  qualified hr h := h.imp fun i hi => ⟨hi.1, (hP i).qualified hr hi.2⟩
  withHalf half h := h.imp fun i hi => ⟨hi.1, (hP i).withHalf half hi.2⟩
  withRoles usage h := h.imp fun i hi => ⟨hi.1, (hP i).withRoles usage hi.2⟩

end Lasting

end Machine

namespace Outline

/-- An instruction has the kind, the operands and the second line of an outline. -/
structure Shapes (o : Outline) (insn : Instruction) : Prop where
  /-- It has the kind. -/
  kind : insn.kind = o.kind
  /-- The operands fill the first slots. -/
  filled : insn.Filled o.count
  /-- The second line starts where the outline says. -/
  split : insn.split? = o.split

/-- An outline fits the mnemonic of its kind. -/
structure Fits (o : Outline) (m : Mnemonic) : Prop where
  /-- The kind is not the null kind. -/
  kind_ne_zero : o.kind ≠ 0
  /-- It is the mnemonic of the kind. -/
  named : Form.mnemonics[o.kind]? = some m
  /-- Its usage tells about the operands. -/
  assigned : o.isAssigned m = true
  /-- Its names stand for the lines. -/
  lined : o.isLined m = true

variable {o : Outline} {insn : Instruction}

/-- An instruction has one of the settled outlines after its status bit is named. -/
theorem shapes_nameBit (h : o.Shapes insn) (hs : o.isSettled = true) :
    ∃ p ∈ o.settled, p.Shapes (StatusBit.nameBit insn) := by
  have hself : o ∈ o.settled := by
    unfold settled
    split <;> simp
  unfold StatusBit.nameBit
  split
  next form bit status hform _ _ =>
    split
    next flag _ =>
      rw [h.kind] at hform
      rw [isSettled, hform, Option.isNone_some, Bool.false_or, beq_iff_eq] at hs
      have hfilled := h.filled
      rw [hs] at hfilled
      refine ⟨{ o with kind := form.kind, count := 1 }, ?_, rfl, ?_, h.split⟩
      · rw [settled, hform]
        simp
      · exact (hfilled.replace (by decide) rfl).pop
    next => exact ⟨o, hself, h⟩
  next => exact ⟨o, hself, h⟩

/-- The outline of an instruction lasts while it is finished. -/
theorem lasting_shapes (o : Outline) : Machine.Lasting o.Shapes where
  marks _ h := ⟨h.kind, h.filled, h.split⟩
  length h := ⟨h.kind, h.filled, h.split⟩
  qualified hr h :=
    ⟨h.kind, h.filled.replace (h.filled.lt_of_isEmpty_eq_false hr.isEmpty.1) hr.isEmpty.2, h.split⟩
  withHalf half h := ⟨h.kind, h.filled, (Instruction.split?_withHalf _ half).trans h.split⟩
  withRoles usage h :=
    ⟨h.kind, fun slot => (Instruction.isEmpty_operand_withRoles _ usage slot).trans (h.filled slot),
      h.split⟩

end Outline

namespace Encoding

/-- The outlines of a row fit their mnemonics, also after a status bit was named. -/
theorem exists_fits {e : Encoding} (h : e ∈ table) {os : List Outline} (hos : e.outlines? = some os)
    {o p : Outline} (ho : o ∈ os) (hp : p ∈ o.settled) : ∃ m, p.Fits m := by
  obtain ⟨m, hm, hkind, hassigned, hlined⟩ :=
    Outline.exists_of_isProper (isProper_of_mem h hos ho) hp
  rw [pagedMnemonic?_eq] at hm
  exact ⟨m, hkind, hm, hassigned, hlined⟩

end Encoding

namespace Machine

/-- A matched instruction has one of the outlines that can be followed from its row. -/
theorem Matched.exists_outline {context : Context} {next : NextAddress} {w : ByteWindow}
    {row : Encoding} {word : Nat} {insn : Instruction}
    (h : Matched context next w row word insn) {os : List Outline} (hos : row.outlines? = some os) :
    ∃ o ∈ os, o.Shapes insn := by
  obtain hr | ⟨insn', o, hr, ho, -, hd⟩ | ⟨i, -, e, -, hr⟩ :=
    Outline.contributeAll_cases (List.mem_singleton_self row.outline)
      (describes_draftAt w.base h.mem) (c55x.surroundings context next w) word hos
  · cases h.contributed.symm.trans hr
  · cases h.contributed.symm.trans hr
    exact ⟨o, ho, hd.kind, hd.filled, hd.split⟩
  · cases h.contributed.symm.trans hr

/-- A decoded instruction has the shape of an outline that fits the mnemonic of its kind. -/
theorem exists_shape_of_decode {space : AddressSpace} {k : Knowledge} {a : Address} {d : Decoded}
    (h : c55x.decode space k a = .ok d) :
    ∃ o : Outline, (∃ m, o.Fits m) ∧ o.Shapes d.insn := by
  refine (Lasting.exists_and Outline.lasting_shapes).decode ?_ h
  intro next w row word insn hm
  obtain ⟨os, hos⟩ := Encoding.outlines?_of_mem hm.mem
  obtain ⟨o, ho, hs⟩ := hm.exists_outline hos
  have hsettled := Outline.isSettled_of_isProper (Encoding.isProper_of_mem hm.mem hos ho)
  obtain ⟨p, hp, hshape⟩ := Outline.shapes_nameBit hs hsettled
  exact ⟨p, Encoding.exists_fits hm.mem hos ho hp, hshape⟩

end Machine

end DspCode
