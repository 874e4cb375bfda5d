import DspCode.Proofs.Modes

/-!
# Instruction boundaries and the register context

Two register contexts can differ in how a memory operand is read, and in nothing else that decoding
gives. The same rows match and the same pairs unpack. A qualifier byte that asks for memory-mapped
registers fits an offset in the data page as it fits one from the stack pointer, and no pointer; one
that asks for a port fits all of them. So both contexts find the same lengths, and code distances
count from the same addresses.
-/

namespace DspCode

/-- Related results, if there are any, are followed by related results. -/
theorem rel_bind {α β : Type} {T : α → α → Prop} {U : β → β → Prop} {x y : Option α}
    (h : Option.Rel T x y) {f g : α → Option β} (hf : ∀ a b, T a b → Option.Rel U (f a) (g b)) :
    Option.Rel U (x >>= f) (y >>= g) := by
  cases h with
  | some h => exact hf _ _ h
  | none => exact .none

private theorem rel_getD {α : Type} {T : α → α → Prop} {x y : Option α} (h : Option.Rel T x y)
    {a b : α} (hab : T a b) : T (x.getD a) (y.getD b) := by
  cases h with
  | some h => exact h
  | none => exact hab

/-- Both operands fill their slot or both leave it free. -/
def Operand.SameFilling (op op' : Operand) : Prop := op'.isEmpty = op.isEmpty

/-- Two readings of one memory value fill the same slots. -/
theorem Instruction.Agree.sameFilling {i j : Instruction} (h : i.Agree Operand.Alike j) :
    i.Agree Operand.SameFilling j :=
  h.mono fun _ _ => Operand.isEmpty_of_alike

namespace Qualifier

variable {op op' : Operand} {i j : Instruction}

/-- A value in the data page or from the stack pointer can be read as a memory-mapped register. -/
theorem mappedOperand?_of_isPageOrStack (h : op.value.isPageOrStack = true) :
    ∃ mapped, mappedOperand? op = some mapped ∧ mapped.isEmpty = false := by
  obtain ⟨address, hv⟩ | ⟨places, hv⟩ := OperandValue.exists_of_isPageOrStack h
  · rw [mappedOperand?, hv]
    exact ⟨_, if_pos ⟨rfl, rfl⟩, rfl⟩
  · rw [mappedOperand?, hv]
    exact ⟨_, if_pos rfl, rfl⟩

/-- A value in the data page or from the stack pointer can be read as a port. -/
theorem portOperand?_of_isPageOrStack (h : op.value.isPageOrStack = true) :
    ∃ port, portOperand? op = some port ∧ port.isEmpty = false := by
  obtain ⟨address, hv⟩ | ⟨places, hv⟩ := OperandValue.exists_of_isPageOrStack h
  · rw [portOperand?, hv]
    exact ⟨_, rfl, rfl⟩
  · rw [portOperand?, hv]
    exact ⟨_, rfl, by simp [Operand.isEmpty]⟩

/-- Two readings of one memory value can both be read as a memory-mapped register or neither can. -/
theorem mappedOperand?_alike (h : op.Alike op') :
    Option.Rel Operand.SameFilling (mappedOperand? op) (mappedOperand? op') := by
  obtain ⟨v, width, role, operators, suffix⟩ := op
  obtain ⟨v', width', role', operators', suffix'⟩ := op'
  obtain ⟨hframe, hvalue⟩ := h
  cases hvalue with
  | same =>
    cases hframe
    cases mappedOperand? ⟨v, width, role, operators, suffix⟩ with
    | none => exact .none
    | some mapped => exact .some rfl
  | page h h' =>
    obtain ⟨mapped, hm, hempty⟩ := mappedOperand?_of_isPageOrStack h
    obtain ⟨mapped', hm', hempty'⟩ := mappedOperand?_of_isPageOrStack h'
    rw [hm, hm']
    exact .some (hempty'.trans hempty.symm)
  | @pointer base mode mode' h h' =>
    have hnone : ∀ mode : PointerMode, (∀ places, mode ≠ .offset places) → ∀ op : Operand,
        op.value = .indirect base mode → mappedOperand? op = none := by
      intro mode hmode op hv
      unfold mappedOperand?
      split
      next h => cases hv.symm.trans h
      next places h =>
        cases hv.symm.trans h
        exact absurd rfl (hmode places)
      next => rfl
    rw [hnone mode h _ rfl, hnone mode' h' _ rfl]
    exact .none

/-- Two readings of one memory value can both be read as a port or neither can. -/
theorem portOperand?_alike (h : op.Alike op') :
    Option.Rel Operand.SameFilling (portOperand? op) (portOperand? op') := by
  obtain ⟨v, width, role, operators, suffix⟩ := op
  obtain ⟨v', width', role', operators', suffix'⟩ := op'
  obtain ⟨hframe, hvalue⟩ := h
  cases hvalue with
  | same =>
    cases hframe
    cases portOperand? ⟨v, width, role, operators, suffix⟩ with
    | none => exact .none
    | some port => exact .some rfl
  | page h h' =>
    obtain ⟨port, hp, hempty⟩ := portOperand?_of_isPageOrStack h
    obtain ⟨port', hp', hempty'⟩ := portOperand?_of_isPageOrStack h'
    rw [hp, hp']
    exact .some (hempty'.trans hempty.symm)
  | pointer => exact .some rfl

/-- A change of the memory operand fits both instructions or neither. -/
theorem onMemory?_alike {f : Operand → Option Operand}
    (hf : ∀ op op' : Operand, op.Alike op' → Option.Rel Operand.SameFilling (f op) (f op'))
    (h : i.Agree Operand.Alike j) :
    Option.Rel (Instruction.Agree Operand.SameFilling) (onMemory? i f) (onMemory? j f) := by
  unfold onMemory?
  rw [h.memorySlot]
  cases hs : i.memorySlot with
  | none => exact .none
  | some slot =>
    by_cases hslot : slot < 6
    · have hget : ∀ insn : Instruction, insn.operands[slot]? = some (insn.operand slot) := by
        intro insn
        simp [Instruction.operand, hslot]
      simp only [Option.bind_eq_bind, Option.bind_some, hget]
      refine rel_bind (hf _ _ (h.memory slot hs)) fun op op' hop => .some ?_
      exact h.sameFilling.setOperand hop fun hne => absurd hs hne
    · have hget : ∀ insn : Instruction, insn.operands[slot]? = none :=
        fun insn => Vector.getElem?_eq_none (Nat.not_lt.mp hslot)
      simp only [Option.bind_eq_bind, Option.bind_some, hget]
      exact .none

/-- A qualifier fits both instructions or neither. -/
theorem change?_alike (q : Qualifier) (h : i.Agree Operand.Alike j) :
    Option.Rel (Instruction.Agree Operand.SameFilling) (q.change? i) (q.change? j) := by
  cases q with
  | mapped => exact onMemory?_alike (fun _ _ => mappedOperand?_alike) h
  | port => exact onMemory?_alike (fun _ _ => portOperand?_alike) h
  | localRepeat =>
    exact .some (h.sameFilling.withMarks fun marks => { marks with localRepeat := true })
  | circular => exact .some (h.sameFilling.withMarks fun marks => { marks with circular := true })

/-- A byte qualifies both readings of an instruction or neither. -/
theorem qualify?_alike (b : UInt8) (h : i.Agree Operand.Alike j) :
    Option.Rel (Instruction.Agree Operand.SameFilling) (qualify? i b) (qualify? j b) := by
  unfold qualify?
  cases ofByte? b with
  | none => exact .none
  | some q =>
    refine rel_bind (change?_alike q h) fun i' j' hagree => .some ?_
    rw [hagree.length]
    exact hagree.withLength _

end Qualifier

namespace Instruction.Agree

variable {i j : Instruction}

/-- A status bit is named in both instructions or in neither: memory is no bit number and no status
register. -/
theorem nameBit (h : i.Agree Operand.Alike j) :
    (StatusBit.nameBit i).Agree Operand.Alike (StatusBit.nameBit j) := by
  have hslot := h.operand Operand.Alike.refl
  unfold StatusBit.nameBit
  rw [h.kind, (hslot 0).constant?, (hslot 1).register?, (hslot 0).width]
  split
  · split
    · exact ((h.withKind _).setOperand (.refl _) fun _ => rfl).setOperand (.refl _) fun _ => rfl
    · exact h
  · exact h

private theorem withParallel {R : Operand → Operand → Prop} (h : i.Agree R j) (parallel : Bool) :
    (i.withParallel parallel).Agree R (j.withParallel parallel) := by
  cases parallel with
  | false => exact h
  | true => exact h.withMarks fun marks => { marks with parallel := true }

/-- Roles go by the kind and the slot, and by the operand where that is the same. -/
theorem withUsage (h : i.Agree Operand.SameFilling j) :
    SameBesideMemory (Machine.c55x.withUsage i) (Machine.c55x.withUsage j) := by
  refine ⟨h.address, h.length, h.kind, h.marks, h.grouping, h.memorySlot, fun slot hs => ?_⟩
  have hget : j.operands[slot]? = i.operands[slot]? := by
    by_cases hslot : slot < 6
    · have hother := h.other slot hs
      simpa [Instruction.operand, hslot] using hother
    · rw [Vector.getElem?_eq_none (Nat.not_lt.mp hslot),
        Vector.getElem?_eq_none (Nat.not_lt.mp hslot)]
  simp only [Machine.withUsage, withRoles, Instruction.operand, Vector.getElem?_mapIdx, hget,
    h.kind, h.operandCount fun _ _ hop => hop]

end Instruction.Agree

namespace Machine

section Finishing

variable {i j : Instruction}

/-- The byte after both instructions is taken in as a qualifier of both or of neither. -/
theorem qualified_alike (space : AddressSpace) (h : i.Agree Operand.Alike j) :
    (qualified space i).Agree Operand.SameFilling (qualified space j) := by
  unfold qualified
  rw [h.limit]
  cases space i.limit with
  | none => exact h.sameFilling
  | some b => exact rel_getD (Qualifier.qualify?_alike b h) h.sameFilling

/-- Both readings of an instruction are finished alike, apart from the memory operand. -/
theorem finished_alike (space : AddressSpace) (first : UInt8) (h : i.Agree Operand.Alike j) :
    Instruction.SameBesideMemory (finished space first i) (finished space first j) := by
  rw [finished, finished, finishPlain_eq, finishPlain_eq]
  exact (qualified_alike space (h.nameBit.withParallel _)).withUsage

end Finishing

/-- The same result of decoding, apart from the operand in the memory slot. -/
structure SameResult (d d' : Decoded) : Prop where
  /-- The same update of the ledger is asked for. -/
  update : d'.update = d.update
  /-- The instructions are the same apart from their memory operand. -/
  insn : d.insn.SameBesideMemory d'.insn

private theorem outcomeAt_alike (a : Address) {x y : Except FieldError (Option Instruction)}
    (h : SameOutcome Draft.AlikeResults x y) :
    SameOutcome Draft.AlikeResults (outcomeAt a x) (outcomeAt a y) := by
  cases h with
  | ok h => exact .ok h
  | error e => cases e <;> exact .error _

section Contexts

variable (context context' : Context) (next : NextAddress)

/-- In two contexts the same row is matched, with two readings of its memory operand. -/
theorem matchWindow_context (w : ByteWindow) :
    SameOutcome Draft.AlikeResults (c55x.matchWindow context next w)
      (c55x.matchWindow context' next w) := by
  rw [matchWindow_eq, matchWindow_eq]
  split
  next row word hf =>
    rw [build_eq, build_eq]
    have hrow := (Encoding.firstMatch_found hf).1
    exact outcomeAt_alike w.base (Draft.contributeAll_withContext
      (c55x.surroundings context next w) context'.get word (draftAt w.base row)
      (Encoding.countP_usesContext_le row hrow))
  next => exact .error _
  next => exact .ok .none

variable {context next}

/-- A half that matches in one context matches in every other, apart from the reading of memory. -/
theorem matchExactly_context {space : AddressSpace} {a : Address} {bytes : List UInt8}
    {insn : Instruction}
    (h : c55x.matchExactly space context next a bytes = .ok (some insn)) :
    ∃ insn', c55x.matchExactly space context' next a bytes = .ok (some insn') ∧
      insn.Agree Operand.Alike insn' := by
  obtain ⟨hmatch, hlength⟩ := matchExactly_eq_some_iff.mp h
  have hsame := matchWindow_context context context' next (.primed space a bytes)
  rw [hmatch] at hsame
  generalize hmatch' : c55x.matchWindow context' next (.primed space a bytes) = outcome at hsame
  cases hsame with
  | ok hrel =>
    cases hrel with
    | @some _ insn' hagree =>
      exact ⟨insn', matchExactly_eq_some_iff.mpr ⟨hmatch', hagree.length.trans hlength⟩, hagree⟩

/-- A packed pair has both its halves in every context. -/
theorem Halves.inContext {space : AddressSpace} {a : Address} {pair : PackedPair}
    {head tail : Instruction} (h : Halves space context next a pair head tail) :
    ∃ head' tail', Halves space context' next a pair head' tail' ∧
      head.Agree Operand.Alike head' := by
  obtain ⟨head', hhead', hagree⟩ := matchExactly_context context' h.matchedHead
  obtain ⟨tail', htail', -⟩ := matchExactly_context context' h.matchedTail
  exact ⟨head', tail', ⟨h.unpacked, hhead', hagree.limit.symm ▸ htail'⟩, hagree⟩

/-- A second half that is found in one context is found in every other. -/
theorem SecondHalf.inContext {space : AddressSpace} {a : Address} {headLength : Nat}
    {pair : PackedPair} {insn : Instruction}
    (h : SecondHalf space context next a headLength pair insn) :
    ∃ insn', SecondHalf space context' next a headLength pair insn' ∧
      insn.Agree Operand.Alike insn' := by
  obtain ⟨insn', hmatched, hagree⟩ := matchExactly_context context' h.matched
  exact ⟨insn', ⟨h.unpacked, h.length, hmatched⟩, hagree⟩

variable (context next)

/-- A packed pair decodes in both contexts or in neither, with the same result beside memory. -/
theorem decodePacked_context (space : AddressSpace) (a : Address) :
    SameOutcome SameResult
      ((c55x.decodePacked space context next a).map c55x.assignRoles)
      ((c55x.decodePacked space context' next a).map c55x.assignRoles) := by
  by_cases hh : ∃ pair head tail, Halves space context next a pair head tail
  · obtain ⟨pair, head, tail, h⟩ := hh
    obtain ⟨head', tail', h', hagree⟩ := h.inContext context'
    rw [decodePacked_of_halves h, decodePacked_of_halves h', hagree.limit, hagree.length]
    refine .ok ⟨rfl, ?_⟩
    have hhead : (asHead head).Agree Operand.Alike (asHead head') := by
      rw [asHead, asHead, hagree.limit]
      exact hagree.nameBit.withHalf _
    exact hhead.sameFilling.withUsage
  · -- what unpacks and matches in the other context would do so in this one
    have hh' : ∀ pair head tail, ¬Halves space context' next a pair head tail := by
      intro pair head tail h'
      obtain ⟨head', tail', h, -⟩ := h'.inContext context
      exact hh ⟨pair, head', tail', h⟩
    simp only [not_exists] at hh
    rw [decodePacked_of_not_halves hh, decodePacked_of_not_halves hh']
    exact .error _

/-- A second half decodes in both contexts or in neither, with the same result beside memory. -/
theorem decodeTail_context (space : AddressSpace) (a : Address) (headLength : Nat) :
    SameOutcome SameResult
      ((c55x.decodeTail space context next a headLength).map c55x.assignRoles)
      ((c55x.decodeTail space context' next a headLength).map c55x.assignRoles) := by
  by_cases hh : ∃ pair insn, SecondHalf space context next a headLength pair insn
  · obtain ⟨pair, insn, h⟩ := hh
    obtain ⟨insn', h', hagree⟩ := h.inContext context'
    rw [decodeTail_of_secondHalf h, decodeTail_of_secondHalf h']
    refine .ok ⟨rfl, ?_⟩
    have htail := (hagree.nameBit.withParallel true).withHalf (.tail (a - UInt32.ofNat headLength))
    exact htail.sameFilling.withUsage
  · have hh' : ∀ pair insn, ¬SecondHalf space context' next a headLength pair insn := by
      intro pair insn h'
      obtain ⟨insn', h, -⟩ := h'.inContext context
      exact hh ⟨pair, insn', h⟩
    simp only [not_exists] at hh
    rw [decodeTail_of_not_secondHalf hh, decodeTail_of_not_secondHalf hh']
    exact .error _

/-- A plain instruction decodes in both contexts or in neither, with the same result beside memory.
-/
theorem decodePlain_context (space : AddressSpace) (a : Address) :
    SameOutcome SameResult
      ((c55x.decodePlain space context next a).map c55x.assignRoles)
      ((c55x.decodePlain space context' next a).map c55x.assignRoles) := by
  have hpacked := decodePacked_context context context' next space a
  have hmatch := matchWindow_context context context' next (.new space a)
  unfold decodePlain
  cases space a with
  | none => exact .error _
  | some first =>
    simp only
    revert hmatch
    generalize c55x.matchWindow context next (.new space a) = outcome
    generalize c55x.matchWindow context' next (.new space a) = outcome'
    intro hmatch
    cases hmatch with
    | ok hrel =>
      cases hrel with
      | some hagree =>
        simp only [hagree.limit]
        exact .ok ⟨rfl, finished_alike space first hagree⟩
      | none =>
        simp only
        split
        · exact hpacked
        · exact .error _
    | error e =>
      cases e with
      | outOfBounds b =>
        simp only
        split
        · exact hpacked
        · exact .error _
      | _ => exact .error _

end Contexts

section Stores

variable (space : AddressSpace) (pairs : PairLedger) (context context' : Context)

/-- With targets counted in one way, an address decodes in both contexts or in neither, with the
same result beside memory. -/
theorem decodeWith_context (next : NextAddress) (a : Address) :
    SameOutcome SameResult (c55x.decodeWith space ⟨context, pairs⟩ next a)
      (c55x.decodeWith space ⟨context', pairs⟩ next a) := by
  cases hk : pairs.headLength? a with
  | none =>
    rw [decodeWith_of_none hk, decodeWith_of_none hk]
    exact decodePlain_context context context' next space a
  | some headLength =>
    rw [decodeWith_of_some hk, decodeWith_of_some hk]
    exact decodeTail_context context context' next space a headLength

/-- A partner in parallel is as long in every context. -/
theorem partnerLength_context (a : Address) :
    c55x.partnerLength space ⟨context', pairs⟩ a = c55x.partnerLength space ⟨context, pairs⟩ a := by
  have hsame := decodeWith_context space pairs context context' plainNext a
  unfold partnerLength
  revert hsame
  generalize c55x.decodeWith space ⟨context, pairs⟩ plainNext a = outcome
  generalize c55x.decodeWith space ⟨context', pairs⟩ plainNext a = outcome'
  intro hsame
  cases hsame with
  | ok h => simp only [h.insn.length]
  | error e => rfl

/-- Code distances count from the same address in every context. -/
theorem nextAddress_context :
    c55x.nextAddress space ⟨context', pairs⟩ = c55x.nextAddress space ⟨context, pairs⟩ := by
  funext a length
  simp only [nextAddress, partnerLength_context space pairs context context']

end Stores

/-- The register context decides nothing but the reading of the memory operand: in two contexts
decoding fails with the same error, or asks for the same update and gives instructions of the same
length, kind, marks, grouping and memory slot, with the same operands in all other slots. -/
theorem decode_same_beside_memory (space : AddressSpace) (pairs : PairLedger)
    (context context' : Context) (a : Address) :
    SameOutcome SameResult (c55x.decode space ⟨context, pairs⟩ a)
      (c55x.decode space ⟨context', pairs⟩ a) := by
  unfold decode
  rw [nextAddress_context space pairs context context']
  exact decodeWith_context space pairs context context' _ a

end Machine

end DspCode
