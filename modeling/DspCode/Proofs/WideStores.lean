import DspCode.Proofs.ContextEffects
import DspCode.Proofs.Legible
import DspCode.Proofs.PackedMemory

/-!
# Stores over the page registers

Page registers are mapped to words of the data space, so that a store may change them. The words of
two of them are neighbours, and a store of double-word size covers both. Only the register at the
first word becomes unknown then. Nothing else makes up for the second one: an instruction with a
memory operand of double-word size has no other operand that could stand for a page register, by its
name or at an address. Main statement: after a store the page register at its first word is unknown,
and one at its second word holds what it held.
-/

namespace DspCode

open Effects (isPageRegister)

/-- How many words of the data space an operand may cover, by the name of a page register or at an
address. Memory at an offset from a pointer counts too: a qualifier byte may give it an address. -/
def Operand.span (op : Operand) : Nat :=
  match op.value with
  | .direct _ _ _ _ | .indirect _ (.offset _) => if op.width = .dword then 2 else 1
  | .register id => if isPageRegister id then 1 else 0
  | _ => 0

/-- How many words the operand of a field may cover, if the field counts up to no page register. -/
def Field.span : Field → Nat
  | .lmem => 2
  | .smem | .pointerUpdate | .bitAddress | .dataAddress => 1
  | .fixed r => if isPageRegister r.id then 1 else 0
  | _ => 0

/-- Whether a field that counts from a register stays below the page registers with the value
`v`. -/
def Field.staysBelowPages (field : Field) (v : Nat) : Bool :=
  field.family?.all fun p => p.1.id + v / p.2 < Register.dp.id

/-- A smaller value of a field stays below the page registers too. -/
theorem Field.staysBelowPages_mono {field : Field} {v w : Nat}
    (h : field.staysBelowPages w = true) (hle : v ≤ w) : field.staysBelowPages v = true := by
  unfold staysBelowPages at h ⊢
  cases hf : field.family? with
  | none => rfl
  | some p =>
    rw [hf] at h
    simp only [Option.all_some, decide_eq_true_eq] at h ⊢
    exact Nat.lt_of_le_of_lt (Nat.add_le_add_left (Nat.div_le_div_right hle) _) h

namespace Operand

/-- How many words an operand covers is a matter of its value and its width. -/
theorem span_congr {op op' : Operand} (hvalue : op'.value = op.value)
    (hwidth : op'.width = op.width) : op'.span = op.span := by
  rw [span, span, hvalue, hwidth]

/-- An operand covers two words at most, and only one of double-word size covers both. -/
theorem span_le (op : Operand) : op.span ≤ if op.width = .dword then 2 else 1 := by
  unfold span
  split
  · exact Nat.le_refl _
  · exact Nat.le_refl _
  · split <;> split <;> decide
  · exact Nat.zero_le _

/-- A register that is no page register covers no word. -/
theorem span_ofRegister {id : RegisterId} (h : isPageRegister id = false) (width : DataWidth) :
    (of (.register id) width).span = 0 := by
  simp [span, of, h]

private theorem span_dualMode (base : RegisterId) (selector : Nat) (width : DataWidth) :
    (indirectOperand base (dualMode selector) width).span = 0 := by
  unfold dualMode
  split <;> rfl

end Operand

/-! ## Registers that are no page registers -/

private theorem isPageRegister_of_lt {id : RegisterId} (h : id < Register.dp.id) :
    isPageRegister id = false := by
  have hdph : Register.dp.id < Register.dph.id := by decide
  have hpdp : Register.dp.id < Register.pdp.id := by decide
  simp only [isPageRegister, Bool.or_eq_false_iff, beq_eq_false_iff_ne]
  exact ⟨⟨Nat.ne_of_lt h, Nat.ne_of_lt (Nat.lt_trans h hdph)⟩,
    Nat.ne_of_lt (Nat.lt_trans h hpdp)⟩

/-- A register that a field counts from another one is no page register, where the field stays below
them. -/
theorem isPageRegister_offset {field : Field} {r : Register} {v : Nat}
    (hf : field.family? = some (r, 1)) (h : field.staysBelowPages v = true) :
    isPageRegister (r.offset v) = false := by
  simp only [Field.staysBelowPages, hf, Option.all_some, Nat.div_one, decide_eq_true_eq] at h
  refine isPageRegister_of_lt (Nat.lt_of_le_of_lt ?_ h)
  exact Nat.add_le_add_left (Nat.mod_le v _) _

private theorem isPageRegister_extendedRegister (selector : Nat) :
    isPageRegister (extendedRegister selector).id = false := by
  unfold extendedRegister
  split <;> rfl

/-- No page register is swapped. -/
theorem isPageRegister_swapOperands? {selector : Nat} {a b : Register}
    {request : Option RenameRequest} (h : swapOperands? selector = some (a, b, request)) :
    isPageRegister a.id = false ∧ isPageRegister b.id = false := by
  unfold swapOperands? at h
  split at h <;> cases h <;> exact ⟨rfl, rfl⟩

/-- A named status bit is no page register. -/
theorem isPageRegister_name? {status : RegisterId} {bit : Int} {flag : Register}
    (h : StatusBit.name? status bit = some flag) : isPageRegister flag.id = false := by
  unfold StatusBit.name? StatusBit.st0 StatusBit.st1 StatusBit.st2 StatusBit.st3 at h
  repeat' split at h
  all_goals cases h
  all_goals rfl

/-! ## Operands that cover few words -/

namespace Instruction

/-- No operand covers more words than `n`, but for the one in a slot. -/
def SpansBut (insn : Instruction) (apart : Option Nat) (n : Nat) : Prop :=
  ∀ slot, apart ≠ some slot → (insn.operand slot).span ≤ n

variable {insn : Instruction} {apart : Option Nat} {n : Nat}

/-- An operand may be put into a slot if it covers no more words than are allowed, or than the one
that was there. -/
theorem SpansBut.setOperand (h : insn.SpansBut apart n) {slot : Nat} {op : Operand}
    (hop : op.span ≤ n ∨ op.span ≤ (insn.operand slot).span) :
    (insn.setOperand slot op).SpansBut apart n := by
  intro other hother
  rw [operand_setOperand]
  split
  next hc =>
    obtain ⟨rfl, -⟩ := hc
    exact hop.elim id fun hle => Nat.le_trans hle (h slot hother)
  next => exact h other hother

/-- A status bit is named by a flag, and no flag is a page register. -/
theorem SpansBut.nameBit (h : insn.SpansBut apart n) :
    (StatusBit.nameBit insn).SpansBut apart n := by
  unfold StatusBit.nameBit
  split
  · split
    next flag hflag =>
      have hnamed : ({ insn with kind := _ } : Instruction).SpansBut apart n := h
      refine (hnamed.setOperand (Or.inl ?_)).setOperand (Or.inl (Nat.zero_le n))
      rw [Operand.span_ofRegister (isPageRegister_name? hflag)]
      exact Nat.zero_le n
    next => exact h
  · exact h

end Instruction

/-- A qualifier byte gives addresses to operands that could get one before, of the same width. -/
theorem Qualifier.Replaces.span {op op' : Operand} (h : Replaces op op') : op'.span = op.span := by
  rcases h with h | h
  · unfold mappedOperand? at h
    split at h
    next hv =>
      split at h <;> cases h
      simp [Operand.span, hv]
    next hv =>
      split at h <;> cases h
      simp [Operand.span, hv]
    next => cases h
  · unfold portOperand? at h
    split at h
    next hv =>
      split at h <;> cases h
      simp [Operand.span, hv]
    next =>
      cases h
      exact Operand.span_congr rfl rfl
    next =>
      cases h
      exact Operand.span_congr rfl rfl
    next => cases h

/-- A single memory operand has the width that is asked for. -/
theorem MemoryAccess.width_of (context : Register → Option UInt32) (v : Nat) (width : DataWidth)
    (update : Bool) (number : Nat) :
    ((of context v width update).operand number).width = width := by
  unfold of
  split
  · simp only [fixed, pageOrStack]
    split <;> rfl
  · split
    · unfold absoluteOrCoefficient
      split <;> rfl
    · simp only
      split
      · unfold pointer
        split <;> rfl
      · rfl

namespace Draft

variable {d d' : Draft} {s : Surroundings} {field : Field} {v : Nat} {apart : Option Nat} {n : Nat}

/-- Operands that cover no more words than are allowed can be added. -/
theorem stable_spansBut (apart : Option Nat) (n : Nat) :
    Stable (·.SpansBut apart n) (·.span ≤ n) where
  setOperand _ hop h := h.setOperand (Or.inl hop)
  kind _ h := h
  length h := h
  memorySlot _ h := h
  withSplit _ h := h
  marks _ h := h

/-- Completing the last operand makes it cover no more. -/
theorem spansBut_modifyLast (h : d.insn.SpansBut apart n) {f : Operand → Operand}
    (hf : ∀ op : Operand, (f op).span ≤ op.span) : (d.modifyLast f).insn.SpansBut apart n := by
  unfold modifyLast
  split
  · exact h
  · exact h.setOperand (Or.inr (hf _))

private theorem spansBut_withSuffix (h : d.insn.SpansBut apart n) (suffix : Suffix) :
    (d.withSuffix suffix).insn.SpansBut apart n :=
  spansBut_modifyLast h fun _ => Nat.le_of_eq (Operand.span_congr rfl rfl)

private theorem spansBut_withRelation (h : d.insn.SpansBut apart n) (relation : Relation) :
    (d.withRelation relation).insn.SpansBut apart n := by
  refine spansBut_modifyLast h fun op => ?_
  split
  · exact Nat.zero_le _
  · exact Nat.le_refl _

private theorem spansBut_withComparand (h : d.insn.SpansBut apart n) (right : Comparand) :
    (d.withComparand right).insn.SpansBut apart n := by
  refine spansBut_modifyLast h fun op => ?_
  split
  · exact Nat.zero_le _
  · exact Nat.le_refl _

private theorem spansBut_pushSwap (h : d.insn.SpansBut apart n) (selector : Nat) :
    Keeps (·.SpansBut apart n) (d.pushSwap s selector) := by
  intro d' hd
  obtain rfl | ⟨a, b, request, e, hswap, hrenamed, hinsn⟩ := pushSwap_cases hd
  · exact h
  have he : e.insn.SpansBut apart n := by
    obtain ⟨-, rfl⟩ | ⟨r, -, hr⟩ := hrenamed
    · exact h
    · exact (stable_spansBut apart n).rename h _ _ e hr
  obtain ⟨ha, hb⟩ := isPageRegister_swapOperands? hswap
  rw [hinsn]
  refine (he.setOperand (Or.inl ?_)).setOperand (Or.inl ?_)
  · exact Nat.le_trans (Nat.le_of_eq (Operand.span_ofRegister ha _)) (Nat.zero_le n)
  · exact Nat.le_trans (Nat.le_of_eq (Operand.span_ofRegister hb _)) (Nat.zero_le n)

/-- A field puts operands that cover no more than it may itself. -/
theorem spansBut_contribute (h : d.insn.SpansBut apart n) (hf : field.span ≤ n)
    (hv : field.staysBelowPages v = true) :
    Keeps (·.SpansBut apart n) (d.contribute s field v) := by
  have hstable := stable_spansBut apart n
  have hzero : ∀ {op : Operand}, op.span = 0 → op.span ≤ n := fun hop => hop ▸ Nat.zero_le n
  have hcounted : ∀ {r : Register}, field.family? = some (r, 1) →
      (Operand.ofRegister (r.offset v)).span ≤ n := fun hr =>
    hzero (Operand.span_ofRegister (isPageRegister_offset hr hv) _)
  have hmemory : ∀ {width : DataWidth} {update : Bool}, (if width = .dword then 2 else 1) ≤ n →
      Keeps (·.SpansBut apart n) (d.pushSingleMemory s v width update) := by
    intro width update hn
    refine hstable.pushSingleMemory h fun number => Nat.le_trans (Operand.span_le _) ?_
    rwa [MemoryAccess.width_of]
  cases field with
  | unsignedByte | unsignedWord | signedByte | signedWord | negatedByte | one | minusOne
  | shiftAmount | forward | relative => exact hstable.push h (hzero rfl)
  | source => exact hstable.pushCompared h (hcounted rfl)
  | optionalSource => exact hstable.pushOptional h (hcounted rfl)
  | temporary | testControl | transition | status => exact hstable.push h (hcounted rfl)
  | extended =>
    exact hstable.push h (hzero (Operand.span_ofRegister (isPageRegister_extendedRegister v) _))
  | carryOrTest =>
    refine hstable.push h (hzero (Operand.span_ofRegister ?_ _))
    split <;> rfl
  | fixed r => exact hstable.push h hf
  | xmem | cmem => exact hstable.push h (hzero (Operand.span_dualMode _ _ _))
  | smem | lmem | pointerUpdate => exact hmemory hf
  | bitAddress =>
    simp only [contribute]
    split
    · exact hstable.push h (hzero rfl)
    · exact hmemory hf
  | dataAddress => exact hstable.push h hf
  | wrap operators =>
    intro d' hd
    simp only [contribute] at hd
    split at hd <;> cases hd
    · exact spansBut_modifyLast h fun _ => Nat.le_of_eq (Operand.span_congr rfl rfl)
    · exact h
  | shiftSigned | shiftSignedOutside | shiftLeft | shiftByTemporary | shiftByT2 | shiftLeft16
  | shiftRight | equalsWord | notZero =>
    intro d' hd
    cases hd
    exact spansBut_withSuffix h _
  | relation =>
    intro d' hd
    cases hd
    exact spansBut_withRelation h _
  | relationByte =>
    intro d' hd
    cases hd
    exact spansBut_withComparand h _
  | relationRegister =>
    intro d' hd
    cases hd
    have hwith := spansBut_withComparand h (.register (Register.ac0.offset v))
    unfold compareWithLast
    split <;> exact hwith
  | rename request =>
    simp only [contribute]
    split
    · exact hstable.rename h _ _
    · intro d' hd
      cases hd
      exact h
  | parallelMark | split =>
    intro d' hd
    cases hd
    exact h
  | swapPair => exact spansBut_pushSwap h v
  | condition =>
    refine hstable.pushCondition h fun value hvalue => ?_
    obtain ⟨code, r, rfl⟩ := conditionOperand?_eq_some hvalue
    exact hzero rfl
  | absoluteTarget => exact hstable.trailing h fun r hr => hstable.push hr (hzero rfl)

/-- A single memory operand comes into one slot, and the others stay as they are. -/
theorem spansBut_pushSingleMemory {width : DataWidth} {update : Bool}
    (h : d.insn.SpansBut none 0) (hd : d.pushSingleMemory s v width update = .ok d') :
    d'.insn.SpansBut (some d.insn.operandCount) 0 := by
  obtain ⟨-, length, number, hinsn⟩ := exists_of_pushSingleMemory hd
  intro slot hslot
  have hother := d.insn.operand_setOperand d.insn.operandCount slot
    ((MemoryAccess.of (d.contextOf s) v width update).operand number)
  rw [if_neg fun hc => hslot (congrArg some hc.1)] at hother
  rw [hinsn]
  exact Nat.le_trans (Nat.le_of_eq (congrArg Operand.span hother)) (h slot nofun)

/-- Fields of which one at most gives single memory, and the others no page register, leave one
operand at most that covers a word. -/
theorem exists_spansBut_of_contributeAll {fields : List FieldUse} {word : Nat} {insn : Instruction}
    (hcount : fields.countP (·.field.usesContext) ≤ 1)
    (hspan : ∀ use ∈ fields, use.field.usesContext = true ∨ use.field.span = 0)
    (hbelow : ∀ use ∈ fields, use.field.staysBelowPages (use.selector.select word) = true)
    (h : d.insn.SpansBut none 0) (hall : d.contributeAll s word fields = .ok (some insn)) :
    ∃ apart, insn.SpansBut apart 0 := by
  induction fields generalizing d with
  | nil =>
    cases hall
    exact ⟨none, h⟩
  | cons use rest ih =>
    obtain ⟨d', hc, -, hrest⟩ := exists_of_contributeAll_cons hall
    have hbelow' := List.forall_mem_cons.mp hbelow
    have hspan' := List.forall_mem_cons.mp hspan
    rw [List.countP_cons] at hcount
    by_cases huses : use.field.usesContext = true
    · -- this is the one field that gives single memory: the slot it fills stays apart
      rw [if_pos huses] at hcount
      have hnone := List.countP_eq_zero.mp (Nat.le_zero.mp (Nat.le_of_succ_le_succ hcount))
      have hapart : ∃ apart, d'.insn.SpansBut apart 0 := by
        cases hfield : use.field with
        | smem | lmem | pointerUpdate =>
          rw [hfield] at hc
          exact ⟨_, spansBut_pushSingleMemory h hc⟩
        | bitAddress =>
          simp only [hfield, contribute] at hc
          split at hc
          · exact ⟨none, (stable_spansBut none 0).push h (by exact Nat.le_refl 0) d' hc⟩
          · exact ⟨_, spansBut_pushSingleMemory h hc⟩
        | _ =>
          rw [hfield] at huses
          cases huses
      obtain ⟨apart, hapart⟩ := hapart
      refine ⟨apart, of_contributeAll (P := (·.SpansBut apart 0)) (fun u hu e he => ?_) hapart
        hrest⟩
      have hzero := (hspan'.2 u hu).resolve_left (hnone u hu)
      exact spansBut_contribute he (Nat.le_of_eq hzero) (hbelow'.2 u hu)
    · have hzero := hspan'.1.resolve_left huses
      rw [if_neg huses] at hcount
      exact ih hcount hspan'.2 hbelow'.2
        (spansBut_contribute h (Nat.le_of_eq hzero) hbelow'.1 d' hc) hrest

end Draft

namespace Encoding

/-- Whether a row has no memory operand of double-word size, or nothing else that may cover a word
of a page register. Its fields count up to no page register. -/
def coversApart (e : Encoding) : Bool :=
  (e.fields.all (Nat.ble ·.field.span 1) ||
    e.fields.all fun use => use.field.usesContext || use.field.span == 0) &&
  e.fields.all fun use => use.field.staysBelowPages use.selector.largest

/-- All rows of the table pass this check. -/
theorem table_coversApart : table.all coversApart = true := by decide +kernel

end Encoding

/-! ## The words of a decoded store -/

/-- No operand covers two words, or one operand alone covers any. -/
def Instruction.CoversApart (insn : Instruction) : Prop :=
  ∃ p : Option Nat × Nat, (p = (none, 1) ∨ p.2 = 0) ∧ insn.SpansBut p.1 p.2

/-- Beside an operand that covers two words no other one covers any. -/
theorem Instruction.CoversApart.span_eq_zero {insn : Instruction} (h : insn.CoversApart)
    {slot other : Nat} (hslot : (insn.operand slot).span = 2) (hne : other ≠ slot) :
    (insn.operand other).span = 0 := by
  obtain ⟨⟨apart, n⟩, hp, hspans⟩ := h
  by_cases hapart : apart = some slot
  · subst hapart
    obtain hp | hzero := hp
    · cases hp
    · have hle := hspans other fun hother => hne (Option.some.inj hother).symm
      rw [hzero] at hle
      exact Nat.le_zero.mp hle
  · -- the operand does not stand apart, so it covers one word at most
    have hle := hspans slot hapart
    rw [hslot] at hle
    obtain hp | hzero := hp
    · cases hp
      exact absurd hle (by decide)
    · rw [hzero] at hle
      exact absurd hle (by decide)

namespace Machine

/-- How many words the operands cover does not grow while an instruction is finished. -/
theorem lasting_spansBut (apart : Option Nat) (n : Nat) : Lasting (·.SpansBut apart n) where
  marks _ h := h
  length h := h
  qualified hr h := h.setOperand (Or.inr (Nat.le_of_eq hr.span))
  withHalf _ h := h
  withRoles {insn} usage h slot hslot := by
    rw [Instruction.operand_withRoles]
    split
    · exact h slot hslot
    · exact h slot hslot

/-- In a matched instruction no operand covers two words, or one operand alone covers any. -/
theorem Matched.coversApart {context : Context} {next : NextAddress} {w : ByteWindow}
    {row : Encoding} {word : Nat} {insn : Instruction}
    (h : Matched context next w row word insn) : insn.CoversApart := by
  have hrow := List.all_eq_true.mp Encoding.table_coversApart row h.mem
  simp only [Encoding.coversApart, Bool.and_eq_true, Bool.or_eq_true, List.all_eq_true,
    Nat.ble_eq, beq_iff_eq] at hrow
  obtain ⟨hspan, hlargest⟩ := hrow
  have hbelow : ∀ use ∈ row.fields,
      use.field.staysBelowPages (use.selector.select word) = true := fun use huse =>
    Field.staysBelowPages_mono (hlargest use huse) (use.selector.select_le word)
  have hstart : ∀ n, (draftAt w.base row).insn.SpansBut none n := by
    intro n slot _
    rw [operand_draftAt]
    exact Nat.zero_le n
  rcases hspan with hnarrow | hsingle
  · refine ⟨(none, 1), Or.inl rfl, ?_⟩
    refine Draft.of_contributeAll (P := (·.SpansBut none 1)) (fun use huse d hd => ?_) (hstart 1)
      h.contributed
    exact Draft.spansBut_contribute hd (hnarrow use huse) (hbelow use huse)
  · obtain ⟨apart, hapart⟩ := Draft.exists_spansBut_of_contributeAll
      (Encoding.countP_usesContext_le row h.mem) hsingle hbelow (hstart 0) h.contributed
    exact ⟨(apart, 0), Or.inr rfl, hapart⟩

/-- In a decoded instruction no operand covers two words, or one operand alone covers any. -/
theorem coversApart_of_decode {space : AddressSpace} {k : Knowledge} {a : Address} {d : Decoded}
    (h : c55x.decode space k a = .ok d) : d.insn.CoversApart := by
  refine (Lasting.exists_and fun p : Option Nat × Nat =>
    lasting_spansBut p.1 p.2).decode (fun hm => ?_) h
  obtain ⟨p, hp, hspans⟩ := hm.coversApart
  exact ⟨p, hp, hspans.nameBit⟩

end Machine

/-- The words of the data space that data of a width at an address takes. -/
def wordsAt (x : UInt32) (width : DataWidth) : List Nat :=
  if width = .dword then [x.toNat / 2, x.toNat / 2 + 1] else [x.toNat / 2]

/-- No page register is mapped to two words in a row. -/
theorem isPageRegister_mappedWord? {n : Nat} {r : Register} (h : mappedWord? n = some r)
    (hnext : mappedWord? (n + 1) = some r) : isPageRegister r.id = false := by
  unfold mappedWord? at h
  split at h <;> cases h <;> first | rfl | cases hnext

namespace Effects

/-- An instruction stores at an address of the data space, from the operand in a slot. -/
structure Stores (insn : Instruction) (usage : Usage) (c : Context) (slot : Nat) (x : UInt32) :
    Prop where
  /-- The slot is filled. -/
  filled : slot < insn.operandCount
  /-- The operand is written. -/
  written : usage.writesSlot slot = true
  /-- It is memory of the data space. -/
  direct : ∃ address high page form,
    (insn.operand slot).value = .direct address high page form ∧ form.isPeripheral = false
  /-- Its address is known. -/
  address : insn.dataAddress? (insn.operand slot) c = some x

variable {insn : Instruction} {usage : Usage} {c : Context} {slot : Nat} {x : UInt32} {r : Register}

/-- The register at the first word of a store is overwritten. -/
theorem Stores.overwrites (h : Stores insn usage c slot x)
    (hr : mappedWord? (x.toNat / 2) = some r) : Overwrites insn usage c r := by
  obtain ⟨address, high, page, form, hvalue, hform⟩ := h.direct
  exact ⟨slot, h.filled, h.written,
    Or.inr ⟨address, high, page, form, x, hvalue, hform, h.address, hr⟩⟩

/-- A page register at the second word of a store is not. -/
theorem Stores.not_overwrites (h : Stores insn usage c slot x)
    (hwidth : (insn.operand slot).width = .dword) (hapart : insn.CoversApart)
    (hr : mappedWord? (x.toNat / 2 + 1) = some r) (hpage : isPageRegister r.id = true) :
    ¬ Overwrites insn usage c r := by
  obtain ⟨address, high, page, form, hvalue, -⟩ := h.direct
  have hspan : (insn.operand slot).span = 2 := by
    rw [Operand.span, hvalue, hwidth]
    rfl
  rintro ⟨other, -, -, hregister | ⟨address', high', page', form', y, hvalue', -, hy, hmapped⟩⟩
  · -- another operand would be the register by its name
    have hne : other ≠ slot := by
      rintro rfl
      cases hvalue.symm.trans hregister
    have hzero := hapart.span_eq_zero hspan hne
    simp [Operand.span, hregister, hpage] at hzero
  · by_cases hne : other = slot
    · -- the store itself counts at its first word only
      subst hne
      cases h.address.symm.trans hy
      have := isPageRegister_mappedWord? hmapped hr
      rw [hpage] at this
      cases this
    · have hzero := hapart.span_eq_zero hspan hne
      simp only [Operand.span, hvalue'] at hzero
      split at hzero <;> cases hzero

/-- The two-operand move writes its second operand. -/
theorem usageOf_mov2 : usageOf Form.mnemonics Form.mov2.kind = .of [0] [1] := by
  have hpaged : Encoding.pagedMnemonic? Form.mov2.kind = some ⟨"mov", none, .of [0] [1]⟩ := by
    decide +kernel
  rw [usageOf, ← Encoding.pagedMnemonic?_eq, hpaged]

/-- A store does not load a register with a constant. -/
theorem Stores.not_loads (h : Stores insn (usageOf Form.mnemonics insn.kind) c slot x) :
    ¬ ∃ value, Loads insn value r := by
  rintro ⟨value, hkind, -, hregister⟩
  obtain ⟨address, high, page, form, hvalue, -⟩ := h.direct
  have hwritten := h.written
  rw [hkind, usageOf_mov2] at hwritten
  have hslots : ∀ slot < 6, (Usage.of [0] [1]).writesSlot slot = true → slot = 1 := by decide
  have hlt : slot < 6 := BitVec.lt_of_getLsbD hwritten
  obtain rfl := hslots slot hlt hwritten
  rw [Operand.register?, hvalue] at hregister
  cases hregister

end Effects

namespace Machine

/-- What a decoded store does to the page registers it covers. The one at its first word becomes
unknown. One at the second word of a double word holds what it held. -/
theorem get_apply_of_store {space : AddressSpace} {k : Knowledge} {a : Address} {d : Decoded}
    (h : c55x.decode space k a = .ok d) {c : Context} {slot : Nat} {x : UInt32}
    (hstore : Effects.Stores d.insn (usageOf Form.mnemonics d.insn.kind) c slot x)
    {n : Nat} (hn : n ∈ wordsAt x (d.insn.operand slot).width) {r : Register}
    (hr : mappedWord? n = some r) (hpage : isPageRegister r.id = true) :
    ((Effects.of d.insn (usageOf Form.mnemonics d.insn.kind) c).apply c).get d.insn.limit r.id =
      if n = x.toNat / 2 then none else c.get d.insn.limit r.id := by
  obtain ⟨p, hp, hid⟩ := Effects.exists_mem_pageSizes hpage
  obtain rfl := Register.id_inj hid
  split
  next hfirst =>
    exact Effects.get_of_overwrites hp (hstore.overwrites (hfirst ▸ hr)) hstore.not_loads
  next hsecond =>
    obtain ⟨hwidth, rfl⟩ : (d.insn.operand slot).width = .dword ∧ n = x.toNat / 2 + 1 := by
      unfold wordsAt at hn
      split at hn
      next hwidth => exact ⟨hwidth, by simpa [hsecond] using hn⟩
      next => exact absurd (List.mem_singleton.mp hn) hsecond
    exact Effects.get_of_not_overwrites hp
      (hstore.not_overwrites hwidth (coversApart_of_decode h) hr hpage) hstore.not_loads _

/-- A double word is popped from the stack to the words of the data page register and the peripheral
page register. -/
def popOverPages : AddressSpace := .holding 0 [0xB8, 0x31, 0x00, 0x00, 0x2E]

/-- Both registers are known before the pop. -/
def bothPages : Knowledge where
  context := (Context.empty.withDefault Register.dp.id 5).withDefault Register.pdp.id 3

/-- The pop stores a double word, from the word of the data page register on. -/
theorem exists_popOverPages :
    ∃ d, c55x.decode popOverPages bothPages 0 = .ok d ∧
      Effects.Stores d.insn (usageOf Form.mnemonics d.insn.kind) bothPages.context 0 0x5C ∧
      (d.insn.operand 0).width = .dword := by
  have hfacts : (c55x.decode popOverPages bothPages 0).toOption.map (fun d =>
      (d.insn.kind, d.insn.operandCount, (d.insn.operand 0).value, (d.insn.operand 0).width)) =
        some (Form.pop1.kind, 1, .direct 0x2E none none .absolute, .dword) := by
    decide +kernel
  have husage : (Encoding.pagedMnemonic? Form.pop1.kind).map (·.usage.writesSlot 0) =
      some true := by
    decide +kernel
  obtain ⟨d, hd, hfacts⟩ := exists_ok_of_toOption hfacts
  simp only [Prod.mk.injEq] at hfacts
  obtain ⟨hkind, hcount, hvalue, hwidth⟩ := hfacts
  obtain ⟨m, hm, hwrites⟩ := Option.map_eq_some_iff.mp husage
  refine ⟨d, hd, ⟨by omega, ?_, ⟨_, _, _, _, hvalue, rfl⟩, ?_⟩, hwidth⟩
  · rw [hkind, usageOf, ← Encoding.pagedMnemonic?_eq, hm]
    exact hwrites
  · simp only [Instruction.dataAddress?, hvalue]
    rfl

/-- After the pop the data page register is unknown, and the peripheral page register has the value
that it had before. -/
theorem get_apply_of_store_popOverPages :
    ∃ d, c55x.decode popOverPages bothPages 0 = .ok d ∧
      mappedWord? 0x2E = some .dp ∧ mappedWord? 0x2F = some .pdp ∧
      let e := Effects.of d.insn (usageOf Form.mnemonics d.insn.kind) bothPages.context
      (e.apply bothPages.context).get d.insn.limit Register.dp.id = none ∧
        (e.apply bothPages.context).get d.insn.limit Register.pdp.id =
          bothPages.context.get d.insn.limit Register.pdp.id := by
  obtain ⟨d, hd, hstore, hwidth⟩ := exists_popOverPages
  have hfirst := get_apply_of_store hd hstore (n := 0x2E) (by rw [hwidth]; decide)
    (r := .dp) rfl (by decide)
  have hsecond := get_apply_of_store hd hstore (n := 0x2F) (by rw [hwidth]; decide)
    (r := .pdp) rfl (by decide)
  exact ⟨d, hd, rfl, rfl, hfirst, hsecond⟩

/-- So a store may leave a page register known that it overwrites. -/
theorem popOverPages_leaves_page_known :
    ∃ d, c55x.decode popOverPages bothPages 0 = .ok d ∧
      Effects.Stores d.insn (usageOf Form.mnemonics d.insn.kind) bothPages.context 0 0x5C ∧
      0x2F ∈ wordsAt 0x5C (d.insn.operand 0).width ∧ mappedWord? 0x2F = some .pdp ∧
      ((Effects.of d.insn (usageOf Form.mnemonics d.insn.kind) bothPages.context).apply
        bothPages.context).get d.insn.limit Register.pdp.id = some 3 := by
  obtain ⟨d, hd, hstore, hwidth⟩ := exists_popOverPages
  have hkept := hstore.not_overwrites hwidth (coversApart_of_decode hd) (r := .pdp) rfl (by decide)
  refine ⟨d, hd, hstore, by rw [hwidth]; decide, rfl, ?_⟩
  refine (Effects.get_of_not_overwrites (p := (.pdp, 512)) (by decide) hkept hstore.not_loads
    d.insn.limit).trans ?_
  -- nothing is written in this context, so the default holds at every address
  rfl

end Machine

end DspCode
