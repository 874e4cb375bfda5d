import DspCode.Proofs.MemoryAccess

/-!
# What the fields of an encoding keep and read

Fields change an instruction in a few ways only: they put operands into slots, change its kind, take
in the next byte, and set its marks. What all of these keep, every list of fields keeps. A property
may also depend on the operands being of some sort; it is then kept by those fields that put no
others.

Fields read bytes one after the other from the end of the draft on, and every byte read becomes part
of the instruction. A finished instruction therefore depends on no byte past its own last one.
-/

namespace DspCode

/-- Whether a field may read bytes after the code word. -/
def Field.reads : Field → Bool
  | .smem | .lmem | .pointerUpdate | .bitAddress | .absoluteTarget => true
  | _ => false

namespace Draft

/-- A property of instructions that no change made by a field destroys, apart from taking in further
bytes, as long as all operands put into slots are of the sort `Q`. -/
structure Steady (P : Instruction → Prop) (Q : Operand → Prop := fun _ => True) : Prop where
  /-- Operands are put into slots. -/
  setOperand : ∀ {insn op} (slot : Nat), Q op → P insn → P (insn.setOperand slot op)
  /-- The kind is changed. -/
  kind : ∀ {insn} (kind : Kind), P insn → P { insn with kind }
  /-- The memory operand is noted. -/
  memorySlot : ∀ {insn} (slot : Option Nat), P insn → P { insn with memorySlot := slot }
  /-- The second line starts. -/
  withSplit : ∀ {insn} (slot : Nat), P insn → P (insn.withSplit slot)
  /-- The instruction is marked. -/
  marks : ∀ {insn} (marks : Marks), P insn → P { insn with marks }

/-- A property of instructions that no change made by a field destroys, as long as all operands put
into slots are of the sort `Q`. -/
structure Stable (P : Instruction → Prop) (Q : Operand → Prop := fun _ => True) : Prop
    extends Steady P Q where
  /-- The next byte is taken in. -/
  length : ∀ {insn}, P insn → P { insn with length := insn.length + 1 }

/-- What a successful step keeps. -/
def Keeps (P : Instruction → Prop) (r : Except FieldError Draft) : Prop :=
  ∀ d, r = .ok d → P d.insn

/-- What each field of an encoding keeps, they keep together. -/
theorem of_contributeAll {P : Instruction → Prop} {s : Surroundings} {word : Nat}
    {fields : List FieldUse} (hstep : ∀ use ∈ fields, ∀ d : Draft, P d.insn →
      Keeps P (d.contribute s use.field (use.selector.select word)))
    {d : Draft} (h : P d.insn) {insn : Instruction}
    (hr : d.contributeAll s word fields = .ok (some insn)) : P insn := by
  induction fields generalizing d with
  | nil => cases hr; exact h
  | cons use rest ih =>
    unfold Draft.contributeAll at hr
    cases hc : d.contribute s use.field (use.selector.select word) with
    | error e => rw [hc] at hr; cases hr
    | ok d' =>
      rw [hc] at hr
      simp only [bind, Except.bind] at hr
      split at hr
      · cases hr
      · exact ih (fun use huse => hstep use (List.mem_cons_of_mem _ huse))
          (hstep use List.mem_cons_self d h d' hc) hr

namespace Steady

section Operands

variable {P : Instruction → Prop} {Q : Operand → Prop} (hP : Steady P Q) {d : Draft}
  {s : Surroundings} {op : Operand}
include hP

/-- A steady property is kept where an operand of its sort is added. -/
theorem push (h : P d.insn) (hop : Q op) : Keeps P (d.push op) := by
  intro d' hd
  simp only [Draft.push] at hd
  split at hd
  · cases hd
    exact hP.setOperand _ hop h
  · cases hd

private theorem put (h : P d.insn) (slot : Nat) (hop : Q op) : Keeps P (d.put slot op) := by
  intro d' hd
  unfold Draft.put at hd
  split at hd
  · cases hd
    exact hP.setOperand slot hop h
  · cases hd

/-- A steady property is kept where an operand to compare with is added. -/
theorem pushCompared (h : P d.insn) (hop : Q op) : Keeps P (d.pushCompared op) := by
  intro d' hd
  cases hp : d.push op with
  | error e => rw [Draft.pushCompared, hp] at hd; cases hd
  | ok d'' =>
    rw [Draft.pushCompared, hp] at hd
    cases hd
    exact hP.push h hop d'' hp

/-- A steady property is kept where an optional operand is added or left out. -/
theorem pushOptional (h : P d.insn) (hop : Q op) : Keeps P (d.pushOptional op) := by
  intro d' hd
  unfold Draft.pushOptional at hd
  split at hd
  · cases hd
    exact h
  · cases hp : d.push op with
    | error e => rw [hp] at hd; cases hd
    | ok d'' =>
      rw [hp] at hd
      cases hd
      exact hP.kind _ (hP.push h hop d'' hp)

/-- A steady property is kept where the memory operand is added. -/
theorem pushMemory (h : P d.insn) (hop : Q op) : Keeps P (d.pushMemory op) := by
  intro d' hd
  cases hp : d.push op with
  | error e => rw [Draft.pushMemory, hp] at hd; cases hd
  | ok d'' =>
    rw [Draft.pushMemory, hp] at hd
    cases hd
    exact hP.memorySlot _ (hP.push h hop d'' hp)

/-- A steady property is kept where the last operand is changed to one of its sort. -/
theorem modifyLast (h : P d.insn) {f : Operand → Operand}
    (hf : ∀ slot, Q (f (d.insn.operand slot))) : P (d.modifyLast f).insn := by
  unfold Draft.modifyLast
  split
  · exact h
  · exact hP.setOperand _ (hf _) h

/-- A steady property is kept where the instruction is renamed. -/
theorem rename (h : P d.insn) (mnemonics : Array Mnemonic) (r : Renaming) :
    Keeps P (d.rename mnemonics r) := by
  intro d' hd
  unfold Draft.rename at hd
  split at hd
  · cases hd
    exact hP.kind _ h
  · cases hd

/-- A steady property is kept where a condition is added. -/
theorem pushCondition (h : P d.insn) {selector : Nat}
    (hop : ∀ value, conditionOperand? selector = some value → Q (.of value .unspecified)) :
    Keeps P (d.pushCondition selector) := by
  unfold Draft.pushCondition
  split
  · intro d' hd
    cases hd
    exact hP.kind 0 h
  next value hv =>
    split
    · exact hP.pushCompared h (hop _ hv)
    · exact hP.push h (hop _ hv)

/-- A steady property is kept where two registers to swap are added. -/
theorem pushSwap (h : P d.insn) (hop : ∀ r : Register, Q (.ofRegister r.id)) (selector : Nat) :
    Keeps P (d.pushSwap s selector) := by
  unfold Draft.pushSwap
  split
  next =>
    intro d' hd
    cases hd
    exact hP.kind 0 h
  next a b request hs =>
    have hput : ∀ {d : Draft}, P d.insn → Keeps P
        (d.put 0 (.ofRegister a.id) >>= fun d => d.put 1 (.ofRegister b.id)) := by
      intro d h d' hd
      cases h0 : d.put 0 (.ofRegister a.id) with
      | error e => rw [h0] at hd; cases hd
      | ok d'' =>
        rw [h0] at hd
        exact hP.put (hP.put h 0 (hop a) d'' h0) 1 (hop b) d' hd
    cases request with
    | none => exact hput h
    | some r =>
      intro d' hd
      cases hr : d.rename s.mnemonics r.renaming with
      | error e => simp only [hr] at hd; cases hd
      | ok d'' =>
        simp only [hr] at hd
        exact hput (hP.rename h _ _ d'' hr) d' hd

end Operands

variable {P : Instruction → Prop} (hP : Steady P) {d : Draft} {s : Surroundings}
include hP

/-- Every field that reads no bytes keeps a steady property. -/
theorem contribute (h : P d.insn) {field : Field} (hf : field.reads = false) (v : Nat) :
    Keeps P (d.contribute s field v) := by
  cases field with
  | smem | lmem | pointerUpdate | bitAddress | absoluteTarget => cases hf
  | unsignedByte | unsignedWord | signedByte | signedWord | negatedByte | one | minusOne
  | temporary | testControl | transition | status | extended | carryOrTest | fixed | xmem | cmem
  | dataAddress | shiftAmount | forward | relative => exact hP.push h trivial
  | source => exact hP.pushCompared h trivial
  | optionalSource => exact hP.pushOptional h trivial
  | wrap operators =>
    intro d' hd
    simp only [Draft.contribute] at hd
    split at hd
    · cases hd
      exact hP.modifyLast h fun _ => trivial
    · cases hd
      exact h
  | shiftSigned | shiftSignedOutside | shiftLeft | shiftByTemporary | shiftByT2 | shiftLeft16
  | shiftRight | equalsWord | notZero | relation | relationByte =>
    intro d' hd
    cases hd
    exact hP.modifyLast h fun _ => trivial
  | relationRegister =>
    intro d' hd
    cases hd
    unfold Draft.compareWithLast
    split
    · exact hP.modifyLast h fun _ => trivial
    · exact hP.modifyLast h fun _ => trivial
  | rename request =>
    simp only [Draft.contribute]
    split
    · exact hP.rename h _ _
    · intro d' hd
      cases hd
      exact h
  | parallelMark =>
    intro d' hd
    cases hd
    exact hP.marks _ h
  | split =>
    intro d' hd
    cases hd
    exact hP.withSplit _ h
  | swapPair => exact hP.pushSwap h (fun _ => trivial) v
  | condition => exact hP.pushCondition h fun _ _ => trivial

end Steady

namespace Stable

section Bytes

variable {P : Instruction → Prop} {Q : Operand → Prop} (hP : Stable P Q) {d : Draft}
  {s : Surroundings}
include hP

/-- A stable property is kept where further bytes are taken in. -/
theorem readMore (h : P d.insn) {value count : Nat} {r : Nat × Draft}
    (hr : d.readMore s value count = .ok r) : P r.2.insn := by
  induction count generalizing d value with
  | zero => cases hr; exact h
  | succ count ih =>
    unfold Draft.readMore at hr
    split at hr
    · cases hr
    · exact ih (hP.length h) hr

/-- Bytes are read after the code word, and then something else is done. -/
theorem trailing (h : P d.insn) {count : Nat} {f : Nat × Draft → Except FieldError Draft}
    (hf : ∀ r : Nat × Draft, P r.2.insn → Keeps P (f r)) :
    Keeps P (d.trailing s count >>= f) := by
  intro d' hd
  cases hr : d.trailing s count with
  | error e => rw [hr] at hd; cases hd
  | ok r =>
    rw [hr] at hd
    exact hf r (hP.readMore h hr) d' hd

/-- A stable property is kept where a single memory operand is added with the bytes it takes. -/
theorem pushSingleMemory (h : P d.insn) {v : Nat} {width : DataWidth} {update : Bool}
    (hop : ∀ number, Q ((MemoryAccess.of (d.contextOf s) v width update).operand number)) :
    Keeps P (d.pushSingleMemory s v width update) := by
  rw [MemoryAccess.pushSingleMemory_eq]
  exact hP.trailing h fun r hr => hP.pushMemory hr (hop r.1)

end Bytes

variable {P : Instruction → Prop} (hP : Stable P) {d : Draft} {s : Surroundings}
include hP

/-- Every field keeps a stable property. -/
theorem contribute (h : P d.insn) (field : Field) (v : Nat) : Keeps P (d.contribute s field v) := by
  cases field with
  | smem | lmem | pointerUpdate => exact hP.pushSingleMemory h fun _ => trivial
  | bitAddress =>
    simp only [Draft.contribute]
    split
    · exact hP.push h trivial
    · exact hP.pushSingleMemory h fun _ => trivial
  | absoluteTarget => exact hP.trailing h fun r hr => hP.push hr trivial
  | _ => exact hP.toSteady.contribute h rfl v

/-- What the fields of an encoding finish keeps a stable property of the draft. -/
theorem contributeAll (h : P d.insn) {word : Nat} {fields : List FieldUse} {insn : Instruction}
    (hr : d.contributeAll s word fields = .ok (some insn)) : P insn :=
  of_contributeAll (fun use _ _ h => hP.contribute h use.field _) h hr

end Stable

/-- An instruction never becomes shorter. -/
theorem stable_length_ge (n : Nat) : Stable (fun insn => n ≤ insn.length) where
  setOperand _ _ h := h
  kind _ h := h
  length h := Nat.le_succ_of_le h
  memorySlot _ h := h
  withSplit _ h := h
  marks _ h := h

/-- A field makes no instruction a half of a pair. -/
theorem stable_half : Stable (fun insn => insn.half? = none) where
  setOperand _ _ h := h
  kind _ h := h
  length h := h
  memorySlot _ h := h
  withSplit {insn} slot h := by
    simp only [Instruction.half?, Instruction.withSplit, Option.bind_some] at h ⊢
    cases hg : insn.grouping with
    | none => rfl
    | some g =>
      rw [hg] at h
      exact h
  marks _ h := h

section Agree

variable {d d' : Draft} {s : Surroundings} {bytes : Nat → Except WindowError UInt8}

/-- A draft that has read more bytes has read only its own. -/
theorem readMore_agree {value count : Nat} {r : Nat × Draft}
    (h : d.readMore s value count = .ok r) (hb : ∀ i < r.2.insn.length, bytes i = s.bytes i) :
    d.readMore { s with bytes := bytes } value count = .ok r := by
  induction count generalizing d value with
  | zero => exact h
  | succ count ih =>
    unfold readMore at h ⊢
    split at h
    next => cases h
    next b hs =>
      have hlt : d.insn.length < r.2.insn.length :=
        (stable_length_ge (d.insn.length + 1)).readMore (Nat.le_refl _) h
      simp only [hb _ hlt, hs]
      exact ih h

/-- Only the bytes that end up in the instruction matter where bytes after the code word are read.
-/
theorem trailing_agree {count : Nat} {f : Nat × Draft → Except FieldError Draft}
    (h : d.trailing s count >>= f = .ok d')
    (hf : ∀ r, f r = .ok d' → r.2.insn.length ≤ d'.insn.length)
    (hb : ∀ i < d'.insn.length, bytes i = s.bytes i) :
    d.trailing { s with bytes := bytes } count >>= f = .ok d' := by
  cases hr : d.trailing s count with
  | error e => rw [hr] at h; cases h
  | ok r =>
    rw [hr] at h
    rw [trailing, readMore_agree hr fun i hi => hb i (Nat.lt_of_lt_of_le hi (hf r h))]
    exact h

private theorem pushSingleMemory_agree {v : Nat} {width : DataWidth} {update : Bool}
    (h : d.pushSingleMemory s v width update = .ok d')
    (hb : ∀ i < d'.insn.length, bytes i = s.bytes i) :
    d.pushSingleMemory { s with bytes := bytes } v width update = .ok d' := by
  rw [MemoryAccess.pushSingleMemory_eq] at h ⊢
  exact trailing_agree h
    (fun r hr => (stable_length_ge _).pushMemory (Nat.le_refl _) trivial d' hr) hb

/-- A field gives the same draft from any bytes that agree up to the end of that draft. -/
theorem contribute_agree {field : Field} {v : Nat} (h : d.contribute s field v = .ok d')
    (hb : ∀ i < d'.insn.length, bytes i = s.bytes i) :
    d.contribute { s with bytes := bytes } field v = .ok d' := by
  cases field with
  | smem | lmem | pointerUpdate => exact pushSingleMemory_agree h hb
  | bitAddress =>
    simp only [contribute] at h ⊢
    split at h
    next he => rw [if_pos he]; exact h
    next he => rw [if_neg he]; exact pushSingleMemory_agree h hb
  | absoluteTarget =>
    exact trailing_agree h (fun r hr => (stable_length_ge _).push (Nat.le_refl _) trivial d' hr) hb
  | _ => exact h

/-- A finished instruction is the same for any bytes that agree with the ones it takes. -/
theorem contributeAll_agree {word : Nat} {fields : List FieldUse} {insn : Instruction}
    (h : d.contributeAll s word fields = .ok (some insn))
    (hb : ∀ i < insn.length, bytes i = s.bytes i) :
    d.contributeAll { s with bytes := bytes } word fields = .ok (some insn) := by
  induction fields generalizing d with
  | nil => exact h
  | cons use rest ih =>
    unfold contributeAll at h ⊢
    cases hc : d.contribute s use.field (use.selector.select word) with
    | error e => rw [hc] at h; cases h
    | ok d' =>
      rw [hc] at h
      simp only [bind, Except.bind] at h
      split at h
      next => cases h
      next hk =>
        -- the bytes of the draft so far are among those of the finished instruction
        have hl : d'.insn.length ≤ insn.length :=
          (stable_length_ge _).contributeAll (Nat.le_refl _) h
        rw [contribute_agree hc fun i hi => hb i (Nat.lt_of_lt_of_le hi hl)]
        simp only [bind, Except.bind, hk, if_false]
        exact ih h

end Agree

end Draft

end DspCode
