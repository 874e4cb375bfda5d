import DspCode.Encoding.Table
import DspCode.Proofs.MemoryAccess
import DspCode.Proofs.Slots

/-!
# Outlines of drafts

The fields of an encoding can fail: the operand slots run out, a renaming has no answer, a byte
after the code word is missing. Whether they can is decided without the bytes. An outline keeps of a
draft its kind, the number of its operands, where its second line starts and how far its bytes
reach; for each field it is known which outlines can follow. An encoding whose outlines can be
followed through all its fields fails for no other reason than a missing byte.
-/

namespace DspCode

/-- What is known of a draft without the bytes. -/
structure Outline where
  /-- The kind. -/
  kind : Kind
  /-- The number of operands. -/
  count : Nat
  /-- The bytes of the code word: the draft takes at least these. -/
  width : Nat
  /-- The most bytes that the draft takes so far. -/
  reach : Nat
  /-- The slot at which the second line starts, if the draft has one. -/
  split : Option Nat := none
  deriving DecidableEq, Repr

namespace Outline

/-- How many bytes the fields of an encoding read at most, the code word included. -/
def longest : Nat := 9

/-- The outline after one more operand, for which up to `more` bytes are read. -/
def grow? (o : Outline) (more : Nat) : Option Outline :=
  if o.count < 6 ∧ o.reach + more ≤ longest then
    some { o with count := o.count + 1, reach := o.reach + more }
  else none

/-- The outline after a renaming in a mnemonic table. -/
def renamed? (mnemonics : Array Mnemonic) (o : Outline) (request : RenameRequest) :
    Option Outline :=
  match request.renaming.apply mnemonics o.kind with
  | .ok kind => some { o with kind }
  | .error _ => none

/-- The outlines that can follow a field, the reserved values of the field apart; `none` if the
field may fail although all bytes can be read, or counts a code target before the length of the
code word is settled. -/
def after? (mnemonics : Array Mnemonic) (o : Outline) : Field → Option (List Outline)
  | .unsignedByte | .unsignedWord | .signedByte | .signedWord | .negatedByte | .one | .minusOne
  | .source | .temporary | .testControl | .transition | .status | .extended | .carryOrTest
  | .fixed _ | .xmem | .cmem | .dataAddress | .shiftAmount | .condition =>
    (o.grow? 0).map ([·])
  | .forward | .relative _ => if o.reach = o.width then (o.grow? 0).map ([·]) else none
  | .smem | .lmem | .pointerUpdate | .bitAddress | .absoluteTarget => (o.grow? 3).map ([·])
  | .optionalSource => (o.grow? 0).map fun p => [o, { p with kind := p.kind + 1 }]
  | .rename request => (o.renamed? mnemonics request).map fun p => [o, p]
  | .swapPair =>
    if o.count = 0 then do
      let p ← o.renamed? mnemonics .pair
      let q ← o.renamed? mnemonics .quad
      return [o, p, q].map ({ · with count := 2 })
    else none
  | .wrap _ | .shiftSigned | .shiftSignedOutside | .shiftLeft | .shiftByTemporary | .shiftByT2
  | .shiftLeft16 | .shiftRight | .equalsWord | .notZero | .relation | .relationRegister
  | .relationByte | .parallelMark => some [o]
  | .split => some [{ o with split := some o.count }]

/-- The outlines that can follow a field from any one of the given ones. -/
def afterEach? (mnemonics : Array Mnemonic) (field : Field) :
    List Outline → Option (List Outline)
  | [] => some []
  | o :: os => do
    let following ← o.after? mnemonics field
    let others ← afterEach? mnemonics field os
    return following ++ others

/-- The outlines that can follow a list of fields. -/
def afterAll? (mnemonics : Array Mnemonic) (os : List Outline) :
    List FieldUse → Option (List Outline)
  | [] => some os
  | use :: rest => do
    let following ← afterEach? mnemonics use.field os
    afterAll? mnemonics following rest

/-- The instruction at `a` has this outline. -/
structure Describes (o : Outline) (a : Address) (insn : Instruction) : Prop where
  /-- It is placed at `a`. -/
  address : insn.address = a
  /-- It has the kind. -/
  kind : insn.kind = o.kind
  /-- The operands fill the first slots. -/
  filled : insn.Filled o.count
  /-- It takes at least the code word. -/
  width_le : o.width ≤ insn.length
  /-- It takes no more bytes than the outline allows. -/
  length_le : insn.length ≤ o.reach
  /-- The outline keeps within the bytes that are ever read. -/
  reach_le : o.reach ≤ longest
  /-- The second line starts where the outline says. -/
  split : insn.split? = o.split

/-- What a field may give where only the outlines `os` can follow: a reserved value, a draft with
one of the outlines, or the error of a byte that cannot be had. -/
def Allows (os : List Outline) (a : Address) (s : Surroundings) :
    Except FieldError Draft → Prop
  | .ok d => d.insn.kind = 0 ∨ ∃ o ∈ os, o.Describes a d.insn
  | .error e => ∃ i < longest, ∃ w, s.bytes i = .error w ∧ e = .ofWindow w

/-- An outline grows by one operand, up to six, and within the bytes that are read at most. -/
theorem grow?_eq_some {o p : Outline} {more : Nat} (h : o.grow? more = some p) :
    o.count < 6 ∧ o.reach + more ≤ longest ∧
      p = { o with count := o.count + 1, reach := o.reach + more } := by
  unfold grow? at h
  split at h
  next hc => exact ⟨hc.1, hc.2, (Option.some.inj h).symm⟩
  next => cases h

/-- The outline after a renaming differs in its kind only. -/
theorem renamed?_eq_some {mnemonics : Array Mnemonic} {o p : Outline} {request : RenameRequest}
    (h : o.renamed? mnemonics request = some p) :
    ∃ kind, request.renaming.apply mnemonics o.kind = .ok kind ∧ p = { o with kind } := by
  unfold renamed? at h
  split at h
  next kind hk => exact ⟨kind, hk, (Option.some.inj h).symm⟩
  next => cases h

section Steps

variable {o p : Outline} {more : Nat} {a : Address} {d : Draft} {s : Surroundings}

/-- An operand put into the first free slot. -/
theorem Describes.push (h : o.Describes a d.insn) (hg : o.grow? more = some p) {op : Operand}
    (hop : op.isEmpty = false) : ∃ d', d.push op = .ok d' ∧ p.Describes a d'.insn := by
  obtain ⟨hc, hr, rfl⟩ := grow?_eq_some hg
  refine ⟨{ d with insn := d.insn.setOperand o.count op }, ?_, ?_⟩
  · simp only [Draft.push, h.filled.operandCount, if_pos hc]
  · exact ⟨h.address, h.kind, h.filled.push hc hop, h.width_le,
      Nat.le_add_right_of_le h.length_le, hr, h.split⟩

/-- An operand may be added where the outline grows by one. -/
theorem allows_push (h : o.Describes a d.insn) (hg : o.grow? more = some p) {op : Operand}
    (hop : op.isEmpty = false) : Allows [p] a s (d.push op) := by
  obtain ⟨d', hd, hp⟩ := h.push hg hop
  rw [hd]
  exact Or.inr ⟨p, List.mem_singleton_self p, hp⟩

/-- An operand to compare with may be added where the outline grows by one. -/
theorem allows_pushCompared (h : o.Describes a d.insn) (hg : o.grow? 0 = some p) {op : Operand}
    (hop : op.isEmpty = false) : Allows [p] a s (d.pushCompared op) := by
  obtain ⟨d', hd, hp⟩ := h.push hg hop
  rw [Draft.pushCompared, hd]
  exact Or.inr ⟨p, List.mem_singleton_self p, hp.address, hp.kind, hp.filled, hp.width_le,
    hp.length_le, hp.reach_le, hp.split⟩

/-- An optional operand is left out, or kept by an instruction of the next kind. -/
theorem allows_pushOptional (h : o.Describes a d.insn) (hg : o.grow? 0 = some p) {op : Operand}
    (hop : op.isEmpty = false) :
    Allows [o, { p with kind := p.kind + 1 }] a s (d.pushOptional op) := by
  unfold Draft.pushOptional
  split
  · exact Or.inr ⟨o, List.mem_cons_self, h⟩
  · obtain ⟨d', hd, hp⟩ := h.push hg hop
    rw [hd]
    exact Or.inr ⟨_, List.mem_cons_of_mem _ (List.mem_singleton_self _), hp.address,
      congrArg (· + 1) hp.kind, hp.filled, hp.width_le, hp.length_le, hp.reach_le, hp.split⟩

/-- Bytes are read after the code word, and then an operand is added. -/
theorem allows_trailing_push (h : o.Describes a d.insn) (hg : o.grow? 3 = some p) {count : Nat}
    (hcount : count ≤ 3) {f : Nat × Draft → Except FieldError Draft}
    (hf : ∀ v d' q, Describes q a d'.insn → q.grow? 0 = some p → Allows [p] a s (f (v, d'))) :
    Allows [p] a s (d.trailing s count >>= f) := by
  obtain ⟨hc, hr, rfl⟩ := grow?_eq_some hg
  obtain ⟨v, hv⟩ | ⟨i, hl, hu, w, hw, he⟩ := d.readMore_cases s 0 count
  · rw [Draft.trailing, hv]
    refine hf v _ { o with reach := o.reach + 3 } ?_ ?_
    · refine ⟨h.address, h.kind, h.filled, ?_, ?_, hr, h.split⟩
      · exact Nat.le_add_right_of_le h.width_le
      · exact Nat.add_le_add h.length_le hcount
    · simp only [grow?, hc, Nat.add_zero, hr, and_self, if_true]
  · rw [Draft.trailing, he]
    have := h.length_le
    exact ⟨i, by omega, w, hw, rfl⟩

/-- Single memory operands read at most three bytes. -/
theorem allows_pushSingleMemory (h : o.Describes a d.insn) (hg : o.grow? 3 = some p) (v : Nat)
    (width : DataWidth) (update : Bool) :
    Allows [p] a s (d.pushSingleMemory s v width update) := by
  rw [MemoryAccess.pushSingleMemory_eq]
  refine allows_trailing_push h hg (MemoryAccess.count_of_le _ v width update) ?_
  intro number d' q hq hg'
  have hm := MemoryAccess.isMemory_of (d.contextOf s) v width update number
  obtain ⟨d'', hd, hp⟩ := hq.push hg' (Operand.isEmpty_of_isMemory hm)
  rw [Draft.pushMemory, hd]
  exact Or.inr ⟨p, List.mem_singleton_self p, hp.address, hp.kind, hp.filled, hp.width_le,
    hp.length_le, hp.reach_le, hp.split⟩

/-- A change of the last operand that does not free its slot. -/
theorem Describes.modifyLast (h : o.Describes a d.insn) {f : Operand → Operand}
    (hf : ∀ op : Operand, op.isEmpty = false → (f op).isEmpty = false) :
    o.Describes a (d.modifyLast f).insn := by
  unfold Draft.modifyLast
  rw [h.filled.operandCount]
  split
  · exact h
  next slot hs =>
    have hlt : slot < o.count := by omega
    exact ⟨h.address, h.kind, h.filled.replace hlt (hf _ (h.filled.isEmpty_of_lt hlt)), h.width_le,
      h.length_le, h.reach_le, h.split⟩

private theorem Describes.withComparand (h : o.Describes a d.insn) (right : Comparand) :
    o.Describes a (d.withComparand right).insn :=
  h.modifyLast fun op hop => by
    split
    · rfl
    · exact hop

private theorem Describes.compareWithLast (h : o.Describes a d.insn) :
    o.Describes a d.compareWithLast.insn := by
  unfold Draft.compareWithLast
  split
  · exact h
  · exact ⟨h.address, h.kind, h.filled, h.width_le, h.length_le, h.reach_le, h.split⟩

/-- A renaming that has an answer for the outline has it for the draft. -/
theorem Describes.rename (h : o.Describes a d.insn) {request : RenameRequest}
    (hr : o.renamed? s.mnemonics request = some p) :
    ∃ d', d.rename s.mnemonics request.renaming = .ok d' ∧ p.Describes a d'.insn := by
  obtain ⟨kind, hk, rfl⟩ := renamed?_eq_some hr
  refine ⟨d.withKind kind, ?_, h.address, rfl, h.filled, h.width_le, h.length_le, h.reach_le,
    h.split⟩
  simp only [Draft.rename, h.kind, hk]

/-- A reserved condition leaves the null kind; any other adds an operand. -/
theorem allows_pushCondition (h : o.Describes a d.insn) (hg : o.grow? 0 = some p) (selector : Nat) :
    Allows [p] a s (d.pushCondition selector) := by
  unfold Draft.pushCondition
  split
  next => exact Or.inl rfl
  next value hv =>
    obtain ⟨code, r, rfl⟩ := conditionOperand?_eq_some hv
    cases r with
    | none => exact allows_push h hg rfl
    | some r => exact allows_pushCompared h hg rfl

/-- The two registers of an exchange fill the first two slots. -/
theorem Describes.putPair (h : o.Describes a d.insn) (hc : o.count = 0) (r t : Register) :
    ∃ d', (do let d ← d.put 0 (.ofRegister r.id); d.put 1 (.ofRegister t.id)) = .ok d' ∧
      Describes { o with count := 2 } a d'.insn := by
  have hf := h.filled
  rw [hc] at hf
  exact ⟨_, rfl, h.address, h.kind,
    (hf.push (by decide) rfl).push (by decide) rfl, h.width_le, h.length_le, h.reach_le, h.split⟩

/-- An exchange is renamed as its selector asks, or reserved. -/
theorem allows_pushSwap (h : o.Describes a d.insn) (hc : o.count = 0) {q : Outline}
    (hp : o.renamed? s.mnemonics .pair = some p) (hq : o.renamed? s.mnemonics .quad = some q)
    (selector : Nat) :
    Allows ([o, p, q].map ({ · with count := 2 })) a s (d.pushSwap s selector) := by
  -- every exchange but a reserved one ends by putting its two registers
  have hput : ∀ {r : Outline} {d : Draft}, r.Describes a d.insn → r.count = 0 → r ∈ [o, p, q] →
      ∀ x y : Register, Allows ([o, p, q].map ({ · with count := 2 })) a s
        (do let d ← d.put 0 (.ofRegister x.id); d.put 1 (.ofRegister y.id)) := by
    intro r d hr hcount hmem x y
    obtain ⟨d', hd, hd'⟩ := hr.putPair hcount x y
    rw [hd]
    exact Or.inr ⟨_, List.mem_map_of_mem hmem, hd'⟩
  have hcount : ∀ {request r}, o.renamed? s.mnemonics request = some r → r.count = 0 := by
    intro request r hr
    obtain ⟨kind, -, rfl⟩ := renamed?_eq_some hr
    exact hc
  unfold Draft.pushSwap
  split
  next => exact Or.inl rfl
  next x y request hs =>
    cases request with
    | none => exact hput h hc (by simp) x y
    | some request =>
      have hreq : request = .pair ∨ request = .quad := by
        unfold swapOperands? at hs
        split at hs <;> simp_all
      rcases hreq with rfl | rfl
      · obtain ⟨d', hd, hd'⟩ := h.rename hp
        simp only [hd]
        exact hput hd' (hcount hp) (by simp) x y
      · obtain ⟨d', hd, hd'⟩ := h.rename hq
        simp only [hd]
        exact hput hd' (hcount hq) (by simp) x y

/-- The outlines that can follow a field allow for whatever it gives. -/
theorem allows_contribute (h : o.Describes a d.insn) {field : Field} {os : List Outline}
    (ha : o.after? s.mnemonics field = some os) (v : Nat) :
    Allows os a s (d.contribute s field v) := by
  cases field with
  | unsignedByte | unsignedWord | signedByte | signedWord | negatedByte | one | minusOne
  | temporary | testControl | transition | status | extended | carryOrTest | fixed | xmem | cmem
  | dataAddress | shiftAmount =>
    obtain ⟨p, hg, rfl⟩ := Option.map_eq_some_iff.mp ha
    exact allows_push h hg rfl
  | source =>
    obtain ⟨p, hg, rfl⟩ := Option.map_eq_some_iff.mp ha
    exact allows_pushCompared h hg rfl
  | condition =>
    obtain ⟨p, hg, rfl⟩ := Option.map_eq_some_iff.mp ha
    exact allows_pushCondition h hg v
  | forward | relative =>
    simp only [after?] at ha
    split at ha
    · obtain ⟨p, hg, rfl⟩ := Option.map_eq_some_iff.mp ha
      exact allows_push h hg rfl
    · cases ha
  | smem | lmem | pointerUpdate =>
    obtain ⟨p, hg, rfl⟩ := Option.map_eq_some_iff.mp ha
    exact allows_pushSingleMemory h hg v _ _
  | bitAddress =>
    obtain ⟨p, hg, rfl⟩ := Option.map_eq_some_iff.mp ha
    simp only [Draft.contribute]
    split
    · exact allows_push h hg rfl
    · exact allows_pushSingleMemory h hg v _ _
  | absoluteTarget =>
    obtain ⟨p, hg, rfl⟩ := Option.map_eq_some_iff.mp ha
    exact allows_trailing_push h hg (Nat.le_refl 3) fun v d' q hq hg' => allows_push hq hg' rfl
  | optionalSource =>
    obtain ⟨p, hg, rfl⟩ := Option.map_eq_some_iff.mp ha
    exact allows_pushOptional h hg rfl
  | rename request =>
    obtain ⟨p, hr, rfl⟩ := Option.map_eq_some_iff.mp ha
    simp only [Draft.contribute]
    split
    · obtain ⟨d', hd, hd'⟩ := h.rename hr
      rw [hd]
      exact Or.inr ⟨p, by simp, hd'⟩
    · exact Or.inr ⟨o, by simp, h⟩
  | swapPair =>
    simp only [after?] at ha
    split at ha
    next hc =>
      obtain ⟨p, hp, ha⟩ := Option.bind_eq_some_iff.mp ha
      obtain ⟨q, hq, ha⟩ := Option.bind_eq_some_iff.mp ha
      cases ha
      exact allows_pushSwap h hc hp hq v
    next => cases ha
  | wrap operators =>
    cases ha
    simp only [Draft.contribute]
    split
    · exact Or.inr ⟨o, by simp, h.modifyLast fun op hop => hop⟩
    · exact Or.inr ⟨o, by simp, h⟩
  | shiftSigned | shiftSignedOutside | shiftLeft | shiftByTemporary | shiftByT2 | shiftLeft16
  | shiftRight | equalsWord | notZero =>
    cases ha
    exact Or.inr ⟨o, by simp, h.modifyLast fun op hop => hop⟩
  | relation =>
    cases ha
    refine Or.inr ⟨o, by simp, h.modifyLast fun op hop => ?_⟩
    split
    · rfl
    · exact hop
  | relationRegister =>
    cases ha
    refine Or.inr ⟨o, by simp, (h.withComparand _).compareWithLast⟩
  | relationByte =>
    cases ha
    exact Or.inr ⟨o, by simp, h.withComparand _⟩
  | parallelMark =>
    cases ha
    exact Or.inr ⟨o, by simp, h.address, h.kind, h.filled, h.width_le, h.length_le, h.reach_le,
      h.split⟩
  | split =>
    cases ha
    exact Or.inr ⟨_, List.mem_singleton_self _, h.address, h.kind, h.filled, h.width_le,
      h.length_le, h.reach_le, congrArg some h.filled.operandCount⟩

/-- The code word stays the same whatever follows. -/
theorem width_of_after? {mnemonics : Array Mnemonic} {field : Field} {os : List Outline}
    (ha : o.after? mnemonics field = some os) (hp : p ∈ os) : p.width = o.width := by
  have hgrow : ∀ {more q}, o.grow? more = some q → q.width = o.width := by
    intro more q hq
    obtain ⟨-, -, rfl⟩ := grow?_eq_some hq
    rfl
  have hrename : ∀ {request q}, o.renamed? mnemonics request = some q → q.width = o.width := by
    intro request q hq
    obtain ⟨kind, -, rfl⟩ := renamed?_eq_some hq
    rfl
  cases field with
  | unsignedByte | unsignedWord | signedByte | signedWord | negatedByte | one | minusOne
  | source | temporary | testControl | transition | status | extended | carryOrTest | fixed
  | xmem | cmem | dataAddress | shiftAmount | condition | smem | lmem | pointerUpdate
  | bitAddress | absoluteTarget =>
    obtain ⟨q, hq, rfl⟩ := Option.map_eq_some_iff.mp ha
    rw [List.mem_singleton.mp hp, hgrow hq]
  | forward | relative =>
    simp only [after?] at ha
    split at ha
    · obtain ⟨q, hq, rfl⟩ := Option.map_eq_some_iff.mp ha
      rw [List.mem_singleton.mp hp, hgrow hq]
    · cases ha
  | optionalSource =>
    obtain ⟨q, hq, rfl⟩ := Option.map_eq_some_iff.mp ha
    simp only [List.mem_cons, List.not_mem_nil, or_false] at hp
    rcases hp with rfl | rfl
    · rfl
    · exact (hgrow hq : q.width = o.width)
  | rename request =>
    obtain ⟨q, hq, rfl⟩ := Option.map_eq_some_iff.mp ha
    simp only [List.mem_cons, List.not_mem_nil, or_false] at hp
    rcases hp with rfl | rfl
    · rfl
    · exact hrename hq
  | swapPair =>
    simp only [after?] at ha
    split at ha
    · obtain ⟨q, hq, ha⟩ := Option.bind_eq_some_iff.mp ha
      obtain ⟨r, hr, ha⟩ := Option.bind_eq_some_iff.mp ha
      cases ha
      simp only [List.map_cons, List.map_nil, List.mem_cons, List.not_mem_nil, or_false] at hp
      rcases hp with rfl | rfl | rfl
      · rfl
      · exact (hrename hq : q.width = o.width)
      · exact (hrename hr : r.width = o.width)
    · cases ha
  | wrap | shiftSigned | shiftSignedOutside | shiftLeft | shiftByTemporary | shiftByT2
  | shiftLeft16 | shiftRight | equalsWord | notZero | relation | relationRegister
  | relationByte | parallelMark | split =>
    cases ha
    rw [List.mem_singleton.mp hp]

/-- A field asks for the address that code distances count from only while the length of the draft
is that of its code word. -/
theorem contribute_congr_next (h : o.Describes a d.insn) {field : Field} {os : List Outline}
    (ha : o.after? s.mnemonics field = some os) {next : Address → Nat → Address}
    (hn : next a o.width = s.nextAddress a o.width) (v : Nat) :
    d.contribute { s with nextAddress := next } field v = d.contribute s field v := by
  cases field with
  | forward | relative =>
    simp only [after?] at ha
    split at ha
    next hr =>
      have hl : d.insn.length = o.width :=
        Nat.le_antisymm (hr ▸ h.length_le) h.width_le
      simp only [Draft.contribute, Draft.relativeTarget, h.address, hl, hn]
    next => cases ha
  | _ => rfl

end Steps

/-- What follows from one of several outlines is among what follows from any of them. -/
theorem exists_of_afterEach? {mnemonics : Array Mnemonic} {field : Field} {o : Outline}
    {os following : List Outline} (h : afterEach? mnemonics field os = some following)
    (ho : o ∈ os) : ∃ ps, o.after? mnemonics field = some ps ∧ ∀ p ∈ ps, p ∈ following := by
  induction os generalizing following with
  | nil => cases ho
  | cons q os ih =>
    obtain ⟨ps, hq, h⟩ := Option.bind_eq_some_iff.mp h
    obtain ⟨others, hos, h⟩ := Option.bind_eq_some_iff.mp h
    cases h
    rcases List.mem_cons.mp ho with rfl | ho
    · exact ⟨ps, hq, fun p hp => List.mem_append_left others hp⟩
    · obtain ⟨rs, hrs, hmem⟩ := ih hos ho
      exact ⟨rs, hrs, fun p hp => List.mem_append_right ps (hmem p hp)⟩

/-- What the fields of an encoding give from a draft with one of the outlines `os`: a reserved
encoding, an instruction with one of the outlines that follow, or the error of a byte that cannot
be had. -/
theorem contributeAll_cases {os final : List Outline} {a : Address} {d : Draft} {o : Outline}
    (ho : o ∈ os) (h : o.Describes a d.insn) (s : Surroundings) (word : Nat)
    {fields : List FieldUse} (hf : afterAll? s.mnemonics os fields = some final) :
    d.contributeAll s word fields = .ok none ∨
      (∃ insn p, d.contributeAll s word fields = .ok (some insn) ∧ p ∈ final ∧
        p.width = o.width ∧ p.Describes a insn) ∨
      ∃ i < longest, ∃ w, s.bytes i = .error w ∧
        d.contributeAll s word fields = .error (.ofWindow w) := by
  induction fields generalizing os d o with
  | nil =>
    cases hf
    exact Or.inr (Or.inl ⟨d.insn, o, rfl, ho, rfl, h⟩)
  | cons use rest ih =>
    obtain ⟨following, he, hf⟩ := Option.bind_eq_some_iff.mp hf
    obtain ⟨ps, hps, hmem⟩ := exists_of_afterEach? he ho
    have hallows := allows_contribute h hps (use.selector.select word)
    unfold Draft.contributeAll
    cases hc : d.contribute s use.field (use.selector.select word) with
    | error e =>
      rw [hc] at hallows
      obtain ⟨i, hi, w, hw, rfl⟩ := hallows
      exact Or.inr (Or.inr ⟨i, hi, w, hw, rfl⟩)
    | ok d' =>
      rw [hc] at hallows
      by_cases hk : d'.insn.kind = 0
      · left
        simp only [bind, Except.bind, hk, if_true]
        rfl
      · obtain ⟨p, hp, hd⟩ := hallows.resolve_left hk
        simp only [bind, Except.bind, hk, if_false]
        have := ih (hmem p hp) hd hf
        rwa [width_of_after? hps hp] at this

/-- The fields of an encoding depend on the address that code distances count from only through its
value for the code word alone. -/
theorem contributeAll_congr_next {os final : List Outline} {a : Address} {d : Draft}
    {o : Outline} (ho : o ∈ os) (h : o.Describes a d.insn) {s : Surroundings} {word : Nat}
    {fields : List FieldUse} (hf : afterAll? s.mnemonics os fields = some final)
    {next : Address → Nat → Address} (hn : next a o.width = s.nextAddress a o.width) :
    d.contributeAll { s with nextAddress := next } word fields =
      d.contributeAll s word fields := by
  induction fields generalizing os d o with
  | nil => rfl
  | cons use rest ih =>
    obtain ⟨following, he, hf⟩ := Option.bind_eq_some_iff.mp hf
    obtain ⟨ps, hps, hmem⟩ := exists_of_afterEach? he ho
    have hallows := allows_contribute h hps (use.selector.select word)
    unfold Draft.contributeAll
    rw [contribute_congr_next h hps hn]
    cases hc : d.contribute s use.field (use.selector.select word) with
    | error e => simp only [bind, Except.bind]
    | ok d' =>
      rw [hc] at hallows
      by_cases hk : d'.insn.kind = 0
      · simp only [bind, Except.bind, hk, if_true]
      · obtain ⟨p, hp, hd⟩ := hallows.resolve_left hk
        simp only [bind, Except.bind, hk, if_false]
        exact ih (hmem p hp) hd hf (by rw [width_of_after? hps hp]; exact hn)

end Outline

end DspCode
