import DspCode.Assembly
import DspCode.Proofs.Alphabets

/-!
# The brackets of assembly text

Brackets are opened by operators, address forms, pointer modes and conditions. Those of operators
are closed together, behind a shift that stands inside them and before one that stands outside. A
text is followed by the depth of nesting it starts and ends at, so that the pieces of a text fit
together where their depths meet. Main statement: in the text of any instruction, decoded or not,
every bracket is closed, and none before it was opened.
-/

namespace DspCode

namespace Text

/-- The depth of nesting after one more character; there is none after a bracket that closes
nothing. -/
def nestingStep (depth : Nat) (c : Char) : Option Nat :=
  if c = '(' then some (depth + 1)
  else if c = ')' then (if depth = 0 then none else some (depth - 1))
  else some depth

/-- The depth of nesting after the characters of a text. -/
def nesting? (depth : Nat) (cs : List Char) : Option Nat := cs.foldlM nestingStep depth

private theorem nesting?_cons (depth : Nat) (c : Char) (cs : List Char) :
    nesting? depth (c :: cs) = (nestingStep depth c).bind (nesting? · cs) :=
  List.foldlM_cons

/-- The depth after two texts is the depth after the second, from where the first left off. -/
theorem nesting?_append (depth : Nat) (l m : List Char) :
    nesting? depth (l ++ m) = (nesting? depth l).bind (nesting? · m) :=
  List.foldlM_append

/-- What one character can do to the depth. -/
theorem nestingStep_cases {depth after : Nat} {c : Char} (h : nestingStep depth c = some after) :
    (c = '(' ∧ after = depth + 1) ∨ (c = ')' ∧ depth = after + 1) ∨
      (c ≠ '(' ∧ c ≠ ')') ∧ after = depth := by
  unfold nestingStep at h
  by_cases hopen : c = '('
  · rw [if_pos hopen] at h
    exact .inl ⟨hopen, (Option.some.inj h).symm⟩
  · rw [if_neg hopen] at h
    by_cases hclose : c = ')'
    · rw [if_pos hclose] at h
      by_cases hzero : depth = 0
      · rw [if_pos hzero] at h
        cases h
      · rw [if_neg hzero] at h
        have hafter := Option.some.inj h
        exact .inr (.inl ⟨hclose, by omega⟩)
    · rw [if_neg hclose] at h
      exact .inr (.inr ⟨⟨hopen, hclose⟩, (Option.some.inj h).symm⟩)

/-- The depth counts the brackets that are open. -/
theorem count_of_nesting? {depth after : Nat} {cs : List Char}
    (h : nesting? depth cs = some after) :
    depth + cs.count '(' = after + cs.count ')' := by
  induction cs generalizing depth with
  | nil =>
    cases h
    rfl
  | cons c cs ih =>
    rw [nesting?_cons, Option.bind_eq_some_iff] at h
    obtain ⟨mid, hstep, hrest⟩ := h
    have hcount := ih hrest
    rw [List.count_cons, List.count_cons]
    obtain ⟨rfl, rfl⟩ | ⟨rfl, rfl⟩ | ⟨⟨hopen, hclose⟩, rfl⟩ := nestingStep_cases hstep
    · simp
      omega
    · simp
      omega
    · simp [hopen, hclose]
      omega

/-- A text that is left at some depth has no beginning that closes more than it opens. -/
theorem count_of_prefix {after : Nat} {cs front : List Char} (h : nesting? 0 cs = some after)
    (hfront : front <+: cs) : front.count ')' ≤ front.count '(' := by
  obtain ⟨rest, rfl⟩ := hfront
  rw [nesting?_append, Option.bind_eq_some_iff] at h
  obtain ⟨mid, hmid, -⟩ := h
  have hcount := count_of_nesting? hmid
  omega

/-- What a character does to the depth is the same within outer brackets. -/
theorem nestingStep_add {depth after : Nat} {c : Char} (h : nestingStep depth c = some after)
    (outer : Nat) : nestingStep (outer + depth) c = some (outer + after) := by
  obtain ⟨rfl, rfl⟩ | ⟨rfl, rfl⟩ | ⟨⟨hopen, hclose⟩, rfl⟩ := nestingStep_cases h
  · rw [nestingStep, if_pos rfl, Nat.add_assoc]
  · rw [nestingStep, if_neg (by decide), if_pos rfl, if_neg (by omega), ← Nat.add_assoc,
      Nat.add_sub_cancel]
  · rw [nestingStep, if_neg hopen, if_neg hclose]

/-- The same characters inside more brackets. -/
theorem nesting?_add {depth after : Nat} {cs : List Char} (h : nesting? depth cs = some after)
    (outer : Nat) : nesting? (outer + depth) cs = some (outer + after) := by
  induction cs generalizing depth with
  | nil =>
    cases h
    rfl
  | cons c cs ih =>
    rw [nesting?_cons, Option.bind_eq_some_iff] at h ⊢
    obtain ⟨mid, hstep, hrest⟩ := h
    exact ⟨outer + mid, nestingStep_add hstep outer, ih hrest⟩

/-- A text leads from one depth of nesting to another. -/
def Nests (text : String) (depth after : Nat) : Prop := nesting? depth text.toList = some after

namespace Nests

variable {s t : String} {depth mid after : Nat}

/-- A fixed text, checked character by character. -/
theorem literal {text : List Char} (h : nesting? depth text = some after) :
    Nests (String.ofList text) depth after := by
  rwa [Nests, String.toList_ofList]

private theorem empty : Nests "" depth depth := literal rfl

/-- Texts that nest can be joined where the depths meet. -/
theorem append (hs : Nests s depth mid) (ht : Nests t mid after) : Nests (s ++ t) depth after := by
  rw [Nests, String.toList_append, nesting?_append, Option.bind_eq_some_iff]
  exact ⟨mid, hs, ht⟩

/-- A text stays what it is inside brackets. -/
theorem inside (h : Nests t 0 after) (depth : Nat) : Nests t depth (depth + after) :=
  nesting?_add h depth

/-- A choice of two texts nests where both do. -/
theorem ite {c : Prop} [Decidable c] (hs : Nests s depth after) (ht : Nests t depth after) :
    Nests (if c then s else t) depth after := by
  split
  · exact hs
  · exact ht

/-- A text without brackets. -/
theorem of_not_mem (h : ∀ c ∈ t.toList, c ≠ '(' ∧ c ≠ ')') : Nests t depth depth := by
  rw [Nests]
  generalize t.toList = cs at h
  induction cs with
  | nil => rfl
  | cons c cs ih =>
    obtain ⟨hc, hrest⟩ := List.forall_mem_cons.mp h
    rw [nesting?_cons, nestingStep, if_neg hc.1, if_neg hc.2]
    exact ih hrest

/-- A text whose characters have a property that brackets do not have. -/
theorem of_forall {p : Char → Bool} (h : ∀ c ∈ t.toList, p c = true) (hopen : p '(' = false)
    (hclose : p ')' = false) : Nests t depth depth := by
  refine of_not_mem fun c hc => ⟨?_, ?_⟩
  · rintro rfl
    exact Bool.false_ne_true (hopen.symm.trans (h _ hc))
  · rintro rfl
    exact Bool.false_ne_true (hclose.symm.trans (h _ hc))

/-- Texts are joined, each of which opens a bracket or none. -/
theorem join {α : Type} {f : α → String} {opens : α → Bool} {l : List α}
    (h : ∀ x ∈ l, Nests (f x) 0 (if opens x then 1 else 0)) :
    Nests (String.join (l.map f)) 0 (l.countP opens) := by
  induction l with
  | nil => exact empty
  | cons x l ih =>
    obtain ⟨hx, hrest⟩ := List.forall_mem_cons.mp h
    rw [List.map_cons, String.join_cons, List.countP_cons, Nat.add_comm]
    exact hx.append ((ih hrest).inside _)

/-- Texts are joined with a text between them. -/
theorem intercalate {l : List String} (hs : Nests s 0 0) (h : ∀ t ∈ l, Nests t 0 0) :
    Nests (s.intercalate l) 0 0 := by
  induction l with
  | nil =>
    rw [String.intercalate_nil]
    exact empty
  | cons t l ih =>
    obtain ⟨ht, hrest⟩ := List.forall_mem_cons.mp h
    cases l with
    | nil => rwa [String.intercalate_singleton]
    | cons u l =>
      rw [String.intercalate_cons_cons]
      exact (ht.append hs).append (ih hrest)

/-- As many brackets are closed as are open. -/
theorem closing (count : Nat) : Nests (String.ofList (List.replicate count ')')) count 0 := by
  rw [Nests, String.toList_ofList]
  induction count with
  | zero => rfl
  | succ count ih =>
    rw [List.replicate_succ, nesting?_cons]
    exact ih

end Nests

end Text

open Text

section Pieces

variable {depth : Nat}

/-- A hexadecimal number has no brackets. -/
theorem nests_hexText (n : Nat) : Nests (hexText n) depth depth :=
  .of_forall (isNumeralChar_of_mem_hexText n) (by decide) (by decide)

/-- A decimal number has no brackets. -/
theorem nests_decimalText (n : Int) : Nests (decimalText n) depth depth :=
  .of_forall (isNumeralChar_of_mem_decimalText n) (by decide) (by decide)

/-- A number as it is printed has no brackets. -/
theorem nests_numeralText (v : Int) : Nests (numeralText v) depth depth :=
  .of_forall (isNumeralChar_of_mem_numeralText v) (by decide) (by decide)

/-- The name of a register has no brackets. -/
theorem Register.nests_name (r : Register) : Nests r.name depth depth :=
  .of_forall r.isNameChar_of_mem_name (by decide) (by decide)

/-- A register number has no brackets, whether it has a name or not. -/
theorem nests_registerText (id : RegisterId) : Nests (registerText id) depth depth := by
  unfold registerText
  cases hid : registerName? id with
  | none => exact .literal rfl
  | some name =>
    obtain ⟨r, -, rfl⟩ := Option.map_eq_some_iff.mp hid
    exact r.nests_name

end Pieces

namespace Printer

/-- The text before an operator's operand leaves a bracket open exactly if the operator has
brackets. -/
theorem nests_operatorText (o : Operator) :
    Nests (operatorText o) 0 (if hasBrackets o then 1 else 0) := by
  cases o <;> exact .literal rfl

private theorem nests_shiftText (s : Shift) : Nests (shiftText s) 0 0 := by
  obtain ⟨direction, amount⟩ := s
  cases amount with
  | constant places =>
    cases direction <;>
      exact .append (.append (.literal rfl) (.literal rfl)) (nests_decimalText places)
  | register id =>
    cases direction <;> exact .append (.literal rfl) (nests_registerText id)

private theorem nests_suffixText (suffix : Suffix) : Nests (suffixText suffix) 0 0 := by
  cases suffix with
  | shift s outside => exact nests_shiftText s
  | equals value => exact .append (.literal rfl) (nests_decimalText value)
  | notEquals value => exact .append (.literal rfl) (nests_decimalText value)

/-- The text after an operand, if there is any. -/
theorem nests_elim (suffix? : Option Suffix) : Nests (suffix?.elim "" suffixText) 0 0 := by
  cases suffix? with
  | none => exact .empty
  | some suffix => exact nests_suffixText suffix

/-- The operators around a text are closed as often as they open, wherever a shift stands. -/
theorem nests_wrap (op : Operand) {body : String} (hbody : Nests body 0 0) :
    Nests (wrap op body) 0 0 := by
  have hopening : Nests (String.join (op.operators.toList.map operatorText)) 0
      (op.operators.toList.countP hasBrackets) :=
    .join fun o _ => nests_operatorText o
  have hbody := hopening.append (hbody.inside _)
  exact ((hbody.append ((nests_elim _).inside _)).append (.closing _)).append (nests_elim _)

/-- Every pointer mode closes the brackets that it opens. -/
theorem nests_indirectText (base : RegisterId) (mode : PointerMode) :
    Nests (indirectText base mode) 0 0 := by
  have hr : ∀ {depth}, Nests (registerText base) depth depth := nests_registerText base
  cases mode with
  | plain | preIncrement | preDecrement => exact .append (.literal rfl) hr
  | postIncrement | postDecrement | postAddReversed | postSubtractReversed =>
    exact .append (.append (.literal rfl) hr) (.literal rfl)
  | postAdd id | postSubtract id | indexed id =>
    exact .append (.append (.append (.append (.literal rfl) hr) (.literal rfl))
      (nests_registerText id)) (.literal rfl)
  | offset places | preOffset places =>
    exact .append (.append (.append (.append (.literal rfl) hr) (.literal rfl))
      (nests_numeralText places)) (.literal rfl)
  | shortOffset places =>
    exact .append (.append (.append (.append (.literal rfl) hr) (.literal rfl))
      (nests_decimalText places)) (.literal rfl)

/-- Every form of a direct address closes the brackets that it opens. -/
theorem nests_directText (p : Printer) (insn : Instruction) (op : Operand) (address : UInt32)
    (form : AddressForm) : Nests (p.directText insn op address form) 0 0 := by
  have hbrackets : ∀ named, ∃ depth, Nests (directBrackets form named).1 0 depth ∧
      Nests (directBrackets form named).2 depth 0 := by
    intro named
    cases form with
    | plain => exact ⟨0, .literal rfl, .literal rfl⟩
    | page => cases named <;> exact ⟨0, .literal rfl, .literal rfl⟩
    | absolute16 | absolute | mapped | port | portPage => exact ⟨1, .literal rfl, .literal rfl⟩
  obtain ⟨depth, hopening, hclosing⟩ := hbrackets (p.mappedName? insn op form).isSome
  refine (hopening.append ?_).append hclosing
  cases p.mappedName? insn op form with
  | some r => exact r.nests_name
  | none => exact .ite (nests_numeralText _) (nests_numeralText _)

private theorem nests_flagPairText (code : UInt8) : Nests (flagPairText code) 0 0 := by
  have hfirst : Nests (if code &&& 2 = 0 then "TC1" else "!TC1") 0 0 :=
    .ite (.literal rfl) (.literal rfl)
  have hsecond : Nests (if code &&& 1 = 0 then "TC2" else "!TC2") 0 0 :=
    .ite (.literal rfl) (.literal rfl)
  exact (hfirst.append (.ite (.literal rfl) (.ite (.literal rfl) (.literal rfl)))).append hsecond

/-- A condition has a text without loose brackets, also if it is none of the table. -/
theorem nests_conditionText (code : UInt8) (tested : Option RegisterId) :
    Nests (conditionText code tested) 0 0 := by
  have hr : ∀ {depth}, Nests (tested.elim "?" registerText) depth depth := by
    intro depth
    cases tested with
    | none =>
      rw [Option.elim_none]
      exact .literal rfl
    | some id =>
      rw [Option.elim_some]
      exact nests_registerText id
  dsimp only [conditionText]
  iterate 6 refine .ite (hr.append (.literal rfl)) ?_
  iterate 2 refine .ite (.append (.append (.literal rfl) hr) (.literal rfl)) ?_
  iterate 6 refine .ite (.literal rfl) ?_
  refine .ite (nests_flagPairText code) ?_
  exact .append (.append (.literal rfl) (nests_hexText _)) (.literal rfl)

private theorem nests_comparandText (right : Comparand) : Nests (comparandText right) 0 0 := by
  cases right with
  | register id => exact nests_registerText id
  | constant value => exact .append (.literal rfl) (nests_numeralText value)

private theorem nests_relationText (relation : Relation) : Nests (relationText relation) 0 0 := by
  cases relation <;> exact .literal rfl

private theorem nests_amountText (s : Shift) : Nests (amountText s) 0 0 := by
  unfold amountText
  split
  · exact .append (.literal rfl) (nests_decimalText _)
  · exact .append (.literal rfl) (nests_decimalText _)
  · exact .literal rfl

private theorem nests_registersText (mask : UInt32) : Nests (registersText mask) 0 0 := by
  refine .append (.append (.literal rfl) (.intercalate (.literal rfl) fun name hname => ?_))
    (.literal rfl)
  obtain ⟨id, -, rfl⟩ := List.mem_map.mp hname
  exact nests_registerText id

/-- An operand has a text without loose brackets, if it is not given as text and no label stands for
its target. -/
theorem nests_operandText {p : Printer} (hlabel : ∀ a, p.label? a = none) (insn : Instruction)
    {op : Operand} (htext : ∀ bytes, op.value ≠ .text bytes) :
    Nests (p.operandText insn op) 0 0 := by
  unfold operandText
  cases hv : op.value with
  | empty => exact .empty
  | register id => exact nests_wrap op (nests_registerText id)
  | immediate value signed dataPage =>
    refine .append (.append ?_ (nests_numeralText value)) (nests_elim op.suffix)
    cases dataPage <;> exact .literal rfl
  | direct address high page form => exact nests_wrap op (nests_directText p insn op address form)
  | indirect base mode => exact nests_wrap op (nests_indirectText base mode)
  | target address displacement =>
    simp only [hlabel, Option.getD_none]
    exact nests_hexText _
  | condition code tested => exact nests_conditionText code tested
  | shift s => exact nests_amountText s
  | comparison id relation right =>
    exact .append (.append (nests_registerText id) (nests_relationText relation))
      (nests_comparandText right)
  | registers mask => exact nests_registersText mask
  | text bytes => exact absurd hv (htext bytes)

private theorem nests_separator {m : Mnemonic} (hsecond : ∀ name ∈ m.second, Nests name 0 0)
    (insn : Instruction) (slot : Nat) : Nests (separator insn m.second slot) 0 0 := by
  refine .ite (.literal rfl)
    (.ite (.append (.append (.literal rfl) ?_) (.literal rfl)) (.literal rfl))
  cases hm : m.second with
  | none => exact .literal rfl
  | some name => exact hsecond name hm

/-- All operands with what separates them close the brackets they open, where there are no labels
and no plain texts. -/
theorem nests_operands {p : Printer} (hlabel : ∀ a, p.label? a = none) {insn : Instruction}
    (htext : ∀ op ∈ insn.filled, ∀ bytes, op.value ≠ .text bytes) {m : Mnemonic}
    (hsecond : ∀ name ∈ m.second, Nests name 0 0) :
    Nests (String.join (insn.filled.zipIdx.map fun (op, slot) =>
      separator insn m.second slot ++ p.operandText insn op)) 0 0 := by
  have hjoin : Nests _ 0 (insn.filled.zipIdx.countP fun _ => false) :=
    .join fun x hx => (nests_separator hsecond insn x.2).append
      (nests_operandText hlabel insn (htext x.1 (List.fst_mem_of_mem_zipIdx hx)))
  rwa [List.countP_false] at hjoin

/-- The text of an instruction without labels and without operands given as text is left at the
depth of nesting where it starts. -/
theorem nests_render {p : Printer} (hlabel : ∀ a, p.label? a = none) {insn : Instruction}
    (htext : ∀ op ∈ insn.filled, ∀ bytes, op.value ≠ .text bytes) : Nests (p.render insn) 0 0 := by
  have hparallel : Nests (if insn.marks.parallel then "|| " else "") 0 0 :=
    .ite (.literal rfl) (.literal rfl)
  have hqualifier : Nests (qualifierText insn.marks) 0 0 :=
    .ite (.literal rfl) (.ite (.literal rfl) (.literal rfl))
  have hplain : ∀ {name : String}, (∀ c ∈ name.toList, Mnemonic.isNameChar c = true) →
      Nests name 0 0 := fun h => .of_forall h (by decide) (by decide)
  cases hm : Form.mnemonics[insn.kind]? with
  | none =>
    rw [render, hm]
    exact .append (.literal rfl) (nests_decimalText _)
  | some m =>
    obtain ⟨hname, hsecond⟩ := Form.isNameChar_of_mem_names hm
    rw [render, hm]
    exact ((hparallel.append (hplain hname)).append hqualifier).append
      (nests_operands hlabel htext fun name h => hplain (hsecond name h))

/-- In the text of an instruction without labels, whatever its kind, marks, split and operands are,
there are as many closing as opening brackets, and no more of them in any beginning of it. Operands
given as text are left out, since they are printed as they are. -/
theorem render_balances_brackets (settings : Settings) (context : Context) {insn : Instruction}
    (htext : ∀ op ∈ insn.filled, ∀ bytes, op.value ≠ .text bytes) :
    let text := (render { settings, context } insn).toList
    text.count ')' = text.count '(' ∧
      ∀ front, front <+: text → front.count ')' ≤ front.count '(' := by
  intro text
  have hnests : nesting? 0 text = some 0 := nests_render (fun _ => rfl) htext
  refine ⟨?_, fun front hfront => count_of_prefix hnests hfront⟩
  have hcount := count_of_nesting? hnests
  omega

/-- An operand with two operators that have brackets and one that has none around a pointer with a
short index, and a shift behind them. -/
def wrappedOperand : Operand :=
  { value := .indirect Register.ar2.id (.shortOffset 3)
    operators := {.invert, .round, .saturate}
    suffix := some (.shift ⟨.left, .constant 3⟩ true) }

/-- Four brackets are opened in a row and closed again before the shift. -/
theorem render_balances_brackets_wrapped :
    let insn : Instruction :=
      { address := 0, kind := Form.mov2.kind,
        operands := .mk #[wrappedOperand, {}, {}, {}, {}, {}] rfl }
    let text := (render { settings := {}, context := {} } insn).toList
    (∀ op ∈ insn.filled, ∀ bytes, op.value ≠ .text bytes) ∧ text.count '(' = 4 ∧
      text.count ')' = text.count '(' ∧
      ∀ front, front <+: text → front.count ')' ≤ front.count '(' := by
  intro insn text
  have htext : ∀ op ∈ insn.filled, ∀ bytes, op.value ≠ .text bytes := by
    intro op hop bytes hvalue
    rw [show insn.filled = [wrappedOperand] from rfl, List.mem_singleton] at hop
    rw [hop] at hvalue
    cases hvalue
  exact ⟨htext, by decide +kernel, render_balances_brackets {} {} htext⟩

end Printer

end DspCode
