import DspCode.Assembly
import DspCode.Proofs.Alphabets
import DspCode.Proofs.Legible

/-!
# The text of decoded instructions

Printing stands in for what has no name: a question mark for a register, `cond(` for a condition,
`.kind` for a kind. None of this is needed for a decoded instruction, whose operands are legible.
Texts are put together from pieces, so that what is shown of each piece carries over to texts that
are joined. Main statement: the text of a decoded instruction has none of the three, and it has two
lines if its mnemonic has two names and one line otherwise.
-/

namespace DspCode

namespace Text

/-- Whether there is no question mark in a text, and another character than `n` behind every `o` in
it. Texts that are joined cannot make up `cond(` then, since none of them ends in `o`. -/
def isClear : List Char → Bool
  | [] => true
  | c :: rest => c != '?' && (c != 'o' || rest.head?.any (· != 'n')) && isClear rest

/-- Clear texts can be joined. -/
theorem isClear_append {l m : List Char} (hl : isClear l = true) (hm : isClear m = true) :
    isClear (l ++ m) = true := by
  induction l with
  | nil => exact hm
  | cons c l ih =>
    simp only [isClear, List.cons_append, Bool.and_eq_true, Bool.or_eq_true] at hl ⊢
    refine ⟨⟨hl.1.1, hl.1.2.imp id fun hnext => ?_⟩, ih hl.2⟩
    cases l with
    | nil => cases hnext
    | cons => exact hnext

/-- The end of a clear text is clear. -/
theorem isClear_of_append {l m : List Char} (h : isClear (l ++ m) = true) : isClear m = true := by
  induction l with
  | nil => exact h
  | cons c l ih =>
    rw [List.cons_append, isClear, Bool.and_eq_true] at h
    exact ih h.2

/-- A clear text has no question mark. -/
theorem question_not_mem_of_isClear {l : List Char} (h : isClear l = true) : '?' ∉ l := by
  intro hmem
  obtain ⟨front, rest, rfl⟩ := List.append_of_mem hmem
  have := isClear_of_append h
  simp [isClear] at this

/-- A clear text has no piece that is not clear. -/
theorem not_infix_of_isClear {l m : List Char} (h : isClear l = true)
    (hm : ∀ rest, isClear (m ++ rest) = false) : ¬m <:+: l := by
  rintro ⟨front, rest, rfl⟩
  rw [List.append_assoc] at h
  exact Bool.false_ne_true ((hm rest).symm.trans (isClear_of_append h))

/-- A text is clear and has so many line breaks. -/
structure Prints (text : String) (breaks : Nat) : Prop where
  /-- It is clear. -/
  clear : isClear text.toList = true
  /-- The line breaks are counted. -/
  count : text.toList.count '\n' = breaks

/-- Whether a text is clear and has so many line breaks. -/
def prints (text : List Char) (breaks : Nat) : Bool := isClear text && text.count '\n' == breaks

namespace Prints

/-- What the check of a text finds holds of it. -/
theorem of_prints {text : String} {breaks : Nat} (h : prints text.toList breaks = true) :
    Prints text breaks := by
  rw [prints, Bool.and_eq_true, beq_iff_eq] at h
  exact ⟨h.1, h.2⟩

/-- A fixed text, checked character by character. -/
theorem literal {text : List Char} {breaks : Nat} (h : prints text breaks = true) :
    Prints (String.ofList text) breaks :=
  of_prints (by rwa [String.toList_ofList])

private theorem empty : Prints "" 0 := literal (by decide)

/-- The line breaks of two texts add up when they are joined. -/
theorem append {s t : String} {m n : Nat} (hs : Prints s m) (ht : Prints t n) :
    Prints (s ++ t) (m + n) := by
  constructor
  · rw [String.toList_append]
    exact isClear_append hs.clear ht.clear
  · rw [String.toList_append, List.count_append, hs.count, ht.count]

/-- A text without line breaks before another. -/
theorem before {s t : String} {n : Nat} (hs : Prints s 0) (ht : Prints t n) : Prints (s ++ t) n :=
  Nat.zero_add n ▸ hs.append ht

/-- Texts are joined, each with a line break or without one. -/
theorem join {α : Type} {f : α → String} {hasBreak : α → Bool} {l : List α}
    (h : ∀ x ∈ l, Prints (f x) (if hasBreak x then 1 else 0)) :
    Prints (String.join (l.map f)) (l.countP hasBreak) := by
  induction l with
  | nil => exact empty
  | cons x l ih =>
    rw [List.map_cons, String.join_cons, List.countP_cons, Nat.add_comm]
    exact (h x List.mem_cons_self).append (ih fun y hy => h y (List.mem_cons_of_mem _ hy))

/-- A text of other characters than those that matter. -/
theorem of_not_mem {text : String} (h : ∀ c ∈ text.toList, c ∉ ['?', 'o', '\n']) :
    Prints text 0 := by
  suffices hchars : ∀ l : List Char, (∀ c ∈ l, c ∉ ['?', 'o', '\n']) →
      isClear l = true ∧ l.count '\n' = 0 from ⟨(hchars _ h).1, (hchars _ h).2⟩
  intro l hl
  induction l with
  | nil => exact ⟨rfl, rfl⟩
  | cons c l ih =>
    obtain ⟨hc, hrest⟩ := List.forall_mem_cons.mp hl
    obtain ⟨hclear, hcount⟩ := ih hrest
    simp only [List.mem_cons, List.not_mem_nil, or_false, not_or] at hc
    constructor
    · simp [isClear, hclear, hc.1, hc.2.1]
    · rw [List.count_cons_of_ne hc.2.2, hcount]

/-- A text whose characters have a property that the characters that matter do not have. -/
theorem of_forall {p : Char → Bool} {text : String} (h : ∀ c ∈ text.toList, p c = true)
    (hp : ['?', 'o', '\n'].any p = false) : Prints text 0 :=
  of_not_mem fun c hc hmem => List.any_eq_false.mp hp c hmem (h c hc)

end Prints

end Text

open Text

section Numerals

/-- A hexadecimal number is clear and has no line break. -/
theorem prints_hexText (n : Nat) : Prints (hexText n) 0 :=
  .of_forall (isNumeralChar_of_mem_hexText n) (by decide)

/-- A decimal number is clear and has no line break. -/
theorem prints_decimalText (n : Int) : Prints (decimalText n) 0 :=
  .of_forall (isNumeralChar_of_mem_decimalText n) (by decide)

/-- A number as it is printed is clear and has no line break. -/
theorem prints_numeralText (v : Int) : Prints (numeralText v) 0 :=
  .of_forall (isNumeralChar_of_mem_numeralText v) (by decide)

end Numerals

/-- The name of a register is clear and has no line break. -/
theorem Register.prints_name (r : Register) : Prints r.name 0 :=
  .of_forall r.isNameChar_of_mem_name (by decide)

/-- A register number is printed as the name of a register. -/
theorem prints_registerText {id : RegisterId} (h : isRegister id = true) :
    Prints (registerText id) 0 := by
  rw [isRegister, decide_eq_true_eq] at h
  rw [registerText, registerName?, Array.getElem?_eq_getElem h, Option.map_some, Option.getD_some]
  exact Register.prints_name _

/-- Each operand of a legible instruction is legible. -/
theorem Instruction.Legible.of_mem_filled {insn : Instruction} (h : insn.Legible) {op : Operand}
    (hop : op ∈ insn.filled) : op.isLegible = true := by
  have hmem := (List.takeWhile_sublist _).subset hop
  obtain ⟨slot, hslot⟩ := List.mem_iff_getElem?.mp hmem
  have := h slot
  rwa [Instruction.operand, ← Vector.getElem?_toList, hslot, Option.getD_some] at this

namespace Printer

private theorem prints_operatorText (o : Operator) : Prints (operatorText o) 0 := by
  cases o <;> exact .literal (by decide)

private theorem prints_shiftText {s : Shift} (h : s.isLegible = true) : Prints (shiftText s) 0 := by
  obtain ⟨direction, amount⟩ := s
  cases amount with
  | constant places =>
    cases direction <;> simp only [shiftText] <;>
      exact .before (.before (.literal (by decide)) (.literal (by decide)))
        (prints_decimalText places)
  | register id =>
    cases direction <;> simp only [shiftText] <;>
      exact .before (.literal (by decide)) (prints_registerText h)

private theorem prints_suffixText {suffix : Suffix} (h : suffix.isLegible = true) :
    Prints (suffixText suffix) 0 := by
  cases suffix with
  | shift s outside => exact prints_shiftText h
  | equals value => exact .before (.literal (by decide)) (prints_decimalText value)
  | notEquals value => exact .before (.literal (by decide)) (prints_decimalText value)

/-- The text after an operand, or the part of it that passes a test. -/
theorem prints_elim {suffix? : Option Suffix} (h : suffix?.all (·.isLegible) = true)
    (p : Suffix → Bool) : Prints ((suffix?.filter p).elim "" suffixText) 0 := by
  cases suffix? with
  | none => exact .empty
  | some suffix =>
    rw [Option.filter_some]
    split
    · exact prints_suffixText h
    · exact .empty

/-- What an operator adds around the clear text of a legible operand is clear. -/
theorem prints_wrap {op : Operand} (h : op.isLegible = true) {body : String}
    (hbody : Prints body 0) : Prints (wrap op body) 0 := by
  rw [Operand.isLegible, Bool.and_eq_true] at h
  have hopening : Prints (String.join (op.operators.toList.map operatorText)) 0 := by
    have hjoin : Prints _ (op.operators.toList.countP fun _ => false) :=
      Prints.join fun o _ => prints_operatorText o
    rwa [List.countP_false] at hjoin
  have hclosing : ∀ n, Prints (String.ofList (List.replicate n ')')) 0 := by
    refine fun n => .of_not_mem fun c hc => ?_
    rw [String.toList_ofList] at hc
    rw [List.eq_of_mem_replicate hc]
    decide
  have hbefore := (hopening.before hbody).before (prints_elim h.2 (!isOutside ·))
  exact (hbefore.before (hclosing _)).before (prints_elim h.2 isOutside)

/-- An access by a pointer that is a register, in a legible mode, prints as a clear text. -/
theorem prints_indirectText {base : RegisterId} {mode : PointerMode}
    (hbase : isRegister base = true) (hmode : mode.isLegible = true) :
    Prints (indirectText base mode) 0 := by
  have hr := prints_registerText hbase
  cases mode with
  | plain | preIncrement | preDecrement => exact .before (.literal (by decide)) hr
  | postIncrement | postDecrement | postAddReversed | postSubtractReversed =>
    exact .before (.before (.literal (by decide)) hr) (.literal (by decide))
  | postAdd id | postSubtract id | indexed id =>
    exact .before (.before (.before (.before (.literal (by decide)) hr) (.literal (by decide)))
      (prints_registerText hmode)) (.literal (by decide))
  | offset places | preOffset places =>
    exact .before (.before (.before (.before (.literal (by decide)) hr) (.literal (by decide)))
      (prints_numeralText places)) (.literal (by decide))
  | shortOffset places =>
    exact .before (.before (.before (.before (.literal (by decide)) hr) (.literal (by decide)))
      (prints_decimalText places)) (.literal (by decide))

private theorem prints_directText (p : Printer) (insn : Instruction) (op : Operand)
    (address : UInt32) (form : AddressForm) : Prints (p.directText insn op address form) 0 := by
  have hopening : ∀ named, Prints (directBrackets form named).1 0 := by
    intro named
    cases form <;> cases named <;> exact .literal (by decide)
  have hclosing : ∀ named, Prints (directBrackets form named).2 0 := by
    intro named
    cases form <;> cases named <;> exact .literal (by decide)
  unfold directText
  refine .before (.before (hopening _) ?_) (hclosing _)
  split
  · exact Register.prints_name _
  · split
    · exact prints_numeralText _
    · exact prints_numeralText _

/-- A condition of the table has a text. -/
theorem prints_conditionText {code : UInt8} {tested : Option RegisterId}
    (h : isCondition code tested = true) : Prints (conditionText code tested) 0 := by
  cases tested with
  | some id =>
    rw [isCondition, Bool.and_eq_true] at h
    obtain ⟨hid, hcode⟩ := h
    have hr := prints_registerText hid
    unfold conditionText
    rw [Option.elim_some]
    generalize registerText id = r at hr
    simp only [List.contains_eq_mem, List.mem_cons, List.not_mem_nil, or_false,
      decide_eq_true_eq] at hcode
    rcases hcode with rfl | rfl | rfl | rfl | rfl | rfl | rfl | rfl
    iterate 6
      · exact .before hr (.literal (by decide))
    iterate 2
      · exact .before (.before (.literal (by decide)) hr) (.literal (by decide))
  | none =>
    simp only [isCondition, List.contains_eq_mem, List.mem_cons, List.not_mem_nil, or_false,
      decide_eq_true_eq] at h
    rcases h with rfl | rfl | rfl | rfl | rfl | rfl | rfl | rfl | rfl | rfl | rfl | rfl | rfl |
      rfl | rfl | rfl | rfl | rfl
    iterate 6
      · exact .literal (by decide)
    iterate 12
      · exact .before (.before (.literal (by decide)) (.literal (by decide))) (.literal (by decide))

private theorem prints_comparandText {right : Comparand} (h : right.isLegible = true) :
    Prints (comparandText right) 0 := by
  cases right with
  | register id => exact prints_registerText h
  | constant value => exact .before (.literal (by decide)) (prints_numeralText value)

private theorem prints_relationText (relation : Relation) : Prints (relationText relation) 0 := by
  cases relation <;> exact .literal (by decide)

private theorem prints_amountText (s : Shift) : Prints (amountText s) 0 := by
  unfold amountText
  split
  · exact .before (.literal (by decide)) (prints_decimalText _)
  · exact .before (.literal (by decide)) (prints_decimalText _)
  · exact .literal (by decide)

/-- A legible operand has a text of one line, if no label stands for its target. -/
theorem prints_operandText {p : Printer} (hlabel : ∀ a, p.label? a = none) (insn : Instruction)
    {op : Operand} (h : op.isLegible = true) : Prints (p.operandText insn op) 0 := by
  have hop := h
  rw [Operand.isLegible, Bool.and_eq_true] at hop
  obtain ⟨hvalue, hsuffix⟩ := hop
  unfold operandText
  cases hv : op.value with
  | empty => exact .empty
  | register id =>
    rw [hv] at hvalue
    exact prints_wrap h (prints_registerText hvalue)
  | immediate value signed dataPage =>
    refine .before (.before ?_ (prints_numeralText value)) ?_
    · cases dataPage <;> exact .literal (by decide)
    · cases hs : op.suffix with
      | none => exact .empty
      | some suffix =>
        rw [hs] at hsuffix
        exact prints_suffixText hsuffix
  | direct address high page form => exact prints_wrap h (prints_directText p insn op address form)
  | indirect base mode =>
    rw [hv, OperandValue.isLegible, Bool.and_eq_true] at hvalue
    exact prints_wrap h (prints_indirectText hvalue.1 hvalue.2)
  | target address displacement =>
    simp only [hlabel, Option.getD_none]
    exact prints_hexText _
  | condition code tested =>
    rw [hv] at hvalue
    exact prints_conditionText hvalue
  | shift s => exact prints_amountText s
  | comparison id relation right =>
    rw [hv, OperandValue.isLegible, Bool.and_eq_true] at hvalue
    exact .before (.before (prints_registerText hvalue.1) (prints_relationText relation))
      (prints_comparandText hvalue.2)
  | registers mask =>
    rw [hv] at hvalue
    cases hvalue
  | text bytes =>
    rw [hv] at hvalue
    cases hvalue

end Printer

/-- Whether the names of a mnemonic are clear and of one line, and the first does not start with a
dot. -/
def Mnemonic.isNamed (m : Mnemonic) : Bool :=
  prints m.name.toList 0 && m.name.toList.head?.any (· != '.') && m.second.all (prints ·.toList 0)

/-- All mnemonics but that of the null kind are named. -/
theorem Form.isNamed_of_getElem? {kind : Kind} {m : Mnemonic} (hkind : kind ≠ 0)
    (h : mnemonics[kind]? = some m) : m.isNamed = true := by
  have htable : ((table.toList.drop 1).all fun row => row.mnemonic.isNamed) = true := by
    decide +kernel
  obtain ⟨k, rfl⟩ := Nat.exists_eq_succ_of_ne_zero hkind
  rw [mnemonics, Array.getElem?_map, Option.map_eq_some_iff] at h
  obtain ⟨row, hrow, rfl⟩ := h
  refine List.all_eq_true.mp htable row (List.mem_of_getElem? (i := k) ?_)
  rw [List.getElem?_drop, Nat.add_comm, Array.getElem?_toList]
  exact hrow

namespace Printer

/-- Whether the operand in a slot starts the second line. -/
def startsLine (split : Option Nat) (slot : Nat) : Bool := slot != 0 && split == some slot

/-- An operand is set off by a line break only where the second line of its instruction starts. -/
theorem prints_separator {insn : Instruction} {second : Option String} {slot : Nat}
    (hnames : second.all (prints ·.toList 0) = true)
    (hsecond : insn.split?.isSome = second.isSome) :
    Prints (separator insn second slot) (if startsLine insn.split? slot then 1 else 0) := by
  unfold separator startsLine
  by_cases hzero : slot = 0
  · rw [if_pos hzero, hzero, bne_self_eq_false, Bool.false_and]
    exact .literal (by decide)
  · rw [if_neg hzero, bne_iff_ne.mpr hzero, Bool.true_and]
    by_cases hsplit : insn.split? = some slot
    · rw [if_pos hsplit, if_pos (beq_iff_eq.mpr hsplit)]
      rw [hsplit] at hsecond
      obtain ⟨name, rfl⟩ := Option.isSome_iff_exists.mp hsecond.symm
      have hline : Prints "\n:: " 1 := .literal (by decide)
      have hname : Prints name 0 := .of_prints hnames
      have hblank : Prints " " 0 := .literal (by decide)
      exact (hline.append hname).append hblank
    · rw [if_neg hsplit, if_neg (mt beq_iff_eq.mp hsplit)]
      exact .literal (by decide)

/-- One operand starts the second line, if it starts behind the first operand and before the last
one, and none without a second line. -/
theorem countP_startsLine {split : Option Nat} {count : Nat}
    (h : ∀ i, split = some i → 0 < i ∧ i < count) :
    (List.range count).countP (startsLine split) = if split.isSome then 1 else 0 := by
  cases split with
  | none =>
    refine List.countP_eq_zero.mpr fun slot _ => ?_
    simp [startsLine]
  | some i =>
    obtain ⟨hpos, hlt⟩ := h i rfl
    have hcount : ∀ n, (List.range n).countP (startsLine (some i)) = if i < n then 1 else 0 := by
      intro n
      induction n with
      | zero => rfl
      | succ n ih =>
        rw [List.range_succ, List.countP_append, ih, List.countP_singleton]
        simp only [startsLine, Bool.and_eq_true, bne_iff_ne, beq_iff_eq, Option.some.injEq]
        split <;> split <;> split <;> omega
    rw [hcount, if_pos hlt]
    rfl

variable {p : Printer} {insn : Instruction} {m : Mnemonic}

/-- The parts of a text, for a kind of the table. -/
theorem render_of_mnemonic (hm : Form.mnemonics[insn.kind]? = some m) :
    p.render insn = (if insn.marks.parallel then "|| " else "") ++ m.name ++
      qualifierText insn.marks ++ String.join (insn.filled.zipIdx.map fun (op, slot) =>
        separator insn m.second slot ++ p.operandText insn op) := by
  rw [render, hm]

/-- The text of an instruction with legible operands and the names that its lines need. -/
theorem prints_render (hlabel : ∀ a, p.label? a = none)
    (hm : Form.mnemonics[insn.kind]? = some m) (hnamed : m.isNamed = true)
    (hlegible : insn.Legible) (hlines : insn.split?.isSome = m.second.isSome)
    (hsplit : ∀ i, insn.split? = some i → 0 < i ∧ i < insn.operandCount) :
    Prints (p.render insn) (if m.second.isSome then 1 else 0) := by
  rw [Mnemonic.isNamed, Bool.and_eq_true, Bool.and_eq_true] at hnamed
  have hparallel : Prints (if insn.marks.parallel then "|| " else "") 0 := by
    split <;> exact .literal (by decide)
  have hqualifier : Prints (qualifierText insn.marks) 0 := by
    unfold qualifierText
    split
    · exact .literal (by decide)
    · split <;> exact .literal (by decide)
  have hcount : (insn.filled.zipIdx.countP fun x => startsLine insn.split? x.2) =
      if m.second.isSome then 1 else 0 := by
    rw [← hlines, ← countP_startsLine hsplit, List.range_eq_range', Instruction.operandCount,
      ← Instruction.filled, ← List.zipIdx_map_snd, List.countP_map]
    rfl
  rw [render_of_mnemonic hm, ← hcount]
  have hfront := (hparallel.before (.of_prints hnamed.1.1)).before hqualifier
  refine hfront.before (.join fun x hx => ?_)
  have hop := hlegible.of_mem_filled (List.fst_mem_of_mem_zipIdx hx)
  exact (prints_separator hnamed.2 hlines).append (prints_operandText hlabel insn hop)

/-- The text of an instruction starts with its mnemonic, behind the mark of parallel
instructions. -/
theorem name_render (hm : Form.mnemonics[insn.kind]? = some m) :
    ((if insn.marks.parallel then "|| " else "") ++ m.name).toList <+: (p.render insn).toList := by
  rw [render_of_mnemonic hm]
  simp only [String.toList_append, List.append_assoc]
  exact List.prefix_append_right_inj _ |>.mpr (List.prefix_append _ _)

/-- The second name stands in front of the operand that starts the second line. -/
theorem second_render {second : String} {i : Nat} (hm : Form.mnemonics[insn.kind]? = some m)
    (hsecond : m.second = some second) (hsplit : insn.split? = some i) (hpos : 0 < i)
    (hlt : i < insn.operandCount) :
    ("\n:: " ++ second ++ " ").toList <:+: (p.render insn).toList := by
  have hseparator : separator insn m.second i = "\n:: " ++ second ++ " " := by
    rw [separator, if_neg (Nat.ne_of_gt hpos), if_pos hsplit, hsecond, Option.getD_some]
  have hmem : (insn.filled[i], i) ∈ insn.filled.zipIdx :=
    List.mk_mem_zipIdx_iff_getElem?.mpr (List.getElem?_eq_getElem hlt)
  rw [← hseparator, render_of_mnemonic hm]
  simp only [String.toList_append, String.toList_join, List.flatMap_map]
  refine .trans ?_ (List.suffix_append _ _).isInfix
  rw [List.flatMap_def]
  refine .trans ?_ (List.infix_of_mem_flatten (List.mem_map_of_mem hmem))
  exact (List.prefix_append _ _).isInfix

/-- The text of an instruction starts with the mark of parallel instructions or with the mnemonic,
and not with a dot. -/
theorem not_dotKind_render (hm : Form.mnemonics[insn.kind]? = some m)
    (hnamed : m.isNamed = true) : ¬".kind".toList <+: (p.render insn).toList := by
  rw [Mnemonic.isNamed, Bool.and_eq_true, Bool.and_eq_true] at hnamed
  have hname := hnamed.1.2
  rintro ⟨rest, htext⟩
  rw [render_of_mnemonic hm] at htext
  simp only [String.toList_append, List.append_assoc] at htext
  cases hparallel : insn.marks.parallel with
  | true => simp [hparallel] at htext
  | false =>
    cases hcs : m.name.toList with
    | nil =>
      rw [hcs] at hname
      cases hname
    | cons c cs =>
      simp [hcs] at hname
      simp [hparallel, hcs] at htext
      exact hname htext.1.symm

end Printer

/-- The number of parts is one more than the number of separators. -/
theorem length_splitOn {α : Type} [BEq α] [LawfulBEq α] (c : α) (l : List α) :
    (l.splitOn c).length = l.count c + 1 := by
  rw [List.splitOn]
  induction l with
  | nil => rfl
  | cons x l ih =>
    rw [List.splitOnP_cons_eq_if_modifyHead, List.count_cons]
    split <;> simp_all

namespace Machine

/-- The text of a decoded instruction without labels has no question mark, does not start with the
number of its kind and prints no condition by its code. It starts with its mnemonic. It has two
lines if its mnemonic has a second name, which starts the second line, and otherwise one. -/
theorem render_of_decode {space : AddressSpace} {k : Knowledge} {a : Address} {d : Decoded}
    (h : c55x.decode space k a = .ok d) (settings : Settings) (context : Context) :
    ∃ m, Form.mnemonics[d.insn.kind]? = some m ∧
      let text := (Printer.render { settings, context } d.insn).toList
      '?' ∉ text ∧ ¬".kind".toList <+: text ∧ ¬"cond(".toList <:+: text ∧
        ((if d.insn.marks.parallel then "|| " else "") ++ m.name).toList <+: text ∧
        (text.splitOn '\n').length = (if m.second.isSome then 2 else 1) ∧
        ∀ second, m.second = some second → ("\n:: " ++ second ++ " ").toList <:+: text := by
  obtain ⟨o, ⟨m, hfits⟩, hshape⟩ := exists_shape_of_decode h
  have hm : Form.mnemonics[d.insn.kind]? = some m := by rw [hshape.kind, hfits.named]
  have hnamed := Form.isNamed_of_getElem? hfits.kind_ne_zero hfits.named
  have hlined := hfits.lined
  rw [Outline.isLined, Bool.and_eq_true, beq_iff_eq] at hlined
  have hlines : d.insn.split?.isSome = m.second.isSome := by rw [hshape.split, hlined.1]
  have hsplit : ∀ i, d.insn.split? = some i → 0 < i ∧ i < d.insn.operandCount := by
    intro i hi
    rw [hshape.split] at hi
    rw [hshape.filled.operandCount]
    simpa [hi] using hlined.2
  have hprints := Printer.prints_render (p := { settings, context }) (fun _ => rfl) hm hnamed
    (legible_of_decode h) hlines hsplit
  refine ⟨m, hm, question_not_mem_of_isClear hprints.clear, Printer.not_dotKind_render hm hnamed,
    not_infix_of_isClear hprints.clear fun rest => rfl, Printer.name_render hm, ?_, ?_⟩
  · rw [length_splitOn, hprints.count]
    split <;> rfl
  · intro second hsecond
    rw [hsecond, Option.isSome_some] at hlines
    obtain ⟨i, hi⟩ := Option.isSome_iff_exists.mp hlines
    exact Printer.second_render hm hsecond hi (hsplit i hi).1 (hsplit i hi).2

/-- The mantissa and the exponent of an accumulator, in one instruction. -/
def mantissaAndExponent : AddressSpace := .holding 0 [0x10, 0x09, 0x01]

/-- The mantissa is on one line, the exponent on another. -/
theorem render_of_decode_mantissaAndExponent :
    ∃ d, c55x.decode mantissaAndExponent {} 0 = .ok d ∧ d.insn.kind = Form.mantNexp.kind ∧
      ((Printer.render { settings := {}, context := {} } d.insn).toList.splitOn '\n').length =
        2 := by
  have hkind : (c55x.decode mantissaAndExponent {} 0).toOption.map (·.insn.kind) =
      some Form.mantNexp.kind := by
    decide +kernel
  have hsecond : Form.mnemonics[Form.mantNexp.kind]?.all (·.second.isSome) = true := by
    rw [Encoding.mnemonics_eq]
    decide +kernel
  obtain ⟨d, hd, hkind⟩ := exists_ok_of_toOption hkind
  obtain ⟨m, hm, -, -, -, -, hlines, -⟩ := render_of_decode hd {} {}
  rw [hkind] at hm
  rw [hm] at hsecond
  exact ⟨d, hd, hkind, hlines.trans (if_pos hsecond)⟩

end Machine

end DspCode
