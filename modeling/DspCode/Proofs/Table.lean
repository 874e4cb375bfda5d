import DspCode.Proofs.Outline
import DspCode.Proofs.Retarget
import DspCode.StatusBit

/-!
# Facts about the encoding table

What holds of every row of the processor's table, settled by going through the rows. The outlines of
every row can be followed through its fields. The rows with a code target at a distance that are
short enough to run in parallel with another instruction read no byte after their code word, and
their first byte is below 0x80. The usage of the kind tells about every operand, six rows apart, and
the second line starts between two operands if the kind has a second name. Fields that count from a
register end among the registers.
-/

namespace DspCode

/-- The forms whose usage says nothing of the last operand that some row gives them, with the number
of operands there. -/
def Form.leavingOut : List (Form × Nat) :=
  [(.max1, 2), (.min1, 2), (.and2, 3), (.or2, 3), (.xor2, 3), (.addsubcc4, 5)]

/-- Whether the usage of a kind says nothing of the last one of so many operands. -/
def leavesOutLast (kind : Kind) (count : Nat) : Bool :=
  Form.leavingOut.any fun p => kind == p.1.kind && count == p.2

namespace Outline

/-- The outlines after a status bit was named: the same, or that of the form with the name in the
place of a bit number and a status register. -/
def settled (o : Outline) : List Outline :=
  match StatusBit.namedForm? o.kind with
  | some form => [o, { o with kind := form.kind, count := 1 }]
  | none => [o]

/-- Whether the naming of a status bit finds the two operands that it replaces. -/
def isSettled (o : Outline) : Bool :=
  (StatusBit.namedForm? o.kind).isNone || o.count == 2

/-- How many operands the usage of the kind tells about. -/
def assigned (o : Outline) : Nat :=
  if leavesOutLast o.kind o.count then o.count - 1 else o.count

/-- Whether the usage of the kind tells about exactly the operands that it should. -/
def isAssigned (o : Outline) (m : Mnemonic) : Bool :=
  (List.range 6).all fun slot =>
    (m.usage.readsSlot slot || m.usage.writesSlot slot) == decide (slot < o.assigned)

/-- Whether there is a second line exactly if the kind has a second name, with an operand before it
and one in it. -/
def isLined (o : Outline) (m : Mnemonic) : Bool :=
  m.second.isSome == o.split.isSome && o.split.all fun i => 0 < i && i < o.count

/-- What is said of every outline that a row of the table gives. The null kind is not among them. -/
def isProper (mnemonic? : Kind → Option Mnemonic) (o : Outline) : Bool :=
  o.isSettled && o.settled.all fun p =>
    match mnemonic? p.kind with
    | some m => p.kind != 0 && p.isAssigned m && p.isLined m
    | none => false

/-- The naming of a status bit finds its operands in every proper outline. -/
theorem isSettled_of_isProper {mnemonic? : Kind → Option Mnemonic} {o : Outline}
    (h : o.isProper mnemonic? = true) : o.isSettled = true := by
  rw [isProper, Bool.and_eq_true] at h
  exact h.1

/-- A settled proper outline has a mnemonic whose usage and second line suit it. -/
theorem exists_of_isProper {mnemonic? : Kind → Option Mnemonic} {o p : Outline}
    (h : o.isProper mnemonic? = true) (hp : p ∈ o.settled) :
    ∃ m, mnemonic? p.kind = some m ∧ p.kind ≠ 0 ∧ p.isAssigned m = true ∧ p.isLined m = true := by
  rw [isProper, Bool.and_eq_true, List.all_eq_true] at h
  have hproper := h.2 p hp
  cases hm : mnemonic? p.kind with
  | none => simp [hm] at hproper
  | some m =>
    simp only [hm, Bool.and_eq_true, bne_iff_ne] at hproper
    exact ⟨m, rfl, hproper.1.1, hproper.1.2, hproper.2⟩

end Outline

/-- The register that a field counts from, and how many values of the field it counts as one. -/
def Field.family? : Field → Option (Register × Nat)
  | .source | .optionalSource | .relationRegister => some (.ac0, 1)
  | .temporary | .shiftByTemporary => some (.t0, 1)
  | .testControl => some (.tc1, 1)
  | .transition => some (.trn0, 1)
  | .status => some (.st0_55, 1)
  | .xmem => some (.ar0, 8)
  | .smem | .lmem | .pointerUpdate | .bitAddress => some (.ar0, 32)
  | _ => none

/-- Whether a field that counts from a register comes to one with the value `v`. -/
def Field.reaches (field : Field) (v : Nat) : Bool :=
  field.family?.all fun p => p.1.id + v / p.2 < Register.all.size

/-- The largest value that a selector takes from any code word. -/
def BitSelector.largest : BitSelector → Nat
  | .bits mask => mask / lowestBit mask
  | .constant value => value
  | .inverted _ => 1

/-- Whether a field counts a code target from the next instruction. -/
def Field.seeks : Field → Bool
  | .forward | .relative _ => true
  | _ => false

namespace Encoding

/-- The outline that the draft of a row starts with. -/
def outline (e : Encoding) : Outline := ⟨e.kind, 0, e.width, e.width, none⟩

/-- The outlines that the instructions of a row can have, if they can be followed. -/
def outlines? (e : Encoding) : Option (List Outline) :=
  Outline.afterAll? Form.mnemonics [e.outline] e.fields

/-- Whether a row has a code target at a distance. -/
def seeks (e : Encoding) : Bool := e.fields.any (·.field.seeks)

/-- Whether a row reads nothing after its code word and starts below 0x80. -/
def isPlainAndLow (e : Encoding) (os : List Outline) : Bool :=
  os.all (·.reach = e.width) &&
    (List.range 128).all fun i => !e.unitAgrees 8 (e.width - 1) (UInt8.ofNat (i + 128))

/-- Whether a row keeps to what is said of every row of the table. -/
def isRegular (mnemonics : Array Mnemonic) (mnemonic? : Kind → Option Mnemonic) (e : Encoding) :
    Bool :=
  match Outline.afterAll? mnemonics [e.outline] e.fields with
  | some os =>
    0 < e.width && e.width ≤ 6 && (!e.seeks || 3 < e.width || e.isPlainAndLow os) &&
      (os.all (·.isProper mnemonic?) &&
        e.fields.all fun use => use.field.reaches use.selector.largest)
  | none => false

/-- The mnemonic table as a list, which is evaluated faster. -/
theorem mnemonics_eq : Form.mnemonics = ⟨Form.table.toList.map Form.Row.mnemonic⟩ :=
  Array.ext' Array.toList_map

/-- The mnemonic table in pages of sixteen. -/
def mnemonicPages : List (List Form.Row) :=
  (List.range 20).map fun page => (Form.table.toList.drop (page * 16)).take 16

/-- The mnemonic of a kind, looked up in its page. -/
def pagedMnemonic? (kind : Kind) : Option Mnemonic :=
  (mnemonicPages[kind / 16]?.bind (·[kind % 16]?)).map Form.Row.mnemonic

/-- The pages hold the mnemonic table. -/
theorem pagedMnemonic?_eq (kind : Nat) : pagedMnemonic? kind = Form.mnemonics[kind]? := by
  have hsize : Form.table.toList.length ≤ 320 := by decide +kernel
  have hplace : kind / 16 * 16 + kind % 16 = kind := Nat.div_add_mod' kind 16
  have hlt : kind % 16 < 16 := Nat.mod_lt kind (by decide)
  rw [mnemonics_eq, List.getElem?_toArray, List.getElem?_map, pagedMnemonic?, mnemonicPages,
    List.getElem?_map]
  congr 1
  by_cases hpage : kind / 16 < 20
  · rw [List.getElem?_range hpage, Option.map_some, Option.bind_some, List.getElem?_take_of_lt hlt,
      List.getElem?_drop, hplace]
  · rw [List.getElem?_eq_none (by simp; omega), List.getElem?_eq_none (by omega)]
    rfl

/-- Every row of the table is regular. -/
theorem table_isRegular : table.all (isRegular Form.mnemonics pagedMnemonic?) = true := by
  rw [mnemonics_eq]
  decide +kernel

variable {e : Encoding}

/-- The outlines of every row of the table can be followed. -/
theorem outlines?_of_mem (h : e ∈ table) : ∃ os, e.outlines? = some os := by
  have := List.all_eq_true.mp table_isRegular e h
  unfold isRegular at this
  split at this
  next os hos => exact ⟨os, hos⟩
  next => cases this

/-- The code words of the table have one to six bytes. -/
theorem width_of_mem (h : e ∈ table) : 0 < e.width ∧ e.width ≤ 6 := by
  have := List.all_eq_true.mp table_isRegular e h
  unfold isRegular at this
  split at this
  · simp only [Bool.and_eq_true, decide_eq_true_eq] at this
    exact this.1.1
  · cases this

/-- All outlines of a row of the table are proper. -/
theorem isProper_of_mem (h : e ∈ table) {os : List Outline} (hos : e.outlines? = some os)
    {o : Outline} (ho : o ∈ os) : o.isProper pagedMnemonic? = true := by
  rw [outlines?] at hos
  have hr := List.all_eq_true.mp table_isRegular e h
  simp only [isRegular, hos, Bool.and_eq_true, List.all_eq_true] at hr
  exact hr.2.1 o ho

/-- In the table, a field that counts from a register comes to a register with all its values. -/
theorem reaches_of_mem (h : e ∈ table) {use : FieldUse} (huse : use ∈ e.fields) :
    use.field.reaches use.selector.largest = true := by
  obtain ⟨os, hos⟩ := outlines?_of_mem h
  rw [outlines?] at hos
  have hr := List.all_eq_true.mp table_isRegular e h
  simp only [isRegular, hos, Bool.and_eq_true, List.all_eq_true] at hr
  exact hr.2.2 use huse

/-- A row short enough for a partner, with a code target at a distance, takes its code word alone
and agrees with no first byte from 0x80 on. -/
theorem seeks_of_mem (h : e ∈ table) (hs : e.seeks = true) (hw : e.width ≤ 3)
    {os : List Outline} (hos : e.outlines? = some os) :
    (∀ o ∈ os, o.reach = e.width) ∧
      ∀ b : UInt8, 0x80 ≤ b → e.unitAgrees 8 (e.width - 1) b = false := by
  rw [outlines?] at hos
  have hr := List.all_eq_true.mp table_isRegular e h
  simp only [isRegular, hos, hs, Bool.not_true, Bool.false_or, Bool.and_eq_true, Bool.or_eq_true,
    decide_eq_true_eq, Nat.not_lt.mpr hw, false_or, isPlainAndLow, List.all_eq_true,
    List.mem_range] at hr
  obtain ⟨⟨-, hreach, hlow⟩, -⟩ := hr
  refine ⟨hreach, fun b hb => ?_⟩
  have hlt := b.toNat_lt
  have hge : 128 ≤ b.toNat := hb
  have := hlow (b.toNat - 128) (by omega)
  rw [Nat.sub_add_cancel hge, UInt8.ofNat_toNat] at this
  simpa using this

end Encoding

namespace Draft

/-- A field without a code target does not depend on where code distances count from. -/
theorem contribute_of_not_seeks (d : Draft) (s : Surroundings) {field : Field}
    (h : field.seeks = false) (next : Address) (mask : UInt32) (v : Nat) :
    d.contribute (s.countingFrom next mask) field v = d.contribute s field v := by
  cases field with
  | forward | relative => cases h
  | _ => rfl

/-- Fields without a code target contribute the same wherever targets count from. -/
theorem contributeAll_of_not_seeks (d : Draft) (s : Surroundings) (word : Nat)
    {fields : List FieldUse} (h : fields.any (·.field.seeks) = false) (next : Address)
    (mask : UInt32) :
    d.contributeAll (s.countingFrom next mask) word fields = d.contributeAll s word fields := by
  induction fields generalizing d with
  | nil => rfl
  | cons use rest ih =>
    rw [List.any_cons, Bool.or_eq_false_iff] at h
    unfold contributeAll
    rw [contribute_of_not_seeks d s h.1]
    cases d.contribute s use.field (use.selector.select word) with
    | error e => simp only [bind, Except.bind]
    | ok d' => simp only [bind, Except.bind, ih d' h.2]

end Draft

end DspCode
