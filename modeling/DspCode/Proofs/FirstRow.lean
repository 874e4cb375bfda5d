import DspCode.Proofs.TableOrder

/-!
# The first row that agrees

A search goes through the rows with one window that fetches bytes as they are needed, leaves a row
at the first unit that differs, lies past the window or cannot be read, and remembers over all rows
whether a byte was unmapped. None of this shows in the result. Main statement: a match is what is
built from the row with the lowest index all of whose units agree with the bytes that the window
shows; where there is none, it fails exactly if some row agrees up to an unmapped byte.
-/

namespace DspCode

namespace Encoding

/-- The unit of a row at place `i` agrees with the byte that a window shows there. No unit agrees
past the end of the window. -/
def AgreesAt (e : Encoding) (unit : Nat) (w : ByteWindow) (i : Nat) : Prop :=
  i < ByteWindow.capacity ∧
    ∃ b, w.shown? i = some b ∧ e.unitAgrees unit (e.width - 1 - i) b = true

/-- All units of a row agree with the bytes that a window shows. -/
def Agrees (e : Encoding) (unit : Nat) (w : ByteWindow) : Prop :=
  ∀ i < e.width, e.AgreesAt unit w i

/-- Some unit of a row lies at an unmapped byte, and all units before it agree. -/
def CutOff (e : Encoding) (unit : Nat) (w : ByteWindow) : Prop :=
  ∃ i < e.width, i < ByteWindow.capacity ∧ w.shown? i = none ∧ ∀ j < i, e.AgreesAt unit w j

/-- The code word after one more unit, taken from the byte that a window shows. -/
def appendUnit (unit : Nat) (w : ByteWindow) (word i : Nat) : Nat :=
  (word <<< unit) + unitOf unit ((w.shown? i).getD 0)

/-- The code word in the first `width` bytes that a window shows, one unit from each. -/
def codeWord (unit : Nat) (w : ByteWindow) (width : Nat) : Nat :=
  (List.range width).foldl (appendUnit unit w) 0

section Row

variable {e : Encoding} {unit : Nat} {w : ByteWindow}

private theorem AgreesAt.isSome {i : Nat} (h : e.AgreesAt unit w i) : (w.shown? i).isSome := by
  obtain ⟨-, b, hb, -⟩ := h
  rw [hb]
  rfl

/-- A row that is cut off does not agree. -/
theorem CutOff.not_agrees (h : e.CutOff unit w) : ¬ e.Agrees unit w := by
  obtain ⟨i, hi, -, hnone, -⟩ := h
  intro hagrees
  have := (hagrees i hi).isSome
  rw [hnone] at this
  cases this

/-- A unit that does not agree, for a byte that is mapped or past the window, keeps its row from
being cut off behind it. -/
theorem not_cutOff_of_not_agreesAt {i : Nat} (hbefore : ∀ j < i, e.AgreesAt unit w j)
    (hi : ¬ e.AgreesAt unit w i) (hread : ByteWindow.capacity ≤ i ∨ (w.shown? i).isSome) :
    ¬ e.CutOff unit w := by
  rintro ⟨j, -, hcap, hnone, hagrees⟩
  rcases Nat.lt_trichotomy j i with hlt | rfl | hgt
  · have := (hbefore j hlt).isSome
    rw [hnone] at this
    cases this
  · rcases hread with hpast | hsome
    · omega
    · rw [hnone] at hsome
      cases hsome
  · exact hi (hagrees i hgt)

/-- What comparing the units of a row from `position` on gives, if all units before agree. -/
theorem compareUnits_cases {left position : Nat} (hplace : position + left = e.width)
    (hbefore : ∀ i < position, e.AgreesAt unit w i) (word : Nat) :
    (e.Agrees unit w ∧ e.compareUnits unit w.answer left position word =
        .full ((List.range' position left).foldl (appendUnit unit w) word)) ∨
      (e.CutOff unit w ∧ e.compareUnits unit w.answer left position word = .cutOff) ∨
      ¬ e.Agrees unit w ∧ ¬ e.CutOff unit w ∧
        e.compareUnits unit w.answer left position word = .differs := by
  induction left generalizing position word with
  | zero =>
    refine Or.inl ⟨fun i hi => hbefore i ?_, rfl⟩
    omega
  | succ left ih =>
    have hlt : position < e.width := by omega
    have hafter : e.width - 1 - position = left := by omega
    unfold compareUnits
    by_cases hcap : position < ByteWindow.capacity
    · cases hshown : w.shown? position with
      | none =>
        have hanswer : w.answer position =
            .error (.unmapped (w.base + UInt32.ofNat position)) :=
          ByteWindow.answer_eq_unmapped_iff.mpr
            ⟨hcap, position, Nat.le_refl _, rfl, hshown, fun i hi => (hbefore i hi).isSome⟩
        rw [hanswer]
        exact Or.inr (Or.inl ⟨⟨position, hlt, hcap, hshown, hbefore⟩, rfl⟩)
      | some b =>
        have hread : ∀ i ≤ position, (w.shown? i).isSome := by
          intro i hi
          rcases Nat.lt_or_eq_of_le hi with hi | rfl
          · exact (hbefore i hi).isSome
          · rw [hshown]
            rfl
        rw [ByteWindow.answer_eq_ok_iff.mpr ⟨hcap, hread, hshown⟩]
        simp only
        split
        next hunit =>
          have hword : (word <<< unit) + unitOf unit b = appendUnit unit w word position := by
            rw [appendUnit, hshown, Option.getD_some]
          have hhere : e.AgreesAt unit w position := ⟨hcap, b, hshown, by rw [hafter]; exact hunit⟩
          rw [hword, List.range'_succ, List.foldl_cons]
          apply ih
          · omega
          · intro i hi
            rcases Nat.lt_or_eq_of_le (Nat.lt_succ_iff.mp hi) with hi | rfl
            · exact hbefore i hi
            · exact hhere
        next hunit =>
          have hnot : ¬ e.AgreesAt unit w position := by
            rintro ⟨-, c, hc, hagrees⟩
            cases hshown.symm.trans hc
            rw [hafter] at hagrees
            exact hunit hagrees
          exact Or.inr (Or.inr ⟨fun hall => hnot (hall position hlt),
            not_cutOff_of_not_agreesAt hbefore hnot (Or.inr (hread position (Nat.le_refl _))),
            rfl⟩)
    · have hpast : ByteWindow.capacity ≤ position := Nat.not_lt.mp hcap
      have hnot : ¬ e.AgreesAt unit w position := fun h => hcap h.1
      rw [ByteWindow.answer_eq_exhausted_iff.mpr hpast]
      exact Or.inr (Or.inr ⟨fun hall => hnot (hall position hlt),
        not_cutOff_of_not_agreesAt hbefore hnot (Or.inl hpast), rfl⟩)

/-- What comparing a row gives: its code word if all units agree, and otherwise whether it was cut
off. -/
theorem compareBytes_cases (e : Encoding) (unit : Nat) (w : ByteWindow) :
    (e.Agrees unit w ∧ e.compareBytes unit w.answer = .full (codeWord unit w e.width)) ∨
      (e.CutOff unit w ∧ e.compareBytes unit w.answer = .cutOff) ∨
      ¬ e.Agrees unit w ∧ ¬ e.CutOff unit w ∧ e.compareBytes unit w.answer = .differs := by
  rw [codeWord, List.range_eq_range']
  exact compareUnits_cases (Nat.zero_add e.width) (fun i hi => absurd hi (Nat.not_lt_zero i)) 0

/-- A row that agrees is found to match in full, with the code word of its bytes. -/
theorem compareBytes_of_agrees (h : e.Agrees unit w) :
    e.compareBytes unit w.answer = .full (codeWord unit w e.width) := by
  obtain ⟨-, hfull⟩ | ⟨hcut, -⟩ | ⟨hnot, -⟩ := e.compareBytes_cases unit w
  · exact hfull
  · exact absurd h hcut.not_agrees
  · exact absurd h hnot

/-- A row that does not agree is not found to match in full. -/
theorem compareBytes_ne_full (h : ¬ e.Agrees unit w) (word : Nat) :
    e.compareBytes unit w.answer ≠ .full word := by
  obtain ⟨hagrees, -⟩ | ⟨-, hcut⟩ | ⟨-, -, hdiffers⟩ := e.compareBytes_cases unit w
  · exact absurd hagrees h
  · rw [hcut]
    exact RowMatch.noConfusion
  · rw [hdiffers]
    exact RowMatch.noConfusion

/-- A row is found to be cut off exactly if it agrees up to an unmapped byte. -/
theorem compareBytes_eq_cutOff_iff : e.compareBytes unit w.answer = .cutOff ↔ e.CutOff unit w := by
  obtain ⟨hagrees, hfull⟩ | ⟨hcut, hc⟩ | ⟨-, hnot, hdiffers⟩ := e.compareBytes_cases unit w
  · rw [hfull]
    exact iff_of_false RowMatch.noConfusion fun h => h.not_agrees hagrees
  · exact iff_of_true hc hcut
  · rw [hdiffers]
    exact iff_of_false RowMatch.noConfusion hnot

end Row

section Search

variable {rows : List Encoding} {unit : Nat} {w : ByteWindow} {cut : Bool}

/-- The row with the lowest index among those that agree is found. -/
theorem firstMatch_of_first {i : Nat} {row : Encoding} (hrow : rows[i]? = some row)
    (hagrees : row.Agrees unit w)
    (hfirst : ∀ j < i, ∀ e, rows[j]? = some e → ¬ e.Agrees unit w) :
    firstMatch unit w.answer cut rows = .found row (codeWord unit w row.width) := by
  induction rows generalizing i cut with
  | nil => cases hrow
  | cons e rest ih =>
    unfold firstMatch
    cases i with
    | zero =>
      cases hrow
      rw [compareBytes_of_agrees hagrees]
    | succ i =>
      have hnot : ¬ e.Agrees unit w := hfirst 0 (Nat.succ_pos i) e rfl
      have hrest : ∀ cut, firstMatch unit w.answer cut rest =
          .found row (codeWord unit w row.width) := fun cut =>
        ih hrow fun j hj => hfirst (j + 1) (Nat.succ_lt_succ hj)
      cases hc : e.compareBytes unit w.answer with
      | full word => exact absurd hc (compareBytes_ne_full hnot word)
      | cutOff => exact hrest true
      | differs => exact hrest cut

/-- Where no row agrees, a search is cut off exactly if some row is. -/
theorem firstMatch_of_none (hnone : ∀ e ∈ rows, ¬ e.Agrees unit w) :
    ((∃ e ∈ rows, e.CutOff unit w) → firstMatch unit w.answer false rows = .cutOff) ∧
      ((¬ ∃ e ∈ rows, e.CutOff unit w) → firstMatch unit w.answer false rows = .absent) := by
  rw [firstMatch_of_not_full fun e he => compareBytes_ne_full (hnone e he), Bool.false_or]
  constructor
  · rintro ⟨e, he, hcut⟩
    rw [if_pos]
    exact List.any_eq_true.mpr ⟨e, he, beq_iff_eq.mpr (compareBytes_eq_cutOff_iff.mpr hcut)⟩
  · intro hno
    rw [if_neg]
    intro hany
    obtain ⟨e, he, hcut⟩ := List.any_eq_true.mp hany
    exact hno ⟨e, he, compareBytes_eq_cutOff_iff.mp (beq_iff_eq.mp hcut)⟩

end Search

end Encoding

namespace Machine

open ByteWindow (SameView)

/-- What is built from a row depends on what a window shows, and not on what it has fetched. -/
theorem build_of_sameView {v w : ByteWindow} (h : SameView v w) (m : Machine) (context : Context)
    (next : NextAddress) (row : Encoding) (word : Nat) :
    m.build context next v row word = m.build context next w row word := by
  have hbytes : (fun offset => (v.at? offset).1) = fun offset => (w.at? offset).1 := h.answer
  simp only [build, surroundings, hbytes, h.base]

/-- Matching takes the row with the lowest index all of whose units agree with the bytes of a window
and builds the instruction from it. Where no row agrees, it fails for unmapped memory exactly if
some row agrees up to an unmapped byte, and otherwise there is no instruction. This holds whatever
the window has fetched before, for any rows, width of units and surroundings. -/
theorem matchWindow_takes_first {v w : ByteWindow} (hview : SameView v w) (m : Machine)
    (context : Context) (next : NextAddress) :
    (∀ (i : Nat) (row : Encoding), m.encodings[i]? = some row → row.Agrees m.unitBits w →
      (∀ j < i, ∀ e, m.encodings[j]? = some e → ¬ e.Agrees m.unitBits w) →
      m.matchWindow context next v =
        m.build context next w row (Encoding.codeWord m.unitBits w row.width)) ∧
    ((∀ e ∈ m.encodings, ¬ e.Agrees m.unitBits w) →
      ((∃ e ∈ m.encodings, e.CutOff m.unitBits w) →
        m.matchWindow context next v = .error (.outOfBounds w.base)) ∧
      ((¬ ∃ e ∈ m.encodings, e.CutOff m.unitBits w) →
        m.matchWindow context next v = .ok none)) := by
  rw [matchWindow_eq, hview.answer, hview.base]
  refine ⟨fun i row hrow hagrees hfirst => ?_, fun hnone => ⟨fun hcut => ?_, fun hno => ?_⟩⟩
  · rw [Encoding.firstMatch_of_first hrow hagrees hfirst]
    exact build_of_sameView hview m context next row _
  · rw [(Encoding.firstMatch_of_none hnone).1 hcut]
  · rw [(Encoding.firstMatch_of_none hnone).2 hno]

/-- A machine that reads the low half of each byte. Its first row is longer than the bytes below,
its second one differs from them, and its last two both agree. -/
def halfByteMachine : Machine :=
  { encodings := [⟨0x135, 0xFFF, 3, 1, []⟩, ⟨0x2, 0xF, 1, 2, []⟩, ⟨0x13, 0xFF, 2, 3, []⟩,
      ⟨0x1, 0xF, 1, 4, []⟩]
    mnemonics := #[]
    unitBits := 4 }

/-- The third row is taken, although the first one was cut off before it and the fourth one agrees
as well, also if a byte was fetched before. -/
theorem matchWindow_takes_first_overlap :
    let w := ByteWindow.new (.holding 0 [0x21, 0x43]) 0
    let v := (w.at? 0).2
    SameView v w ∧ v.known.size = 1 ∧ halfByteMachine.matchWindow {} plainNext v =
      halfByteMachine.build {} plainNext w ⟨0x13, 0xFF, 2, 3, []⟩ 0x13 := by
  intro w v
  have hview : SameView v w := (w.sameView_at? 0).1
  have hfirst : w.shown? 0 = some 0x21 := by decide +kernel
  have hthird : w.shown? 2 = none := by decide +kernel
  refine ⟨hview, by decide +kernel, (matchWindow_takes_first hview halfByteMachine {} plainNext).1 2
    ⟨0x13, 0xFF, 2, 3, []⟩ rfl ?_ ?_⟩
  · intro i hi
    have hplace : i = 0 ∨ i = 1 := Nat.le_one_iff_eq_zero_or_eq_one.mp (Nat.lt_succ_iff.mp hi)
    rcases hplace with rfl | rfl
    · exact ⟨by decide, 0x21, hfirst, by decide⟩
    · exact ⟨by decide, 0x43, by decide +kernel, by decide⟩
  · intro j hj e he hagrees
    have hplace : j = 0 ∨ j = 1 := Nat.le_one_iff_eq_zero_or_eq_one.mp (Nat.lt_succ_iff.mp hj)
    rcases hplace with rfl | rfl
    · cases he
      obtain ⟨-, b, hb, -⟩ := hagrees 2 (by decide)
      cases hthird.symm.trans hb
    · cases he
      obtain ⟨-, b, hb, hunit⟩ := hagrees 0 (by decide)
      cases hfirst.symm.trans hb
      cases hunit

end Machine

end DspCode
