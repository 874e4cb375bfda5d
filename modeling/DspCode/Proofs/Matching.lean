import DspCode.Decoding
import DspCode.Proofs.Patterns
import DspCode.Proofs.Reading

/-!
# Matching bytes with the encoding table

Matching the bytes of a window finds the first row that agrees and lets its fields build an
instruction. With the processor's table this fails for unmapped memory alone. The instruction
depends on the address that code distances count from only in its code targets, and on no byte past
its own.
-/

namespace DspCode.Machine

/-- The rows of this machine are those of the table. -/
@[simp] theorem encodings_c55x : c55x.encodings = Encoding.table := rfl

/-- This machine reads bytes. -/
@[simp] theorem unitBits_c55x : c55x.unitBits = 8 := rfl

/-- Packed pairs start with a marker byte. -/
@[simp] theorem isPairMarker_c55x : c55x.isPairMarker = PackedPair.isMarker := rfl

/-- Packed pairs are unpacked from the word at their start. -/
@[simp] theorem unpack?_c55x : c55x.unpack? = PackedPair.unpack? := rfl

/-- A matched instruction is settled by naming its status bit. -/
@[simp] theorem settle_c55x : c55x.settle = StatusBit.nameBit := rfl

/-- The draft of a row at an address, before any field contributes. -/
def draftAt (a : Address) (row : Encoding) : Draft :=
  ⟨{ address := a, length := row.width, kind := row.kind }, none⟩

/-- The draft starts without operands. -/
theorem operand_draftAt (a : Address) (row : Encoding) (slot : Nat) :
    (draftAt a row).insn.operand slot = {} := by
  simp only [Instruction.operand, draftAt, Vector.getElem?_replicate]
  split <;> rfl

/-- The empty draft of a row is described by the outline of the row. -/
theorem describes_draftAt (a : Address) {row : Encoding} (h : row ∈ Encoding.table) :
    row.outline.Describes a (draftAt a row).insn where
  address := rfl
  kind := rfl
  filled := by
    intro slot
    rw [operand_draftAt]
    simp [Operand.isEmpty, Encoding.outline]
  width_le := Nat.le_refl _
  length_le := Nat.le_refl _
  reach_le := Nat.le_trans (Encoding.width_of_mem h).2 (by decide)
  split := rfl

@[simp] theorem retarget_draftAt (a : Address) (row : Encoding) (next : Address) (mask : UInt32) :
    (draftAt a row).retarget next mask = draftAt a row := by
  simp only [Draft.retarget, Instruction.retarget, draftAt, Vector.map_replicate,
    Operand.retarget_empty]

/-- A match is the instruction built from the first row that agrees with what the window answers. -/
theorem matchWindow_eq (m : Machine) (context : Context) (next : NextAddress) (w : ByteWindow) :
    m.matchWindow context next w =
      match Encoding.firstMatch m.unitBits w.answer false m.encodings with
      | .found row word => m.build context next w row word
      | .cutOff => .error (.outOfBounds w.base)
      | .absent => .ok none := by
  obtain ⟨hs, hv⟩ := Encoding.search_eq m.unitBits m.encodings w
  unfold matchWindow
  rw [← hs]
  split
  next row word v he =>
    rw [he] at hv ⊢
    have hbase : v.base = w.base := hv.base
    have hbytes : (fun offset => (v.at? offset).1) = fun offset => (w.at? offset).1 := hv.answer
    simp only [build, surroundings, hbytes, hbase]
  next v he =>
    rw [he] at hv ⊢
    exact congrArg (fun a => Except.error (DecodeError.outOfBounds a)) hv.base
  next v he => rw [he]

/-- What a result of the fields means for a match at `a`. -/
def outcomeAt (a : Address) :
    Except FieldError (Option Instruction) → Except DecodeError (Option Instruction)
  | .ok insn => .ok insn
  | .error (.unmapped _) => .error (.outOfBounds a)
  | .error e => .error (.inconsistent a e.message)

/-- An instruction is built by letting the fields of its row contribute to the empty draft one after
the other. -/
theorem build_eq (m : Machine) (context : Context) (next : NextAddress) (w : ByteWindow)
    (row : Encoding) (word : Nat) :
    m.build context next w row word =
      outcomeAt w.base ((draftAt w.base row).contributeAll (m.surroundings context next w) word
        row.fields) := by
  unfold build outcomeAt
  rfl

/-- A change of the instruction can be made before or after failures are given their address. -/
theorem outcomeAt_map (a : Address) (f : Instruction → Instruction)
    (r : Except FieldError (Option Instruction)) :
    outcomeAt a (r.map (Option.map f)) = (outcomeAt a r).map (Option.map f) := by
  unfold outcomeAt
  match r with
  | .ok insn => rfl
  | .error (.unmapped _) => rfl
  | .error .tooManyOperands => rfl
  | .error (.renaming _) => rfl
  | .error .exhausted => rfl

section Build

variable (context : Context) (next : NextAddress) (w : ByteWindow) {row : Encoding} (word : Nat)

/-- What the fields of a row of the table give: nothing for a reserved encoding, an instruction of
at most nine bytes, or an error because one of these bytes is not mapped. -/
theorem fields_cases (h : row ∈ Encoding.table) :
    (draftAt w.base row).contributeAll (c55x.surroundings context next w) word row.fields =
        .ok none ∨
      (∃ insn, (draftAt w.base row).contributeAll (c55x.surroundings context next w) word
          row.fields = .ok (some insn) ∧ insn.address = w.base ∧ row.width ≤ insn.length ∧
        insn.length ≤ 9 ∧ (row.seeks = true → row.width ≤ 3 → insn.length = row.width)) ∨
      ∃ i < 9, ∃ a, w.answer i = .error (.unmapped a) ∧
        (draftAt w.base row).contributeAll (c55x.surroundings context next w) word row.fields =
          .error (.unmapped a) := by
  obtain ⟨os, hos⟩ := Encoding.outlines?_of_mem h
  obtain hr | ⟨insn, p, hr, hp, hpw, hd⟩ | ⟨i, hi, e, he, hr⟩ :=
    Outline.contributeAll_cases (List.mem_singleton_self row.outline) (describes_draftAt w.base h)
      (c55x.surroundings context next w) word hos
  · exact Or.inl hr
  · have hwidth : row.width ≤ insn.length := by
      have := hd.width_le
      rwa [hpw] at this
    refine Or.inr (Or.inl ⟨insn, hr, hd.address, hwidth, ?_, ?_⟩)
    · exact Nat.le_trans hd.length_le hd.reach_le
    · intro hs hw
      have hreach := (Encoding.seeks_of_mem h hs hw hos).1 p hp
      exact Nat.le_antisymm (hreach ▸ hd.length_le) hwidth
  · cases e with
    | unmapped a => exact Or.inr (Or.inr ⟨i, hi, a, he, hr⟩)
    | exhausted =>
      have hcap : ByteWindow.capacity ≤ i := ByteWindow.answer_eq_exhausted_iff.mp he
      have : i < 9 := hi
      simp only [ByteWindow.capacity] at hcap
      omega

/-- What building an instruction from a row of the table gives. -/
theorem build_cases (h : row ∈ Encoding.table) :
    c55x.build context next w row word = .ok none ∨
      (∃ insn, c55x.build context next w row word = .ok (some insn) ∧ insn.address = w.base ∧
        row.width ≤ insn.length ∧ insn.length ≤ 9 ∧
        (row.seeks = true → row.width ≤ 3 → insn.length = row.width)) ∨
      c55x.build context next w row word = .error (.outOfBounds w.base) ∧
        ∃ i < 9, ∃ a, w.answer i = .error (.unmapped a) := by
  rw [build_eq]
  obtain hr | ⟨insn, hr, hplace⟩ | ⟨i, hi, a, ha, hr⟩ := fields_cases context next w word h
  · exact Or.inl (by rw [hr]; rfl)
  · exact Or.inr (Or.inl ⟨insn, by rw [hr]; rfl, hplace⟩)
  · exact Or.inr (Or.inr ⟨by rw [hr]; rfl, i, hi, a, ha⟩)

/-- What is built is what the fields give. -/
theorem contributeAll_of_build {context : Context} {next : NextAddress} {w : ByteWindow}
    {word : Nat} {result : Option Instruction}
    (h : c55x.build context next w row word = .ok result) :
    (draftAt w.base row).contributeAll (c55x.surroundings context next w) word row.fields =
      .ok result := by
  rw [build_eq] at h
  cases hc : (draftAt w.base row).contributeAll (c55x.surroundings context next w) word
      row.fields with
  | error e =>
    rw [hc] at h
    cases e <;> cases h
  | ok r =>
    rw [hc] at h
    cases h
    rfl

/-- Code distances that count from elsewhere give the same instruction with its targets moved. -/
theorem build_retarget (h : row ∈ Encoding.table) (next' : NextAddress) :
    c55x.build context next' w row word =
      (c55x.build context next w row word).map
        (Option.map (·.retarget (next' w.base row.width) c55x.codeMask)) := by
  obtain ⟨os, hos⟩ := Encoding.outlines?_of_mem h
  rw [build_eq, build_eq, ← outcomeAt_map, Draft.contributeAll_retarget, retarget_draftAt]
  exact congrArg (outcomeAt w.base) (Outline.contributeAll_congr_next
    (s := (c55x.surroundings context next w).countingFrom (next' w.base row.width) c55x.codeMask)
    (List.mem_singleton_self row.outline) (describes_draftAt w.base h) hos rfl)

/-- A row without code targets at a distance gives the same instruction wherever these count
from. -/
theorem build_of_not_seeks (hs : row.seeks = false) (next' : NextAddress) :
    c55x.build context next' w row word = c55x.build context next w row word := by
  rw [build_eq, build_eq]
  have h := fun next => Draft.contributeAll_of_not_seeks (draftAt w.base row)
    (c55x.surroundings context next w) word hs 0 0
  exact congrArg (outcomeAt w.base) ((h next').symm.trans (h next))

end Build

/-- The instruction that a row of the table gives for the bytes of a window. -/
structure Matched (context : Context) (next : NextAddress) (w : ByteWindow) (row : Encoding)
    (word : Nat) (insn : Instruction) : Prop where
  /-- The row is the first that agrees with the bytes. -/
  found : Encoding.firstMatch 8 w.answer false Encoding.table = .found row word
  /-- Its fields build the instruction. -/
  built : c55x.build context next w row word = .ok (some insn)

/-- What matching gives: nothing, the instruction of a row, or an error because one of the first
nine bytes is not mapped. -/
theorem matchWindow_cases (context : Context) (next : NextAddress) (w : ByteWindow) :
    c55x.matchWindow context next w = .ok none ∨
      (∃ row word insn, Matched context next w row word insn ∧
        c55x.matchWindow context next w = .ok (some insn)) ∨
      c55x.matchWindow context next w = .error (.outOfBounds w.base) ∧
        ∃ i < 9, ∃ a, w.answer i = .error (.unmapped a) := by
  rw [matchWindow_eq, unitBits_c55x, encodings_c55x]
  split
  next row word hf =>
    obtain hb | ⟨insn, hb, -⟩ | hb :=
      build_cases context next w word (Encoding.firstMatch_found hf).1
    · exact Or.inl hb
    · exact Or.inr (Or.inl ⟨row, word, insn, ⟨hf, hb⟩, hb⟩)
    · exact Or.inr (Or.inr hb)
  next hf =>
    obtain ⟨e, he, hcut⟩ := Encoding.firstMatch_cutOff hf
    obtain ⟨i, hi, a, ha⟩ := Encoding.compareUnits_cutOff hcut
    rw [Nat.zero_add] at ha
    have := (Encoding.width_of_mem he).2
    exact Or.inr (Or.inr ⟨rfl, i, by omega, a, ha⟩)
  next => exact Or.inl rfl

/-- An instruction that was matched comes from a row and the code word read for it. -/
theorem exists_matched {context : Context} {next : NextAddress} {w : ByteWindow}
    {insn : Instruction} (h : c55x.matchWindow context next w = .ok (some insn)) :
    ∃ row word, Matched context next w row word insn := by
  obtain hn | ⟨row, word, insn', hm, hi⟩ | ⟨he, -⟩ := matchWindow_cases context next w
  · rw [hn] at h
    cases h
  · rw [hi] at h
    cases h
    exact ⟨row, word, hm⟩
  · rw [he] at h
    cases h

namespace Matched

variable {context : Context} {next : NextAddress} {w : ByteWindow} {row : Encoding} {word : Nat}
  {insn : Instruction}

/-- The window of a match gives its instruction. -/
theorem matchWindow (h : Matched context next w row word insn) :
    c55x.matchWindow context next w = .ok (some insn) := by
  rw [matchWindow_eq, unitBits_c55x, encodings_c55x, h.found]
  exact h.built

/-- The row of a match is in the table. -/
theorem mem (h : Matched context next w row word insn) : row ∈ Encoding.table :=
  (Encoding.firstMatch_found h.found).1

/-- The fields of the row have contributed the operands. -/
theorem contributed (h : Matched context next w row word insn) :
    (draftAt w.base row).contributeAll (c55x.surroundings context next w) word row.fields =
      .ok (some insn) :=
  contributeAll_of_build h.built

/-- A matched instruction starts at the window's base and takes the code word of its row and nine
bytes at most. A short row with a target at a distance takes nothing else. -/
theorem place (h : Matched context next w row word insn) :
    insn.address = w.base ∧ row.width ≤ insn.length ∧ insn.length ≤ 9 ∧
      (row.seeks = true → row.width ≤ 3 → insn.length = row.width) := by
  have hbuilt := h.built
  obtain hb | ⟨insn', hb, hplace⟩ | ⟨hb, -⟩ := build_cases context next w word h.mem
  · rw [hb] at hbuilt
    cases hbuilt
  · rw [hb] at hbuilt
    cases hbuilt
    exact hplace
  · rw [hb] at hbuilt
    cases hbuilt

/-- A matched instruction starts where its window does. -/
theorem address_eq (h : Matched context next w row word insn) : insn.address = w.base := h.place.1

/-- A matched instruction is at least as long as its code word. -/
theorem width_le (h : Matched context next w row word insn) : row.width ≤ insn.length :=
  h.place.2.1

/-- A matched instruction has at most nine bytes. -/
theorem length_le (h : Matched context next w row word insn) : insn.length ≤ 9 := h.place.2.2.1

/-- A short row with a code target at a distance takes its code word alone. -/
theorem length_eq_width (h : Matched context next w row word insn) (hs : row.seeks = true)
    (hw : row.width ≤ 3) : insn.length = row.width :=
  h.place.2.2.2 hs hw

/-- A matched instruction fits into the window. -/
theorem length_le_capacity (h : Matched context next w row word insn) :
    insn.length ≤ ByteWindow.capacity :=
  Nat.le_trans h.length_le (by decide)

/-- Where code distances count from elsewhere, the same row gives the instruction with its targets
moved. -/
theorem retarget (h : Matched context next w row word insn) (next' : NextAddress) :
    Matched context next' w row word
      (insn.retarget (next' w.base row.width) c55x.codeMask) := by
  refine ⟨h.found, ?_⟩
  rw [build_retarget context next w word h.mem next', h.built]
  rfl

/-- The targets of a matched instruction count from the address that its code word gives. -/
theorem retarget_self (h : Matched context next w row word insn) :
    insn.retarget (next w.base row.width) c55x.codeMask = insn := by
  have hself := (h.retarget next).built
  rw [h.built] at hself
  exact (Option.some.inj (Except.ok.inj hself)).symm

/-- Only where code distances count from for the row itself matters. -/
theorem congr_next (h : Matched context next w row word insn) {next' : NextAddress}
    (hn : next' w.base row.width = next w.base row.width) :
    Matched context next' w row word insn := by
  have hmoved := h.retarget next'
  rwa [hn, h.retarget_self] at hmoved

/-- A row without code targets at a distance gives the same instruction. -/
theorem of_not_seeks (h : Matched context next w row word insn) (hs : row.seeks = false)
    (next' : NextAddress) : Matched context next' w row word insn :=
  ⟨h.found, (build_of_not_seeks context next w word hs next').trans h.built⟩

/-- The first byte agrees with the row. -/
theorem first_agrees (h : Matched context next w row word insn) :
    ∃ b, w.answer 0 = .ok b ∧ row.unitAgrees 8 (row.width - 1) b = true :=
  Encoding.compareUnits_full_read (Encoding.firstMatch_found h.found).2
    (Encoding.width_of_mem h.mem).1

/-- A short row with a code target at a distance starts below 0x80. -/
theorem lt_of_seeks (h : Matched context next w row word insn) (hs : row.seeks = true)
    (hw : row.width ≤ 3) {b : UInt8} (hb : w.answer 0 = .ok b) : b < 0x80 := by
  obtain ⟨os, hos⟩ := Encoding.outlines?_of_mem h.mem
  obtain ⟨b', hb', hu⟩ := h.first_agrees
  cases hb.symm.trans hb'
  apply UInt8.not_le.mp
  intro hle
  rw [(Encoding.seeks_of_mem h.mem hs hw hos).2 b hle] at hu
  cases hu

/-- A matched instruction is not half of a pair. -/
theorem half?_eq_none (h : Matched context next w row word insn) : insn.half? = none :=
  Draft.stable_half.contributeAll rfl h.contributed

/-- An instruction is matched in the same way wherever its own bytes are the same. -/
theorem congr_bytes (h : Matched context next w row word insn) {v : ByteWindow}
    (hbase : v.base = w.base) (hown : ∀ i < insn.length, v.answer i = w.answer i) :
    Matched context next v row word insn := by
  refine ⟨?_, ?_⟩
  · exact Encoding.firstMatch_congr (fun _ he => he) h.found fun i hi =>
      hown i (Nat.lt_of_lt_of_le hi h.width_le)
  · rw [build_eq, hbase]
    exact congrArg (outcomeAt w.base) (Draft.contributeAll_agree h.contributed hown)

end Matched

/-- Whether bytes match does not depend on where code distances count from. -/
theorem exists_match_iff (context : Context) (next next' : NextAddress) (w : ByteWindow) :
    (∃ insn, c55x.matchWindow context next w = .ok (some insn)) ↔
      ∃ insn, c55x.matchWindow context next' w = .ok (some insn) := by
  have himp : ∀ next next', (∃ insn, c55x.matchWindow context next w = .ok (some insn)) →
      ∃ insn, c55x.matchWindow context next' w = .ok (some insn) := by
    rintro next next' ⟨insn, h⟩
    obtain ⟨row, word, hm⟩ := exists_matched h
    exact ⟨_, (hm.retarget next').matchWindow⟩
  exact ⟨himp next next', himp next' next⟩

end DspCode.Machine
