import DspCode.ByteWindow

/-!
# What a window shows

A window fetches bytes as they are asked for, but what it answers does not depend on what was asked
before: every offset shows a given byte, or else the byte that the address space holds there.
Reading an offset succeeds exactly when all offsets up to it show a byte and the window is wide
enough.
-/

namespace DspCode

/-- The address space that holds the given bytes from `a` on, and nothing else. -/
def AddressSpace.holding (a : Address) (bytes : List UInt8) : AddressSpace :=
  fun b => bytes[(b - a).toNat]?

/-- The address space that holds bytes gives them back in their order. -/
theorem AddressSpace.holding_add (a : Address) (bytes : List UInt8) {i : Nat}
    (h : i < UInt32.size) :
    holding a bytes (a + UInt32.ofNat i) = bytes[i]? := by
  have hi : (a + UInt32.ofNat i - a).toNat = i := by
    rw [UInt32.add_comm, UInt32.add_sub_cancel, UInt32.toNat_ofNat_of_lt' h]
  rw [holding, hi]

namespace ByteWindow

/-- The byte a window shows at an offset: one it knows, or the one its address space holds there. -/
def shown? (w : ByteWindow) (offset : Nat) : Option UInt8 :=
  match w.known[offset]? with
  | some b => some b
  | none => w.space (w.base + UInt32.ofNat offset)

/-- The answer of a window at an offset. -/
def answer (w : ByteWindow) (offset : Nat) : Except WindowError UInt8 := (w.at? offset).1

/-- Two windows on the same bytes at the same place, whatever each has fetched so far. -/
structure SameView (w v : ByteWindow) : Prop where
  /-- They start at the same address. -/
  base : w.base = v.base
  /-- They show the same bytes. -/
  shown : w.shown? = v.shown?

namespace SameView

/-- A window has the same view as itself. -/
theorem refl (w : ByteWindow) : SameView w w := ⟨rfl, rfl⟩

/-- Views that are the same as a third one are the same. -/
theorem trans {u v w : ByteWindow} (h : SameView u v) (h' : SameView v w) : SameView u w :=
  ⟨h.base.trans h'.base, h.shown.trans h'.shown⟩

end SameView

/-- A window shows the bytes that it knows. -/
theorem shown?_of_lt {w : ByteWindow} {offset : Nat} (h : offset < w.known.size) :
    w.shown? offset = some w.known[offset] := by
  simp only [shown?, Array.getElem?_eq_getElem h]

/-- Past the bytes that it knows, a window shows those of its address space. -/
theorem shown?_of_le {w : ByteWindow} {offset : Nat} (h : w.known.size ≤ offset) :
    w.shown? offset = w.space (w.base + UInt32.ofNat offset) := by
  simp only [shown?, Array.getElem?_eq_none h]

/-- Fetching the next byte from the address space shows nothing new. -/
theorem shown?_push {w : ByteWindow} {b : UInt8}
    (hb : w.space (w.base + UInt32.ofNat w.known.size) = some b) :
    ({ w with known := w.known.push b } : ByteWindow).shown? = w.shown? := by
  funext offset
  rcases Nat.lt_trichotomy offset w.known.size with h | h | h
  · rw [shown?_of_lt h, shown?_of_lt (by simp only [Array.size_push]; omega)]
    simp only [Array.getElem_push_lt h]
  · subst h
    rw [shown?_of_le (Nat.le_refl _), shown?_of_lt (by simp only [Array.size_push]; omega), hb]
    simp only [Array.getElem_push_eq]
  · rw [shown?_of_le (Nat.le_of_lt h), shown?_of_le (by simp only [Array.size_push]; omega)]

/-- Fetching keeps the view and the position. It stops at the first offset that shows nothing, or
else knows the byte asked for. -/
theorem fetch_spec (w : ByteWindow) (offset : Nat) :
    SameView (w.fetch offset).1 w ∧ (w.fetch offset).1.position = w.position ∧
      match (w.fetch offset).2 with
      | none => offset < (w.fetch offset).1.known.size
      | some a => ∃ j ≤ offset, a = w.base + UInt32.ofNat j ∧ w.shown? j = none ∧
          ∀ i < j, (w.shown? i).isSome := by
  induction w using fetch_induction offset with
  | known w h =>
    rw [fetch_of_lt h]
    exact ⟨.refl w, rfl, h⟩
  | unmapped w h ha =>
    rw [fetch_of_none h ha]
    refine ⟨.refl w, rfl, w.known.size, h, rfl, ?_, ?_⟩
    · rw [shown?_of_le (Nat.le_refl _)]
      exact ha
    · intro i hi
      rw [shown?_of_lt hi]
      rfl
  | fetched w b h hb ih =>
    have hs := shown?_push hb
    rw [hs] at ih
    rw [fetch_of_some h hb]
    exact ⟨⟨ih.1.base, ih.1.shown.trans hs⟩, ih.2⟩

/-- Reading leaves the view and the position as they are. -/
theorem sameView_at? (w : ByteWindow) (offset : Nat) :
    SameView (w.at? offset).2 w ∧ (w.at? offset).2.position = w.position := by
  have hf := w.fetch_spec offset
  rw [at?_eq]
  split
  · exact ⟨.refl w, rfl⟩
  · split
    next v a he => rw [he] at hf; exact ⟨hf.1, hf.2.1⟩
    next v he =>
      rw [he] at hf
      split <;> exact ⟨hf.1, hf.2.1⟩

/-- A window is exhausted exactly past its capacity. -/
theorem answer_eq_exhausted_iff {w : ByteWindow} {offset : Nat} :
    w.answer offset = .error .exhausted ↔ capacity ≤ offset := by
  have hf := w.fetch_spec offset
  rw [answer, at?_eq]
  split
  next h => simp only [h]
  next h =>
    simp only [h, iff_false]
    split
    next v a he => simp
    next v he =>
      rw [he] at hf
      simp [Array.getElem?_eq_getElem hf.2.2]

/-- An answer is a byte exactly when every offset up to it shows one. -/
theorem answer_eq_ok_iff {w : ByteWindow} {offset : Nat} {b : UInt8} :
    w.answer offset = .ok b ↔
      offset < capacity ∧ (∀ j ≤ offset, (w.shown? j).isSome) ∧ w.shown? offset = some b := by
  have hf := w.fetch_spec offset
  rw [answer, at?_eq]
  split
  next h => simp [Nat.not_lt.mpr h]
  next h =>
    simp only [Nat.not_le.mp h, true_and]
    split
    next v a he =>
      rw [he] at hf
      obtain ⟨j, hj, -, hn, -⟩ := hf.2.2
      simp only [reduceCtorEq, false_iff, not_and]
      intro hall
      simpa [hn] using hall j hj
    next v he =>
      rw [he] at hf
      obtain ⟨hv, -, hk⟩ := hf
      have hall : ∀ j ≤ offset, (w.shown? j).isSome := by
        intro j hj
        rw [← hv.shown, shown?_of_lt (Nat.lt_of_le_of_lt hj hk)]
        rfl
      rw [← hv.shown, shown?_of_lt hk, Array.getElem?_eq_getElem hk]
      simp only [Except.ok.injEq, Option.some.injEq, hv.shown, iff_and_self]
      exact fun _ => hall

/-- An answer names the first unmapped address exactly when no earlier offset lacks a byte. -/
theorem answer_eq_unmapped_iff {w : ByteWindow} {offset : Nat} {a : Address} :
    w.answer offset = .error (.unmapped a) ↔
      offset < capacity ∧ ∃ j ≤ offset, a = w.base + UInt32.ofNat j ∧ w.shown? j = none ∧
        ∀ i < j, (w.shown? i).isSome := by
  have hf := w.fetch_spec offset
  rw [answer, at?_eq]
  split
  next h => simp [Nat.not_lt.mpr h]
  next h =>
    simp only [Nat.not_le.mp h, true_and]
    split
    next v a' he =>
      rw [he] at hf
      obtain ⟨j, hj, ha, hn, hall⟩ := hf.2.2
      constructor
      · intro he
        simp only [Except.error.injEq, WindowError.unmapped.injEq] at he
        exact ⟨j, hj, he ▸ ha, hn, hall⟩
      · rintro ⟨i, hi, rfl, hn', hall'⟩
        have hij : i = j := by
          rcases Nat.lt_trichotomy i j with hlt | heq | hlt
          · simpa [hn'] using hall i hlt
          · exact heq
          · simpa [hn] using hall' j hlt
        rw [ha, hij]
    next v he =>
      rw [he] at hf
      obtain ⟨hv, -, hk⟩ := hf
      rw [Array.getElem?_eq_getElem hk]
      simp only [reduceCtorEq, false_iff, not_exists, not_and]
      intro j hj _ hn
      rw [← hv.shown, shown?_of_lt (Nat.lt_of_le_of_lt hj hk)] at hn
      exact absurd hn (by simp)

/-- What a window answers depends on its view alone. -/
theorem SameView.answer {w v : ByteWindow} (h : SameView w v) : w.answer = v.answer := by
  funext offset
  cases hw : w.answer offset with
  | ok b =>
    rw [answer_eq_ok_iff, h.shown, ← answer_eq_ok_iff] at hw
    exact hw.symm
  | error e =>
    cases e with
    | exhausted =>
      rw [answer_eq_exhausted_iff, ← answer_eq_exhausted_iff (w := v)] at hw
      exact hw.symm
    | unmapped a =>
      rw [answer_eq_unmapped_iff, h.shown, h.base, ← answer_eq_unmapped_iff] at hw
      exact hw.symm

/-- Going back to the base does not change the view. -/
theorem sameView_reset (w : ByteWindow) : SameView w.reset w := ⟨rfl, rfl⟩

/-- The next byte is the answer at the reading position. -/
theorem next_spec (w : ByteWindow) :
    w.next.1 = w.answer w.position ∧ SameView w.next.2 w ∧
      (∀ b, w.next.1 = .ok b → w.next.2.position = w.position + 1) := by
  have hv := w.sameView_at? w.position
  rw [next_eq, answer]
  split
  next b v he =>
    rw [he] at hv ⊢
    exact ⟨rfl, ⟨hv.1.base, hv.1.shown⟩, fun _ _ => congrArg (· + 1) hv.2⟩
  next e v he =>
    rw [he] at hv ⊢
    exact ⟨rfl, hv.1, fun _ h => by cases h⟩

/-- A new window stands where it was opened. -/
@[simp] theorem base_new (space : AddressSpace) (a : Address) : (new space a).base = a := rfl

/-- Given bytes stand in for what the address space holds. -/
theorem shown?_primed {space : AddressSpace} {a : Address} {bytes : List UInt8}
    (h : bytes.length ≤ capacity) (offset : Nat) :
    (primed space a bytes).shown? offset =
      if offset < bytes.length then bytes[offset]? else space (a + UInt32.ofNat offset) := by
  have hs : (primed space a bytes).known = bytes.toArray := by
    simp only [primed, List.take_of_length_le h]
  simp only [shown?, hs, List.getElem?_toArray]
  split
  next b hb => rw [if_pos (List.getElem?_eq_some_iff.mp hb).1, hb]
  next hn => rw [if_neg (Nat.not_lt.mpr (List.getElem?_eq_none_iff.mp hn))]; rfl

section Given

variable {space : AddressSpace} {a : Address} {bytes : List UInt8} {i : Nat}

/-- A primed window answers with the bytes it was given. -/
theorem answer_primed_of_lt (hc : bytes.length ≤ capacity) (hi : i < bytes.length) :
    (primed space a bytes).answer i = .ok bytes[i] := by
  have hs : ∀ j ≤ i, (primed space a bytes).shown? j = bytes[j]? := fun j hj => by
    rw [shown?_primed hc, if_pos (Nat.lt_of_le_of_lt hj hi)]
  refine answer_eq_ok_iff.mpr ⟨Nat.lt_of_lt_of_le hi hc, fun j hj => ?_, ?_⟩
  · rw [hs j hj, List.getElem?_eq_getElem (Nat.lt_of_le_of_lt hj hi)]
    rfl
  · rw [hs i (Nat.le_refl i), List.getElem?_eq_getElem hi]

/-- Where only the given bytes are held, reading gives these and no others. -/
theorem answer_holding_eq_ok_iff (hc : bytes.length ≤ capacity) {b : UInt8} :
    (new (.holding a bytes) a).answer i = .ok b ↔ bytes[i]? = some b := by
  have hs : ∀ j ≤ capacity, (new (.holding a bytes) a).shown? j = bytes[j]? := fun j hj =>
    AddressSpace.holding_add a bytes (Nat.lt_of_le_of_lt hj (by decide))
  constructor
  · intro h
    obtain ⟨hi, -, hb⟩ := answer_eq_ok_iff.mp h
    rwa [hs i (Nat.le_of_lt hi)] at hb
  · intro h
    obtain ⟨hi, -⟩ := List.getElem?_eq_some_iff.mp h
    have hic := Nat.lt_of_lt_of_le hi hc
    refine answer_eq_ok_iff.mpr ⟨hic, fun j hj => ?_, ?_⟩
    · rw [hs j (Nat.le_of_lt (Nat.lt_of_le_of_lt hj hic)),
        List.getElem?_eq_getElem (Nat.lt_of_le_of_lt hj hi)]
      rfl
    · rwa [hs i (Nat.le_of_lt hic)]

end Given

end ByteWindow

end DspCode
