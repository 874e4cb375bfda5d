import DspCode.Encoding
import DspCode.Proofs.Window

/-!
# Searching an encoding table

A search reads a window row by row and fetches bytes on the way. Its result is a function of what
the window answers: the first row whose units all agree, and otherwise whether some row was cut off
by an unmapped byte.
-/

namespace DspCode

/-- What is read at each offset. -/
abbrev Answers := Nat → Except WindowError UInt8

namespace Encoding

/-- Compares the last `left` units of a row with what is read from `position` on. -/
def compareUnits (e : Encoding) (unit : Nat) (bytes : Answers) :
    (left position word : Nat) → RowMatch
  | 0, _, word => .full word
  | left + 1, position, word =>
    match bytes position with
    | .error (.unmapped _) => .cutOff
    | .error .exhausted => .differs
    | .ok b =>
      if e.unitAgrees unit left b then
        compareUnits e unit bytes left (position + 1) ((word <<< unit) + unitOf unit b)
      else .differs

/-- Compares a row with what is read from offset zero on. -/
def compareBytes (e : Encoding) (unit : Nat) (bytes : Answers) : RowMatch :=
  e.compareUnits unit bytes e.width 0 0

/-- The result of a search; `cut` tells whether an earlier row was cut off. -/
def firstMatch (unit : Nat) (bytes : Answers) (cut : Bool) : List Encoding → SearchResult
  | [] => if cut then .cutOff else .absent
  | e :: rest =>
    match e.compareBytes unit bytes with
    | .full word => .found e word
    | .cutOff => firstMatch unit bytes true rest
    | .differs => firstMatch unit bytes cut rest

open ByteWindow

/-- Reading units from a window compares them with its answers and keeps its view. -/
theorem readUnits_eq (e : Encoding) (unit left word : Nat) (w : ByteWindow) :
    (e.readUnits unit left word w).1 = e.compareUnits unit w.answer left w.position word ∧
      SameView (e.readUnits unit left word w).2 w := by
  induction left generalizing word w with
  | zero => exact ⟨rfl, .refl w⟩
  | succ left ih =>
    obtain ⟨hn, hv, hp⟩ := w.next_spec
    unfold readUnits compareUnits
    rw [← hn]
    split
    next a v he => rw [he] at hv ⊢; exact ⟨rfl, hv⟩
    next v he => rw [he] at hv ⊢; exact ⟨rfl, hv⟩
    next b v he =>
      rw [he] at hv hp ⊢
      simp only
      split
      · obtain ⟨hc, hs⟩ := ih ((word <<< unit) + unitOf unit b) v
        rw [hv.answer, hp b rfl] at hc
        exact ⟨hc, hs.trans hv⟩
      · exact ⟨rfl, hv⟩

/-- Comparing a row with a window compares it with the window's answers. -/
theorem compareRow_eq (e : Encoding) (unit : Nat) (w : ByteWindow) :
    (e.compareRow unit w).1 = e.compareBytes unit w.answer ∧
      SameView (e.compareRow unit w).2 w := by
  obtain ⟨hc, hv⟩ := e.readUnits_eq unit e.width 0 w.reset
  rw [(sameView_reset w).answer] at hc
  exact ⟨hc, hv.trans (sameView_reset w)⟩

/-- The search in a window finds the first match by its answers and keeps its view. -/
theorem searchFrom_eq (unit : Nat) (cut : Bool) (table : List Encoding) (w : ByteWindow) :
    (searchFrom unit cut table w).1 = firstMatch unit w.answer cut table ∧
      SameView (searchFrom unit cut table w).2 w := by
  induction table generalizing cut w with
  | nil => exact ⟨rfl, .refl w⟩
  | cons e rest ih =>
    obtain ⟨hc, hv⟩ := e.compareRow_eq unit w
    unfold searchFrom firstMatch
    rw [← hc]
    split
    next word v he => rw [he] at hv ⊢; exact ⟨rfl, hv⟩
    next v he =>
      rw [he] at hv ⊢
      obtain ⟨hr, hs⟩ := ih true v
      rw [hv.answer] at hr
      exact ⟨hr, hs.trans hv⟩
    next v he =>
      rw [he] at hv ⊢
      obtain ⟨hr, hs⟩ := ih cut v
      rw [hv.answer] at hr
      exact ⟨hr, hs.trans hv⟩

/-- A search of a window gives the first match of its answers and keeps its view. -/
theorem search_eq (unit : Nat) (table : List Encoding) (w : ByteWindow) :
    (search unit table w).1 = firstMatch unit w.answer false table ∧
      SameView (search unit table w).2 w :=
  searchFrom_eq unit false table w

/-- The row found is a row of the table, and all its units agree. -/
theorem firstMatch_found {unit : Nat} {bytes : Answers} {cut : Bool} {table : List Encoding}
    {row : Encoding} {word : Nat} (h : firstMatch unit bytes cut table = .found row word) :
    row ∈ table ∧ row.compareBytes unit bytes = .full word := by
  induction table generalizing cut with
  | nil =>
    unfold firstMatch at h
    split at h <;> cases h
  | cons e rest ih =>
    unfold firstMatch at h
    split at h
    next word' he =>
      cases h
      exact ⟨List.mem_cons_self, he⟩
    next => exact (ih h).imp_left (List.mem_cons_of_mem e)
    next => exact (ih h).imp_left (List.mem_cons_of_mem e)

/-- A search ends at unmapped memory only after a row was cut off there. -/
theorem firstMatch_cutOff {unit : Nat} {bytes : Answers} {table : List Encoding}
    (h : firstMatch unit bytes false table = .cutOff) :
    ∃ e ∈ table, e.compareBytes unit bytes = .cutOff := by
  induction table with
  | nil => cases h
  | cons e rest ih =>
    unfold firstMatch at h
    split at h
    next => cases h
    next he => exact ⟨e, List.mem_cons_self, he⟩
    next =>
      obtain ⟨e', hm, he⟩ := ih h
      exact ⟨e', List.mem_cons_of_mem _ hm, he⟩

/-- A row is cut off at an unmapped byte among its units. -/
theorem compareUnits_cutOff {e : Encoding} {unit : Nat} {bytes : Answers}
    {left position word : Nat}
    (h : e.compareUnits unit bytes left position word = .cutOff) :
    ∃ i < left, ∃ a, bytes (position + i) = .error (.unmapped a) := by
  induction left generalizing position word with
  | zero => cases h
  | succ left ih =>
    unfold compareUnits at h
    split at h
    next a ha => exact ⟨0, Nat.succ_pos left, a, ha⟩
    next => cases h
    next b hb =>
      split at h
      · obtain ⟨i, hi, a, ha⟩ := ih h
        refine ⟨i + 1, by omega, a, ?_⟩
        rw [← ha]
        congr 1
        omega
      · cases h

/-- Agreement of units is kept by whatever else reads the same bytes there. -/
theorem compareUnits_full_congr {e : Encoding} {unit : Nat} {bytes bytes' : Answers}
    {left position word result : Nat}
    (h : e.compareUnits unit bytes left position word = .full result)
    (hb : ∀ i < left, ∀ b, bytes (position + i) = .ok b → bytes' (position + i) = .ok b) :
    e.compareUnits unit bytes' left position word = .full result := by
  induction left generalizing position word with
  | zero => exact h
  | succ left ih =>
    unfold compareUnits at h
    split at h
    next => cases h
    next => cases h
    next b hr =>
      split at h
      next hu =>
        unfold compareUnits
        rw [show bytes' position = .ok b from hb 0 (Nat.succ_pos left) b hr]
        simp only [hu, if_true]
        apply ih h
        intro i hi c hc
        have := hb (i + 1) (by omega) c
        rw [show position + (i + 1) = position + 1 + i by omega] at this
        exact this hc
      next => cases h

/-- The units of a row that agrees can all be read. -/
theorem compareUnits_full_read {e : Encoding} {unit : Nat} {bytes : Answers}
    {left position word result : Nat}
    (h : e.compareUnits unit bytes left position word = .full result) {i : Nat} (hi : i < left) :
    ∃ b, bytes (position + i) = .ok b ∧ e.unitAgrees unit (left - 1 - i) b := by
  induction left generalizing position word i with
  | zero => omega
  | succ left ih =>
    unfold compareUnits at h
    split at h
    next => cases h
    next => cases h
    next b hr =>
      split at h
      next hu =>
        cases i with
        | zero => exact ⟨b, hr, by simpa using hu⟩
        | succ i =>
          obtain ⟨c, hc, hu'⟩ := ih h (i := i) (by omega)
          refine ⟨c, ?_, ?_⟩
          · rw [← hc]
            congr 1
            omega
          · rw [show left + 1 - 1 - (i + 1) = left - 1 - i by omega]
            exact hu'
      next => cases h

end Encoding

end DspCode
