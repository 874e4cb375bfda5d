import DspCode.Proofs.Matching

/-!
# The order of the encoding table

A search takes the first row that agrees. For the processor's table the order of the rows does not
matter: of any two rows, one unit excludes the other, so no bytes agree with both. Where no row
agrees, the search is cut off if any row is, wherever that row stands. Main statement: the table
gives the same matches in every order.
-/

namespace DspCode

namespace Encoding

/-- No bytes agree with both rows. -/
def Apart (e e' : Encoding) : Prop :=
  ∀ (bytes : Answers) (word word' : Nat), e.compareBytes 8 bytes = .full word →
    e'.compareBytes 8 bytes ≠ .full word'

/-- Being apart is mutual. -/
theorem Apart.symm {e e' : Encoding} (h : e.Apart e') : e'.Apart e :=
  fun bytes word word' he' he => h bytes word' word he he'

/-- Rows of the same width fix some bit in different ways. -/
theorem startsApart_startingWith : ∀ high < 16, (startingWith high).Pairwise fun e e' =>
    e.width = e'.width → e.startsApart e' = true := by
  decide +kernel

/-- Of any two rows of the table, no bytes agree with both. -/
theorem pairwise_apart_table : table.Pairwise Apart := by
  refine List.pairwise_iff_getElem.mpr fun i j hi hj hij bytes word word' h h' => ?_
  have he := List.getElem_mem hi
  have he' := List.getElem_mem hj
  -- both rows are among those that the first byte leaves, and they are of the same width
  obtain ⟨b, hb, hfit⟩ := fits_of_compareBytes h (width_of_mem he).1
  obtain ⟨b', hb', hfit'⟩ := fits_of_compareBytes h' (width_of_mem he').1
  cases hb.symm.trans hb'
  have hwidth : table[i].width = table[j].width :=
    Nat.le_antisymm (width_le_of_compareBytes he' he h' h fun _ _ => rfl)
      (width_le_of_compareBytes he he' h h' fun _ _ => rfl)
  have hgroup := List.pairwise_filter.mp
    (startsApart_startingWith (b.toNat / 16) (by have := b.toNat_lt; omega))
  have hapart := List.pairwise_iff_getElem.mp hgroup i j hi hj hij
    (List.mem_filter.mp (mem_startingWith he hfit)).2
    (List.mem_filter.mp (mem_startingWith he' hfit')).2 hwidth
  obtain ⟨k, hk, hex⟩ := List.any_eq_true.mp hapart
  obtain ⟨c, hc, hfits⟩ := fits_of_compareBytes h (List.mem_range.mp hk)
  obtain ⟨c', hc', hfits'⟩ := fits_of_compareBytes h' (hwidth ▸ List.mem_range.mp hk)
  cases hc.symm.trans hc'
  rw [BytePattern.not_excludes_of_fits hfits hfits'] at hex
  cases hex

section Search

variable {rows : List Encoding} {unit : Nat} {bytes : Answers} {cut : Bool}

/-- A row that agrees is found if no other row agrees. -/
theorem firstMatch_of_full {row : Encoding} {word : Nat} (hmem : row ∈ rows)
    (hfull : row.compareBytes unit bytes = .full word)
    (hunique : ∀ e ∈ rows, ∀ r, e.compareBytes unit bytes = .full r → e = row) :
    firstMatch unit bytes cut rows = .found row word := by
  induction rows generalizing cut with
  | nil => cases hmem
  | cons e rest ih =>
    obtain ⟨he, hrest⟩ := List.forall_mem_cons.mp hunique
    unfold firstMatch
    cases hc : e.compareBytes unit bytes with
    | full r =>
      cases he r hc
      cases hfull.symm.trans hc
      rfl
    | cutOff | differs =>
      refine ih ((List.mem_cons.mp hmem).resolve_left ?_) hrest
      rintro rfl
      rw [hc] at hfull
      cases hfull

/-- Where no row agrees, a search is cut off if some row is. -/
theorem firstMatch_of_not_full (h : ∀ e ∈ rows, ∀ word, e.compareBytes unit bytes ≠ .full word) :
    firstMatch unit bytes cut rows =
      if cut || rows.any (·.compareBytes unit bytes == .cutOff) then .cutOff else .absent := by
  induction rows generalizing cut with
  | nil => rw [List.any_nil, Bool.or_false, firstMatch]
  | cons e rest ih =>
    obtain ⟨he, hrest⟩ := List.forall_mem_cons.mp h
    unfold firstMatch
    rw [List.any_cons]
    cases hc : e.compareBytes unit bytes with
    | full word => exact absurd hc (he word)
    | cutOff => exact (ih hrest).trans (by simp)
    | differs => exact (ih hrest).trans (by simp)

/-- At most one place of a list of rows, any two of them apart, agrees with some bytes. -/
theorem index_eq_of_full (hapart : rows.Pairwise Apart) {i j : Nat} {e e' : Encoding}
    (hi : rows[i]? = some e) (hj : rows[j]? = some e') {word word' : Nat}
    (h : e.compareBytes 8 bytes = .full word) (h' : e'.compareBytes 8 bytes = .full word') :
    i = j := by
  obtain ⟨hilt, rfl⟩ := List.getElem?_eq_some_iff.mp hi
  obtain ⟨hjlt, rfl⟩ := List.getElem?_eq_some_iff.mp hj
  have hpair := List.pairwise_iff_getElem.mp hapart
  rcases Nat.lt_trichotomy i j with hlt | heq | hgt
  · exact absurd h' (hpair i j hilt hjlt hlt bytes word word' h)
  · exact heq
  · exact absurd h (hpair j i hjlt hilt hgt bytes word' word h')

/-- At most one row of a list, any two of its rows apart, agrees with some bytes. -/
theorem row_eq_of_full (hapart : rows.Pairwise Apart) {e e' : Encoding} (he : e ∈ rows)
    (he' : e' ∈ rows) {word word' : Nat} (h : e.compareBytes 8 bytes = .full word)
    (h' : e'.compareBytes 8 bytes = .full word') : e = e' := by
  obtain ⟨i, hi⟩ := List.mem_iff_getElem?.mp he
  obtain ⟨j, hj⟩ := List.mem_iff_getElem?.mp he'
  cases index_eq_of_full hapart hi hj h h'
  exact Option.some.inj (hi.symm.trans hj)

/-- A search of rows, any two of them apart, gives the same in every order. -/
theorem firstMatch_perm {rows' : List Encoding} (hperm : rows'.Perm rows)
    (hapart : rows.Pairwise Apart) :
    firstMatch 8 bytes cut rows' = firstMatch 8 bytes cut rows := by
  by_cases hsome : ∃ e ∈ rows, ∃ word, e.compareBytes 8 bytes = .full word
  · obtain ⟨row, hmem, word, hfull⟩ := hsome
    have hunique : ∀ e ∈ rows, ∀ r, e.compareBytes 8 bytes = .full r → e = row :=
      fun e he r hr => row_eq_of_full hapart he hmem hr hfull
    rw [firstMatch_of_full hmem hfull hunique,
      firstMatch_of_full (hperm.mem_iff.mpr hmem) hfull fun e he => hunique e (hperm.mem_iff.mp he)]
  · have hnone : ∀ e ∈ rows, ∀ word, e.compareBytes 8 bytes ≠ .full word :=
      fun e he word h => hsome ⟨e, he, word, h⟩
    rw [firstMatch_of_not_full hnone,
      firstMatch_of_not_full fun e he => hnone e (hperm.mem_iff.mp he), hperm.any_eq]

end Search

end Encoding

namespace Machine

/-- The order of the encoding table does not matter: in whatever order its rows stand, at most one
of them agrees with the bytes of a window, and matching the window gives the same instruction, finds
no instruction, or fails in the same way. -/
theorem matchWindow_of_perm {rows : List Encoding} (hperm : rows.Perm Encoding.table)
    (context : Context) (next : NextAddress) (w : ByteWindow) :
    (∀ (i j : Nat) (e e' : Encoding) (word word' : Nat), rows[i]? = some e → rows[j]? = some e' →
      (e.compareRow 8 w).1 = .full word → (e'.compareRow 8 w).1 = .full word' → i = j) ∧
    ({ c55x with encodings := rows } : Machine).matchWindow context next w =
      c55x.matchWindow context next w := by
  constructor
  · intro i j e e' word word' hi hj h h'
    have hapart := (hperm.pairwise_iff Encoding.Apart.symm).mpr Encoding.pairwise_apart_table
    rw [(e.compareRow_eq 8 w).1] at h
    rw [(e'.compareRow_eq 8 w).1] at h'
    exact Encoding.index_eq_of_full hapart hi hj h h'
  · rw [matchWindow_eq, matchWindow_eq]
    have hsearch : Encoding.firstMatch 8 w.answer false rows =
        Encoding.firstMatch 8 w.answer false Encoding.table :=
      Encoding.firstMatch_perm hperm Encoding.pairwise_apart_table
    simp only [unitBits_c55x, encodings_c55x, hsearch]
    rfl

/-- With the rows in reverse, a move between registers is matched as before. -/
theorem matchWindow_of_perm_reverse :
    let reversed : Machine := { c55x with encodings := Encoding.table.reverse }
    let move := ByteWindow.new (.holding 0 [0x22, 0x01]) 0
    Encoding.table.reverse.Perm Encoding.table ∧
      (c55x.matchWindow {} plainNext move).toOption.map (Option.map (·.kind)) =
        some (some Form.mov2.kind) ∧
      reversed.matchWindow {} plainNext move = c55x.matchWindow {} plainNext move := by
  intro reversed move
  have hperm := Encoding.table.reverse_perm
  exact ⟨hperm, by decide +kernel, (matchWindow_of_perm hperm {} plainNext move).2⟩

end Machine

end DspCode
