import DspCode.Proofs.Search
import DspCode.Proofs.Table

/-!
# Byte patterns of code words

Each unit of a row fixes some bits of a byte. Two patterns exclude each other if no byte fits both.
Of two rows of the processor's table with different widths, some unit of the shorter one excludes
the unit of the longer one at the same place: no code word is the beginning of a longer one. The
first row that agrees with some bytes is therefore settled by the bytes of that row.
-/

namespace DspCode

/-- The fixed bits of a byte. -/
structure BytePattern where
  /-- The values of the fixed bits. -/
  code : Nat
  /-- Which bits are fixed. -/
  mask : Nat

namespace BytePattern

/-- Whether a byte has the fixed bits. -/
def fits (p : BytePattern) (b : UInt8) : Bool := p.code &&& p.mask == b.toNat &&& p.mask

/-- Whether two patterns fix some bit in different ways. -/
def excludes (p q : BytePattern) : Bool :=
  !(p.code &&& p.mask &&& q.mask == q.code &&& q.mask &&& p.mask)

/-- Patterns that one byte fits do not exclude each other. -/
theorem not_excludes_of_fits {p q : BytePattern} {b : UInt8} (hp : p.fits b = true)
    (hq : q.fits b = true) : p.excludes q = false := by
  rw [fits, beq_iff_eq] at hp hq
  rw [excludes, Bool.not_eq_false', beq_iff_eq, hp, hq, Nat.and_assoc, Nat.and_assoc,
    Nat.and_comm p.mask]

end BytePattern

namespace Encoding

/-- What a row fixes of the unit at a place, counted from the front. -/
def pattern (e : Encoding) (i : Nat) : BytePattern :=
  ⟨e.code >>> ((e.width - 1 - i) * 8) % 256, e.mask >>> ((e.width - 1 - i) * 8) % 256⟩

/-- A unit agrees with a byte that fits its pattern. -/
theorem unitAgrees_eq (e : Encoding) (i : Nat) (b : UInt8) :
    e.unitAgrees 8 (e.width - 1 - i) b = (e.pattern i).fits b := by
  have hb : unitOf 8 b = b.toNat := Nat.mod_eq_of_lt b.toNat_lt
  simp only [unitAgrees, hb]
  rfl

/-- The units of a row that agrees fit its patterns. -/
theorem fits_of_compareBytes {e : Encoding} {bytes : Answers} {word : Nat}
    (h : e.compareBytes 8 bytes = .full word) {i : Nat} (hi : i < e.width) :
    ∃ b, bytes i = .ok b ∧ (e.pattern i).fits b = true := by
  obtain ⟨b, hb, hu⟩ := compareUnits_full_read h hi
  rw [Nat.zero_add] at hb
  exact ⟨b, hb, e.unitAgrees_eq i b ▸ hu⟩

/-- Whether some unit of the first row excludes the unit of the second at the same place. -/
def startsApart (e e' : Encoding) : Bool :=
  (List.range e.width).any fun i => (e.pattern i).excludes (e'.pattern i)

/-- The rows whose first byte can have the given high half. -/
def startingWith (high : Nat) : List Encoding :=
  table.filter fun e => !(e.pattern 0).excludes ⟨high * 16, 0xF0⟩

/-- Whether no row of a list is the beginning of a longer one. -/
def prefixFree (rows : List Encoding) : Bool :=
  rows.all fun e => rows.all fun e' => Nat.ble e'.width e.width || e.startsApart e'

/-- Rows with different high halves of the first byte need no comparing. -/
theorem prefixFree_startingWith : ∀ high < 16, prefixFree (startingWith high) = true := by
  decide +kernel

variable {e e' : Encoding}

/-- A row is listed under the high half of every first byte that fits it. -/
theorem mem_startingWith (he : e ∈ table) {b : UInt8} (hb : (e.pattern 0).fits b = true) :
    e ∈ startingWith (b.toNat / 16) := by
  have hhigh : (⟨b.toNat / 16 * 16, 0xF0⟩ : BytePattern).fits b = true := by
    have hall : ∀ n < 256, (n / 16 * 16) &&& 0xF0 = n &&& 0xF0 := by decide +kernel
    exact beq_iff_eq.mpr (hall b.toNat b.toNat_lt)
  refine List.mem_filter.mpr ⟨he, ?_⟩
  rw [BytePattern.not_excludes_of_fits hb hhigh]
  rfl

/-- No code word is the beginning of a longer one. -/
theorem width_le_of_fits (he : e ∈ table) (he' : e' ∈ table)
    (h : ∀ i < e.width, ∃ b, (e.pattern i).fits b = true ∧ (e'.pattern i).fits b = true) :
    e'.width ≤ e.width := by
  obtain ⟨b, hb, hb'⟩ := h 0 (width_of_mem he).1
  have hfree := prefixFree_startingWith (b.toNat / 16) (by have := b.toNat_lt; omega)
  have hpair := List.all_eq_true.mp (List.all_eq_true.mp hfree e (mem_startingWith he hb)) e'
    (mem_startingWith he' hb')
  rw [Bool.or_eq_true, Nat.ble_eq] at hpair
  refine hpair.resolve_right fun hapart => ?_
  obtain ⟨i, hi, hex⟩ := List.any_eq_true.mp hapart
  obtain ⟨c, hc, hc'⟩ := h i (List.mem_range.mp hi)
  rw [BytePattern.not_excludes_of_fits hc hc'] at hex
  cases hex

private theorem compareBytes_full_congr {bytes bytes' : Answers} {word : Nat}
    (hr : ∀ i < e.width, bytes' i = bytes i) (h : e.compareBytes 8 bytes = .full word) :
    e.compareBytes 8 bytes' = .full word := by
  refine compareUnits_full_congr h fun i hi b hb => ?_
  rw [Nat.zero_add] at hb ⊢
  rw [hr i hi, hb]

/-- A row that agrees where the bytes of another one stand is not longer than that. -/
theorem width_le_of_compareBytes (he : e ∈ table) (he' : e' ∈ table) {bytes bytes' : Answers}
    {word word' : Nat} (h : e.compareBytes 8 bytes = .full word)
    (h' : e'.compareBytes 8 bytes' = .full word') (hr : ∀ i < e.width, bytes' i = bytes i) :
    e'.width ≤ e.width := by
  rcases Nat.le_total e'.width e.width with hle | hge
  · exact hle
  · refine width_le_of_fits he he' fun i hi => ?_
    obtain ⟨b, hb, hfit⟩ := fits_of_compareBytes h hi
    obtain ⟨b', hb', hfit'⟩ := fits_of_compareBytes h' (Nat.lt_of_lt_of_le hi hge)
    rw [hr i hi, hb] at hb'
    cases hb'
    exact ⟨b, hfit, hfit'⟩

/-- The first row that agrees is settled by its own bytes. -/
theorem firstMatch_congr {rows : List Encoding} (hrows : ∀ e ∈ rows, e ∈ table)
    {bytes bytes' : Answers} {cut cut' : Bool} {row : Encoding} {word : Nat}
    (h : firstMatch 8 bytes cut rows = .found row word)
    (hr : ∀ i < row.width, bytes' i = bytes i) :
    firstMatch 8 bytes' cut' rows = .found row word := by
  obtain ⟨hmem, hfull⟩ := firstMatch_found h
  induction rows generalizing cut cut' with
  | nil => cases hmem
  | cons e rest ih =>
    obtain ⟨he, hrest⟩ := List.forall_mem_cons.mp hrows
    -- an earlier row that agrees now is not longer, and so would have agreed before
    have hearlier : ∀ r, e.compareBytes 8 bytes' = .full r → e.compareBytes 8 bytes = .full r := by
      intro r hfull'
      have hwidth := width_le_of_compareBytes (hrows row hmem) he hfull hfull' hr
      exact compareBytes_full_congr
        (fun i hi => (hr i (Nat.lt_of_lt_of_le hi hwidth)).symm) hfull'
    unfold firstMatch at h ⊢
    split at h
    next word' hagrees =>
      cases h
      rw [compareBytes_full_congr hr hagrees]
    all_goals
      next hno =>
        have hmem := (firstMatch_found h).1
        split
        next r hr =>
          rw [hearlier r hr] at hno
          cases hno
        all_goals exact ih hrest h hmem

/-- The byte at a place of a word of four bytes, counted from the top. -/
def wordByte (word i : Nat) : UInt8 := UInt8.ofNat (word >>> (8 * (3 - i)) % 256)

/-- Where a row agrees with a word, the bytes of the word fit its patterns. -/
theorem fits_of_agreesWithWord {word : Nat} (h : e.agreesWithWord word = true) {i : Nat}
    (hi : i < e.width) : (e.pattern i).fits (wordByte word i) = true := by
  simp only [agreesWithWord, Bool.and_eq_true, decide_eq_true_eq, beq_iff_eq] at h
  obtain ⟨hw, hcode⟩ := h
  have hplace : 8 * (4 - e.width) + (e.width - 1 - i) * 8 = 8 * (3 - i) := by omega
  have hbyte : (wordByte word i).toNat = word >>> (8 * (3 - i)) % 256 :=
    UInt8.toNat_ofNat_of_lt' (Nat.mod_lt _ (by decide))
  have hunit : e.code >>> ((e.width - 1 - i) * 8) % 256 =
      e.mask >>> ((e.width - 1 - i) * 8) % 256 &&& word >>> (8 * (3 - i)) % 256 := by
    rw [← hcode, Nat.shiftRight_and_distrib, ← Nat.shiftRight_add, hplace]
    exact Nat.and_mod_two_pow (n := 8)
  simp only [pattern, BytePattern.fits, beq_iff_eq, hbyte, hunit]
  rw [Nat.and_comm (_ % 256), Nat.and_assoc, Nat.and_self]

/-- All rows that agree with the top of a word have the same width. -/
theorem width_eq_of_agreesWithWord (he : e ∈ table) (he' : e' ∈ table) {word : Nat}
    (h : e.agreesWithWord word = true) (h' : e'.agreesWithWord word = true) :
    e.width = e'.width := by
  have hle : ∀ {e e' : Encoding}, e ∈ table → e' ∈ table → e.agreesWithWord word = true →
      e'.agreesWithWord word = true → e'.width ≤ e.width := by
    intro e e' he he' h h'
    rcases Nat.le_total e'.width e.width with hle | hge
    · exact hle
    · exact width_le_of_fits he he' fun i hi => ⟨_, fits_of_agreesWithWord h hi,
        fits_of_agreesWithWord h' (Nat.lt_of_lt_of_le hi hge)⟩
  exact Nat.le_antisymm (hle he' he h' h) (hle he he' h h')

/-- A leading width is settled by as many bytes. -/
theorem leadingWidth_congr {word word' n : Nat} (h : leadingWidth table word = n) (hn : 0 < n)
    (hshared : word' >>> (8 * (4 - n)) = word >>> (8 * (4 - n))) :
    leadingWidth table word' = n := by
  unfold leadingWidth at h ⊢
  split at h
  next e he =>
    subst h
    have hagrees : e.agreesWithWord word' = true := by
      have := List.find?_some he
      unfold agreesWithWord at this ⊢
      rwa [hshared]
    split
    next e' he' =>
      have hagrees' := List.find?_some he'
      exact width_eq_of_agreesWithWord (List.mem_of_find?_eq_some he')
        (List.mem_of_find?_eq_some he) hagrees' hagrees
    next hnone =>
      exact absurd hagrees (List.find?_eq_none.mp hnone e (List.mem_of_find?_eq_some he))
  next =>
    subst h
    cases hn

end Encoding

end DspCode
