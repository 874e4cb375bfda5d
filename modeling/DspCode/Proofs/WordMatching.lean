import DspCode.Proofs.FirstRow
import DspCode.Proofs.PairWidths

/-!
# Matching by units and by words

A search compares a row with bytes unit by unit; the widths of packed halves are found by comparing
rows of at most four bytes with a whole word. Both come to the same bits. Main statement: all units
of a row agree with some bytes exactly if the row's code and the word that the units make up agree
on the row's mask, and the width found for a word is that of the row which a search finds on bytes
that start with the word, if that row is short enough.
-/

namespace DspCode

/-- Two numbers agree on the low bits of a mask exactly if they have the same bits there. -/
theorem and_mask_eq_iff {a b mask n : Nat} :
    a &&& (mask % (1 <<< n)) = b &&& (mask % (1 <<< n)) ↔
      ∀ j < n, mask.testBit j = true → a.testBit j = b.testBit j := by
  rw [Nat.one_shiftLeft]
  constructor
  · intro h j hj hmask
    have hbit := congrArg (·.testBit j) h
    simpa [hj, hmask] using hbit
  · intro h
    apply Nat.eq_of_testBit_eq
    intro j
    rw [Nat.testBit_and, Nat.testBit_and, Nat.testBit_mod_two_pow]
    by_cases hfixed : j < n ∧ mask.testBit j = true
    · rw [h j hfixed.1 hfixed.2]
    · have hfree : (decide (j < n) && mask.testBit j) = false := by simpa using hfixed
      rw [hfree, Bool.and_false, Bool.and_false]

namespace Encoding

/-- The code word that the units of bytes make up behind a word, the unit of the first byte on
top. -/
def joinUnits (unit word : Nat) (bytes : List UInt8) : Nat :=
  bytes.foldl (fun word b => (word <<< unit) + unitOf unit b) word

section Units

variable {unit : Nat}

private theorem unitOf_lt (unit : Nat) (b : UInt8) : unitOf unit b < 1 <<< unit := by
  refine Nat.mod_lt _ ?_
  rw [Nat.one_shiftLeft]
  exact Nat.two_pow_pos unit

/-- The bits of a unit are the low bits of its byte. -/
theorem testBit_unitOf {k : Nat} (hk : k < unit) (b : UInt8) :
    (unitOf unit b).testBit k = b.toNat.testBit k := by
  rw [unitOf, Nat.one_shiftLeft, Nat.testBit_mod_two_pow, decide_eq_true hk, Bool.true_and]

/-- The bits of a word after one more unit. -/
theorem testBit_append_unit (word : Nat) (b : UInt8) (j : Nat) :
    ((word <<< unit) + unitOf unit b).testBit j =
      if j < unit then b.toNat.testBit j else word.testBit (j - unit) := by
  have hunit := unitOf_lt unit b
  rw [Nat.one_shiftLeft] at hunit
  rw [Nat.shiftLeft_eq, Nat.mul_comm, Nat.testBit_two_pow_mul_add word hunit]
  split
  next hj => exact testBit_unitOf hj b
  next => rfl

/-- The bits of the word in front move up by the units behind it. -/
theorem testBit_joinUnits_add (unit word : Nat) (bytes : List UInt8) (j : Nat) :
    (joinUnits unit word bytes).testBit (bytes.length * unit + j) = word.testBit j := by
  induction bytes generalizing word j with
  | nil => rw [List.length_nil, Nat.zero_mul, Nat.zero_add, joinUnits, List.foldl_nil]
  | cons b rest ih =>
    have hplace : (b :: rest).length * unit + j = rest.length * unit + (unit + j) := by
      rw [List.length_cons, Nat.succ_mul, Nat.add_assoc]
    rw [hplace, joinUnits, List.foldl_cons, ← joinUnits, ih, testBit_append_unit,
      if_neg (by omega), Nat.add_sub_cancel_left]

/-- The unit of each byte stands in its place. -/
theorem testBit_joinUnits {word i k : Nat} {bytes : List UInt8} {b : UInt8}
    (hb : bytes[i]? = some b) (hk : k < unit) :
    (joinUnits unit word bytes).testBit ((bytes.length - 1 - i) * unit + k) =
      b.toNat.testBit k := by
  induction bytes generalizing word i with
  | nil => cases hb
  | cons c rest ih =>
    rw [joinUnits, List.foldl_cons, ← joinUnits, List.length_cons, Nat.add_sub_cancel]
    cases i with
    | zero =>
      cases hb
      rw [Nat.sub_zero, testBit_joinUnits_add, testBit_append_unit, if_pos hk]
    | succ i =>
      rw [show rest.length - (i + 1) = rest.length - 1 - i by omega]
      exact ih hb

/-- A byte agrees with a unit of a row exactly if it has the bits that the row fixes there. -/
theorem unitAgrees_iff (e : Encoding) (unit after : Nat) (b : UInt8) :
    e.unitAgrees unit after b = true ↔ ∀ k < unit, e.mask.testBit (after * unit + k) = true →
      e.code.testBit (after * unit + k) = b.toNat.testBit k := by
  rw [unitAgrees, beq_iff_eq, and_mask_eq_iff]
  refine forall_congr' fun k => forall_congr' fun hk => ?_
  rw [testBit_unitOf hk, Nat.one_shiftLeft, Nat.testBit_mod_two_pow, decide_eq_true hk,
    Bool.true_and, Nat.testBit_shiftRight, Nat.testBit_shiftRight]

/-- Each bit of a code word is a bit of one of its units. -/
theorem lt_mul_iff_exists_place {width j : Nat} :
    j < width * unit ↔ ∃ after < width, ∃ k < unit, j = after * unit + k := by
  constructor
  · intro hj
    have hpos : 0 < unit := Nat.pos_of_mul_pos_left (Nat.zero_lt_of_lt hj)
    exact ⟨j / unit, (Nat.div_lt_iff_lt_mul hpos).mpr hj, j % unit, Nat.mod_lt j hpos,
      (Nat.div_add_mod' j unit).symm⟩
  · rintro ⟨after, hafter, k, hk, rfl⟩
    have hle : (after + 1) * unit ≤ width * unit := Nat.mul_le_mul_right unit hafter
    rw [Nat.succ_mul] at hle
    omega

/-- All units of a row agree with the first bytes of a sequence exactly if the word that their units
make up and the code of the row agree on the bits of the mask. -/
theorem forall_unitAgrees_iff {e : Encoding} {bytes : List UInt8} (hlong : e.width ≤ bytes.length) :
    (∀ i < e.width, ∀ b, bytes[i]? = some b → e.unitAgrees unit (e.width - 1 - i) b = true) ↔
      e.code &&& (e.mask % (1 <<< (e.width * unit))) =
        joinUnits unit 0 (bytes.take e.width) &&& (e.mask % (1 <<< (e.width * unit))) := by
  have hbit : ∀ i < e.width, ∀ b, bytes[i]? = some b → ∀ k < unit,
      (joinUnits unit 0 (bytes.take e.width)).testBit ((e.width - 1 - i) * unit + k) =
        b.toNat.testBit k := by
    intro i hi b hb k hk
    have htake : (bytes.take e.width)[i]? = some b := by rw [List.getElem?_take_of_lt hi, hb]
    rw [← testBit_joinUnits htake hk, List.length_take_of_le hlong]
  rw [and_mask_eq_iff]
  constructor
  · intro hunits j hj hmask
    obtain ⟨after, hafter, k, hk, rfl⟩ := lt_mul_iff_exists_place.mp hj
    have hi : e.width - 1 - after < e.width := by omega
    have hb := List.getElem?_eq_getElem (Nat.lt_of_lt_of_le hi hlong)
    have hcode := (e.unitAgrees_iff unit _ _).mp (hunits _ hi _ hb) k hk
    have hword := hbit _ hi _ hb k hk
    rw [show e.width - 1 - (e.width - 1 - after) = after by omega] at hcode hword
    rw [hcode hmask, hword]
  · intro hword i hi b hb
    rw [unitAgrees_iff]
    intro k hk hmask
    rw [hword _ (lt_mul_iff_exists_place.mpr ⟨_, by omega, k, hk, rfl⟩) hmask]
    exact hbit i hi b hb k hk

end Units

end Encoding

/-- The width of the row that a search finds, if it has at most four bytes, and otherwise zero. -/
def SearchResult.shortWidth : SearchResult → Nat
  | .found row _ => if row.width ≤ 4 then row.width else 0
  | .cutOff | .absent => 0

namespace Encoding

section Search

variable {word : Nat} {w : ByteWindow} (hword : ∀ i < 4, w.answer i = .ok (wordByte word i))
include hword

/-- A row agrees with the word that a window starts with exactly if it has at most four bytes and
agrees with the window. -/
theorem agreesWithWord_iff {e : Encoding} (he : e ∈ table) :
    e.agreesWithWord word = true ↔ e.width ≤ 4 ∧ e.Agrees 8 w := by
  constructor
  · intro h
    have hwidth : e.width ≤ 4 := of_decide_eq_true (Bool.and_eq_true_iff.mp h).1
    refine ⟨hwidth, fun i hi => ?_⟩
    obtain ⟨hcap, -, hshown⟩ := ByteWindow.answer_eq_ok_iff.mp (hword i (by omega))
    have hfits := fits_of_agreesWithWord h hi
    exact ⟨hcap, _, hshown, by rw [unitAgrees_eq, hfits]⟩
  · rintro ⟨hwidth, hagrees⟩
    refine agreesWithWord_of_fits he hwidth fun i hi => ?_
    obtain ⟨-, b, hb, hunit⟩ := hagrees i hi
    obtain ⟨-, -, hshown⟩ := ByteWindow.answer_eq_ok_iff.mp (hword i (by omega))
    cases hb.symm.trans hshown
    rwa [unitAgrees_eq] at hunit

/-- The width found for a word is that of the row which a search finds, if that row is short. -/
theorem leadingWidth_eq_shortWidth :
    leadingWidth table word = (firstMatch 8 w.answer false table).shortWidth := by
  by_cases hshort : ∃ e ∈ table, e.agreesWithWord word = true
  · obtain ⟨e, he, hagrees⟩ := hshort
    obtain ⟨hwidth, hall⟩ := (agreesWithWord_iff hword he).mp hagrees
    have hfull := compareBytes_of_agrees hall
    rw [firstMatch_of_full he hfull fun e' he' r hr =>
      row_eq_of_full pairwise_apart_table he' he hr hfull, SearchResult.shortWidth, if_pos hwidth]
    exact PackedPair.widthOf_eq_of_agrees he hagrees
  · have hzero : leadingWidth table word = 0 := Classical.byContradiction fun hne =>
      have ⟨e, he, hagrees, _⟩ := PackedPair.exists_of_leadingWidth hne
      hshort ⟨e, he, hagrees⟩
    rw [hzero]
    cases hfound : firstMatch 8 w.answer false table with
    | cutOff | absent => rfl
    | found row code =>
      -- a row that is found and not counted is a longer one
      obtain ⟨hmem, hfull⟩ := firstMatch_found hfound
      have hall : row.Agrees 8 w := Classical.byContradiction fun hnot =>
        compareBytes_ne_full hnot code hfull
      have hlong : ¬ row.width ≤ 4 := fun hwidth =>
        hshort ⟨row, hmem, (agreesWithWord_iff hword hmem).mpr ⟨hwidth, hall⟩⟩
      rw [SearchResult.shortWidth, if_neg hlong]

end Search

/-- Comparing a row unit by unit and as a whole come to the same. For any row, width of units and
bytes, all units agree exactly if the word that they make up and the row's code agree on the bits of
the mask below the row's width. For any word, the width of the first row of at most four bytes that
agrees with it is the width of the row that a search of the table finds on any window that starts
with the bytes of the word, if that row has at most four bytes; if it is longer or there is none, it
is zero. -/
theorem units_agree_as_words :
    (∀ (e : Encoding) (unit : Nat) (bytes : List UInt8), e.width ≤ bytes.length →
      ((∀ i < e.width, ∀ b, bytes[i]? = some b →
          e.unitAgrees unit (e.width - 1 - i) b = true) ↔
        e.code &&& (e.mask % (1 <<< (e.width * unit))) =
          joinUnits unit 0 (bytes.take e.width) &&& (e.mask % (1 <<< (e.width * unit))))) ∧
    ∀ (word : UInt32) (w : ByteWindow),
      (∀ i < 4, (w.at? i).1 = .ok (wordByte word.toNat i)) →
      leadingWidth table word.toNat = (search 8 table w).1.shortWidth := by
  refine ⟨fun e unit bytes hlong => forall_unitAgrees_iff hlong, fun word w hword => ?_⟩
  rw [(search_eq 8 table w).1]
  exact leadingWidth_eq_shortWidth hword

/-- Two units of four bits make up `0x13`, and the first row of a window with the bytes of a move
between registers has two bytes. -/
theorem units_agree_as_words_move :
    (∀ i < 2, ∀ b, [0x21, 0x43, 0x65][i]? = some b →
      (⟨0x13, 0xFF, 2, 3, []⟩ : Encoding).unitAgrees 4 (2 - 1 - i) b = true) ∧
    (search 8 table (.new (.holding 0 [0x22, 0x01, 0, 0, 0xFF]) 0)).1.shortWidth = 2 := by
  have hwidth : leadingWidth table (0x22010000 : UInt32).toNat = 2 := by decide +kernel
  constructor
  · exact (units_agree_as_words.1 ⟨0x13, 0xFF, 2, 3, []⟩ 4 [0x21, 0x43, 0x65] (by decide)).mpr
      (by decide)
  · rw [← units_agree_as_words.2 0x22010000, hwidth]
    intro i hi
    refine (ByteWindow.answer_holding_eq_ok_iff (by decide)).mpr ?_
    revert i
    decide +kernel

end Encoding

end DspCode
