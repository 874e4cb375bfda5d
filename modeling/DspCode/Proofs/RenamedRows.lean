import DspCode.Mnemonic.Renaming

/-!
# The row that answers a renaming

A renaming leaves the rows with the present names, goes on to the first row with the names asked
for, and takes the first row of that run with the same usage. Its three scans stop for different
reasons, and each of them may end with the table. Main statement: in terms of indices, the answer is
the least index with the same usage in the run of rows that starts at the first row with the names
asked for, counted from where the present names end; a renaming fails if there is no such run, or no
such row in it, and never goes on behind it.
-/

namespace DspCode

/-- `i` is the least index from `start` on that has a property. -/
def FirstFrom (P : Nat → Prop) (start i : Nat) : Prop :=
  start ≤ i ∧ P i ∧ ∀ j, start ≤ j → j < i → ¬ P j

/-- All indices from `start` to `i` have a property: `i` belongs to the run from `start` on. -/
def InRun (P : Nat → Prop) (start i : Nat) : Prop :=
  start ≤ i ∧ ∀ j, start ≤ j → j ≤ i → P j

section Indices

variable {P Q : Nat → Prop} {start i j : Nat}

/-- There is one first index only. -/
theorem FirstFrom.unique (hi : FirstFrom P start i) (hj : FirstFrom P start j) : i = j := by
  rcases Nat.lt_trichotomy i j with hlt | heq | hgt
  · exact absurd hi.2.1 (hj.2.2 i hi.1 hlt)
  · exact heq
  · exact absurd hj.2.1 (hi.2.2 j hj.1 hgt)

private theorem firstFrom_self (h : P start) : FirstFrom P start start :=
  ⟨Nat.le_refl start, h, fun _ hle hlt => absurd hle (Nat.not_le.mpr hlt)⟩

/-- An index without the property is passed over. -/
theorem firstFrom_iff_of_not (h : ¬ P start) : FirstFrom P start i ↔ FirstFrom P (start + 1) i := by
  constructor
  · rintro ⟨hle, hi, hbefore⟩
    have hne : start ≠ i := by
      rintro rfl
      exact h hi
    exact ⟨by omega, hi, fun j hj => hbefore j (by omega)⟩
  · rintro ⟨hle, hi, hbefore⟩
    refine ⟨by omega, hi, fun j hj hlt => ?_⟩
    rcases Nat.eq_or_lt_of_le hj with rfl | hgt
    · exact h
    · exact hbefore j hgt hlt

private theorem inRun_self (h : P start) : InRun P start start := by
  refine ⟨Nat.le_refl start, fun j hle hge => ?_⟩
  rwa [Nat.le_antisymm hge hle]

/-- Where the first index of a run lacks a property, the search for it in the run goes on with the
next one. -/
theorem inRun_and_iff (h : P start) (hpass : ¬ Q start) :
    InRun P start i ∧ Q i ↔ InRun P (start + 1) i ∧ Q i := by
  refine and_congr_left fun hi => ?_
  have hne : start ≠ i := by
    rintro rfl
    exact hpass hi
  constructor
  · rintro ⟨hle, hall⟩
    exact ⟨by omega, fun j hj => hall j (by omega)⟩
  · rintro ⟨hle, hall⟩
    refine ⟨by omega, fun j hj hji => ?_⟩
    rcases Nat.eq_or_lt_of_le hj with rfl | hgt
    · exact h
    · exact hall j hgt hji

/-- A start that does not qualify itself can be left out of the search in its run. -/
theorem firstFrom_inRun_iff (h : P start) (hpass : ¬ Q start) :
    FirstFrom (fun k => InRun P start k ∧ Q k) start i ↔
      FirstFrom (fun k => InRun P (start + 1) k ∧ Q k) (start + 1) i := by
  rw [firstFrom_iff_of_not fun hstart => hpass hstart.2]
  simp only [inRun_and_iff h hpass]

end Indices

/-- The table has a row at an index, and the row has a property. -/
def RowAt (mnemonics : Array Mnemonic) (P : Mnemonic → Prop) (i : Nat) : Prop :=
  ∃ n, mnemonics[i]? = some n ∧ P n

namespace Renaming

/-- The rows from an index on, each with its own kind. -/
def rowsFrom (mnemonics : Array Mnemonic) (i : Nat) : List (Mnemonic × Kind) :=
  (mnemonics.toList.zipIdx 0).drop i

section Scans

variable {mnemonics : Array Mnemonic} {i : Nat}

private theorem rowsFrom_of_none (h : mnemonics[i]? = none) : rowsFrom mnemonics i = [] := by
  rw [Array.getElem?_eq_none_iff] at h
  exact List.drop_of_length_le (by simpa using h)

/-- The rows from an index on are the one there and those after it. -/
theorem rowsFrom_of_some {n : Mnemonic} (h : mnemonics[i]? = some n) :
    rowsFrom mnemonics i = (n, i) :: rowsFrom mnemonics (i + 1) := by
  obtain ⟨hi, rfl⟩ := Array.getElem?_eq_some_iff.mp h
  have hlength : i < (mnemonics.toList.zipIdx 0).length := by simpa using hi
  rw [rowsFrom, List.drop_eq_getElem_cons hlength]
  simp [rowsFrom]

/-- What holds where the table has ended, and of every row if it holds of the next one, holds at
every index. -/
theorem rows_induction (mnemonics : Array Mnemonic) {motive : Nat → Prop}
    (ended : ∀ i, (∀ j, i ≤ j → mnemonics[j]? = none) → motive i)
    (row : ∀ i n, mnemonics[i]? = some n → motive (i + 1) → motive i) (i : Nat) : motive i := by
  induction hleft : mnemonics.size - i generalizing i with
  | zero =>
    refine ended i fun j hj => Array.getElem?_eq_none_iff.mpr ?_
    omega
  | succ left ih =>
    have hi : i < mnemonics.size := by omega
    exact row i _ (Array.getElem?_eq_getElem hi) (ih (i + 1) (by omega))

private theorem not_rowAt_of_none {P : Mnemonic → Prop} (h : mnemonics[i]? = none) :
    ¬ RowAt mnemonics P i := by
  rintro ⟨n, hn, -⟩
  cases h.symm.trans hn

private theorem rowAt_iff_of_some {P : Mnemonic → Prop} {n : Mnemonic}
    (h : mnemonics[i]? = some n) : RowAt mnemonics P i ↔ P n := by
  constructor
  · rintro ⟨n', hn', hP⟩
    cases h.symm.trans hn'
    exact hP
  · exact fun hP => ⟨n, h, hP⟩

/-- Rows are dropped up to the first one without a property; where there is none, nothing is
left. -/
theorem dropWhile_rowsFrom (mnemonics : Array Mnemonic) (p : Mnemonic → Bool) (i : Nat) :
    (∃ s, FirstFrom (RowAt mnemonics fun n => ¬ p n = true) i s ∧
      (rowsFrom mnemonics i).dropWhile (p ·.1) = rowsFrom mnemonics s) ∨
    (¬ ∃ s, FirstFrom (RowAt mnemonics fun n => ¬ p n = true) i s) ∧
      (rowsFrom mnemonics i).dropWhile (p ·.1) = [] := by
  induction i using rows_induction mnemonics with
  | ended i hnone =>
    refine .inr ⟨?_, by rw [rowsFrom_of_none (hnone i (Nat.le_refl i))]; rfl⟩
    rintro ⟨s, hle, hrow, -⟩
    exact not_rowAt_of_none (hnone s hle) hrow
  | row i n hn ih =>
    rw [rowsFrom_of_some hn]
    by_cases hp : p n = true
    · have hpass : ¬ RowAt mnemonics (fun n => ¬ p n = true) i := by
        rw [rowAt_iff_of_some hn]
        exact not_not_intro hp
      rw [List.dropWhile_cons, if_pos hp]
      simp only [firstFrom_iff_of_not hpass]
      exact ih
    · refine .inl ⟨i, firstFrom_self ((rowAt_iff_of_some hn).mpr hp), ?_⟩
      rw [List.dropWhile_cons, if_neg hp, rowsFrom_of_some hn]

/-- In the run of rows with the property `q` that starts at an index, the first row with the
property `u` is found, or there is none. -/
theorem find?_takeWhile_rowsFrom (mnemonics : Array Mnemonic) (q u : Mnemonic → Bool) (i : Nat) :
    (∃ j n, FirstFrom (fun k => InRun (RowAt mnemonics fun n => q n = true) i k ∧
        RowAt mnemonics (fun n => u n = true) k) i j ∧
      ((rowsFrom mnemonics i).takeWhile (q ·.1)).find? (u ·.1) = some (n, j)) ∨
    (¬ ∃ k, InRun (RowAt mnemonics fun n => q n = true) i k ∧
        RowAt mnemonics (fun n => u n = true) k) ∧
      ((rowsFrom mnemonics i).takeWhile (q ·.1)).find? (u ·.1) = none := by
  induction i using rows_induction mnemonics with
  | ended i hnone =>
    refine .inr ⟨?_, by rw [rowsFrom_of_none (hnone i (Nat.le_refl i))]; rfl⟩
    rintro ⟨k, ⟨hle, -⟩, hrow⟩
    exact not_rowAt_of_none (hnone k hle) hrow
  | row i n hn ih =>
    rw [rowsFrom_of_some hn, List.takeWhile_cons]
    by_cases hq : q n = true
    · have hrun : RowAt mnemonics (fun n => q n = true) i := (rowAt_iff_of_some hn).mpr hq
      rw [if_pos hq, List.find?_cons]
      cases hu : u n with
      | true =>
        refine .inl ⟨i, n, firstFrom_self ⟨inRun_self hrun, ?_⟩, rfl⟩
        exact (rowAt_iff_of_some hn).mpr hu
      | false =>
        have hpass : ¬ RowAt mnemonics (fun n => u n = true) i := by
          rw [rowAt_iff_of_some hn, hu]
          exact Bool.false_ne_true
        simp only [firstFrom_inRun_iff hrun hpass]
        simp only [inRun_and_iff hrun hpass]
        exact ih
    · refine .inr ⟨?_, by rw [if_neg hq]; rfl⟩
      rintro ⟨k, ⟨hle, hall⟩, -⟩
      exact hq ((rowAt_iff_of_some hn).mp (hall i (Nat.le_refl i) hle))

end Scans

/-- The names of a row are those of `m`; second names count only where both lines are compared. -/
def HasNames (r : Renaming) (m n : Mnemonic) : Prop :=
  n.name = m.name ∧ (r.twoLines = true → n.second = m.second)

/-- The names of a row are the ones asked for; second names count only where both lines are
compared, and no second name counts as the empty one. -/
def HasLongerNames (r : Renaming) (m n : Mnemonic) : Prop :=
  n.name = r.firstName m ∧ (r.twoLines = true → n.second.getD "" = r.secondName m)

/-- The test for the same names decides whether a row has them. -/
theorem keeps_iff (r : Renaming) (m n : Mnemonic) : r.keeps m n = true ↔ r.HasNames m n := by
  cases htwo : r.twoLines <;> simp [keeps, HasNames, htwo]

/-- The test for the longer names decides whether a row has them. -/
theorem reaches_iff (r : Renaming) (m n : Mnemonic) :
    r.reaches m n = true ↔ r.HasLongerNames m n := by
  cases htwo : r.twoLines <;> simp [reaches, HasLongerNames, htwo]

/-- The run of rows with the names asked for starts at an index: the first one with these names from
the first row behind `kind` on that has other names than `m`. -/
def StartsRun (r : Renaming) (mnemonics : Array Mnemonic) (kind : Kind) (m : Mnemonic)
    (start : Nat) : Prop :=
  ∃ s, FirstFrom (RowAt mnemonics fun n => ¬ r.HasNames m n) (kind + 1) s ∧
    FirstFrom (RowAt mnemonics (r.HasLongerNames m)) s start

/-- A row of the run from `start` on has the usage of `m`. -/
def SuitsInRun (r : Renaming) (mnemonics : Array Mnemonic) (m : Mnemonic) (start i : Nat) : Prop :=
  InRun (RowAt mnemonics (r.HasLongerNames m)) start i ∧ RowAt mnemonics (·.usage = m.usage) i

variable {r : Renaming} {mnemonics : Array Mnemonic} {kind : Kind} {m : Mnemonic}

/-- The run starts at one index only. -/
theorem StartsRun.unique {start start' : Nat} (h : r.StartsRun mnemonics kind m start)
    (h' : r.StartsRun mnemonics kind m start') : start = start' := by
  obtain ⟨s, hs, hstart⟩ := h
  obtain ⟨s', hs', hstart'⟩ := h'
  cases hs.unique hs'
  exact hstart.unique hstart'

/-- The run is what is left when the rows with the same names and then those without the longer
names are dropped. -/
theorem run_rowsAfter (r : Renaming) (mnemonics : Array Mnemonic) (kind : Kind) (m : Mnemonic) :
    r.run m (rowsAfter mnemonics kind) = (((rowsFrom mnemonics (kind + 1)).dropWhile
      (r.keeps m ·.1)).dropWhile (!r.reaches m ·.1)).takeWhile (r.reaches m ·.1) :=
  rfl

/-- The first two scans find where the run starts, or end with the table if there is no run. -/
theorem run_cases (r : Renaming) (mnemonics : Array Mnemonic) (kind : Kind) (m : Mnemonic) :
    (∃ start, r.StartsRun mnemonics kind m start ∧ r.run m (rowsAfter mnemonics kind) =
      (rowsFrom mnemonics start).takeWhile (r.reaches m ·.1)) ∨
    (¬ ∃ start, r.StartsRun mnemonics kind m start) ∧
      r.run m (rowsAfter mnemonics kind) = [] := by
  rw [run_rowsAfter]
  have hleave := dropWhile_rowsFrom mnemonics (r.keeps m) (kind + 1)
  simp only [keeps_iff] at hleave
  obtain ⟨s, hs, hrows⟩ | ⟨hno, hrows⟩ := hleave
  · have hreach := dropWhile_rowsFrom mnemonics (fun n => !r.reaches m n) s
    simp only [Bool.not_eq_true', Bool.not_eq_false, reaches_iff] at hreach
    rw [hrows]
    obtain ⟨start, hstart, hrows⟩ | ⟨hno, hrows⟩ := hreach
    · exact .inl ⟨start, ⟨s, hs, hstart⟩, by rw [hrows]⟩
    · refine .inr ⟨?_, by rw [hrows, List.takeWhile_nil]⟩
      rintro ⟨start, s', hs', hstart⟩
      cases hs.unique hs'
      exact hno ⟨start, hstart⟩
  · refine .inr ⟨?_, by rw [hrows, List.dropWhile_nil, List.takeWhile_nil]⟩
    rintro ⟨start, s, hs, -⟩
    exact hno ⟨s, hs⟩

/-- What a renaming of a kind of the table gives: the least index that suits in the run, or else the
names that were asked for. -/
theorem apply_cases (r : Renaming) (hm : mnemonics[kind]? = some m) :
    (∃ start j, r.StartsRun mnemonics kind m start ∧
      FirstFrom (r.SuitsInRun mnemonics m start) start j ∧ r.apply mnemonics kind = .ok j) ∨
    (¬ ∃ start j, r.StartsRun mnemonics kind m start ∧ r.SuitsInRun mnemonics m start j) ∧
      r.apply mnemonics kind = .error ⟨kind, r.wanted m⟩ := by
  rw [apply, hm]
  simp only
  obtain ⟨start, hstart, hrun⟩ | ⟨hno, hrun⟩ := r.run_cases mnemonics kind m
  · have hfind := find?_takeWhile_rowsFrom mnemonics (r.reaches m) (·.usage == m.usage) start
    simp only [reaches_iff, beq_iff_eq] at hfind
    rw [hrun]
    obtain ⟨j, n, hj, hfound⟩ | ⟨hnone, hfound⟩ := hfind
    · exact .inl ⟨start, j, hstart, hj, by rw [hfound]⟩
    · refine .inr ⟨?_, by rw [hfound]⟩
      rintro ⟨start', j, hstart', hj⟩
      cases hstart.unique hstart'
      exact hnone ⟨j, hj⟩
  · refine .inr ⟨?_, by rw [hrun, List.find?_nil]⟩
    rintro ⟨start, j, hstart, -⟩
    exact hno ⟨start, hstart⟩

/-- A renaming of a kind of the table gives the least index with the same usage in the run of rows
with the names asked for. It fails, with these names, exactly if there is no such run or no row of
the run has the usage; rows behind the run, with other names or with another usage are never given.
-/
theorem apply_takes_first_in_run (r : Renaming) (hm : mnemonics[kind]? = some m) :
    (∀ j, r.apply mnemonics kind = .ok j ↔ ∃ start, r.StartsRun mnemonics kind m start ∧
      FirstFrom (r.SuitsInRun mnemonics m start) start j) ∧
    ∀ e, r.apply mnemonics kind = .error e ↔ e = ⟨kind, r.wanted m⟩ ∧
      ((¬ ∃ start, r.StartsRun mnemonics kind m start) ∨
        ∃ start, r.StartsRun mnemonics kind m start ∧ ¬ ∃ i, r.SuitsInRun mnemonics m start i) := by
  obtain ⟨start, j, hstart, hj, hok⟩ | ⟨hno, herror⟩ := r.apply_cases hm
  · rw [hok]
    refine ⟨fun j' => ⟨fun h => ?_, ?_⟩, fun e => ⟨fun h => ?_, ?_⟩⟩
    · cases h
      exact ⟨start, hstart, hj⟩
    · rintro ⟨start', hstart', hj'⟩
      cases hstart.unique hstart'
      rw [hj.unique hj']
    · cases h
    · rintro ⟨-, hnone | ⟨start', hstart', hnone⟩⟩
      · exact absurd ⟨start, hstart⟩ hnone
      · cases hstart.unique hstart'
        exact absurd ⟨j, hj.2.1⟩ hnone
  · rw [herror]
    refine ⟨fun j => ⟨fun h => ?_, ?_⟩, fun e => ⟨fun h => ?_, ?_⟩⟩
    · cases h
    · rintro ⟨start, hstart, hj⟩
      exact absurd ⟨start, j, hstart, hj.2.1⟩ hno
    · cases h
      refine ⟨rfl, ?_⟩
      by_cases hrun : ∃ start, r.StartsRun mnemonics kind m start
      · obtain ⟨start, hstart⟩ := hrun
        refine .inr ⟨start, hstart, ?_⟩
        rintro ⟨i, hi⟩
        exact hno ⟨start, i, hstart, hi⟩
      · exact .inl hrun
    · rintro ⟨rfl, -⟩
      rfl

/-- Products, sums of products and their rounding forms; the rounding form of the difference reads
its operand only. -/
def productRows : Array Mnemonic :=
  #[⟨"", none, {}⟩, ⟨"mac", none, .of [0] [1]⟩, ⟨"mac", none, .of [0] []⟩,
    ⟨"mac40", none, .of [0] [1]⟩, ⟨"macr", none, .of [0] []⟩, ⟨"macr", none, .of [0] [1]⟩,
    ⟨"mas", none, .of [0] [1]⟩, ⟨"masr", none, .of [0] []⟩, ⟨"mpy", some "mpy", .of [0] [1]⟩]

/-- A sum of products is rounded by the second row of the run, past a row of another name; a
difference has no rounding form, although a row of that name follows. -/
theorem apply_takes_first_in_run_products :
    let round : Renaming := ⟨"r", false, true, false⟩
    let sum : Mnemonic := ⟨"mac", none, .of [0] [1]⟩
    let difference : Mnemonic := ⟨"mas", none, .of [0] [1]⟩
    productRows[1]? = some sum ∧ productRows[6]? = some difference ∧
      (∃ start, round.StartsRun productRows 1 sum start ∧
        FirstFrom (round.SuitsInRun productRows sum start) start 5) ∧
      ((¬ ∃ start, round.StartsRun productRows 6 difference start) ∨
        ∃ start, round.StartsRun productRows 6 difference start ∧
          ¬ ∃ i, round.SuitsInRun productRows difference start i) := by
  intro round sum difference
  have hsum : productRows[1]? = some sum := rfl
  have hdifference : productRows[6]? = some difference := rfl
  have hrounded : round.apply productRows 1 = .ok 5 := by rfl
  have hfails : round.apply productRows 6 = .error ⟨6, "masr"⟩ := by rfl
  exact ⟨hsum, hdifference, ((round.apply_takes_first_in_run hsum).1 5).mp hrounded,
    (((round.apply_takes_first_in_run hdifference).2 _).mp hfails).2⟩

end Renaming

end DspCode
