import DspCode.Proofs.Numerals
import DspCode.Proofs.Scanning
import DspCode.Proofs.Unpacking

/-!
# Listings read back

The lines of a listing that start with an address are read back as rows, an address and the bytes in
the columns behind it. The rows of a listing of an image show every byte from its first address to
the place where it ends.
-/

namespace DspCode

namespace AddressSpace

variable {space : AddressSpace} {a : Address} {m n : Nat}

/-- Where all bytes are mapped, none is left out. -/
theorem bytesBetween?_of_mapped (h : ∀ i < n, space.isMapped (a + UInt32.ofNat i) = true) :
    space.bytesBetween? a 0 n = some (space.mappedBytes a n) := by
  unfold bytesBetween? mappedBytes
  rw [Nat.sub_zero, ← List.range_eq_range']
  induction n with
  | zero => rfl
  | succ n ih =>
    obtain ⟨byte, hbyte⟩ := Option.isSome_iff_exists.mp (h n (Nat.lt_succ_self n))
    rw [List.range_succ, List.mapM_append, ih fun i hi => h i (Nat.lt_succ_of_lt hi),
      List.filterMap_append]
    simp [hbyte]

/-- The bytes of two stretches, one behind the other. -/
theorem bytesBetween?_append {bytes rest : List UInt8}
    (hfront : space.bytesBetween? a 0 m = some bytes)
    (hrest : space.bytesBetween? (a + UInt32.ofNat m) 0 n = some rest) :
    space.bytesBetween? a 0 (m + n) = some (bytes ++ rest) := by
  unfold bytesBetween? at *
  rw [Nat.sub_zero] at *
  have hshift : List.range' m n = (List.range' 0 n).map (m + ·) := by
    rw [List.map_add_range', Nat.add_zero]
  have hmoved : (fun i => space (a + UInt32.ofNat i)) ∘ (m + ·) =
      fun i => space (a + UInt32.ofNat m + UInt32.ofNat i) := by
    funext i
    rw [Function.comp_apply, UInt32.ofNat_add, UInt32.add_assoc]
  rw [← List.range'_append_1, Nat.zero_add, List.mapM_append, hfront, hshift, List.mapM_map, hmoved,
    hrest]
  rfl

end AddressSpace

namespace Listing

/-- The bytes in the columns at the front of a text: two digits and a blank each. -/
def columns : List Char → List UInt8
  | high :: low :: ' ' :: rest =>
    match digitValue? 16 high, digitValue? 16 low with
    | some x, some y => UInt8.ofNat (x * 16 + y) :: columns rest
    | _, _ => []
  | _ => []

/-- The address at the front of a line, and what stands behind the colon. -/
def addressed? : List Char → Option (Address × List Char)
  | '0' :: 'x' :: rest =>
    match readDigits 16 0 (rest.takeWhile (· != ':')), rest.dropWhile (· != ':') with
    | .ok n, ':' :: ' ' :: rest => some (UInt32.ofNat n, rest)
    | _, _ => none
  | _ => none

/-- The address at the front of a line, and the bytes in the columns behind it. -/
def row? (line : List Char) : Option (Address × List UInt8) :=
  (addressed? line).map fun found => (found.1, columns found.2)

/-- The rows of a text, one for each line that starts with an address. -/
def rows (text : List Char) : List (Address × List UInt8) := (text.splitOn '\n').filterMap row?

/-- The columns of bytes. -/
def columnsText (bytes : List UInt8) : List Char :=
  bytes.flatMap fun b => (hexPadded 2 b.toNat).toList ++ [' ']

/-- What stands in front of the text in the line of an address. -/
def heading (a : Address) (bytes : List UInt8) : List Char :=
  (addressText a).toList ++ ':' :: ' ' :: (columnsText bytes ++ [' ', ' '])

section Columns

private theorem columns_of_digitValue?_eq_none {c : Char} (h : digitValue? 16 c = none)
    (rest : List Char) : columns (c :: rest) = [] := by
  unfold columns
  split
  next heq =>
    cases heq
    rw [h]
  next => rfl

/-- The columns of bytes are read back, up to what is no digit. -/
theorem columns_columnsText (bytes : List UInt8) {c : Char} (h : digitValue? 16 c = none)
    (rest : List Char) : columns (columnsText bytes ++ c :: rest) = bytes := by
  unfold columnsText
  induction bytes with
  | nil => exact columns_of_digitValue?_eq_none h rest
  | cons b bytes ih =>
    have hlt := b.toNat_lt
    rw [List.flatMap_cons, toList_hexPadded_byte]
    simp only [List.cons_append, List.nil_append, columns]
    rw [digitValue?_digitChar (by decide) (by omega), digitValue?_digitChar (by decide) (by omega)]
    simp only
    rw [ih, Nat.div_add_mod', UInt8.ofNat_toNat]

private theorem newline_not_mem_columnsText (bytes : List UInt8) : '\n' ∉ columnsText bytes := by
  intro hmem
  obtain ⟨b, -, hb⟩ := List.mem_flatMap.mp hmem
  have hsize : b.toNat < UInt32.size := Nat.lt_trans b.toNat_lt (by decide)
  rcases List.mem_append.mp hb with hdigit | hblank
  · exact not_mem_hexPadded 2 hsize rfl hdigit
  · exact absurd hblank (by decide)

end Columns

section Headings

variable (a : Address) (bytes : List UInt8) (rest : List Char)

/-- The address at the front of a line is read back. -/
theorem addressed?_addressText :
    addressed? ((addressText a).toList ++ ':' :: ' ' :: rest) = some (a, rest) := by
  have hdigits : ∀ c ∈ (hexPadded 6 a.toNat).toList, (c != ':') = true := fun c hc =>
    bne_iff_ne.mpr fun hcolon => not_mem_hexPadded 6 a.toNat_lt_size rfl (hcolon ▸ hc)
  rw [addressText, String.toList_append]
  simp only [String.reduceToList, List.cons_append, List.nil_append, addressed?]
  rw [List.takeWhile_append_of_pos hdigits, List.dropWhile_append_of_pos hdigits]
  simp [readDigits_hexPadded 6 a.toNat_lt_size]

/-- The row behind a printed address is read back from its columns. -/
theorem row?_addressText :
    row? ((addressText a).toList ++ ':' :: ' ' :: rest) = some (a, columns rest) := by
  rw [row?, addressed?_addressText]
  rfl

/-- A printed address has no line break. -/
theorem newline_not_mem_addressText : '\n' ∉ (addressText a).toList := by
  rw [addressText, String.toList_append, List.mem_append]
  rintro (hmark | hdigit)
  · exact absurd hmark (by decide)
  · exact not_mem_hexPadded 6 a.toNat_lt_size rfl hdigit

/-- The address and the bytes of a heading are read back from its line. -/
theorem row?_heading : row? (heading a bytes ++ rest) = some (a, bytes) := by
  rw [heading, List.append_assoc, List.cons_append, List.cons_append, List.append_assoc,
    row?_addressText, List.cons_append, columns_columnsText bytes rfl]

example : row? "0x000100: 20 ff   nop".toList = some (0x100, [0x20, 0xFF]) := by decide

/-- A heading has no line break. -/
theorem newline_not_mem_heading : '\n' ∉ heading a bytes := by
  simp [heading, newline_not_mem_addressText, newline_not_mem_columnsText]

end Headings

section Rows

variable {front : List Char}

/-- The rows of a text are that of its first line and those of the others. -/
theorem rows_append (hfront : '\n' ∉ front) (rest : List Char) :
    rows (front ++ '\n' :: rest) = (row? front).toList ++ rows rest := by
  rw [rows, List.splitOn_append_cons_self_of_not_mem hfront, List.filterMap_cons]
  cases row? front <;> rfl

/-- What is written for a character of a text whose further lines are indented. -/
def indentChar (places : Nat) (c : Char) : List Char :=
  if c = '\n' then '\n' :: List.replicate places ' ' else [c]

/-- Indenting works on one character after the other. -/
theorem toList_indented (places : Nat) (text : String) :
    (indented places text).toList = text.toList.flatMap (indentChar places) := by
  rw [indented, String.toList_join, List.flatMap_map]
  congr 1
  funext c
  rw [indentChar]
  split
  · simp
  · exact String.toList_singleton c

/-- A text starts a row with its first line at most: the others are indented. -/
theorem rows_indented {places : Nat} (hplaces : 0 < places) (hfront : '\n' ∉ front)
    (text rest : List Char) :
    rows (front ++ (text.flatMap (indentChar places) ++ '\n' :: rest)) =
      (row? (front ++ text.takeWhile (· != '\n'))).toList ++ rows rest := by
  induction text generalizing front with
  | nil => simp [rows_append hfront]
  | cons c text ih =>
    by_cases hc : c = '\n'
    · -- The line ends here, and the next one starts with a blank.
      have hpad : '\n' ∉ List.replicate places ' ' := by simp
      have hrow : ∀ tail, row? (List.replicate places ' ' ++ tail) = none := by
        obtain ⟨more, rfl⟩ := Nat.exists_eq_succ_of_ne_zero (Nat.ne_of_gt hplaces)
        exact fun _ => rfl
      rw [List.flatMap_cons, indentChar, if_pos hc, List.cons_append, List.cons_append,
        rows_append hfront, List.append_assoc, ih hpad, hrow, hc]
      simp
    · have hmore : '\n' ∉ front ++ [c] := by simp [hfront, Ne.symm hc]
      rw [List.flatMap_cons, indentChar, if_neg hc, List.append_assoc, ← List.append_assoc front,
        ih hmore, List.takeWhile_cons_of_pos (by simpa using hc), List.append_assoc]
      rfl

/-- A line is its heading, the text with its further lines indented, and a line break. -/
theorem toList_line (a : Address) (bytes : List UInt8) (text : String) :
    (line a (some bytes) text).toList = heading a bytes ++
      (text.toList.flatMap (indentChar (heading a bytes).length) ++ ['\n']) := by
  have hhead : (addressText a ++ ": " ++
      (String.join (bytes.map fun b => hexPadded 2 b.toNat ++ " ") ++ "  ")).toList =
      heading a bytes := by
    simp [heading, columnsText, String.toList_join, List.flatMap_map]
  simp only [line, String.toList_append, toList_indented, ← String.length_toList] at hhead ⊢
  rw [hhead, List.append_assoc]
  rfl

/-- A line is read back as its address and its bytes. -/
theorem rows_line (a : Address) (bytes : List UInt8) (text : String) (rest : List Char) :
    rows ((line a (some bytes) text).toList ++ rest) = (a, bytes) :: rows rest := by
  have hplaces : 0 < (heading a bytes).length := List.length_pos_iff.mpr (by simp [heading])
  rw [toList_line, List.append_assoc, List.append_assoc, List.singleton_append,
    rows_indented hplaces (newline_not_mem_heading a bytes), row?_heading]
  rfl

/-- The row of a piece. -/
def rowOf (space : AddressSpace) (p : Piece) : Address × List UInt8 :=
  (p.address, space.mappedBytes p.address p.length)

/-- The lines of pieces are read back as their rows. -/
theorem rows_pieces (space : AddressSpace) (pieces : List Piece) (rest : List Char) :
    rows ((String.join (pieces.map (pieceLine space true))).toList ++ rest) =
      pieces.map (rowOf space) ++ rows rest := by
  induction pieces with
  | nil => simp
  | cons p pieces ih =>
    rw [List.map_cons, String.join_cons, String.toList_append, List.append_assoc, pieceLine,
      if_pos rfl, rows_line, ih]
    rfl

/-- The line at the end of a listing that meets an unmapped address has no columns. -/
theorem rows_unmapped (a : Address) : rows (addressText a ++ ": <oob>\n").toList = [(a, [])] := by
  have hline : (addressText a ++ ": <oob>\n").toList =
      ((addressText a).toList ++ ':' :: ' ' :: "<oob>".toList) ++ ['\n'] := by simp
  have hfree : '\n' ∉ (addressText a).toList ++ ':' :: ' ' :: "<oob>".toList := by
    simp [newline_not_mem_addressText]
  rw [hline, rows_append hfree, row?_addressText]
  rfl

end Rows

/-- The rows follow each other from one address to another. Each starts where the bytes of the one
before end, has a byte, and ends below the top of the address space. -/
inductive Consecutive : Address → List (Address × List UInt8) → Address → Prop where
  /-- There are no rows between an address and itself. -/
  | nil (a : Address) : Consecutive a [] a
  /-- A row stands before the others. -/
  | cons {a stop : Address} {bytes : List UInt8} {rest : List (Address × List UInt8)}
      (pos : 0 < bytes.length) (below : a.toNat + bytes.length < UInt32.size)
      (next : Consecutive (a + UInt32.ofNat bytes.length) rest stop) :
      Consecutive a ((a, bytes) :: rest) stop

section Pieces

variable {space : AddressSpace} {a stop : Address} {pieces : List Piece}

/-- The rows of pieces that tile a stretch follow each other. -/
theorem consecutive_rowOf (h : Scan.Tiles space a pieces stop) :
    Consecutive a (pieces.map (rowOf space)) stop := by
  induction h with
  | nil a => exact .nil a
  | @cons p rest stop pos mapped below next ih =>
    have hlength : (space.mappedBytes p.address p.length).length = p.length :=
      AddressSpace.length_bytesBetween (AddressSpace.bytesBetween?_of_mapped mapped)
    refine .cons ?_ ?_ ?_
    all_goals rwa [hlength]

/-- The rows of pieces that lie end to end show all bytes between their ends. -/
theorem bytesBetween?_rowOf (h : Scan.Tiles space a pieces stop) :
    space.bytesBetween? a 0 (stop.toNat - a.toNat) =
      some ((pieces.map (rowOf space)).flatMap Prod.snd) := by
  induction h with
  | nil a =>
    rw [Nat.sub_self]
    rfl
  | @cons p rest stop pos mapped below next ih =>
    have hnext := Address.toNat_add_ofNat below
    have hstop := next.toNat_stop
    have hsplit : stop.toNat - p.address.toNat =
        p.length + (stop.toNat - (p.address + UInt32.ofNat p.length).toNat) := by omega
    rw [hsplit]
    exact AddressSpace.bytesBetween?_append (AddressSpace.bytesBetween?_of_mapped mapped) ih

end Pieces

section Render

variable {settings : Settings} {space : AddressSpace} {start stop : Address} {showBytes : Bool}

/-- A listing that reaches its end is made of the lines of its pieces. -/
theorem render_of_reached (h : (Scan.of settings space start stop).ending = .reached) :
    render settings space start stop showBytes = .ok (String.join
      ((Scan.of settings space start stop).pieces.map (pieceLine space showBytes))) := by
  simp only [render, h]

/-- A listing that comes to an unmapped address says so in a last line. -/
theorem render_of_unmapped (h : (Scan.of settings space start stop).ending = .unmapped) :
    render settings space start stop showBytes = .ok (String.join
      ((Scan.of settings space start stop).pieces.map (pieceLine space showBytes)) ++
      (addressText (Scan.of settings space start stop).stop ++ ": <oob>\n")) := by
  simp only [render, h, String.append_assoc]

end Render

/-- A text lists the bytes of an address space from `start` on in the rows `shown`, up to `p`. -/
structure Lists (space : AddressSpace) (start stop : Address) (text : String)
    (shown : List (Address × List UInt8)) (p : Address) : Prop where
  /-- The rows follow each other. -/
  consecutive : Consecutive start shown p
  /-- They show all bytes. -/
  bytes : space.bytesBetween? start 0 (p.toNat - start.toNat) = some (shown.flatMap Prod.snd)
  /-- The text has just these rows and ends at `stop` or at most nine places past it, or it ends
  with a line for an unmapped address. -/
  ending : (stop ≤ p ∧ p.toNat ≤ stop.toNat + 9 ∧ rows text.toList = shown) ∨
    (p < stop ∧ space p = none ∧ rows text.toList = shown ++ [(p, [])] ∧
      ∃ lines, text = lines ++ (addressText p ++ ": <oob>\n"))

/-- The listing of an image shows every byte from its first address on, in rows that follow each
other, up to its last address or an unmapped one. -/
theorem render_lists_all_bytes (settings : Settings) (image : Image) {start stop : Address}
    (hrange : start ≤ stop) :
    ∃ text shown p, render settings image.space start stop true = .ok text ∧
      Lists image.space start stop text shown p := by
  have hspace := image.endsBelowTop_space
  have hruns := Scan.runs_of hspace settings start stop
  have htiles := hruns.tiles hspace
  have hrows := rows_pieces image.space (Scan.of settings image.space start stop).pieces
  obtain ⟨hending, hpast⟩ | ⟨hending, hbefore, hfree⟩ := hruns.ending_cases
  · have hle := hruns.stop_le hspace (Nat.le_trans hrange (Nat.le_add_right _ _))
    have hread := hrows []
    rw [List.append_nil, show rows [] = [] from rfl, List.append_nil] at hread
    exact ⟨_, _, _, render_of_reached hending, consecutive_rowOf htiles,
      bytesBetween?_rowOf htiles, Or.inl ⟨hpast, hle, hread⟩⟩
  · refine ⟨_, _, _, render_of_unmapped hending, consecutive_rowOf htiles,
      bytesBetween?_rowOf htiles, Or.inr ⟨hbefore, hfree, ?_, _, rfl⟩⟩
    rw [String.toList_append, hrows, rows_unmapped]

/-- Two segments with a gap between them, and a range that reaches into the gap. -/
theorem render_lists_all_bytes_gap :
    ∃ text shown p,
      render {} (Image.space ⟨[.raw "low" 0x100 #[0x20, 0xFF, 0x48, 0x04],
        .raw "high" 0x200 #[0x20]]⟩) 0x100 0x201 true = .ok text ∧
      Lists (Image.space ⟨[.raw "low" 0x100 #[0x20, 0xFF, 0x48, 0x04],
        .raw "high" 0x200 #[0x20]]⟩) 0x100 0x201 text shown p :=
  render_lists_all_bytes {} _ (by decide)

end Listing

end DspCode
