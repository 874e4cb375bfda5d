import DspCode.Proofs.Accounting
import DspCode.Proofs.ListingText
import DspCode.Proofs.Placement

/-!
# Two listings of the same bytes

A survey lists the bytes of a file as a region, and a listing shows them as an image of one segment.
The two go over the bytes in loops of their own, read them from memories of their own, and lay their
lines out differently. Read back as entries, an address and a text each, they say the same, and they
say what a series of steps gives from the first address to the end.
-/

namespace DspCode

/-- The line that a survey prints for a piece. -/
def Survey.pieceLine : Piece → String
  | .code insn text => codeLine insn.address text
  | .data a byte => dataLine a byte

/-- A survey prints the lines of its pieces one after the other. -/
theorem Survey.listing_foldl (base : Address) (pieces : List Piece) (s : Survey) :
    (pieces.foldl (addPiece base) s).listing =
      s.listing ++ String.join (pieces.map pieceLine) := by
  induction pieces generalizing s with
  | nil => simp
  | cons p rest ih =>
    rw [List.foldl_cons, ih, List.map_cons, String.join_cons, ← String.append_assoc]
    cases p <;> rfl

namespace Listing

/-- How the lines of a listing are laid out. -/
structure Layout where
  /-- Whether columns of bytes stand between an address and its text. -/
  hasColumns : Bool
  /-- How far the further lines of a text are indented, by the length of what stands before its
  first line. -/
  places : Nat → Nat

/-- The layout of a survey. -/
def Layout.survey : Layout := ⟨false, fun _ => 10⟩

/-- The layout of a listing between two addresses. -/
def Layout.range (showBytes : Bool) : Layout := ⟨showBytes, id⟩

namespace Layout

variable (layout : Layout)

/-- What follows the columns of bytes, of three places each, and two blanks. -/
def afterColumns (line : List Char) : List Char := line.drop (3 * (columns line).length + 2)

/-- The address at the front of a line, and the text in the line. -/
def headed? (line : List Char) : Option (Address × List Char) :=
  (addressed? line).map fun (a, rest) => (a, if layout.hasColumns then afterColumns rest else rest)

/-- Puts a line before those that were read: a line with an address opens an entry, to which the
further lines up to the next entry belong. -/
def place (line : List Char) (read : List (List Char) × List (Address × String)) :
    List (List Char) × List (Address × String) :=
  match layout.headed? line with
  | some (a, text) =>
    let more := read.1.map (·.drop (layout.places (line.length - text.length)))
    ([], (a, String.ofList (['\n'].intercalate (text :: more))) :: read.2)
  | none => (if line.isEmpty then read.1 else line :: read.1, read.2)

/-- Reads lines from the last to the first. Gives the lines before the first entry, and the
entries. -/
def gather (text : List Char) : List (List Char) × List (Address × String) :=
  (text.splitOn '\n').foldr layout.place ([], [])

/-- The entries of a listing. -/
def entries (text : String) : List (Address × String) := (layout.gather text.toList).2

/-- What stands before the text in the first line of an entry. -/
structure Heads (a : Address) (front : List Char) : Prop where
  /-- It is part of one line. -/
  newline : '\n' ∉ front
  /-- The address is read back from it, and the text is what follows. -/
  headed : ∀ rest, layout.headed? (front ++ rest) = some (a, rest)
  /-- Further lines are indented. -/
  indents : 0 < layout.places front.length

/-- A line shows a text at an address. -/
def Shows (a : Address) (text line : String) : Prop :=
  ∃ front, layout.Heads a front ∧ line.toList =
    front ++ (text.toList.flatMap (indentChar (layout.places front.length)) ++ ['\n'])

end Layout

/-- The lines of an indented text are those of the text: the first behind what stands before it, the
others behind blanks. -/
theorem splitOn_indented {front first text : List Char} {more : List (List Char)} (places : Nat)
    (hfront : '\n' ∉ front) (h : text.splitOn '\n' = first :: more) :
    (front ++ text.flatMap (indentChar places)).splitOn '\n' =
      (front ++ first) :: more.map (List.replicate places ' ' ++ ·) := by
  induction text generalizing front first more with
  | nil =>
    cases h
    simp [List.splitOn_eq_singleton hfront]
  | cons c text ih =>
    obtain ⟨next, others, hrest⟩ := List.exists_cons_of_ne_nil (List.splitOn_ne_nil '\n' text)
    rw [List.splitOn, List.splitOnP_cons_eq_if_modifyHead, ← List.splitOn, hrest] at h
    by_cases hc : c = '\n'
    · -- The line ends here, and the next one starts with blanks.
      have hpad : '\n' ∉ List.replicate places ' ' := by simp
      rw [if_pos (beq_iff_eq.mpr hc)] at h
      cases h
      rw [List.flatMap_cons, indentChar, if_pos hc, List.cons_append,
        List.splitOn_append_cons_self_of_not_mem hfront, ih hpad hrest, List.append_nil]
      rfl
    · have hmore : '\n' ∉ front ++ [c] := by simp [hfront, Ne.symm hc]
      rw [if_neg (by simpa using hc)] at h
      cases h
      rw [List.flatMap_cons, indentChar, if_neg hc, ← List.append_assoc, ih hmore hrest,
        List.append_assoc]
      rfl

namespace Layout

variable {layout : Layout} {a : Address}

/-! ## Reading entries back -/

/-- Indented lines are further lines of the entry before them. -/
theorem foldr_place_indented {places : Nat} (hplaces : 0 < places) (lines : List (List Char))
    (read : List (Address × String)) :
    (lines.map (List.replicate places ' ' ++ ·)).foldr layout.place ([], read) =
      (lines.map (List.replicate places ' ' ++ ·), read) := by
  obtain ⟨more, rfl⟩ := Nat.exists_eq_succ_of_ne_zero (Nat.ne_of_gt hplaces)
  induction lines with
  | nil => rfl
  | cons line lines ih =>
    rw [List.map_cons, List.foldr_cons, ih]
    rfl

/-- An entry is read back, in front of others. -/
theorem gather_append {text line : String} (h : layout.Shows a text line) {rest : List Char}
    {read : List (Address × String)} (hrest : layout.gather rest = ([], read)) :
    layout.gather (line.toList ++ rest) = ([], (a, text) :: read) := by
  obtain ⟨front, hheads, hline⟩ := h
  obtain ⟨first, more, hlines⟩ :=
    List.exists_cons_of_ne_nil (List.splitOn_ne_nil '\n' text.toList)
  have hsplit := splitOn_indented (layout.places front.length) hheads.newline hlines
  have hfurther : ∀ n, (more.map (List.replicate n ' ' ++ ·)).map (·.drop n) = more := by
    intro n
    simp [List.map_map, Function.comp_def]
  have htext : ['\n'].intercalate (first :: more) = text.toList := by
    rw [← hlines, List.intercalate_splitOn]
  have hsplits : (line.toList ++ rest).splitOn '\n' =
      (front ++ first) :: (more.map (List.replicate (layout.places front.length) ' ' ++ ·) ++
        rest.splitOn '\n') := by
    rw [hline, ← List.append_assoc, List.append_assoc, List.singleton_append,
      List.splitOn_append_cons_self, hsplit, List.cons_append]
  unfold gather at hrest ⊢
  rw [hsplits, List.foldr_cons, List.foldr_append, hrest, foldr_place_indented hheads.indents,
    place, hheads.headed]
  simp only [List.length_append, Nat.add_sub_cancel]
  rw [hfurther, htext, String.ofList_toList]

/-- A listing whose lines show pieces has their addresses and texts as its entries. -/
theorem entries_join {line : Piece → String} (h : ∀ p, layout.Shows p.address p.text (line p))
    (pieces : List Piece) :
    layout.entries (String.join (pieces.map line)) = pieces.map fun p => (p.address, p.text) := by
  have hgather : layout.gather (String.join (pieces.map line)).toList =
      ([], pieces.map fun p => (p.address, p.text)) := by
    induction pieces with
    | nil => rfl
    | cons p pieces ih =>
      rw [List.map_cons, String.join_cons, String.toList_append, gather_append (h p) ih]
      rfl
  rw [entries, hgather]

example : survey.entries "0x000100: abs AC0\n          || nop\n0x000103: .byte 0xff\n" =
    [(0x100, "abs AC0\n|| nop"), (0x103, ".byte 0xff")] := by decide

/-! ## The lines of a survey and of a listing -/

@[simp] theorem places_range (showBytes : Bool) (n : Nat) : (range showBytes).places n = n := rfl

private theorem length_columnsText (bytes : List UInt8) :
    (columnsText bytes).length = 3 * bytes.length := by
  unfold columnsText
  induction bytes with
  | nil => rfl
  | cons b bytes ih =>
    rw [List.flatMap_cons, List.length_append, ih, toList_hexPadded_byte, List.length_cons]
    simp only [List.cons_append, List.nil_append, List.length_cons, List.length_nil]
    omega

/-- The columns end where the text starts. -/
theorem afterColumns_columnsText (bytes : List UInt8) (rest : List Char) :
    afterColumns (columnsText bytes ++ ' ' :: ' ' :: rest) = rest := by
  rw [afterColumns, columns_columnsText bytes rfl, ← length_columnsText, ← List.drop_drop,
    List.drop_left]
  rfl

/-- An address heads a line without columns. -/
theorem heads_addressText (a : Address) (hcolumns : layout.hasColumns = false)
    (hindents : ∀ n, 0 < n → 0 < layout.places n) :
    layout.Heads a ((addressText a).toList ++ [':', ' ']) := by
  refine ⟨?_, fun rest => ?_, hindents _ (by simp)⟩
  · simp [newline_not_mem_addressText]
  · rw [List.append_assoc, headed?, List.cons_append, List.singleton_append,
      addressed?_addressText, hcolumns]
    rfl

/-- An address and columns of bytes head a line with columns. -/
theorem heads_heading (a : Address) (bytes : List UInt8) :
    (range true).Heads a (heading a bytes) := by
  refine ⟨newline_not_mem_heading a bytes, fun rest => ?_, ?_⟩
  · rw [heading, List.append_assoc, List.cons_append, List.cons_append, List.append_assoc, headed?,
      addressed?_addressText]
    exact congrArg (fun text => some (a, text)) (afterColumns_columnsText bytes rest)
  · rw [places_range, List.length_pos_iff]
    simp [heading]

/-- A text of one line is not indented. -/
theorem flatMap_indentChar {places : Nat} {text : List Char} (h : '\n' ∉ text) :
    text.flatMap (indentChar places) = text := by
  induction text with
  | nil => rfl
  | cons c text ih =>
    have hc : c ≠ '\n' := fun heq => h (heq ▸ List.mem_cons_self)
    have htext : '\n' ∉ text := fun hmem => h (List.mem_cons_of_mem c hmem)
    rw [List.flatMap_cons, indentChar, if_neg hc, ih htext]
    rfl

/-- A survey shows each piece, an instruction with its text and a data byte in a form of its own. -/
theorem shows_surveyLine (p : Piece) : survey.Shows p.address p.text (Survey.pieceLine p) := by
  refine ⟨_, heads_addressText p.address rfl fun _ _ => Nat.succ_pos 9, ?_⟩
  cases p with
  | code insn text =>
    simp [Survey.pieceLine, Survey.codeLine, toList_indented, survey, Piece.address, Piece.text]
  | data a byte =>
    have hsize : byte.toNat < UInt32.size := Nat.lt_trans byte.toNat_lt (by decide)
    have hdigits : '\n' ∉ (hexPadded 2 byte.toNat).toList := not_mem_hexPadded 2 hsize rfl
    have hline : '\n' ∉ (".byte " ++ byteText byte).toList := by simp [byteText, hdigits]
    rw [Piece.text, flatMap_indentChar hline]
    simp [Survey.pieceLine, Survey.dataLine, Piece.address]

/-- A listing shows each piece, with or without columns of bytes. -/
theorem shows_rangeLine (space : AddressSpace) (showBytes : Bool) (p : Piece) :
    (range showBytes).Shows p.address p.text (pieceLine space showBytes p) := by
  cases showBytes with
  | true =>
    refine ⟨_, heads_heading p.address (space.mappedBytes p.address p.length), ?_⟩
    rw [places_range]
    exact toList_line _ _ _
  | false =>
    refine ⟨_, heads_addressText p.address rfl fun _ hn => hn, ?_⟩
    simp [pieceLine, line, toList_indented, ← String.length_toList]

end Layout

end Listing

/-! ## Series of steps -/

namespace Step

/-- What a step shows at its address: the text of the instruction, or the byte that starts none. -/
def Entry.shown? (space : AddressSpace) (e : Entry) : Option (Address × String) :=
  match e.outcome with
  | .ok step => some (e.address, step.text)
  | .error _ => (space e.address).map fun byte => (e.address, ".byte " ++ byteText byte)

variable {settings : Settings} {space : AddressSpace} {k k' : Knowledge} {a stop : Address}

/-- A step fails where the address does not decode, and nothing is learned. -/
theorem take_of_decode_error {e : DecodeError} (h : Machine.c55x.decode space k a = .error e) :
    take settings space k a = (.error e, k) := by
  rw [take, Machine.decodeAndRecord_of_error h]

/-- A series goes on behind a step that leads to a higher address. -/
theorem series_of_lt {outcome : Except DecodeError Step} (hbefore : a < stop)
    (htake : take settings space k a = (outcome, k')) (hnext : a < next a outcome) :
    series settings space k a stop =
      ⟨a, outcome, k'⟩ :: series settings space k' (next a outcome) stop := by
  rw [series, if_pos hbefore, htake]
  exact if_pos hnext

end Step

/-- A scan that comes to its end has the pieces that a series of steps shows. -/
theorem Scan.Runs.mapM_shown? {settings : Settings} {space : AddressSpace} {stop : Address}
    {k : Knowledge} {a : Address} {scan : Scan} (h : Runs settings space stop k a scan)
    (hspace : space.EndsBelowTop) (hending : scan.ending = .reached) :
    (Step.series settings space k a stop).mapM (Step.Entry.shown? space) =
      some (scan.pieces.map fun p => (p.address, p.text)) := by
  induction h with
  | reached past =>
    rw [Step.series, if_neg (UInt32.not_lt.mpr past)]
    rfl
  | unmapped => cases hending
  | @code k k' a step scan before taken rest ih =>
    have hplaced := Step.placed_of_take hspace taken
    rw [Step.series_of_lt before taken hplaced.lt_limit, List.mapM_cons, Step.next, ih hending,
      prepend, List.map_cons, Piece.address, hplaced.address]
    rfl
  | @data k a e byte scan before failed held rest ih =>
    have hnext : a < a + 1 := by
      rw [UInt32.lt_iff_toNat_lt, (hspace.toNat_succ (AddressSpace.isMapped_of_eq_some held)).1]
      exact Nat.lt_succ_self _
    rw [Step.series_of_lt before (Step.take_of_decode_error failed) hnext, List.mapM_cons,
      Step.next, ih hending, Step.Entry.shown?]
    simp only [held]
    rfl

/-- For a file that ends below the top of the address space, and with all settings, the listing of
the survey and the listing of the image have the same entries, with or without columns of bytes.
They are what a series of steps shows, and the command prints the first without a failure. -/
theorem Command.survey_lists_as_range (settings : Settings) (file : Array UInt8) (base : Address)
    (hfits : base.toNat + file.size < UInt32.size) (showBytes : Bool) :
    ∃ text,
      Listing.render settings (Image.ofBytes base file).space base (base + UInt32.ofNat file.size)
        showBytes = .ok text ∧
      Listing.Layout.survey.entries (Survey.of settings ⟨base, file⟩).listing =
        (Listing.Layout.range showBytes).entries text ∧
      (Step.series settings (Region.space ⟨base, file⟩) settings.knowledge base
        (base + UInt32.ofNat file.size)).mapM (Step.Entry.shown? (Region.space ⟨base, file⟩)) =
          some ((Listing.Layout.range showBytes).entries text) ∧
      ∀ settings?, readSettings settings? = .ok settings →
        survey file base settings? true =
          ((Survey.of settings ⟨base, file⟩).listing ++
            (Survey.of settings ⟨base, file⟩).summary, .ok ()) := by
  have hspace : (Region.space ⟨base, file⟩).EndsBelowTop := Region.endsBelowTop_space hfits
  have himage : (Image.ofBytes base file).space = Region.space ⟨base, file⟩ :=
    (Image.space_eq_holding (.raw "segment0" base file) hfits).trans
      (Region.space_eq_holding ⟨base, file⟩ (Nat.le_of_lt hfits)).symm
  have hending : (Region.scan ⟨base, file⟩ settings).ending = .reached :=
    (Survey.scan_ends_behind_last settings hfits).1
  have hfailure : (Survey.of settings ⟨base, file⟩).failure? = none :=
    Survey.failure?_of settings hfits
  have hlisting : (Survey.of settings ⟨base, file⟩).listing =
      String.join ((Region.scan ⟨base, file⟩ settings).pieces.map Survey.pieceLine) := by
    rw [Survey.of_eq_addScan settings hspace]
    exact (Survey.listing_foldl _ _ _).trans String.empty_append
  rw [himage]
  refine ⟨_, Listing.render_of_reached hending, ?_, ?_, fun settings? hread => ?_⟩
  · rw [hlisting, Listing.Layout.entries_join Listing.Layout.shows_surveyLine,
      Listing.Layout.entries_join (Listing.Layout.shows_rangeLine _ showBytes)]
    rfl
  · rw [Listing.Layout.entries_join (Listing.Layout.shows_rangeLine _ showBytes)]
    exact (Scan.runs_of hspace settings _ _).mapM_shown? hspace hending
  · unfold survey
    simp only [hread, hfailure]
    rfl

/-- A packed pair of six bytes and a byte that starts no instruction, right below the top of the
address space. -/
theorem Command.survey_lists_as_range_pairAndByte :
    let file : Array UInt8 := #[0x8F, 0x06, 0x00, 0xC0, 0x21, 0x00, 0xFF]
    (0xFFFFFFF8 : Address).toNat + file.size < UInt32.size ∧
      ∃ text,
        Listing.render {} (Image.ofBytes 0xFFFFFFF8 file).space 0xFFFFFFF8 0xFFFFFFFF true =
          .ok text ∧
        Listing.Layout.survey.entries (Survey.of {} ⟨0xFFFFFFF8, file⟩).listing =
          (Listing.Layout.range true).entries text ∧
        (Step.series {} (Region.space ⟨0xFFFFFFF8, file⟩) (Settings.knowledge {}) 0xFFFFFFF8
          0xFFFFFFFF).mapM (Step.Entry.shown? (Region.space ⟨0xFFFFFFF8, file⟩)) =
            some ((Listing.Layout.range true).entries text) ∧
        (survey file 0xFFFFFFF8 none true).2 = .ok () := by
  intro file
  have hfits : (0xFFFFFFF8 : Address).toNat + file.size < UInt32.size := by decide
  obtain ⟨text, hrender, hsame, hsteps, hprints⟩ :=
    survey_lists_as_range {} file 0xFFFFFFF8 hfits true
  exact ⟨hfits, text, hrender, hsame, hsteps, by rw [hprints none rfl]⟩

end DspCode
