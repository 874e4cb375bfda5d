import DspCode.Command
import DspCode.Proofs.Adjacency
import DspCode.Proofs.Surveying

/-!
# The counts of a survey

A survey of a file that ends below the top of the address space stops right behind its last byte.
Every byte is counted once, as part of one instruction or as data, and there are as many first
halves of packed pairs as second halves. The counts and marks are kept round by round; over the
pieces of the scan that goes the same way they add up.
-/

namespace DspCode

/-- How many bytes a list of instructions takes. -/
def Instruction.totalLength : List Instruction → Nat
  | [] => 0
  | insn :: rest => insn.length + totalLength rest

namespace Piece

/-- The instruction of a piece. -/
def insn? : Piece → Option Instruction
  | .code insn _ => some insn
  | .data _ _ => none

@[simp] theorem filterMap_insn?_code (insn : Instruction) (text : String) (rest : List Piece) :
    (code insn text :: rest).filterMap insn? = insn :: rest.filterMap insn? := rfl

@[simp] theorem filterMap_insn?_data (a : Address) (byte : UInt8) (rest : List Piece) :
    (data a byte :: rest).filterMap insn? = rest.filterMap insn? := rfl

/-- Whether a piece is a data byte. -/
def isData : Piece → Bool
  | .code _ _ => false
  | .data _ _ => true

/-- Each byte of a list of pieces belongs to an instruction or is data. -/
theorem totalLength_eq (pieces : List Piece) :
    totalLength pieces =
      Instruction.totalLength (pieces.filterMap insn?) + pieces.countP isData := by
  induction pieces with
  | nil => rfl
  | cons p rest ih =>
    cases p with
    | code insn text =>
      rw [totalLength, ih, filterMap_insn?_code, List.countP_cons_of_neg (by simp [isData])]
      exact (Nat.add_assoc _ _ _).symm
    | data a byte =>
      rw [totalLength, ih, filterMap_insn?_data, List.countP_cons_of_pos rfl]
      simp only [length]
      omega

end Piece

/-- Where all mapped addresses lie below a bound, pieces do not go past it. -/
theorem Scan.Tiles.toNat_stop_le {space : AddressSpace} {a stop : Address} {pieces : List Piece}
    (h : Tiles space a pieces stop) {bound : Nat} (ha : a.toNat ≤ bound)
    (hmapped : ∀ b, space.isMapped b = true → b.toNat < bound) : stop.toNat ≤ bound := by
  induction h with
  | nil => exact ha
  | @cons p rest stop pos mapped below next ih =>
    refine ih ?_
    have hlast := hmapped _ (mapped (p.length - 1) (by omega))
    rw [Address.toNat_add_ofNat (by omega)] at hlast
    rw [Address.toNat_add_ofNat below]
    omega

namespace Survey

/-- Whether an instruction is the second half of a packed pair. -/
def isTail (insn : Instruction) : Bool :=
  match insn.half? with
  | some (.tail _) => true
  | _ => false

section Cover

variable {marks : Array Bool} {offset count : Nat}

@[simp] theorem size_cover (marks : Array Bool) (offset count : Nat) :
    (cover marks offset count).size = marks.size := by
  unfold cover
  induction count generalizing offset marks with
  | zero => rfl
  | succ count ih =>
    rw [List.range'_succ, List.foldl_cons, ih, Array.size_setIfInBounds]

/-- Marking keeps the places past the marked ones. -/
theorem getElem?_cover {i : Nat} (hi : offset + count ≤ i) :
    (cover marks offset count)[i]? = marks[i]? := by
  unfold cover
  induction count generalizing offset marks with
  | zero => rfl
  | succ count ih =>
    rw [List.range'_succ, List.foldl_cons, ih (by omega),
      Array.getElem?_setIfInBounds_ne (by omega)]

/-- Marking a place that is free adds one mark. -/
theorem count_setIfInBounds {i : Nat} (hi : marks[i]? = some false) :
    (marks.setIfInBounds i true).count true = marks.count true + 1 := by
  obtain ⟨hlt, hfree⟩ := Array.getElem?_eq_some_iff.mp hi
  rw [Array.setIfInBounds_def, dif_pos hlt, Array.count_set, hfree]
  simp

/-- Marking places that are free adds as many marks. -/
theorem count_cover (hfree : ∀ i, offset ≤ i → i < offset + count → marks[i]? = some false) :
    (cover marks offset count).count true = marks.count true + count := by
  unfold cover
  induction count generalizing offset marks with
  | zero => rfl
  | succ count ih =>
    rw [List.range'_succ, List.foldl_cons, ih, count_setIfInBounds]
    · omega
    · exact hfree offset (Nat.le_refl _) (by omega)
    · intro i hlo hhi
      rw [Array.getElem?_setIfInBounds_ne (by omega)]
      exact hfree i (by omega) (by omega)

/-- Pieces end to end mark each byte of an instruction once. -/
theorem coveredCount_foldl {space : AddressSpace} {base a stop : Address} {pieces : List Piece}
    {s : Survey} (h : Scan.Tiles space a pieces stop) (hbase : base.toNat ≤ a.toNat)
    (hstop : stop.toNat ≤ base.toNat + s.covered.size)
    (hfree : ∀ i, a.toNat - base.toNat ≤ i → i < s.covered.size → s.covered[i]? = some false) :
    (pieces.foldl (addPiece base) s).coveredCount =
      s.coveredCount + Instruction.totalLength (pieces.filterMap Piece.insn?) := by
  induction h generalizing s with
  | nil => rfl
  | @cons p rest stop pos mapped below next ih =>
    have hnext := Address.toNat_add_ofNat below
    have hreach := next.toNat_stop
    cases p with
    | code insn text =>
      simp only [Piece.address, Piece.length] at *
      have hoffset : (insn.address - base).toNat = insn.address.toNat - base.toNat :=
        UInt32.toNat_sub_of_le _ _ (UInt32.le_iff_toNat_le.mpr hbase)
      -- the instruction ends in the file, so that all its bytes are marked
      have hmarks : (s.addCode base insn.address insn text).covered =
          cover s.covered (insn.address.toNat - base.toNat) insn.length := by
        simp only [addCode, hoffset]
        rw [Nat.min_eq_left (by omega)]
      have hcount : (s.addCode base insn.address insn text).coveredCount =
          s.coveredCount + insn.length := by
        rw [coveredCount, hmarks]
        exact count_cover fun i hlo hhi => hfree i hlo (by omega)
      rw [List.foldl_cons, addPiece, ih (by omega), hcount, Piece.filterMap_insn?_code,
        Instruction.totalLength, Nat.add_assoc]
      · rwa [hmarks, size_cover]
      · intro i hlo hhi
        rw [hmarks, size_cover] at hhi
        rw [hmarks, getElem?_cover (by omega)]
        exact hfree i (by omega) hhi
    | data a byte =>
      simp only [Piece.address, Piece.length] at *
      rw [List.foldl_cons, addPiece, Piece.filterMap_insn?_data]
      exact ih (by omega) hstop fun i hlo hhi => hfree i (by omega) hhi

end Cover

section Tally

variable (base : Address) (pieces : List Piece) (s : Survey)

/-- Pieces add their instructions in order. -/
theorem instructions_foldl :
    (pieces.foldl (addPiece base) s).instructions =
      s.instructions ++ pieces.filterMap Piece.insn? := by
  induction pieces generalizing s with
  | nil => simp
  | cons p rest ih =>
    rw [List.foldl_cons, ih]
    cases p <;> simp [addPiece, addCode, addData, instructions]

/-- Pieces add a pair for each first half among them. -/
theorem pairCount_foldl :
    (pieces.foldl (addPiece base) s).pairCount =
      s.pairCount + (pieces.filterMap Piece.insn?).countP isHead := by
  induction pieces generalizing s with
  | nil => rfl
  | cons p rest ih =>
    rw [List.foldl_cons, ih]
    cases p with
    | code insn text =>
      cases hhead : isHead insn <;> simp [addPiece, addCode, hhead]
      omega
    | data a byte => rfl

/-- Pieces add a data byte for each of them that is one. -/
theorem dataCount_foldl :
    (pieces.foldl (addPiece base) s).dataCount = s.dataCount + pieces.countP Piece.isData := by
  induction pieces generalizing s with
  | nil => rfl
  | cons p rest ih =>
    rw [List.foldl_cons, ih]
    cases p with
    | code insn text => simp [addPiece, addCode, Piece.isData]
    | data a byte =>
      simp only [addPiece, addData, List.countP_cons, Piece.isData, if_true]
      omega

/-- A piece is no reason to give up. -/
theorem failure?_foldl : (pieces.foldl (addPiece base) s).failure? = s.failure? := by
  induction pieces generalizing s with
  | nil => rfl
  | cons p rest ih =>
    rw [List.foldl_cons, ih]
    cases p <;> rfl

end Tally

/-- Where the halves of pairs stand side by side and none is cut off, there are as many first halves
as second halves. -/
theorem countP_isHead_eq {space : AddressSpace} {stop : Address} {pieces : List Piece}
    (h : Scan.Coupled space stop pieces) (hbelow : ∀ t, space.isMapped t = true → t < stop) :
    (pieces.filterMap Piece.insn?).countP isHead =
      (pieces.filterMap Piece.insn?).countP isTail := by
  induction h with
  | nil => rfl
  | @single p rest half next ih =>
    cases p with
    | code insn text =>
      have hhead : isHead insn = false := by rw [isHead, show insn.half? = none from half]
      have htail : isTail insn = false := by rw [isTail, show insn.half? = none from half]
      rw [Piece.filterMap_insn?_code, List.countP_cons_of_neg (by simp [hhead]),
        List.countP_cons_of_neg (by simp [htail]), ih]
    | data a byte => rwa [Piece.filterMap_insn?_data]
  | @pair first second rest head tail next ih =>
    cases first with
    | data a byte => cases head
    | code headInsn headText =>
      cases second with
      | data a byte => cases tail
      | code tailInsn tailText =>
        simp [isHead, isTail, show headInsn.half? = _ from head,
          show tailInsn.half? = _ from tail, ih]
  | cut _ mapped past => exact absurd (hbelow _ mapped) (UInt32.not_lt.mpr past)

/-- The counts of a survey of a region add up. -/
structure Balanced (s : Survey) (region : Region) : Prop where
  /-- The survey is not given up. -/
  ending : s.failure? = none
  /-- It ends right behind the last byte. -/
  stop : s.stop.toNat = region.base.toNat + region.bytes.size
  /-- Every byte is code or data. -/
  bytes : s.coveredCount + s.dataCount = region.bytes.size
  /-- The code bytes are those of the instructions. -/
  code : s.coveredCount = Instruction.totalLength s.instructions
  /-- The pairs are also counted by their second halves. -/
  pairs : s.pairCount = s.instructions.countP isTail

variable {region : Region}

/-- A scan of a region comes to its end, right behind the last byte: it passes no byte that is not
there, and there is a byte at each address before the end. -/
theorem scan_ends_behind_last (settings : Settings)
    (hfits : region.base.toNat + region.bytes.size < UInt32.size) :
    (region.scan settings).ending = .reached ∧
      (region.scan settings).stop.toNat = region.base.toNat + region.bytes.size := by
  have hend : region.limit.toNat = region.base.toNat + region.bytes.size :=
    Address.toNat_add_ofNat hfits
  have hspace := region.endsBelowTop_space hfits
  have hruns := Scan.runs_of hspace settings region.base region.limit
  have htiles := hruns.tiles hspace
  have hlast := htiles.toNat_stop_le (Nat.le_add_right _ _) fun t ht =>
    (Region.isMapped_space_iff.mp ht).2
  obtain ⟨hending, hpast⟩ | ⟨-, hbefore, hfree⟩ := hruns.ending_cases
  · rw [UInt32.le_iff_toNat_le, hend] at hpast
    exact ⟨hending, Nat.le_antisymm hlast hpast⟩
  · rw [UInt32.lt_iff_toNat_lt, hend] at hbefore
    have hmapped := Region.isMapped_space_iff.mpr ⟨by rw [htiles.toNat_stop]; omega, hbefore⟩
    rw [AddressSpace.isMapped, hfree] at hmapped
    cases hmapped

/-- A survey of a file below the top of the address space is not given up. -/
theorem failure?_of (settings : Settings)
    (hfits : region.base.toNat + region.bytes.size < UInt32.size) :
    (Survey.of settings region).failure? = none := by
  rw [of_eq_addScan settings (region.endsBelowTop_space hfits)]
  exact failure?_foldl _ _ _

/-- Before it begins, a survey has marked nothing. -/
theorem getElem?_covered_start {size i : Nat} {a : Address}
    (hi : i < (start size a).covered.size) : (start size a).covered[i]? = some false := by
  rw [start, Array.size_replicate] at hi
  rw [start, Array.getElem?_replicate, if_pos hi]

/-- The marks of a survey are on the bytes of its instructions. -/
theorem coveredCount_of (settings : Settings)
    (hfits : region.base.toNat + region.bytes.size < UInt32.size) :
    (Survey.of settings region).coveredCount =
      Instruction.totalLength ((region.scan settings).pieces.filterMap Piece.insn?) := by
  have hspace := region.endsBelowTop_space hfits
  have hstop : (region.scan settings).stop.toNat ≤
      region.base.toNat + (start region.bytes.size region.base).covered.size := by
    rw [start, Array.size_replicate]
    exact Nat.le_of_eq (scan_ends_behind_last settings hfits).2
  have hstart : (start region.bytes.size region.base).coveredCount = 0 := by
    rw [start, coveredCount, Array.count_replicate, if_neg (by decide)]
  have hcount := coveredCount_foldl ((Scan.runs_of hspace settings _ _).tiles hspace)
    (Nat.le_refl _) hstop fun i _ hi => getElem?_covered_start hi
  rw [hstart, Nat.zero_add] at hcount
  rw [of_eq_addScan settings hspace]
  exact hcount

/-- The counts of a survey add up. -/
theorem balanced_of (settings : Settings)
    (hfits : region.base.toNat + region.bytes.size < UInt32.size) :
    (Survey.of settings region).Balanced region := by
  have hspace := region.endsBelowTop_space hfits
  have hof := of_eq_addScan settings hspace
  have hcovered := coveredCount_of settings hfits
  obtain ⟨-, hstop⟩ := scan_ends_behind_last settings hfits
  have hlength : (region.scan settings).stop.toNat =
      region.base.toNat + Piece.totalLength (region.scan settings).pieces :=
    ((Scan.runs_of hspace settings _ _).tiles hspace).toNat_stop
  have hinsns : (Survey.of settings region).instructions =
      (region.scan settings).pieces.filterMap Piece.insn? := by
    rw [hof]
    exact (instructions_foldl _ _ _).trans (List.nil_append _)
  have hdata : (Survey.of settings region).dataCount =
      (region.scan settings).pieces.countP Piece.isData := by
    rw [hof]
    exact (dataCount_foldl _ _ _).trans (Nat.zero_add _)
  have hpairs : (Survey.of settings region).pairCount =
      ((region.scan settings).pieces.filterMap Piece.insn?).countP isHead := by
    rw [hof]
    exact (pairCount_foldl _ _ _).trans (Nat.zero_add _)
  refine ⟨failure?_of settings hfits, by rw [hof]; exact hstop, ?_, by rw [hcovered, hinsns], ?_⟩
  · rw [hcovered, hdata, ← Piece.totalLength_eq]
    omega
  · rw [hpairs, hinsns]
    refine countP_isHead_eq (Scan.coupled_of hspace settings _ _) fun t ht => ?_
    rw [UInt32.lt_iff_toNat_lt, Region.limit, Address.toNat_add_ofNat hfits]
    exact (Region.isMapped_space_iff.mp ht).2

end Survey

/-- For a file that ends below the top of the address space, and with all settings, the counts of
the survey add up, and the command prints them without a failure. -/
theorem Command.survey_adds_up (settings : Settings) (file : Array UInt8) (base : Address)
    (hfits : base.toNat + file.size < UInt32.size) :
    (Survey.of settings ⟨base, file⟩).Balanced ⟨base, file⟩ ∧
      ∀ settings? withListing, readSettings settings? = .ok settings →
        survey file base settings? withListing =
          ((if withListing then (Survey.of settings ⟨base, file⟩).listing else "") ++
            (Survey.of settings ⟨base, file⟩).summary, .ok ()) := by
  have hbalanced : (Survey.of settings ⟨base, file⟩).Balanced ⟨base, file⟩ :=
    Survey.balanced_of settings hfits
  refine ⟨hbalanced, fun settings? withListing hread => ?_⟩
  unfold survey
  simp only [hread, hbalanced.ending]

/-- A packed pair of six bytes, right below the top of the address space. -/
theorem Command.survey_adds_up_sixBytePair :
    (Survey.of {} ⟨0xFFFFFFF9, #[0x8F, 0x06, 0x00, 0xC0, 0x21, 0x00]⟩).Balanced
        ⟨0xFFFFFFF9, #[0x8F, 0x06, 0x00, 0xC0, 0x21, 0x00]⟩ ∧
      (survey #[0x8F, 0x06, 0x00, 0xC0, 0x21, 0x00] 0xFFFFFFF9 none false).2 = .ok () := by
  have hcounts := survey_adds_up {} #[0x8F, 0x06, 0x00, 0xC0, 0x21, 0x00] 0xFFFFFFF9 (by decide)
  exact ⟨hcounts.1, by rw [hcounts.2 none false rfl]⟩

end DspCode
