import DspCode.Proofs.Scanning
import DspCode.Survey

/-!
# Surveys beside scans

A survey and a scan are loops of their own. A survey keeps counts and marks as it goes, prints each
line at once, and takes a data byte from the file by its index; a scan asks the address space, and
stops where there is no byte. Main statement: over the bytes of a region that ends below the top of
the address space, a survey comes through the same addresses with the same knowledge as a scan, and
what it keeps is what the pieces of the scan add up to.
-/

namespace DspCode

namespace Region

variable {r : Region}

/-- The scan of all bytes of a region. -/
abbrev scan (r : Region) (settings : Settings) : Scan :=
  Scan.of settings r.space r.base r.limit

/-- The address space of a region shows its bytes by their index. -/
theorem space_eq_getElem {a : Address} (hbase : r.base ≤ a)
    (hindex : (a - r.base).toNat < r.bytes.size) :
    r.space a = some r.bytes[(a - r.base).toNat] := by
  rw [space, index?, if_pos ⟨hbase, hindex⟩, Option.bind_some, Array.getElem?_eq_getElem hindex]

/-- The mapped addresses of a region are those of its bytes. -/
theorem isMapped_space_iff {a : Address} :
    r.space.isMapped a = true ↔
      r.base.toNat ≤ a.toNat ∧ a.toNat < r.base.toNat + r.bytes.size := by
  rw [AddressSpace.isMapped]
  by_cases hin : r.base ≤ a ∧ (a - r.base).toNat < r.bytes.size
  · obtain ⟨hbase, hindex⟩ := hin
    have hdiff := UInt32.toNat_sub_of_le a r.base hbase
    rw [space_eq_getElem hbase hindex]
    rw [UInt32.le_iff_toNat_le] at hbase
    exact iff_of_true rfl ⟨hbase, by omega⟩
  · refine iff_of_false (by simp [space, index?, hin]) ?_
    rintro ⟨hlo, hhi⟩
    have hbase := UInt32.le_iff_toNat_le.mpr hlo
    have hdiff := UInt32.toNat_sub_of_le a r.base hbase
    exact hin ⟨hbase, by omega⟩

/-- A region that does not reach the top is an address space that ends below it. -/
theorem endsBelowTop_space (h : r.base.toNat + r.bytes.size < UInt32.size) :
    r.space.EndsBelowTop := by
  cases htop : r.space 0xFFFFFFFF with
  | none => exact htop
  | some b =>
    have hmapped := isMapped_space_iff.mp (AddressSpace.isMapped_of_eq_some htop)
    have hsize : UInt32.size = 4294967296 := rfl
    have hvalue : (0xFFFFFFFF : Address).toNat = 4294967295 := rfl
    omega

end Region

/-- A step decodes and records, prints with the context before the effects, and applies these. -/
theorem Step.exists_of_take {settings : Settings} {space : AddressSpace} {k k' : Knowledge}
    {a : Address} {step : Step} (h : take settings space k a = (.ok step, k')) :
    ∃ known, Machine.c55x.decodeAndRecord space k a = (.ok step.insn, known) ∧
      step.text = Printer.render { settings, context := known.context } step.insn ∧
      k' = { known with
        context := (Effects.of step.insn (usageOf Form.mnemonics step.insn.kind)
          known.context).apply known.context } := by
  unfold take at h
  split at h
  next => cases h
  next insn known hd =>
    cases h
    exact ⟨known, hd, rfl, rfl⟩

namespace Survey

/-- The survey after a piece. -/
def addPiece (base : Address) (s : Survey) : Piece → Survey
  | .code insn text => s.addCode base insn.address insn text
  | .data a byte => s.addData a byte

/-- The survey after the pieces of a scan, come to where the scan stops. -/
def addScan (base : Address) (s : Survey) (scan : Scan) : Survey :=
  { scan.pieces.foldl (addPiece base) s with stop := scan.stop }

/-! ## Rounds -/

section Rounds

variable {settings : Settings} {region : Region} {k k' : Knowledge} {a : Address} {s : Survey}

/-- A survey that is past the region stops there. -/
theorem extend_of_le (hbase : region.base ≤ a) (hpast : region.limit ≤ a) :
    extend settings region k a hbase s = { s with stop := a } := by
  rw [extend, dif_neg (UInt32.not_lt.mpr hpast)]

/-- Where a step succeeds, a survey takes up the same instruction with the same text and goes on
behind it with the same knowledge. -/
theorem extend_of_take {step : Step} (hbase : region.base ≤ a) (hbefore : a < region.limit)
    (htake : Step.take settings region.space k a = (.ok step, k')) (hnext : a < step.insn.limit) :
    extend settings region k a hbase s =
      extend settings region k' step.insn.limit
        (UInt32.le_trans hbase (UInt32.le_of_lt hnext))
        (s.addCode region.base a step.insn step.text) := by
  obtain ⟨known, hrecord, htext, rfl⟩ := Step.exists_of_take htake
  rw [extend, dif_pos hbefore, hrecord, htext]
  exact dif_pos hnext

/-- Where decoding fails, a survey takes up the byte of the file that the address space shows. -/
theorem extend_of_error {e : DecodeError} {byte : UInt8} (hbase : region.base ≤ a)
    (hbefore : a < region.limit) (hfailed : Machine.c55x.decode region.space k a = .error e)
    (hheld : region.space a = some byte) (hnext : a < a + 1) :
    extend settings region k a hbase s =
      extend settings region k (a + 1) (UInt32.le_trans hbase (UInt32.le_of_lt hnext))
        (s.addData a byte) := by
  have hindex := region.toNat_sub_base_lt hbase hbefore
  have hbyte : region.bytes[(a - region.base).toNat] = byte :=
    Option.some.inj ((Region.space_eq_getElem hbase hindex).symm.trans hheld)
  rw [extend, dif_pos hbefore, Machine.decodeAndRecord_of_error hfailed]
  simp only [Machine.isRecoverable_of_decode hfailed, if_true, dif_pos hnext, hbyte]

end Rounds

/-- A survey goes the way of a scan. The scan stops early where there is no byte, but before the end
of a region there is one. -/
theorem extend_eq_addScan {settings : Settings} {region : Region} {k : Knowledge} {a : Address}
    {scan : Scan} (h : Scan.Runs settings region.space region.limit k a scan)
    (hspace : region.space.EndsBelowTop) (hbase : region.base ≤ a) (s : Survey) :
    extend settings region k a hbase s = s.addScan region.base scan := by
  induction h generalizing s with
  | reached past => exact extend_of_le hbase past
  | unmapped before failed free =>
    have hindex := region.toNat_sub_base_lt hbase before
    rw [Region.space_eq_getElem hbase hindex] at free
    cases free
  | @code k k' a step scan before taken rest ih =>
    have hplaced := Step.placed_of_take hspace taken
    rw [extend_of_take hbase before taken hplaced.lt_limit, ih]
    simp only [addScan, Scan.prepend, List.foldl_cons, addPiece, hplaced.address]
  | @data k a e byte scan before failed held rest ih =>
    have hnext : a < a + 1 := by
      rw [UInt32.lt_iff_toNat_lt, (hspace.toNat_succ (AddressSpace.isMapped_of_eq_some held)).1]
      exact Nat.lt_succ_self _
    rw [extend_of_error hbase before failed held hnext, ih]
    rfl

/-- A survey of a region keeps what the pieces of a scan of its bytes add up to. -/
theorem of_eq_addScan (settings : Settings) {region : Region}
    (hspace : region.space.EndsBelowTop) :
    Survey.of settings region =
      (start region.bytes.size region.base).addScan region.base (region.scan settings) :=
  extend_eq_addScan (Scan.runs_of hspace settings region.base region.limit) hspace
    (UInt32.le_refl _) _

end Survey

end DspCode
