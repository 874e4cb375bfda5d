import DspCode.Flow.Report
import DspCode.Proofs.PairRecords
import DspCode.Proofs.Stages

/-!
# Visited instructions read again

A report decodes every visited instruction again, with what is known at the end of the walk. How
many bytes an address decodes to depends on the memory and on the record of this address alone. So a
report shows the instructions that were visited exactly if no later record, and no later clearing of
one, changes the length of an instruction that has been visited.
-/

namespace DspCode

namespace Machine

/-! ## Decoding with the same record -/

section Anew

variable {space : AddressSpace} {context context' : Context} {next next' : NextAddress}
  {a : Address}

/-- Bytes that match an encoding do so in every context and wherever code targets count from, and
the finished instructions are equally long. -/
theorem Matched.anew {w : ByteWindow} {row : Encoding} {word : Nat} {insn : Instruction}
    (h : Matched context next w row word insn) (context' : Context) (next' : NextAddress) :
    ∃ row' word' insn', Matched context' next' w row' word' insn' ∧
      ∀ space first,
        (finished space first insn').length = (finished space first insn).length := by
  have hsame := matchWindow_context context context' next w
  rw [h.matchWindow] at hsame
  generalize hmatch : c55x.matchWindow context' next w = outcome at hsame
  cases hsame with
  | ok hrel =>
    cases hrel with
    | some hagree =>
      obtain ⟨row', word', hm⟩ := exists_matched hmatch
      refine ⟨row', word', _, hm.retarget next', fun space first => ?_⟩
      rw [finished_retarget, Instruction.length_retarget]
      exact (finished_alike space first hagree).length

/-- A second half has the same length in every context and wherever targets count from. -/
theorem SecondHalf.renew {n : Nat} {pair : PackedPair} {insn : Instruction}
    (h : SecondHalf space context next a n pair insn) (context' : Context) (next' : NextAddress) :
    ∃ insn', SecondHalf space context' next' a n pair insn' ∧ insn'.length = insn.length := by
  obtain ⟨insn₁, h₁, -⟩ := h.inContext context'
  obtain ⟨insn', hmatched⟩ := exists_rematch h₁.matched next'
  refine ⟨insn', ⟨h.unpacked, h.length, hmatched⟩, ?_⟩
  rw [(exists_matched_of_exactly hmatched).2.1, (exists_matched_of_exactly h.matched).2.1]

/-- Whatever else is known, an address with the same record decodes to as many bytes. -/
theorem Decodes.anew {k k' : Knowledge} {d : Decoded} (h : Decodes space k next a d)
    (hrecord : k'.pairs.headLength? a = k.pairs.headLength? a) (next' : NextAddress) :
    ∃ d', Decodes space k' next' a d' ∧ d'.insn.length = d.insn.length := by
  cases h with
  | plain unknown byte matched =>
    obtain ⟨_, _, insn', hm, hlength⟩ := matched.anew k'.context next'
    exact ⟨_, .plain (hrecord.trans unknown) byte hm, hlength space _⟩
  | @head _ pair head _ unknown byte marked unmatched halves =>
    obtain ⟨head', _, hh, -⟩ := halves.renew k'.context next'
    have hno : ¬∃ insn, c55x.matchWindow k'.context next' (.new space a) = .ok (some insn) := by
      rintro ⟨insn, hmatch⟩
      obtain ⟨_, _, hm⟩ := exists_matched hmatch
      obtain ⟨_, _, insn', hm', -⟩ := hm.anew k.context next
      exact unmatched ⟨insn', hm'.matchWindow⟩
    have hlength : head'.length = head.length := by
      rw [(exists_matched_of_exactly hh.matchedHead).2.1,
        (exists_matched_of_exactly halves.matchedHead).2.1]
    exact ⟨_, .head (hrecord.trans unknown) byte marked hno hh,
      (length_asHead head').trans (hlength.trans (length_asHead head).symm)⟩
  | @tail n _ insn known half =>
    obtain ⟨insn', hs, hlength⟩ := half.renew k'.context next'
    exact ⟨_, .tail (hrecord.trans known) hs,
      (length_asTail (a - UInt32.ofNat n) insn').trans
        (hlength.trans (length_asTail (a - UInt32.ofNat n) insn).symm)⟩

end Anew

/-- The length of the instruction at an address, if there is one. -/
def lengthAt? (space : AddressSpace) (k : Knowledge) (a : Address) : Option Nat :=
  (c55x.decode space k a).toOption.map (·.insn.length)

/-- A length is found exactly where an instruction of that length decodes. -/
theorem lengthAt?_eq_some_iff {space : AddressSpace} {k : Knowledge} {a : Address} {n : Nat} :
    lengthAt? space k a = some n ↔ ∃ d, c55x.decode space k a = .ok d ∧ d.insn.length = n := by
  constructor
  · exact exists_ok_of_toOption
  · rintro ⟨d, hd, rfl⟩
    rw [lengthAt?, hd]
    rfl

/-- The length of an instruction depends on the memory and on the record of its address. -/
theorem lengthAt?_congr {space : AddressSpace} {k k' : Knowledge} {a : Address}
    (h : k'.pairs.headLength? a = k.pairs.headLength? a) :
    lengthAt? space k' a = lengthAt? space k a := by
  have himp : ∀ {k k' : Knowledge}, k'.pairs.headLength? a = k.pairs.headLength? a →
      ∀ n, lengthAt? space k a = some n → lengthAt? space k' a = some n := by
    intro k k' h n hn
    obtain ⟨d, hd, rfl⟩ := lengthAt?_eq_some_iff.mp hn
    obtain ⟨d', hd', hlength⟩ :=
      (decode_eq_ok_iff.mp hd).anew h (c55x.nextAddress space k')
    exact lengthAt?_eq_some_iff.mpr ⟨d', decode_eq_ok_iff.mpr hd', hlength⟩
  exact Option.ext fun n => ⟨himp h.symm n, himp h n⟩

end Machine

/-- What is known where nothing but the record of one address is. -/
def Knowledge.ofRecord (a : Address) : Option Nat → Knowledge
  | none => {}
  | some n => { pairs := PairLedger.empty.record a n }

private theorem Knowledge.headLength?_ofRecord (a : Address) (record? : Option Nat) :
    (ofRecord a record?).pairs.headLength? a = record? := by
  cases record? with
  | none => exact PairLedger.headLength?_empty a
  | some n => exact (PairLedger.headLength?_record _ a a n).trans (if_pos rfl)

namespace Walk

/-! ## Widths along the stages -/

section Stages

variable {settings : Settings} {space : AddressSpace} {entries : List Address} {limit : Nat}
  {a b : Address}

/-- An address is visited with the step from one stage to the next. -/
structure VisitedAt (settings : Settings) (space : AddressSpace) (entries : List Address)
    (limit m : Nat) (a : Address) : Prop where
  before : (stage settings space entries limit m).1.isVisited a = false
  after : (stage settings space entries limit (m + 1)).1.isVisited a = true

/-- A step keeps the widths of what was visited before. -/
theorem Advances.widths {w : Walk} {rest : List Address} {q : Walk × List Address} {n : Nat}
    (h : Advances space limit w a rest q) (hn : w.widths[b]? = some n) :
    q.1.widths[b]? = some n := by
  cases h with
  | full => exact hn
  | again => exact hn
  | failed => exact hn
  | met _ new =>
    rw [widths_meet, if_neg]
    · exact hn
    · rintro rfl
      cases new.symm.trans (isVisited_iff.mpr ⟨n, hn⟩)

/-- A length that is noted stays. -/
theorem widths_stage_of_le {m l n : Nat} (hle : m ≤ l)
    (hn : (stage settings space entries limit m).1.widths[a]? = some n) :
    (stage settings space entries limit l).1.widths[a]? = some n := by
  induction hle with
  | refl => exact hn
  | @step l _ ih =>
    obtain ⟨w, hl, hnext⟩ | ⟨w, b, rest, hl, hstep⟩ :=
      stage_cases settings space entries limit l
    · rw [hl] at ih
      rw [hnext]
      exact ih
    · rw [hl] at ih
      exact hstep.widths ih

/-- What a visit notes is the length of what it decodes. -/
theorem VisitedAt.widths {m : Nat} (h : VisitedAt settings space entries limit m a) :
    ∃ n, (stage settings space entries limit (m + 1)).1.widths[a]? = some n ∧
      Machine.lengthAt? space (stage settings space entries limit m).1.known a = some n := by
  have hbefore := h.before
  have hafter := h.after
  obtain ⟨w, hm, hnext⟩ | ⟨w, b, rest, hm, hstep⟩ :=
      stage_cases settings space entries limit m
  · rw [hm] at hbefore
    rw [hnext] at hafter
    cases hbefore.symm.trans hafter
  · rw [hm] at hbefore ⊢
    generalize stage settings space entries limit (m + 1) = q at hstep hafter ⊢
    cases hstep with
    | full => cases hbefore.symm.trans hafter
    | again => cases hbefore.symm.trans hafter
    | failed => cases hbefore.symm.trans hafter
    | @met d _ _ decoded =>
      obtain rfl | hv := isVisited_meet_iff.mp hafter
      · exact ⟨d.insn.length, by rw [widths_meet, if_pos rfl],
          Machine.lengthAt?_eq_some_iff.mpr ⟨d, decoded, rfl⟩⟩
      · cases hbefore.symm.trans hv

/-- What is visited was visited with some step. -/
theorem exists_visitedAt {n : Nat}
    (h : (stage settings space entries limit n).1.isVisited a = true) :
    ∃ m < n, VisitedAt settings space entries limit m a := by
  induction n with
  | zero => simp [stage, Nat.repeat, start, isVisited] at h
  | succ n ih =>
    cases hv : (stage settings space entries limit n).1.isVisited a with
    | false => exact ⟨n, Nat.lt_succ_self n, hv, h⟩
    | true =>
      obtain ⟨m, hm, hvisited⟩ := ih hv
      exact ⟨m, Nat.lt_succ_of_lt hm, hvisited⟩

end Stages

/-- The record of an address at a stage. -/
def recordAt? (settings : Settings) (space : AddressSpace) (entries : List Address)
    (limit m : Nat) (a : Address) : Option Nat :=
  (stage settings space entries limit m).1.known.pairs.headLength? a

section Rereading

variable {settings : Settings} {space : AddressSpace} {entries : List Address} {limit : Nat}
  {a : Address}

/-- The length of what decodes at an address depends on the record of that address alone. -/
theorem lengthAt?_ofRecord (space : AddressSpace) (k : Knowledge) (a : Address) :
    Machine.lengthAt? space (.ofRecord a (k.pairs.headLength? a)) a =
      Machine.lengthAt? space k a :=
  Machine.lengthAt?_congr (Knowledge.headLength?_ofRecord a _)

/-- The length that is noted for an address is the one that its record had at the time of the
visit gives it. -/
theorem VisitedAt.widths_of {m : Nat} (h : VisitedAt settings space entries limit m a) :
    (Walk.of settings space entries limit).widths[a]? =
      Machine.lengthAt? space (.ofRecord a (recordAt? settings space entries limit m a)) a := by
  obtain ⟨last, hlast⟩ := exists_stage_eq_of settings space entries limit
  obtain ⟨n, hwidth, hlength⟩ := h.widths
  have hlt : m < last := by
    apply Nat.not_le.mp
    intro hle
    have hbefore := h.before
    have hafter := h.after
    rw [stage_of_le hlast hle] at hbefore
    rw [stage_of_le hlast (Nat.le_succ_of_le hle)] at hafter
    cases hbefore.symm.trans hafter
  have hend := widths_stage_of_le hlt hwidth
  rw [hlast] at hend
  rw [recordAt?, lengthAt?_ofRecord, hlength]
  exact hend

end Rereading

/-- At the end of a walk every visited address decodes to as many bytes as were noted for it exactly
if each address whose record has changed since its visit has the same length with the record it has
at the end as with the record it had then. -/
theorem rereads_iff (settings : Settings) (space : AddressSpace) (entries : List Address)
    (limit : Nat) :
    (∀ a n, (Walk.of settings space entries limit).widths[a]? = some n →
        ∃ d, Machine.c55x.decode space (Walk.of settings space entries limit).known a = .ok d ∧
          d.insn.length = n) ↔
      ∀ m a old new, VisitedAt settings space entries limit m a →
        recordAt? settings space entries limit m a = old →
        (Walk.of settings space entries limit).known.pairs.headLength? a = new → old ≠ new →
        Machine.lengthAt? space (.ofRecord a new) a =
          Machine.lengthAt? space (.ofRecord a old) a := by
  constructor
  · rintro h m a old new hvisited rfl rfl -
    obtain ⟨n, -, hlength⟩ := hvisited.widths
    have hwidth : (Walk.of settings space entries limit).widths[a]? = some n := by
      rw [hvisited.widths_of, recordAt?, lengthAt?_ofRecord, hlength]
    rw [lengthAt?_ofRecord, ← hvisited.widths_of, hwidth]
    exact Machine.lengthAt?_eq_some_iff.mpr (h a n hwidth)
  · intro h a n hwidth
    obtain ⟨last, hlast⟩ := exists_stage_eq_of settings space entries limit
    obtain ⟨m, -, hvisited⟩ : ∃ m < last, VisitedAt settings space entries limit m a := by
      refine exists_visitedAt ?_
      rw [hlast]
      exact isVisited_iff.mpr ⟨n, hwidth⟩
    rw [← Machine.lengthAt?_eq_some_iff, ← lengthAt?_ofRecord, ← hwidth, hvisited.widths_of]
    by_cases hsame : recordAt? settings space entries limit m a =
        (Walk.of settings space entries limit).known.pairs.headLength? a
    · rw [hsame]
    · exact h m a _ _ hvisited rfl rfl hsame

/-- A packed pair, and behind it a branch to the second byte of the pair. -/
def branchIntoPair : Image :=
  .ofBytes 0 #[0x8F, 0x06, 0x00, 0xC0, 0xFF, 0x00, 0x06, 0xFF, 0xF8]

/-- What the walk over it has found when its queue is empty, in one statement, so that its steps are
evaluated once. -/
theorem stage_branchIntoPair :
    let w := (stage {} branchIntoPair.space [0] 100 4).1
    (stage {} branchIntoPair.space [0] 100 4).2 = [] ∧ w.visited = [0, 1, 4, 6] ∧
      w.widths[(4 : Address)]? = some 2 ∧
      (Machine.c55x.decode branchIntoPair.space w.known 4).toOption = none := by
  decide +kernel

/-- The branch at 1, which ends where the second half of the pair starts, is visited last and clears
its record. The second half at 4 has been visited, but no report has a line for it. -/
theorem visited_half_is_left_out :
    let w := Walk.of {} branchIntoPair.space [0] 100
    4 ∈ w.visited ∧ w.widths[(4 : Address)]? = some 2 ∧
      (∀ labels showBytes,
        (Report.of {} branchIntoPair.space [0] 100 labels).line? showBytes 4 = none) ∧
      ¬∀ a n, w.widths[a]? = some n →
        ∃ d, Machine.c55x.decode branchIntoPair.space w.known a = .ok d ∧ d.insn.length = n := by
  obtain ⟨hempty, hvisited, hwidth, hdecode⟩ := stage_branchIntoPair
  rw [stage_eq_of hempty] at hvisited hwidth hdecode
  intro w
  have hnot : ¬∃ d, Machine.c55x.decode branchIntoPair.space w.known 4 = .ok d := by
    rintro ⟨d, hd⟩
    rw [show Machine.c55x.decode branchIntoPair.space
      (Walk.of {} branchIntoPair.space [0] 100).known 4 = .ok d from hd] at hdecode
    cases hdecode
  refine ⟨?_, hwidth, fun labels showBytes => ?_, fun h => ?_⟩
  · rw [show w.visited = _ from hvisited]
    decide
  · unfold Report.line?
    split
    next => rfl
    next d hd => exact absurd ⟨d, hd⟩ hnot
  · obtain ⟨d, hd, -⟩ := h 4 2 hwidth
    exact hnot ⟨d, hd⟩

end Walk

end DspCode
