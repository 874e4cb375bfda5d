import DspCode.Proofs.Blocks
import Mathlib.Data.List.Chain
import Mathlib.Logic.Function.Iterate

/-!
# Blocks as straight lines

A block is made by taking one instruction after the other from its start until one ends it. All that
can be said of its instructions follows from this: they stand end to end, no other one than the
first is entered from elsewhere, and no other one than the last is left to elsewhere. Main
statement: in every walk of an image, whatever overlaps there, one block starts at each visited
start, and all blocks are such lines, which are complete after finitely many instructions.
-/

namespace DspCode

namespace Walk

/-- An instruction was visited, and the other address is the one after it. -/
def Precedes (w : Walk) (x y : Address) : Prop :=
  ∃ n, w.widths[x]? = some n ∧ y = x + UInt32.ofNat n

/-- The instructions of a block, their places, and how execution comes and goes. -/
structure StraightLine (w : Walk) (seeds : List Address) (b : Block) : Prop where
  /-- The first instruction is at the start. -/
  head : (w.addresses b).head? = some b.start
  /-- Each instruction has been visited. -/
  visited : ∀ a ∈ w.addresses b, w.isVisited a = true
  /-- Addresses rise up to the end. -/
  ascending : (w.addresses b ++ [b.stop]).Pairwise (· < ·)
  /-- The instructions stand end to end, and the last one ends with the block. -/
  linked : (w.addresses b ++ [b.stop]).IsChain w.Precedes
  /-- Only the first instruction is a seed, or the target of a branch or call. -/
  entered : ∀ a ∈ (w.addresses b).tail, a ∉ seeds ∧
    ∀ e ∈ w.edges.toList, e.kind ≠ .fallThrough → e.target ≠ a
  /-- Only the last instruction is a branch, or one after which execution does not go on. -/
  left : ∀ a ∈ (w.addresses b).dropLast, w.stops.contains a = false ∧
    ∀ e ∈ w.edges.toList, e.source = a → e.kind ≠ .branch ∧ e.kind ≠ .conditional
  /-- Going on from the start comes to an instruction that ends the block, for the first time at its
  last one. -/
  ended : ∃ n, (∀ m < n, w.endsBlock (w.starts seeds) w.branches (w.nextOf^[m] b.start) = false) ∧
    w.endsBlock (w.starts seeds) w.branches (w.nextOf^[n] b.start) = true ∧
    w.nextOf^[n + 1] b.start = b.stop

variable {w : Walk} {seeds l : List Address} {s x y a stop : Address}

/-! ## What starts and branches are -/

/-- A block may start at the seeds and at all targets that are not just fallen into. -/
theorem contains_starts_iff :
    (w.starts seeds).contains a = true ↔
      a ∈ seeds ∨ ∃ e ∈ w.edges.toList, e.kind ≠ .fallThrough ∧ e.target = a := by
  simp [starts, and_assoc]

/-- Branches are where an edge of a branch starts, be it conditional or not. -/
theorem contains_branches_iff :
    w.branches.contains a = true ↔
      ∃ e ∈ w.edges.toList, (e.kind = .branch ∨ e.kind = .conditional) ∧ e.source = a := by
  simp [branches, and_assoc]

private theorem precedes_nextOf (hv : w.isVisited x = true) : w.Precedes x (w.nextOf x) := by
  obtain ⟨n, hn⟩ := isVisited_iff.mp hv
  exact ⟨n, hn, by rw [nextOf, hn, Option.getD_some]⟩

private theorem Precedes.lt (h : w.Precedes x y) (hw : w.Ascends) : x < y := by
  obtain ⟨n, hn, rfl⟩ := h
  have := hw x (isVisited_iff.mpr ⟨n, hn⟩)
  rwa [nextOf, hn, Option.getD_some] at this

/-! ## Lines of instructions -/

/-- The instructions from one on, up to the first that ends a block, and the address after it. -/
inductive Line (w : Walk) (seeds : List Address) : Address → List Address → Address → Prop
  /-- The instruction ends the block. -/
  | last {a : Address} : w.isVisited a = true →
      w.endsBlock (w.starts seeds) w.branches a = true → Line w seeds a [a] (w.nextOf a)
  /-- The block goes on with the next instruction. -/
  | next {a stop : Address} {l : List Address} : w.Continues seeds a (w.nextOf a) →
      Line w seeds (w.nextOf a) l stop → Line w seeds a (a :: l) stop

/-- The instructions found from the start to the end of a block are a line. -/
theorem line_blockStop (hw : w.Ascends) (hv : w.isVisited s = true) :
    w.Line seeds s (w.addressesFrom (w.blockStop (w.starts seeds) w.branches s) s)
      (w.blockStop (w.starts seeds) w.branches s) := by
  fun_induction w.blockStop (w.starts seeds) w.branches s with
  | case1 s hend =>
    rw [addressesFrom_nextOf hw hv]
    exact .last hv hend
  | case2 s hend hlt ih =>
    have hnext := (endsBlock_eq_false_iff hv).mp (Bool.eq_false_iff.mpr hend)
    have hstop : s < w.blockStop (w.starts seeds) w.branches (w.nextOf s) :=
      UInt32.lt_trans hlt (lt_blockStop hw hnext.targetVisited)
    rw [addressesFrom_of_lt hw hv hstop]
    exact .next hnext (ih hnext.targetVisited)
  | case3 s _ hle => exact absurd (hw s hv) hle

namespace Line

/-- A line starts with its first instruction. -/
theorem exists_cons (h : w.Line seeds s l stop) : ∃ rest, l = s :: rest := by
  cases h with
  | last => exact ⟨[], rfl⟩
  | next => exact ⟨_, rfl⟩

/-- All instructions of a line were visited. -/
theorem visited (h : w.Line seeds s l stop) : ∀ a ∈ l, w.isVisited a = true := by
  induction h with
  | last hv _ => exact List.forall_mem_singleton.mpr hv
  | next hnext _ ih => exact List.forall_mem_cons.mpr ⟨hnext.visited, ih⟩

/-- The instructions of a line stand end to end, up to its end. -/
theorem linked (h : w.Line seeds s l stop) : (l ++ [stop]).IsChain w.Precedes := by
  induction h with
  | last hv _ => exact List.isChain_pair.mpr (precedes_nextOf hv)
  | next hnext hl ih =>
    obtain ⟨rest, rfl⟩ := hl.exists_cons
    exact List.isChain_cons_cons.mpr ⟨precedes_nextOf hnext.visited, ih⟩

/-- A line goes upwards. -/
theorem ascending (h : w.Line seeds s l stop) (hw : w.Ascends) :
    (l ++ [stop]).Pairwise (· < ·) :=
  List.isChain_iff_pairwise.mp (h.linked.imp fun _ _ hxy => hxy.lt hw)

/-- A line passes no start of another block. -/
theorem not_start_of_mem_tail (h : w.Line seeds s l stop) :
    ∀ a ∈ l.tail, (w.starts seeds).contains a = false := by
  induction h with
  | last => exact fun a ha => absurd ha List.not_mem_nil
  | next hnext hl ih =>
    obtain ⟨rest, rfl⟩ := hl.exists_cons
    exact List.forall_mem_cons.mpr ⟨hnext.noStart, ih⟩

/-- Each instruction of a line but the last falls into the next one. -/
theorem fallsInto_of_mem_dropLast (h : w.Line seeds s l stop) :
    ∀ a ∈ l.dropLast, w.FallsInto a (w.nextOf a) := by
  induction h with
  | last => exact fun a ha => absurd ha List.not_mem_nil
  | next hnext hl ih =>
    obtain ⟨rest, rfl⟩ := hl.exists_cons
    exact List.forall_mem_cons.mpr ⟨hnext.toFallsInto, ih⟩

/-- A line is complete after finitely many instructions, the last of which ends a block. -/
theorem ended (h : w.Line seeds s l stop) :
    ∃ n, (∀ m < n, w.endsBlock (w.starts seeds) w.branches (w.nextOf^[m] s) = false) ∧
      w.endsBlock (w.starts seeds) w.branches (w.nextOf^[n] s) = true ∧
      w.nextOf^[n + 1] s = stop := by
  induction h with
  | last _ hend => exact ⟨0, fun m hm => absurd hm (Nat.not_lt_zero m), hend, rfl⟩
  | @next a stop l hnext _ ih =>
    obtain ⟨n, hbefore, hend, hstop⟩ := ih
    refine ⟨n + 1, fun m hm => ?_, hend, hstop⟩
    cases m with
    | zero => exact (endsBlock_eq_false_iff hnext.visited).mpr hnext
    | succ m => exact hbefore m (Nat.lt_of_succ_lt_succ hm)

end Line

/-- Every block is a straight line. -/
theorem straightLine_of_mem_blocks {b : Block} (hw : w.Ascends) (hb : b ∈ w.blocks seeds) :
    w.StraightLine seeds b := by
  obtain ⟨hs, heq⟩ := mem_blocks_iff.mp hb
  have hstop : b.stop = w.blockStop (w.starts seeds) w.branches b.start := congrArg Block.stop heq
  have hline : w.Line seeds b.start (w.addresses b) b.stop := by
    rw [addresses, hstop]
    exact line_blockStop hw hs.visited
  obtain ⟨rest, hcons⟩ := hline.exists_cons
  refine ⟨by rw [hcons]; rfl, hline.visited, hline.ascending hw, hline.linked, ?_, ?_,
    hline.ended⟩
  · intro a ha
    have hstart := hline.not_start_of_mem_tail a ha
    rw [← Bool.not_eq_true, contains_starts_iff, not_or] at hstart
    exact ⟨hstart.1, fun e he hkind htarget => hstart.2 ⟨e, he, hkind, htarget⟩⟩
  · intro a ha
    have hfalls := hline.fallsInto_of_mem_dropLast a ha
    refine ⟨hfalls.noStop, fun e he hsource => not_or.mp fun hkind => ?_⟩
    have hbranch := contains_branches_iff.mpr ⟨e, he, hkind, hsource⟩
    rw [hfalls.noBranch] at hbranch
    cases hbranch

/-- The blocks of every walk of an image start at different addresses, one at each seed and each
target of a branch or call that was visited, and each of them is a straight line. -/
theorem blocks_are_straight_lines (settings : Settings) (image : Image) (entries : List Address)
    (limit : Nat) (seeds : List Address) :
    let w := Walk.of settings image.space entries limit
    ((w.blocks seeds).map Block.start).Nodup ∧
      (∀ s, s ∈ (w.blocks seeds).map Block.start ↔ w.IsStart seeds s) ∧
      ∀ b ∈ w.blocks seeds, w.StraightLine seeds b := by
  intro w
  have hw : w.Ascends := ascends_of settings image entries limit
  refine ⟨?_, fun s => ?_, fun b hb => straightLine_of_mem_blocks hw hb⟩
  · exact List.pairwise_map.mpr (pairwise_blocks.imp UInt32.ne_of_lt)
  · rw [List.mem_map]
    constructor
    · rintro ⟨b, hb, rfl⟩
      exact (mem_blocks_iff.mp hb).1
    · intro hs
      exact ⟨w.blockAt seeds s, mem_blocks_iff.mpr ⟨hs, rfl⟩, rfl⟩

/-- A `nop`, a call and a return, followed by the return that is called. -/
def nopCallReturn : Image := .ofBytes 0 #[0x20, 0x08, 0x00, 0x02, 0x48, 0x04, 0x48, 0x04]

/-- What the walk over it has found when its queue is empty, in one statement, so that its steps are
evaluated once. -/
theorem stage_nopCallReturn :
    let w := (stage {} nopCallReturn.space [0] 100 4).1
    (stage {} nopCallReturn.space [0] 100 4).2 = [] ∧ w.visited = [0, 1, 4, 6] ∧
      (w.starts [0]).toList = [0, 6] ∧
      ([0, 1, 4].map fun a => (w.nextOf a, w.endsBlock (w.starts [0]) w.branches a)) =
        [(1, false), (4, false), (6, true)] := by
  decide +kernel

/-- The call does not end the block, and the return after it does. -/
theorem blocks_are_straight_lines_nopCallReturn :
    let w := Walk.of {} nopCallReturn.space [0] 100
    ⟨0, 6⟩ ∈ w.blocks [0] ∧ w.addresses ⟨0, 6⟩ = [0, 1, 4] ∧ w.StraightLine [0] ⟨0, 6⟩ := by
  intro w
  have hlines := blocks_are_straight_lines {} nopCallReturn [0] 100 [0]
  have hw : w.Ascends := ascends_of {} nopCallReturn [0] 100
  obtain ⟨hempty, hvisited, hstarts, hsteps⟩ := stage_nopCallReturn
  rw [stage_eq_of hempty] at hvisited hstarts hsteps
  simp only [List.map_cons, List.map_nil, List.cons.injEq, Prod.mk.injEq, and_true] at hsteps
  obtain ⟨⟨hnext₀, hend₀⟩, ⟨hnext₁, hend₁⟩, hnext₄, hend₄⟩ := hsteps
  have hv : ∀ a ∈ [0, 1, 4, 6], w.isVisited a = true := by
    intro a ha
    have hmem : a ∈ w.visited := by rwa [hvisited]
    exact Std.TreeMap.contains_iff_mem.mpr (Std.TreeMap.mem_keys.mp hmem)
  have hstart : w.IsStart [0] 0 := by
    refine ⟨Std.TreeSet.contains_iff_mem.mpr (Std.TreeSet.mem_toList.mp ?_), hv 0 (by decide)⟩
    rw [hstarts]
    decide
  have hstop : w.blockStop (w.starts [0]) w.branches 0 = 6 := by
    rw [blockStop, hend₀, hnext₀, blockStop, hend₁, hnext₁, blockStop, hend₄, hnext₄]
    decide
  have hblock : ⟨0, 6⟩ ∈ w.blocks [0] :=
    mem_blocks_iff.mpr ⟨hstart, by rw [blockAt, hstop]⟩
  refine ⟨hblock, ?_, hlines.2.2 _ hblock⟩
  rw [addresses, addressesFrom_of_lt hw (hv 0 (by decide)) (by decide), hnext₀,
    addressesFrom_of_lt hw (hv 1 (by decide)) (by decide), hnext₁,
    addressesFrom_of_lt hw (hv 4 (by decide)) (by decide), hnext₄, addressesFrom,
    if_neg (by decide)]

end Walk

end DspCode
