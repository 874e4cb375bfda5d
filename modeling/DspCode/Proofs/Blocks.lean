import DspCode.Proofs.Stages
import Mathlib.Logic.ExistsUnique
import Mathlib.Logic.Relation

/-!
# Blocks and the code they cover

A block is the run of instructions that follow each other from its start, as far as none of them
ends it. So a visited instruction lies in the blocks from whose starts such a run leads to it. Main
statement: the blocks partition the visited code exactly when every visited instruction at which no
block starts is fallen into from one visited instruction. An instruction after a conditional branch
that nothing else leads to lies in no block.
-/

namespace DspCode

namespace Walk

/-- Execution goes on from a visited instruction that is no branch to the address after it. -/
structure FallsInto (w : Walk) (x a : Address) : Prop where
  visited : w.isVisited x = true
  noBranch : w.branches.contains x = false
  noStop : w.stops.contains x = false
  next : w.nextOf x = a

/-- A block goes on from one instruction to the other. -/
structure Continues (w : Walk) (entries : List Address) (x a : Address) : Prop
    extends w.FallsInto x a where
  targetVisited : w.isVisited a = true
  noStart : (w.starts entries).contains a = false

/-- The blocks are runs of visited code, from the lowest on, that cover each visited instruction
once, and edges between blocks start where a block starts. -/
structure Partitioned (w : Walk) (entries : List Address) : Prop where
  ascending : (w.blocks entries).Pairwise fun b c => b.start < c.start
  visited : ∀ b ∈ w.blocks entries, ∀ a ∈ w.addresses b, w.isVisited a = true
  covered : ∀ a, w.isVisited a = true → ∃! b, b ∈ w.blocks entries ∧ a ∈ w.addresses b
  sources : ∀ e ∈ w.blockEdges (w.blocks entries), ∃ b ∈ w.blocks entries, b.start = e.source

/-- Every visited instruction at which no block starts is fallen into from exactly one. -/
def FallsInOnce (w : Walk) (entries : List Address) : Prop :=
  ∀ a, w.isVisited a = true → (w.starts entries).contains a = false → ∃! x, w.FallsInto x a

variable {w : Walk} {entries : List Address} {s x y a : Address}

/-- A visited instruction that does not end a block is one from which the block goes on. -/
theorem endsBlock_eq_false_iff (hv : w.isVisited x = true) :
    w.endsBlock (w.starts entries) w.branches x = false ↔
      w.Continues entries x (w.nextOf x) := by
  constructor
  · intro h
    simp only [endsBlock, Bool.or_eq_false_iff, Bool.not_eq_false'] at h
    obtain ⟨⟨⟨hb, hs⟩, hnext⟩, hstart⟩ := h
    exact ⟨⟨hv, hb, hs, rfl⟩, hnext, hstart⟩
  · intro h
    simp [endsBlock, h.noBranch, h.noStop, h.targetVisited, h.noStart]

/-- A block goes on upwards. -/
theorem Continues.lt (h : w.Continues entries x a) (hw : w.Ascends) : x < a :=
  h.next ▸ hw x h.visited

/-- A block goes on from an instruction in one way only. -/
theorem Continues.rightUnique : Relator.RightUnique (w.Continues entries) :=
  fun _ _ _ hb hc => hb.next.symm.trans hc.next

/-- The instructions that a block from one address comes to. -/
abbrev Leads (w : Walk) (entries : List Address) : Address → Address → Prop :=
  Relation.ReflTransGen (w.Continues entries)

private theorem Leads.le (h : w.Leads entries x a) (hw : w.Ascends) : x ≤ a := by
  induction h with
  | refl => exact UInt32.le_refl x
  | tail _ hc ih => exact UInt32.le_of_lt (UInt32.lt_of_le_of_lt ih (hc.lt hw))

/-- A block that starts at a visited instruction comes to visited ones only. -/
theorem Leads.isVisited (h : w.Leads entries x a) (hv : w.isVisited x = true) :
    w.isVisited a = true := by
  cases h with
  | refl => exact hv
  | tail _ hc => exact hc.targetVisited

/-! ## The instructions of a block -/

/-- A block ends behind its start. -/
theorem lt_blockStop (hw : w.Ascends) (hv : w.isVisited s = true) :
    s < w.blockStop (w.starts entries) w.branches s := by
  fun_induction w.blockStop (w.starts entries) w.branches s with
  | case1 s _ => exact hw s hv
  | case2 s hend hlt ih =>
    have hnext := (endsBlock_eq_false_iff hv).mp (Bool.eq_false_iff.mpr hend)
    exact UInt32.lt_trans hlt (ih hnext.targetVisited)
  | case3 s _ hle => exact absurd (hw s hv) hle

/-- The instructions up to an address are the first one and those from the next one on. -/
theorem addressesFrom_of_lt {stop : Address} (hw : w.Ascends) (hv : w.isVisited s = true)
    (hlt : s < stop) : w.addressesFrom stop s = s :: w.addressesFrom stop (w.nextOf s) := by
  rw [addressesFrom, if_pos hlt, if_pos ⟨hv, hw s hv⟩]

/-- Up to the next instruction there is only the first one. -/
theorem addressesFrom_nextOf (hw : w.Ascends) (hv : w.isVisited s = true) :
    w.addressesFrom (w.nextOf s) s = [s] := by
  rw [addressesFrom_of_lt hw hv (hw s hv), addressesFrom, if_neg (UInt32.lt_irrefl _)]

/-- The addresses up to the end of the block from an address on are those it leads to. -/
theorem mem_addressesFrom_iff (hw : w.Ascends) (hv : w.isVisited s = true) :
    a ∈ w.addressesFrom (w.blockStop (w.starts entries) w.branches s) s ↔
      w.Leads entries s a := by
  fun_induction w.blockStop (w.starts entries) w.branches s with
  | case1 s hend =>
    rw [addressesFrom_nextOf hw hv, List.mem_singleton]
    constructor
    · rintro rfl
      exact .refl
    · intro h
      rcases h.cases_head with rfl | ⟨c, hc, -⟩
      · rfl
      · rw [(endsBlock_eq_false_iff hv).mpr (hc.next ▸ hc)] at hend
        cases hend
  | case2 s hend hlt ih =>
    have hnext := (endsBlock_eq_false_iff hv).mp (Bool.eq_false_iff.mpr hend)
    have hstop : s < w.blockStop (w.starts entries) w.branches (w.nextOf s) :=
      UInt32.lt_trans hlt (lt_blockStop hw hnext.targetVisited)
    rw [addressesFrom_of_lt hw hv hstop, List.mem_cons, ih hnext.targetVisited]
    constructor
    · rintro (rfl | h)
      · exact .refl
      · exact .head hnext h
    · intro h
      rcases h.cases_head with rfl | ⟨c, hc, h⟩
      · exact Or.inl rfl
      · exact Or.inr (hnext.rightUnique hc ▸ h)
  | case3 s _ hle => exact absurd (hw s hv) hle

/-- A block starts at an address. -/
structure IsStart (w : Walk) (entries : List Address) (s : Address) : Prop where
  start : (w.starts entries).contains s = true
  visited : w.isVisited s = true

/-- The block that starts at an address. -/
def blockAt (w : Walk) (entries : List Address) (s : Address) : Block :=
  ⟨s, w.blockStop (w.starts entries) w.branches s⟩

/-- A block starts at each visited start, and there are no others. -/
theorem mem_blocks_iff {c : Block} :
    c ∈ w.blocks entries ↔ w.IsStart entries c.start ∧ c = w.blockAt entries c.start := by
  have hmem : ∀ s, s ∈ (w.starts entries).toList.filter w.isVisited ↔ w.IsStart entries s := by
    intro s
    rw [List.mem_filter, Std.TreeSet.mem_toList, ← Std.TreeSet.contains_iff_mem]
    exact ⟨fun h => ⟨h.1, h.2⟩, fun h => ⟨h.1, h.2⟩⟩
  constructor
  · intro h
    obtain ⟨s, hs, rfl⟩ := List.mem_map.mp h
    exact ⟨(hmem s).mp hs, rfl⟩
  · rintro ⟨hs, heq⟩
    exact List.mem_map.mpr ⟨c.start, (hmem _).mpr hs, heq.symm⟩

/-- Blocks are listed from the lowest start on. -/
theorem pairwise_blocks :
    (w.blocks entries).Pairwise fun b c => b.start < c.start := by
  refine List.pairwise_map.mpr (List.Pairwise.filter _ ?_)
  refine Std.TreeSet.ordered_toList.imp ?_
  intro a b h
  exact Std.compare_eq_lt.mp h

/-- The instructions of a block are those that it comes to from its start. -/
theorem mem_addresses_iff {c : Block} (hw : w.Ascends) (hc : c ∈ w.blocks entries) :
    a ∈ w.addresses c ↔ w.Leads entries c.start a := by
  obtain ⟨hs, heq⟩ := mem_blocks_iff.mp hc
  rw [← mem_addressesFrom_iff hw hs.visited, heq]
  rfl

/-- An instruction lies in one block if one start leads to it. -/
theorem existsUnique_block_iff (hw : w.Ascends) :
    (∃! c, c ∈ w.blocks entries ∧ a ∈ w.addresses c) ↔
      ∃! s, w.IsStart entries s ∧ w.Leads entries s a := by
  have hat : ∀ s, w.IsStart entries s → w.blockAt entries s ∈ w.blocks entries :=
    fun s hs => mem_blocks_iff.mpr ⟨hs, rfl⟩
  constructor
  · rintro ⟨c, ⟨hc, ha⟩, hunique⟩
    refine ⟨c.start, ⟨(mem_blocks_iff.mp hc).1, (mem_addresses_iff hw hc).mp ha⟩, ?_⟩
    rintro s ⟨hs, hl⟩
    exact congrArg Block.start (hunique _ ⟨hat s hs, (mem_addresses_iff hw (hat s hs)).mpr hl⟩)
  · rintro ⟨s, ⟨hs, hl⟩, hunique⟩
    refine ⟨w.blockAt entries s, ⟨hat s hs, (mem_addresses_iff hw (hat s hs)).mpr hl⟩, ?_⟩
    rintro c ⟨hc, ha⟩
    obtain ⟨hcs, heq⟩ := mem_blocks_iff.mp hc
    rw [heq, hunique c.start ⟨hcs, (mem_addresses_iff hw hc).mp ha⟩]

/-! ## Covering each instruction once -/

/-- Blocks do not run over a start. -/
theorem Leads.eq_of_start (h : w.Leads entries s a) (ha : (w.starts entries).contains a = true) :
    s = a := by
  rcases h.cases_tail with rfl | ⟨x, -, hx⟩
  · rfl
  · rw [hx.noStart] at ha
    cases ha

/-- What a block comes to after its start, it comes to from the instruction before. -/
theorem Leads.exists_continues (h : w.Leads entries s a) (hs : w.IsStart entries s)
    (ha : (w.starts entries).contains a = false) :
    ∃ x, w.Leads entries s x ∧ w.Continues entries x a := by
  rcases h.cases_tail with rfl | h
  · rw [hs.start] at ha
    cases ha
  · exact h

/-- Each instruction is reached backwards, over the one it is fallen into from, from one start. -/
theorem FallsInOnce.existsUnique_start {a : Address} (h : w.FallsInOnce entries) (hw : w.Ascends)
    (hv : w.isVisited a = true) : ∃! s, w.IsStart entries s ∧ w.Leads entries s a := by
  cases ha : (w.starts entries).contains a with
  | true => exact ⟨a, ⟨⟨ha, hv⟩, .refl⟩, fun s hs => hs.2.eq_of_start ha⟩
  | false =>
    obtain ⟨x, hx, honly⟩ := h a hv ha
    have hlt : x.toNat < a.toNat := hx.next ▸ hw x hx.visited
    obtain ⟨s, ⟨hs, hl⟩, hunique⟩ := h.existsUnique_start hw hx.visited
    refine ⟨s, ⟨hs, hl.tail ⟨hx, hv, ha⟩⟩, ?_⟩
    rintro t ⟨ht, hta⟩
    obtain ⟨y, hty, hya⟩ := hta.exists_continues ht ha
    exact hunique t ⟨ht, honly y hya.toFallsInto ▸ hty⟩
  termination_by a.toNat

/-- Two instructions of one block do not fall into the same one. -/
theorem Leads.eq_of_continues (hw : w.Ascends) (h : w.Leads entries x y)
    (hx : w.Continues entries x a) (hy : w.Continues entries y a) : x = y := by
  rcases h.cases_head with heq | ⟨c, hc, hcy⟩
  · exact heq
  · have hay : a ≤ y := Leads.le (hx.rightUnique hc ▸ hcy) hw
    exact absurd (hy.lt hw) (UInt32.not_lt.mpr hay)

/-- If each visited instruction is reached from one start alone, it is also fallen into only once.
-/
theorem fallsInOnce_of_existsUnique_start (hw : w.Ascends)
    (h : ∀ a, w.isVisited a = true → ∃! s, w.IsStart entries s ∧ w.Leads entries s a) :
    w.FallsInOnce entries := by
  intro a hv ha
  obtain ⟨s, ⟨hs, hl⟩, hunique⟩ := h a hv
  obtain ⟨x, hsx, hx⟩ := hl.exists_continues hs ha
  refine ⟨x, hx.toFallsInto, fun y hy => ?_⟩
  -- the start that leads to `y` leads on to `a`, so it is `s` as well
  have hya : w.Continues entries y a := ⟨hy, hv, ha⟩
  obtain ⟨t, ⟨ht, hty⟩, -⟩ := h y hy.visited
  cases hunique t ⟨ht, hty.tail hya⟩
  rcases Relation.ReflTransGen.total_of_right_unique Continues.rightUnique hsx hty with h | h
  · exact (Leads.eq_of_continues hw h hx hya).symm
  · exact Leads.eq_of_continues hw h hya hx

/-! ## Edges between blocks -/

private theorem mem_of_getElem?_insertMany {t : Std.TreeMap Address Address} {a s : Address}
    {l : List (Address × Address)} (h : (t.insertMany l)[a]? = some s) :
    t[a]? = some s ∨ (a, s) ∈ l := by
  induction l generalizing t with
  | nil => exact Or.inl h
  | cons p l ih =>
    rw [Std.TreeMap.insertMany_cons] at h
    rcases ih h with h | h
    · rw [Std.TreeMap.getElem?_insert] at h
      split at h
      case isTrue heq =>
        cases h
        cases Std.compare_eq_iff_eq.mp heq
        exact Or.inr List.mem_cons_self
      case isFalse => exact Or.inl h
    · exact Or.inr (List.mem_cons_of_mem p h)

private theorem exists_getElem?_ofList {a s : Address} {l : List (Address × Address)}
    (h : (a, s) ∈ l) : ∃ t, (a, t) ∈ l ∧ (Std.TreeMap.ofList l)[a]? = some t := by
  have hmem : (Std.TreeMap.ofList l).contains a = true := by
    rw [Std.TreeMap.contains_ofList, List.contains_iff_mem]
    exact List.mem_map_of_mem h
  rw [Std.TreeMap.contains_eq_isSome_getElem?] at hmem
  obtain ⟨t, ht⟩ := Option.isSome_iff_exists.mp hmem
  refine ⟨t, ?_, ht⟩
  rw [Std.TreeMap.ofList_eq_insertMany_empty] at ht
  rcases mem_of_getElem?_insertMany ht with h | h
  · cases Std.TreeMap.getElem?_emptyc.symm.trans h
  · exact h

/-- The table of block starts knows the instructions of the blocks, each with a block it is in. -/
theorem exists_blockStarts {c : Block} {blocks : List Block} (hc : c ∈ blocks)
    (ha : a ∈ w.addresses c) : ∃ b ∈ blocks, (w.blockStarts blocks)[a]? = some b.start := by
  have hlisted : (a, c.start) ∈ blocks.flatMap fun b => (w.addresses b).map fun a => (a, b.start) :=
    List.mem_flatMap.mpr ⟨c, hc, List.mem_map_of_mem ha⟩
  obtain ⟨t, ht, hlookup⟩ := exists_getElem?_ofList hlisted
  obtain ⟨b, hb, ht⟩ := List.mem_flatMap.mp ht
  obtain ⟨_, -, heq⟩ := List.mem_map.mp ht
  cases heq
  exact ⟨b, hb, hlookup⟩

/-- If every edge starts within a block, then edges between blocks start where blocks start. -/
theorem sources_blockEdges {blocks : List Block} {e : Edge}
    (h : ∀ e ∈ w.edges.toList, ∃ c ∈ blocks, e.source ∈ w.addresses c)
    (he : e ∈ w.blockEdges blocks) : ∃ b ∈ blocks, b.start = e.source := by
  obtain ⟨hmap, -⟩ := List.mem_filter.mp he
  obtain ⟨e', he', rfl⟩ := List.mem_map.mp hmap
  obtain ⟨c, hc, ha⟩ := h e' he'
  obtain ⟨b, hb, hlookup⟩ := exists_blockStarts hc ha
  exact ⟨b, hb, by simp [hlookup]⟩

/-- The blocks of every walk of an image partition the code it visits exactly when each visited
instruction at which no block starts is fallen into from one visited instruction. -/
theorem partitioned_iff_fallsInOnce (settings : Settings) (image : Image) (entries : List Address)
    (limit : Nat) :
    (Walk.of settings image.space entries limit).Partitioned entries ↔
      (Walk.of settings image.space entries limit).FallsInOnce entries := by
  have hsound := sound_of settings image.space entries limit
  have hw := ascends_of settings image entries limit
  generalize Walk.of settings image.space entries limit = w at hsound hw ⊢
  constructor
  · intro hp
    exact fallsInOnce_of_existsUnique_start hw fun a hv =>
      (existsUnique_block_iff hw).mp (hp.covered a hv)
  · intro hf
    have hcovered : ∀ a, w.isVisited a = true → ∃! c, c ∈ w.blocks entries ∧ a ∈ w.addresses c :=
      fun a hv => (existsUnique_block_iff hw).mpr (hf.existsUnique_start hw hv)
    exact {
      ascending := pairwise_blocks
      visited := fun c hc a ha =>
        Leads.isVisited ((mem_addresses_iff hw hc).mp ha) (mem_blocks_iff.mp hc).1.visited
      covered := hcovered
      sources := fun e he =>
        sources_blockEdges (fun e he => (hcovered _ (hsound.sources e he)).exists) he }

/-- A conditional branch over a `nop`, to a return. -/
def branchOverNop : Image := .ofBytes 0 #[0x04, 0x00, 0x01, 0x20, 0x48, 0x04]

/-- What the walk over it has found when its queue is empty, in one statement, so that its steps are
evaluated once. -/
theorem stage_branchOverNop :
    let w := (stage {} branchOverNop.space [0] 100 3).1
    (stage {} branchOverNop.space [0] 100 3).2 = [] ∧ w.visited = [0, 3, 4] ∧
      w.edges.toList = [⟨0, 4, .conditional⟩, ⟨0, 3, .fallThrough⟩, ⟨3, 4, .fallThrough⟩] ∧
      (w.starts [0]).toList.filter w.isVisited = [0, 4] ∧
      ([0, 4].all fun a => w.endsBlock (w.starts [0]) w.branches a) = true ∧
      w.nextOf 0 = 3 ∧ w.nextOf 4 = 6 := by
  decide +kernel

/-- The `nop` is visited and lies in no block, and an edge between blocks starts there. -/
theorem nop_in_no_block :
    let w := Walk.of {} branchOverNop.space [0] 100
    w.visited = [0, 3, 4] ∧ w.blocks [0] = [⟨0, 3⟩, ⟨4, 6⟩] ∧
      (w.blocks [0]).map w.addresses = [[0], [4]] ∧
      ⟨3, 4, .fallThrough⟩ ∈ w.blockEdges (w.blocks [0]) ∧ ¬w.Partitioned [0] := by
  intro w
  have hw : w.Ascends := ascends_of {} branchOverNop [0] 100
  obtain ⟨hempty, hvisited, hedges, hstarts, hends, hnext₀, hnext₄⟩ := stage_branchOverNop
  rw [stage_eq_of hempty] at hvisited hedges hstarts hends hnext₀ hnext₄
  have hv : ∀ a ∈ [0, 4], w.isVisited a = true := by
    intro a ha
    exact (List.mem_filter.mp (hstarts ▸ ha)).2
  have hblocks : w.blocks [0] = [0, 4].map fun a => ⟨a, w.nextOf a⟩ := by
    rw [blocks, hstarts]
    exact List.map_congr_left fun a ha => by rw [blockStop, if_pos (List.all_eq_true.mp hends a ha)]
  have haddresses : (w.blocks [0]).map w.addresses = [[0], [4]] := by
    rw [hblocks, List.map_map]
    exact List.map_congr_left fun a ha => addressesFrom_nextOf hw (hv a ha)
  have htable : w.blockStarts (w.blocks [0]) = .ofList ([0, 4].map fun a : Address => (a, a)) := by
    rw [blockStarts, hblocks]
    simp [addresses, addressesFrom_nextOf hw (hv 0 (by simp)),
      addressesFrom_nextOf hw (hv 4 (by simp))]
  refine ⟨hvisited, ?_, haddresses, ?_, ?_⟩
  · rw [hblocks, List.map_cons, List.map_singleton, hnext₀, hnext₄]
  · rw [blockEdges, htable, hedges]
    decide +kernel
  · intro h
    have hnop : 3 ∈ w.visited := by
      rw [hvisited]
      decide
    have hnop : w.isVisited 3 = true :=
      Std.TreeMap.contains_iff_mem.mpr (Std.TreeMap.mem_keys.mp hnop)
    obtain ⟨b, ⟨hb, ha⟩, -⟩ := h.covered 3 hnop
    have hmem : w.addresses b ∈ [[0], [4]] := haddresses ▸ List.mem_map_of_mem hb
    simp only [List.mem_cons, List.not_mem_nil, or_false] at hmem
    rcases hmem with h | h
    · simp [h] at ha
    · simp [h] at ha

end Walk

end DspCode
