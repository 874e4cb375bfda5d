import DspCode.Flow.Routine
import Mathlib.Data.List.Forall2
import Mathlib.Logic.Relation

/-!
# Routines and the blocks they reach

The search for the blocks of a routine takes one address after the other from its queue, passes over
those it has seen, and queues the targets of the edges that start at a new one. What it can still
find are the ends of paths from the queue along edges that start where it has not been: a path that
comes through the address again goes on along one of its edges, whose target is now in the queue.
Main statement: the routines stand in the order of their entries, and each lists by rising address
exactly the blocks that paths without calls lead to from its entry, the entry among them.
-/

namespace DspCode

/-- Some edge leads from one address to the other. -/
def Edge.Joins (edges : List Edge) (x y : Address) : Prop :=
  ∃ e ∈ edges, e.source = x ∧ e.target = y

namespace Routine

variable {edges : List Edge} {queue : List Address} {seen : Std.TreeSet Address}
  {s x y a b : Address}

/-- The edges that start elsewhere. -/
def elsewhere (edges : List Edge) (a : Address) : List Edge := edges.filter (·.source != a)

/-- Edges lead on from an address to another one. -/
abbrev Leads (edges : List Edge) : Address → Address → Prop :=
  Relation.ReflTransGen (Edge.Joins edges)

private theorem joins_of_joins_elsewhere (h : Edge.Joins (elsewhere edges a) x y) :
    Edge.Joins edges x y := by
  obtain ⟨e, he, hx, hy⟩ := h
  exact ⟨e, List.mem_of_mem_filter he, hx, hy⟩

/-- The targets of the edges that leave an address are those it is joined to. -/
theorem mem_targets_iff : y ∈ (leaving edges a).map Edge.target ↔ Edge.Joins edges a y := by
  simp [leaving, Edge.Joins, and_assoc]

/-- An edge starts at `a`, or it is left when the edges from `a` are used up. -/
theorem joins_cases (a : Address) (h : Edge.Joins edges x y) :
    Edge.Joins edges a y ∨ Edge.Joins (elsewhere edges a) x y := by
  obtain ⟨e, he, hx, hy⟩ := h
  by_cases ha : e.source = a
  · exact Or.inl ⟨e, he, ha, hy⟩
  · exact Or.inr ⟨e, List.mem_filter.mpr ⟨he, bne_iff_ne.mpr ha⟩, hx, hy⟩

/-- A path has a last edge from `a`, or none. After it the edges from `a` are not needed. -/
theorem leads_cases (a : Address) (h : Leads edges s b) :
    (∃ t, Edge.Joins edges a t ∧ Leads (elsewhere edges a) t b) ∨
      Leads (elsewhere edges a) s b := by
  induction h with
  | refl => exact Or.inr .refl
  | tail _ hstep ih =>
    rcases joins_cases a hstep with hlast | hstep
    · exact Or.inl ⟨_, hlast, .refl⟩
    · rcases ih with ⟨t, ht, hpath⟩ | hpath
      · exact Or.inl ⟨t, ht, hpath.tail hstep⟩
      · exact Or.inr (hpath.tail hstep)

/-- Without edges from an address, paths from it lead nowhere. -/
theorem leads_iff_of_not_joins (h : ∀ y, ¬ Edge.Joins edges a y) : Leads edges a b ↔ b = a := by
  constructor
  · intro hpath
    rcases hpath.cases_head with rfl | ⟨y, hstep, -⟩
    · rfl
    · exact absurd hstep (h y)
  · rintro rfl
    exact .refl

private theorem not_joins_elsewhere : ¬ Edge.Joins (elsewhere edges a) a y := by
  rintro ⟨e, he, hsource, -⟩
  exact bne_iff_ne.mp (List.mem_filter.mp he).2 hsource

/-- Taking an address from the queue moves what it leads to into the queue. -/
theorem leads_from_cons_iff {rest : List Address} :
    (∃ s ∈ a :: rest, Leads edges s b) ↔
      b = a ∨ ∃ s ∈ rest ++ (leaving edges a).map Edge.target, Leads (elsewhere edges a) s b := by
  have hweaken : ∀ {s}, Leads (elsewhere edges a) s b → Leads edges s b :=
    fun h => Relation.ReflTransGen.mono (fun _ _ => joins_of_joins_elsewhere) _ _ h
  constructor
  · rintro ⟨s, hs, hpath⟩
    rcases leads_cases a hpath with ⟨t, ht, hpath⟩ | hpath
    · exact Or.inr ⟨t, List.mem_append_right rest (mem_targets_iff.mpr ht), hpath⟩
    · rcases List.mem_cons.mp hs with rfl | hs
      · exact Or.inl ((leads_iff_of_not_joins fun _ => not_joins_elsewhere).mp hpath)
      · exact Or.inr ⟨s, List.mem_append_left _ hs, hpath⟩
  · rintro (rfl | ⟨s, hs, hpath⟩)
    · exact ⟨b, List.mem_cons_self, .refl⟩
    · rcases List.mem_append.mp hs with hs | hs
      · exact ⟨s, List.mem_cons_of_mem a hs, hweaken hpath⟩
      · exact ⟨a, List.mem_cons_self, (hweaken hpath).head (mem_targets_iff.mp hs)⟩

section Pending

private theorem contains_eq_false_iff : seen.contains a = false ↔ a ∉ seen := by
  rw [← Std.TreeSet.contains_iff_mem, Bool.not_eq_true]

/-- Edges are pending while the block they start at has not been seen. -/
theorem mem_pending_iff {e : Edge} : e ∈ pending edges seen ↔ e ∈ edges ∧ e.source ∉ seen := by
  simp [pending, contains_eq_false_iff]

/-- Nothing is pending where the search has been. -/
theorem not_joins_pending (h : a ∈ seen) : ¬ Edge.Joins (pending edges seen) a y := by
  rintro ⟨e, he, rfl, -⟩
  exact (mem_pending_iff.mp he).2 h

/-- All edges from a new address are pending. -/
theorem leaving_pending (h : a ∉ seen) : leaving (pending edges seen) a = leaving edges a := by
  simp only [leaving, pending, List.filter_filter]
  refine List.filter_congr fun e _ => ?_
  by_cases he : e.source = a
  · simp [he, contains_eq_false_iff.mpr h]
  · simp [he]

/-- When a block is seen, the edges that start there are no longer pending. -/
theorem pending_insert : pending edges (seen.insert a) = elsewhere (pending edges seen) a := by
  simp only [elsewhere, pending, List.filter_filter]
  refine List.filter_congr fun e _ => ?_
  rw [Bool.eq_iff_iff]
  simp [@eq_comm _ a]

private theorem pending_empty : pending edges ∅ = edges := by simp [pending]

end Pending

/-- The search adds what paths lead to from the queue along pending edges. -/
theorem mem_reach_iff :
    b ∈ reach edges queue seen ↔
      b ∈ seen ∨ ∃ s ∈ queue, Leads (pending edges seen) s b := by
  fun_induction reach edges queue seen with
  | case1 => simp
  | case2 seen a rest hseen ih =>
    have hstays : Leads (pending edges seen) a b ↔ b = a :=
      leads_iff_of_not_joins fun _ => not_joins_pending (Std.TreeSet.contains_iff_mem.mp hseen)
    rw [ih]
    constructor
    · rintro (h | ⟨s, hs, hpath⟩)
      · exact Or.inl h
      · exact Or.inr ⟨s, List.mem_cons_of_mem a hs, hpath⟩
    · rintro (h | ⟨s, hs, hpath⟩)
      · exact Or.inl h
      · rcases List.mem_cons.mp hs with rfl | hs
        · exact Or.inl (hstays.mp hpath ▸ Std.TreeSet.contains_iff_mem.mp hseen)
        · exact Or.inr ⟨s, hs, hpath⟩
  | case3 seen a rest hnew targets ih =>
    have hnew : a ∉ seen := fun h => hnew (Std.TreeSet.contains_iff_mem.mpr h)
    rw [ih, leads_from_cons_iff, leaving_pending hnew, pending_insert, Std.TreeSet.mem_insert,
      Std.compare_eq_iff_eq]
    constructor
    · rintro ((rfl | h) | h)
      · exact Or.inr (Or.inl rfl)
      · exact Or.inl h
      · exact Or.inr (Or.inr h)
    · rintro (h | rfl | h)
      · exact Or.inl (Or.inr h)
      · exact Or.inl (Or.inl rfl)
      · exact Or.inr h

/-! ## Routines of entries -/

/-- Execution passes from one block to another by an edge that is no call. -/
def Passes (edges : List Edge) (x y : Address) : Prop :=
  ∃ e ∈ edges, e.kind ≠ .call ∧ e.source = x ∧ e.target = y

/-- Without the calls, edges join what execution passes between. -/
theorem joins_filter_iff :
    Edge.Joins (edges.filter fun e => e.kind != .call) x y ↔ Passes edges x y := by
  simp [Edge.Joins, Passes, and_assoc]

/-- A routine is that of an entry: its blocks stand by rising address, and they are those that
execution comes to from the entry without following calls. -/
structure Spans (edges : List Edge) (entry : Address) (r : Routine) : Prop where
  entered : r.entry = entry
  ascending : r.blocks.Pairwise (· < ·)
  mem_blocks_iff : ∀ a, a ∈ r.blocks ↔ Relation.ReflTransGen (Passes edges) entry a

/-- The routine of an entry spans what execution comes to from it without following calls. -/
theorem spans_of (edges : List Edge) (entry : Address) : Spans edges entry (of edges entry) where
  entered := rfl
  ascending := Std.TreeSet.ordered_toList.imp Std.compare_eq_lt.mp
  mem_blocks_iff a := by
    have hjoins : Edge.Joins (edges.filter fun e => e.kind != .call) = Passes edges :=
      funext fun x => funext fun y => propext joins_filter_iff
    rw [of, Std.TreeSet.mem_toList, mem_reach_iff, pending_empty, Leads, hjoins]
    simp

/-- There is one routine for each entry, in the order of the entries, with exactly the blocks that
are reached from it without following calls. -/
theorem routines_span_reachable (edges : List Edge) (entries : List Address) :
    List.Forall₂ (Spans edges) entries (entries.map (of edges)) := by
  rw [List.forall₂_map_right_iff, List.forall₂_same]
  exact fun entry _ => spans_of edges entry

end Routine

end DspCode
