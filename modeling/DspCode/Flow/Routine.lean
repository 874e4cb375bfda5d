import DspCode.Flow.Walk

/-!
# Routines

A routine is an entry with the blocks that execution can reach from it without following calls.
-/

namespace DspCode

/-- An entry and the blocks that belong to it. -/
structure Routine where
  /-- Where the routine is entered. -/
  entry : Address
  /-- The starts of its blocks, from the lowest on. -/
  blocks : List Address
  deriving DecidableEq, Repr

namespace Routine

/-- The edges that start at an address. -/
def leaving (edges : List Edge) (a : Address) : List Edge := edges.filter (·.source == a)

/-- The edges that start where the search has not been. -/
def pending (edges : List Edge) (seen : Std.TreeSet Address) : List Edge :=
  edges.filter fun e => !seen.contains e.source

/-- What is pending starts at a new address, or is pending after it too. -/
theorem length_leaving_add_length_pending (edges : List Edge) {seen : Std.TreeSet Address}
    {a : Address} (h : seen.contains a = false) :
    (leaving edges a).length + (pending edges (seen.insert a)).length =
      (pending edges seen).length := by
  induction edges with
  | nil => rfl
  | cons e edges ih =>
    have hinsert : (seen.insert a).contains e.source =
        (e.source == a || seen.contains e.source) := by
      rw [Std.TreeSet.contains_insert, Bool.eq_iff_iff]
      simp [@eq_comm _ a]
    simp only [leaving, pending, List.filter_cons, hinsert] at ih ⊢
    by_cases he : e.source = a
    · simp only [he, h, beq_self_eq_true, Bool.true_or, Bool.not_true, Bool.not_false, if_true,
        Bool.false_eq_true, if_false, List.length_cons]
      omega
    · simp only [beq_false_of_ne he, Bool.false_or, Bool.false_eq_true, if_false]
      split
      · simp only [List.length_cons]
        omega
      · exact ih

/-- Takes the addresses of the queue in turn. One that was seen is passed over; otherwise it is
added to `seen`, and the addresses that edges lead to from there go to the end of the queue. -/
def reach (edges : List Edge) (queue : List Address) (seen : Std.TreeSet Address) :
    Std.TreeSet Address :=
  match queue with
  | [] => seen
  | a :: rest =>
    if seen.contains a then reach edges rest seen
    else
      let targets := (leaving edges a).map Edge.target
      reach edges (rest ++ targets) (seen.insert a)
  termination_by (pending edges seen).length + queue.length
  decreasing_by
  · simp only [List.length_cons]
    omega
  · have := length_leaving_add_length_pending edges (Bool.eq_false_iff.mpr ‹_›)
    simp only [List.length_append, List.length_map, List.length_cons]
    omega

/-- The routine of an entry. -/
def of (edges : List Edge) (entry : Address) : Routine :=
  let jumps := edges.filter fun e => e.kind != .call
  ⟨entry, (reach jumps [entry] ∅).toList⟩

end Routine

end DspCode
