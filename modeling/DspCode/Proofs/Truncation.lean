import DspCode.Proofs.Blocks
import DspCode.Proofs.Reaching

/-!
# The limit of a walk

The limit says how many instructions a walk may visit. Walks from the same entries with two limits
take the same steps until the smaller one is reached, so what the first has found then is a stage of
the second. A walk never takes back what it has found. Main statement: the smaller limit only cuts
the walk short.
-/

namespace DspCode.Walk

/-- Everything that a walk has found, another one has found too. -/
structure Extends (w w' : Walk) : Prop where
  /-- The edges of the first were found first. -/
  edges : w.edges.toList <+: w'.edges.toList
  /-- What the first has visited is visited. -/
  visited : w.visited ⊆ w'.visited
  /-- Where the first stops, execution does not go on. -/
  stops : ∀ a, w.stops.contains a = true → w'.stops.contains a = true
  /-- The instructions that both have visited are of the same length. -/
  widths : ∀ a ∈ w.visited, w'.widths[a]? = w.widths[a]?

/-- A walk extends itself. -/
theorem Extends.refl (w : Walk) : w.Extends w :=
  ⟨List.prefix_refl _, fun _ h => h, fun _ h => h, fun _ _ => rfl⟩

/-- What extends an extension of a walk extends the walk. -/
theorem Extends.trans {u v w : Walk} (h : u.Extends v) (h' : v.Extends w) : u.Extends w where
  edges := h.edges.trans h'.edges
  visited _ ha := h'.visited (h.visited ha)
  stops a ha := h'.stops a (h.stops a ha)
  widths a ha := (h'.widths a (h.visited ha)).trans (h.widths a ha)

/-- A visit to a new address takes nothing back. -/
theorem extends_meet {w : Walk} {space : AddressSpace} {a : Address} {d : Decoded}
    (hnew : w.isVisited a = false) : w.Extends (w.meet space a d) where
  edges := edges_meet ▸ List.prefix_append _ _
  visited b hb := mem_visited_iff.mpr (isVisited_meet_iff.mpr (Or.inr (mem_visited_iff.mp hb)))
  stops b hb := stops_meet_iff.mpr (Or.inr hb)
  widths b hb := by
    rw [widths_meet, if_neg]
    rintro rfl
    rw [mem_visited_iff.mp hb] at hnew
    cases hnew

section Steps

variable {space : AddressSpace} {limit limit' : Nat} {w : Walk} {a : Address}
  {rest : List Address}

/-- A step takes nothing back. -/
theorem extends_of_advances {q : Walk × List Address} (h : Advances space limit w a rest q) :
    w.Extends q.1 := by
  cases h with
  | full => exact .refl w
  | again => exact .refl w
  | failed => exact .refl w
  | met room new decoded => exact extends_meet new

/-- A walk that has not reached the smaller limit takes the same step with either one. -/
theorem advance_congr_limit (hroom : w.widths.size < limit) (hle : limit ≤ limit')
    (queue : List Address) : advance space limit' (w, queue) = advance space limit (w, queue) := by
  have hroom' := Nat.lt_of_lt_of_le hroom hle
  cases queue with
  | nil => rfl
  | cons a rest =>
    simp only [advance, if_neg (Nat.not_le.mpr hroom), if_neg (Nat.not_le.mpr hroom')]

end Steps

section Stages

variable (settings : Settings) (space : AddressSpace) (entries : List Address)
  {limit limit' : Nat}

/-- Later stages extend earlier ones. -/
theorem extends_stage {n m : Nat} (hle : n ≤ m) :
    (stage settings space entries limit n).1.Extends (stage settings space entries limit m).1 := by
  induction hle with
  | refl => exact .refl _
  | @step m _ ih =>
    refine ih.trans ?_
    obtain ⟨w, hm, hnext⟩ | ⟨w, a, rest, hm, hadvances⟩ :=
      stage_cases settings space entries limit m
    · rw [hm, hnext]
      exact .refl w
    · rw [hm]
      exact extends_of_advances hadvances

/-- Each stage of the walk with the smaller limit is the stage of the other walk, or it has given up
its queue with what the other one had found at some stage. -/
theorem stage_eq_or_exists_stage (hle : limit ≤ limit') (n : Nat) :
    stage settings space entries limit n = stage settings space entries limit' n ∨
      ∃ m, stage settings space entries limit n =
        ((stage settings space entries limit' m).1, []) := by
  induction n with
  | zero => exact Or.inl rfl
  | succ n ih =>
    obtain heq | ⟨m, hm⟩ := ih
    · obtain ⟨w, hw, hnext⟩ | ⟨w, a, rest, hw, hadvances⟩ :=
        stage_cases settings space entries limit n
      · exact Or.inr ⟨n, by rw [hnext, ← heq, hw]⟩
      · by_cases hroom : w.widths.size < limit
        · left
          rw [stage_succ, stage_succ, ← heq, hw, advance_congr_limit hroom hle]
        · exact Or.inr ⟨n, by rw [stage_succ, ← heq, hw, advance, if_pos (Nat.not_lt.mp hroom)]⟩
    · exact Or.inr ⟨m, by rw [stage_succ, hm, advance]⟩

/-- What the walk with the smaller limit finds is what the other one has found at some stage. -/
theorem exists_stage_of_le (hle : limit ≤ limit') :
    ∃ m, Walk.of settings space entries limit = (stage settings space entries limit' m).1 := by
  obtain ⟨n, hn⟩ := exists_stage_eq_of settings space entries limit
  obtain heq | ⟨m, hm⟩ := stage_eq_or_exists_stage settings space entries hle n
  · exact ⟨n, by rw [← heq, hn]⟩
  · rw [hn] at hm
    exact ⟨m, congrArg Prod.fst hm⟩

/-- A smaller limit only cuts a walk short: its edges are the first ones found with the larger
limit, and what it visits, where it stops and the lengths it finds are found there too. -/
theorem extends_of_le_limit (hle : limit ≤ limit') :
    (Walk.of settings space entries limit).Extends (Walk.of settings space entries limit') := by
  obtain ⟨m, hm⟩ := exists_stage_of_le settings space entries hle
  obtain ⟨n, hn⟩ := exists_stage_eq_of settings space entries limit'
  have hlast : (stage settings space entries limit' (max m n)).1 =
      Walk.of settings space entries limit' :=
    congrArg Prod.fst (stage_of_le hn (Nat.le_max_right m n))
  rw [hm, ← hlast]
  exact extends_stage settings space entries (Nat.le_max_left m n)

end Stages

/-- With room for one instruction, the walk from a conditional branch finds its two edges, which are
the first two of the three that are found with more room. -/
theorem extends_of_le_limit_branchOverNop :
    let w := Walk.of {} branchOverNop.space [0] 1
    let w' := Walk.of {} branchOverNop.space [0] 100
    1 ≤ 100 ∧ w.visited = [0] ∧ w'.visited = [0, 3, 4] ∧
      w.edges.toList = [⟨0, 4, .conditional⟩, ⟨0, 3, .fallThrough⟩] ∧
      w'.edges.toList = [⟨0, 4, .conditional⟩, ⟨0, 3, .fallThrough⟩, ⟨3, 4, .fallThrough⟩] ∧
      w.Extends w' := by
  have hfirst : (stage {} branchOverNop.space [0] 1 2).2 = [] ∧
      (stage {} branchOverNop.space [0] 1 2).1.visited = [0] ∧
      (stage {} branchOverNop.space [0] 1 2).1.edges.toList =
        [⟨0, 4, .conditional⟩, ⟨0, 3, .fallThrough⟩] := by
    decide +kernel
  obtain ⟨hempty, hvisited, hedges⟩ := hfirst
  rw [stage_eq_of hempty] at hvisited hedges
  obtain ⟨hempty', hvisited', hedges', -⟩ := stage_branchOverNop
  rw [stage_eq_of hempty'] at hvisited' hedges'
  exact ⟨by decide, hvisited, hvisited', hedges, hedges',
    extends_of_le_limit {} branchOverNop.space [0] (by decide)⟩

end DspCode.Walk
