import DspCode.Proofs.Walking

/-!
# The stages of a walk

A walk takes one address after the other from its queue, until the queue is empty. What it has found
and what is left of the queue after each of these steps are its stages. What a step can do is said
once, and every fact about a stage follows from it by induction.
-/

namespace DspCode.Walk

/-- The walk after the instruction at an address was decoded and visited. -/
def meet (w : Walk) (space : AddressSpace) (a : Address) (d : Decoded) : Walk :=
  ({ w with known := w.known.learn d.update } : Walk).visit space a d.insn

/-- The addresses that are added to the queue when the instruction at an address is visited. -/
def foundAt (w : Walk) (space : AddressSpace) (a : Address) (d : Decoded) : List Address :=
  ({ w with known := w.known.learn d.update } : Walk).found space a d.insn

/-- What a step does with the first address of a queue. -/
inductive Advances (space : AddressSpace) (limit : Nat) (w : Walk) (a : Address)
    (rest : List Address) : Walk × List Address → Prop where
  /-- The limit is reached, and the queue is given up. -/
  | full (full : limit ≤ w.widths.size) : Advances space limit w a rest (w, [])
  /-- The address has been visited before. -/
  | again (room : w.widths.size < limit) (visited : w.isVisited a = true) :
      Advances space limit w a rest (w, rest)
  /-- There is no instruction. -/
  | failed {e : DecodeError} (room : w.widths.size < limit) (new : w.isVisited a = false)
      (decoded : Machine.c55x.decode space w.known a = .error e) :
      Advances space limit w a rest (w, rest)
  /-- The instruction is visited. -/
  | met {d : Decoded} (room : w.widths.size < limit) (new : w.isVisited a = false)
      (decoded : Machine.c55x.decode space w.known a = .ok d) :
      Advances space limit w a rest (w.meet space a d, rest ++ w.foundAt space a d)

/-- A step does one of these four things. -/
theorem advances (space : AddressSpace) (limit : Nat) (w : Walk) (a : Address)
    (rest : List Address) :
    Advances space limit w a rest (advance space limit (w, a :: rest)) := by
  by_cases hfull : limit ≤ w.widths.size
  · rw [advance, if_pos hfull]
    exact .full hfull
  have hroom := Nat.not_le.mp hfull
  by_cases hv : w.isVisited a = true
  · rw [advance, if_neg hfull, if_pos hv]
    exact .again hroom hv
  have hnew := Bool.eq_false_iff.mpr hv
  rw [advance, if_neg hfull, if_neg hv]
  cases hd : Machine.c55x.decode space w.known a with
  | error e =>
    rw [Machine.decodeAndRecord_of_error hd]
    exact .failed hroom hnew hd
  | ok d =>
    rw [Machine.decodeAndRecord_of_ok hd]
    exact .met hroom hnew hd

/-! ## What a visit adds -/

section Meet

variable {w : Walk} {space : AddressSpace} {a b : Address} {d : Decoded}

/-- The effects of an instruction that a walk comes to. -/
def effectsOf (w : Walk) (d : Decoded) : Effects :=
  .of d.insn (usageOf Form.mnemonics d.insn.kind) w.known.context

/-- A visit gives its own address the width of the instruction. -/
theorem widths_meet :
    (w.meet space a d).widths[b]? = if a = b then some d.insn.length else w.widths[b]? := by
  simp only [meet, visit, Std.TreeMap.getElem?_insert, Std.compare_eq_iff_eq]

/-- After a visit, the visited addresses are that one and those from before. -/
theorem isVisited_meet_iff :
    (w.meet space a d).isVisited b = true ↔ a = b ∨ w.isVisited b = true := by
  simp only [isVisited, meet, visit, Std.TreeMap.contains_insert, Bool.or_eq_true, beq_iff_eq,
    Std.compare_eq_iff_eq]

/-- A visit of a new address adds one width. -/
theorem size_meet (hnew : w.isVisited a = false) :
    (w.meet space a d).widths.size = w.widths.size + 1 :=
  size_visit { w with known := w.known.learn d.update } space a d.insn (Bool.eq_false_iff.mp hnew)

/-- A visit adds the edges of its instruction behind those from before. -/
theorem edges_meet :
    (w.meet space a d).edges.toList = w.edges.toList ++ edgesOf space a d.insn (w.effectsOf d) := by
  simp only [meet, visit, effectsOf, Knowledge.context_learn, Array.toList_appendList]

/-- A visit adds its address to the stops if execution does not flow on from there. -/
theorem stops_meet_iff :
    (w.meet space a d).stops.contains b = true ↔
      ((w.effectsOf d).flows = false ∧ a = b) ∨ w.stops.contains b = true := by
  simp only [meet, visit, effectsOf, Knowledge.context_learn]
  split
  next hflows => simp [hflows]
  next hflows => simp [Bool.eq_false_iff.mpr hflows, Std.TreeSet.contains_insert]

/-- A visit adds to the queue those targets of its edges that are mapped and not visited. -/
theorem mem_foundAt_iff :
    b ∈ w.foundAt space a d ↔ (∃ e ∈ edgesOf space a d.insn (w.effectsOf d), e.target = b) ∧
      space.isMapped b = true ∧ (w.meet space a d).isVisited b = false := by
  simp only [foundAt, found, List.mem_filter, List.mem_map, Bool.and_eq_true, Bool.not_eq_true',
    effectsOf, Knowledge.context_learn]
  rfl

end Meet

/-! ## Stages -/

/-- The walk and its queue before the first step. -/
def start (settings : Settings) (space : AddressSpace) (entries : List Address) :
    Walk × List Address :=
  ({ known := settings.knowledge }, entries.filter space.isMapped)

/-- The walk and what is left of its queue after a number of steps. -/
def stage (settings : Settings) (space : AddressSpace) (entries : List Address) (limit n : Nat) :
    Walk × List Address :=
  Nat.repeat (advance space limit) n (start settings space entries)

private theorem repeat_advance (space : AddressSpace) (limit n : Nat) (p : Walk × List Address) :
    Nat.repeat (advance space limit) (n + 1) p =
      Nat.repeat (advance space limit) n (advance space limit p) := by
  induction n with
  | zero => rfl
  | succ n ih => exact congrArg (advance space limit) ih

/-- Steps empty every queue: each one visits an instruction or shortens the queue. -/
theorem exists_repeat_empty (space : AddressSpace) (limit : Nat) (w : Walk)
    (queue : List Address) : ∃ n, (Nat.repeat (advance space limit) n (w, queue)).2 = [] := by
  fun_induction follow space limit w queue with
  | case1 w => exact ⟨0, rfl⟩
  | case2 w a rest hfull => exact ⟨1, by simp only [Nat.repeat, advance, if_pos hfull]⟩
  | case3 w a rest hroom hv ih =>
    obtain ⟨n, hn⟩ := ih
    refine ⟨n + 1, ?_⟩
    rw [repeat_advance, advance, if_neg hroom, if_pos hv]
    exact hn
  | case4 w a rest hroom hv e known hd ih =>
    obtain ⟨n, hn⟩ := ih
    refine ⟨n + 1, ?_⟩
    rw [repeat_advance, advance, if_neg hroom, if_neg hv, hd]
    exact hn
  | case5 w a rest hroom hv insn known hd _ ih =>
    obtain ⟨n, hn⟩ := ih
    refine ⟨n + 1, ?_⟩
    rw [repeat_advance, advance, if_neg hroom, if_neg hv, hd]
    exact hn

section Stages

variable {settings : Settings} {space : AddressSpace} {entries : List Address} {limit : Nat}

/-- The next stage is one step further. -/
theorem stage_succ (n : Nat) :
    stage settings space entries limit (n + 1) =
      advance space limit (stage settings space entries limit n) := rfl

/-- A stage with an empty queue has found the whole walk. -/
theorem stage_eq_of {n : Nat} (hn : (stage settings space entries limit n).2 = []) :
    stage settings space entries limit n = (Walk.of settings space entries limit, []) :=
  Prod.ext (follow_eq_of_repeat hn).symm hn

/-- A walk ends: some stage has an empty queue. -/
theorem exists_stage_eq_of (settings : Settings) (space : AddressSpace) (entries : List Address)
    (limit : Nat) :
    ∃ n, stage settings space entries limit n = (Walk.of settings space entries limit, []) := by
  obtain ⟨n, hn⟩ := exists_repeat_empty space limit { known := settings.knowledge }
    (entries.filter space.isMapped)
  exact ⟨n, stage_eq_of hn⟩

/-- From one stage to the next the queue was empty, or a step was taken. -/
theorem stage_cases (settings : Settings) (space : AddressSpace) (entries : List Address)
    (limit n : Nat) :
    (∃ w, stage settings space entries limit n = (w, []) ∧
      stage settings space entries limit (n + 1) = (w, [])) ∨
    ∃ w a rest, stage settings space entries limit n = (w, a :: rest) ∧
      Advances space limit w a rest (stage settings space entries limit (n + 1)) := by
  rw [stage_succ]
  obtain ⟨w, queue⟩ := stage settings space entries limit n
  cases queue with
  | nil => exact Or.inl ⟨w, rfl, rfl⟩
  | cons a rest => exact Or.inr ⟨w, a, rest, rfl, advances space limit w a rest⟩

/-- What holds at the start and is kept by every step holds at each stage. -/
theorem stage_invariant {I : Walk → List Address → Prop}
    (hstart : I { known := settings.knowledge } (entries.filter space.isMapped))
    (hstep : ∀ {w a rest q}, I w (a :: rest) → Advances space limit w a rest q → I q.1 q.2)
    (n : Nat) :
    I (stage settings space entries limit n).1 (stage settings space entries limit n).2 := by
  induction n with
  | zero => exact hstart
  | succ n ih =>
    obtain ⟨w, hn, hnext⟩ | ⟨w, a, rest, hn, hadvances⟩ :=
      stage_cases settings space entries limit n
    · rw [hn] at ih
      rw [hnext]
      exact ih
    · rw [hn] at ih
      exact hstep ih hadvances

/-- An empty queue stays empty. -/
theorem stage_of_le {n m : Nat} {w : Walk} (hn : stage settings space entries limit n = (w, []))
    (hle : n ≤ m) : stage settings space entries limit m = (w, []) := by
  induction hle with
  | refl => exact hn
  | step _ ih => rw [stage_succ, ih, advance]

end Stages

end DspCode.Walk
