import DspCode.Proofs.Stages

/-!
# What a walk reaches

A walk visits at most as many instructions as its limit allows. It visits nothing but its mapped
entries and what its edges lead to, and each visited instruction has the fall-through edge that it
should have. Main statement: a walk that ends before its limit leaves out only what it has taken
from its queue and could not decode.
-/

namespace DspCode.Walk

/-- The fall-through edges that start at an address. -/
def fallThroughs (w : Walk) (a : Address) : List Edge :=
  w.edges.toList.filter fun e => e.source == a && e.kind == .fallThrough

/-- How execution leaves the visited instruction of `n` bytes at an address. -/
inductive Exit (space : AddressSpace) (w : Walk) (a : Address) (n : Nat) : Prop where
  /-- It does not go on with the next instruction. -/
  | stopped (stop : w.stops.contains a = true) (none : w.fallThroughs a = [])
  /-- It falls through to the next address. -/
  | passes (noStop : w.stops.contains a = false)
      (mapped : space.isMapped (a + UInt32.ofNat n) = true)
      (one : w.fallThroughs a = [⟨a, a + UInt32.ofNat n, .fallThrough⟩])
  /-- It would go on where nothing is mapped. -/
  | runsOut (noStop : w.stops.contains a = false)
      (unmapped : space.isMapped (a + UInt32.ofNat n) = false) (none : w.fallThroughs a = [])

/-- A walk has a reason to come to an address: it is mapped, and an entry or the target of an
edge. -/
structure Called (space : AddressSpace) (entries : List Address) (w : Walk) (a : Address) :
    Prop where
  mapped : space.isMapped a = true
  origin : a ∈ entries ∨ ∃ e ∈ w.edges.toList, e.target = a

/-! ## Edges of one instruction -/

section Edges

variable {space : AddressSpace} {a : Address}

/-- What an instruction refers to is never reached by falling through. -/
theorem kind_referenceEdge_ne (effects : Effects) (r : Reference) :
    (referenceEdge a effects r).kind ≠ .fallThrough := by
  unfold referenceEdge
  cases r.kind
  case call => exact EdgeKind.noConfusion
  all_goals
    cases effects.flows <;> exact EdgeKind.noConfusion

/-- An instruction has a fall-through edge if execution may go on and there is a byte. -/
theorem filter_edgesOf (insn : Instruction) (effects : Effects) :
    ((edgesOf space a insn effects).filter fun e => e.source == a && e.kind == .fallThrough) =
      if effects.flows && space.isMapped insn.limit then [⟨a, insn.limit, .fallThrough⟩]
      else [] := by
  have hreferences : ((effects.codeReferences.map (referenceEdge a effects)).filter fun e =>
      e.source == a && e.kind == .fallThrough) = [] := by
    refine List.filter_eq_nil_iff.mpr fun e he => ?_
    obtain ⟨r, -, rfl⟩ := List.mem_map.mp he
    simp [kind_referenceEdge_ne effects r]
  rw [edgesOf, List.filter_append, hreferences, List.nil_append]
  split <;> simp

end Edges

/-! ## What every step keeps -/

/-- What the walk and its queue keep at every stage. -/
structure Linked (space : AddressSpace) (entries : List Address) (limit : Nat) (w : Walk)
    (queue : List Address) : Prop where
  sound : w.Sound space
  bounded : w.widths.size ≤ limit
  stops : ∀ a, w.stops.contains a = true → w.isVisited a = true
  called : ∀ a, w.isVisited a = true ∨ a ∈ queue → w.Called space entries a
  exits : ∀ a n, w.widths[a]? = some n → w.Exit space a n

section Linked

variable {space : AddressSpace} {entries : List Address} {limit : Nat} {w : Walk} {a b : Address}
  {queue rest : List Address} {d : Decoded}

/-- A reason to come to an address stays one when more is visited. -/
theorem Called.meet (h : w.Called space entries b) : (w.meet space a d).Called space entries b := by
  refine ⟨h.mapped, h.origin.imp_right ?_⟩
  rintro ⟨e, he, rfl⟩
  rw [edges_meet]
  exact ⟨e, List.mem_append_left _ he, rfl⟩

/-- The addresses that a visit adds to the queue are targets of its edges. -/
theorem called_of_mem_foundAt (h : b ∈ w.foundAt space a d) :
    (w.meet space a d).Called space entries b := by
  obtain ⟨⟨e, he, rfl⟩, hmapped, -⟩ := mem_foundAt_iff.mp h
  refine ⟨hmapped, Or.inr ⟨e, ?_, rfl⟩⟩
  rw [edges_meet]
  exact List.mem_append_right _ he

/-- A walk stays sound when an instruction it decodes is visited. -/
theorem Sound.meet (h : w.Sound space) (hd : Machine.c55x.decode space w.known a = .ok d) :
    (w.meet space a d).Sound space :=
  h.visit (Machine.decodeAndRecord_of_ok hd)

/-- A visit adds the fall-through edges of its own instruction only. -/
theorem fallThroughs_meet :
    (w.meet space a d).fallThroughs b = w.fallThroughs b ++
      (edgesOf space a d.insn (w.effectsOf d)).filter fun e =>
        e.source == b && e.kind == .fallThrough := by
  rw [fallThroughs, edges_meet, List.filter_append, fallThroughs]

/-- Only the new instruction gets new edges. -/
theorem fallThroughs_meet_of_ne (hab : a ≠ b) :
    (w.meet space a d).fallThroughs b = w.fallThroughs b := by
  have hnew : ((edgesOf space a d.insn (w.effectsOf d)).filter fun e =>
      e.source == b && e.kind == .fallThrough) = [] := by
    refine List.filter_eq_nil_iff.mpr fun e he => ?_
    simp [source_of_mem_edgesOf he, hab]
  rw [fallThroughs_meet, hnew, List.append_nil]

/-- The new instruction had no edges before. -/
theorem fallThroughs_meet_self (h : w.Sound space) (hnew : w.isVisited a = false) :
    (w.meet space a d).fallThroughs a =
      if (w.effectsOf d).flows && space.isMapped d.insn.limit then
        [⟨a, d.insn.limit, .fallThrough⟩]
      else [] := by
  have hold : w.fallThroughs a = [] := by
    refine List.filter_eq_nil_iff.mpr fun e he hsource => ?_
    obtain ⟨hsource, -⟩ := Bool.and_eq_true_iff.mp hsource
    have hv := h.sources e he
    rw [beq_iff_eq.mp hsource, hnew] at hv
    cases hv
  rw [fallThroughs_meet, hold, filter_edgesOf, List.nil_append]

private theorem stops_meet_of_ne (hab : a ≠ b) :
    (w.meet space a d).stops.contains b = w.stops.contains b := by
  rw [Bool.eq_iff_iff, stops_meet_iff]
  simp [hab]

/-- How execution leaves an instruction stays the same when another one is visited. -/
theorem Exit.meet {n : Nat} (h : w.Exit space b n) (hab : a ≠ b) :
    (w.meet space a d).Exit space b n := by
  have hstops : (w.meet space a d).stops.contains b = w.stops.contains b := stops_meet_of_ne hab
  have hedges : (w.meet space a d).fallThroughs b = w.fallThroughs b := fallThroughs_meet_of_ne hab
  cases h with
  | stopped stop none => exact .stopped (hstops.trans stop) (hedges.trans none)
  | passes noStop mapped one => exact .passes (hstops.trans noStop) mapped (hedges.trans one)
  | runsOut noStop unmapped none =>
    exact .runsOut (hstops.trans noStop) unmapped (hedges.trans none)

/-- The new instruction has the fall-through edge that it should have. -/
theorem Linked.exit_meet (h : w.Linked space entries limit queue) (hnew : w.isVisited a = false)
    (hd : Machine.c55x.decode space w.known a = .ok d) :
    (w.meet space a d).Exit space a d.insn.length := by
  have hedges := fallThroughs_meet_self (d := d) h.sound hnew
  have hlimit : d.insn.limit = a + UInt32.ofNat d.insn.length := by
    rw [Instruction.limit, (Machine.decode_eq_ok_iff.mp hd).address_eq]
  have hstops : (w.meet space a d).stops.contains a = !(w.effectsOf d).flows := by
    have hold : w.stops.contains a = false :=
      Bool.eq_false_iff.mpr fun hs => Bool.eq_false_iff.mp hnew (h.stops a hs)
    rw [Bool.eq_iff_iff, stops_meet_iff, hold]
    simp
  rw [hlimit] at hedges
  cases hflows : (w.effectsOf d).flows with
  | false =>
    rw [hflows] at hstops hedges
    exact .stopped hstops hedges
  | true =>
    rw [hflows, Bool.true_and] at hedges
    rw [hflows] at hstops
    cases hmapped : space.isMapped (a + UInt32.ofNat d.insn.length) with
    | false =>
      rw [hmapped] at hedges
      exact .runsOut hstops hmapped hedges
    | true =>
      rw [hmapped] at hedges
      exact .passes hstops hmapped hedges

/-- A visit keeps the walk and its queue linked. -/
theorem Linked.meet (h : w.Linked space entries limit (a :: rest)) (hroom : w.widths.size < limit)
    (hnew : w.isVisited a = false) (hd : Machine.c55x.decode space w.known a = .ok d) :
    (w.meet space a d).Linked space entries limit (rest ++ w.foundAt space a d) := by
  constructor
  case sound => exact h.sound.meet hd
  case bounded =>
    rw [size_meet hnew]
    exact hroom
  case stops =>
    intro b hb
    rw [isVisited_meet_iff]
    obtain ⟨-, hab⟩ | hb := stops_meet_iff.mp hb
    · exact Or.inl hab
    · exact Or.inr (h.stops b hb)
  case called =>
    rintro b (hb | hb)
    · obtain rfl | hb := isVisited_meet_iff.mp hb
      · exact (h.called a (Or.inr List.mem_cons_self)).meet
      · exact (h.called b (Or.inl hb)).meet
    · obtain hb | hb := List.mem_append.mp hb
      · exact (h.called b (Or.inr (List.mem_cons_of_mem a hb))).meet
      · exact called_of_mem_foundAt hb
  case exits =>
    intro b n hn
    rw [widths_meet] at hn
    split at hn
    next hab =>
      cases hab
      cases hn
      exact h.exit_meet hnew hd
    next hab => exact (h.exits b n hn).meet hab

/-- Fewer addresses in the queue need fewer reasons. -/
theorem Linked.shorten {queue' : List Address} (h : w.Linked space entries limit queue)
    (hsub : ∀ b ∈ queue', b ∈ queue) : w.Linked space entries limit queue' :=
  { h with called := fun b hb => h.called b (hb.imp_right (hsub b)) }

/-- Every step keeps a walk linked to its queue. -/
theorem Linked.advance {q : Walk × List Address} (h : w.Linked space entries limit (a :: rest))
    (hstep : Advances space limit w a rest q) : q.1.Linked space entries limit q.2 := by
  cases hstep with
  | full => exact h.shorten fun b hb => absurd hb List.not_mem_nil
  | again => exact h.shorten fun b hb => List.mem_cons_of_mem a hb
  | failed => exact h.shorten fun b hb => List.mem_cons_of_mem a hb
  | met room new decoded => exact h.meet room new decoded

/-- A walk that has visited nothing yet is linked to its queue of entries. -/
theorem linked_start (settings : Settings) (space : AddressSpace) (entries : List Address)
    (limit : Nat) :
    Linked space entries limit { known := settings.knowledge } (entries.filter space.isMapped) := by
  constructor
  case sound => exact ⟨by simp, by simp⟩
  case bounded => simp
  case stops => simp
  case called =>
    rintro b (hb | hb)
    · simp [isVisited] at hb
    · obtain ⟨hentry, hmapped⟩ := List.mem_filter.mp hb
      exact ⟨hmapped, Or.inl hentry⟩
  case exits => simp

end Linked

/-! ## What is left out -/

/-- The address that a walk takes from its queue at a stage. -/
def Takes (p : Walk × List Address) (b : Address) : Prop := p.2.head? = some b

/-- Before stage `n`, an address was taken from the queue and failed to decode the last time it was
taken. -/
def FailedLast (settings : Settings) (space : AddressSpace) (entries : List Address)
    (limit n : Nat) (b : Address) : Prop :=
  ∃ m < n, ∃ e, Takes (stage settings space entries limit m) b ∧
    Machine.c55x.decode space (stage settings space entries limit m).1.known b = .error e ∧
    ∀ l < n, m < l → ¬Takes (stage settings space entries limit l) b

section Pending

variable {settings : Settings} {space : AddressSpace} {entries : List Address} {limit n : Nat}
  {w : Walk} {a b : Address} {rest : List Address}

/-- What a step leaves neither visited nor in the queue was left out before, or has just failed to
decode. -/
theorem Advances.visited_or_queued {q : Walk × List Address}
    (hstep : Advances space limit w a rest q) (hroom : q.1.widths.size < limit)
    (hb : q.1.Called space entries b) :
    q.1.isVisited b = true ∨ b ∈ q.2 ∨
      w.widths.size < limit ∧ w.Called space entries b ∧ w.isVisited b = false ∧ b ∉ rest ∧
        (a = b → ∃ e, Machine.c55x.decode space w.known b = .error e) := by
  cases hv : q.1.isVisited b with
  | true => exact Or.inl rfl
  | false =>
    by_cases hqueue : b ∈ q.2
    · exact Or.inr (Or.inl hqueue)
    refine Or.inr (Or.inr ?_)
    cases hstep with
    | full hfull => exact absurd hroom (Nat.not_lt.mpr hfull)
    | again hsize hagain =>
      refine ⟨hsize, hb, hv, hqueue, ?_⟩
      rintro rfl
      cases hagain.symm.trans hv
    | failed hsize _ hd =>
      refine ⟨hsize, hb, hv, hqueue, ?_⟩
      rintro rfl
      exact ⟨_, hd⟩
    | @met d hsize =>
      have hnot := (not_congr isVisited_meet_iff).mp (Bool.eq_false_iff.mp hv)
      refine ⟨hsize, ⟨hb.mapped, hb.origin.imp_right ?_⟩,
        Bool.eq_false_iff.mpr fun h => hnot (Or.inr h),
        fun h => hqueue (List.mem_append_left _ h), fun h => absurd (Or.inl h) hnot⟩
      rintro ⟨e, he, rfl⟩
      rw [edges_meet] at he
      obtain he | he := List.mem_append.mp he
      · exact ⟨e, he, rfl⟩
      · -- the target of a new edge would be in the queue
        have hfound := mem_foundAt_iff.mpr ⟨⟨e, he, rfl⟩, hb.mapped, hv⟩
        exact absurd (List.mem_append_right rest hfound) hqueue

private theorem FailedLast.succ (h : FailedLast settings space entries limit n b)
    (hn : ¬Takes (stage settings space entries limit n) b) :
    FailedLast settings space entries limit (n + 1) b := by
  obtain ⟨m, hm, e, htakes, hd, hlast⟩ := h
  refine ⟨m, Nat.lt_succ_of_lt hm, e, htakes, hd, fun l hl hml => ?_⟩
  obtain hl | rfl := Nat.lt_succ_iff_lt_or_eq.mp hl
  · exact hlast l hl hml
  · exact hn

private theorem failedLast_succ {e : DecodeError}
    (hn : stage settings space entries limit n = (w, a :: rest))
    (hd : Machine.c55x.decode space w.known a = .error e) :
    FailedLast settings space entries limit (n + 1) a := by
  refine ⟨n, Nat.lt_succ_self n, e, ?_, ?_, fun l hl hnl => absurd hl (Nat.not_lt.mpr hnl)⟩
  · rw [hn]
    rfl
  · rw [hn]
    exact hd

/-- While there is room, every address that a walk has a reason to come to is visited, waits in the
queue, or failed to decode the last time it was taken. -/
theorem visited_or_queued_or_failedLast (settings : Settings) (space : AddressSpace)
    (entries : List Address) (limit n : Nat) (b : Address)
    (hroom : (stage settings space entries limit n).1.widths.size < limit)
    (hb : (stage settings space entries limit n).1.Called space entries b) :
    (stage settings space entries limit n).1.isVisited b = true ∨
      b ∈ (stage settings space entries limit n).2 ∨
      FailedLast settings space entries limit n b := by
  induction n with
  | zero =>
    obtain hentry | ⟨e, he, -⟩ := hb.origin
    · exact Or.inr (Or.inl (List.mem_filter.mpr ⟨hentry, hb.mapped⟩))
    · cases he
  | succ n ih =>
    obtain ⟨w, hn, hnext⟩ | ⟨w, a, rest, hn, hstep⟩ :=
      stage_cases settings space entries limit n
    · rw [hnext] at hroom hb ⊢
      rw [hn] at ih
      refine (ih hroom hb).imp_right (Or.imp_right fun hfailed => hfailed.succ ?_)
      rw [hn]
      exact nofun
    · refine (hstep.visited_or_queued hroom hb).imp_right (Or.imp_right ?_)
      rintro ⟨hsize, hcalled, hv, hrest, hfails⟩
      by_cases hab : a = b
      · obtain ⟨e, hd⟩ := hfails hab
        exact failedLast_succ (hab ▸ hn) hd
      · rw [hn] at ih
        obtain hv' | hqueue | hfailed := ih hsize hcalled
        · cases hv.symm.trans hv'
        · exact absurd hqueue (by simp [Ne.symm hab, hrest])
        · refine hfailed.succ ?_
          rw [hn]
          exact fun htakes => hab (Option.some.inj htakes)

end Pending

/-- The result of a walk from the given entries. -/
structure Complete (settings : Settings) (space : AddressSpace) (entries : List Address)
    (limit : Nat) (w : Walk) : Prop where
  /-- The steps of the walk empty its queue. -/
  ends : ∃ n, stage settings space entries limit n = (w, [])
  /-- There are at most as many visited instructions as allowed. -/
  bounded : w.visited.length ≤ limit
  /-- The visited instructions are those with a length. -/
  lengths : ∀ a, a ∈ w.visited ↔ ∃ n, w.widths[a]? = some n
  /-- Execution stops at visited instructions. -/
  stops : ∀ a, w.stops.contains a = true → a ∈ w.visited
  /-- Edges start at visited instructions. -/
  sources : ∀ e ∈ w.edges.toList, e.source ∈ w.visited
  /-- Visited instructions are mapped entries or targets of edges. -/
  called : ∀ a ∈ w.visited, w.Called space entries a
  /-- Each visited instruction stops, falls through to the next address by one edge, or runs out of
  the mapped addresses. -/
  exits : ∀ a n, w.widths[a]? = some n → w.Exit space a n
  /-- Below the limit, what is left out was taken from the queue and failed to decode the last time
  it was taken. -/
  closed : w.visited.length < limit → ∀ b, w.Called space entries b → b ∉ w.visited →
    ∃ m e, Takes (stage settings space entries limit m) b ∧
      Machine.c55x.decode space (stage settings space entries limit m).1.known b = .error e ∧
      ∀ l, m < l → ¬Takes (stage settings space entries limit l) b

/-- The visited addresses are listed. -/
theorem mem_visited_iff {w : Walk} {a : Address} : a ∈ w.visited ↔ w.isVisited a = true := by
  rw [visited, isVisited, Std.TreeMap.mem_keys, Std.TreeMap.contains_iff_mem]

/-- As many addresses are listed as have a width. -/
theorem length_visited (w : Walk) : w.visited.length = w.widths.size :=
  Std.TreeMap.length_keys

/-- Every walk ends, is sound and is closed, up to what failed to decode. -/
theorem complete_of (settings : Settings) (space : AddressSpace) (entries : List Address)
    (limit : Nat) :
    (Walk.of settings space entries limit).Complete settings space entries limit := by
  obtain ⟨n, hn⟩ := exists_stage_eq_of settings space entries limit
  have hlinked := stage_invariant (I := Linked space entries limit)
    (linked_start settings space entries limit) Linked.advance n
  rw [hn] at hlinked
  refine {
    ends := ⟨n, hn⟩
    bounded := (length_visited _).symm ▸ hlinked.bounded
    lengths := fun a => mem_visited_iff.trans isVisited_iff
    stops := fun a ha => mem_visited_iff.mpr (hlinked.stops a ha)
    sources := fun e he => mem_visited_iff.mpr (hlinked.sound.sources e he)
    called := fun a ha => hlinked.called a (Or.inl (mem_visited_iff.mp ha))
    exits := hlinked.exits
    closed := ?_ }
  intro hroom b hb hnot
  have hcases : b ∈ (Walk.of settings space entries limit).visited ∨ b ∈ [] ∨
      FailedLast settings space entries limit n b := by
    have hstage := visited_or_queued_or_failedLast settings space entries limit n b
    rw [hn] at hstage
    exact (hstage (length_visited _ ▸ hroom) hb).imp_left mem_visited_iff.mpr
  obtain hv | hqueue | ⟨m, hm, e, htakes, hd, hlast⟩ := hcases
  · exact absurd hv hnot
  · exact absurd hqueue List.not_mem_nil
  · refine ⟨m, e, htakes, hd, fun l hml => ?_⟩
    by_cases hl : l < n
    · exact hlast l hl hml
    · -- from here on the queue is empty
      rw [stage_of_le hn (Nat.not_lt.mp hl)]
      exact nofun

end DspCode.Walk
