import DspCode.Context

/-!
# What a register context holds

A context keeps, for each register, the value last written at each address. What a register holds at
an address is the value written at the highest address not above it, and its default if there is
none. A context is therefore known by what was written where: a write changes this at one address of
one register, and two contexts that agree on it from some written address on hold the same values.
-/

namespace DspCode

namespace Timeline

variable (t : Timeline) {a x y : Address} {value : Option UInt32}

private theorem mem_of_writtenAt? (h : t.writtenAt? x = some value) : (x, value) ∈ t.entries := by
  obtain ⟨⟨z, v⟩, he, rfl⟩ := Option.map_eq_some_iff.mp h
  have hz : z = x := by simpa using List.find?_some he
  exact hz ▸ List.mem_of_find?_eq_some he

/-- Nothing was written at an address that no entry is about. -/
theorem writtenAt?_eq_none_iff : t.writtenAt? x = none ↔ ∀ e ∈ t.entries, e.1 ≠ x := by
  simp [writtenAt?]

/-- An entry is what was written at its address. -/
theorem writtenAt?_of_mem (h : (x, value) ∈ t.entries) : t.writtenAt? x = some value := by
  have hunique : ∀ {l : List (Address × Option UInt32)}, l.Pairwise (fun e e' => e'.1 < e.1) →
      ∀ {v w}, (x, v) ∈ l → (x, w) ∈ l → v = w := by
    intro l hl v w hv hw
    induction hl with
    | nil => cases hv
    | cons hfirst _ ih =>
      rcases List.mem_cons.mp hv with rfl | hv'
      · rcases List.mem_cons.mp hw with heq | hw'
        · exact (congrArg Prod.snd heq).symm
        · exact absurd (hfirst _ hw') (UInt32.lt_irrefl _)
      · rcases List.mem_cons.mp hw with rfl | hw'
        · exact absurd (hfirst _ hv') (UInt32.lt_irrefl _)
        · exact ih hv' hw'
  cases hw : t.writtenAt? x with
  | none => exact absurd rfl (t.writtenAt?_eq_none_iff.mp hw _ h)
  | some v => rw [hunique t.falling (t.mem_of_writtenAt? hw) h]

/-- What holds at an address was written at the highest address not above it, if there is one. -/
theorem at?_cases (t : Timeline) (a : Address) :
    (∃ x value, x ≤ a ∧ t.writtenAt? x = some value ∧
      (∀ y, x < y → y ≤ a → t.writtenAt? y = none) ∧ t.at? a = some value) ∨
    (∀ y ≤ a, t.writtenAt? y = none) ∧ t.at? a = none := by
  unfold at?
  cases hfind : t.entries.find? (·.1 ≤ a) with
  | none =>
    refine Or.inr ⟨fun y hy => t.writtenAt?_eq_none_iff.mpr fun e he heq => ?_, rfl⟩
    have := List.find?_eq_none.mp hfind e he
    simp [heq, hy] at this
  | some e =>
    obtain ⟨hle, before, after, hsplit, hbefore⟩ := List.find?_eq_some_iff_append.mp hfind
    have hmem : (e.1, e.2) ∈ t.entries := by simp [hsplit]
    refine Or.inl ⟨e.1, e.2, of_decide_eq_true hle, t.writtenAt?_of_mem hmem, ?_, rfl⟩
    -- the entries before `e` lie above `a`, those after it below `e`
    intro y hy hya
    refine t.writtenAt?_eq_none_iff.mpr fun e' he' heq => ?_
    have hfalling := t.falling
    rw [hsplit] at hfalling he'
    rcases List.mem_append.mp he' with he' | he'
    · have := hbefore e' he'
      simp [heq, hya] at this
    · rcases List.mem_cons.mp he' with rfl | he'
      · exact UInt32.lt_irrefl _ (heq ▸ hy)
      · have := (List.pairwise_cons.mp (List.pairwise_append.mp hfalling).2.1).1 e' he'
        rw [heq] at this
        exact UInt32.lt_irrefl _ (UInt32.lt_trans this hy)

/-- An entry that is placed is found at its own address, and all others are as before. -/
theorem find?_place (a : Address) (value : Option UInt32) (l : List (Address × Option UInt32))
    (x : Address) :
    ((place a value l).find? (·.1 == x)).map (·.2) =
      if x = a then some value else (l.find? (·.1 == x)).map (·.2) := by
  induction l with
  | nil =>
    by_cases h : x = a
    · simp [place, h]
    · simp [place, h, Ne.symm h]
  | cons e rest ih =>
    unfold place
    split
    · by_cases h : x = a
      · simp [h]
      · simp [h, Ne.symm h]
    · split
      next heq =>
        by_cases h : x = a
        · simp [h]
        · simp [h, heq, Ne.symm h]
      next hne =>
        by_cases he : e.1 = x
        · simp [he, show x ≠ a from fun h => hne (he.trans h)]
        · simpa [he] using ih

/-- A write changes what was written at its address alone. -/
theorem writtenAt?_write (t : Timeline) (a : Address) (value : Option UInt32) (x : Address) :
    (t.write a value).writtenAt? x = if x = a then some value else t.writtenAt? x :=
  find?_place a value t.entries x

end Timeline

namespace Context

variable {c d : Context} {a x y : Address} {r : RegisterId} {value : Option UInt32}

/-- What was last written for a register at exactly this address, if anything was. -/
def written? (c : Context) (r : RegisterId) (x : Address) : Option (Option UInt32) :=
  (c.timeline r).writtenAt? x

/-- A write leaves the defaults as they are. -/
@[simp] theorem defaults_set (c : Context) (a : Address) (r : RegisterId) (value : Option UInt32) :
    (c.set a r value).defaults = c.defaults := by
  unfold set
  split <;> rfl

/-- A write changes what was written at its address for its register alone. -/
theorem written?_set (c : Context) (a : Address) (r : RegisterId) (value : Option UInt32)
    (s : RegisterId) (x : Address) :
    (c.set a r value).written? s x = if s = r ∧ x = a then some value else c.written? s x := by
  unfold set
  split
  next hsame =>
    split
    next hplace =>
      rw [hplace.1, hplace.2]
      exact hsame
    next => rfl
  next =>
    simp only [written?, timeline, Std.TreeMap.getElem?_insert, Nat.compare_eq_eq]
    by_cases hr : s = r
    · simp only [hr, if_true, true_and, Option.getD_some, Timeline.writtenAt?_write]
    · simp only [hr, Ne.symm hr, if_false, false_and]

/-- What was written at the highest address not above another one holds there. -/
theorem get_of_written? (h : c.written? r x = some value) (hle : x ≤ a)
    (hlast : ∀ y, x < y → y ≤ a → c.written? r y = none) : c.get a r = value := by
  unfold get
  obtain ⟨z, v, hza, hz, hlater, hat⟩ | ⟨hnone, -⟩ := (c.timeline r).at?_cases a
  · have hzx : z ≤ x := UInt32.not_lt.mp fun hlt => by cases hz.symm.trans (hlast z hlt hza)
    have hxz : x ≤ z := UInt32.not_lt.mp fun hlt => by cases h.symm.trans (hlater x hlt hle)
    rw [hat]
    rw [UInt32.le_antisymm hzx hxz] at hz
    exact Option.some.inj (hz.symm.trans h)
  · cases h.symm.trans (hnone x hle)

/-- Where nothing was written, the default holds. -/
theorem get_of_not_written (h : ∀ y ≤ a, c.written? r y = none) : c.get a r = c.defaults[r]? := by
  unfold get
  obtain ⟨z, v, hza, hz, -⟩ | ⟨-, hat⟩ := (c.timeline r).at?_cases a
  · cases hz.symm.trans (h z hza)
  · rw [hat]

/-- What a register holds at an address depends on what was written for it up to there. -/
theorem get_congr (hdefault : d.defaults[r]? = c.defaults[r]?)
    (h : ∀ y ≤ a, d.written? r y = c.written? r y) : d.get a r = c.get a r := by
  obtain ⟨x, value, hle, hx, hlast, -⟩ | ⟨hnone, -⟩ := (c.timeline r).at?_cases a
  · rw [get_of_written? hx hle hlast,
      get_of_written? ((h x hle).trans hx) hle fun y hy hya => (h y hya).trans (hlast y hy hya)]
  · rw [get_of_not_written hnone, get_of_not_written fun y hy => (h y hy).trans (hnone y hy),
      hdefault]

/-- From a written address on, it depends on what was written from there on. -/
theorem get_congr_from (hx : (c.written? r x).isSome) (hle : x ≤ a)
    (h : ∀ y, x ≤ y → y ≤ a → d.written? r y = c.written? r y) : d.get a r = c.get a r := by
  obtain ⟨z, value, hza, hz, hlast, -⟩ | ⟨hnone, -⟩ := (c.timeline r).at?_cases a
  · have hxz : x ≤ z := by
      refine UInt32.not_lt.mp fun hlt => ?_
      have : c.written? r x = none := hlast x hlt hle
      rw [this] at hx
      cases hx
    rw [get_of_written? hz hza hlast, get_of_written? ((h z hxz hza).trans hz) hza fun y hy hya =>
      (h y (UInt32.le_trans hxz (UInt32.le_of_lt hy)) hya).trans (hlast y hy hya)]
  · have : c.written? r x = none := hnone x hle
    rw [this] at hx
    cases hx

end Context

end DspCode
