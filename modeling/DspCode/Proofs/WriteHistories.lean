import DspCode.Effects
import DspCode.Proofs.Timelines
import Mathlib.Data.List.Induction

/-!
# Contexts and the writes they come from

A context keeps no record of the order of its writes: per register it has one value for each
address, and a write that changes nothing is passed over. Here a context is compared with the full
history of writes it was made by. Main statement: what a register holds at an address is what was
last written for it at the highest address not above, in whatever order the addresses were written,
and the version counts the writes that changed what their register held from exactly their address
on.
-/

namespace DspCode

/-- The maximum of two addresses is the higher one. -/
instance Address.lawfulOrderMax : Std.LawfulOrderMax Address := by
  have hmax : ∀ a b : Address, max a b = if a ≤ b then b else a := fun _ _ => rfl
  refine .of_max_le_iff (fun a b c => ?_) (fun a b => ?_)
  · rw [hmax]
    split
    next h => exact ⟨fun hb => ⟨UInt32.le_trans h hb, hb⟩, And.right⟩
    next h =>
      have hba : b ≤ a := UInt32.le_of_lt (UInt32.not_le.mp h)
      exact ⟨fun ha => ⟨ha, UInt32.le_trans hba ha⟩, And.left⟩
  · rw [hmax]
    split
    · exact Or.inr rfl
    · exact Or.inl rfl

/-- Writes to a context, the first one first. -/
abbrev History := List ContextWrite

namespace History

variable {h : History} {a x : Address} {r : RegisterId}

/-- The most recent value written for a register at exactly this address; it may be unknown. -/
def last? (h : History) (r : RegisterId) (x : Address) : Option (Option UInt32) :=
  (h.filter fun w => w.register = r ∧ w.address = x).getLast?.map (·.value)

/-- The highest address not above `a` at which a register was ever written. -/
def highest? (h : History) (r : RegisterId) (a : Address) : Option Address :=
  ((h.filter fun w => w.register = r ∧ w.address ≤ a).map (·.address)).max?

/-- What a register holds at an address by its history: the most recent of the values written at the
highest address not above, and otherwise the default that was given last. -/
def valueAt (defaults : List (RegisterId × UInt32)) (h : History) (a : Address) (r : RegisterId) :
    Option UInt32 :=
  match h.highest? r a with
  | some x => (h.last? r x).join
  | none => (defaults.filter (·.1 = r)).getLast?.map (·.2)

/-- Whether the write at a position changes what was written at its address before. -/
def changesAt (h : History) (i : Nat) : Bool :=
  h[i]?.any fun w => last? (h.take i) w.register w.address != some w.value

/-- How many writes change what was written at their address before. -/
def changes (h : History) : Nat := (List.range h.length).countP h.changesAt

/-- One more write replaces the value at its own register and address. -/
theorem last?_concat (h : History) (w : ContextWrite) (r : RegisterId) (x : Address) :
    last? (h ++ [w]) r x =
      if r = w.register ∧ x = w.address then some w.value else h.last? r x := by
  by_cases hw : w.register = r ∧ w.address = x
  · simp [last?, hw]
  · have hw' : ¬(r = w.register ∧ x = w.address) := fun h => hw ⟨h.1.symm, h.2.symm⟩
    simp [last?, hw, hw']

/-- There is a most recent value exactly where one was written. -/
theorem last?_ne_none_iff :
    h.last? r x ≠ none ↔ ∃ w ∈ h, w.register = r ∧ w.address = x := by
  simp [last?]

/-- The addresses that compete to decide what holds at `a`. -/
theorem mem_written_iff :
    x ∈ (h.filter fun w => w.register = r ∧ w.address ≤ a).map (·.address) ↔
      x ≤ a ∧ h.last? r x ≠ none := by
  rw [last?_ne_none_iff, List.mem_map]
  constructor
  · rintro ⟨w, hw, rfl⟩
    obtain ⟨hmem, hw⟩ := List.mem_filter.mp hw
    obtain ⟨hr, hle⟩ := of_decide_eq_true hw
    exact ⟨hle, w, hmem, hr, rfl⟩
  · rintro ⟨hle, w, hmem, hr, rfl⟩
    exact ⟨w, List.mem_filter.mpr ⟨hmem, decide_eq_true ⟨hr, hle⟩⟩, rfl⟩

/-- The highest address is one with a write, and there is none above it up to the address asked for.
-/
theorem of_highest?_eq_some (hx : h.highest? r a = some x) :
    x ≤ a ∧ h.last? r x ≠ none ∧ ∀ y, x < y → y ≤ a → h.last? r y = none := by
  obtain ⟨hmem, hmax⟩ := List.max?_eq_some_iff.mp hx
  obtain ⟨hle, hlast⟩ := mem_written_iff.mp hmem
  refine ⟨hle, hlast, fun y hxy hya => ?_⟩
  by_contra hy
  exact UInt32.not_le.mpr hxy (hmax y (mem_written_iff.mpr ⟨hya, hy⟩))

/-- Where there is no highest address, nothing was written up to the address asked for. -/
theorem of_highest?_eq_none (hx : h.highest? r a = none) : ∀ y ≤ a, h.last? r y = none := by
  intro y hya
  by_contra hy
  have hmem := mem_written_iff.mpr ⟨hya, hy⟩
  rw [List.max?_eq_none_iff.mp hx] at hmem
  cases hmem

/-- Whether a write changes something depends on the writes before it. -/
theorem changesAt_concat {i : Nat} (w : ContextWrite) (hi : i < h.length) :
    changesAt (h ++ [w]) i = h.changesAt i := by
  rw [changesAt, changesAt, List.getElem?_append_left hi,
    List.take_append_of_le_length (Nat.le_of_lt hi)]

/-- One more write is counted if it is not the value that was written there last. -/
theorem changes_concat (h : History) (w : ContextWrite) :
    changes (h ++ [w]) =
      if h.last? w.register w.address = some w.value then h.changes else h.changes + 1 := by
  have hearlier : (List.range h.length).countP (changesAt (h ++ [w])) = h.changes :=
    List.countP_congr fun i hi => by rw [changesAt_concat w (List.mem_range.mp hi)]
  have hnew : changesAt (h ++ [w]) h.length =
      (h.last? w.register w.address != some w.value) := by
    simp [changesAt]
  rw [changes, List.length_append, List.length_singleton, List.range_succ, List.countP_append,
    hearlier, List.countP_singleton, hnew]
  by_cases hsame : h.last? w.register w.address = some w.value <;> simp [hsame]

end History

namespace Context

/-- The context with the given defaults; of several for one register the last one counts. -/
def ofDefaults (defaults : List (RegisterId × UInt32)) : Context :=
  defaults.foldl (fun c d => c.withDefault d.1 d.2) .empty

/-- Carries out the writes of a history. -/
def setAll (c : Context) (h : History) : Context :=
  h.foldl (fun c w => c.set w.address w.register w.value) c

private theorem ofDefaults_concat (defaults : List (RegisterId × UInt32))
    (d : RegisterId × UInt32) :
    ofDefaults (defaults ++ [d]) = (ofDefaults defaults).withDefault d.1 d.2 := by
  rw [ofDefaults, List.foldl_append]
  rfl

private theorem setAll_concat (c : Context) (h : History) (w : ContextWrite) :
    c.setAll (h ++ [w]) = (c.setAll h).set w.address w.register w.value := by
  rw [setAll, List.foldl_append]
  rfl

/-- Of several defaults for a register the last one is kept. -/
theorem defaults_ofDefaults (defaults : List (RegisterId × UInt32)) (r : RegisterId) :
    (ofDefaults defaults).defaults[r]? = (defaults.filter (·.1 = r)).getLast?.map (·.2) := by
  induction defaults using List.reverseRecOn with
  | nil => rfl
  | append_singleton defaults d ih =>
    rw [ofDefaults_concat, withDefault, Std.TreeMap.getElem?_insert, ih]
    by_cases hd : d.1 = r <;> simp [hd]

/-- Defaults are no writes. -/
theorem timelines_ofDefaults (defaults : List (RegisterId × UInt32)) :
    (ofDefaults defaults).timelines = ∅ ∧ (ofDefaults defaults).version = 0 := by
  induction defaults using List.reverseRecOn with
  | nil => exact ⟨rfl, rfl⟩
  | append_singleton defaults d ih =>
    rw [ofDefaults_concat]
    exact ih

private theorem defaults_setAll (c : Context) (h : History) :
    (c.setAll h).defaults = c.defaults := by
  induction h using List.reverseRecOn with
  | nil => rfl
  | append_singleton h w ih => rw [setAll_concat, defaults_set, ih]

/-- A context that comes from a history has at each address what was last written there. -/
theorem written?_setAll (defaults : List (RegisterId × UInt32)) (h : History) (r : RegisterId)
    (x : Address) : ((ofDefaults defaults).setAll h).written? r x = h.last? r x := by
  induction h using List.reverseRecOn with
  | nil =>
    rw [written?, timeline, setAll, List.foldl_nil, (timelines_ofDefaults defaults).1]
    rfl
  | append_singleton h w ih => rw [setAll_concat, written?_set, History.last?_concat, ih]

/-- The version rises with each write that changes what was written at its address. -/
theorem version_set (c : Context) (w : ContextWrite) :
    (c.set w.address w.register w.value).version =
      if c.written? w.register w.address = some w.value then c.version else c.version + 1 := by
  rw [set, written?]
  split <;> rfl

/-- The version counts the changes of a history. -/
theorem version_setAll (defaults : List (RegisterId × UInt32)) (h : History) :
    ((ofDefaults defaults).setAll h).version = h.changes := by
  induction h using List.reverseRecOn with
  | nil => exact (timelines_ofDefaults defaults).2
  | append_singleton h w ih =>
    rw [setAll_concat, version_set, written?_setAll, History.changes_concat, ih]

/-- No write lowers the version. -/
theorem version_le_setAll (c : Context) (h : History) : c.version ≤ (c.setAll h).version := by
  induction h using List.reverseRecOn with
  | nil => exact Nat.le_refl _
  | append_singleton h w ih =>
    rw [setAll_concat, version_set]
    split
    · exact ih
    · exact Nat.le_succ_of_le ih

/-- A register holds what its history says. -/
theorem get_setAll (defaults : List (RegisterId × UInt32)) (h : History) (a : Address)
    (r : RegisterId) : ((ofDefaults defaults).setAll h).get a r = h.valueAt defaults a r := by
  rw [History.valueAt]
  cases hx : h.highest? r a with
  | some x =>
    obtain ⟨hle, hwritten, hlater⟩ := History.of_highest?_eq_some hx
    obtain ⟨value, hvalue⟩ := Option.ne_none_iff_exists'.mp hwritten
    have hget : ((ofDefaults defaults).setAll h).get a r = value := by
      refine get_of_written? ((written?_setAll defaults h r x).trans hvalue) hle fun y hxy hya => ?_
      exact (written?_setAll defaults h r y).trans (hlater y hxy hya)
    simp only [hget, hvalue, Option.join_some]
  | none =>
    have hnone := History.of_highest?_eq_none hx
    rw [get_of_not_written fun y hy => (written?_setAll defaults h r y).trans (hnone y hy),
      defaults_setAll, defaults_ofDefaults]

/-- After any writes in any order a context holds at each address what its history says, and its
version is the number of writes that changed something. Further writes do not lower the version. -/
theorem setAll_recalls_history (defaults : List (RegisterId × UInt32)) (h : History) :
    let c := (ofDefaults defaults).setAll h
    (∀ a r, c.get a r = h.valueAt defaults a r) ∧ c.version = h.changes ∧
      ∀ later : History, c.version ≤ ((ofDefaults defaults).setAll (h ++ later)).version := by
  intro c
  refine ⟨get_setAll defaults h, version_setAll defaults h, fun later => ?_⟩
  rw [setAll, List.foldl_append]
  exact version_le_setAll c later

/-- Addresses written out of order, one of them unknown, and a write that changes nothing. -/
example :
    let h : History := [⟨0x40, 7, none⟩, ⟨0x20, 7, some 4⟩, ⟨0x20, 7, some 5⟩, ⟨0x20, 7, some 5⟩]
    ([0x1F, 0x20, 0x3F, 0x40].map fun a => h.valueAt [(7, 1)] a 7) =
      [some 1, some 5, some 5, none] ∧ h.changes = 3 := by
  decide

end Context

end DspCode
