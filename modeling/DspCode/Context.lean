import DspCode.AddressSpace
import DspCode.Register
import Std.Data.TreeMap

/-!
# Register context

What the page and mode registers hold at each address. A value written at an address holds from
there up to the next address at which the same register was written; before the first of them the
default holds. A value can be written as unknown.
-/

namespace DspCode

/-- The values of one register by the address they hold from, highest address first. -/
structure Timeline where
  /-- The entries. -/
  entries : List (Address × Option UInt32)
  /-- They stand by falling address. -/
  falling : entries.Pairwise fun e e' => e'.1 < e.1
  deriving DecidableEq, Repr

namespace Timeline

/-- The timeline of a register that was never written. -/
def empty : Timeline := ⟨[], .nil⟩

/-- The entry that holds at an address: the one with the highest address not above it. -/
def at? (t : Timeline) (a : Address) : Option (Option UInt32) :=
  (t.entries.find? (·.1 ≤ a)).map (·.2)

/-- The entry written at exactly this address. -/
def writtenAt? (t : Timeline) (a : Address) : Option (Option UInt32) :=
  (t.entries.find? (·.1 == a)).map (·.2)

/-- Places a value among entries by falling address, instead of one at the same address. -/
def place (a : Address) (value : Option UInt32) :
    List (Address × Option UInt32) → List (Address × Option UInt32)
  | [] => [(a, value)]
  | e :: rest =>
    if e.1 < a then (a, value) :: e :: rest
    else if e.1 = a then (a, value) :: rest
    else e :: place a value rest

theorem mem_place {a : Address} {value : Option UInt32} {e : Address × Option UInt32}
    {l : List (Address × Option UInt32)} (h : e ∈ place a value l) : e = (a, value) ∨ e ∈ l := by
  induction l with
  | nil => exact Or.inl (List.mem_singleton.mp h)
  | cons x rest ih =>
    unfold place at h
    split at h
    · exact List.mem_cons.mp h
    · split at h
      · exact (List.mem_cons.mp h).imp_right (List.mem_cons_of_mem x)
      · rcases List.mem_cons.mp h with rfl | h
        · exact Or.inr List.mem_cons_self
        · exact (ih h).imp_right (List.mem_cons_of_mem x)

/-- Placing a value keeps the entries in order. -/
theorem falling_place (a : Address) (value : Option UInt32) {l : List (Address × Option UInt32)}
    (h : l.Pairwise fun e e' => e'.1 < e.1) :
    (place a value l).Pairwise fun e e' => e'.1 < e.1 := by
  induction l with
  | nil => exact List.pairwise_singleton _ _
  | cons x rest ih =>
    obtain ⟨hx, hrest⟩ := List.pairwise_cons.mp h
    unfold place
    split
    next hlt =>
      refine List.pairwise_cons.mpr ⟨fun e he => ?_, h⟩
      rcases List.mem_cons.mp he with rfl | he
      · exact hlt
      · exact UInt32.lt_trans (hx e he) hlt
    next hge =>
      split
      next heq => exact List.pairwise_cons.mpr ⟨fun e he => heq ▸ hx e he, hrest⟩
      next hne =>
        refine List.pairwise_cons.mpr ⟨fun e he => ?_, ih hrest⟩
        rcases mem_place he with rfl | he
        · exact UInt32.lt_of_le_of_ne (UInt32.not_lt.mp hge) (Ne.symm hne)
        · exact hx e he

/-- Lets a value hold from an address on. -/
def write (t : Timeline) (a : Address) (value : Option UInt32) : Timeline :=
  ⟨place a value t.entries, falling_place a value t.falling⟩

end Timeline

/-- The values of registers by address. -/
structure Context where
  /-- Values that hold before anything was written. -/
  defaults : Std.TreeMap RegisterId UInt32 := ∅
  /-- What was written, register by register. -/
  timelines : Std.TreeMap RegisterId Timeline := ∅
  /-- How many writes changed something. -/
  version : Nat := 0

namespace Context

/-- The context in which nothing is known. -/
def empty : Context := {}

/-- Gives a register a default value. -/
def withDefault (c : Context) (r : RegisterId) (value : UInt32) : Context :=
  { c with defaults := c.defaults.insert r value }

/-- What was written for a register. -/
def timeline (c : Context) (r : RegisterId) : Timeline := c.timelines[r]?.getD .empty

/-- What a register holds at an address, if it is known. -/
def get (c : Context) (a : Address) (r : RegisterId) : Option UInt32 :=
  match (c.timeline r).at? a with
  | some value => value
  | none => c.defaults[r]?

/-- Lets a register hold a value, or be unknown, from an address on. -/
def set (c : Context) (a : Address) (r : RegisterId) (value : Option UInt32) : Context :=
  if (c.timeline r).writtenAt? a = some value then c
  else
    { c with
      timelines := c.timelines.insert r ((c.timeline r).write a value)
      version := c.version + 1 }

end Context

end DspCode
