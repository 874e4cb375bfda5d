import DspCode.Flow.Walk

/-!
# Blocks

Walked code cut into blocks. A block starts at an entry or at the target of a call or branch, and
ends at a branch, where execution does not go on, before unvisited code, or before the next start.
-/

namespace DspCode

/-- A run of visited instructions. -/
structure Block where
  /-- The address of the first instruction. -/
  start : Address
  /-- The address after the last instruction. -/
  stop : Address
  deriving DecidableEq, Repr

namespace Walk

/-- The addresses at which blocks may start: the entries and the targets of calls and branches. -/
def starts (w : Walk) (entries : List Address) : Std.TreeSet Address :=
  let targets := (w.edges.toList.filter fun e => e.kind != .fallThrough).map Edge.target
  Std.TreeSet.ofList (entries ++ targets)

/-- The addresses of the branches. -/
def branches (w : Walk) : Std.TreeSet Address :=
  let jumps := w.edges.toList.filter fun e => e.kind == .branch || e.kind == .conditional
  Std.TreeSet.ofList (jumps.map Edge.source)

/-- The address after a visited instruction. -/
def nextOf (w : Walk) (a : Address) : Address := a + UInt32.ofNat (w.widths[a]?.getD 0)

/-- Whether a block ends with the instruction at an address. -/
def endsBlock (w : Walk) (starts branches : Std.TreeSet Address) (a : Address) : Bool :=
  branches.contains a || w.stops.contains a || !w.isVisited (w.nextOf a) ||
    starts.contains (w.nextOf a)

/-- The end of the block that goes on at an address. A block does not continue at lower
addresses. -/
def blockStop (w : Walk) (starts branches : Std.TreeSet Address) (a : Address) : Address :=
  if w.endsBlock starts branches a then w.nextOf a
  else if a < w.nextOf a then w.blockStop starts branches (w.nextOf a)
  else w.nextOf a
  termination_by UInt32.size - a.toNat
  decreasing_by
    have h : a.toNat < (w.nextOf a).toNat := by assumption
    have := (w.nextOf a).toNat_lt_size
    omega

/-- The blocks of a walk from the given entries, from the lowest address on. -/
def blocks (w : Walk) (entries : List Address) : List Block :=
  let starts := w.starts entries
  let branches := w.branches
  (starts.toList.filter w.isVisited).map fun a => ⟨a, w.blockStop starts branches a⟩

/-- The visited addresses from one on, each after the instruction before it, below `stop`. -/
def addressesFrom (w : Walk) (stop a : Address) : List Address :=
  if a < stop then
    if w.isVisited a ∧ a < w.nextOf a then a :: w.addressesFrom stop (w.nextOf a) else [a]
  else []
  termination_by UInt32.size - a.toNat
  decreasing_by
    have h : a.toNat < (w.nextOf a).toNat := (by assumption : _ ∧ _).2
    have := (w.nextOf a).toNat_lt_size
    omega

/-- The addresses of the instructions of a block. -/
def addresses (w : Walk) (b : Block) : List Address := w.addressesFrom b.stop b.start

/-- The start of the block of each instruction. -/
def blockStarts (w : Walk) (blocks : List Block) : Std.TreeMap Address Address :=
  Std.TreeMap.ofList (blocks.flatMap fun b => (w.addresses b).map fun a => (a, b.start))

/-- The edges of a walk, as edges from block to block. A fall-through within a block is none. -/
def blockEdges (w : Walk) (blocks : List Block) : List Edge :=
  let table := w.blockStarts blocks
  let startOf (a : Address) := table[a]?.getD a
  let joined (e : Edge) : Edge := ⟨startOf e.source, startOf e.target, e.kind⟩
  (w.edges.toList.map joined).filter fun e => e.kind != .fallThrough || e.source != e.target

end Walk

end DspCode
