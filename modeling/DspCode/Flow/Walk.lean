import DspCode.Step
import Std.Data.TreeSet

/-!
# Walks

A walk follows the code of an image from its entries along calls, branches and fall-through, in the
order in which addresses are found, and visits each address at most once.
-/

namespace DspCode

/-- How execution passes from one address to another. -/
inductive EdgeKind where
  /-- On to the next instruction. -/
  | fallThrough
  /-- By a branch that is always taken. -/
  | branch
  /-- By a branch that may be taken. -/
  | conditional
  /-- By a call. -/
  | call
  deriving DecidableEq, Repr

/-- The short name of an edge kind. -/
def EdgeKind.tag : EdgeKind → String
  | .fallThrough => "ft"
  | .branch => "br"
  | .conditional => "cbr"
  | .call => "call"

/-- A passage of execution from one address to another. -/
structure Edge where
  /-- Where it starts. -/
  source : Address
  /-- Where it leads. -/
  target : Address
  /-- How execution passes. -/
  kind : EdgeKind
  deriving DecidableEq, Repr

/-- What a walk has found. -/
structure Walk where
  /-- What was learned about the code. -/
  known : Knowledge
  /-- The lengths of the visited instructions, by address. -/
  widths : Std.TreeMap Address Nat := ∅
  /-- The edges, in the order in which they were found. -/
  edges : Array Edge := #[]
  /-- The visited instructions after which execution does not go on. -/
  stops : Std.TreeSet Address := ∅

namespace Walk

/-- Whether an address has been visited. -/
def isVisited (w : Walk) (a : Address) : Bool := w.widths.contains a

/-- The visited addresses, from the lowest on. -/
def visited (w : Walk) : List Address := w.widths.keys

/-- The edge of a reference of an instruction with the given effects. -/
def referenceEdge (a : Address) (effects : Effects) (r : Reference) : Edge :=
  let kind :=
    match r.kind with
    | .call => .call
    | _ => if effects.flows then .conditional else .branch
  ⟨a, r.target, kind⟩

/-- The edges of the instruction at an address: its references to code, then the fall-through to the
next instruction if execution may go on and there is a byte. -/
def edgesOf (space : AddressSpace) (a : Address) (insn : Instruction) (effects : Effects) :
    List Edge :=
  effects.codeReferences.map (referenceEdge a effects) ++
    if effects.flows && space.isMapped insn.limit then [⟨a, insn.limit, .fallThrough⟩] else []

/-- Takes the instruction at an address into a walk. -/
def visit (w : Walk) (space : AddressSpace) (a : Address) (insn : Instruction) : Walk :=
  let effects := Effects.of insn (usageOf Form.mnemonics insn.kind) w.known.context
  { known := { w.known with context := effects.apply w.known.context }
    widths := w.widths.insert a insn.length
    edges := w.edges ++ edgesOf space a insn effects
    stops := if effects.flows then w.stops else w.stops.insert a }

/-- A visit to a new address adds one instruction. -/
theorem size_visit (w : Walk) (space : AddressSpace) (a : Address) (insn : Instruction)
    (h : ¬ w.isVisited a) : (w.visit space a insn).widths.size = w.widths.size + 1 := by
  have hnot : a ∉ w.widths := fun hmem => h (Std.TreeMap.contains_iff_mem.mpr hmem)
  simp [visit, Std.TreeMap.size_insert, hnot]

/-- The addresses that the instruction at an address leads to and that are still to be visited after
it. -/
def found (w : Walk) (space : AddressSpace) (a : Address) (insn : Instruction) : List Address :=
  let effects := Effects.of insn (usageOf Form.mnemonics insn.kind) w.known.context
  ((edgesOf space a insn effects).map Edge.target).filter fun b =>
    space.isMapped b && !(w.widths.insert a insn.length).contains b

/-- Visits the addresses of a queue, the first one first, until the queue is empty or `limit`
instructions have been visited. Addresses already visited and bytes that are no instruction are
passed over. -/
def follow (space : AddressSpace) (limit : Nat) (w : Walk) (queue : List Address) : Walk :=
  match queue with
  | [] => w
  | a :: rest =>
    if limit ≤ w.widths.size then w
    else if w.isVisited a then follow space limit w rest
    else
      match Machine.c55x.decodeAndRecord space w.known a with
      | (.error _, known) => follow space limit { w with known } rest
      | (.ok insn, known) =>
        let found := { w with known }.found space a insn
        follow space limit ({ w with known }.visit space a insn) (rest ++ found)
  termination_by (limit - w.widths.size, queue.length)
  decreasing_by
  · exact Prod.Lex.right _ (Nat.lt_succ_self _)
  · exact Prod.Lex.right _ (Nat.lt_succ_self _)
  · refine Prod.Lex.left _ _ ?_
    have hnew : ¬ w.isVisited a := by assumption
    have hsize := size_visit { w with known } space a insn hnew
    simp only at hsize
    omega

/-- Walks the code of an address space from its mapped entries. -/
def of (settings : Settings) (space : AddressSpace) (entries : List Address) (limit : Nat) : Walk :=
  follow space limit { known := settings.knowledge } (entries.filter space.isMapped)

end Walk

end DspCode
