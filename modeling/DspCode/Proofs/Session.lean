import DspCode.Proofs.Lookahead

/-!
# Lessons and sessions

A memory that stays as it is teaches one lesson after another: addresses are decoded in any order,
pairs are forgotten by their first half, and registers are noted to hold values. A session is a
memory together with what has been learned from it; between its lessons bytes are overwritten, and
what was learned stays when the bytes it was learned from are gone.
-/

namespace DspCode

/-- What can happen to what is known about a memory that stays as it is. -/
inductive Lesson where
  /-- An address is decoded, and the update it asks for is made. -/
  | decode (a : Address)
  /-- The pairs whose first half is at `head` are forgotten. -/
  | undo (head : Address)
  /-- A register is noted to hold a value, or to be unknown, from an address on. -/
  | note (a : Address) (register : RegisterId) (value : Option UInt32)
  deriving DecidableEq, Repr

namespace Knowledge

/-- What is known about a memory after a lesson. -/
def after (space : AddressSpace) (k : Knowledge) : Lesson → Knowledge
  | .decode a => (Machine.c55x.decodeAndRecord space k a).2
  | .undo head => { k with pairs := k.pairs.forgetHead head }
  | .note a register value => { k with context := k.context.set a register value }

/-- What is known about a memory after a list of lessons. -/
def study (space : AddressSpace) (k : Knowledge) (lessons : List Lesson) : Knowledge :=
  lessons.foldl (after space) k

end Knowledge

/-- A memory and what has been learned from it. -/
structure Session where
  /-- The memory. -/
  space : AddressSpace
  /-- What has been learned so far. -/
  knowledge : Knowledge := {}

/-- What can happen in a session. -/
inductive Event where
  /-- The memory as it stands teaches a lesson. -/
  | learn (lesson : Lesson)
  /-- The byte at a mapped address is overwritten. -/
  | write (a : Address) (b : UInt8)
  deriving DecidableEq, Repr

/-- An address is decoded in a session. -/
abbrev Event.decode (a : Address) : Event := .learn (.decode a)

namespace Session

/-- The session after an event. -/
def after (s : Session) : Event → Session
  | .learn lesson => { s with knowledge := s.knowledge.after s.space lesson }
  | .write a b =>
    { s with space := fun x => if x = a then (s.space x).map fun _ => b else s.space x }

/-- The session after a list of events. -/
def run (s : Session) (events : List Event) : Session := events.foldl after s

/-- Decoding an address teaches what its update says. -/
theorem after_decode {s : Session} {a : Address} (update : Option PairUpdate)
    (h : (Machine.c55x.decode s.space s.knowledge a).toOption.map (·.update) = some update) :
    s.after (.decode a) = { s with knowledge := s.knowledge.learn update } := by
  obtain ⟨d, hd, rfl⟩ := exists_ok_of_toOption h
  rw [after, Knowledge.after, Machine.decodeAndRecord_of_ok hd]

end Session

end DspCode
