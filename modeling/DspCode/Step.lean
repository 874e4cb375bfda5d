import DspCode.Assembly
import DspCode.Decoding
import DspCode.Effects

/-!
# Steps

One step of reading code: decode the instruction at an address, print it, and take note of its
effects. Steps follow each other from one address to the next; bytes that are no instruction are
passed over one at a time.
-/

namespace DspCode

/-- What has been learned before any step: the context at reset. -/
def Settings.knowledge (settings : Settings) : Knowledge := { context := settings.context }

/-- What one step gives. -/
structure Step where
  /-- The instruction. -/
  insn : Instruction
  /-- Its text, without labels. -/
  text : String
  /-- Its effects. -/
  effects : Effects
  deriving DecidableEq, Repr

namespace Step

/-- Takes the step at an address. The text and the effects follow from the context before the
instruction; its own changes hold afterwards. -/
def take (settings : Settings) (space : AddressSpace) (k : Knowledge) (a : Address) :
    Except DecodeError Step × Knowledge :=
  match Machine.c55x.decodeAndRecord space k a with
  | (.error e, k) => (.error e, k)
  | (.ok insn, k) =>
    let printer : Printer := { settings, context := k.context }
    let effects := Effects.of insn (usageOf Form.mnemonics insn.kind) k.context
    (.ok ⟨insn, printer.render insn, effects⟩, { k with context := effects.apply k.context })

/-- The address after a step: past the instruction, or past one byte. -/
def next (a : Address) : Except DecodeError Step → Address
  | .ok step => step.insn.limit
  | .error _ => a + 1

/-- One step of a series: where it was taken, its outcome, and what is known after it. -/
structure Entry where
  /-- The address. -/
  address : Address
  /-- What the step gave. -/
  outcome : Except DecodeError Step
  /-- What is known after it. -/
  known : Knowledge

/-- Takes steps from an address on while it is below `stop`. A step that does not lead to a higher
address is the last. -/
def series (settings : Settings) (space : AddressSpace) (k : Knowledge) (a stop : Address) :
    List Entry :=
  if a < stop then
    let (outcome, k) := take settings space k a
    let entry : Entry := ⟨a, outcome, k⟩
    if a < next a outcome then entry :: series settings space k (next a outcome) stop
    else [entry]
  else []
  termination_by UInt32.size - a.toNat
  decreasing_by
    have : a.toNat < (next a outcome).toNat := by assumption
    have : (next a outcome).toNat < UInt32.size := (next a outcome).toNat_lt_size
    omega

end Step

end DspCode
