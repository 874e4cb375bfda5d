import DspCode.Context

/-!
# Settings

What the page and mode registers hold at reset, and how addresses of memory-mapped registers are
printed.
-/

namespace DspCode

/-- What the page and mode registers hold at reset. -/
structure ResetValues where
  /-- The mode of short pointer offsets. -/
  arms : UInt32 := 0
  /-- The mode of stack-relative addressing. -/
  cpl : UInt32 := 1
  /-- The data page. -/
  dp : UInt32 := 0
  /-- The high part of the data page. -/
  dph : UInt32 := 0
  /-- The peripheral page. -/
  pdp : UInt32 := 0
  deriving DecidableEq, Repr

/-- The settings of a run. -/
structure Settings where
  /-- Low data addresses are printed by the name of the register mapped there. -/
  mappedRegisters : Bool := true
  /-- What the page and mode registers hold at reset. -/
  reset : ResetValues := {}
  deriving DecidableEq, Repr

/-- The context at reset. -/
def Settings.context (s : Settings) : Context :=
  Context.empty
    |>.withDefault Register.arms.id s.reset.arms
    |>.withDefault Register.cpl.id s.reset.cpl
    |>.withDefault Register.dp.id s.reset.dp
    |>.withDefault Register.dph.id s.reset.dph
    |>.withDefault Register.pdp.id s.reset.pdp

end DspCode
