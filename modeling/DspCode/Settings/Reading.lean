import DspCode.Json.Reader
import DspCode.Settings

/-!
# Reading settings

Settings in JSON form. Missing fields keep their defaults, unknown names are passed over.
-/

namespace DspCode

/-- The number of a field, or its default if the field is missing. -/
def numberOr (default : UInt32) : Option Json → Option UInt32
  | none => some default
  | some value => value.uint32?

/-- Reset values in JSON form. -/
def ResetValues.ofJson? (value : Json) : Option ResetValues := do
  let defaults : ResetValues := {}
  match ← value.fields? ["arms", "cpl", "dp", "dph", "pdp"] with
  | [arms, cpl, dp, dph, pdp] =>
    return {
      arms := ← numberOr defaults.arms arms
      cpl := ← numberOr defaults.cpl cpl
      dp := ← numberOr defaults.dp dp
      dph := ← numberOr defaults.dph dph
      pdp := ← numberOr defaults.pdp pdp }
  | _ => none

/-- Settings in JSON form. -/
def Settings.ofJson? (value : Json) : Option Settings := do
  let defaults : Settings := {}
  match ← value.fields? ["mapped_registers", "defaults"] with
  | [mapped, reset] =>
    return {
      mappedRegisters := ← mapped.elim (some defaults.mappedRegisters) Json.bool?
      reset := ← reset.elim (some defaults.reset) ResetValues.ofJson? }
  | _ => none

/-- The settings in a JSON text. -/
def Settings.read? (text : String) : Option Settings := (Json.read? text).bind Settings.ofJson?

end DspCode
