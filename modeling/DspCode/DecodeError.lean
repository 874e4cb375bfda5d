import DspCode.AddressSpace

/-!
# Decoding errors

Why no instruction can be decoded at an address.
-/

namespace DspCode

/-- Why no instruction can be decoded. -/
inductive DecodeError where
  /-- The bytes at the address are no instruction. -/
  | unrecognized (address : Address)
  /-- The bytes at the address begin an instruction that runs into unmapped memory. -/
  | outOfBounds (address : Address)
  /-- The word at the address does not hold two instructions. -/
  | malformedPair (address : Address)
  /-- The encoding table contradicts itself. -/
  | inconsistent (address : Address) (detail : String)
  deriving DecidableEq, Repr

namespace DecodeError

/-- The address at which decoding failed. -/
def address : DecodeError → Address
  | .unrecognized a | .outOfBounds a | .malformedPair a | .inconsistent a _ => a

/-- The wording of a decoding error. -/
def message : DecodeError → String
  | .unrecognized a => "Unrecognized instruction at " ++ addressText a
  | .outOfBounds a => "Instruction at " ++ addressText a ++ " runs into unmapped memory"
  | .malformedPair a =>
    "Packed pair at " ++ addressText a ++ " does not split into two instructions"
  | .inconsistent a detail => "Inconsistent decode table at " ++ addressText a ++ ": " ++ detail

/-- Whether the byte at the address may be passed over as data. -/
def isRecoverable : DecodeError → Bool
  | .inconsistent _ _ => false
  | _ => true

end DecodeError

end DspCode
