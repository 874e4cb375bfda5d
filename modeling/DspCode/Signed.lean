/-!
# Signed values

Numbers kept to a fixed count of bits in two's complement.
-/

namespace DspCode

/-- The value of the low `bits` bits of `v` as a two's complement number. -/
def signedValue (bits : Nat) (v : Int) : Int := (BitVec.ofInt bits v).toInt

end DspCode
