import DspCode.AddressSpace

/-!
# Regions

A writable run of bytes at a base address. Addresses below the base and past the last byte are
unmapped; a region does not continue at address zero.
-/

namespace DspCode

/-- Bytes at consecutive addresses from a base on. -/
structure Region where
  /-- The address of the first byte. -/
  base : Address
  /-- The bytes. -/
  bytes : Array UInt8
  deriving DecidableEq, Repr

namespace Region

/-- `size` zero bytes at address zero. -/
def zeroed (size : Nat) : Region := ⟨0, Array.replicate size 0⟩

/-- The address after the last byte. It wraps where the region reaches past the top. -/
def limit (r : Region) : Address := r.base + UInt32.ofNat r.bytes.size

/-- An address from the base up to the end is that of a byte. -/
theorem toNat_sub_base_lt (r : Region) {a : Address} (hbase : r.base ≤ a) (hbefore : a < r.limit) :
    (a - r.base).toNat < r.bytes.size := by
  have hdiff := UInt32.toNat_sub_of_le a r.base hbase
  have hsize : (UInt32.ofNat r.bytes.size).toNat ≤ r.bytes.size := by
    rw [UInt32.toNat_ofNat']
    exact Nat.mod_le _ _
  have hlimit : r.limit.toNat ≤ r.base.toNat + (UInt32.ofNat r.bytes.size).toNat := by
    rw [limit, UInt32.toNat_add]
    exact Nat.mod_le _ _
  rw [UInt32.le_iff_toNat_le] at hbase
  rw [UInt32.lt_iff_toNat_lt] at hbefore
  omega

/-- The index of the byte at an address. -/
def index? (r : Region) (a : Address) : Option Nat :=
  if r.base ≤ a ∧ (a - r.base).toNat < r.bytes.size then some (a - r.base).toNat else none

/-- The address space that holds just this region. -/
def space (r : Region) : AddressSpace := fun a => (r.index? a).bind (r.bytes[·]?)

/-- Replaces the byte at an address. -/
def write (r : Region) (a : Address) (b : UInt8) : Except Unmapped Region :=
  match r.index? a with
  | some i => .ok { r with bytes := r.bytes.setIfInBounds i b }
  | none => .error ⟨a⟩

/-- Replaces the bytes from an address on, up to the first address that is not mapped. The bytes
before it stay replaced. -/
def writeAll (r : Region) (a : Address) : List UInt8 → Region × Except Unmapped Unit
  | [] => (r, .ok ())
  | b :: rest =>
    match r.write a b with
    | .ok r => r.writeAll (a + 1) rest
    | .error e => (r, .error e)

end Region

end DspCode
