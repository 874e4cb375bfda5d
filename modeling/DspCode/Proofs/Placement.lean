import DspCode.AddressSpace.Region
import DspCode.Proofs.Walking

/-!
# Where bytes are placed

The bytes of a region and those of a segment stand at consecutive addresses from a base on. Main
statement: a region and an image of one segment with the same base and bytes are the same memory
unless the last byte stands at the last address. Such a segment has a limit of zero, and its image
holds nothing.
-/

namespace DspCode

namespace AddressSpace

/-- An address space holds the given bytes from a base on, and nothing else. -/
structure Holds (space : AddressSpace) (base : Address) (bytes : Array UInt8) : Prop where
  /-- Each byte is read at its distance from the base. -/
  held : ∀ i (h : i < bytes.size), space.read (base + UInt32.ofNat i) = .ok bytes[i]
  /-- Any other address is not mapped. -/
  free : ∀ a, (∀ i < bytes.size, a ≠ base + UInt32.ofNat i) → space.read a = .error ⟨a⟩

private theorem read_of_some {space : AddressSpace} {a : Address} {b : UInt8}
    (h : space a = some b) : space.read a = .ok b := by
  simp only [read, h]

private theorem read_of_none {space : AddressSpace} {a : Address} (h : space a = none) :
    space.read a = .error ⟨a⟩ := by
  simp only [read, h]

/-- Bytes that do not go on at address zero each have their own address. -/
theorem holds_holding (base : Address) (bytes : Array UInt8) (h : bytes.size ≤ UInt32.size) :
    (holding base bytes.toList).Holds base bytes := by
  constructor
  · intro i hi
    refine read_of_some ?_
    rw [holding_add base _ (Nat.lt_of_lt_of_le hi h), Array.getElem?_toList]
    exact Array.getElem?_eq_getElem hi
  · intro a ha
    refine read_of_none (List.getElem?_eq_none (Nat.not_lt.mp fun hlt => ?_))
    refine ha (a - base).toNat hlt ?_
    rw [UInt32.ofNat_toNat, UInt32.add_comm, UInt32.sub_add_cancel]

end AddressSpace

/-- Below its base, an address is farther from it than the bytes reach. -/
theorem Address.le_toNat_sub_of_lt {a base : Address} {n : Nat} (h : a < base)
    (hn : base.toNat + n ≤ UInt32.size) : n ≤ (a - base).toNat := by
  rw [UInt32.lt_iff_toNat_lt] at h
  rw [UInt32.toNat_sub]
  have hsize : UInt32.size = 4294967296 := rfl
  omega

/-- A region is the address space that holds its bytes from its base on. -/
theorem Region.space_eq_holding (r : Region) (h : r.base.toNat + r.bytes.size ≤ UInt32.size) :
    r.space = .holding r.base r.bytes.toList := by
  funext a
  rw [space, index?, AddressSpace.holding, Array.getElem?_toList]
  split
  next => rfl
  next hout =>
    refine (Array.getElem?_eq_none ?_).symm
    by_cases hbase : r.base ≤ a
    · exact Nat.not_lt.mp fun hlt => hout ⟨hbase, hlt⟩
    · exact Address.le_toNat_sub_of_lt (UInt32.not_le.mp hbase) h

namespace Image

variable (s : Segment)

/-- An image of one segment looks its bytes up by their distance from the base. -/
theorem space_singleton (a : Address) :
    space ⟨[s]⟩ a = if s.contains a then s.bytes[(a - s.base).toNat]? else none := by
  rw [space, List.find?_singleton]
  split <;> rfl

/-- An image of one segment is the address space that holds its bytes from its base on. -/
theorem space_eq_holding (h : s.base.toNat + s.bytes.size < UInt32.size) :
    space ⟨[s]⟩ = .holding s.base s.bytes.toList := by
  have hlimit : s.limit.toNat = s.base.toNat + s.bytes.size := Address.toNat_add_ofNat h
  funext a
  rw [space_singleton, AddressSpace.holding, Array.getElem?_toList]
  split
  next => rfl
  next hout =>
    refine (Array.getElem?_eq_none ?_).symm
    by_cases hbase : s.base ≤ a
    · have hdiff := UInt32.toNat_sub_of_le a s.base hbase
      have hpast : ¬a < s.limit := fun hlt => hout (by simp [Segment.contains, hbase, hlt])
      rw [UInt32.lt_iff_toNat_lt, hlimit] at hpast
      omega
    · exact Address.le_toNat_sub_of_lt (UInt32.not_le.mp hbase) (Nat.le_of_lt h)

/-- A segment with a byte at the last address has its limit at zero and contains no address. -/
theorem space_of_reaches_top (h : s.base.toNat + s.bytes.size = UInt32.size) (a : Address) :
    space ⟨[s]⟩ a = none := by
  have hlimit : s.limit = 0 := by
    rw [← UInt32.toNat_inj, Segment.limit, UInt32.toNat_add, UInt32.toNat_ofNat']
    have hsize : UInt32.size = 4294967296 := rfl
    show _ = 0
    omega
  have hout : s.contains a = false := by simp [Segment.contains, hlimit]
  rw [space_singleton, hout]
  rfl

/-- For bytes that do not go on at address zero, a region holds them from its base on and nothing
else. The image of one segment of the same bytes reads the same at every address exactly if its last
byte stands below the last address. -/
theorem reads_as_region_iff (hfits : s.base.toNat + s.bytes.size ≤ UInt32.size) :
    (Region.space ⟨s.base, s.bytes⟩).Holds s.base s.bytes ∧
      ((∀ a, (space ⟨[s]⟩).read a = (Region.space ⟨s.base, s.bytes⟩).read a) ↔
        s.base.toNat + s.bytes.size < UInt32.size) := by
  have hregion : Region.space ⟨s.base, s.bytes⟩ = .holding s.base s.bytes.toList :=
    Region.space_eq_holding ⟨s.base, s.bytes⟩ hfits
  have hbytes : s.bytes.size ≤ UInt32.size := Nat.le_trans (Nat.le_add_left _ _) hfits
  have hholds := AddressSpace.holds_holding s.base s.bytes hbytes
  rw [hregion]
  refine ⟨hholds, fun hsame => ?_, fun hbelow a => by rw [space_eq_holding s hbelow]⟩
  apply Nat.lt_of_le_of_ne hfits
  intro htop
  have hbase := s.base.toNat_lt_size
  have hpos : 0 < s.bytes.size := by omega
  -- the region holds its first byte, and the image holds nothing
  have hfirst := hholds.held 0 hpos
  rw [← hsame, AddressSpace.read_of_none (space_of_reaches_top s htop _)] at hfirst
  cases hfirst

/-- Two bytes right below the last address. -/
theorem reads_as_region_belowTop :
    let s := Segment.raw "code" 0xFFFFFFFD #[0x20, 0x20]
    s.base.toNat + s.bytes.size ≤ UInt32.size ∧
      (Region.space ⟨s.base, s.bytes⟩).Holds s.base s.bytes ∧
      ∀ a, (space ⟨[s]⟩).read a = (Region.space ⟨s.base, s.bytes⟩).read a := by
  intro s
  have hfits : s.base.toNat + s.bytes.size ≤ UInt32.size := by decide
  have h := reads_as_region_iff s hfits
  exact ⟨hfits, h.1, h.2.mpr (by decide)⟩

/-- Two bytes, the second of them at the last address: the region holds them, the image does not. -/
theorem segment_at_top_reads_nothing :
    let s := Segment.raw "code" 0xFFFFFFFE #[0x20, 0x20]
    s.base.toNat + s.bytes.size ≤ UInt32.size ∧
      (Region.space ⟨s.base, s.bytes⟩).read 0xFFFFFFFE = .ok 0x20 ∧
      (space ⟨[s]⟩).read 0xFFFFFFFE = .error ⟨0xFFFFFFFE⟩ ∧
      ¬∀ a, (space ⟨[s]⟩).read a = (Region.space ⟨s.base, s.bytes⟩).read a := by
  intro s
  have hregion : (Region.space ⟨s.base, s.bytes⟩).read 0xFFFFFFFE = .ok 0x20 :=
    AddressSpace.read_of_some (by decide)
  have himage : (space ⟨[s]⟩).read 0xFFFFFFFE = .error ⟨0xFFFFFFFE⟩ :=
    AddressSpace.read_of_none (by decide)
  refine ⟨by decide, hregion, himage, fun hsame => ?_⟩
  cases himage.symm.trans ((hsame 0xFFFFFFFE).trans hregion)

end Image

end DspCode
