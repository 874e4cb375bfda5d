import DspCode.AddressSpace.Image
import DspCode.Flow.Block
import DspCode.Proofs.Lengths

/-!
# What a walk keeps

Every visited instruction has at least one byte, all its bytes are mapped, and edges start at
visited instructions. In the address space of an image the last address is never mapped, so visited
instructions lead to higher addresses.
-/

namespace DspCode

/-- The last address is not mapped. -/
def AddressSpace.EndsBelowTop (space : AddressSpace) : Prop := space 0xFFFFFFFF = none

/-- A segment that would reach the top of the address space contains no address. -/
theorem Image.endsBelowTop_space (image : Image) : image.space.EndsBelowTop := by
  have hnone : image.segments.find? (·.contains 0xFFFFFFFF) = none := by
    refine List.find?_eq_none.mpr fun s _ => ?_
    have hle : ¬(0xFFFFFFFF : Address) < s.limit := by
      have := s.limit.toNat_lt_size
      rw [UInt32.lt_iff_toNat_lt]
      exact Nat.not_lt.mpr (Nat.le_of_lt_succ this)
    simp [Segment.contains, hle]
  rw [AddressSpace.EndsBelowTop, Image.space, hnone]
  rfl

/-- Addresses below the top add up without wrapping. -/
theorem Address.toNat_add_ofNat {a : Address} {n : Nat} (h : a.toNat + n < UInt32.size) :
    (a + UInt32.ofNat n).toNat = a.toNat + n := by
  rw [UInt32.toNat_add, UInt32.toNat_ofNat_of_lt' (Nat.lt_of_le_of_lt (Nat.le_add_left _ _) h)]
  exact Nat.mod_eq_of_lt h

/-- Mapped bytes do not go on at address zero. -/
theorem AddressSpace.EndsBelowTop.toNat_add_lt {space : AddressSpace} (h : space.EndsBelowTop)
    {a : Address} {n : Nat} (hmapped : ∀ i < n, space.isMapped (a + UInt32.ofNat i) = true) :
    a.toNat + n < UInt32.size := by
  apply Nat.not_le.mp
  intro hle
  have hlt := a.toNat_lt_size
  have hsize : UInt32.size = 4294967296 := rfl
  have htop : a + UInt32.ofNat (0xFFFFFFFF - a.toNat) = 0xFFFFFFFF := by
    rw [← UInt32.toNat_inj, Address.toNat_add_ofNat (by omega)]
    show a.toNat + (0xFFFFFFFF - a.toNat) = 0xFFFFFFFF
    omega
  have hm := hmapped (0xFFFFFFFF - a.toNat) (by omega)
  rw [htop, isMapped, h] at hm
  cases hm

namespace Walk

variable {space : AddressSpace} {w : Walk} {a : Address}

/-- An address is visited if it has a width. -/
theorem isVisited_iff : w.isVisited a = true ↔ ∃ n, w.widths[a]? = some n := by
  rw [isVisited, Std.TreeMap.contains_eq_isSome_getElem?, Option.isSome_iff_exists]

/-- What every walk keeps. -/
structure Sound (space : AddressSpace) (w : Walk) : Prop where
  /-- Visited instructions have bytes, and all of them are mapped. -/
  measured : ∀ a n, w.widths[a]? = some n →
    0 < n ∧ ∀ i < n, space.isMapped (a + UInt32.ofNat i) = true
  /-- Edges start at visited instructions. -/
  sources : ∀ e ∈ w.edges.toList, w.isVisited e.source = true

/-- The edges of an instruction start at its own address. -/
theorem source_of_mem_edgesOf {insn : Instruction} {effects : Effects} {e : Edge}
    (h : e ∈ edgesOf space a insn effects) : e.source = a := by
  unfold edgesOf at h
  rcases List.mem_append.mp h with h | h
  · obtain ⟨r, -, rfl⟩ := List.mem_map.mp h
    rfl
  · split at h
    · cases List.mem_singleton.mp h
      rfl
    · cases h

/-- A visit takes in an instruction of which all bytes are mapped. -/
theorem Sound.visit (h : w.Sound space) {insn : Instruction} {known : Knowledge}
    (hd : Machine.c55x.decodeAndRecord space w.known a = (.ok insn, known)) :
    (({ w with known } : Walk).visit space a insn).Sound space := by
  obtain ⟨update, hdecode, -⟩ := Machine.decode_of_decodeAndRecord hd
  have hm := (Machine.decode_eq_ok_iff.mp hdecode).measured
  constructor
  · intro b n hn
    simp only [Walk.visit, Std.TreeMap.getElem?_insert, Std.compare_eq_iff_eq] at hn
    split at hn
    case isTrue hab =>
      cases hab
      cases hn
      exact ⟨hm.pos, hm.mapped⟩
    case isFalse => exact h.measured b n hn
  · intro e he
    simp only [Walk.visit, isVisited, Array.toList_appendList, Std.TreeMap.contains_insert,
      Bool.or_eq_true] at he ⊢
    rcases List.mem_append.mp he with he | he
    · exact Or.inr (h.sources e he)
    · exact Or.inl (by simp [source_of_mem_edgesOf he])

/-- Following a queue visits, and passes over what cannot be decoded. -/
theorem Sound.follow {limit : Nat} {queue : List Address} (h : w.Sound space) :
    (follow space limit w queue).Sound space := by
  fun_induction Walk.follow space limit w queue with
  | case1 => exact h
  | case2 => exact h
  | case3 _ _ _ _ _ ih => exact ih h
  | case4 _ _ _ _ _ _ _ _ ih => exact ih ⟨h.measured, h.sources⟩
  | case5 _ _ _ _ _ _ _ hd _ ih => exact ih (h.visit hd)

/-- Every walk is sound. -/
theorem sound_of (settings : Settings) (space : AddressSpace) (entries : List Address)
    (limit : Nat) : (Walk.of settings space entries limit).Sound space := by
  refine Sound.follow ⟨?_, ?_⟩
  · intro a n hn
    simp at hn
  · intro e he
    cases he

/-- Visited instructions lead to higher addresses. -/
def Ascends (w : Walk) : Prop := ∀ a, w.isVisited a = true → a < w.nextOf a

private theorem Sound.ascends (h : w.Sound space) (hspace : space.EndsBelowTop) : w.Ascends := by
  intro a hv
  obtain ⟨n, hn⟩ := isVisited_iff.mp hv
  obtain ⟨hpos, hmapped⟩ := h.measured a n hn
  rw [nextOf, hn, Option.getD_some, UInt32.lt_iff_toNat_lt,
    Address.toNat_add_ofNat (hspace.toNat_add_lt hmapped)]
  omega

/-- In the walk of an image, visited instructions lead to higher addresses. -/
theorem ascends_of (settings : Settings) (image : Image) (entries : List Address) (limit : Nat) :
    (Walk.of settings image.space entries limit).Ascends :=
  (sound_of settings image.space entries limit).ascends image.endsBelowTop_space

/-! ## A walk in single steps -/

/-- One step of following a queue: the walk and the queue after it. -/
def advance (space : AddressSpace) (limit : Nat) : Walk × List Address → Walk × List Address
  | (w, []) => (w, [])
  | (w, a :: rest) =>
    if limit ≤ w.widths.size then (w, [])
    else if w.isVisited a then (w, rest)
    else
      match Machine.c55x.decodeAndRecord space w.known a with
      | (.error _, known) => ({ w with known }, rest)
      | (.ok insn, known) =>
        (({ w with known } : Walk).visit space a insn,
          rest ++ ({ w with known } : Walk).found space a insn)

private theorem follow_advance (space : AddressSpace) (limit : Nat) (p : Walk × List Address) :
    follow space limit (advance space limit p).1 (advance space limit p).2 =
      follow space limit p.1 p.2 := by
  fun_cases advance space limit p with
  | case1 w => rfl
  | case2 w a rest hlimit => rw [follow, follow, if_pos hlimit]
  | case3 w a rest hlimit hv => rw [follow.eq_2, if_neg hlimit, if_pos hv]
  | case4 w a rest hlimit hv e known hd => rw [follow.eq_2, if_neg hlimit, if_neg hv, hd]
  | case5 w a rest hlimit hv insn known hd => rw [follow.eq_2, if_neg hlimit, if_neg hv, hd]

/-- Steps that empty the queue end with the walk that following it gives. -/
theorem follow_eq_of_repeat {space : AddressSpace} {limit n : Nat} {p : Walk × List Address}
    (h : (Nat.repeat (advance space limit) n p).2 = []) :
    follow space limit p.1 p.2 = (Nat.repeat (advance space limit) n p).1 := by
  have hrun : ∀ n, follow space limit (Nat.repeat (advance space limit) n p).1
      (Nat.repeat (advance space limit) n p).2 = follow space limit p.1 p.2 := by
    intro n
    induction n with
    | zero => rfl
    | succ n ih => exact (follow_advance space limit _).trans ih
  rw [← hrun n, h, follow]

end Walk

end DspCode
