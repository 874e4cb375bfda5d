import DspCode.Machine

/-!
# Unpacked halves

What the halves of a packed pair are made of. Both have two to four bytes. Their first bytes come
from the packed word; after a marker, neither of them has the parallel bit. The further bytes of
both halves are the bytes after the word, each of them used once and in order.
-/

namespace DspCode

namespace AddressSpace

private theorem map_some_of_mapM {α β : Type} {f : α → Option β} {l : List α} {r : List β}
    (h : l.mapM f = some r) : r.map some = l.map f := by
  induction l generalizing r with
  | nil =>
    cases h
    rfl
  | cons x rest ih =>
    rw [List.mapM_cons] at h
    obtain ⟨y, hy, h⟩ := Option.bind_eq_some_iff.mp h
    obtain ⟨ys, hys, h⟩ := Option.bind_eq_some_iff.mp h
    cases h
    rw [List.map_cons, List.map_cons, ih hys, hy]

/-- The bytes between two offsets are those that the address space holds there. -/
theorem map_some_bytesBetween {space : AddressSpace} {a : Address} {lo hi : Nat}
    {bytes : List UInt8} (h : space.bytesBetween? a lo hi = some bytes) :
    bytes.map some = (List.range' lo (hi - lo)).map fun i => space (a + UInt32.ofNat i) :=
  map_some_of_mapM h

/-- All bytes between two places are read, or none. -/
theorem length_bytesBetween {space : AddressSpace} {a : Address} {lo hi : Nat}
    {bytes : List UInt8} (h : space.bytesBetween? a lo hi = some bytes) :
    bytes.length = hi - lo := by
  have := congrArg List.length (map_some_bytesBetween h)
  rwa [List.length_map, List.length_map, List.length_range'] at this

/-- Appending a byte to a number of at most three bytes. -/
theorem toNat_append_byte (value : UInt32) (h : value.toNat < 0x1000000) (b : UInt8) :
    ((value <<< 8) ||| b.toUInt32).toNat = value.toNat * 256 + b.toNat := by
  have hb : b.toNat < 2 ^ 8 := b.toNat_lt
  have hs : (value <<< 8).toNat = value.toNat <<< 8 := by
    rw [UInt32.toNat_shiftLeft]
    refine Nat.mod_eq_of_lt ?_
    rw [Nat.shiftLeft_eq]
    exact Nat.mul_lt_mul_of_pos_right h (by decide)
  rw [UInt32.toNat_or, hs, UInt8.toNat_toUInt32, ← Nat.shiftLeft_add_eq_or_of_lt hb,
    Nat.shiftLeft_eq]

/-- A number that is read from memory is read byte by byte. -/
theorem appendBigEndian_succ {space : AddressSpace} {a : Address} {value w : UInt32} {n : Nat}
    (h : space.appendBigEndian a value (n + 1) = .ok w) :
    ∃ b, space a = some b ∧
      space.appendBigEndian (a + 1) ((value <<< 8) ||| b.toUInt32) n = .ok w := by
  unfold appendBigEndian at h
  split at h
  next => cases h
  next b hb => exact ⟨b, hb, h⟩

/-- A word of four bytes has its first byte at the top and its last at the bottom. -/
theorem readBigEndian_four {space : AddressSpace} {a : Address} {w : UInt32}
    (h : space.readBigEndian a 4 = .ok w) :
    ∃ b₀ b₁ b₂ b₃, space a = some b₀ ∧ space (a + 1) = some b₁ ∧ space (a + 2) = some b₂ ∧
      space (a + 3) = some b₃ ∧
      w.toNat = b₀.toNat * 0x1000000 + b₁.toNat * 0x10000 + b₂.toNat * 0x100 + b₃.toNat := by
  obtain ⟨b₀, h₀, h⟩ := appendBigEndian_succ h
  obtain ⟨b₁, h₁, h⟩ := appendBigEndian_succ h
  obtain ⟨b₂, h₂, h⟩ := appendBigEndian_succ h
  obtain ⟨b₃, h₃, h⟩ := appendBigEndian_succ h
  rw [UInt32.add_assoc] at h₂
  rw [UInt32.add_assoc, UInt32.add_assoc] at h₃
  have l₀ := b₀.toNat_lt
  have l₁ := b₁.toNat_lt
  have l₂ := b₂.toNat_lt
  have e₀ := toNat_append_byte 0 (by decide) b₀
  have e₁ := toNat_append_byte _ (by rw [e₀, UInt32.toNat_zero]; omega) b₁
  have e₂ := toNat_append_byte _ (by rw [e₁, e₀, UInt32.toNat_zero]; omega) b₂
  have e₃ := toNat_append_byte _ (by rw [e₂, e₁, e₀, UInt32.toNat_zero]; omega) b₃
  cases h
  rw [e₂, e₁, e₀, UInt32.toNat_zero] at e₃
  refine ⟨b₀, b₁, b₂, b₃, h₀, h₁, h₂, h₃, ?_⟩
  rw [e₃]
  omega

end AddressSpace

namespace PackedPair

/-- The bytes of a second half that follow the word in memory, given the last byte of the word:
those after its memory byte, or the middle one of a register instruction. -/
def extension (pair : PackedPair) (last : UInt8) : List UInt8 :=
  if 0x80 ≤ last then pair.tail.drop 2 else (pair.tail.drop 1).take 1

/-- What the halves of the packed pair at an address are made of. -/
structure Layout (space : AddressSpace) (a : Address) (pair : PackedPair) : Prop where
  /-- The first half has two to four bytes. -/
  head_length : 2 ≤ pair.head.length ∧ pair.head.length ≤ 4
  /-- The second half has two to four bytes. -/
  tail_length : 2 ≤ pair.tail.length ∧ pair.tail.length ≤ 4
  /-- After a marker, the first half starts with a byte from 0x80 on. -/
  head_first : ∃ marker opcode, space a = some marker ∧ pair.head[0]? = some opcode ∧
    (isMarker marker = true → 0x80 ≤ opcode)
  /-- The first byte of the second half has no parallel bit. -/
  tail_first : ∃ opcode, pair.tail[0]? = some opcode ∧ Machine.parallelBit opcode = false
  /-- The further bytes of both halves are those after the word. -/
  rest : ∃ last, space (a + 3) = some last ∧ (last < 0x80 → pair.tail.length = 3) ∧
    (pair.head.drop 2 ++ pair.extension last).map some =
      (List.range' 4 (pair.head.length + pair.tail.length - 4)).map
        fun i => space (a + UInt32.ofNat i)

private theorem widthOf_le (word : Nat) : widthOf word ≤ 4 := by
  unfold widthOf Encoding.leadingWidth
  split
  next e he =>
    have h := List.find?_some he
    simp only [Encoding.agreesWithWord, Bool.and_eq_true, decide_eq_true_eq] at h
    exact h.1
  next => exact Nat.zero_le 4

/-- A second half with a memory field has two to four bytes. -/
theorem memoryTailWidth?_bounds {space : AddressSpace} {a : Address} {opcode headWidth w : Nat}
    (h : memoryTailWidth? space a opcode headWidth = some w) : 2 ≤ w ∧ w ≤ 4 := by
  simp only [memoryTailWidth?] at h
  split at h
  next hw =>
    cases h
    exact ⟨hw, widthOf_le _⟩
  next =>
    obtain ⟨third, -, h⟩ := Option.bind_eq_some_iff.mp h
    split at h
    next hw =>
      cases h
      exact ⟨hw, widthOf_le _⟩
    next =>
      obtain ⟨fourth, -, h⟩ := Option.bind_eq_some_iff.mp h
      split at h
      next hw =>
        cases h
        exact ⟨hw, widthOf_le _⟩
      next => cases h

private theorem shortHeadWidth?_le {space : AddressSpace} {a : Address} {probe w : Nat}
    (h : shortHeadWidth? space a probe = some w) : w ≤ 4 := by
  simp only [shortHeadWidth?] at h
  split at h
  next =>
    cases h
    exact widthOf_le _
  next =>
    obtain ⟨third, -, h⟩ := Option.bind_eq_some_iff.mp h
    split at h
    next =>
      cases h
      exact widthOf_le _
    next =>
      obtain ⟨fourth, -, h⟩ := Option.bind_eq_some_iff.mp h
      split at h
      next =>
        cases h
        exact Nat.le_refl 4
      next => cases h

/-- The low half of a marker becomes the high half of the first opcode. -/
theorem le_headOpcode {marker : UInt8} {word : Nat} (hw : word / 0x1000000 = marker.toNat)
    (h : isMarker marker = true) : 0x80 ≤ UInt8.ofNat (headOpcode word) := by
  have hlow : ∀ n < 256, isMarker (UInt8.ofNat n) = true → 8 ≤ n % 16 := by decide +kernel
  have hn := hlow marker.toNat marker.toNat_lt (by rwa [UInt8.ofNat_toNat])
  have hop : headOpcode word < 2 ^ 8 := by
    unfold headOpcode
    omega
  rw [UInt8.le_iff_toNat_le, UInt8.toNat_ofNat_of_lt' hop]
  show 128 ≤ headOpcode word
  unfold headOpcode
  omega

/-- Bytes from 0x80 on have no parallel bit. -/
theorem parallelBit_of_le {b : UInt8} (h : 0x80 ≤ b) : Machine.parallelBit b = false := by
  have hb : ¬b ≤ 0x5F := by
    rw [UInt8.le_iff_toNat_le] at h ⊢
    exact Nat.not_le.mpr (Nat.lt_of_lt_of_le (by decide) h)
  simp only [Machine.parallelBit, hb, decide_false, Bool.false_and]

private theorem parallelBit_of_four {n : Nat} (hn : n < 16) :
    Machine.parallelBit (UInt8.ofNat (n * 16 + 4)) = false := by
  have hall : ∀ n < 16, Machine.parallelBit (UInt8.ofNat (n * 16 + 4)) = false := by decide
  exact hall n hn

section Layouts

variable {space : AddressSpace} {a : Address} {word : Nat} {first last : UInt8} {pair : PackedPair}

/-- A pair with two memory fields is laid out as packed pairs are. -/
theorem layout_of_withMemoryFields (ha : space a = some first) (hl : space (a + 3) = some last)
    (hfirst : word / 0x1000000 = first.toNat) (hlast : word % 256 = last.toNat)
    (hm : 0x80 ≤ tailOpcode word) (h : withMemoryFields? space a word = some pair) :
    Layout space a pair := by
  simp only [withMemoryFields?] at h
  have hhead := widthOf_le (headOpcode word * 0x1000000)
  generalize widthOf (headOpcode word * 0x1000000) = headWidth at h hhead
  split at h
  next => cases h
  next hw =>
    obtain ⟨tailWidth, htail, h⟩ := Option.bind_eq_some_iff.mp h
    obtain ⟨headRest, hhr, h⟩ := Option.bind_eq_some_iff.mp h
    obtain ⟨tailRest, htr, h⟩ := Option.bind_eq_some_iff.mp h
    cases h
    obtain ⟨htail₂, htail₄⟩ := memoryTailWidth?_bounds htail
    have lhr := AddressSpace.length_bytesBetween hhr
    have ltr := AddressSpace.length_bytesBetween htr
    have hhigh : 0x80 ≤ last := by
      rw [UInt8.le_iff_toNat_le, ← hlast]
      exact hm
    have hopcode : UInt8.ofNat (tailOpcode word) = last := by
      rw [tailOpcode, hlast, UInt8.ofNat_toNat]
    refine ⟨?_, ?_, ⟨first, _, ha, rfl, le_headOpcode hfirst⟩, ⟨_, rfl, ?_⟩, last, hl, ?_, ?_⟩
    · simp only [List.length_cons]
      omega
    · simp only [List.length_cons]
      omega
    · rw [hopcode]
      exact parallelBit_of_le hhigh
    · exact fun hlow => absurd hhigh (UInt8.not_le.mpr hlow)
    · rw [extension, if_pos hhigh]
      simp only [List.drop_succ_cons, List.drop_zero, List.length_cons, List.map_append]
      have hstart : headWidth + 2 = 4 + (headWidth + 2 - 4) := by omega
      have hcount : headRest.length + 1 + 1 + (tailRest.length + 1 + 1) - 4 =
          (headWidth + 2 - 4) + (headWidth + tailWidth - (headWidth + 2)) := by omega
      rw [AddressSpace.map_some_bytesBetween hhr, AddressSpace.map_some_bytesBetween htr,
        ← List.map_append, hcount, ← List.range'_append_1, ← hstart]

/-- A pair with a short second half is laid out as packed pairs are. -/
theorem layout_of_withShortTail (ha : space a = some first) (hl : space (a + 3) = some last)
    (hfirst : word / 0x1000000 = first.toNat) (hlast : word % 256 = last.toNat)
    (hm : ¬0x80 ≤ tailOpcode word) (h : withShortTail? space a word = some pair) :
    Layout space a pair := by
  simp only [withShortTail?] at h
  obtain ⟨headWidth, hhead, h⟩ := Option.bind_eq_some_iff.mp h
  split at h
  next => cases h
  next hw =>
    obtain ⟨headRest, hhr, h⟩ := Option.bind_eq_some_iff.mp h
    obtain ⟨middle, hmid, h⟩ := Option.bind_eq_some_iff.mp h
    cases h
    have hhead₄ := shortHeadWidth?_le hhead
    have lhr := AddressSpace.length_bytesBetween hhr
    obtain ⟨b, hb, rfl⟩ := Option.map_eq_some_iff.mp hmid
    have hlow : last < 0x80 := by
      rw [UInt8.lt_iff_toNat_lt, ← hlast]
      exact Nat.not_le.mp hm
    refine ⟨?_, by simp, ⟨first, _, ha, rfl, le_headOpcode hfirst⟩, ⟨_, rfl, ?_⟩, last, hl, ?_, ?_⟩
    · simp only [List.length_cons]
      omega
    · exact parallelBit_of_four (Nat.mod_lt _ (by decide))
    · exact fun _ => rfl
    · rw [extension, if_neg (UInt8.not_le.mpr hlow)]
      simp only [List.drop_succ_cons, List.drop_zero, List.take_succ_cons, List.take_zero,
        List.length_cons, List.length_nil, List.map_append, UInt8.ofNat_toNat, List.map_cons,
        List.map_nil]
      rw [AddressSpace.map_some_bytesBetween hhr, ← hb]
      have hcount : headRest.length + 1 + 1 + (0 + 1 + 1 + 1) - 4 = headRest.length + 1 := by omega
      rw [hcount, List.range'_1_concat, List.map_append, ← lhr]
      have hplace : headWidth + 2 = 4 + headRest.length := by omega
      rw [hplace]
      rfl

end Layouts

/-- The halves of a packed pair are laid out in one of the two ways. -/
theorem layout_of_unpack {space : AddressSpace} {a : Address} {pair : PackedPair}
    (h : unpack? space a = some pair) : Layout space a pair := by
  unfold unpack? at h
  split at h
  next => cases h
  next w hw =>
    obtain ⟨first, b₁, b₂, last, ha, -, -, hl, hword⟩ := AddressSpace.readBigEndian_four hw
    have l₁ := b₁.toNat_lt
    have l₂ := b₂.toNat_lt
    have l₃ := last.toNat_lt
    have hfirst : w.toNat / 0x1000000 = first.toNat := by omega
    have hlast : w.toNat % 256 = last.toNat := by omega
    simp only at h
    split at h
    next hm => exact layout_of_withMemoryFields ha hl hfirst hlast hm h
    next hm => exact layout_of_withShortTail ha hl hfirst hlast hm h

end PackedPair

end DspCode
