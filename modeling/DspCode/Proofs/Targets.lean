import DspCode.Proofs.Partners
import DspCode.Proofs.Repeating
import DspCode.Proofs.Shadowing

/-!
# Where code targets count from

A code target given by its distance is counted while the fields of its row contribute, from behind
the bytes read so far. These are the bytes of the instruction, a qualifier byte apart, as long as no
later field reads more of them. One row of the table has such a field: a branch on a changed pointer
counts its target before the pointer is read. With a pointer that takes bytes after the code word
its target counts from inside the instruction; all other targets count from behind it.
-/

namespace DspCode

/-- How many bytes of a decoded instruction were matched. A plain instruction asks to clear the
record right behind these bytes; a qualifier byte comes after them. -/
def Decoded.matchedLength (d : Decoded) : Nat :=
  match d.update with
  | some (.clear tail) => (tail - d.insn.address).toNat
  | _ => d.insn.length

/-- A target that stays where it is when counted from `next` is counted from there. -/
theorem Instruction.target_of_retarget_eq {insn : Instruction} {next address : Address}
    {mask : UInt32} {slot : Nat} {distance : Int} (h : insn.retarget next mask = insn)
    (hop : (insn.operand slot).value = .target address (some distance)) :
    address = (next + UInt32.ofInt distance) &&& mask := by
  have hslot := congrArg (fun i => (i.operand slot).value) h
  simp only [operand_retarget, Operand.retarget_of_target _ _ hop, hop,
    OperandValue.target.injEq] at hslot
  exact hslot.1.symm

namespace Encoding

/-- Whether a row reads nothing but its code word, or is four bytes long with a first byte 0xFC. -/
def isWholeOrBranchOnPointer (e : Encoding) : Bool :=
  e.readsNothing || e.width == 4 && (e.pattern 0).code == 0xFC && (e.pattern 0).mask == 0xFF

/-- The rows with a code target at a distance have at most four bytes, and one of them alone reads
more than these. -/
theorem table_seeks :
    (table.all fun e => !e.seeks || e.width ≤ 4 && e.isWholeOrBranchOnPointer) = true := by
  decide +kernel

/-- Rows with a target at a distance have at most four bytes, and all but those that start with 0xFC
take nothing else. -/
theorem seeks_cases {e : Encoding} (h : e ∈ table) (hs : e.seeks = true) :
    e.width ≤ 4 ∧ (e.readsNothing = true ∨
      e.width = 4 ∧ ∀ b : UInt8, (e.pattern 0).fits b = true → b = 0xFC) := by
  have hrow := List.all_eq_true.mp table_seeks e h
  simp only [hs, Bool.not_true, Bool.false_or, Bool.and_eq_true, decide_eq_true_eq,
    isWholeOrBranchOnPointer, Bool.or_eq_true, beq_iff_eq] at hrow
  obtain ⟨hwidth, hreads | ⟨⟨hfour, hcode⟩, hmask⟩⟩ := hrow
  · exact ⟨hwidth, Or.inl hreads⟩
  · refine ⟨hwidth, Or.inr ⟨hfour, fun b hb => ?_⟩⟩
    have hall : ∀ n < 256, (0xFC &&& 0xFF == n &&& 0xFF) = true → n = 0xFC := by decide +kernel
    rw [BytePattern.fits, hcode, hmask] at hb
    exact UInt8.toNat_inj.mp (hall b.toNat b.toNat_lt hb)

end Encoding

namespace Machine

/-! ## The match behind a result -/

/-- The match that a result of decoding comes from. -/
structure ComesFrom (space : AddressSpace) (context : Context) (next : NextAddress) (a : Address)
    (d : Decoded) (w : ByteWindow) (row : Encoding) (word : Nat) (insn : Instruction) : Prop where
  /-- It was made at the address. -/
  base : w.base = a
  /-- A row gives its instruction. -/
  matched : Matched context next w row word insn
  /-- It takes the bytes of the result, a qualifier byte apart. -/
  length : d.matchedLength = insn.length
  /-- Halves of a pair have at most four bytes; all other instructions are matched where they
  stand. -/
  place : insn.length ≤ 4 ∨ w = .new space a
  /-- What is done after the match moves no targets. -/
  targets : ∀ n, insn.retarget n c55x.codeMask = insn →
    d.insn.retarget n c55x.codeMask = d.insn

section Origin

variable {space : AddressSpace} {k : Knowledge} {next : NextAddress} {a : Address} {d : Decoded}

private theorem Matched.matchedLength_finishPlain {context : Context} {w : ByteWindow}
    {row : Encoding} {word : Nat} {insn : Instruction} (h : Matched context next w row word insn)
    (first : UInt8) :
    (c55x.assignRoles ⟨c55x.finishPlain space first insn, some (.clear insn.limit)⟩).matchedLength =
      insn.length := by
  show (insn.limit - (c55x.finishPlain space first insn).address).toNat = insn.length
  rw [address_finishPlain, Instruction.limit, UInt32.add_comm, UInt32.add_sub_cancel,
    UInt32.toNat_ofNat_of_lt' (Nat.lt_of_le_of_lt h.length_le (by decide))]

/-- A decoded instruction comes from a row that was matched in a window. -/
theorem Decodes.exists_comesFrom (h : Decodes space k next a d) :
    ∃ w row word insn, ComesFrom space k.context next a d w row word insn := by
  cases h with
  | @plain first row word insn _ hf hm =>
    refine ⟨_, row, word, insn, rfl, hm, hm.matchedLength_finishPlain first, Or.inr rfl,
      fun n hn => ?_⟩
    show (finished space first insn).retarget n c55x.codeMask = finished space first insn
    rw [← finished_retarget, hn]
  | @head _ pair head _ _ _ _ _ hh =>
    obtain ⟨⟨row, word, hm⟩, hl, -⟩ := exists_matched_of_exactly hh.matchedHead
    refine ⟨_, row, word, head, rfl, hm, length_asHead head, Or.inl ?_, fun n hn => ?_⟩
    · rw [hl]
      exact (PackedPair.layout_of_unpack hh.unpacked).head_length.2
    · show (c55x.withUsage (asHead head)).retarget n c55x.codeMask = c55x.withUsage (asHead head)
      rw [← withUsage_retarget, ← asHead_retarget, hn]
  | @tail headLength pair insn _ hs =>
    obtain ⟨⟨row, word, hm⟩, hl, -⟩ := exists_matched_of_exactly hs.matched
    generalize a - UInt32.ofNat headLength = head
    refine ⟨_, row, word, insn, rfl, hm, length_asTail head insn, Or.inl ?_, fun n hn => ?_⟩
    · rw [hl]
      exact (PackedPair.layout_of_unpack hs.unpacked).tail_length.2
    · show (c55x.withUsage (asTail head insn)).retarget n c55x.codeMask =
        c55x.withUsage (asTail head insn)
      rw [← withUsage_retarget, ← asTail_retarget, hn]

/-- An instruction takes the bytes of its match, and one more exactly with a qualifier byte. -/
theorem Decodes.length_cases (h : Decodes space k next a d) :
    d.insn.length = d.matchedLength ∨ d.insn.length = d.matchedLength + 1 ∧
      ∃ b q, space (a + UInt32.ofNat d.matchedLength) = some b ∧
        Qualifier.ofByte? b = some q := by
  cases h with
  | @plain first row word insn _ hf hm =>
    rw [hm.matchedLength_finishPlain first]
    obtain ⟨_, ⟨b, q, hb, hq, -⟩, hfinish⟩ | ⟨-, hfinish⟩ := finishPlain_cases space first insn
    · refine Or.inr ⟨by rw [assignRoles, hfinish]; rfl, b, q, ?_, hq⟩
      rwa [Instruction.limit, hm.address_eq] at hb
    · exact Or.inl (by rw [assignRoles, hfinish]; exact length_marked first insn)
  | head => exact Or.inl rfl
  | tail => exact Or.inl rfl

namespace ComesFrom

variable {context : Context} {w : ByteWindow} {row : Encoding} {word : Nat} {insn : Instruction}
  {slot : Nat} {address : Address} {distance : Int}

/-- A code target at a distance counts from behind the code word, and from behind the partner of an
instruction with the length of the code word. -/
theorem target_eq (h : ComesFrom space context next a d w row word insn)
    (hop : (d.insn.operand slot).value = .target address (some distance)) :
    address = (next a row.width + UInt32.ofInt distance) &&& c55x.codeMask := by
  have hself := h.matched.retarget_self
  rw [h.base] at hself
  exact Instruction.target_of_retarget_eq (h.targets _ hself) hop

/-- Code targets given by their distance come from rows that have them: those of other rows would
have to count from everywhere. -/
theorem seeks (h : ComesFrom space context next a d w row word insn)
    (hop : (d.insn.operand slot).value = .target address (some distance)) : row.seeks = true := by
  apply Bool.of_not_eq_false
  intro hs
  have hanywhere : ∀ n : Address,
      address = (n + UInt32.ofInt distance) &&& c55x.codeMask := fun n =>
    Instruction.target_of_retarget_eq
      (h.targets n (h.matched.of_not_seeks hs fun _ _ => n).retarget_self) hop
  have hsame := (hanywhere (0 + UInt32.ofNat 0)).symm.trans (hanywhere (0 + UInt32.ofNat 1))
  exact absurd (eq_of_masked_eq (by decide) (by decide) hsame) (by decide)

/-- With a code target at a distance, an instruction either takes its code word alone or is matched
where it stands, by a row of four bytes that starts with 0xFC. -/
theorem length_cases (h : ComesFrom space context next a d w row word insn)
    (hs : row.seeks = true) :
    insn.length = row.width ∧ row.width ≤ 4 ∨
      row.width = 4 ∧ 4 < insn.length ∧ space a = some 0xFC := by
  obtain ⟨hwidth, hreads | ⟨hfour, hfirst⟩⟩ := Encoding.seeks_cases h.matched.mem hs
  · refine Or.inl ⟨?_, hwidth⟩
    rw [h.matched.length_eq, Encoding.bytesAfter_of_readsNothing hreads, Nat.add_zero]
  · have hle := h.matched.width_le
    by_cases hlong : 4 < insn.length
    · obtain rfl := h.place.resolve_left (Nat.not_le.mpr hlong)
      obtain ⟨b, hbyte, hfits⟩ := h.matched.exists_first
      rw [hfirst b hfits] at hbyte
      exact Or.inr ⟨hfour, hlong, hbyte⟩
    · exact Or.inl ⟨by omega, hwidth⟩

end ComesFrom

end Origin

/-! ## The address that targets count from -/

/-- The address behind `n` bytes from `a` on and, if these are few enough for a partner and the next
byte has the parallel bit, behind the instruction decoded there. -/
def behindPartner (space : AddressSpace) (k : Knowledge) (a : Address) (n : Nat) : Address :=
  let p := a + UInt32.ofNat n
  if n ≤ 3 ∧ (space p).any parallelBit = true then
    match c55x.decode space k p with
    | .ok d => p + UInt32.ofNat d.insn.length
    | .error _ => p
  else p

/-- Targets count from behind the instruction that is looked ahead to. -/
theorem nextAddress_eq_behindPartner (space : AddressSpace) (k : Knowledge) (a : Address)
    (n : Nat) : c55x.nextAddress space k a n = behindPartner space k a n := by
  unfold nextAddress behindPartner
  by_cases hshort : n ≤ 3
  · simp only [Nat.not_lt.mpr hshort, if_false, hshort, true_and]
    generalize a + UInt32.ofNat n = p
    cases hf : space p with
    | none =>
      simp only [partnerLength, hf]
      exact UInt32.add_zero p
    | some first =>
      cases hp : parallelBit first with
      | false =>
        have hparallel : c55x.isParallel first = false := hp
        simp only [partnerLength, hf, hparallel, Option.any_some, hp]
        exact UInt32.add_zero p
      | true =>
        rw [partnerLength_of_parallel hf hp]
        simp only [Option.any_some, hp, if_true]
        cases c55x.decode space k p with
        | ok d => rfl
        | error e => exact UInt32.add_zero p
  · simp only [Nat.not_le.mp hshort, if_true, hshort, false_and, if_false]

/-- A target is the distance added to where it counts from, within the code space. -/
theorem toNat_target (next : Address) (distance : Int) :
    (((next + UInt32.ofInt distance) &&& c55x.codeMask).toNat : Int) =
      ((next.toNat : Int) + distance) % 16777216 := by
  rw [toNat_and_codeMask, UInt32.toNat_add, UInt32.ofInt, UInt32.toNat_ofNat']
  omega

private theorem target_eq_iff {next address : Address} {distance : Int} :
    (address.toNat : Int) = ((next.toNat : Int) + distance) % 16777216 ↔
      address = (next + UInt32.ofInt distance) &&& c55x.codeMask := by
  rw [← toNat_target, Int.natCast_inj, UInt32.toNat_inj]

/-- Code targets at a distance count from behind the instruction and its partner, but for one row.
With `n` the length of the instruction before a qualifier byte, the target is the given distance
from there, within the 24 bits of a code address, exactly if `n` is at most four. A longer
instruction with such a target is a branch on a changed pointer, and its target counts from behind
its first four bytes. -/
theorem target_counts_from_end_iff {space : AddressSpace} {k : Knowledge} {a : Address}
    {d : Decoded} (hd : c55x.decode space k a = .ok d) {slot : Nat} {address : Address}
    {distance : Int} (hop : (d.insn.operand slot).value = .target address (some distance)) :
    (d.insn.length = d.matchedLength ∨ d.insn.length = d.matchedLength + 1 ∧
        ∃ b q, space (a + UInt32.ofNat d.matchedLength) = some b ∧
          Qualifier.ofByte? b = some q) ∧
      ((address.toNat : Int) =
          ((behindPartner space k a d.matchedLength).toNat + distance) % 16777216 ↔
        d.matchedLength ≤ 4) ∧
      (4 < d.matchedLength → space a = some 0xFC ∧
        (address.toNat : Int) = ((a + 4).toNat + distance) % 16777216) := by
  have hdecodes := decode_eq_ok_iff.mp hd
  obtain ⟨w, row, word, insn, hfrom⟩ := hdecodes.exists_comesFrom
  have htarget := hfrom.target_eq hop
  refine ⟨hdecodes.length_cases, ?_⟩
  rw [target_eq_iff, target_eq_iff, ← nextAddress_eq_behindPartner, hfrom.length]
  obtain ⟨hlength, hshort⟩ | ⟨hfour, hlong, hfirst⟩ := hfrom.length_cases (hfrom.seeks hop)
  · rw [hlength]
    exact ⟨iff_of_true htarget hshort, fun hlong => absurd hshort (Nat.not_le.mpr hlong)⟩
  · -- both ends lie within ten bytes, so that counting from one never looks like the other
    rw [hfour, nextAddress_of_lt (by decide)] at htarget
    refine ⟨iff_of_false (fun hend => ?_) (Nat.not_le.mpr hlong), fun _ => ⟨hfirst, htarget⟩⟩
    rw [nextAddress_of_lt (Nat.lt_trans (by decide) hlong)] at hend
    have hsame := eq_of_masked_eq (by decide) (Nat.le_succ_of_le hfrom.matched.length_le)
      (htarget.symm.trans hend)
    omega

/-- A branch with a nop in parallel. -/
def branchWithPartner : AddressSpace := .holding 0x100 [0x06, 0x00, 0x02, 0x21]

/-- The target counts from behind the nop. -/
theorem target_counts_from_end_iff_withPartner :
    ∃ d, c55x.decode branchWithPartner {} 0x100 = .ok d ∧
      (d.insn.operand 0).value = .target 0x106 (some 2) ∧ d.matchedLength = 3 ∧
      ((0x106 : Address).toNat : Int) =
        ((behindPartner branchWithPartner {} 0x100 d.matchedLength).toNat + 2) % 16777216 := by
  have hfacts : (c55x.decode branchWithPartner {} 0x100).toOption.map
      (fun d => ((d.insn.operand 0).value, d.matchedLength)) =
        some (.target 0x106 (some 2), 3) := by decide +kernel
  obtain ⟨d, hd, hd'⟩ := exists_ok_of_toOption hfacts
  obtain ⟨hop, hlength⟩ := Prod.mk.inj hd'
  exact ⟨d, hd, hop, hlength,
    (target_counts_from_end_iff hd hop).2.1.mpr (by rw [hlength]; decide)⟩

/-- A branch on a pointer that is changed by a 16-bit distance in the bytes after the code word. -/
def branchOnDistantPointer : AddressSpace := .holding 0 [0xFC, 0x0D, 0x00, 0x02, 0x12, 0x34]

/-- Six bytes are taken, but the target is two bytes behind the fourth. -/
theorem target_counts_from_inside :
    ∃ d, c55x.decode branchOnDistantPointer {} 0 = .ok d ∧
      (d.insn.operand 0).value = .target 6 (some 2) ∧ d.insn.length = 6 ∧ d.matchedLength = 6 ∧
      behindPartner branchOnDistantPointer {} 0 6 = 6 ∧
      ((6 : Address).toNat : Int) ≠
        ((behindPartner branchOnDistantPointer {} 0 d.matchedLength).toNat + 2) % 16777216 := by
  have hfacts : (c55x.decode branchOnDistantPointer {} 0).toOption.map
      (fun d => ((d.insn.operand 0).value, d.insn.length, d.matchedLength)) =
        some (.target 6 (some 2), 6, 6) := by decide +kernel
  obtain ⟨d, hd, hd'⟩ := exists_ok_of_toOption hfacts
  obtain ⟨hop, hlengths⟩ := Prod.mk.inj hd'
  obtain ⟨hlength, hmatched⟩ := Prod.mk.inj hlengths
  refine ⟨d, hd, hop, hlength, hmatched, rfl, ?_⟩
  rw [hmatched]
  decide

end Machine

end DspCode
