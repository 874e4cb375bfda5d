import DspCode.Proofs.Lengths

/-!
# Partners in parallel

A short instruction counts its code targets from behind the instruction that runs in parallel with
it. To find its end, that partner is decoded without looking any further ahead. Nothing is lost by
this: where code distances count from shows in no part of a result but the targets themselves, so
the partner is found, or not found, and ends just as in the full decoding of its address.
-/

namespace DspCode

/-- The result of decoding with all code targets given by their distance counted from `next`. -/
def Decoded.retarget (next : Address) (mask : UInt32) (d : Decoded) : Decoded :=
  { d with insn := d.insn.retarget next mask }

namespace Machine

/-- An instruction can be made a first half before or after its targets are counted anew. -/
theorem asHead_retarget (insn : Instruction) (next : Address) (mask : UInt32) :
    asHead (insn.retarget next mask) = (asHead insn).retarget next mask := by
  rw [asHead, asHead, StatusBit.nameBit_retarget, Instruction.limit_retarget]
  rfl

/-- An instruction can be made a second half before or after its targets are counted anew. -/
theorem asTail_retarget (head : Address) (insn : Instruction) (next : Address) (mask : UInt32) :
    asTail head (insn.retarget next mask) = (asTail head insn).retarget next mask := by
  rw [asTail, asTail, StatusBit.nameBit_retarget, Instruction.asSecond_retarget]

private theorem assignRoles_retarget (m : Machine) (d : Decoded) (next : Address) (mask : UInt32) :
    m.assignRoles (d.retarget next mask) = (m.assignRoles d).retarget next mask := by
  rw [assignRoles, assignRoles, Decoded.retarget, withUsage_retarget]
  rfl

/-! ## Counting code distances from elsewhere -/

section Counting

variable {space : AddressSpace} {context : Context} {next : NextAddress} {a : Address}

/-- The same row is matched, with its targets moved. -/
theorem matchWindow_retarget (context : Context) (next next' : NextAddress) (w : ByteWindow) :
    ∃ target, c55x.matchWindow context next' w =
      (c55x.matchWindow context next w).map (Option.map (·.retarget target c55x.codeMask)) := by
  rw [matchWindow_eq, matchWindow_eq]
  split
  next row word hf =>
    exact ⟨_, build_retarget context next w word (Encoding.firstMatch_found hf).1 next'⟩
  next => exact ⟨0, rfl⟩
  next => exact ⟨0, rfl⟩

/-- Where targets count from another address, the same bytes match, and only targets differ. -/
theorem matchExactly_retarget {bytes : List UInt8} {insn : Instruction}
    (h : c55x.matchExactly space context next a bytes = .ok (some insn)) (next' : NextAddress) :
    ∃ target, c55x.matchExactly space context next' a bytes =
      .ok (some (insn.retarget target c55x.codeMask)) := by
  obtain ⟨⟨row, word, hm⟩, hl, -⟩ := exists_matched_of_exactly h
  exact ⟨_, matchExactly_eq_some_iff.mpr ⟨(hm.retarget next').matchWindow, hl⟩⟩

/-- A packed pair has both halves wherever targets count from, and only targets differ. -/
theorem Halves.retarget {pair : PackedPair} {head tail : Instruction}
    (h : Halves space context next a pair head tail) (next' : NextAddress) :
    ∃ target tail',
      Halves space context next' a pair (head.retarget target c55x.codeMask) tail' := by
  obtain ⟨target, hhead⟩ := matchExactly_retarget h.matchedHead next'
  obtain ⟨_, htail⟩ := matchExactly_retarget h.matchedTail next'
  exact ⟨target, _, h.unpacked, hhead, htail⟩

/-- A second half is found wherever targets count from, and only targets differ. -/
theorem SecondHalf.retarget {headLength : Nat} {pair : PackedPair} {insn : Instruction}
    (h : SecondHalf space context next a headLength pair insn) (next' : NextAddress) :
    ∃ target,
      SecondHalf space context next' a headLength pair (insn.retarget target c55x.codeMask) := by
  obtain ⟨target, hmatched⟩ := matchExactly_retarget h.matched next'
  exact ⟨target, h.unpacked, h.length, hmatched⟩

variable (space context next a)

/-- Where the next instruction is does not decide whether a packed pair decodes. -/
theorem decodePacked_retarget (next' : NextAddress) :
    ∃ target, c55x.decodePacked space context next' a =
      (c55x.decodePacked space context next a).map (·.retarget target c55x.codeMask) := by
  by_cases hh : ∃ pair head tail, Halves space context next a pair head tail
  · obtain ⟨pair, head, tail, h⟩ := hh
    obtain ⟨target, tail', h'⟩ := h.retarget next'
    refine ⟨target, ?_⟩
    rw [decodePacked_of_halves h, decodePacked_of_halves h', asHead_retarget]
    rfl
  · -- halves that were found with the other distances would be found with these
    have hh' : ∀ pair head tail, ¬Halves space context next' a pair head tail := by
      intro pair head tail h'
      obtain ⟨_, _, h⟩ := h'.retarget next
      exact hh ⟨pair, _, _, h⟩
    simp only [not_exists] at hh
    rw [decodePacked_of_not_halves hh, decodePacked_of_not_halves hh']
    exact ⟨0, rfl⟩

/-- Where the next instruction is does not decide whether a second half decodes. -/
theorem decodeTail_retarget (headLength : Nat) (next' : NextAddress) :
    ∃ target, c55x.decodeTail space context next' a headLength =
      (c55x.decodeTail space context next a headLength).map
        (·.retarget target c55x.codeMask) := by
  by_cases hh : ∃ pair insn, SecondHalf space context next a headLength pair insn
  · obtain ⟨pair, insn, h⟩ := hh
    obtain ⟨target, h'⟩ := h.retarget next'
    refine ⟨target, ?_⟩
    rw [decodeTail_of_secondHalf h, decodeTail_of_secondHalf h', asTail_retarget]
    rfl
  · have hh' : ∀ pair insn, ¬SecondHalf space context next' a headLength pair insn := by
      intro pair insn h'
      obtain ⟨_, h⟩ := h'.retarget next
      exact hh ⟨pair, _, h⟩
    simp only [not_exists] at hh
    rw [decodeTail_of_not_secondHalf hh, decodeTail_of_not_secondHalf hh']
    exact ⟨0, rfl⟩

/-- Where the next instruction is does not decide whether a plain instruction decodes. -/
theorem decodePlain_retarget (next' : NextAddress) :
    ∃ target, c55x.decodePlain space context next' a =
      (c55x.decodePlain space context next a).map (·.retarget target c55x.codeMask) := by
  have hpacked := decodePacked_retarget space context next a next'
  obtain ⟨target, hmatch⟩ := matchWindow_retarget context next next' (.new space a)
  unfold decodePlain
  rw [hmatch]
  cases space a with
  | none => exact ⟨0, rfl⟩
  | some first =>
    cases c55x.matchWindow context next (.new space a) with
    | ok result =>
      cases result with
      | some insn =>
        refine ⟨target, ?_⟩
        simp only [Except.map, Option.map_some, finishPlain_retarget, Instruction.limit_retarget]
        rfl
      | none =>
        simp only [Except.map, Option.map_none]
        split
        · exact hpacked
        · exact ⟨0, rfl⟩
    | error e =>
      cases e with
      | outOfBounds b =>
        simp only [Except.map]
        split
        · exact hpacked
        · exact ⟨0, rfl⟩
      | _ => exact ⟨0, rfl⟩

end Counting

section Lookahead

variable (space : AddressSpace) (k : Knowledge)

/-- Where code distances count from decides nothing but the targets: an address that fails to decode
fails with the same error, and any other gives the same instruction with its targets moved, and asks
for the same update. -/
theorem decodeWith_retarget (next next' : NextAddress) (a : Address) :
    ∃ target, c55x.decodeWith space k next' a =
      (c55x.decodeWith space k next a).map (·.retarget target c55x.codeMask) := by
  cases hk : k.pairs.headLength? a with
  | none =>
    obtain ⟨target, h⟩ := decodePlain_retarget space k.context next a next'
    refine ⟨target, ?_⟩
    rw [decodeWith_of_none hk, decodeWith_of_none hk, h]
    cases c55x.decodePlain space k.context next a with
    | ok d => exact congrArg Except.ok (assignRoles_retarget c55x d target c55x.codeMask)
    | error e => rfl
  | some headLength =>
    obtain ⟨target, h⟩ := decodeTail_retarget space k.context next a headLength next'
    refine ⟨target, ?_⟩
    rw [decodeWith_of_some hk, decodeWith_of_some hk, h]
    cases c55x.decodeTail space k.context next a headLength with
    | ok d => exact congrArg Except.ok (assignRoles_retarget c55x d target c55x.codeMask)
    | error e => rfl

/-- How many bytes an address decodes to does not depend on where code distances count from. -/
theorem length_decodeWith_plainNext (a : Address) :
    (c55x.decodeWith space k plainNext a).map (·.insn.length) =
      (c55x.decode space k a).map (·.insn.length) := by
  obtain ⟨target, h⟩ := decodeWith_retarget space k (c55x.nextAddress space k) plainNext a
  rw [h, decode]
  cases c55x.decodeWith space k (c55x.nextAddress space k) a <;> rfl

variable {space k}

/-- A partner is as long as the instruction that its address decodes to. -/
theorem partnerLength_of_parallel {a : Address} {first : UInt8} (hf : space a = some first)
    (hp : parallelBit first = true) :
    c55x.partnerLength space k a =
      match c55x.decode space k a with
      | .ok d => d.insn.length
      | .error _ => 0 := by
  have hparallel : c55x.isParallel first = true := hp
  have hlength := length_decodeWith_plainNext space k a
  unfold partnerLength
  simp only [hf, hparallel, if_true]
  cases h : c55x.decodeWith space k plainNext a with
  | ok d =>
    cases h' : c55x.decode space k a with
    | ok d' =>
      rw [h, h'] at hlength
      exact Except.ok.inj hlength
    | error e =>
      rw [h, h'] at hlength
      cases hlength
  | error e =>
    cases h' : c55x.decode space k a with
    | ok d' =>
      rw [h, h'] at hlength
      cases hlength
    | error e' => rfl

end Lookahead

/-- One level of lookahead is enough. Where an instruction is short enough for a partner and the
byte after it has the parallel bit, its code distances count from the end of the instruction that
the address of this byte decodes to, or from this address if it does not decode. Decoding the
partner without a look further ahead gives the same error, or the same instruction with its code
targets moved: it never changes whether the partner decodes or how long it is. -/
theorem nextAddress_eq_limit_of_partner {space : AddressSpace} {k : Knowledge} {a p : Address}
    {length : Nat} {first : UInt8} (hlength : length ≤ 3) (hplace : a + UInt32.ofNat length = p)
    (hf : space p = some first) (hp : parallelBit first = true) :
    (∀ d, c55x.decode space k p = .ok d → c55x.nextAddress space k a length = d.insn.limit) ∧
      (∀ e, c55x.decode space k p = .error e → c55x.nextAddress space k a length = p) ∧
      (c55x.decodeWith space k plainNext p).map (·.insn.length) =
        (c55x.decode space k p).map (·.insn.length) ∧
      ∃ target, c55x.decodeWith space k plainNext p =
        (c55x.decode space k p).map (·.retarget target c55x.codeMask) := by
  have hnext : c55x.nextAddress space k a length =
      p + UInt32.ofNat (c55x.partnerLength space k p) := by
    simp only [nextAddress, Nat.not_lt.mpr hlength, if_false, hplace]
  refine ⟨fun d hd => ?_, fun e he => ?_, length_decodeWith_plainNext space k p,
    decodeWith_retarget space k _ plainNext p⟩
  · rw [hnext, partnerLength_of_parallel hf hp, hd, Instruction.limit,
      (decode_eq_ok_iff.mp hd).address_eq]
  · rw [hnext, partnerLength_of_parallel hf hp, he]
    exact UInt32.add_zero p

/-- Three branches in a row, each in parallel with the one before it. -/
def branchChain : AddressSpace := .holding 0 [0x05, 0x00, 0x00, 0x05, 0x00, 0x00, 0x05, 0x00, 0x00]

/-- The first branch counts from the end of the second, whatever that counts from. -/
theorem nextAddress_eq_limit_of_partner_branchChain :
    ∃ d, c55x.decode branchChain {} 3 = .ok d ∧ d.insn.limit = 6 ∧
      c55x.nextAddress branchChain {} 0 3 = d.insn.limit ∧
      (c55x.decodeWith branchChain {} plainNext 3).map (·.insn.length) =
        (c55x.decode branchChain {} 3).map (·.insn.length) := by
  have hlimit : (c55x.decode branchChain {} 3).toOption.map (·.insn.limit) = some 6 := by
    decide +kernel
  obtain ⟨d, hd, hl⟩ := exists_ok_of_toOption hlimit
  have hplace : (0 : Address) + UInt32.ofNat 3 = 3 := rfl
  have hbyte : branchChain 3 = some 0x05 := by decide
  have hpartner := nextAddress_eq_limit_of_partner (k := {}) (by decide) hplace hbyte (by decide)
  exact ⟨d, hd, hl, hpartner.1 d hd, hpartner.2.2.1⟩

end Machine

end DspCode
