import DspCode.Proofs.RoundTrip
import DspCode.Proofs.Session

/-!
# Second halves whose first half is gone

A recorded second half is decoded from the bytes before it, whatever these are by now. It decodes as
long as they still unpack at the recorded length, which is less than what makes them a first half:
they may have lost the marker, they may be a plain instruction, or their first half may be no
instruction any more.
-/

namespace DspCode.Machine

/-- Whether the bytes at an address are an instruction as they stand. -/
def IsPlain (space : AddressSpace) (context : Context) (a : Address) : Prop :=
  ∃ insn, c55x.matchWindow context plainNext (.new space a) = .ok (some insn)

/-- An address without a record decodes as a first half exactly when it starts with a marker, is no
plain instruction, and unpacks into two instructions. -/
theorem decode_head_iff {space : AddressSpace} {k : Knowledge} {a t : Address} {n : Nat}
    (hk : k.pairs.headLength? a = none) :
    (∃ d, c55x.decode space k a = .ok d ∧ d.insn.half? = some (.head t) ∧ d.insn.length = n) ↔
      (∃ first, space a = some first ∧ PackedPair.isMarker first = true) ∧
        ¬IsPlain space k.context a ∧
        ∃ pair head tail, Halves space k.context (c55x.nextAddress space k) a pair head tail ∧
          head.limit = t ∧ head.length = n := by
  rw [IsPlain, exists_match_iff _ plainNext (c55x.nextAddress space k)]
  constructor
  · rintro ⟨d, hd, ht, hl⟩
    obtain ⟨first, pair, head, tail, hf, hm, hno, hh, hlimit, rfl⟩ :=
      (decode_eq_ok_iff.mp hd).exists_halves ht
    exact ⟨⟨first, hf, hm⟩, hno, pair, head, tail, hh, hlimit, (length_asHead head).symm.trans hl⟩
  · rintro ⟨⟨first, hf, hm⟩, hno, pair, head, tail, hh, rfl, rfl⟩
    exact ⟨_, decode_eq_ok_iff.mpr (.head hk hf hm hno hh), rfl, length_asHead head⟩

/-- A recorded second half that decodes stands behind a first half, on the memory as it is, exactly
when the bytes at the recorded distance before it start with a marker, are no plain instruction, and
unpack into a first half that is an instruction. -/
theorem decoded_tail_has_head_iff {space : AddressSpace} {k : Knowledge} {t : Address} {n : Nat}
    {d : Decoded} (hn : k.pairs.headLength? t = some n) (hd : c55x.decode space k t = .ok d) :
    (∃ d', c55x.decode space { k with pairs := k.pairs.clear (t - UInt32.ofNat n) }
          (t - UInt32.ofNat n) = .ok d' ∧
        d'.insn.half? = some (.head t) ∧ d'.insn.length = n) ↔
      (∃ first, space (t - UInt32.ofNat n) = some first ∧ PackedPair.isMarker first = true) ∧
        ¬IsPlain space k.context (t - UInt32.ofNat n) ∧
        ∃ pair head, PackedPair.unpack? space (t - UInt32.ofNat n) = some pair ∧
          c55x.matchExactly space k.context plainNext (t - UInt32.ofNat n) pair.head =
            .ok (some head) := by
  have hcleared : (k.pairs.clear (t - UInt32.ofNat n)).headLength? (t - UInt32.ofNat n) = none := by
    rw [PairLedger.headLength?_clear, if_pos rfl]
  rw [decode_head_iff hcleared]
  obtain ⟨pair, insn, hs⟩ := (decode_eq_ok_iff.mp hd).exists_secondHalf hn
  refine and_congr_right fun _ => and_congr_right fun _ => ⟨?_, ?_⟩
  · rintro ⟨pair', head, tail, hh, -, -⟩
    obtain ⟨head', hhead'⟩ := exists_rematch hh.matchedHead plainNext
    exact ⟨pair', head', hh.unpacked, hhead'⟩
  · rintro ⟨pair', head, hu, hhead⟩
    cases hu.symm.trans hs.unpacked
    generalize c55x.nextAddress space { k with pairs := k.pairs.clear _ } = next
    obtain ⟨head', hhead'⟩ := exists_rematch hhead next
    obtain ⟨-, hl, hlimit⟩ := exists_matched_of_exactly hhead'
    rw [hs.length, UInt32.sub_add_cancel] at hlimit
    obtain ⟨tail, htail⟩ := exists_rematch hs.matched next
    exact ⟨pair, head', tail, ⟨hu, hhead', by rw [hlimit]; exact htail⟩, hlimit,
      hl.trans hs.length⟩

/-- The pair whose second half is at 2, after a first half of two bytes, is known. -/
def pairKnown : Knowledge := { pairs := PairLedger.empty.record 2 2 }

private theorem headLength?_pairKnown : pairKnown.pairs.headLength? 2 = some 2 := by
  rw [pairKnown, PairLedger.headLength?_record, if_pos rfl]

/-- Decoding the pair of four bytes records its second half. -/
theorem after_decode_fourBytePair :
    Session.after ⟨fourBytePair, {}⟩ (.decode 0) = ⟨fourBytePair, pairKnown⟩ :=
  Session.after_decode (some (.record 2 2)) (by decide +kernel)

/-- A pair that nothing was written to still has its first half. -/
theorem decoded_tail_has_head_fourBytePair :
    pairKnown.pairs.headLength? 2 = some 2 ∧ (∃ d, c55x.decode fourBytePair pairKnown 2 = .ok d) ∧
      ∃ d', c55x.decode fourBytePair { pairKnown with pairs := pairKnown.pairs.clear 0 } 0 =
          .ok d' ∧ d'.insn.half? = some (.head 2) ∧ d'.insn.length = 2 := by
  have hn := headLength?_pairKnown
  have hsome : (c55x.decode fourBytePair pairKnown 2).toOption.map (·.update) = some none := by
    decide +kernel
  obtain ⟨d, hd, -⟩ := exists_ok_of_toOption hsome
  have hplain : ((c55x.matchWindow pairKnown.context plainNext
      (.new fourBytePair 0)).toOption.bind id).isNone = true := by decide +kernel
  have hhead : ((PackedPair.unpack? fourBytePair 0).bind fun pair =>
      (c55x.matchExactly fourBytePair pairKnown.context plainNext 0 pair.head).toOption.bind
        id).isSome = true := by decide +kernel
  refine ⟨hn, ⟨d, hd⟩, (decoded_tail_has_head_iff hn hd).mpr ⟨⟨0x8A, rfl, rfl⟩, ?_, ?_⟩⟩
  · rintro ⟨insn, h⟩
    rw [show (2 : Address) - UInt32.ofNat 2 = 0 from rfl] at h
    rw [h] at hplain
    cases hplain
  · obtain ⟨head, hm⟩ := Option.isSome_iff_exists.mp hhead
    obtain ⟨pair, hu, hm⟩ := Option.bind_eq_some_iff.mp hm
    obtain ⟨result, hr⟩ := exists_matchExactly fourBytePair pairKnown.context plainNext 0 pair.head
    rw [hr] at hm
    exact ⟨pair, head, hu, hr.trans (congrArg Except.ok hm)⟩

/-- A second half outlives the first half of its pair: once a plain instruction that ends where it
starts is written over the first half, it still decodes as the second half of a pair. -/
theorem tail_outlives_head :
    let s := Session.run ⟨fourBytePair, {}⟩ [.decode 0, .write 0 0xAA]
    s.knowledge.pairs.headLength? 2 = some 2 ∧
      (∃ d, c55x.decode s.space s.knowledge 2 = .ok d ∧ d.insn.half? = some (.tail 0)) ∧
      ∃ d', c55x.decode s.space { s.knowledge with pairs := s.knowledge.pairs.clear 0 } 0 =
          .ok d' ∧ d'.insn.half? = none := by
  have hs : Session.run ⟨fourBytePair, {}⟩ [.decode 0, .write 0 0xAA] =
      Session.after ⟨fourBytePair, pairKnown⟩ (.write 0 0xAA) := by
    rw [← after_decode_fourBytePair]
    rfl
  rw [hs]
  exact ⟨headLength?_pairKnown, exists_ok_of_toOption (by decide +kernel),
    exists_ok_of_toOption (by decide +kernel)⟩

end DspCode.Machine
