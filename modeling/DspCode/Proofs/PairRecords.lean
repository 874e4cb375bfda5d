import DspCode.Proofs.Boundaries
import DspCode.Proofs.Session

/-!
# Records of packed pairs

Every record in the ledger was made when the first half of its pair was decoded. While the memory
stays as it is, the bytes it was made from are still there, and its second half decodes at any time:
whatever else has been decoded, forgotten or noted about registers since.
-/

namespace DspCode

namespace PairLedger

variable {l : PairLedger}

/-- Forgetting a first half keeps the records of all others. -/
theorem headLength?_forgetHead_eq_some_iff {head tail : Address} {n : Nat} :
    (l.forgetHead head).headLength? tail = some n ↔
      l.headLength? tail = some n ∧ tail - UInt32.ofNat n ≠ head := by
  simp only [headLength?, forgetHead, Std.TreeMap.getElem?_filter', Option.filter_eq_some_iff,
    bne_iff_ne]

/-- An empty ledger has no records. -/
theorem headLength?_empty (tail : Address) : empty.headLength? tail = none := by
  simp [headLength?, empty]

end PairLedger

namespace Machine

/-- In some state of knowledge, decoding `head` gives the first half of a pair: `n` bytes, with the
second half at `tail`. -/
def ShowsPair (space : AddressSpace) (head tail : Address) (n : Nat) : Prop :=
  ∃ k d, c55x.decode space k head = .ok d ∧ d.insn.half? = some (.head tail) ∧ d.insn.length = n

/-- A packed pair has both its halves in every context and wherever code targets count from. -/
theorem Halves.renew {space : AddressSpace} {context : Context} {next : NextAddress} {a : Address}
    {pair : PackedPair} {head tail : Instruction}
    (h : Halves space context next a pair head tail) (context' : Context) (next' : NextAddress) :
    ∃ head' tail', Halves space context' next' a pair head' tail' ∧ head'.limit = head.limit := by
  obtain ⟨head₁, tail₁, h₁, hagree⟩ := h.inContext context'
  obtain ⟨head', hhead⟩ := exists_rematch h₁.matchedHead next'
  obtain ⟨tail', htail⟩ := exists_rematch h₁.matchedTail next'
  have hlimit : head'.limit = head₁.limit :=
    (exists_matched_of_exactly hhead).2.2.trans (exists_matched_of_exactly h₁.matchedHead).2.2.symm
  exact ⟨head', tail', ⟨h.unpacked, hhead, hlimit.symm ▸ htail⟩, hlimit.trans hagree.limit⟩

namespace ShowsPair

variable {space : AddressSpace} {head tail : Address} {n : Nat}

/-- What shows a pair once shows it in every context. -/
theorem exists_halves (h : ShowsPair space head tail n) (context : Context) (next : NextAddress) :
    ∃ pair first second, Halves space context next head pair first second ∧
      first.limit = tail ∧ pair.head.length = n := by
  obtain ⟨k, d, hd, ht, hn⟩ := h
  obtain ⟨_, pair, first, second, -, -, -, hh, hlimit, rfl⟩ :=
    (decode_eq_ok_iff.mp hd).exists_halves ht
  obtain ⟨first', second', hh', hlimit'⟩ := hh.renew context next
  refine ⟨pair, first', second', hh', hlimit'.trans hlimit, ?_⟩
  rw [← hn, ← (exists_matched_of_exactly hh.matchedHead).2.1]
  exact (length_asHead first).symm

/-- The first half of a pair has two to four bytes. -/
theorem bounds (h : ShowsPair space head tail n) : 2 ≤ n ∧ n ≤ 4 := by
  obtain ⟨pair, _, _, hh, -, rfl⟩ := h.exists_halves {} plainNext
  exact (PackedPair.layout_of_unpack hh.unpacked).head_length

/-- A pair that is shown unpacks from the bytes at its first half. -/
theorem exists_unpack (h : ShowsPair space head tail n) :
    ∃ pair, PackedPair.unpack? space head = some pair ∧ pair.head.length = n := by
  obtain ⟨pair, _, _, hh, -, hn⟩ := h.exists_halves {} plainNext
  exact ⟨pair, hh.unpacked, hn⟩

/-- Where a pair starts, no encoding agrees with the bytes as they stand. -/
theorem not_matched (h : ShowsPair space head tail n) (context : Context) (next : NextAddress) :
    ¬∃ insn, c55x.matchWindow context next (.new space head) = .ok (some insn) := by
  obtain ⟨k, d, hd, ht, -⟩ := h
  obtain ⟨_, _, _, _, -, -, hno, -⟩ := (decode_eq_ok_iff.mp hd).exists_halves ht
  rintro ⟨insn, hmatch⟩
  have hsame := matchWindow_context context k.context next (.new space head)
  rw [hmatch] at hsame
  generalize hmatch' : c55x.matchWindow k.context next (.new space head) = outcome at hsame
  cases hsame with
  | ok hrel =>
    cases hrel with
    | some => exact hno ((exists_match_iff _ _ _ _).mp ⟨_, hmatch'⟩)

/-- A pair that is on record has a second half to decode. -/
theorem exists_decode_tail (h : ShowsPair space head tail n) {k : Knowledge}
    (hrecord : k.pairs.headLength? tail = some n) :
    ∃ d, c55x.decode space k tail = .ok d ∧ d.update = none ∧
      d.insn.half? = some (.tail head) := by
  obtain ⟨pair, first, second, hh, rfl, hn⟩ :=
    h.exists_halves k.context (c55x.nextAddress space k)
  rw [← hn, ← (exists_matched_of_exactly hh.matchedHead).2.1] at hrecord
  obtain ⟨second', -, hdecode⟩ := hh.exists_decode_tail rfl hrecord
  exact ⟨_, hdecode, rfl, rfl⟩

end ShowsPair

/-- After an address is decoded, a record is one from before or that of the first half just
decoded. -/
theorem record_of_decodeAndRecord {space : AddressSpace} {k : Knowledge} {a tail : Address}
    {n : Nat} (h : (c55x.decodeAndRecord space k a).2.pairs.headLength? tail = some n) :
    k.pairs.headLength? tail = some n ∨ ShowsPair space (tail - UInt32.ofNat n) tail n := by
  cases hd : c55x.decode space k a with
  | error e =>
    rw [decodeAndRecord_of_error hd] at h
    exact Or.inl h
  | ok d =>
    rw [decodeAndRecord_of_ok hd] at h
    cases decode_eq_ok_iff.mp hd with
    | tail => exact Or.inl h
    | plain =>
      simp only [assignRoles, Knowledge.learn, PairLedger.apply, PairLedger.headLength?_clear] at h
      split at h
      · cases h
      · exact Or.inl h
    | @head _ _ first _ _ _ _ _ hh =>
      simp only [assignRoles, Knowledge.learn, PairLedger.apply, PairLedger.headLength?_record] at h
      split at h
      next htail =>
        cases h
        cases htail
        rw [hh.limit_sub_length]
        exact Or.inr ⟨k, _, hd, rfl, length_asHead first⟩
      next => exact Or.inl h

end Machine

namespace Knowledge

/-- After a lesson, a record is one from before or that of a first half just decoded. -/
theorem record_of_after {space : AddressSpace} {k : Knowledge} {lesson : Lesson} {tail : Address}
    {n : Nat} (h : (k.after space lesson).pairs.headLength? tail = some n) :
    k.pairs.headLength? tail = some n ∨
      Machine.ShowsPair space (tail - UInt32.ofNat n) tail n := by
  cases lesson with
  | decode a => exact Machine.record_of_decodeAndRecord h
  | undo head => exact Or.inl (PairLedger.headLength?_forgetHead_eq_some_iff.mp h).1
  | note a register value => exact Or.inl h

/-- Every record is that of a pair of the memory. -/
def TrueTo (space : AddressSpace) (k : Knowledge) : Prop :=
  ∀ tail n, k.pairs.headLength? tail = some n →
    Machine.ShowsPair space (tail - UInt32.ofNat n) tail n

namespace TrueTo

variable {space : AddressSpace} {k : Knowledge}

/-- A lesson about a memory keeps what is known true to it. -/
theorem after (h : k.TrueTo space) (lesson : Lesson) : (k.after space lesson).TrueTo space := by
  intro tail n hrecord
  obtain hbefore | hshows := record_of_after hrecord
  · exact h tail n hbefore
  · exact hshows

/-- All lessons about a memory keep what is known true to it. -/
theorem study (h : k.TrueTo space) (lessons : List Lesson) :
    (k.study space lessons).TrueTo space := by
  induction lessons generalizing k with
  | nil => exact h
  | cons lesson rest ih => exact ih (h.after lesson)

/-- An empty ledger is true to every memory. -/
theorem of_empty (space : AddressSpace) (context : Context) :
    ({ context } : Knowledge).TrueTo space := by
  intro tail n hrecord
  cases (PairLedger.headLength?_empty tail).symm.trans hrecord

end TrueTo

end Knowledge

namespace Machine

/-- While the memory stays as it is, every record means a pair: after any lessons, from an empty
ledger on, a first half of two to four bytes unpacks at the recorded distance before a recorded
second half, and the second half decodes and points back to it. -/
theorem recorded_tail_decodes {space : AddressSpace} {context : Context} {lessons : List Lesson}
    {tail : Address} {n : Nat}
    (h : (Knowledge.study space { context } lessons).pairs.headLength? tail = some n) :
    2 ≤ n ∧ n ≤ 4 ∧
      (∃ pair, PackedPair.unpack? space (tail - UInt32.ofNat n) = some pair ∧
        pair.head.length = n) ∧
      ∃ insn, (c55x.decodeAndRecord space (Knowledge.study space { context } lessons) tail).1 =
          .ok insn ∧ insn.half? = some (.tail (tail - UInt32.ofNat n)) := by
  have hshows := (Knowledge.TrueTo.of_empty space context).study lessons tail n h
  obtain ⟨d, hd, -, hhalf⟩ := hshows.exists_decode_tail h
  refine ⟨hshows.bounds.1, hshows.bounds.2, hshows.exists_unpack, d.insn, ?_, hhalf⟩
  rw [decodeAndRecord_of_ok hd]

/-- The second half at 4 stays on record while the stack mode changes and it is decoded itself. -/
theorem recorded_tail_decodes_sixBytePair :
    (Knowledge.study sixBytePair {}
        [.decode 0, .note 2 Register.cpl.id (some 0), .decode 4]).pairs.headLength? 4 = some 4 ∧
      2 ≤ 4 ∧ 4 ≤ 4 ∧
      (∃ pair, PackedPair.unpack? sixBytePair 0 = some pair ∧ pair.head.length = 4) ∧
      ∃ insn, (c55x.decodeAndRecord sixBytePair (Knowledge.study sixBytePair {}
          [.decode 0, .note 2 Register.cpl.id (some 0), .decode 4]) 4).1 = .ok insn ∧
        insn.half? = some (.tail 0) := by
  have h : (Knowledge.study sixBytePair {}
      [.decode 0, .note 2 Register.cpl.id (some 0), .decode 4]).pairs.headLength? 4 = some 4 := by
    decide +kernel
  exact ⟨h, recorded_tail_decodes h⟩

end Machine

end DspCode
