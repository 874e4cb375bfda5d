import DspCode.Proofs.Outcomes

/-!
# What the ledger means for decoding

Decoding looks up the ledger at the address itself, and looks ahead to the next instruction for
code targets of short instructions. It asks for a change of the ledger only after a plain
instruction or a first half.
-/

namespace DspCode

namespace PairLedger

variable (l : PairLedger)

/-- A record is found at its own second half, and all others are as before. -/
theorem headLength?_record (tail a : Address) (n : Nat) :
    (l.record tail n).headLength? a = if tail = a then some n else l.headLength? a := by
  simp only [headLength?, record, Std.TreeMap.getElem?_insert, Std.compare_eq_iff_eq]

/-- Nothing is on record at a second half that was cleared, and all others are as before. -/
theorem headLength?_clear (tail a : Address) :
    (l.clear tail).headLength? a = if tail = a then none else l.headLength? a := by
  simp only [headLength?, clear, Std.TreeMap.getElem?_erase, Std.compare_eq_iff_eq]

end PairLedger

/-- What is known after an update. -/
def Knowledge.learn (k : Knowledge) : Option PairUpdate → Knowledge
  | none => k
  | some update => { k with pairs := k.pairs.apply update }

/-- What is learned about pairs leaves the context as it is. -/
@[simp] theorem Knowledge.context_learn (k : Knowledge) (update : Option PairUpdate) :
    (k.learn update).context = k.context := by
  cases update <;> rfl

/-- The address whose record an update changes. -/
def PairUpdate.tail : PairUpdate → Address
  | .record tail _ => tail
  | .clear tail => tail

/-- An update leaves the records of other addresses as they are. -/
theorem Knowledge.headLength?_learn_of_ne (k : Knowledge) {update : PairUpdate} {a : Address}
    (h : update.tail ≠ a) :
    (k.learn (some update)).pairs.headLength? a = k.pairs.headLength? a := by
  cases update with
  | record tail n => exact (k.pairs.headLength?_record tail a n).trans (if_neg h)
  | clear tail => exact (k.pairs.headLength?_clear tail a).trans (if_neg h)

/-- A result that is found in an outcome shows that it is a success. -/
theorem exists_ok_of_toOption {ε α β : Type} {r : Except ε α} {f : α → β} {b : β}
    (h : r.toOption.map f = some b) : ∃ a, r = .ok a ∧ f a = b := by
  cases r with
  | error e => cases h
  | ok a => exact ⟨a, rfl, Option.some.inj h⟩

/-- The failure that a result reports. -/
def failure? {ε α : Type} : Except ε α → Option ε
  | .error e => some e
  | .ok _ => none

/-- An outcome that reports a failure is that failure. -/
theorem eq_error_of_failure {ε α : Type} {r : Except ε α} {e : ε} (h : failure? r = some e) :
    r = .error e := by
  cases r with
  | error e' => exact congrArg _ (Option.some.inj h)
  | ok => cases h

namespace Machine

section Record

variable {m : Machine} {space : AddressSpace} {k : Knowledge} {a : Address}

/-- Where an address decodes, the update that it asks for is made. -/
theorem decodeAndRecord_of_ok {d : Decoded} (h : m.decode space k a = .ok d) :
    m.decodeAndRecord space k a = (.ok d.insn, k.learn d.update) := by
  unfold decodeAndRecord
  rw [h]
  obtain ⟨insn, update⟩ := d
  cases update <;> rfl

/-- Where an address does not decode, nothing is learned. -/
theorem decodeAndRecord_of_error {e : DecodeError} (h : m.decode space k a = .error e) :
    m.decodeAndRecord space k a = (.error e, k) := by
  unfold decodeAndRecord
  rw [h]

/-- What is decoded and recorded comes from decoding and from its update. -/
theorem decode_of_decodeAndRecord {insn : Instruction} {k' : Knowledge}
    (h : m.decodeAndRecord space k a = (.ok insn, k')) :
    ∃ update, m.decode space k a = .ok ⟨insn, update⟩ ∧ k' = k.learn update := by
  cases hd : m.decode space k a with
  | error e =>
    rw [decodeAndRecord_of_error hd] at h
    cases h
  | ok d =>
    rw [decodeAndRecord_of_ok hd] at h
    cases h
    exact ⟨d.update, rfl, rfl⟩

/-- An instruction too long for a partner counts its code targets from its own end. -/
theorem nextAddress_of_lt {length : Nat} (h : 3 < length) :
    m.nextAddress space k a length = a + UInt32.ofNat length := by
  simp only [nextAddress, h, if_true]

end Record

/-- An instruction that starts with a byte from 0x80 on does not look ahead. -/
theorem Matched.congr_lookahead {context : Context} {space space' : AddressSpace}
    {k k' : Knowledge} {w : ByteWindow} {row : Encoding} {word : Nat} {insn : Instruction}
    (h : Matched context (c55x.nextAddress space k) w row word insn) {b : UInt8}
    (hb : w.answer 0 = .ok b) (hge : 0x80 ≤ b) :
    Matched context (c55x.nextAddress space' k') w row word insn := by
  cases hs : row.seeks with
  | false => exact h.of_not_seeks hs _
  | true =>
    have hw : 3 < row.width := by
      apply Nat.not_le.mp
      intro hw
      exact UInt8.not_le.mpr (h.lt_of_seeks hs hw hb) hge
    exact h.congr_next (by rw [nextAddress_of_lt hw, nextAddress_of_lt hw])

/-- Decoding succeeds in one of the three ways, with code targets counted after the partner. -/
theorem decode_eq_ok_iff {space : AddressSpace} {k : Knowledge} {a : Address} {d : Decoded} :
    c55x.decode space k a = .ok d ↔ Decodes space k (c55x.nextAddress space k) a d :=
  decodeWith_eq_ok_iff

/-- Only a first half says so. -/
theorem Decodes.exists_halves {space : AddressSpace} {k : Knowledge} {next : NextAddress}
    {a t : Address} {d : Decoded} (h : Decodes space k next a d)
    (ht : d.insn.half? = some (.head t)) :
    ∃ first pair head tail, space a = some first ∧ PackedPair.isMarker first = true ∧
      (¬∃ insn, c55x.matchWindow k.context next (.new space a) = .ok (some insn)) ∧
      Halves space k.context next a pair head tail ∧ head.limit = t ∧
      d = c55x.assignRoles ⟨asHead head, some (.record head.limit head.length)⟩ := by
  cases h with
  | @plain first _ _ insn _ _ hm =>
    have hnone : (c55x.finishPlain space first insn).half? = none :=
      (finishPlain_place space first insn).2.trans hm.half?_eq_none
    exact absurd (hnone.symm.trans ht) (by simp)
  | @head first pair head tail _ hf hm hno hh =>
    exact ⟨first, pair, head, tail, hf, hm, hno, hh, Half.head.inj (Option.some.inj ht), rfl⟩
  | tail _ _ => cases ht

/-- At a known second half, decoding unpacks the pair. -/
theorem Decodes.exists_secondHalf {space : AddressSpace} {k : Knowledge} {next : NextAddress}
    {a : Address} {d : Decoded} {n : Nat} (h : Decodes space k next a d)
    (hk : k.pairs.headLength? a = some n) :
    ∃ pair insn, SecondHalf space k.context next a n pair insn := by
  cases h with
  | plain hnone => cases hnone.symm.trans hk
  | head hnone => cases hnone.symm.trans hk
  | tail hsome hs =>
    cases hsome.symm.trans hk
    exact ⟨_, _, hs⟩

end Machine

end DspCode
