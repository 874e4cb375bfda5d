import DspCode.Proofs.PairRecords
import DspCode.Proofs.Repeating

/-!
# Records that decoding leaves

After an address is decoded, the records should agree with what was found there: nothing behind a
plain instruction, and no other pair where a plain instruction or a first half starts. Decoding
changes the record of one address only, the one after the bytes that were matched. A qualifier byte
moves the end of an instruction past that address, and a pair that was rewritten into something of
another length has its record at another address.
-/

namespace DspCode

namespace PairLedger

/-- There is a record of a pair with its first half at `head` and its second half at `tail`. -/
def Joins (l : PairLedger) (head tail : Address) : Prop :=
  ∃ n, l.headLength? tail = some n ∧ tail - UInt32.ofNat n = head

/-- First halves on record have two to four bytes. -/
def Bounded (l : PairLedger) : Prop :=
  ∀ tail n, l.headLength? tail = some n → 2 ≤ n ∧ n ≤ 4

/-- The records agree with the instruction found at `a`. -/
structure Tidy (l : PairLedger) (a : Address) (insn : Instruction) : Prop where
  /-- Behind a plain instruction there is no second half. -/
  behind : insn.half? = none → l.headLength? insn.limit = none
  /-- No pair starts where a plain instruction does. -/
  plain : insn.half? = none → ∀ tail, ¬l.Joins a tail
  /-- The only pair that starts where a first half does is its own. -/
  head : ∀ t, insn.half? = some (.head t) → ∀ tail, l.Joins a tail ↔ tail = t

/-- No pair is on record with its first half at `a` and its second half elsewhere than at `u`. -/
def NoOtherPair (l : PairLedger) (a u : Address) : Prop :=
  ∀ n, 2 ≤ n → n ≤ 4 → a + UInt32.ofNat n ≠ u → l.headLength? (a + UInt32.ofNat n) ≠ some n

variable {l : PairLedger} {a : Address}

/-- Clearing a second half leaves the pairs with other ones. -/
theorem joins_clear_iff {u tail : Address} :
    (l.clear u).Joins a tail ↔ tail ≠ u ∧ l.Joins a tail := by
  unfold Joins
  simp only [headLength?_clear]
  by_cases h : u = tail
  · simp [h]
  · simp [h, Ne.symm h]

/-- Recording a pair adds its second half to those that are joined to its first half. -/
theorem joins_record_iff {u tail : Address} {n : Nat} (hu : u - UInt32.ofNat n = a) :
    (l.record u n).Joins a tail ↔ tail = u ∨ l.Joins a tail ∧ tail ≠ u := by
  unfold Joins
  simp only [headLength?_record]
  by_cases h : u = tail
  · simp [h, ← hu]
  · simp [h, Ne.symm h]

/-- The second half of a pair at `a` is two to four bytes on. -/
theorem Bounded.noOtherPair_iff (h : l.Bounded) {u : Address} :
    l.NoOtherPair a u ↔ ∀ tail, tail ≠ u → ¬l.Joins a tail := by
  constructor
  · rintro hno tail hne ⟨n, hrecord, rfl⟩
    obtain ⟨hlo, hhi⟩ := h tail n hrecord
    refine hno n hlo hhi ?_ ?_
    · rwa [UInt32.sub_add_cancel]
    · rwa [UInt32.sub_add_cancel]
  · intro hno n _ _ hne hrecord
    refine hno (a + UInt32.ofNat n) hne ⟨n, hrecord, ?_⟩
    rw [UInt32.add_sub_cancel]

/-- Clearing `u` is enough for a plain instruction that ends there, unless another pair starts where
it does; one that ends a byte later also needs that nothing is on record there. -/
theorem Bounded.tidy_clear_iff (h : l.Bounded) {u : Address} {insn : Instruction}
    (hplain : insn.half? = none) (hlimit : insn.limit = u ∨ insn.limit = u + 1) :
    (l.clear u).Tidy a insn ↔
      (insn.half? = none → insn.limit = u + 1 → l.headLength? insn.limit = none) ∧
        l.NoOtherPair a u := by
  have hne : u ≠ u + 1 := by simp
  rw [h.noOtherPair_iff]
  constructor
  · intro htidy
    refine ⟨fun _ hnext => ?_, fun tail htail hjoins => ?_⟩
    · have hbehind := htidy.behind hplain
      rwa [headLength?_clear, if_neg (hnext ▸ hne)] at hbehind
    · exact htidy.plain hplain tail (joins_clear_iff.mpr ⟨htail, hjoins⟩)
  · rintro ⟨hbehind, hother⟩
    refine ⟨fun _ => ?_, fun _ tail hjoins => ?_, fun t ht => by cases hplain.symm.trans ht⟩
    · rw [headLength?_clear]
      obtain hend | hend := hlimit
      · rw [if_pos hend.symm]
      · rw [hbehind hplain hend, ite_self]
    · obtain ⟨htail, hjoins⟩ := joins_clear_iff.mp hjoins
      exact hother tail htail hjoins

/-- Recording a pair is enough unless another one starts at the same address. -/
theorem Bounded.tidy_record_iff (h : l.Bounded) {u : Address} {n : Nat} {insn : Instruction}
    (hhead : insn.half? = some (.head u)) (hu : u - UInt32.ofNat n = a) :
    (l.record u n).Tidy a insn ↔ l.NoOtherPair a u := by
  rw [h.noOtherPair_iff]
  constructor
  · intro htidy tail hne hjoins
    exact hne ((htidy.head u hhead tail).mp ((joins_record_iff hu).mpr (Or.inr ⟨hjoins, hne⟩)))
  · intro hother
    refine ⟨fun hplain => ?_, fun hplain => ?_, fun t ht tail => ?_⟩
    · cases hhead.symm.trans hplain
    · cases hhead.symm.trans hplain
    · cases hhead.symm.trans ht
      rw [joins_record_iff hu]
      constructor
      · rintro (heq | ⟨hjoins, hne⟩)
        · exact heq
        · exact absurd hjoins (hother tail hne)
      · exact Or.inl

end PairLedger

namespace Session

/-- Sessions that started with an empty ledger. -/
def Reached (s : Session) : Prop :=
  ∃ space context events, s = run ⟨space, { context }⟩ events

/-- First halves on record stay between two and four bytes, whatever is written in between. -/
theorem bounded_after {s : Session} (h : s.knowledge.pairs.Bounded) (e : Event) :
    (s.after e).knowledge.pairs.Bounded := by
  intro tail n hrecord
  cases e with
  | learn lesson =>
    obtain hbefore | hshows := Knowledge.record_of_after hrecord
    · exact h tail n hbefore
    · exact hshows.bounds
  | write a b => exact h tail n hrecord

private theorem bounded_run {s : Session} (h : s.knowledge.pairs.Bounded) (events : List Event) :
    (s.run events).knowledge.pairs.Bounded := by
  induction events generalizing s with
  | nil => exact h
  | cons e rest ih => exact ih (bounded_after h e)

/-- In every session that started with an empty ledger, first halves on record have two to four
bytes. -/
theorem Reached.bounded {s : Session} (h : s.Reached) : s.knowledge.pairs.Bounded := by
  obtain ⟨space, context, events, rfl⟩ := h
  refine bounded_run (fun tail n hrecord => ?_) events
  cases (PairLedger.headLength?_empty tail).symm.trans hrecord

end Session

namespace Machine

section Decoded

variable {space : AddressSpace} {k : Knowledge} {a : Address} {insn : Instruction}
  {update : PairUpdate}

/-- Whether the records agree with what was decoded depends on two things: that nothing is on record
behind a qualifier byte, and that no other pair is on record at the same address. -/
theorem tidy_learn_iff (hb : k.pairs.Bounded)
    (hd : c55x.decode space k a = .ok ⟨insn, some update⟩) :
    (k.learn (some update)).pairs.Tidy a insn ↔
      (insn.half? = none → insn.limit = update.tail + 1 →
          k.pairs.headLength? insn.limit = none) ∧
        k.pairs.NoOtherPair a update.tail := by
  generalize hresult : (⟨insn, some update⟩ : Decoded) = d at hd
  cases decode_eq_ok_iff.mp hd with
  | @plain first _ _ insn₀ _ _ hm =>
    cases hresult
    have hplain : (c55x.finishPlain space first insn₀).half? = none :=
      (finishPlain_place space first insn₀).2.trans hm.half?_eq_none
    exact hb.tidy_clear_iff hplain (limit_finishPlain space first insn₀)
  | head _ _ _ _ hh =>
    cases hresult
    refine (hb.tidy_record_iff rfl hh.limit_sub_length).trans (and_iff_right ?_).symm
    intro hnone
    cases hnone
  | tail => cases hresult

/-- Where the records still mean pairs of the memory, the address just decoded has no other pair. -/
theorem noOtherPair_of_trueTo (hk : k.TrueTo space)
    (hd : c55x.decode space k a = .ok ⟨insn, some update⟩) :
    k.pairs.NoOtherPair a update.tail := by
  intro n _ _ hne hrecord
  have hshows := hk _ n hrecord
  rw [UInt32.add_sub_cancel] at hshows
  generalize hresult : (⟨insn, some update⟩ : Decoded) = d at hd
  cases decode_eq_ok_iff.mp hd with
  | plain _ _ hm => exact hshows.not_matched _ _ ⟨_, hm.matchWindow⟩
  | head _ _ _ _ hh =>
    cases hresult
    obtain ⟨pair, hunpack, rfl⟩ := hshows.exists_unpack
    cases hunpack.symm.trans hh.unpacked
    exact hne (exists_matched_of_exactly hh.matchedHead).2.2.symm
  | tail => cases hresult

end Decoded

/-- In every session, after an address decodes as a plain instruction or as a first half, the
records agree with it exactly when no second half is on record behind a qualifier byte that was
taken in, and no other pair is on record with its first half at this address. The latter can only
fail where records outlived a change of the memory. -/
theorem tidy_after_decode_iff {s : Session} (hs : s.Reached) {a : Address} {insn : Instruction}
    {update : PairUpdate} (hd : c55x.decode s.space s.knowledge a = .ok ⟨insn, some update⟩) :
    ((s.after (.decode a)).knowledge.pairs.Tidy a insn ↔
        (insn.half? = none → insn.limit = update.tail + 1 →
            s.knowledge.pairs.headLength? insn.limit = none) ∧
          s.knowledge.pairs.NoOtherPair a update.tail) ∧
      (s.knowledge.TrueTo s.space → s.knowledge.pairs.NoOtherPair a update.tail) := by
  rw [Session.after, Knowledge.after, decodeAndRecord_of_ok hd]
  exact ⟨tidy_learn_iff hs.bounded hd, fun htrue => noOtherPair_of_trueTo htrue hd⟩

/-- The pair of six bytes after it was decoded and bytes were written over it. -/
def overwritten (writes : List (Address × UInt8)) : Session :=
  Session.run ⟨sixBytePair, {}⟩ (.decode 0 :: writes.map fun w => .write w.1 w.2)

/-- Writing changes the memory alone: the pair stays on record. -/
theorem knowledge_overwritten (writes : List (Address × UInt8)) :
    (overwritten writes).knowledge = { pairs := PairLedger.empty.record 4 4 } := by
  have hwrites : ∀ s : Session,
      (s.run (writes.map fun w => .write w.1 w.2)).knowledge = s.knowledge := by
    induction writes with
    | nil => exact fun _ => rfl
    | cons w rest ih => exact fun s => ih (s.after (.write w.1 w.2))
  exact (hwrites _).trans (congrArg Session.knowledge after_decode_sixBytePair)

/-- What decoding the address of the pair again finds, and what it leaves on record. -/
theorem exists_decode_overwritten (writes : List (Address × UInt8)) (update : PairUpdate)
    (half : Option Half) (limit : Address)
    (h : (c55x.decode (overwritten writes).space { pairs := PairLedger.empty.record 4 4 }
        0).toOption.map (fun d => (d.update, d.insn.half?, d.insn.limit)) =
      some (some update, half, limit)) :
    ∃ insn, c55x.decode (overwritten writes).space (overwritten writes).knowledge 0 =
        .ok ⟨insn, some update⟩ ∧ insn.half? = half ∧ insn.limit = limit ∧
      ((overwritten writes).after (.decode 0)).knowledge.pairs =
        (PairLedger.empty.record 4 4).apply update := by
  obtain ⟨⟨insn, _⟩, hd, hresult⟩ := exists_ok_of_toOption h
  simp only [Prod.mk.injEq] at hresult
  obtain ⟨rfl, hhalf, hlimit⟩ := hresult
  rw [← knowledge_overwritten writes] at hd
  refine ⟨insn, hd, hhalf, hlimit, ?_⟩
  rw [Session.after, Knowledge.after, decodeAndRecord_of_ok hd, knowledge_overwritten]
  rfl

/-- A plain instruction of four bytes, written over the pair, ends at its second half. -/
theorem tidy_after_decode_fourByteMove :
    let s := overwritten [(0, 0xA0), (1, 0x11)]
    s.Reached ∧ ∃ insn, c55x.decode s.space s.knowledge 0 = .ok ⟨insn, some (.clear 4)⟩ ∧
      insn.half? = none ∧ (s.after (.decode 0)).knowledge.pairs.Tidy 0 insn := by
  intro s
  have hs : s.Reached := ⟨sixBytePair, {}, _, rfl⟩
  obtain ⟨insn, hd, hhalf, hlimit, -⟩ :=
    exists_decode_overwritten [(0, 0xA0), (1, 0x11)] (.clear 4) none 4 (by decide +kernel)
  refine ⟨hs, insn, hd, hhalf, (tidy_after_decode_iff hs hd).1.mpr ⟨fun _ hend => ?_, ?_⟩⟩
  · rw [hlimit] at hend
    exact absurd hend (by decide)
  · intro n _ _ hne hrecord
    have hfour : ¬(4 : Address) = 0 + UInt32.ofNat n := Ne.symm hne
    rw [knowledge_overwritten, PairLedger.headLength?_record, if_neg hfour,
      PairLedger.headLength?_empty] at hrecord
    cases hrecord

/-- Records outlive what they were made from. A pair that is rewritten into one with a shorter first
half keeps its old record beside the new one, and a plain instruction written over a pair keeps the
record behind it if it ends with a qualifier byte. -/
theorem rewritten_pair_stays_on_record :
    let resplit := overwritten [(0, 0x8A), (1, 0x04), (2, 0x90)]
    let plain := overwritten [(0, 0xD6), (3, 0x99)]
    (∃ insn, c55x.decode resplit.space resplit.knowledge 0 = .ok ⟨insn, some (.record 2 2)⟩ ∧
        insn.half? = some (.head 2) ∧
        (resplit.after (.decode 0)).knowledge.pairs.headLength? 4 = some 4 ∧
        ¬(resplit.after (.decode 0)).knowledge.pairs.Tidy 0 insn) ∧
      ∃ insn, c55x.decode plain.space plain.knowledge 0 = .ok ⟨insn, some (.clear 3)⟩ ∧
        insn.half? = none ∧ insn.limit = 4 ∧
        (plain.after (.decode 0)).knowledge.pairs.headLength? 4 = some 4 ∧
        ¬(plain.after (.decode 0)).knowledge.pairs.Tidy 0 insn := by
  intro resplit plain
  constructor
  · obtain ⟨insn, hd, hhalf, -, hpairs⟩ :=
      exists_decode_overwritten [(0, 0x8A), (1, 0x04), (2, 0x90)] (.record 2 2) (some (.head 2)) 2
        (by decide +kernel)
    have hrecord : (resplit.after (.decode 0)).knowledge.pairs.headLength? 4 = some 4 := by
      rw [hpairs]
      decide +kernel
    refine ⟨insn, hd, hhalf, hrecord, fun htidy => ?_⟩
    exact absurd ((htidy.head 2 hhalf 4).mp ⟨4, hrecord, rfl⟩) (by decide)
  · obtain ⟨insn, hd, hhalf, hlimit, hpairs⟩ :=
      exists_decode_overwritten [(0, 0xD6), (3, 0x99)] (.clear 3) none 4 (by decide +kernel)
    have hrecord : (plain.after (.decode 0)).knowledge.pairs.headLength? 4 = some 4 := by
      rw [hpairs]
      decide +kernel
    refine ⟨insn, hd, hhalf, hlimit, hrecord, fun htidy => ?_⟩
    exact htidy.plain hhalf 4 ⟨4, hrecord, rfl⟩

end Machine

end DspCode
