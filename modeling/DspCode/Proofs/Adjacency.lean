import DspCode.Proofs.Scanning

/-!
# Halves side by side

A scan starts with an empty ledger and never returns to an address. So the only record it can meet
is that of the pair whose first half it has just passed: a first half is followed by its second
half, and a second half follows its first half.
-/

namespace DspCode

/-- The place of a piece in a packed pair. -/
def Piece.half? : Piece → Option Half
  | .code insn _ => insn.half?
  | .data _ _ => none

/-- A second half starts on a mapped byte. -/
theorem Machine.Halves.isMapped_limit {space : AddressSpace} {context : Context}
    {next : NextAddress} {a : Address} {pair : PackedPair} {head tail : Instruction}
    (h : Halves space context next a pair head tail) : space.isMapped head.limit = true := by
  have htail := (PackedPair.layout_of_unpack h.unpacked).tail_length
  rw [(exists_matched_of_exactly h.matchedHead).2.2]
  exact PackedPair.isMapped_of_unpack h.unpacked (by omega)

namespace Scan

/-- The halves of packed pairs stand side by side. Only the last piece may be a first half without
its second half, where that starts at `stop` or past it. -/
inductive Coupled (space : AddressSpace) (stop : Address) : List Piece → Prop where
  /-- There are no pieces. -/
  | nil : Coupled space stop []
  /-- A piece is no half of a pair. -/
  | single {p : Piece} {rest : List Piece} (half : p.half? = none)
      (next : Coupled space stop rest) : Coupled space stop (p :: rest)
  /-- Two pieces are the halves of one pair. -/
  | pair {first second : Piece} {rest : List Piece}
      (head : first.half? = some (.head second.address))
      (tail : second.half? = some (.tail first.address)) (next : Coupled space stop rest) :
      Coupled space stop (first :: second :: rest)
  /-- The second half lies past the end of the scan. -/
  | cut {first : Piece} {t : Address} (head : first.half? = some (.head t))
      (mapped : space.isMapped t = true) (past : stop ≤ t) : Coupled space stop [first]

/-- No second half is on record from `a` on. -/
def Fresh (k : Knowledge) (a : Address) : Prop := ∀ t, a ≤ t → k.pairs.headLength? t = none

/-- The pair at `head` is on record with its second half at `a`, and none is from there on. -/
structure Awaits (space : AddressSpace) (k : Knowledge) (head a : Address) (n : Nat) : Prop where
  /-- The pair is one of the memory. -/
  shows : Machine.ShowsPair space head a n
  /-- It is on record. -/
  record : k.pairs.headLength? a = some n
  /-- Nothing further on is on record. -/
  fresh : ∀ t, a < t → k.pairs.headLength? t = none

section Steps

open Machine

variable {settings : Settings} {space : AddressSpace} {k k' : Knowledge} {a : Address}
  {step : Step}

/-- Where nothing is on record, a step passes a plain instruction, and nothing is on record after
it, or a first half, whose second half is awaited then. -/
theorem Fresh.take (hk : Fresh k a) (hspace : space.EndsBelowTop)
    (h : Step.take settings space k a = (.ok step, k')) :
    step.insn.half? = none ∧ Fresh k' step.insn.limit ∨
      step.insn.half? = some (.head step.insn.limit) ∧
        space.isMapped step.insn.limit = true ∧
        Awaits space k' a step.insn.limit step.insn.length := by
  have hlt := (Step.placed_of_take hspace h).lt_limit
  obtain ⟨update, hdecode, hpairs⟩ := Step.decode_of_take h
  have hbeyond : ∀ t, step.insn.limit ≤ t → k.pairs.headLength? t = none :=
    fun t ht => hk t (UInt32.le_of_lt (UInt32.lt_of_lt_of_le hlt ht))
  generalize hresult : (⟨step.insn, update⟩ : Decoded) = d at hdecode
  cases Machine.decode_eq_ok_iff.mp hdecode with
  | @plain first _ _ insn _ _ hm =>
    have hinsn : step.insn = c55x.withUsage (c55x.finishPlain space first insn) :=
      congrArg Decoded.insn hresult
    have hupdate : update = some (.clear insn.limit) := congrArg Decoded.update hresult
    refine Or.inl ⟨?_, fun t ht => ?_⟩
    · rw [hinsn]
      exact (finishPlain_place space first insn).2.trans hm.half?_eq_none
    · rw [hpairs, hupdate]
      simp only [Knowledge.learn, PairLedger.apply, PairLedger.headLength?_clear, hbeyond t ht,
        ite_self]
  | @head _ pair head tail _ _ _ _ hh =>
    have hinsn : step.insn = c55x.withUsage (asHead head) := congrArg Decoded.insn hresult
    have hupdate : update = some (.record head.limit head.length) :=
      congrArg Decoded.update hresult
    have hlimit : step.insn.limit = head.limit := by
      rw [hinsn]
      exact StatusBit.limit_nameBit head
    have hlength : step.insn.length = head.length := by
      rw [hinsn]
      exact length_asHead head
    have hrecord : ∀ t, k'.pairs.headLength? t =
        if head.limit = t then some head.length else k.pairs.headLength? t := by
      intro t
      rw [hpairs, hupdate]
      exact k.pairs.headLength?_record head.limit t head.length
    rw [hlimit] at hbeyond ⊢
    rw [hlength]
    refine Or.inr ⟨by rw [hinsn]; rfl, hh.isMapped_limit,
      ⟨k, _, hdecode, rfl, length_asHead head⟩, ?_, fun t ht => ?_⟩
    · rw [hrecord, if_pos rfl]
    · rw [hrecord, if_neg (UInt32.ne_of_lt ht)]
      exact hbeyond t (UInt32.le_of_lt ht)
  | tail known => cases (hk a (UInt32.le_refl a)).symm.trans known

/-- An awaited second half is passed, and nothing is on record after it. -/
theorem Awaits.take {head : Address} {n : Nat} (hk : Awaits space k head a n)
    (hspace : space.EndsBelowTop) (h : Step.take settings space k a = (.ok step, k')) :
    step.insn.half? = some (.tail head) ∧ Fresh k' step.insn.limit := by
  obtain ⟨update, hdecode, hpairs⟩ := Step.decode_of_take h
  obtain ⟨d, hd, hupdate, hhalf⟩ := hk.shows.exists_decode_tail hk.record
  cases hdecode.symm.trans hd
  refine ⟨hhalf, fun t ht => ?_⟩
  have hlt := (Step.placed_of_take hspace h).lt_limit
  rw [hpairs, show update = none from hupdate]
  exact hk.fresh t (UInt32.lt_of_lt_of_le hlt ht)

end Steps

/-- From where nothing is on record, a scan has the halves of pairs side by side; where a second
half is awaited, it comes first. -/
theorem Runs.coupled {settings : Settings} {space : AddressSpace} {stop : Address}
    {k : Knowledge} {a : Address} {scan : Scan} (h : Runs settings space stop k a scan)
    (hspace : space.EndsBelowTop) :
    (Fresh k a → Coupled space stop scan.pieces) ∧
      ∀ head n, Awaits space k head a n → scan.pieces = [] ∧ stop ≤ a ∨
        ∃ second rest, scan.pieces = second :: rest ∧ second.address = a ∧
          second.half? = some (.tail head) ∧ Coupled space stop rest := by
  induction h with
  | reached past => exact ⟨fun _ => .nil, fun _ _ _ => Or.inl ⟨rfl, past⟩⟩
  | unmapped _ failed _ =>
    refine ⟨fun _ => .nil, fun head n hk => ?_⟩
    obtain ⟨d, hd, -⟩ := hk.shows.exists_decode_tail hk.record
    cases failed.symm.trans hd
  | @data k a e byte scan _ failed held _ ih =>
    refine ⟨fun hk => .single rfl (ih.1 fun t ht => hk t ?_), fun head n hk => ?_⟩
    · have hnext := (hspace.toNat_succ (AddressSpace.isMapped_of_eq_some held)).1
      rw [UInt32.le_iff_toNat_le] at ht ⊢
      omega
    · obtain ⟨d, hd, -⟩ := hk.shows.exists_decode_tail hk.record
      cases failed.symm.trans hd
  | @code k k' a step scan _ taken _ ih =>
    have haddress := (Step.placed_of_take hspace taken).address
    constructor
    · intro hk
      obtain ⟨hhalf, hfresh⟩ | ⟨hhalf, hmapped, hawaits⟩ := hk.take hspace taken
      · exact .single hhalf (ih.1 hfresh)
      · obtain ⟨hnil, hpast⟩ | ⟨second, rest, hpieces, hsecond, htail, hrest⟩ :=
          ih.2 a step.insn.length hawaits
        · show Coupled space stop (_ :: scan.pieces)
          rw [hnil]
          exact .cut hhalf hmapped hpast
        · rw [← hsecond] at hhalf
          rw [← haddress] at htail
          show Coupled space stop (_ :: scan.pieces)
          rw [hpieces]
          exact .pair hhalf htail hrest
    · intro head n hk
      obtain ⟨hhalf, hfresh⟩ := hk.take hspace taken
      exact Or.inr ⟨_, scan.pieces, rfl, haddress, hhalf, ih.1 hfresh⟩

/-- In every scan, the halves of packed pairs stand side by side. -/
theorem coupled_of {space : AddressSpace} (hspace : space.EndsBelowTop) (settings : Settings)
    (start stop : Address) : Coupled space stop (Scan.of settings space start stop).pieces :=
  ((runs_of hspace settings start stop).coupled hspace).1 fun t _ =>
    PairLedger.headLength?_empty t

/-- A scan takes no piece that starts at its last address or past it. -/
theorem Runs.lt_stop {settings : Settings} {space : AddressSpace} {stop : Address} {k : Knowledge}
    {a : Address} {scan : Scan} (h : Runs settings space stop k a scan)
    (hspace : space.EndsBelowTop) {p : Piece} (hp : p ∈ scan.pieces) : p.address < stop := by
  induction h with
  | reached => cases hp
  | unmapped => cases hp
  | @code _ _ a step _ before taken _ ih =>
    obtain rfl | hrest := List.mem_cons.mp hp
    · have haddress : (Piece.code step.insn step.text).address = a :=
        (Step.placed_of_take hspace taken).address
      rwa [haddress]
    · exact ih hrest
  | data before _ _ _ ih =>
    obtain rfl | hrest := List.mem_cons.mp hp
    · exact before
    · exact ih hrest

namespace Coupled

variable {space : AddressSpace} {stop : Address} {pieces : List Piece}

/-- A first half has its second half behind it, or is cut off from it and the last piece. -/
theorem next_of_head (h : Coupled space stop pieces) {i : Nat} {first : Piece} {t : Address}
    (hfirst : pieces[i]? = some first) (ht : first.half? = some (.head t)) :
    (∃ second, pieces[i + 1]? = some second ∧ second.address = t ∧
        second.half? = some (.tail first.address)) ∨
      stop ≤ t ∧ pieces.length = i + 1 := by
  induction h generalizing i with
  | nil => cases hfirst
  | single half _ ih =>
    cases i with
    | zero =>
      cases hfirst
      cases half.symm.trans ht
    | succ i => simpa using ih hfirst
  | @pair head' tail' _ head tail _ ih =>
    match i with
    | 0 =>
      cases hfirst
      cases head.symm.trans ht
      exact Or.inl ⟨tail', rfl, rfl, tail⟩
    | 1 =>
      cases hfirst
      cases tail.symm.trans ht
    | i + 2 => simpa using ih hfirst
  | cut head _ past =>
    cases i with
    | zero =>
      cases hfirst
      cases head.symm.trans ht
      exact Or.inr ⟨past, rfl⟩
    | succ i => cases hfirst

/-- A second half has its first half before it. -/
theorem previous_of_tail (h : Coupled space stop pieces) {i : Nat} {second : Piece} {a : Address}
    (hsecond : pieces[i]? = some second) (ha : second.half? = some (.tail a)) :
    ∃ j first, i = j + 1 ∧ pieces[j]? = some first ∧ first.address = a ∧
      first.half? = some (.head second.address) := by
  induction h generalizing i with
  | nil => cases hsecond
  | single half _ ih =>
    cases i with
    | zero =>
      cases hsecond
      cases half.symm.trans ha
    | succ i =>
      obtain ⟨j, first, rfl, hfirst, hfacts⟩ := ih hsecond
      exact ⟨j + 1, first, rfl, hfirst, hfacts⟩
  | @pair head' tail' _ head tail _ ih =>
    match i with
    | 0 =>
      cases hsecond
      cases head.symm.trans ha
    | 1 =>
      cases hsecond
      cases tail.symm.trans ha
      exact ⟨0, head', rfl, rfl, rfl, head⟩
    | i + 2 =>
      obtain ⟨j, first, rfl, hfirst, hfacts⟩ := ih hsecond
      exact ⟨j + 2, first, rfl, hfirst, hfacts⟩
  | cut head _ _ =>
    cases i with
    | zero =>
      cases hsecond
      cases head.symm.trans ha
    | succ i => cases hsecond

end Coupled

/-- In a scan of an image, the halves of packed pairs stand side by side. A first half whose second
half starts before the end of the scan is directly followed by it, and any other first half is the
last piece. A second half directly follows its first half. The halves point at each other. -/
theorem halves_side_by_side (settings : Settings) (image : Image) {start stop : Address} {i : Nat}
    {insn : Instruction} {text : String}
    (hpiece : (Scan.of settings image.space start stop).pieces[i]? = some (.code insn text)) :
    (∀ t, insn.half? = some (.head t) →
      t < stop ∧ (∃ tail tailText,
          (Scan.of settings image.space start stop).pieces[i + 1]? = some (.code tail tailText) ∧
          tail.address = t ∧ tail.half? = some (.tail insn.address)) ∨
        stop ≤ t ∧ (Scan.of settings image.space start stop).pieces.length = i + 1) ∧
      ∀ h, insn.half? = some (.tail h) →
        ∃ j head headText, i = j + 1 ∧
          (Scan.of settings image.space start stop).pieces[j]? = some (.code head headText) ∧
          head.address = h ∧ head.half? = some (.head insn.address) := by
  have hspace := image.endsBelowTop_space
  have hcoupled := coupled_of hspace settings start stop
  constructor
  · intro t ht
    obtain ⟨second, hsecond, haddress, htail⟩ | hlast := hcoupled.next_of_head hpiece ht
    · have hlt := (runs_of hspace settings start stop).lt_stop hspace
        (List.mem_of_getElem? hsecond)
      cases second with
      | code tail tailText =>
        exact Or.inl ⟨haddress ▸ hlt, tail, tailText, hsecond, haddress, htail⟩
      | data => cases htail
    · exact Or.inr hlast
  · intro h hh
    obtain ⟨j, first, hj, hfirst, haddress, hhead⟩ := hcoupled.previous_of_tail hpiece hh
    cases first with
    | code head headText => exact ⟨j, head, headText, hj, hfirst, haddress, hhead⟩
    | data => cases hhead

/-- An instruction where a scan starts is its first piece. -/
theorem Runs.exists_first {settings : Settings} {space : AddressSpace} {stop : Address}
    {k : Knowledge} {a : Address} {scan : Scan} (h : Runs settings space stop k a scan)
    (ha : a < stop) {d : Decoded} (hd : Machine.c55x.decode space k a = .ok d) :
    ∃ text, scan.pieces[0]? = some (.code d.insn text) := by
  cases h with
  | reached past => exact absurd ha (UInt32.not_lt.mpr past)
  | unmapped _ failed _ => cases failed.symm.trans hd
  | @code _ _ _ step _ _ taken _ =>
    obtain ⟨update, hdecode, -⟩ := Step.decode_of_take taken
    cases hdecode.symm.trans hd
    exact ⟨step.text, rfl⟩
  | data _ failed _ _ => cases failed.symm.trans hd

/-- A packed pair of six bytes in an image. -/
def pairImage : Image := .ofBytes 0x100 #[0x8F, 0x06, 0x00, 0xC0, 0x21, 0x00]

/-- Its halves are the first two pieces of a scan. -/
theorem halves_side_by_side_pairImage :
    ∃ head headText tail tailText,
      (Scan.of {} pairImage.space 0x100 0x106).pieces[0]? = some (.code head headText) ∧
      head.half? = some (.head 0x104) ∧
      (Scan.of {} pairImage.space 0x100 0x106).pieces[1]? = some (.code tail tailText) ∧
      tail.address = 0x104 ∧ tail.half? = some (.tail 0x100) := by
  have hfacts : (Machine.c55x.decode pairImage.space ({} : Settings).knowledge 0x100).toOption.map
      (fun d => (d.insn.address, d.insn.half?)) = some (0x100, some (.head 0x104)) := by
    decide +kernel
  obtain ⟨d, hd, hd'⟩ := exists_ok_of_toOption hfacts
  obtain ⟨haddress, hhalf⟩ := Prod.mk.inj hd'
  obtain ⟨headText, hfirst⟩ :=
    (runs_of pairImage.endsBelowTop_space {} 0x100 0x106).exists_first (by decide) hd
  obtain ⟨-, tail, tailText, hsecond, htail⟩ | ⟨hpast, -⟩ :=
    (halves_side_by_side {} pairImage hfirst).1 0x104 hhalf
  · exact ⟨d.insn, headText, tail, tailText, hfirst, hhalf, hsecond, haddress ▸ htail⟩
  · exact absurd hpast (by decide)

end Scan

end DspCode
