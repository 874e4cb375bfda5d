import DspCode.Listing
import DspCode.Proofs.PairRecords
import DspCode.Proofs.Walking

/-!
# What a scan passes over

A scan takes one step after the other until it reaches its last address or one that is not mapped.
Below the top of the address space each step leads to a higher address, so that the scan ends by
itself. Its pieces lie end to end on mapped bytes, and the halves of a packed pair stand side by
side.
-/

namespace DspCode

/-- Every failure to decode can be passed over as data. -/
theorem Machine.isRecoverable_of_decode {space : AddressSpace} {k : Knowledge} {a : Address}
    {e : DecodeError} (h : c55x.decode space k a = .error e) : e.isRecoverable = true := by
  unfold decode at h
  cases hk : k.pairs.headLength? a with
  | none =>
    rw [decodeWith_of_none hk] at h
    obtain ⟨_, _, _, _, hd⟩ | ⟨_, _, _, _, _, _, _, _, hd⟩ | hd | ⟨hd, -⟩ :=
      decodePlain_cases space k.context (c55x.nextAddress space k) a
    all_goals
      rw [hd] at h
      cases h
    · rfl
    · rfl
  | some headLength =>
    rw [decodeWith_of_some hk] at h
    obtain ⟨_, _, _, hd⟩ | hd :=
      decodeTail_cases space k.context (c55x.nextAddress space k) a headLength
    all_goals
      rw [hd] at h
      cases h
    rfl

/-- An instruction stands at an address with all its bytes mapped, and ends below the top of the
address space. -/
structure Instruction.Placed (space : AddressSpace) (a : Address) (insn : Instruction) : Prop where
  /-- It stands there. -/
  address : insn.address = a
  /-- It has a byte. -/
  pos : 1 ≤ insn.length
  /-- It has at most ten. -/
  le : insn.length ≤ 10
  /-- Its bytes are mapped. -/
  mapped : ∀ i < insn.length, space.isMapped (a + UInt32.ofNat i) = true
  /-- It ends below the top. -/
  below : a.toNat + insn.length < UInt32.size
  /-- It ends as many bytes on as it takes. -/
  limit : insn.limit.toNat = a.toNat + insn.length

/-- A placed instruction ends behind its start. -/
theorem Instruction.Placed.lt_limit {space : AddressSpace} {a : Address} {insn : Instruction}
    (h : insn.Placed space a) : a < insn.limit := by
  have hpos := h.pos
  rw [UInt32.lt_iff_toNat_lt, h.limit]
  omega

/-- Where memory ends below the top, a decoded instruction is placed. -/
theorem Machine.placed_of_decode {space : AddressSpace} {k : Knowledge} {a : Address}
    {insn : Instruction} {update : Option PairUpdate} (hspace : space.EndsBelowTop)
    (h : c55x.decode space k a = .ok ⟨insn, update⟩) : insn.Placed space a := by
  have hdecodes := decode_eq_ok_iff.mp h
  have haddress : insn.address = a := hdecodes.address_eq
  have hmeasured := hdecodes.measured
  have hbelow := hspace.toNat_add_lt hmeasured.mapped
  refine ⟨haddress, hmeasured.pos, hmeasured.le, hmeasured.mapped, hbelow, ?_⟩
  rw [Instruction.limit, haddress]
  exact Address.toNat_add_ofNat hbelow

namespace Step

variable {settings : Settings} {space : AddressSpace} {k k' : Knowledge} {a : Address}

/-- A step decodes its address, and makes the update of the ledger that the instruction asks for. -/
theorem decode_of_take {step : Step} (h : take settings space k a = (.ok step, k')) :
    ∃ update, Machine.c55x.decode space k a = .ok ⟨step.insn, update⟩ ∧
      k'.pairs = (k.learn update).pairs := by
  unfold take at h
  split at h
  next => cases h
  next insn known hd =>
    cases h
    obtain ⟨update, hdecode, rfl⟩ := Machine.decode_of_decodeAndRecord hd
    exact ⟨update, hdecode, rfl⟩

/-- Where memory ends below the top, the instruction of a step is placed. -/
theorem placed_of_take {step : Step} (hspace : space.EndsBelowTop)
    (h : take settings space k a = (.ok step, k')) : step.insn.Placed space a := by
  obtain ⟨update, hdecode, -⟩ := decode_of_take h
  exact Machine.placed_of_decode hspace hdecode

/-- A step that fails leaves everything as it was. -/
theorem decode_of_take_error {e : DecodeError} (h : take settings space k a = (.error e, k')) :
    Machine.c55x.decode space k a = .error e ∧ k' = k := by
  unfold take at h
  split at h
  next e' known hd =>
    cases h
    cases hdecode : Machine.c55x.decode space k a with
    | error e'' =>
      rw [Machine.decodeAndRecord_of_error hdecode] at hd
      cases hd
      exact ⟨rfl, rfl⟩
    | ok d =>
      rw [Machine.decodeAndRecord_of_ok hdecode] at hd
      cases hd
  next => cases h

end Step

namespace AddressSpace

/-- An address that holds a byte is mapped. -/
theorem isMapped_of_eq_some {space : AddressSpace} {a : Address} {b : UInt8}
    (h : space a = some b) : space.isMapped a = true := by
  rw [isMapped, h]
  rfl

/-- Where memory ends below the top, the address after a mapped one does not wrap around. -/
theorem EndsBelowTop.toNat_succ {space : AddressSpace} (hspace : space.EndsBelowTop) {a : Address}
    (ha : space.isMapped a = true) :
    (a + 1).toNat = a.toNat + 1 ∧ a.toNat + 1 < UInt32.size := by
  have hlt : a.toNat + 1 < UInt32.size := hspace.toNat_add_lt fun i hi => by
    rw [Nat.lt_one_iff.mp hi]
    exact (congrArg space.isMapped (UInt32.add_zero a)).trans ha
  exact ⟨Address.toNat_add_ofNat hlt, hlt⟩

end AddressSpace

/-- How many bytes a list of pieces takes. -/
def Piece.totalLength : List Piece → Nat
  | [] => 0
  | p :: rest => p.length + totalLength rest

namespace Scan

/-- A scan with one more piece in front. -/
def prepend (p : Piece) (scan : Scan) : Scan := { scan with pieces := p :: scan.pieces }

/-- The rounds of a scan from an address on. It ends by itself, at `stop` or where nothing is
mapped. -/
inductive Runs (settings : Settings) (space : AddressSpace) (stop : Address) :
    Knowledge → Address → Scan → Prop where
  /-- The last address is reached. -/
  | reached {k : Knowledge} {a : Address} (past : stop ≤ a) :
      Runs settings space stop k a ⟨[], a, .reached⟩
  /-- There is no byte to go on with. -/
  | unmapped {k : Knowledge} {a : Address} {e : DecodeError} (before : a < stop)
      (failed : Machine.c55x.decode space k a = .error e) (free : space a = none) :
      Runs settings space stop k a ⟨[], a, .unmapped⟩
  /-- An instruction is passed over. -/
  | code {k k' : Knowledge} {a : Address} {step : Step} {scan : Scan} (before : a < stop)
      (taken : Step.take settings space k a = (.ok step, k'))
      (rest : Runs settings space stop k' step.insn.limit scan) :
      Runs settings space stop k a (scan.prepend (.code step.insn step.text))
  /-- A byte that starts no instruction is passed over. -/
  | data {k : Knowledge} {a : Address} {e : DecodeError} {byte : UInt8} {scan : Scan}
      (before : a < stop) (failed : Machine.c55x.decode space k a = .error e)
      (held : space a = some byte) (rest : Runs settings space stop k (a + 1) scan) :
      Runs settings space stop k a (scan.prepend (.data a byte))

/-- A scan goes through these rounds: below the top of the address space, no step has to be the
last because it leads nowhere. -/
theorem exists_runs {space : AddressSpace} (hspace : space.EndsBelowTop) (settings : Settings)
    (stop : Address) (k : Knowledge) (a : Address) (done : List Piece) :
    ∃ scan, Runs settings space stop k a scan ∧
      extend settings space stop k a done =
        { scan with pieces := done.reverse ++ scan.pieces } := by
  fun_induction extend settings space stop k a done with
  | case1 k a done ha step k' htake done' hlt ih =>
    obtain ⟨scan, hruns, heq⟩ := ih
    refine ⟨_, .code ha htake hruns, ?_⟩
    rw [heq, List.reverse_cons, List.append_assoc]
    rfl
  | case2 k a done ha step k' htake done' hlt =>
    exact absurd (Step.placed_of_take hspace htake).lt_limit hlt
  | case3 k a done ha e k' htake hr hbyte =>
    obtain ⟨hdecode, -⟩ := Step.decode_of_take_error htake
    exact ⟨_, .unmapped ha hdecode hbyte, by rw [List.append_nil]⟩
  | case4 k a done ha e k' htake hr byte hbyte done' hlt ih =>
    obtain ⟨hdecode, rfl⟩ := Step.decode_of_take_error htake
    obtain ⟨scan, hruns, heq⟩ := ih
    refine ⟨_, .data ha hdecode hbyte hruns, ?_⟩
    rw [heq, List.reverse_cons, List.append_assoc]
    rfl
  | case5 k a done ha e k' htake hr byte hbyte done' hlt =>
    refine absurd ?_ hlt
    rw [UInt32.lt_iff_toNat_lt, (hspace.toNat_succ (AddressSpace.isMapped_of_eq_some hbyte)).1]
    exact Nat.lt_succ_self _
  | case6 k a done ha e k' htake hr =>
    obtain ⟨hdecode, -⟩ := Step.decode_of_take_error htake
    exact absurd (Machine.isRecoverable_of_decode hdecode) hr
  | case7 k a done ha =>
    exact ⟨_, .reached (UInt32.not_lt.mp ha), by rw [List.append_nil]⟩

/-- A scan goes round by round from its start. -/
theorem runs_of {space : AddressSpace} (hspace : space.EndsBelowTop) (settings : Settings)
    (start stop : Address) :
    Runs settings space stop settings.knowledge start (Scan.of settings space start stop) := by
  obtain ⟨scan, hruns, heq⟩ := exists_runs hspace settings stop settings.knowledge start []
  rw [Scan.of, heq]
  exact hruns

section Rounds

variable {settings : Settings} {space : AddressSpace} {stop : Address} {k : Knowledge}
  {a : Address} {scan : Scan}

/-- A scan ends at its last address or past it, or before it where nothing is mapped. -/
theorem Runs.ending_cases (h : Runs settings space stop k a scan) :
    scan.ending = .reached ∧ stop ≤ scan.stop ∨
      scan.ending = .unmapped ∧ scan.stop < stop ∧ space scan.stop = none := by
  induction h with
  | reached past => exact Or.inl ⟨rfl, past⟩
  | unmapped before _ free => exact Or.inr ⟨rfl, before, free⟩
  | code _ _ _ ih => exact ih
  | data _ _ _ _ ih => exact ih

/-- The last piece starts before the last address, so a scan goes at most nine bytes past it. -/
theorem Runs.stop_le (h : Runs settings space stop k a scan) (hspace : space.EndsBelowTop)
    (ha : a.toNat ≤ stop.toNat + 9) : scan.stop.toNat ≤ stop.toNat + 9 := by
  induction h with
  | reached => exact ha
  | unmapped => exact ha
  | code before taken _ ih =>
    have hplaced := Step.placed_of_take hspace taken
    have hlength := hplaced.le
    have hlimit := hplaced.limit
    rw [UInt32.lt_iff_toNat_lt] at before
    exact ih (by omega)
  | data before _ held _ ih =>
    have hnext := (hspace.toNat_succ (AddressSpace.isMapped_of_eq_some held)).1
    rw [UInt32.lt_iff_toNat_lt] at before
    exact ih (by omega)

end Rounds

/-- The pieces lie end to end from one address to another, on mapped bytes and without reaching the
top of the address space. -/
inductive Tiles (space : AddressSpace) : Address → List Piece → Address → Prop where
  /-- Nothing lies between an address and itself. -/
  | nil (a : Address) : Tiles space a [] a
  /-- A piece lies before the others. -/
  | cons {p : Piece} {rest : List Piece} {stop : Address} (pos : 0 < p.length)
      (mapped : ∀ i < p.length, space.isMapped (p.address + UInt32.ofNat i) = true)
      (below : p.address.toNat + p.length < UInt32.size)
      (next : Tiles space (p.address + UInt32.ofNat p.length) rest stop) :
      Tiles space p.address (p :: rest) stop

/-- Pieces end to end cover the distance between their ends. -/
theorem Tiles.toNat_stop {space : AddressSpace} {a stop : Address} {pieces : List Piece}
    (h : Tiles space a pieces stop) :
    stop.toNat = a.toNat + Piece.totalLength pieces := by
  induction h with
  | nil => rfl
  | cons _ _ below _ ih =>
    rw [ih, Address.toNat_add_ofNat below, Piece.totalLength, Nat.add_assoc]

/-- The pieces of a scan lie end to end. -/
theorem Runs.tiles {settings : Settings} {space : AddressSpace} {stop : Address} {k : Knowledge}
    {a : Address} {scan : Scan} (h : Runs settings space stop k a scan)
    (hspace : space.EndsBelowTop) : Tiles space a scan.pieces scan.stop := by
  induction h with
  | reached => exact .nil _
  | unmapped => exact .nil _
  | @code k k' a step scan before taken rest ih =>
    have hplaced := Step.placed_of_take hspace taken
    have haddress := hplaced.address
    rw [← haddress] at hplaced ⊢
    exact .cons (p := .code step.insn step.text) hplaced.pos hplaced.mapped hplaced.below ih
  | @data k a e byte scan before failed held rest ih =>
    have hmapped := AddressSpace.isMapped_of_eq_some held
    refine .cons (p := .data a byte) Nat.one_pos (fun i hi => ?_)
      (hspace.toNat_succ hmapped).2 ih
    rw [Nat.lt_one_iff.mp hi]
    exact (congrArg space.isMapped (UInt32.add_zero a)).trans hmapped

end Scan

end DspCode
