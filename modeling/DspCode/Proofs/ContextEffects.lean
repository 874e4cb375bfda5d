import DspCode.Effects
import DspCode.Proofs.Timelines

/-!
# Effects on the register context

The effects of an instruction write the page and mode registers at the address behind it. The writes
come from three places: operands that are written, by name or at the word a register is mapped to,
make their page register unknown, a mode register is set or cleared by name, and a page register is
loaded with a constant. Several of them may name the same register, and the last one counts. Main
statement: what else the context holds stays as it was, a page register that was written is unknown
unless it was loaded with a constant, and applying the effects again changes nothing.
-/

namespace DspCode

/-- Registers are told apart by their numbers. -/
theorem Register.id_inj {r s : Register} (h : r.id = s.id) : r = s := by
  have := congrArg Register.ofNat h
  rwa [Register.id, Register.id, Register.ofNat_ctorIdx, Register.ofNat_ctorIdx] at this

namespace Effects

/-! ## Writes in order -/

/-- What is written for a register at an address after some writes, from what was written before. -/
def overlay (ws : List ContextWrite) (r : RegisterId) (x : Address)
    (before : Option (Option UInt32)) : Option (Option UInt32) :=
  ws.foldl (fun last w => if r = w.register ∧ x = w.address then some w.value else last) before

/-- Either one of the writes decides, whatever was written before, or none of them is for this
register and address. -/
theorem overlay_cases (ws : List ContextWrite) (r : RegisterId) (x : Address) :
    (∃ w ∈ ws, r = w.register ∧ x = w.address ∧ ∀ before, overlay ws r x before = some w.value) ∨
      (∀ w ∈ ws, ¬ (r = w.register ∧ x = w.address)) ∧
        ∀ before, overlay ws r x before = before := by
  induction ws with
  | nil => exact Or.inr ⟨fun w hw => absurd hw List.not_mem_nil, fun _ => rfl⟩
  | cons w rest ih =>
    obtain ⟨w', hw', hr, hx, hlast⟩ | ⟨hnone, hkeep⟩ := ih
    · exact Or.inl ⟨w', List.mem_cons_of_mem w hw', hr, hx, fun before => hlast _⟩
    · by_cases h : r = w.register ∧ x = w.address
      · refine Or.inl ⟨w, List.mem_cons_self, h.1, h.2, fun before => ?_⟩
        exact (hkeep _).trans (if_pos h)
      · refine Or.inr ⟨List.forall_mem_cons.mpr ⟨h, hnone⟩, fun before => ?_⟩
        exact (hkeep _).trans (if_neg h)

private theorem overlay_append (ws ws' : List ContextWrite) (r : RegisterId) (x : Address)
    (before : Option (Option UInt32)) :
    overlay (ws ++ ws') r x before = overlay ws' r x (overlay ws r x before) :=
  List.foldl_append

/-- What is written after an instruction is what was written before, overlaid by its writes. -/
theorem written?_apply (e : Effects) (c : Context) (r : RegisterId) (x : Address) :
    (e.apply c).written? r x = overlay e.contextWrites r x (c.written? r x) := by
  unfold apply overlay
  induction e.contextWrites generalizing c with
  | nil => rfl
  | cons w rest ih => rw [List.foldl_cons, List.foldl_cons, ih, Context.written?_set]

private theorem defaults_apply (e : Effects) (c : Context) : (e.apply c).defaults = c.defaults := by
  unfold apply
  induction e.contextWrites generalizing c with
  | nil => rfl
  | cons w rest ih => rw [List.foldl_cons, ih, Context.defaults_set]

/-- Applying effects again leaves what was written. -/
theorem written?_apply_apply (e : Effects) (c : Context) (r : RegisterId) (x : Address) :
    (e.apply (e.apply c)).written? r x = (e.apply c).written? r x := by
  rw [written?_apply e (e.apply c)]
  obtain ⟨w, -, -, -, hlast⟩ | ⟨-, hkeep⟩ := overlay_cases e.contextWrites r x
  · rw [hlast, written?_apply, hlast]
  · rw [hkeep]

/-- What holds where effects write nothing depends on the writes before them alone. -/
theorem get_apply_of_not_written (e : Effects) (c : Context) {a : Address} {r : RegisterId}
    (h : ∀ w ∈ e.contextWrites, w.register = r → ¬ w.address ≤ a) :
    (e.apply c).get a r = c.get a r := by
  refine Context.get_congr (by rw [defaults_apply]) fun y hy => ?_
  rw [written?_apply]
  obtain ⟨w, hw, hr, hx, -⟩ | ⟨-, hkeep⟩ := overlay_cases e.contextWrites r y
  · exact absurd (hx ▸ hy) (h w hw hr.symm)
  · exact hkeep _

/-- A write at an address hides what effects write below it. -/
theorem get_apply_of_written_above (e : Effects) (c : Context) {a x : Address} {r : RegisterId}
    (hx : (c.written? r x).isSome) (hle : x ≤ a) (h : ∀ w ∈ e.contextWrites, w.address < x) :
    (e.apply c).get a r = c.get a r := by
  refine Context.get_congr_from hx hle fun y hxy _ => ?_
  rw [written?_apply]
  obtain ⟨w, hw, -, heq, -⟩ | ⟨-, hkeep⟩ := overlay_cases e.contextWrites r y
  · exact absurd (heq ▸ hxy) (UInt32.not_le.mpr (h w hw))
  · exact hkeep _

/-! ## The writes of an instruction -/

/-- The page registers, and how many values each of them takes. -/
def pageSizes : List (Register × Int) := [(.dp, 65536), (.dph, 128), (.pdp, 512)]

/-- The registers that effects may write. -/
def contextRegisters : List Register := [.dp, .dph, .pdp, .cpl, .arms]

/-- An instruction writes a register: as an operand, or as memory at the word that the register is
mapped to. -/
def Overwrites (insn : Instruction) (usage : Usage) (c : Context) (r : Register) : Prop :=
  ∃ slot < insn.operandCount, usage.writesSlot slot = true ∧
    ((insn.operand slot).value = .register r.id ∨
      ∃ address high page form x, (insn.operand slot).value = .direct address high page form ∧
        form.isPeripheral = false ∧ insn.dataAddress? (insn.operand slot) c = some x ∧
        mappedRegister? x = some r)

/-- An instruction moves a constant to a register. -/
def Loads (insn : Instruction) (value : Int) (r : Register) : Prop :=
  insn.kind = Form.mov2.kind ∧ (insn.operand 0).constant? = some value ∧
    (insn.operand 1).register? = some r.id

variable {insn : Instruction} {usage : Usage} {c : Context}

/-- The accesses of an instruction are those to its operands, read or written as its usage says. -/
theorem mem_accesses_iff {access : Access} :
    access ∈ accesses insn usage ↔ access.slot < insn.operandCount ∧
      (if access.isRead then usage.readsSlot access.slot else usage.writesSlot access.slot) =
        true := by
  obtain ⟨slot, isRead⟩ := access
  cases isRead <;> simp [accesses]

/-- Only page registers are noted as overwritten, and only for operands that are written. -/
theorem of_overwritten? {access : Access} {id : RegisterId}
    (h : overwritten? insn c access = some id) :
    access.isRead = false ∧ isPageRegister id = true := by
  unfold overwritten? at h
  split at h
  next => cases h
  next hread =>
    refine ⟨Bool.eq_false_iff.mpr hread, ?_⟩
    simp only at h
    split at h
    next i _ =>
      split at h
      next hpage => exact Option.some.inj h ▸ hpage
      next => cases h
    next =>
      split at h
      next => cases h
      next =>
        split at h
        next r _ =>
          split at h
          next hpage => exact Option.some.inj h ▸ hpage
          next => cases h
        next => cases h
    next => cases h

/-- A written operand overwrites a page register that it names or is mapped to its address. -/
theorem overwritten?_eq_some_iff {slot : Nat} {r : Register} (hr : isPageRegister r.id = true) :
    overwritten? insn c ⟨slot, false⟩ = some r.id ↔
      (insn.operand slot).value = .register r.id ∨
        ∃ address high page form x, (insn.operand slot).value = .direct address high page form ∧
          form.isPeripheral = false ∧ insn.dataAddress? (insn.operand slot) c = some x ∧
          mappedRegister? x = some r := by
  simp only [overwritten?, Bool.false_eq_true, if_false]
  cases hv : (insn.operand slot).value with
  | register i =>
    by_cases hi : i = r.id
    · simp [hi, hr]
    · by_cases hp : isPageRegister i = true <;> simp [hi, hp]
  | direct address high page form =>
    have hmapped : (OperandValue.direct address high page form = .register r.id ∨
        ∃ address' high' page' form' x, OperandValue.direct address high page form =
            .direct address' high' page' form' ∧ form'.isPeripheral = false ∧
          insn.dataAddress? (insn.operand slot) c = some x ∧ mappedRegister? x = some r) ↔
        form.isPeripheral = false ∧
          (insn.dataAddress? (insn.operand slot) c).bind mappedRegister? = some r := by
      constructor
      · rintro (h | ⟨_, _, _, _, x, h, hform, hx, hr⟩)
        · cases h
        · cases h
          exact ⟨hform, Option.bind_eq_some_iff.mpr ⟨x, hx, hr⟩⟩
      · rintro ⟨hform, hbind⟩
        obtain ⟨x, hx, hr⟩ := Option.bind_eq_some_iff.mp hbind
        exact Or.inr ⟨address, high, page, form, x, rfl, hform, hx, hr⟩
    rw [hmapped]
    cases hform : form.isPeripheral with
    | true => simp [hform]
    | false =>
      cases (insn.dataAddress? (insn.operand slot) c).bind mappedRegister? with
      | none => simp [hform]
      | some s =>
        by_cases hsr : s = r
        · simp [hform, hsr, hr]
        · have hid : s.id ≠ r.id := fun h => hsr (Register.id_inj h)
          by_cases hp : isPageRegister s.id = true <;> simp [hform, hsr, hp, hid]
  | _ => simp

/-- What one write of the effects of an instruction can be. -/
theorem mem_contextWrites_iff {w : ContextWrite} :
    w ∈ (of insn usage c).contextWrites ↔
      (∃ access ∈ accesses insn usage, ∃ id, overwritten? insn c access = some id ∧
        w = ⟨insn.limit, id, none⟩) ∨
      modeWrite? insn = some w ∨ pageLoad? insn = some w := by
  simp only [of, List.mem_append, List.mem_filterMap, Option.map_eq_some_iff, Option.mem_toList,
    or_assoc, @eq_comm _ w]

/-! ## What the context holds afterwards -/

private theorem isPageRegister_of_mem {p : Register × Int} (h : p ∈ pageSizes) :
    isPageRegister p.1.id = true := by
  revert p
  decide

/-- Each page register is in the list of page registers. -/
theorem exists_mem_pageSizes {id : RegisterId} (h : isPageRegister id = true) :
    ∃ p ∈ pageSizes, id = p.1.id := by
  simp only [isPageRegister, Bool.or_eq_true, beq_iff_eq] at h
  obtain (hid | hid) | hid := h
  · exact ⟨(.dp, 65536), by decide, hid⟩
  · exact ⟨(.dph, 128), by decide, hid⟩
  · exact ⟨(.pdp, 512), by decide, hid⟩

/-- Only mode registers are cleared and set by name. -/
theorem of_modeWrite? {w : ContextWrite} (h : modeWrite? insn = some w) :
    w.address = insn.limit ∧ (w.register = Register.cpl.id ∨ w.register = Register.arms.id) := by
  unfold modeWrite? at h
  split at h
  next =>
    split at h
    next id _ =>
      split at h
      next hid =>
        cases h
        exact ⟨rfl, hid⟩
      next => cases h
    next => cases h
  next => cases h

/-- A mask of low bits keeps a number up to the multiples of a power of two. -/
theorem ofInt_and {size : Nat} {mask : UInt32} (hmask : ∀ n, n &&& mask.toNat = n % size)
    (hdvd : (size : Int) ∣ 4294967296) (value : Int) :
    UInt32.ofInt value &&& mask = UInt32.ofInt (value % size) := by
  have hmod : ∀ k : Int, ((UInt32.ofInt k).toNat : Int) = k % 4294967296 := by
    intro k
    rw [UInt32.ofInt, UInt32.toNat_ofNat']
    omega
  have hsize : (0 : Int) < size := by
    rcases Nat.eq_zero_or_pos size with rfl | h
    · obtain ⟨k, hk⟩ := hdvd
      omega
    · omega
  have hle : (size : Int) ≤ 4294967296 := Int.le_of_dvd (by decide) hdvd
  apply UInt32.toNat_inj.mp
  rw [UInt32.toNat_and, hmask]
  apply Int.ofNat_inj.mp
  rw [hmod, Int.natCast_emod, hmod, Int.emod_emod_of_dvd value hdvd]
  exact (Int.emod_eq_of_lt (Int.emod_nonneg _ (by omega))
    (Int.lt_of_lt_of_le (Int.emod_lt_of_pos _ hsize) hle)).symm

/-- A constant is kept up to the size of the page register. -/
theorem pageMask?_spec {p : Register × Int} (h : p ∈ pageSizes) :
    ∃ mask, pageMask? p.1.id = some mask ∧
      ∀ value : Int, UInt32.ofInt value &&& mask = UInt32.ofInt (value % p.2) := by
  rcases List.mem_cons.mp h with rfl | h
  · exact ⟨0xFFFF, rfl, ofInt_and (fun n => Nat.and_two_pow_sub_one_eq_mod n 16) (by decide)⟩
  rcases List.mem_cons.mp h with rfl | h
  · exact ⟨0x7F, rfl, ofInt_and (fun n => Nat.and_two_pow_sub_one_eq_mod n 7) (by decide)⟩
  rcases List.mem_singleton.mp h with rfl
  exact ⟨0x1FF, rfl, ofInt_and (fun n => Nat.and_two_pow_sub_one_eq_mod n 9) (by decide)⟩

/-- A constant moved to a page register is written there, cut to the size of the register. -/
theorem pageLoad?_of_loads {p : Register × Int} (hp : p ∈ pageSizes) {value : Int}
    (h : Loads insn value p.1) :
    pageLoad? insn = some ⟨insn.limit, p.1.id, some (UInt32.ofInt (value % p.2))⟩ := by
  obtain ⟨mask, hmask, hvalue⟩ := pageMask?_spec hp
  obtain ⟨hkind, hconstant, hregister⟩ := h
  rw [pageLoad?, if_pos hkind, hconstant, hregister]
  simp only [hmask, Option.map_some, hvalue]

/-- Only constants moved to page registers are written as such, from the end of the instruction on.
-/
theorem of_pageLoad? {w : ContextWrite} (h : pageLoad? insn = some w) :
    w.address = insn.limit ∧
      ∃ p ∈ pageSizes, w.register = p.1.id ∧ ∃ value, Loads insn value p.1 := by
  unfold pageLoad? at h
  split at h
  next hkind =>
    split at h
    next value id hconstant hregister =>
      obtain ⟨mask, hmask, rfl⟩ := Option.map_eq_some_iff.mp h
      have hpage : isPageRegister id = true := by
        simp only [isPageRegister, Bool.or_eq_true, beq_iff_eq]
        unfold pageMask? at hmask
        grind
      obtain ⟨p, hp, rfl⟩ := exists_mem_pageSizes hpage
      exact ⟨rfl, p, hp, rfl, value, hkind, hconstant, hregister⟩
    next => cases h
  next => cases h

/-- All writes are at the address behind the instruction, and for page and mode registers. -/
theorem of_mem_contextWrites {w : ContextWrite} (h : w ∈ (of insn usage c).contextWrites) :
    w.address = insn.limit ∧ w.register ∈ contextRegisters.map Register.id := by
  have hmode : Register.cpl.id ∈ contextRegisters.map Register.id ∧
      Register.arms.id ∈ contextRegisters.map Register.id := by decide
  have hpage : ∀ p ∈ pageSizes, p.1.id ∈ contextRegisters.map Register.id := by decide
  obtain ⟨access, -, id, hid, rfl⟩ | hw | hw := mem_contextWrites_iff.mp h
  · refine ⟨rfl, ?_⟩
    obtain ⟨p, hp, rfl⟩ := exists_mem_pageSizes (of_overwritten? hid).2
    exact hpage p hp
  · obtain ⟨haddress, hregister⟩ := of_modeWrite? hw
    refine ⟨haddress, ?_⟩
    rcases hregister with hregister | hregister
    · exact hregister ▸ hmode.1
    · exact hregister ▸ hmode.2
  · obtain ⟨haddress, p, hp, hregister, -⟩ := of_pageLoad? hw
    exact ⟨haddress, hregister ▸ hpage p hp⟩

section Page

variable {p : Register × Int} (hp : p ∈ pageSizes)
include hp

/-- A page register is made unknown exactly if it is overwritten. -/
theorem exists_unknown_iff :
    (∃ access ∈ accesses insn usage, overwritten? insn c access = some p.1.id) ↔
      Overwrites insn usage c p.1 := by
  have hpage := isPageRegister_of_mem hp
  constructor
  · rintro ⟨⟨slot, isRead⟩, haccess, hoverwritten⟩
    obtain rfl : isRead = false := (of_overwritten? hoverwritten).1
    obtain ⟨hslot, hwrites⟩ := mem_accesses_iff.mp haccess
    exact ⟨slot, hslot, hwrites, (overwritten?_eq_some_iff hpage).mp hoverwritten⟩
  · rintro ⟨slot, hslot, hwrites, hvalue⟩
    exact ⟨⟨slot, false⟩, mem_accesses_iff.mpr ⟨hslot, hwrites⟩,
      (overwritten?_eq_some_iff hpage).mpr hvalue⟩

/-- The writes of a page register without a constant make it unknown. -/
theorem eq_unknown_of_mem {w : ContextWrite} (hw : w ∈ (of insn usage c).contextWrites)
    (hregister : w.register = p.1.id) (hno : ¬ ∃ value, Loads insn value p.1) :
    Overwrites insn usage c p.1 ∧ w.value = none := by
  obtain ⟨access, haccess, id, hid, rfl⟩ | hw | hw := mem_contextWrites_iff.mp hw
  · exact ⟨(exists_unknown_iff hp).mp ⟨access, haccess, hregister ▸ hid⟩, rfl⟩
  · have hmode := (of_modeWrite? hw).2
    have hapart : ∀ q ∈ pageSizes, q.1.id ≠ Register.cpl.id ∧ q.1.id ≠ Register.arms.id := by decide
    rw [hregister] at hmode
    rcases hmode with hmode | hmode
    · exact absurd hmode (hapart p hp).1
    · exact absurd hmode (hapart p hp).2
  · obtain ⟨-, q, -, hq, hloads⟩ := of_pageLoad? hw
    rw [Register.id_inj (hq.symm.trans hregister)] at hloads
    exact absurd hloads hno

/-- A page register that is loaded with a constant holds it behind the instruction. -/
theorem get_of_loads {value : Int} (h : Loads insn value p.1) :
    ((of insn usage c).apply c).get insn.limit p.1.id = some (UInt32.ofInt (value % p.2)) := by
  refine Context.get_of_written? ?_ (UInt32.le_refl _) fun y hy hya =>
    absurd hy (UInt32.not_lt.mpr hya)
  rw [written?_apply]
  simp only [of, pageLoad?_of_loads hp h, Option.toList_some, overlay_append]
  exact if_pos ⟨rfl, rfl⟩

/-- A page register that is overwritten is unknown behind the instruction, unless it is loaded with
a constant. -/
theorem get_of_overwrites (h : Overwrites insn usage c p.1)
    (hno : ¬ ∃ value, Loads insn value p.1) :
    ((of insn usage c).apply c).get insn.limit p.1.id = none := by
  refine Context.get_of_written? ?_ (UInt32.le_refl _) fun y hy hya =>
    absurd hy (UInt32.not_lt.mpr hya)
  rw [written?_apply]
  obtain ⟨w, hw, hr, -, hlast⟩ | ⟨hnone, -⟩ :=
    overlay_cases (of insn usage c).contextWrites p.1.id insn.limit
  · rw [hlast, (eq_unknown_of_mem hp hw hr.symm hno).2]
  · obtain ⟨access, haccess, hid⟩ := (exists_unknown_iff hp).mpr h
    have hmem := mem_contextWrites_iff.mpr (Or.inl ⟨access, haccess, p.1.id, hid, rfl⟩)
    exact absurd ⟨rfl, rfl⟩ (hnone _ hmem)

/-- A page register that is neither overwritten nor loaded holds what it held. -/
theorem get_of_not_overwrites (h : ¬ Overwrites insn usage c p.1)
    (hno : ¬ ∃ value, Loads insn value p.1) (a : Address) :
    ((of insn usage c).apply c).get a p.1.id = c.get a p.1.id :=
  get_apply_of_not_written _ c fun _ hw hregister =>
    absurd (eq_unknown_of_mem hp hw hregister hno).1 h

end Page

/-- What the effects of an instruction do to the register context. Registers other than the page and
mode registers hold what they held, and so do all registers before the end of the instruction and
behind a later write. A page register that the instruction writes holds the constant that is moved
to it, as far as it has bits for it, and is unknown otherwise. Applying the same effects a second
time changes no value. -/
theorem get_apply_of (insn : Instruction) (usage : Usage) (c : Context) :
    (∀ (a : Address) (r : RegisterId),
      (r ∉ contextRegisters.map Register.id ∨ a < insn.limit ∨
        ∃ x, insn.limit < x ∧ x ≤ a ∧ (c.written? r x).isSome) →
      ((of insn usage c).apply c).get a r = c.get a r) ∧
    (∀ p ∈ pageSizes, Overwrites insn usage c p.1 →
      (∀ value, Loads insn value p.1 →
        ((of insn usage c).apply c).get insn.limit p.1.id =
          some (UInt32.ofInt (value % p.2))) ∧
      ((¬ ∃ value, Loads insn value p.1) →
        ((of insn usage c).apply c).get insn.limit p.1.id = none)) ∧
    ∀ (a : Address) (r : RegisterId),
      ((of insn usage c).apply ((of insn usage c).apply c)).get a r =
        ((of insn usage c).apply c).get a r := by
  refine ⟨fun a r h => ?_, fun p hp hwrites => ?_, fun a r => ?_⟩
  · rcases h with hr | ha | ⟨x, hx, hxa, hwritten⟩
    · refine get_apply_of_not_written _ c fun w hw hregister => ?_
      exact absurd (hregister ▸ (of_mem_contextWrites hw).2) hr
    · refine get_apply_of_not_written _ c fun w hw _ => ?_
      rw [(of_mem_contextWrites hw).1]
      exact UInt32.not_le.mpr ha
    · refine get_apply_of_written_above _ c hwritten hxa fun w hw => ?_
      rw [(of_mem_contextWrites hw).1]
      exact hx
  · exact ⟨fun value => get_of_loads hp, get_of_overwrites hp hwrites⟩
  · exact Context.get_congr (by rw [defaults_apply]) fun y _ => written?_apply_apply _ c r y

/-- The move of a constant that has more bits than the high page register. -/
def highPageLoad : Instruction where
  address := 8
  length := 4
  kind := Form.mov2.kind
  operands := #v[.ofConstant 0x181 false .word, .ofRegister Register.dph.id, {}, {}, {}, {}]

/-- The move of a register to the word of the high page register. -/
def highPageStore : Instruction where
  address := 8
  length := 4
  kind := Form.mov2.kind
  operands := #v[.ofRegister Register.t0.id, .of (.direct 0x2B none none .absolute) .word,
    {}, {}, {}, {}]

/-- The high page register holds one value around address 8 and another one from address 100 on. -/
def twoHighPages : Context :=
  (Context.empty.set 0 Register.dph.id (some 5)).set 100 Register.dph.id (some 7)

/-- A load and a store of the high page register count from their end up to the next value. -/
theorem get_apply_of_highPage :
    let load := of highPageLoad (.of [0] [1]) twoHighPages
    let store := of highPageStore (.of [0] [1]) twoHighPages
    ((load.apply twoHighPages).get 11 Register.dph.id = some 5 ∧
      (load.apply twoHighPages).get 12 Register.dph.id = some 1 ∧
      (load.apply (load.apply twoHighPages)).get 12 Register.dph.id = some 1 ∧
      (load.apply twoHighPages).get 100 Register.dph.id = some 7) ∧
    (store.apply twoHighPages).get 12 Register.dph.id = none := by
  obtain ⟨hframe, hpage, hagain⟩ := get_apply_of highPageLoad (.of [0] [1]) twoHighPages
  obtain ⟨-, hstore, -⟩ := get_apply_of highPageStore (.of [0] [1]) twoHighPages
  have hload := (hpage (.dph, 128) (by decide) ⟨1, by decide, by decide, Or.inl rfl⟩).1 0x181
    ⟨rfl, rfl, rfl⟩
  refine ⟨⟨?_, hload, (hagain 12 _).trans hload, ?_⟩, ?_⟩
  · exact (hframe 11 _ (Or.inr (Or.inl (by decide)))).trans (by decide +kernel)
  · have hlater : (twoHighPages.written? Register.dph.id 100).isSome := by decide +kernel
    refine (hframe 100 _ (Or.inr (Or.inr ⟨100, by decide, by decide, hlater⟩))).trans ?_
    decide +kernel
  · refine (hstore (.dph, 128) (by decide) ⟨1, by decide, by decide, Or.inr ?_⟩).2 ?_
    · exact ⟨0x2B, none, none, .absolute, 0x56, rfl, rfl, by decide, by decide⟩
    · rintro ⟨value, -, hconstant, -⟩
      cases hconstant

end Effects

end DspCode
