import DspCode.DataSpace
import DspCode.Proofs.PackedMemory

/-!
# Pages of the data space

The word address of a direct operand has the high page register above bit 15 and the sum of the data
page register and the offset below. The sum is not cut to 16 bits, and both parts are joined by a
disjunction. So a carry out of the sum sets the lowest bit of the page number: it moves an operand
of an even page to the page above, and changes nothing in an odd page. Main statement: an operand
stays in its page exactly when the sum does not carry or the page is odd, and two pages give the
same address exactly when they are the same, or when the sum carries and they differ in the lowest
bit.
-/

namespace DspCode

/-- A direct operand in the page of the high page register: what the context knows, and the byte
address that comes of it. -/
structure Instruction.PagedOperand (insn : Instruction) (op : Operand) (c : Context)
    (dph dp offset x : UInt32) : Prop where
  /-- The operand has the offset and uses the high page register. It may use the data page register,
  whose value counts as zero otherwise. -/
  direct : ∃ page form, op.value = .direct offset (some Register.dph.id) page form ∧
    pageValue? c insn.address page .dp = some dp
  /-- The value of the high page register. -/
  high : c.get insn.address Register.dph.id = some dph
  /-- The data page register has 16 bits. -/
  pageFits : dp ≤ 0xFFFF
  /-- The offset has 16 bits. -/
  offsetFits : offset ≤ 0xFFFF
  /-- The address of the operand. -/
  address : insn.dataAddress? op c = some x

/-! ## A disjunction with a carry -/

/-- The part of a sum above bit 15 joins the page number. -/
theorem shiftLeft_or_eq (page sum : Nat) :
    page <<< 16 ||| sum = 65536 * (page ||| sum / 65536) + sum % 65536 := by
  have hlow : sum % 65536 < 2 ^ 16 := Nat.mod_lt _ (by decide)
  have hsum : sum = (sum / 65536) <<< 16 ||| sum % 65536 := by
    rw [Nat.shiftLeft_eq, Nat.mul_comm, ← Nat.two_pow_add_eq_or_of_lt hlow]
    exact (Nat.div_add_mod sum 65536).symm
  calc page <<< 16 ||| sum
      = (page ||| sum / 65536) <<< 16 ||| sum % 65536 := by
        rw [Nat.shiftLeft_or_distrib, Nat.or_assoc, ← hsum]
    _ = 65536 * (page ||| sum / 65536) + sum % 65536 := by
        rw [Nat.shiftLeft_eq, Nat.mul_comm, ← Nat.two_pow_add_eq_or_of_lt hlow]

private theorem or_one (n : Nat) : n ||| 1 = 2 * (n / 2) + 1 := by
  have hdiv : (n ||| 1) / 2 = n / 2 := by simp [Nat.or_div_two]
  have hmod : (n ||| 1) % 2 = 1 := by simp [Nat.or_mod_two_eq_one]
  omega

private theorem toNat_and_highPage (dph : UInt32) : (dph &&& 0x7F).toNat = dph.toNat % 128 :=
  Nat.and_two_pow_sub_one_eq_mod _ 7

private theorem toNat_pageSum {dp offset : UInt32} (hdp : dp ≤ 0xFFFF) (hoffset : offset ≤ 0xFFFF) :
    (dp + offset).toNat = dp.toNat + offset.toNat ∧ dp.toNat + offset.toNat < 131072 := by
  have hdp : dp.toNat ≤ 65535 := hdp
  have hoffset : offset.toNat ≤ 65535 := hoffset
  rw [UInt32.toNat_add]
  omega

/-- The byte address that page registers and an offset of 16 bits give. -/
theorem toNat_pagedAddress {dph dp offset : UInt32} (hdp : dp ≤ 0xFFFF)
    (hoffset : offset ≤ 0xFFFF) :
    ((((dph &&& 0x7F) <<< 16) ||| (dp + offset)) <<< 1).toNat =
      131072 * (dph.toNat % 128 ||| (dp.toNat + offset.toNat) / 65536) +
        2 * ((dp.toNat + offset.toNat) % 65536) := by
  obtain ⟨hsum, hlt⟩ := toNat_pageSum hdp hoffset
  have hshift : ((dph &&& 0x7F) <<< 16).toNat = (dph.toNat % 128) <<< 16 := by
    rw [UInt32.toNat_shiftLeft, toNat_and_highPage]
    show (dph.toNat % 128) <<< 16 % 4294967296 = _
    rw [Nat.shiftLeft_eq]
    omega
  have hhigh : (dph.toNat % 128 ||| (dp.toNat + offset.toNat) / 65536) < 2 ^ 7 :=
    Nat.or_lt_two_pow (by omega) (by omega)
  rw [UInt32.toNat_shiftLeft, UInt32.toNat_or, hshift, hsum, shiftLeft_or_eq]
  show (65536 * (dph.toNat % 128 ||| (dp.toNat + offset.toNat) / 65536) +
    (dp.toNat + offset.toNat) % 65536) <<< 1 % 4294967296 = _
  rw [Nat.shiftLeft_eq]
  omega

namespace Instruction.PagedOperand

variable {insn : Instruction} {op : Operand} {c : Context} {dph dp offset x : UInt32}

/-- The byte address of an operand on a data page, as a number. -/
theorem toNat_address (h : insn.PagedOperand op c dph dp offset x) :
    x.toNat = 131072 * (dph.toNat % 128 ||| (dp.toNat + offset.toNat) / 65536) +
      2 * ((dp.toNat + offset.toNat) % 65536) := by
  obtain ⟨page, form, hvalue, hdp⟩ := h.direct
  have hmask : offset &&& 0xFFFF = offset := by
    rw [← UInt32.toNat_inj, UInt32.toNat_and]
    exact (Nat.and_two_pow_sub_one_eq_mod _ 16).trans
      (Nat.mod_eq_of_lt (Nat.lt_succ_of_le h.offsetFits))
  have hdph : pageValue? c insn.address (some Register.dph.id) .dph = some dph :=
    (if_pos rfl).trans h.high
  have hx := h.address
  simp only [dataAddress?, hvalue, hdph, hdp, true_or, if_true, hmask, Option.bind_eq_bind,
    Option.bind_some, Option.pure_def, Option.some.injEq] at hx
  rw [← hx, toNat_pagedAddress h.pageFits h.offsetFits]

/-- The sum of data page and offset has at most one bit too many. -/
theorem carry_cases (h : insn.PagedOperand op c dph dp offset x) :
    dp + offset ≤ 0xFFFF ∧ (dp.toNat + offset.toNat) / 65536 = 0 ∨
      0xFFFF < dp + offset ∧ (dp.toNat + offset.toNat) / 65536 = 1 := by
  obtain ⟨hsum, hlt⟩ := toNat_pageSum h.pageFits h.offsetFits
  simp only [UInt32.le_iff_toNat_le, UInt32.lt_iff_toNat_lt, hsum]
  show _ ≤ 65535 ∧ _ ∨ 65535 < _ ∧ _
  omega

/-- The page that the address of the operand lies on, as a number. -/
theorem toNat_page (h : insn.PagedOperand op c dph dp offset x) :
    (x >>> 17).toNat = dph.toNat % 128 ||| (dp.toNat + offset.toNat) / 65536 := by
  rw [UInt32.toNat_shiftRight, h.toNat_address]
  show (_ + 2 * ((dp.toNat + offset.toNat) % 65536)) >>> 17 = _
  rw [Nat.shiftRight_eq_div_pow]
  omega

/-- An operand stays in its page if the sum does not carry, or if the page is odd. -/
theorem page_eq_iff (h : insn.PagedOperand op c dph dp offset x) :
    x >>> 17 = dph &&& 0x7F ↔ dp + offset ≤ 0xFFFF ∨ dph &&& 1 = 1 := by
  have hodd : dph &&& 1 = 1 ↔ dph.toNat % 2 = 1 := by
    rw [← UInt32.toNat_inj, UInt32.toNat_and]
    show dph.toNat &&& 1 = 1 ↔ _
    rw [Nat.and_one_is_mod]
  rw [← UInt32.toNat_inj, h.toNat_page, toNat_and_highPage, hodd]
  rcases h.carry_cases with ⟨hle, hcarry⟩ | ⟨hgt, hcarry⟩
  · simp [hcarry, hle]
  · have hnot : ¬dp + offset ≤ 0xFFFF := UInt32.not_le.mpr hgt
    rw [hcarry, or_one]
    simp only [hnot, false_or]
    omega

/-- Two pages give one address if they are the same, or if the carry hides their difference. -/
theorem address_eq_iff {insn' : Instruction} {op' : Operand} {c' : Context} {dph' x' : UInt32}
    (h : insn.PagedOperand op c dph dp offset x)
    (h' : insn'.PagedOperand op' c' dph' dp offset x') :
    x = x' ↔ dph &&& 0x7F = dph' &&& 0x7F ∨
      0xFFFF < dp + offset ∧ (dph &&& 0x7F) >>> 1 = (dph' &&& 0x7F) >>> 1 := by
  have hhalf : ∀ page : UInt32, ((page &&& 0x7F) >>> 1).toNat = page.toNat % 128 / 2 := by
    intro page
    rw [UInt32.toNat_shiftRight, toNat_and_highPage]
    exact Nat.shiftRight_eq_div_pow _ 1
  simp only [← UInt32.toNat_inj, h.toNat_address, h'.toNat_address, toNat_and_highPage, hhalf]
  rcases h.carry_cases with ⟨hle, hcarry⟩ | ⟨hgt, hcarry⟩
  · have hnot : ¬0xFFFF < dp + offset := UInt32.not_lt.mpr hle
    simp only [hcarry, hnot, Nat.or_zero, false_and, or_false]
    omega
  · simp only [hcarry, hgt, or_one, true_and]
    omega

end Instruction.PagedOperand

namespace Instruction

/-- A direct operand lies in the page of the high page register unless data page and offset carry
out of 16 bits in an even page. Then it lies in the page above, where an operand of that page with
the same data page and offset has the same address. -/
theorem page_of_dataAddress_iff {insn : Instruction} {op : Operand} {c : Context}
    {dph dp offset x : UInt32} (h : insn.PagedOperand op c dph dp offset x) :
    (x >>> 17 = dph &&& 0x7F ↔ dp + offset ≤ 0xFFFF ∨ dph &&& 1 = 1) ∧
      ∀ {insn' : Instruction} {op' : Operand} {c' : Context} {dph' x' : UInt32},
        insn'.PagedOperand op' c' dph' dp offset x' →
          (x = x' ↔ dph &&& 0x7F = dph' &&& 0x7F ∨
            0xFFFF < dp + offset ∧ (dph &&& 0x7F) >>> 1 = (dph' &&& 0x7F) >>> 1) :=
  ⟨h.page_eq_iff, fun h' => h.address_eq_iff h'⟩

end Instruction

namespace Machine

/-- A load from the offset `0x7F` in the data page. -/
def loadFromPage : AddressSpace := .holding 0 [0xA0, 0xFE]

/-- The data page starts at the last word of a page. -/
def atPageEnd (dph : UInt32) : Knowledge where
  context := (Context.empty.withDefault Register.dp.id 0xFFFF).withDefault Register.dph.id dph

/-- In the first page and in the second one the load has the same address. -/
theorem exists_loadFromPage :
    ∃ d, c55x.decode loadFromPage (atPageEnd 0) 0 = .ok d ∧
      d.insn.PagedOperand (d.insn.operand 0) (atPageEnd 0).context 0 0xFFFF 0x7F 0x200FC ∧
      d.insn.PagedOperand (d.insn.operand 0) (atPageEnd 1).context 1 0xFFFF 0x7F 0x200FC := by
  have hfacts : (c55x.decode loadFromPage (atPageEnd 0) 0).toOption.map (fun d =>
      (d.insn.address, (d.insn.operand 0).value)) =
        some (0, .direct 0x7F (some Register.dph.id) (some Register.dp.id) .page) := by
    decide +kernel
  obtain ⟨d, hd, hfacts⟩ := exists_ok_of_toOption hfacts
  obtain ⟨haddress, hvalue⟩ := Prod.mk.inj hfacts
  have hpaged : ∀ dph : UInt32, (((dph &&& 0x7F) <<< 16) ||| (0xFFFF + 0x7F)) <<< 1 = 0x200FC →
      d.insn.PagedOperand (d.insn.operand 0) (atPageEnd dph).context dph 0xFFFF 0x7F 0x200FC := by
    intro dph hx
    refine ⟨⟨_, _, hvalue, ?_⟩, ?_, by decide, by decide, ?_⟩
    · rw [haddress]
      rfl
    · rw [haddress]
      rfl
    · rw [Instruction.dataAddress?, hvalue, haddress]
      exact congrArg some hx
  exact ⟨d, hd, hpaged 0 (by decide), hpaged 1 (by decide)⟩

/-- In the second page the load stays in its page, and meets the load of the page below it. -/
theorem page_of_dataAddress_iff_loadFromPage :
    ∃ d, c55x.decode loadFromPage (atPageEnd 0) 0 = .ok d ∧
      d.insn.PagedOperand (d.insn.operand 0) (atPageEnd 0).context 0 0xFFFF 0x7F 0x200FC ∧
      d.insn.PagedOperand (d.insn.operand 0) (atPageEnd 1).context 1 0xFFFF 0x7F 0x200FC ∧
      (0x200FC : UInt32) >>> 17 = 1 &&& 0x7F ∧
      ((1 : UInt32) &&& 0x7F = 0 &&& 0x7F ∨ (0xFFFF : UInt32) < 0xFFFF + 0x7F ∧
        ((1 : UInt32) &&& 0x7F) >>> 1 = ((0 : UInt32) &&& 0x7F) >>> 1) := by
  obtain ⟨d, hd, hfirst, hsecond⟩ := exists_loadFromPage
  obtain ⟨hpage, hmeets⟩ := Instruction.page_of_dataAddress_iff hsecond
  exact ⟨d, hd, hfirst, hsecond, hpage.mpr (Or.inr (by decide)), (hmeets hfirst).mp rfl⟩

/-- In the first page the load has an address of the second page, and it is the one that it has in
the second page. -/
theorem carry_leaves_page :
    ∃ d, c55x.decode loadFromPage (atPageEnd 0) 0 = .ok d ∧
      d.insn.PagedOperand (d.insn.operand 0) (atPageEnd 0).context 0 0xFFFF 0x7F 0x200FC ∧
      (0x200FC : UInt32) >>> 17 ≠ 0 &&& 0x7F ∧
      d.insn.PagedOperand (d.insn.operand 0) (atPageEnd 1).context 1 0xFFFF 0x7F 0x200FC ∧
      (0 : UInt32) &&& 0x7F ≠ 1 &&& 0x7F := by
  obtain ⟨d, hd, hfirst, hsecond⟩ := exists_loadFromPage
  exact ⟨d, hd, hfirst, by decide, hsecond, by decide⟩

end Machine

end DspCode
