import DspCode.Form
import DspCode.Proofs.Numerals

/-!
# The characters of numerals and names

Numerals are written with digits, a sign and the letter of the mark. The names of registers have
capital letters, those of mnemonics small letters, and both digits and underscores. What is shown
of these characters one by one holds of all numerals and names.
-/

namespace DspCode

/-- All characters of a fixed text have a property. -/
theorem forall_mem_ofList {p : Char → Bool} {cs : List Char} (h : cs.all p = true) :
    ∀ c ∈ (String.ofList cs).toList, p c = true := by
  rw [String.toList_ofList]
  exact List.all_eq_true.mp h

section Numerals

/-- Whether a character stands in numerals. -/
def isNumeralChar (c : Char) : Bool := (digitValue? 16 c).isSome || c == 'x' || c == '-'

private theorem isNumeralChar_digitChar {d : Nat} (hd : d < 16) :
    isNumeralChar (Nat.digitChar d) = true := by
  rw [isNumeralChar, digitValue?_digitChar (Nat.le_refl 16) hd]
  rfl

/-- Digits stand in numerals. -/
theorem isNumeralChar_of_mem_toDigits {base n : Nat} (htwo : 1 < base) (hbase : base ≤ 16) :
    ∀ c ∈ Nat.toDigits base n, isNumeralChar c = true := by
  induction n using Nat.strongRecOn with
  | ind n ih =>
    intro c hc
    by_cases hlt : n < base
    · rw [Nat.toDigits_of_lt_base hlt, List.mem_singleton] at hc
      rw [hc]
      exact isNumeralChar_digitChar (Nat.lt_of_lt_of_le hlt hbase)
    · have hdiv : n / base < n := Nat.div_lt_self (by omega) htwo
      rw [Nat.toDigits_of_base_le htwo (by omega), List.mem_append, List.mem_singleton] at hc
      rcases hc with hc | rfl
      · exact ih _ hdiv c hc
      · exact isNumeralChar_digitChar (Nat.lt_of_lt_of_le (Nat.mod_lt n (by omega)) hbase)

/-- A decimal number has the characters of numerals only. -/
theorem isNumeralChar_of_mem_decimalText (n : Int) :
    ∀ c ∈ (decimalText n).toList, isNumeralChar c = true := by
  have hdigits : ∀ m, ∀ c ∈ (String.ofList (Nat.toDigits 10 m)).toList,
      isNumeralChar c = true := by
    intro m
    rw [String.toList_ofList]
    exact isNumeralChar_of_mem_toDigits (by decide) (by decide)
  cases n with
  | ofNat m => exact hdigits m
  | negSucc m =>
    rw [decimalText, String.toList_append]
    exact List.forall_mem_append.mpr ⟨forall_mem_ofList (by decide), hdigits (m + 1)⟩

/-- A hexadecimal number has the characters of numerals only. -/
theorem isNumeralChar_of_mem_hexText (n : Nat) :
    ∀ c ∈ (hexText n).toList, isNumeralChar c = true := by
  rw [hexText, hexPadded, String.toList_append, List.leftpad]
  refine List.forall_mem_append.mpr ⟨forall_mem_ofList (by decide), ?_⟩
  rw [String.toList_ofList]
  refine List.forall_mem_append.mpr ⟨fun c hc => ?_, isNumeralChar_of_mem_toDigits (by decide)
    (by decide)⟩
  rw [List.eq_of_mem_replicate hc]
  decide

/-- A number as it is printed has the characters of numerals only. -/
theorem isNumeralChar_of_mem_numeralText (v : Int) :
    ∀ c ∈ (numeralText v).toList, isNumeralChar c = true := by
  unfold numeralText
  split
  · exact isNumeralChar_of_mem_decimalText v
  · split
    · rw [String.toList_append]
      exact List.forall_mem_append.mpr
        ⟨forall_mem_ofList (by decide), isNumeralChar_of_mem_hexText _⟩
    · exact isNumeralChar_of_mem_hexText _

end Numerals

/-- Whether a character stands in the names of registers. -/
def Register.isNameChar (c : Char) : Bool := c.isUpper || c.isDigit || c == '_'

/-- The name of a register has upper-case letters, digits and underscores only. -/
theorem Register.isNameChar_of_mem_name (r : Register) :
    ∀ c ∈ r.name.toList, isNameChar c = true := by
  cases r <;> exact forall_mem_ofList (by decide)

/-- Whether a character stands in the names of mnemonics. -/
def Mnemonic.isNameChar (c : Char) : Bool := c.isLower || c.isDigit || c == '_'

/-- The names of mnemonics on both lines have such characters only. -/
theorem Form.isNameChar_of_mem_names {kind : Kind} {m : Mnemonic} (h : mnemonics[kind]? = some m) :
    (∀ c ∈ m.name.toList, Mnemonic.isNameChar c = true) ∧
      ∀ name ∈ m.second, ∀ c ∈ name.toList, Mnemonic.isNameChar c = true := by
  have htable : (table.toList.all fun row => row.mnemonic.name.toList.all Mnemonic.isNameChar &&
      row.mnemonic.second.all (·.toList.all Mnemonic.isNameChar)) = true := by
    decide +kernel
  rw [mnemonics, Array.getElem?_map, Option.map_eq_some_iff] at h
  obtain ⟨row, hrow, rfl⟩ := h
  have hmem := List.mem_of_getElem? ((Array.getElem?_toList).trans hrow)
  have hnames := List.all_eq_true.mp htable row hmem
  rw [Bool.and_eq_true, List.all_eq_true] at hnames
  refine ⟨hnames.1, fun name hname => ?_⟩
  rw [Option.mem_def.mp hname] at hnames
  exact List.all_eq_true.mp hnames.2

end DspCode
