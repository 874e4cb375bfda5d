import DspCode.Numeral
import DspCode.Numeral.Reading

/-!
# Numerals read back

The digits written for a number below 2³² are read back to that number, with any zeros in front of
them. A byte has two digits, one for each half.
-/

namespace DspCode

section Digits

variable {base value n : Nat}

/-- The value of a digit is read back from its character. -/
theorem digitValue?_digitChar {d : Nat} (hbase : base ≤ 16) (hd : d < base) :
    digitValue? base (Nat.digitChar d) = some d := by
  have hhex : ∀ d < 16, digitValue? 16 (Nat.digitChar d) = some d := by decide
  have hdigit := hhex d (Nat.lt_of_lt_of_le hd hbase)
  unfold digitValue? at hdigit ⊢
  rw [Option.filter_eq_some_iff] at hdigit ⊢
  exact ⟨hdigit.1, decide_eq_true hd⟩

private theorem readDigits_cons {c : Char} {d : Nat} (hd : digitValue? base c = some d)
    (hfits : value * base + d < UInt32.size) (rest : List Char) :
    readDigits base value (c :: rest) = readDigits base (value * base + d) rest := by
  rw [readDigits, hd]
  exact if_pos hfits

/-- Digits are read from where the ones before them left off. -/
theorem readDigits_append {front rest : List Char} (h : readDigits base value front = .ok n) :
    readDigits base value (front ++ rest) = readDigits base n rest := by
  fun_induction readDigits base value front with
  | case1 value =>
    cases h
    rfl
  | case2 => cases h
  | case3 value c front d hd next hfits ih =>
    rw [List.cons_append, readDigits_cons hd hfits]
    exact ih h
  | case4 => cases h

/-- All characters of a number that is read are digits. -/
theorem exists_digitValue?_of_readDigits {cs : List Char} (h : readDigits base value cs = .ok n)
    {c : Char} (hc : c ∈ cs) : ∃ d, digitValue? base c = some d := by
  fun_induction readDigits base value cs with
  | case1 => cases hc
  | case2 => cases h
  | case3 value first rest d hd next hfits ih =>
    rcases List.mem_cons.mp hc with rfl | hrest
    · exact ⟨d, hd⟩
    · exact ih h hrest
  | case4 => cases h

/-- One more digit is read as long as the number fits. -/
theorem readDigits_digitChar {d : Nat} (hbase : base ≤ 16) (hd : d < base)
    (hfits : value * base + d < UInt32.size) :
    readDigits base value [Nat.digitChar d] = .ok (value * base + d) :=
  readDigits_cons (digitValue?_digitChar hbase hd) hfits []

/-- The digits of a number that fits are read back. -/
theorem readDigits_toDigits (htwo : 1 < base) (hbase : base ≤ 16) (hn : n < UInt32.size) :
    readDigits base 0 (Nat.toDigits base n) = .ok n := by
  induction n using Nat.strongRecOn with
  | ind n ih =>
    by_cases hlt : n < base
    · rw [Nat.toDigits_of_lt_base hlt, readDigits_digitChar hbase hlt (by omega), Nat.zero_mul,
        Nat.zero_add]
    · have hle : base ≤ n := Nat.not_lt.mp hlt
      have hdiv : n / base < n := Nat.div_lt_self (by omega) htwo
      have hsplit : n / base * base + n % base = n := Nat.div_add_mod' n base
      rw [Nat.toDigits_of_base_le htwo hle, readDigits_append (ih _ hdiv (by omega)),
        readDigits_digitChar hbase (Nat.mod_lt n (by omega)) (by omega), hsplit]

/-- Leading zeros are read as zero. -/
theorem readDigits_replicate_zero (hbase : 0 < base) (hhex : base ≤ 16) (count : Nat) :
    readDigits base 0 (List.replicate count '0') = .ok 0 := by
  induction count with
  | zero => rfl
  | succ count ih =>
    have hzero : readDigits base 0 ['0'] = .ok 0 := by
      rw [show '0' = Nat.digitChar 0 from rfl, readDigits_digitChar hhex hbase] <;> simp
    rw [List.replicate_succ, ← List.singleton_append, readDigits_append hzero, ih]

end Digits

/-- What is written in hexadecimal is read back. -/
theorem readDigits_hexPadded (width : Nat) {n : Nat} (hn : n < UInt32.size) :
    readDigits 16 0 (hexPadded width n).toList = .ok n := by
  rw [hexPadded, String.toList_ofList, List.leftpad,
    readDigits_append (readDigits_replicate_zero (by decide) (by decide) _)]
  exact readDigits_toDigits (by decide) (by decide) hn

/-- Nothing but digits is written. -/
theorem not_mem_hexPadded (width : Nat) {n : Nat} (hn : n < UInt32.size) {c : Char}
    (hc : digitValue? 16 c = none) : c ∉ (hexPadded width n).toList := by
  intro hmem
  obtain ⟨d, hd⟩ := exists_digitValue?_of_readDigits (readDigits_hexPadded width hn) hmem
  cases hc.symm.trans hd

/-- The two digits of a byte. -/
theorem toList_hexPadded_byte (b : UInt8) :
    (hexPadded 2 b.toNat).toList =
      [Nat.digitChar (b.toNat / 16), Nat.digitChar (b.toNat % 16)] := by
  have hlt := b.toNat_lt
  rw [hexPadded, String.toList_ofList]
  by_cases hsmall : b.toNat < 16
  · rw [Nat.toDigits_of_lt_base hsmall, Nat.div_eq_of_lt hsmall, Nat.mod_eq_of_lt hsmall]
    rfl
  · rw [Nat.toDigits_of_base_le (by decide) (by omega), Nat.toDigits_of_lt_base (by omega)]
    rfl

end DspCode
