import DspCode.Proofs.Numerals

/-!
# Numerals typed back

Operand values are written in decimal up to nine and in hexadecimal above, addresses in hexadecimal
with zeros in front; one reader tells the bases apart by the mark. Main statement: whatever is
written for a 32-bit number, with blanks around it, is read as that number, and no two operand
values of any size are written alike.
-/

namespace DspCode

namespace Text

/-- Blanks are dropped up to the first character that is none. -/
theorem dropWhile_blanks {front rest : List Char} (hfront : ∀ c ∈ front, isBlank c = true)
    (hrest : ∀ c ∈ rest.head?, isBlank c = false) : (front ++ rest).dropWhile isBlank = rest := by
  rw [List.dropWhile_append_of_pos hfront]
  cases rest with
  | nil => rfl
  | cons c rest =>
    have hc : isBlank c = false := hrest c rfl
    rw [List.dropWhile_cons_of_neg (by rw [hc]; decide)]

/-- Trimming drops the blanks around a text without blanks, and nothing else. -/
theorem trim_blanks_around {front cs back : List Char} (hfront : ∀ c ∈ front, isBlank c = true)
    (hcs : ∀ c ∈ cs, isBlank c = false) (hne : cs ≠ []) (hback : ∀ c ∈ back, isBlank c = true) :
    trim (front ++ cs ++ back) = cs := by
  have hstart : (front ++ (cs ++ back)).dropWhile isBlank = cs ++ back := by
    refine dropWhile_blanks hfront fun c hc => hcs c ?_
    obtain ⟨first, rest, rfl⟩ := List.exists_cons_of_ne_nil hne
    exact List.mem_of_head? hc
  have hend : (back.reverse ++ cs.reverse).dropWhile isBlank = cs.reverse := by
    refine dropWhile_blanks (by simpa using hback) fun c hc => hcs c ?_
    exact List.mem_reverse.mp (List.mem_of_head? hc)
  rw [trim, List.append_assoc, hstart, trimEnd, List.reverse_append, hend, List.reverse_reverse]

end Text

section Reading

variable {base n : Nat} {digits : List Char}

/-- Digits are no blanks. -/
theorem isBlank_of_digitValue? {c : Char} {d : Nat} (h : digitValue? base c = some d) :
    Text.isBlank c = false := by
  have hrange : ∀ {lo hi : Char}, lo ≤ c ∧ c ≤ hi → lo.toNat ≤ c.toNat ∧ c.toNat ≤ hi.toNat :=
    fun hc => hc
  have hvalue := (Option.filter_eq_some_iff.mp h).1
  have hcode : (48 ≤ c.toNat ∧ c.toNat ≤ 57) ∨ (97 ≤ c.toNat ∧ c.toNat ≤ 122) ∨
      65 ≤ c.toNat ∧ c.toNat ≤ 90 := by
    split at hvalue
    next hdigit => exact .inl (hrange hdigit)
    next =>
      split at hvalue
      next hlower => exact .inr (.inl (hrange hlower))
      next =>
        split at hvalue
        next hupper => exact .inr (.inr (hrange hupper))
        next => cases hvalue
  simp [Text.isBlank]
  omega

/-- Digits without a sign are read as they stand. -/
theorem readUnsigned_of_readDigits (hne : digits ≠ []) (h : readDigits base 0 digits = .ok n) :
    readUnsigned base digits = .ok n := by
  have hplus : ∀ rest, digits ≠ '+' :: rest := by
    rintro rest rfl
    obtain ⟨d, hd⟩ := exists_digitValue?_of_readDigits h List.mem_cons_self
    cases hd
  unfold readUnsigned
  split
  · exact absurd rfl hne
  · exact absurd rfl (hplus [])
  · exact absurd rfl (hplus _)
  · exact h

/-- One character has no mark, and is read in decimal. -/
theorem readUInt32_of_singleton {text : String} {c : Char} (h : Text.trim text.toList = [c]) :
    readUInt32 text = (readUnsigned 10 [c]).map UInt32.ofNat := by
  rw [readUInt32, h]
  congr 1
  split
  next hmark => cases hmark
  next hmark => cases hmark
  next => rfl

end Reading

private theorem toList_hexPadded_ne_nil (width n : Nat) : (hexPadded width n).toList ≠ [] := by
  rw [hexPadded, String.toList_ofList, List.leftpad]
  exact List.append_ne_nil_of_right_ne_nil _ Nat.toDigits_ne_nil

section Blanks

variable {front back : String} (hfront : ∀ c ∈ front.toList, Text.isBlank c = true)
  (hback : ∀ c ∈ back.toList, Text.isBlank c = true)
include hfront hback

/-- A number in hexadecimal with its mark, however many zeros are in front, is read back. -/
theorem readUInt32_hexPadded (width : Nat) (v : UInt32) :
    readUInt32 (front ++ ("0x" ++ hexPadded width v.toNat) ++ back) = .ok v := by
  have hdigits := readDigits_hexPadded width v.toNat_lt
  have htrim : Text.trim (front ++ ("0x" ++ hexPadded width v.toNat) ++ back).toList =
      '0' :: 'x' :: (hexPadded width v.toNat).toList := by
    simp only [String.toList_append]
    refine Text.trim_blanks_around hfront (fun c hc => ?_) (List.cons_ne_nil _ _) hback
    rcases List.mem_append.mp hc with hmark | hdigit
    · have hplain : ['0', 'x'].any Text.isBlank = false := by decide
      exact Bool.eq_false_iff.mpr (List.any_eq_false.mp hplain c hmark)
    · obtain ⟨d, hd⟩ := exists_digitValue?_of_readDigits hdigits hdigit
      exact isBlank_of_digitValue? hd
  rw [readUInt32, htrim]
  simp only [readUnsigned_of_readDigits (toList_hexPadded_ne_nil _ _) hdigits, Except.map,
    UInt32.ofNat_toNat]

/-- A digit on its own is read back. -/
theorem readUInt32_digitChar {d : Nat} (hd : d < 10) :
    readUInt32 (front ++ String.ofList [Nat.digitChar d] ++ back) = .ok (UInt32.ofNat d) := by
  have hvalue := digitValue?_digitChar (by decide : 10 ≤ 16) hd
  have hread : readDigits 10 0 [Nat.digitChar d] = .ok d := by
    rw [readDigits_digitChar (by decide) hd (by rw [UInt32.size]; omega), Nat.zero_mul,
      Nat.zero_add]
  have htrim : Text.trim (front ++ String.ofList [Nat.digitChar d] ++ back).toList =
      [Nat.digitChar d] := by
    simp only [String.toList_append, String.toList_ofList]
    refine Text.trim_blanks_around hfront (fun c hc => ?_) (List.cons_ne_nil _ _) hback
    rw [List.mem_singleton.mp hc]
    exact isBlank_of_digitValue? hvalue
  rw [readUInt32_of_singleton htrim, readUnsigned_of_readDigits (List.cons_ne_nil _ _) hread]
  rfl

/-- An operand value of 32 bits is read back, on either side of the change from decimal to
hexadecimal. -/
theorem readUInt32_numeralText (v : UInt32) :
    readUInt32 (front ++ numeralText v.toNat ++ back) = .ok v := by
  by_cases hsmall : v.toNat < 10
  · have htext : numeralText v.toNat = String.ofList [Nat.digitChar v.toNat] := by
      rw [numeralText, if_pos (by omega), ← Nat.toDigits_of_lt_base hsmall]
      rfl
    rw [htext, readUInt32_digitChar hfront hback hsmall, UInt32.ofNat_toNat]
  · have htext : numeralText v.toNat = "0x" ++ hexPadded 1 v.toNat := by
      rw [numeralText, if_neg (by omega), if_neg (by omega), Int.natAbs_natCast]
      rfl
    rw [htext, readUInt32_hexPadded hfront hback]

end Blanks

section Injectivity

/-- Digits are told apart by their characters. -/
theorem digitChar_inj {d e : Nat} (hd : d < 16) (he : e < 16)
    (h : Nat.digitChar d = Nat.digitChar e) : d = e := by
  have hvalue := digitValue?_digitChar (Nat.le_refl 16) hd
  rw [h, digitValue?_digitChar (Nat.le_refl 16) he] at hvalue
  exact (Option.some.inj hvalue).symm

/-- A number of one digit is not written like one of several. -/
theorem toDigits_ne_of_lt {base m n : Nat} (htwo : 1 < base) (hm : m < base) (hn : base ≤ n) :
    Nat.toDigits base m ≠ Nat.toDigits base n := by
  intro h
  have hlength := congrArg List.length h
  rw [Nat.toDigits_of_lt_base hm, Nat.toDigits_of_base_le htwo hn, List.length_append] at hlength
  have hpos : 0 < (Nat.toDigits base (n / base)).length := Nat.length_toDigits_pos
  simp only [List.length_singleton] at hlength
  omega

/-- Numbers are told apart by their digits. -/
theorem toDigits_inj {base m n : Nat} (htwo : 1 < base) (hbase : base ≤ 16)
    (h : Nat.toDigits base m = Nat.toDigits base n) : m = n := by
  induction m using Nat.strongRecOn generalizing n with
  | ind m ih =>
    by_cases hm : m < base <;> by_cases hn : n < base
    · rw [Nat.toDigits_of_lt_base hm, Nat.toDigits_of_lt_base hn] at h
      exact digitChar_inj (by omega) (by omega) (List.cons.inj h).1
    · exact absurd h (toDigits_ne_of_lt htwo hm (by omega))
    · exact absurd h.symm (toDigits_ne_of_lt htwo hn (by omega))
    · have hm : base ≤ m := Nat.not_lt.mp hm
      have hn : base ≤ n := Nat.not_lt.mp hn
      rw [Nat.toDigits_of_base_le htwo hm, Nat.toDigits_of_base_le htwo hn] at h
      obtain ⟨hfront, hlast⟩ := List.append_inj' h rfl
      have hdiv : m / base = n / base := ih _ (Nat.div_lt_self (by omega) htwo) hfront
      have hlt : ∀ k, k % base < base := fun k => Nat.mod_lt k (by omega)
      have hmod : m % base = n % base :=
        digitChar_inj (Nat.lt_of_lt_of_le (hlt m) hbase) (Nat.lt_of_lt_of_le (hlt n) hbase)
          (List.cons.inj hlast).1
      rw [← Nat.div_add_mod m base, hdiv, hmod, Nat.div_add_mod]

/-- The written form of the magnitude of an operand value. -/
def magnitudeText (n : Nat) : String := if n < 10 then decimalText n else hexText n

/-- A decimal number is written by its digits. -/
theorem toList_decimalText (n : Nat) : (decimalText n).toList = Nat.toDigits 10 n :=
  String.toList_ofList

/-- A hexadecimal number is written by its digits behind a mark. -/
theorem toList_hexText (n : Nat) : (hexText n).toList = '0' :: 'x' :: Nat.toDigits 16 n := by
  have hpos : 0 < (Nat.toDigits 16 n).length := Nat.length_toDigits_pos
  rw [hexText, hexPadded, List.leftpad, Nat.sub_eq_zero_of_le hpos, List.replicate_zero,
    List.nil_append, String.toList_append, String.toList_ofList, String.toList_ofList]
  rfl

/-- A text of one character has no mark. -/
theorem magnitudeText_ne_of_lt {m n : Nat} (hm : m < 10) (hn : 10 ≤ n) :
    magnitudeText m ≠ magnitudeText n := by
  intro h
  have hchars := congrArg String.toList h
  rw [magnitudeText, magnitudeText, if_pos hm, if_neg (Nat.not_lt.mpr hn), toList_decimalText,
    toList_hexText, Nat.toDigits_of_lt_base hm] at hchars
  cases (List.cons.inj hchars).2

/-- Magnitudes are told apart by their written forms. -/
theorem magnitudeText_inj {m n : Nat} (h : magnitudeText m = magnitudeText n) : m = n := by
  have hchars := congrArg String.toList h
  unfold magnitudeText at hchars
  by_cases hm : m < 10 <;> by_cases hn : n < 10
  · rw [if_pos hm, if_pos hn, toList_decimalText, toList_decimalText] at hchars
    exact toDigits_inj (by decide) (by decide) hchars
  · exact absurd h (magnitudeText_ne_of_lt hm (Nat.not_lt.mp hn))
  · exact absurd h.symm (magnitudeText_ne_of_lt hn (Nat.not_lt.mp hm))
  · rw [if_neg hm, if_neg hn, toList_hexText, toList_hexText] at hchars
    exact toDigits_inj (by decide) (by decide) (List.cons.inj (List.cons.inj hchars).2).2

/-- The sign comes first, and only negative values have one. -/
theorem numeralText_eq (v : Int) :
    numeralText v = (if v < 0 then "-" else "") ++ magnitudeText v.natAbs := by
  unfold numeralText magnitudeText
  by_cases hneg : v < 0
  · obtain ⟨m, rfl⟩ := Int.eq_negSucc_of_lt_zero hneg
    rw [if_pos hneg, if_pos hneg, Int.natAbs_negSucc]
    by_cases hsmall : m + 1 < 10
    · rw [if_pos (by omega), if_pos hsmall]
      rfl
    · rw [if_neg (by omega), if_neg hsmall]
  · obtain ⟨m, rfl⟩ := Int.eq_ofNat_of_zero_le (Int.not_lt.mp hneg)
    rw [if_neg hneg, if_neg hneg, Int.natAbs_natCast, String.empty_append]
    by_cases hsmall : m < 10
    · rw [if_pos (by omega), if_pos hsmall]
    · rw [if_neg (by omega), if_neg hsmall]

/-- The written form of a magnitude has no sign. -/
theorem magnitudeText_ne_minus_append (n : Nat) (text : String) :
    magnitudeText n ≠ "-" ++ text := by
  intro h
  have hchars := congrArg String.toList h
  rw [String.toList_append] at hchars
  by_cases hn : n < 10
  · rw [magnitudeText, if_pos hn, toList_decimalText, Nat.toDigits_of_lt_base hn] at hchars
    have hminus : ∀ d < 10, Nat.digitChar d ≠ '-' := by decide
    exact hminus n hn (List.cons.inj hchars).1
  · rw [magnitudeText, if_neg hn, toList_hexText] at hchars
    cases (List.cons.inj hchars).1

/-- Values are told apart by their written forms. -/
theorem numeralText_inj {v w : Int} (h : numeralText v = numeralText w) : v = w := by
  rw [numeralText_eq, numeralText_eq] at h
  by_cases hv : v < 0 <;> by_cases hw : w < 0
  · rw [if_pos hv, if_pos hw, String.append_right_inj] at h
    have habs := magnitudeText_inj h
    omega
  · rw [if_pos hv, if_neg hw, String.empty_append] at h
    exact absurd h.symm (magnitudeText_ne_minus_append _ _)
  · rw [if_neg hv, if_pos hw, String.empty_append] at h
    exact absurd h (magnitudeText_ne_minus_append _ _)
  · rw [if_neg hv, if_neg hw, String.append_right_inj] at h
    have habs := magnitudeText_inj h
    omega

end Injectivity

/-- What is written for a 32-bit number, as an operand value or as an address, is read as that
number, also with blanks around it. No two operand values are written alike. -/
theorem numerals_typed_back :
    (∀ (v : UInt32) (front back : String), (∀ c ∈ front.toList, Text.isBlank c = true) →
      (∀ c ∈ back.toList, Text.isBlank c = true) →
      readUInt32 (front ++ numeralText v.toNat ++ back) = .ok v ∧
        readUInt32 (front ++ addressText v ++ back) = .ok v) ∧
    ∀ v w : Int, numeralText v = numeralText w → v = w := by
  refine ⟨fun v front back hfront hback => ⟨?_, ?_⟩, fun v w => numeralText_inj⟩
  · exact readUInt32_numeralText hfront hback v
  · exact readUInt32_hexPadded hfront hback 6 v

/-- The first value in hexadecimal, after an ideographic space and before a line break; and the
least value of 64 bits, whose magnitude is no value of 64 bits. -/
theorem numerals_typed_back_ten :
    (∀ c ∈ "\u3000".toList, Text.isBlank c = true) ∧ (∀ c ∈ "\n".toList, Text.isBlank c = true) ∧
      readUInt32 ("\u3000" ++ numeralText (10 : UInt32).toNat ++ "\n") = .ok 10 ∧
      readUInt32 ("\u3000" ++ addressText 10 ++ "\n") = .ok 10 ∧
      numeralText (-0x8000000000000000) ≠ numeralText 0x8000000000000000 := by
  have hfront : ∀ c ∈ "\u3000".toList, Text.isBlank c = true :=
    List.all_eq_true.mp (by decide)
  have hback : ∀ c ∈ "\n".toList, Text.isBlank c = true := List.all_eq_true.mp (by decide)
  obtain ⟨hoperand, haddress⟩ := numerals_typed_back.1 10 _ _ hfront hback
  refine ⟨hfront, hback, hoperand, haddress, fun h => ?_⟩
  exact absurd (numerals_typed_back.2 _ _ h) (by decide)

end DspCode
