/-!
# Registers

The registers, status flags and page registers an operand can name. A register's number is its
position in `Register.all`; operands hold numbers, so a field offset past the last register is an
operand without a name rather than a failure.
-/

namespace DspCode

/-- The position of a register in `Register.all`; numbers past the end name nothing. -/
abbrev RegisterId := Nat

/-- The named registers: accumulators, pointers, control registers, status flags, page registers. -/
inductive Register where
  | ac0 | ac1 | ac2 | ac3 | t0 | t1 | t2 | t3 | ar0 | ar1 | ar2 | ar3 | ar4 | ar5 | ar6 | ar7
  | ac0l | ac0h | ac0g | ac1l | ac1h | ac1g | ac2l | ac2h | ac2g | ac3l | ac3h | ac3g | bk03
  | bk47 | bkc | brc0 | brc1 | brs1 | bsa01 | bsa23 | bsa45 | bsa67 | bsac | cdp | cdph | cfct
  | csr | dbier0 | dbier1 | ier0 | ier1 | ifr0 | ifr1 | ivpd | ivph | pc | pmst | rea0 | rea0l
  | rea0h | rea1 | rea1l | rea1h | reta | rptc | rsa0 | rsa0l | rsa0h | rsa1 | rsa1l | rsa1h | sp
  | sph | ssp | st0 | st1 | st0_55 | st1_55 | st2_55 | st3_55 | trn0 | trn1 | xar0 | xar1 | xar2
  | xar3 | xar4 | xar5 | xar6 | xar7 | xcdp | xdp | xpc | xsp | xssp | mdp | mdp05 | mdp67
  | acov2 | acov3 | tc1 | tc2 | carry | acov0 | acov1 | braf | xf | hm | intm | m40 | satd | sxmd
  | c16 | frct | c54cm | dbgm | eallow | rdm | cdplc | ar7lc | ar6lc | ar5lc | ar4lc | ar3lc
  | ar2lc | ar1lc | ar0lc | cafrz | caen | caclr | hint | cberr | mpnmc | sata | clkoff | smul
  | sst | borrow | arms | cpl | dp | dph | pdp
  deriving DecidableEq, Repr

namespace Register

/-- Every register in numbering order. -/
def all : Array Register := #[
  .ac0, .ac1, .ac2, .ac3, .t0, .t1, .t2, .t3, .ar0, .ar1, .ar2, .ar3, .ar4, .ar5, .ar6, .ar7,
  .ac0l, .ac0h, .ac0g, .ac1l, .ac1h, .ac1g, .ac2l, .ac2h, .ac2g, .ac3l, .ac3h, .ac3g, .bk03,
  .bk47, .bkc, .brc0, .brc1, .brs1, .bsa01, .bsa23, .bsa45, .bsa67, .bsac, .cdp, .cdph, .cfct,
  .csr, .dbier0, .dbier1, .ier0, .ier1, .ifr0, .ifr1, .ivpd, .ivph, .pc, .pmst, .rea0, .rea0l,
  .rea0h, .rea1, .rea1l, .rea1h, .reta, .rptc, .rsa0, .rsa0l, .rsa0h, .rsa1, .rsa1l, .rsa1h, .sp,
  .sph, .ssp, .st0, .st1, .st0_55, .st1_55, .st2_55, .st3_55, .trn0, .trn1, .xar0, .xar1, .xar2,
  .xar3, .xar4, .xar5, .xar6, .xar7, .xcdp, .xdp, .xpc, .xsp, .xssp, .mdp, .mdp05, .mdp67,
  .acov2, .acov3, .tc1, .tc2, .carry, .acov0, .acov1, .braf, .xf, .hm, .intm, .m40, .satd, .sxmd,
  .c16, .frct, .c54cm, .dbgm, .eallow, .rdm, .cdplc, .ar7lc, .ar6lc, .ar5lc, .ar4lc, .ar3lc,
  .ar2lc, .ar1lc, .ar0lc, .cafrz, .caen, .caclr, .hint, .cberr, .mpnmc, .sata, .clkoff, .smul,
  .sst, .borrow, .arms, .cpl, .dp, .dph, .pdp]

/-- The name of a register in assembly text. -/
def name : Register → String
  | .ac0 => "AC0"
  | .ac1 => "AC1"
  | .ac2 => "AC2"
  | .ac3 => "AC3"
  | .t0 => "T0"
  | .t1 => "T1"
  | .t2 => "T2"
  | .t3 => "T3"
  | .ar0 => "AR0"
  | .ar1 => "AR1"
  | .ar2 => "AR2"
  | .ar3 => "AR3"
  | .ar4 => "AR4"
  | .ar5 => "AR5"
  | .ar6 => "AR6"
  | .ar7 => "AR7"
  | .ac0l => "AC0L"
  | .ac0h => "AC0H"
  | .ac0g => "AC0G"
  | .ac1l => "AC1L"
  | .ac1h => "AC1H"
  | .ac1g => "AC1G"
  | .ac2l => "AC2L"
  | .ac2h => "AC2H"
  | .ac2g => "AC2G"
  | .ac3l => "AC3L"
  | .ac3h => "AC3H"
  | .ac3g => "AC3G"
  | .bk03 => "BK03"
  | .bk47 => "BK47"
  | .bkc => "BKC"
  | .brc0 => "BRC0"
  | .brc1 => "BRC1"
  | .brs1 => "BRS1"
  | .bsa01 => "BSA01"
  | .bsa23 => "BSA23"
  | .bsa45 => "BSA45"
  | .bsa67 => "BSA67"
  | .bsac => "BSAC"
  | .cdp => "CDP"
  | .cdph => "CDPH"
  | .cfct => "CFCT"
  | .csr => "CSR"
  | .dbier0 => "DBIER0"
  | .dbier1 => "DBIER1"
  | .ier0 => "IER0"
  | .ier1 => "IER1"
  | .ifr0 => "IFR0"
  | .ifr1 => "IFR1"
  | .ivpd => "IVPD"
  | .ivph => "IVPH"
  | .pc => "PC"
  | .pmst => "PMST"
  | .rea0 => "REA0"
  | .rea0l => "REA0L"
  | .rea0h => "REA0H"
  | .rea1 => "REA1"
  | .rea1l => "REA1L"
  | .rea1h => "REA1H"
  | .reta => "RETA"
  | .rptc => "RPTC"
  | .rsa0 => "RSA0"
  | .rsa0l => "RSA0L"
  | .rsa0h => "RSA0H"
  | .rsa1 => "RSA1"
  | .rsa1l => "RSA1L"
  | .rsa1h => "RSA1H"
  | .sp => "SP"
  | .sph => "SPH"
  | .ssp => "SSP"
  | .st0 => "ST0"
  | .st1 => "ST1"
  | .st0_55 => "ST0_55"
  | .st1_55 => "ST1_55"
  | .st2_55 => "ST2_55"
  | .st3_55 => "ST3_55"
  | .trn0 => "TRN0"
  | .trn1 => "TRN1"
  | .xar0 => "XAR0"
  | .xar1 => "XAR1"
  | .xar2 => "XAR2"
  | .xar3 => "XAR3"
  | .xar4 => "XAR4"
  | .xar5 => "XAR5"
  | .xar6 => "XAR6"
  | .xar7 => "XAR7"
  | .xcdp => "XCDP"
  | .xdp => "XDP"
  | .xpc => "XPC"
  | .xsp => "XSP"
  | .xssp => "XSSP"
  | .mdp => "MDP"
  | .mdp05 => "MDP05"
  | .mdp67 => "MDP67"
  | .acov2 => "ACOV2"
  | .acov3 => "ACOV3"
  | .tc1 => "TC1"
  | .tc2 => "TC2"
  | .carry => "CARRY"
  | .acov0 => "ACOV0"
  | .acov1 => "ACOV1"
  | .braf => "BRAF"
  | .xf => "XF"
  | .hm => "HM"
  | .intm => "INTM"
  | .m40 => "M40"
  | .satd => "SATD"
  | .sxmd => "SXMD"
  | .c16 => "C16"
  | .frct => "FRCT"
  | .c54cm => "C54CM"
  | .dbgm => "DBGM"
  | .eallow => "EALLOW"
  | .rdm => "RDM"
  | .cdplc => "CDPLC"
  | .ar7lc => "AR7LC"
  | .ar6lc => "AR6LC"
  | .ar5lc => "AR5LC"
  | .ar4lc => "AR4LC"
  | .ar3lc => "AR3LC"
  | .ar2lc => "AR2LC"
  | .ar1lc => "AR1LC"
  | .ar0lc => "AR0LC"
  | .cafrz => "CAFRZ"
  | .caen => "CAEN"
  | .caclr => "CACLR"
  | .hint => "HINT"
  | .cberr => "CBERR"
  | .mpnmc => "MPNMC"
  | .sata => "SATA"
  | .clkoff => "CLKOFF"
  | .smul => "SMUL"
  | .sst => "SST"
  | .borrow => "BORROW"
  | .arms => "ARMS"
  | .cpl => "CPL"
  | .dp => "DP"
  | .dph => "DPH"
  | .pdp => "PDP"

/-- The number of a register. -/
def id (r : Register) : RegisterId := r.ctorIdx

/-- The register number `n` places after `r`; the offset is a 16-bit quantity. -/
def offset (r : Register) (n : Nat) : RegisterId := r.id + n % UInt16.size

/-- The register with the given name. -/
def ofName? (text : String) : Option Register := all.find? (·.name == text)

end Register

/-- The name of a register number, if it has one. -/
def registerName? (id : RegisterId) : Option String := Register.all[id]?.map Register.name

/-- The name of a register number in assembly text; a question mark stands for an unnamed one. -/
def registerText (id : RegisterId) : String := (registerName? id).getD "?"

end DspCode
