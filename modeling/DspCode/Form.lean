import DspCode.Mnemonic

/-!
# Instruction forms

The named rows of the processor's mnemonic table: one form for each mnemonic and operand layout.
A form's kind is its position, and the forms a renaming can reach follow the form it starts from.
-/

namespace DspCode

/-- The instruction forms, in the order of their kinds. -/
inductive Form where
  | null | abdst | abs1 | abs2 | add1 | add2 | add3 | add4 | addv1 | addv2 | addrv1 | addrv2
  | maxdiff | dmaxdiff | mindiff | dmindiff | addsubcc4 | addsubcc5 | addsub2cc | sftcc | subc2
  | subc3 | addsub | subadd | mpyMpy | mpyMpyr | mpyMpy40 | mpyMpyr40 | macMpy | macrMpyr
  | mac40Mpy40 | macr40Mpyr40 | masMpy | masrMpyr | mas40Mpy40 | masr40Mpyr40 | amarMpy
  | amarMpyr | amarMpy40 | amarMpyr40 | macMac | macrMacr | mac40Mac40 | macr40Macr40 | masMac
  | masrMacr | mas40Mac40 | masr40Macr40 | amarMac | amarMacr | amarMac40 | amarMacr40 | masMas
  | masrMasr | mas40Mas40 | masr40Masr40 | amarMas | amarMasr | amarMas40 | amarMasr40 | mpyMac
  | mpyrMacr | mpy40Mac40 | mpyr40Macr40 | amar3 | firsadd | firssub | mpymMov | mpymrMov
  | macmMov | macmrMov | masmMov | masmrMov | addMov | subMov | movMov | movAadd | movAdd
  | amarAmar | addAsub | btstMov | movAsub | lms | max1 | max2 | min1 | min2 | cmp | cmpu | aadd
  | asub | amov | amar1 | sqr1 | sqr2 | sqrr1 | sqrr2 | mpy1 | mpy2 | mpy3 | mpyr1 | mpyr2
  | mpyr3 | mpyk2 | mpyk3 | mpykr2 | mpykr3 | mpym2 | mpym3 | mpymr2 | mpymr3 | mpym403
  | mpymr403 | mpymu3 | mpymru3 | sqrm | sqrmr | mpymk | mpymkr | sqa1 | sqa2 | sqar1 | sqar2
  | mac3 | mac4 | macr3 | macr4 | mack3 | mack4 | mackr3 | mackr4 | macm2 | macm3 | macm4
  | macmr2 | macmr3 | macmr4 | macm403 | macm404 | macmr403 | macmr404 | macmz | macmrz | sqam2
  | sqam3 | sqamr2 | sqamr3 | macmk3 | macmk4 | macmkr3 | macmkr4 | sqs1 | sqs2 | sqsr1 | sqsr2
  | mas2 | mas3 | masr2 | masr3 | masm2 | masm3 | masm4 | masmr2 | masmr3 | masmr4 | masm403
  | masm404 | masmr403 | masmr404 | sqsm2 | sqsm3 | sqsmr2 | sqsmr3 | neg1 | neg2 | mantNexp
  | exp | cmpand | cmpandu | cmpor | cmporu | round1 | round2 | sat1 | sat2 | satr1 | satr2
  | sfts2 | sfts3 | sftsc2 | sftsc3 | sqdst | sub1 | sub2 | sub3 | sub4 | band | bfxpa | bfxtr
  | btst | bnot | bclr2 | bset2 | btstset | btstclr | btstnot | btstp | bclr1 | bset1 | amar2
  | popboth | pshboth | bcnt | not1 | not2 | and1 | and2 | and3 | or1 | or2 | or3 | xor1 | xor2
  | xor3 | sftl2 | sftl3 | rol | ror | swap | swapp | swap4 | mov2 | mov3 | mov402 | delay | pop1
  | pop2 | psh1 | psh2 | bcc | bccu | b | callcc | call | xcc | xccpart | idle | nop | nop16
  | rptblocal | rptb | rptcc | rpt | rptadd | rptsub | retcc | ret | reti | intr | reset | trap
  deriving DecidableEq

namespace Form

/-- The kind of a form: its position in the mnemonic table. -/
def kind (form : Form) : Kind := form.ctorIdx

/-- One row of the form table. -/
structure Row where
  /-- The form described. -/
  form : Form
  /-- The form's own name, distinct for each form. -/
  ident : String
  /-- Its mnemonic and operand usage. -/
  mnemonic : Mnemonic
  deriving DecidableEq

/-- A form with a one-line mnemonic. -/
private def line (form : Form) (ident name : String) (usage : Usage) : Row :=
  ⟨form, ident, ⟨name, none, usage⟩⟩

/-- A form with a two-line mnemonic. -/
private def lines (form : Form) (ident first second : String) (usage : Usage) : Row :=
  ⟨form, ident, ⟨first, some second, usage⟩⟩

/-- Every form in kind order. -/
def table : Array Row := #[
  line .null "Null" "" (.of [] []),
  line .abdst "Abdst" "abdst" (.of [] [0, 1, 2, 3]),
  line .abs1 "Abs1" "abs" (.of [] [0]),
  line .abs2 "Abs2" "abs" (.of [0] [1]),
  line .add1 "Add1" "add" (.of [] [0]),
  line .add2 "Add2" "add" (.of [0] [1]),
  line .add3 "Add3" "add" (.of [0, 1] [2]),
  line .add4 "Add4" "add" (.of [0, 1, 2] [3]),
  line .addv1 "Addv1" "addv" (.of [] [0]),
  line .addv2 "Addv2" "addv" (.of [0] [1]),
  line .addrv1 "Addrv1" "addrv" (.of [] [0]),
  line .addrv2 "Addrv2" "addrv" (.of [0] [1]),
  line .maxdiff "Maxdiff" "maxdiff" (.of [0, 1] [2, 3]),
  line .dmaxdiff "Dmaxdiff" "dmaxdiff" (.of [0, 1] [2, 3, 4]),
  line .mindiff "Mindiff" "mindiff" (.of [0, 1] [2, 3]),
  line .dmindiff "Dmindiff" "dmindiff" (.of [0, 1] [2, 3, 4]),
  line .addsubcc4 "Addsubcc4" "addsubcc" (.of [0, 1, 2] [3]),
  line .addsubcc5 "Addsubcc5" "addsubcc" (.of [0, 1, 2, 3] [4]),
  line .addsub2cc "Addsub2cc" "addsub2cc" (.of [0, 1, 2, 3, 4] [5]),
  line .sftcc "Sftcc" "sftcc" (.of [] [0, 1]),
  line .subc2 "Subc2" "subc" (.of [0] [1]),
  line .subc3 "Subc3" "subc" (.of [0, 1] [2]),
  line .addsub "Addsub" "addsub" (.of [0, 1] [2]),
  line .subadd "Subadd" "subadd" (.of [0, 1] [2]),
  lines .mpyMpy "MpyMpy" "mpy" "mpy" (.of [0, 1, 3, 4] [2, 5]),
  lines .mpyMpyr "MpyMpyr" "mpyr" "mpyr" (.of [0, 1, 3, 4] [2, 5]),
  lines .mpyMpy40 "MpyMpy40" "mpy40" "mpy40" (.of [0, 1, 3, 4] [2, 5]),
  lines .mpyMpyr40 "MpyMpyr40" "mpyr40" "mpyr40" (.of [0, 1, 3, 4] [2, 5]),
  lines .macMpy "MacMpy" "mac" "mpy" (.of [0, 1, 3, 4] [2, 5]),
  lines .macrMpyr "MacrMpyr" "macr" "mpyr" (.of [0, 1, 3, 4] [2, 5]),
  lines .mac40Mpy40 "Mac40Mpy40" "mac40" "mpy40" (.of [0, 1, 3, 4] [2, 5]),
  lines .macr40Mpyr40 "Macr40Mpyr40" "macr40" "mpyr40" (.of [0, 1, 3, 4] [2, 5]),
  lines .masMpy "MasMpy" "mas" "mpy" (.of [0, 1, 3, 4] [2, 5]),
  lines .masrMpyr "MasrMpyr" "masr" "mpyr" (.of [0, 1, 3, 4] [2, 5]),
  lines .mas40Mpy40 "Mas40Mpy40" "mas40" "mpy40" (.of [0, 1, 3, 4] [2, 5]),
  lines .masr40Mpyr40 "Masr40Mpyr40" "masr40" "mpyr40" (.of [0, 1, 3, 4] [2, 5]),
  lines .amarMpy "AmarMpy" "amar" "mpy" (.of [1, 2] [0, 3]),
  lines .amarMpyr "AmarMpyr" "amar" "mpyr" (.of [1, 2] [0, 3]),
  lines .amarMpy40 "AmarMpy40" "amar" "mpy40" (.of [1, 2] [0, 3]),
  lines .amarMpyr40 "AmarMpyr40" "amar" "mpyr40" (.of [1, 2] [0, 3]),
  lines .macMac "MacMac" "mac" "mac" (.of [0, 1, 3, 4] [2, 5]),
  lines .macrMacr "MacrMacr" "macr" "macr" (.of [0, 1, 3, 4] [2, 5]),
  lines .mac40Mac40 "Mac40Mac40" "mac40" "mac40" (.of [0, 1, 3, 4] [2, 5]),
  lines .macr40Macr40 "Macr40Macr40" "macr40" "macr40" (.of [0, 1, 3, 4] [2, 5]),
  lines .masMac "MasMac" "mas" "mac" (.of [0, 1, 3, 4] [2, 5]),
  lines .masrMacr "MasrMacr" "masr" "macr" (.of [0, 1, 3, 4] [2, 5]),
  lines .mas40Mac40 "Mas40Mac40" "mas40" "mac40" (.of [0, 1, 3, 4] [2, 5]),
  lines .masr40Macr40 "Masr40Macr40" "masr40" "macr40" (.of [0, 1, 3, 4] [2, 5]),
  lines .amarMac "AmarMac" "amar" "mac" (.of [1, 2] [0, 3]),
  lines .amarMacr "AmarMacr" "amar" "macr" (.of [1, 2] [0, 3]),
  lines .amarMac40 "AmarMac40" "amar" "mac40" (.of [1, 2] [0, 3]),
  lines .amarMacr40 "AmarMacr40" "amar" "macr40" (.of [1, 2] [0, 3]),
  lines .masMas "MasMas" "mas" "mas" (.of [0, 1, 3, 4] [2, 5]),
  lines .masrMasr "MasrMasr" "masr" "masr" (.of [0, 1, 3, 4] [2, 5]),
  lines .mas40Mas40 "Mas40Mas40" "mas40" "mas40" (.of [0, 1, 3, 4] [2, 5]),
  lines .masr40Masr40 "Masr40Masr40" "masr40" "masr40" (.of [0, 1, 3, 4] [2, 5]),
  lines .amarMas "AmarMas" "amar" "mas" (.of [1, 2] [0, 3]),
  lines .amarMasr "AmarMasr" "amar" "masr" (.of [1, 2] [0, 3]),
  lines .amarMas40 "AmarMas40" "amar" "mas40" (.of [1, 2] [0, 3]),
  lines .amarMasr40 "AmarMasr40" "amar" "masr40" (.of [1, 2] [0, 3]),
  lines .mpyMac "MpyMac" "mpy" "mac" (.of [0, 1, 3, 4] [2, 5]),
  lines .mpyrMacr "MpyrMacr" "mpyr" "macr" (.of [0, 1, 3, 4] [2, 5]),
  lines .mpy40Mac40 "Mpy40Mac40" "mpy40" "mac40" (.of [0, 1, 3, 4] [2, 5]),
  lines .mpyr40Macr40 "Mpyr40Macr40" "mpyr40" "macr40" (.of [0, 1, 3, 4] [2, 5]),
  line .amar3 "Amar3" "amar" (.of [] [0, 1, 2]),
  line .firsadd "Firsadd" "firsadd" (.of [0, 1, 2] [3, 4]),
  line .firssub "Firssub" "firssub" (.of [0, 1, 2] [3, 4]),
  lines .mpymMov "MpymMov" "mpym" "mov" (.of [0, 1, 3] [2, 4]),
  lines .mpymrMov "MpymrMov" "mpymr" "mov" (.of [0, 1, 3] [2, 4]),
  lines .macmMov "MacmMov" "macm" "mov" (.of [0, 1, 3] [2, 4]),
  lines .macmrMov "MacmrMov" "macmr" "mov" (.of [0, 1, 3] [2, 4]),
  lines .masmMov "MasmMov" "masm" "mov" (.of [0, 1, 3] [2, 4]),
  lines .masmrMov "MasmrMov" "masmr" "mov" (.of [0, 1, 3] [2, 4]),
  lines .addMov "AddMov" "add" "mov" (.of [0, 1, 3] [2, 4]),
  lines .subMov "SubMov" "sub" "mov" (.of [0, 1, 3] [2, 4]),
  lines .movMov "MovMov" "mov" "mov" (.of [0, 1, 2] [3]),
  lines .movAadd "MovAadd" "mov" "aadd" (.of [0, 2] [1, 3]),
  lines .movAdd "MovAdd" "mov" "add" (.of [0, 2, 3] [1, 4]),
  lines .amarAmar "AmarAmar" "amar" "amar" (.of [] [0, 1]),
  lines .addAsub "AddAsub" "add" "asub" (.of [0, 1, 3] [2, 4]),
  lines .btstMov "BtstMov" "btst" "mov" (.of [0, 3] [1, 2, 4]),
  lines .movAsub "MovAsub" "mov" "asub" (.of [0, 2] [1, 3]),
  line .lms "Lms" "lms" (.of [0, 1] [2, 3]),
  line .max1 "Max1" "max" (.of [] [0]),
  line .max2 "Max2" "max" (.of [0] [1]),
  line .min1 "Min1" "min" (.of [] [0]),
  line .min2 "Min2" "min" (.of [0] [1]),
  line .cmp "Cmp" "cmp" (.of [0] [1]),
  line .cmpu "Cmpu" "cmpu" (.of [0] [1]),
  line .aadd "Aadd" "aadd" (.of [0] [1]),
  line .asub "Asub" "asub" (.of [0] [1]),
  line .amov "Amov" "amov" (.of [0] [1]),
  line .amar1 "Amar1" "amar" (.of [] [0]),
  line .sqr1 "Sqr1" "sqr" (.of [] [0]),
  line .sqr2 "Sqr2" "sqr" (.of [1] [0]),
  line .sqrr1 "Sqrr1" "sqrr" (.of [] [0]),
  line .sqrr2 "Sqrr2" "sqrr" (.of [1] [0]),
  line .mpy1 "Mpy1" "mpy" (.of [] [0]),
  line .mpy2 "Mpy2" "mpy" (.of [] [0, 1]),
  line .mpy3 "Mpy3" "mpy" (.of [0, 1] [2]),
  line .mpyr1 "Mpyr1" "mpyr" (.of [] [0]),
  line .mpyr2 "Mpyr2" "mpyr" (.of [] [0, 1]),
  line .mpyr3 "Mpyr3" "mpyr" (.of [1] [0, 2]),
  line .mpyk2 "Mpyk2" "mpyk" (.of [0] [1]),
  line .mpyk3 "Mpyk3" "mpyk" (.of [0, 1] [2]),
  line .mpykr2 "Mpykr2" "mpykr" (.of [0] [1]),
  line .mpykr3 "Mpykr3" "mpykr" (.of [0, 1] [2]),
  line .mpym2 "Mpym2" "mpym" (.of [0] [1]),
  line .mpym3 "Mpym3" "mpym" (.of [0, 1] [2]),
  line .mpymr2 "Mpymr2" "mpymr" (.of [0] [1]),
  line .mpymr3 "Mpymr3" "mpymr" (.of [0, 1] [2]),
  line .mpym403 "Mpym403" "mpym40" (.of [0, 1] [2]),
  line .mpymr403 "Mpymr403" "mpymr40" (.of [0, 1] [2]),
  line .mpymu3 "Mpymu3" "mpymu" (.of [0, 1] [2]),
  line .mpymru3 "Mpymru3" "mpymru" (.of [0, 1] [2]),
  line .sqrm "Sqrm" "sqrm" (.of [0] [1]),
  line .sqrmr "Sqrmr" "sqrmr" (.of [0] [1]),
  line .mpymk "Mpymk" "mpymk" (.of [0, 1] [2]),
  line .mpymkr "Mpymkr" "mpymkr" (.of [0, 1] [2]),
  line .sqa1 "Sqa1" "sqa" (.of [] [0]),
  line .sqa2 "Sqa2" "sqa" (.of [1] [0]),
  line .sqar1 "Sqar1" "sqar" (.of [] [0]),
  line .sqar2 "Sqar2" "sqar" (.of [1] [0]),
  line .mac3 "Mac3" "mac" (.of [0, 1] [2]),
  line .mac4 "Mac4" "mac" (.of [0, 1] [2, 3]),
  line .macr3 "Macr3" "macr" (.of [0, 1] [2]),
  line .macr4 "Macr4" "macr" (.of [0, 1] [2, 3]),
  line .mack3 "Mack3" "mack" (.of [0, 1] [2]),
  line .mack4 "Mack4" "mack" (.of [0, 1, 2] [3]),
  line .mackr3 "Mackr3" "mackr" (.of [0, 1] [2]),
  line .mackr4 "Mackr4" "mackr" (.of [0, 1, 2] [3]),
  line .macm2 "Macm2" "macm" (.of [0] [1]),
  line .macm3 "Macm3" "macm" (.of [0, 1] [2]),
  line .macm4 "Macm4" "macm" (.of [0, 1, 2] [3]),
  line .macmr2 "Macmr2" "macmr" (.of [0] [1]),
  line .macmr3 "Macmr3" "macmr" (.of [0, 1] [2]),
  line .macmr4 "Macmr4" "macmr" (.of [0, 1, 2] [3]),
  line .macm403 "Macm403" "macm40" (.of [0, 1] [2]),
  line .macm404 "Macm404" "macm40" (.of [0, 1, 2] [3]),
  line .macmr403 "Macmr403" "macmr40" (.of [0, 1] [2]),
  line .macmr404 "Macmr404" "macmr40" (.of [0, 1, 2] [3]),
  line .macmz "Macmz" "macmz" (.of [0, 1] [2]),
  line .macmrz "Macmrz" "macmrz" (.of [0, 1] [2]),
  line .sqam2 "Sqam2" "sqam" (.of [0] [1]),
  line .sqam3 "Sqam3" "sqam" (.of [0, 1] [2]),
  line .sqamr2 "Sqamr2" "sqamr" (.of [0] [1]),
  line .sqamr3 "Sqamr3" "sqamr" (.of [0, 1] [2]),
  line .macmk3 "Macmk3" "macmk" (.of [0, 1] [2]),
  line .macmk4 "Macmk4" "macmk" (.of [0, 1, 2] [3]),
  line .macmkr3 "Macmkr3" "macmkr" (.of [0, 1] [2]),
  line .macmkr4 "Macmkr4" "macmkr" (.of [0, 1, 2] [3]),
  line .sqs1 "Sqs1" "sqs" (.of [] [0]),
  line .sqs2 "Sqs2" "sqs" (.of [1] [0]),
  line .sqsr1 "Sqsr1" "sqsr" (.of [] [0]),
  line .sqsr2 "Sqsr2" "sqsr" (.of [1] [0]),
  line .mas2 "Mas2" "mas" (.of [0] [1]),
  line .mas3 "Mas3" "mas" (.of [0, 1] [2]),
  line .masr2 "Masr2" "masr" (.of [0] [1]),
  line .masr3 "Masr3" "masr" (.of [0, 1] [2]),
  line .masm2 "Masm2" "masm" (.of [0] [1]),
  line .masm3 "Masm3" "masm" (.of [0, 1] [2]),
  line .masm4 "Masm4" "masm" (.of [0, 1, 2] [3]),
  line .masmr2 "Masmr2" "masmr" (.of [0] [1]),
  line .masmr3 "Masmr3" "masmr" (.of [0, 1] [2]),
  line .masmr4 "Masmr4" "masmr" (.of [0, 1, 2] [3]),
  line .masm403 "Masm403" "masm40" (.of [0, 1] [2]),
  line .masm404 "Masm404" "masm40" (.of [0, 1, 2] [3]),
  line .masmr403 "Masmr403" "masmr40" (.of [0, 1] [2]),
  line .masmr404 "Masmr404" "masmr40" (.of [0, 1, 2] [3]),
  line .sqsm2 "Sqsm2" "sqsm" (.of [0] [1]),
  line .sqsm3 "Sqsm3" "sqsm" (.of [0, 1] [2]),
  line .sqsmr2 "Sqsmr2" "sqsmr" (.of [0] [1]),
  line .sqsmr3 "Sqsmr3" "sqsmr" (.of [0, 1] [2]),
  line .neg1 "Neg1" "neg" (.of [] [0]),
  line .neg2 "Neg2" "neg" (.of [1] [0]),
  lines .mantNexp "MantNexp" "mant" "nexp" (.of [0, 2] [1, 3]),
  line .exp "Exp" "exp" (.of [0] [1]),
  line .cmpand "Cmpand" "cmpand" (.of [0] [1, 2]),
  line .cmpandu "Cmpandu" "cmpandu" (.of [0] [1, 2]),
  line .cmpor "Cmpor" "cmpor" (.of [0] [1, 2]),
  line .cmporu "Cmporu" "cmporu" (.of [0] [1, 2]),
  line .round1 "Round1" "round" (.of [] [0]),
  line .round2 "Round2" "round" (.of [0] [1]),
  line .sat1 "Sat1" "sat" (.of [] [0]),
  line .sat2 "Sat2" "sat" (.of [0] [1]),
  line .satr1 "Satr1" "satr" (.of [] [0]),
  line .satr2 "Satr2" "satr" (.of [0] [1]),
  line .sfts2 "Sfts2" "sfts" (.of [1] [0]),
  line .sfts3 "Sfts3" "sfts" (.of [0, 1] [2]),
  line .sftsc2 "Sftsc2" "sftsc" (.of [1] [0]),
  line .sftsc3 "Sftsc3" "sftsc" (.of [0, 1] [2]),
  line .sqdst "Sqdst" "sqdst" (.of [0, 1] [2, 3]),
  line .sub1 "Sub1" "sub" (.of [0] []),
  line .sub2 "Sub2" "sub" (.of [0] [1]),
  line .sub3 "Sub3" "sub" (.of [0, 1] [2]),
  line .sub4 "Sub4" "sub" (.of [0, 1, 2] [3]),
  line .band "Band" "band" (.of [0, 1] [2]),
  line .bfxpa "Bfxpa" "bfxpa" (.of [0, 1] [2]),
  line .bfxtr "Bfxtr" "bfxtr" (.of [0, 1] [2]),
  line .btst "Btst" "btst" (.of [0] [1, 2]),
  line .bnot "Bnot" "bnot" (.of [0] [1]),
  line .bclr2 "Bclr2" "bclr" (.of [0] [1]),
  line .bset2 "Bset2" "bset" (.of [0] [1]),
  line .btstset "Btstset" "btstset" (.of [0] [1, 2]),
  line .btstclr "Btstclr" "btstclr" (.of [0] [1, 2]),
  line .btstnot "Btstnot" "btstnot" (.of [0] [1, 2]),
  line .btstp "Btstp" "btstp" (.of [0, 1] []),
  line .bclr1 "Bclr1" "bclr" (.of [] [0]),
  line .bset1 "Bset1" "bset" (.of [] [0]),
  line .amar2 "Amar2" "amar" (.of [0] [1]),
  line .popboth "Popboth" "popboth" (.of [] [0]),
  line .pshboth "Pshboth" "pshboth" (.of [0] []),
  line .bcnt "Bcnt" "bcnt" (.of [0, 1] [2, 3]),
  line .not1 "Not1" "not" (.of [] [0]),
  line .not2 "Not2" "not" (.of [0] [1]),
  line .and1 "And1" "and" (.of [0] []),
  line .and2 "And2" "and" (.of [0] [1]),
  line .and3 "And3" "and" (.of [0, 1] [2]),
  line .or1 "Or1" "or" (.of [0] []),
  line .or2 "Or2" "or" (.of [0] [1]),
  line .or3 "Or3" "or" (.of [0, 1] [2]),
  line .xor1 "Xor1" "xor" (.of [0] []),
  line .xor2 "Xor2" "xor" (.of [0] [1]),
  line .xor3 "Xor3" "xor" (.of [0, 1] [2]),
  line .sftl2 "Sftl2" "sftl" (.of [0, 1] []),
  line .sftl3 "Sftl3" "sftl" (.of [0, 1] [2]),
  line .rol "Rol" "rol" (.of [1, 2] [0, 3]),
  line .ror "Ror" "ror" (.of [0, 1, 2] [3]),
  line .swap "Swap" "swap" (.of [] [0, 1]),
  line .swapp "Swapp" "swapp" (.of [] [0, 1]),
  line .swap4 "Swap4" "swap4" (.of [] [0, 1]),
  line .mov2 "Mov2" "mov" (.of [0] [1]),
  line .mov3 "Mov3" "mov" (.of [0, 1] [2]),
  line .mov402 "Mov402" "mov40" (.of [0] [1]),
  line .delay "Delay" "delay" (.of [0] []),
  line .pop1 "Pop1" "pop" (.of [] [0]),
  line .pop2 "Pop2" "pop" (.of [] [0, 1]),
  line .psh1 "Psh1" "psh" (.of [0] []),
  line .psh2 "Psh2" "psh" (.of [0, 1] []),
  line .bcc "Bcc" "bcc" (.of [0, 1] []),
  line .bccu "Bccu" "bccu" (.of [0, 1] []),
  line .b "B" "b" ((Usage.of [0] []).stopping),
  line .callcc "Callcc" "callcc" ((Usage.of [0, 1] []).calling),
  line .call "Call" "call" ((Usage.of [0] []).calling),
  line .xcc "Xcc" "xcc" (.of [0] []),
  line .xccpart "Xccpart" "xccpart" (.of [0] []),
  line .idle "Idle" "idle" (.of [] []),
  line .nop "Nop" "nop" (.of [] []),
  line .nop16 "Nop16" "nop_16" (.of [] []),
  line .rptblocal "Rptblocal" "rptblocal" (.of [0] []),
  line .rptb "Rptb" "rptb" (.of [0] []),
  line .rptcc "Rptcc" "rptcc" (.of [0, 1] []),
  line .rpt "Rpt" "rpt" (.of [0] []),
  line .rptadd "Rptadd" "rptadd" (.of [0, 1] []),
  line .rptsub "Rptsub" "rptsub" (.of [0, 1] []),
  line .retcc "Retcc" "retcc" (.of [0] []),
  line .ret "Ret" "ret" ((Usage.of [] []).stopping),
  line .reti "Reti" "reti" ((Usage.of [] []).stopping),
  line .intr "Intr" "intr" (.of [0] []),
  line .reset "Reset" "reset" (.of [] []),
  line .trap "Trap" "trap" (.of [0] [])]

/-- The mnemonic table: kinds index it. -/
def mnemonics : Array Mnemonic := table.map Row.mnemonic

/-- The form of a kind inside the table. -/
def ofKind? (kind : Kind) : Option Form := table[kind]?.map Row.form

end Form

end DspCode
