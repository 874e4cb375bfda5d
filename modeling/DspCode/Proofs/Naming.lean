import DspCode.Proofs.Frames
import DspCode.Proofs.Shapes

/-!
# Names of decoded instructions

The row that agrees with the bytes gives an instruction its first kind. Some fields then move on to
another kind: a renaming looks for a longer name further down the mnemonic table, an optional
operand that is kept asks for the next kind, and at the end a status bit may get its name. Each of
these finds its place only because the mnemonic table is laid out for it, so the rows are checked
one by one, along every way through their fields. Main statement: the names of a decoded instruction
are those of its row with the suffixes that were asked for, and nothing else changes them.
-/

namespace DspCode

/-- The names of an instruction on its two lines. -/
structure Names where
  /-- The name on the first line. -/
  first : String
  /-- The name on the second line, for instructions of two lines. -/
  second : Option String
  deriving DecidableEq

/-- The names of a mnemonic. -/
def Mnemonic.names (m : Mnemonic) : Names := ⟨m.name, m.second⟩

/-- The names of a kind. -/
def namesOf? (kind : Kind) : Option Names := (Form.mnemonics[kind]?).map Mnemonic.names

/-- The suffixes of the renamings that are for one line, one after the other. -/
def Renaming.suffixes (onLine : Renaming → Bool) : List Renaming → String
  | [] => ""
  | r :: rest => (if onLine r then r.suffix else "") ++ suffixes onLine rest

namespace Names

/-- The names with the suffix of a renaming, on the lines that it is for. -/
def renamed (n : Names) (r : Renaming) : Names where
  first := if r.first then n.first ++ r.suffix else n.first
  second := if r.second then n.second.map (· ++ r.suffix) else n.second

/-- The names after renamings in their order. -/
def renamedAll (n : Names) (rs : List Renaming) : Names := rs.foldl renamed n

/-- The first name gets the suffixes that are for the first line, in their order. -/
theorem first_renamedAll (n : Names) (rs : List Renaming) :
    (n.renamedAll rs).first = n.first ++ Renaming.suffixes Renaming.first rs := by
  induction rs generalizing n with
  | nil => exact String.append_empty.symm
  | cons r rest ih =>
    have hrest : (n.renamedAll (r :: rest)).first = _ := ih (n.renamed r)
    rw [hrest, Renaming.suffixes, ← String.append_assoc, renamed]
    cases r.first with
    | true => rfl
    | false => simp

/-- The second name gets the suffixes that are for the second line, in their order. -/
theorem second_renamedAll (n : Names) (rs : List Renaming) :
    (n.renamedAll rs).second = n.second.map (· ++ Renaming.suffixes Renaming.second rs) := by
  induction rs generalizing n with
  | nil => simp [renamedAll, Renaming.suffixes]
  | cons r rest ih =>
    have hrest : (n.renamedAll (r :: rest)).second = _ := ih (n.renamed r)
    rw [hrest, Renaming.suffixes, renamed]
    cases r.second with
    | true => cases n.second <;> simp [String.append_assoc]
    | false => simp

end Names

/-! ## What fields ask for -/

/-- The renaming that a field with the value `v` asks for. -/
def Field.renaming? (field : Field) (v : Nat) : Option Renaming :=
  match field with
  | .rename request => if v % 2 = 1 then some request.renaming else none
  | .swapPair => (swapOperands? v).bind fun swap => swap.2.2.map RenameRequest.renaming
  | _ => none

/-- The renamings that fields ask for, in their order. -/
def FieldUse.renamings (word : Nat) (fields : List FieldUse) : List Renaming :=
  fields.filterMap fun use => use.field.renaming? (use.selector.select word)

/-- What comes of a request: the renaming asked for and the kind that has the longer name. -/
def RenameRequest.outcomes (mnemonics : Array Mnemonic) (kind : Kind) (request : RenameRequest) :
    List (Option Renaming × Kind) :=
  match request.renaming.apply mnemonics kind with
  | .ok renamed => [(some request.renaming, renamed)]
  | .error _ => []

/-- What can come of a field: the renaming asked for and the kind that it leaves. -/
def Field.outcomes (mnemonics : Array Mnemonic) (kind : Kind) :
    Field → List (Option Renaming × Kind)
  | .optionalSource => [(none, kind), (none, kind + 1)]
  | .rename request => (none, kind) :: request.outcomes mnemonics kind
  | .swapPair => (none, kind) ::
      (RenameRequest.outcomes mnemonics kind .pair ++ RenameRequest.outcomes mnemonics kind .quad)
  | _ => [(none, kind)]

/-- A field that changes no kind asks for no renaming. -/
theorem Field.outcomes_of_not_renames {field : Field} (h : field.renames = false) (v : Nat)
    (mnemonics : Array Mnemonic) (kind : Kind) :
    field.renaming? v = none ∧ field.outcomes mnemonics kind = [(none, kind)] := by
  cases field with
  | optionalSource | rename | swapPair | condition => cases h
  | _ => exact ⟨rfl, rfl⟩

namespace Draft

variable {d d' : Draft} {s : Surroundings}

/-- A renaming that succeeds is among the outcomes of its request. -/
theorem mem_outcomes_of_rename {request : RenameRequest}
    (h : d.rename s.mnemonics request.renaming = .ok d') :
    (some request.renaming, d'.insn.kind) ∈ request.outcomes s.mnemonics d.insn.kind := by
  obtain ⟨kind, hkind, rfl⟩ := exists_of_rename h
  rw [RenameRequest.outcomes, hkind]
  exact List.mem_singleton_self _

private theorem swap_request {v : Nat} {a b : Register} {r : RenameRequest}
    (h : swapOperands? v = some (a, b, some r)) : r = .pair ∨ r = .quad := by
  unfold swapOperands? at h
  split at h <;> cases h <;> simp

/-- A swap leaves a kind that is among the outcomes of its field. -/
theorem mem_outcomes_of_pushSwap {v : Nat} (h : d.pushSwap s v = .ok d')
    (hkind : d'.insn.kind ≠ 0) :
    (Field.swapPair.renaming? v, d'.insn.kind) ∈
      Field.swapPair.outcomes s.mnemonics d.insn.kind := by
  obtain rfl | ⟨a, b, request, e, hswap, hrenamed, hinsn⟩ := pushSwap_cases h
  · exact absurd rfl hkind
  have hsame : d'.insn.kind = e.insn.kind := by
    rw [hinsn]
    rfl
  rw [Field.renaming?, hswap, hsame]
  obtain ⟨rfl, rfl⟩ | ⟨r, rfl, hr⟩ := hrenamed
  · exact List.mem_cons_self
  · have hmem := mem_outcomes_of_rename hr
    refine List.mem_cons_of_mem _ (List.mem_append.mpr ?_)
    rcases swap_request hswap with rfl | rfl
    · exact Or.inl hmem
    · exact Or.inr hmem

/-- Unless a field leaves the null kind, it leaves one of those foreseen. -/
theorem mem_outcomes_of_contribute {field : Field} {v : Nat}
    (h : d.contribute s field v = .ok d') (hkind : d'.insn.kind ≠ 0) :
    (field.renaming? v, d'.insn.kind) ∈ field.outcomes s.mnemonics d.insn.kind := by
  cases hf : field.renames with
  | false =>
    obtain ⟨hasked, houtcomes⟩ := Field.outcomes_of_not_renames hf v s.mnemonics d.insn.kind
    rw [hasked, houtcomes, (frame_contribute h).kind hf]
    exact List.mem_singleton_self _
  | true =>
    cases field with
    | optionalSource =>
      obtain rfl | ⟨e, hp, rfl⟩ := pushOptional_cases h
      · exact List.mem_cons_self
      · rw [← (continues_push hp).kind]
        exact List.mem_cons_of_mem _ (List.mem_singleton_self _)
    | rename request =>
      simp only [contribute] at h
      split at h
      next hodd =>
        rw [Field.renaming?, if_pos hodd]
        exact List.mem_cons_of_mem _ (mem_outcomes_of_rename h)
      next heven =>
        cases h
        rw [Field.renaming?, if_neg heven]
        exact List.mem_cons_self
    | swapPair => exact mem_outcomes_of_pushSwap h hkind
    | condition =>
      obtain rfl | hcontinues := pushCondition_cases h
      · exact absurd rfl hkind
      · rw [hcontinues.kind]
        exact List.mem_singleton_self _
    | _ => cases hf

end Draft

/-! ## The layout of the mnemonic table -/

namespace Names

/-- The names after what a field asked for, if it asked for anything. -/
def after (n : Names) : Option Renaming → Names
  | none => n
  | some r => n.renamed r

private theorem renamedAll_cons (n : Names) (word : Nat) (use : FieldUse) (rest : List FieldUse) :
    n.renamedAll (FieldUse.renamings word (use :: rest)) =
      (n.after (use.field.renaming? (use.selector.select word))).renamedAll
        (FieldUse.renamings word rest) := by
  rw [FieldUse.renamings, List.filterMap_cons]
  cases use.field.renaming? (use.selector.select word) with
  | none => rfl
  | some r => rfl

end Names

/-- Whether every way through the fields of a row, starting with a kind, gives the names asked
for. -/
def FieldUse.keepNames (mnemonics : Array Mnemonic) (mnemonic? : Kind → Option Mnemonic) :
    Kind → List FieldUse → Bool
  | _, [] => true
  | kind, use :: rest =>
    if use.field.renames then
      (use.field.outcomes mnemonics kind).all fun outcome =>
        (mnemonic? outcome.2).map Mnemonic.names ==
            (mnemonic? kind).map (·.names.after outcome.1) &&
          keepNames mnemonics mnemonic? outcome.2 rest
    else keepNames mnemonics mnemonic? kind rest

namespace Encoding

/-- Whether the instructions of a row have the names that its fields ask for. -/
def keepsNames (mnemonics : Array Mnemonic) (mnemonic? : Kind → Option Mnemonic) (e : Encoding) :
    Bool :=
  FieldUse.keepNames mnemonics mnemonic? e.kind e.fields

/-- In all rows of the table, every way through the fields gives the names asked for. -/
theorem table_keepsNames : table.all (keepsNames Form.mnemonics pagedMnemonic?) = true := by
  rw [mnemonics_eq]
  decide +kernel

end Encoding

namespace Draft

variable {d d' : Draft} {s : Surroundings} {word : Nat} {use : FieldUse} {rest : List FieldUse}

private theorem contributeAll_cons
    (hc : d.contribute s use.field (use.selector.select word) = .ok d') (hkind : d'.insn.kind ≠ 0) :
    d.contributeAll s word (use :: rest) = d'.contributeAll s word rest := by
  rw [contributeAll, hc]
  exact if_neg hkind

/-- One field gives the names that it asks for. -/
theorem names_contribute (hs : s.mnemonics = Form.mnemonics)
    (hkeep : FieldUse.keepNames Form.mnemonics Encoding.pagedMnemonic? d.insn.kind (use :: rest))
    (h : d.contribute s use.field (use.selector.select word) = .ok d') (hkind : d'.insn.kind ≠ 0) :
    namesOf? d'.insn.kind =
        (namesOf? d.insn.kind).map (·.after (use.field.renaming? (use.selector.select word))) ∧
      FieldUse.keepNames Form.mnemonics Encoding.pagedMnemonic? d'.insn.kind rest := by
  unfold FieldUse.keepNames at hkeep
  split at hkeep
  next =>
    have hmem := mem_outcomes_of_contribute h hkind
    rw [hs] at hmem
    have houtcome := List.all_eq_true.mp hkeep _ hmem
    rw [Bool.and_eq_true, beq_iff_eq, Encoding.pagedMnemonic?_eq, Encoding.pagedMnemonic?_eq]
      at houtcome
    refine ⟨?_, houtcome.2⟩
    rw [namesOf?, namesOf?, houtcome.1, Option.map_map]
    rfl
  next hf =>
    have hf' := Bool.eq_false_iff.mpr hf
    rw [(frame_contribute h).kind hf', (Field.outcomes_of_not_renames hf' _ #[] 0).1]
    exact ⟨Option.map_id'.symm, hkeep⟩

/-- The fields of a row give the names that they ask for. -/
theorem names_contributeAll (hs : s.mnemonics = Form.mnemonics) {fields : List FieldUse}
    (hkeep : FieldUse.keepNames Form.mnemonics Encoding.pagedMnemonic? d.insn.kind fields)
    {insn : Instruction} (h : d.contributeAll s word fields = .ok (some insn)) :
    namesOf? insn.kind =
      (namesOf? d.insn.kind).map (·.renamedAll (FieldUse.renamings word fields)) := by
  induction fields generalizing d with
  | nil =>
    cases h
    exact Option.map_id'.symm
  | cons use rest ih =>
    obtain ⟨d', hc, hkind, hrest⟩ := exists_of_contributeAll_cons h
    obtain ⟨hnames, hkeep'⟩ := names_contribute hs hkeep hc hkind
    rw [ih hkeep' hrest, hnames, Option.map_map]
    exact congrArg (Option.map · _) (funext fun n => (n.renamedAll_cons word use rest).symm)

/-- What holds along all fields holds along the first of them. -/
theorem keepNames_take {mnemonics : Array Mnemonic} {mnemonic? : Kind → Option Mnemonic}
    {kind : Kind} {fields : List FieldUse}
    (h : FieldUse.keepNames mnemonics mnemonic? kind fields = true) (n : Nat) :
    FieldUse.keepNames mnemonics mnemonic? kind (fields.take n) = true := by
  induction fields generalizing kind n with
  | nil => rw [List.take_nil]; rfl
  | cons use rest ih =>
    cases n with
    | zero => rfl
    | succ n =>
      rw [List.take_succ_cons]
      unfold FieldUse.keepNames at h ⊢
      split
      next hf =>
        rw [if_pos hf, List.all_eq_true] at h
        refine List.all_eq_true.mpr fun outcome hmem => ?_
        have houtcome := h outcome hmem
        rw [Bool.and_eq_true] at houtcome ⊢
        exact ⟨houtcome.1, ih houtcome.2 n⟩
      next hf =>
        rw [if_neg hf] at h
        exact ih h n

/-- The first fields of a row give an instruction if all of them do. -/
theorem exists_contributeAll_take {fields : List FieldUse} {insn : Instruction}
    (h : d.contributeAll s word fields = .ok (some insn)) (n : Nat) :
    ∃ i, d.contributeAll s word (fields.take n) = .ok (some i) := by
  induction fields generalizing d n with
  | nil => exact ⟨insn, by rwa [List.take_nil]⟩
  | cons use rest ih =>
    cases n with
    | zero => exact ⟨d.insn, rfl⟩
    | succ n =>
      obtain ⟨d', hc, hkind, hrest⟩ := exists_of_contributeAll_cons h
      obtain ⟨i, hi⟩ := ih hrest n
      exact ⟨i, by rw [List.take_succ_cons, contributeAll_cons hc hkind, hi]⟩

end Draft

namespace StatusBit

/-- The form with a named bit has the names of the form with a bit number. -/
theorem names_namedForm {kind : Kind} {form : Form} (h : namedForm? kind = some form) :
    namesOf? form.kind = namesOf? kind := by
  have hforms : (Encoding.pagedMnemonic? Form.bclr1.kind).map Mnemonic.names =
        (Encoding.pagedMnemonic? Form.bclr2.kind).map Mnemonic.names ∧
      (Encoding.pagedMnemonic? Form.bset1.kind).map Mnemonic.names =
        (Encoding.pagedMnemonic? Form.bset2.kind).map Mnemonic.names := by
    decide +kernel
  simp only [Encoding.pagedMnemonic?_eq] at hforms
  unfold namedForm? at h
  split at h
  next hk =>
    cases h
    rw [hk]
    exact hforms.1
  next =>
    split at h
    next hk =>
      cases h
      rw [hk]
      exact hforms.2
    next => cases h

/-- Naming a status bit keeps the names of an instruction. -/
theorem names_nameBit (insn : Instruction) :
    namesOf? (nameBit insn).kind = namesOf? insn.kind := by
  unfold nameBit
  split
  next form bit status hform _ _ =>
    split
    next => exact names_namedForm hform
    next => rfl
  next => rfl

end StatusBit

/-! ## Decoded instructions -/

/-- The window that a result of decoding at `a` was matched in: the memory from there on, or the
bytes that were unpacked for a half of a pair. -/
inductive Decoded.MatchedIn (space : AddressSpace) (a : Address) (d : Decoded) :
    ByteWindow → Prop where
  | plain (half : d.insn.half? = none) : MatchedIn space a d (.new space a)
  | head {t : Address} {pair : PackedPair} (half : d.insn.half? = some (.head t))
      (unpacked : PackedPair.unpack? space a = some pair) :
      MatchedIn space a d (.primed space a pair.head)
  | tail {h : Address} {pair : PackedPair} (half : d.insn.half? = some (.tail h))
      (unpacked : PackedPair.unpack? space h = some pair) :
      MatchedIn space a d (.primed space a pair.tail)

namespace Machine

/-- How the names of a decoded instruction come from the row that was found in a window. -/
structure NamedFrom (space : AddressSpace) (k : Knowledge) (w : ByteWindow) (row : Encoding)
    (word : Nat) (d : Decoded) : Prop where
  /-- The names are those of the row, with the suffixes asked for on each line. -/
  named : ∃ m n, Form.mnemonics[row.kind]? = some m ∧ Form.mnemonics[d.insn.kind]? = some n ∧
    n.name = m.name ++ Renaming.suffixes Renaming.first (FieldUse.renamings word row.fields) ∧
    n.second = m.second.map
      (· ++ Renaming.suffixes Renaming.second (FieldUse.renamings word row.fields))
  /-- An optional operand, left out or kept, changes no name. -/
  optional : ∀ i use, row.fields[i]? = some use → use.field = .optionalSource →
    ∃ before after : Instruction,
      (draftAt w.base row).contributeAll (c55x.surroundings k.context (c55x.nextAddress space k) w)
        word (row.fields.take i) = .ok (some before) ∧
      (draftAt w.base row).contributeAll (c55x.surroundings k.context (c55x.nextAddress space k) w)
        word (row.fields.take (i + 1)) = .ok (some after) ∧
      namesOf? after.kind = namesOf? before.kind
  /-- The naming of a status bit changes no name, and nothing after it changes the kind. -/
  settled : ∃ insn : Instruction,
    (draftAt w.base row).contributeAll (c55x.surroundings k.context (c55x.nextAddress space k) w)
      word row.fields = .ok (some insn) ∧
    d.insn.kind = (StatusBit.nameBit insn).kind ∧
    namesOf? (StatusBit.nameBit insn).kind = namesOf? insn.kind

/-- Nothing done after the naming of a status bit changes the kind. -/
theorem lasting_kind (kind : Kind) : Lasting fun insn => insn.kind = kind where
  marks _ h := h
  length h := h
  qualified _ h := h
  withHalf _ h := h
  withRoles _ h := h

/-- A decoded instruction was matched in a window, and has the kind that naming its status bit
leaves. -/
theorem Decodes.exists_matchedIn {space : AddressSpace} {k : Knowledge} {next : NextAddress}
    {a : Address} {d : Decoded} (h : Decodes space k next a d) :
    ∃ w row word insn, d.MatchedIn space a w ∧ Matched k.context next w row word insn ∧
      d.insn.kind = (StatusBit.nameBit insn).kind := by
  cases h with
  | @plain first row word insn _ _ hm =>
    have hhalf : (c55x.finishPlain space first insn).half? = none :=
      (finishPlain_place space first insn).2.trans hm.half?_eq_none
    exact ⟨_, row, word, insn, .plain hhalf, hm, (lasting_kind _).finishPlain rfl space first⟩
  | @head _ pair head _ _ _ _ _ hh =>
    obtain ⟨⟨row, word, hm⟩, -⟩ := exists_matched_of_exactly hh.matchedHead
    exact ⟨_, row, word, head, .head rfl hh.unpacked, hm, rfl⟩
  | @tail headLength pair insn _ hs =>
    obtain ⟨⟨row, word, hm⟩, -⟩ := exists_matched_of_exactly hs.matched
    exact ⟨_, row, word, insn, .tail rfl hs.unpacked, hm, rfl⟩

section Row

variable {space : AddressSpace} {k : Knowledge} {w : ByteWindow} {row : Encoding} {word : Nat}
  {insn : Instruction}

/-- The first fields of a matched row give an instruction with the names that they ask for. -/
theorem Matched.exists_names_take {context : Context} {next : NextAddress}
    (h : Matched context next w row word insn) (n : Nat) :
    ∃ i, (draftAt w.base row).contributeAll (c55x.surroundings context next w) word
        (row.fields.take n) = .ok (some i) ∧
      namesOf? i.kind =
        (namesOf? row.kind).map (·.renamedAll (FieldUse.renamings word (row.fields.take n))) := by
  have hkeep := List.all_eq_true.mp Encoding.table_keepsNames row h.mem
  obtain ⟨i, hi⟩ := Draft.exists_contributeAll_take h.contributed n
  exact ⟨i, hi, Draft.names_contributeAll rfl (Draft.keepNames_take hkeep n) hi⟩

/-- The names of a matched instruction are those of its row with the suffixes that its fields ask
for. -/
theorem Matched.names_eq {context : Context} {next : NextAddress}
    (h : Matched context next w row word insn) :
    namesOf? insn.kind =
      (namesOf? row.kind).map (·.renamedAll (FieldUse.renamings word row.fields)) := by
  obtain ⟨i, hi, hnames⟩ := h.exists_names_take row.fields.length
  rw [List.take_length] at hi hnames
  cases h.contributed.symm.trans hi
  exact hnames

/-- The field of an optional operand leaves the names as the fields before it left them. -/
theorem Matched.names_optional {context : Context} {next : NextAddress}
    (h : Matched context next w row word insn) {i : Nat} {use : FieldUse}
    (huse : row.fields[i]? = some use) (hf : use.field = .optionalSource) :
    ∃ before after : Instruction,
      (draftAt w.base row).contributeAll (c55x.surroundings context next w) word
        (row.fields.take i) = .ok (some before) ∧
      (draftAt w.base row).contributeAll (c55x.surroundings context next w) word
        (row.fields.take (i + 1)) = .ok (some after) ∧
      namesOf? after.kind = namesOf? before.kind := by
  obtain ⟨before, hbefore, hnames⟩ := h.exists_names_take i
  obtain ⟨after, hafter, hnames'⟩ := h.exists_names_take (i + 1)
  refine ⟨before, after, hbefore, hafter, ?_⟩
  have hsame : FieldUse.renamings word (row.fields.take (i + 1)) =
      FieldUse.renamings word (row.fields.take i) := by
    rw [List.take_add_one, huse, FieldUse.renamings, List.filterMap_append, FieldUse.renamings]
    simp [hf, Field.renaming?]
  rw [hnames, hnames', hsame]

end Row

/-- A decoded instruction has the names of the row that was found in its bytes, followed on each
line by the suffixes that the fields ask for, in the order of the fields. Optional operands and the
naming of status bits leave the names as they are. -/
theorem decode_names {space : AddressSpace} {k : Knowledge} {a : Address} {d : Decoded}
    (h : c55x.decode space k a = .ok d) :
    ∃ w row word, d.MatchedIn space a w ∧
      (Encoding.search 8 Encoding.table w).1 = .found row word ∧
      NamedFrom space k w row word d := by
  obtain ⟨w, row, word, insn, hw, hm, hkind⟩ := (decode_eq_ok_iff.mp h).exists_matchedIn
  have hsettled := StatusBit.names_nameBit insn
  obtain ⟨o, ⟨n, hfits⟩, hshape⟩ := exists_shape_of_decode h
  have hn : Form.mnemonics[d.insn.kind]? = some n := by rw [hshape.kind]; exact hfits.named
  -- the kind of the row has a mnemonic because the kind of the instruction has one
  have hnames : some n.names =
      (namesOf? row.kind).map (·.renamedAll (FieldUse.renamings word row.fields)) := by
    rw [← hm.names_eq, ← hsettled, ← hkind, namesOf?, hn, Option.map_some]
  obtain ⟨names, hrow, hrenamed⟩ := Option.map_eq_some_iff.mp hnames.symm
  obtain ⟨m, hm', rfl⟩ := Option.map_eq_some_iff.mp hrow
  refine ⟨w, row, word, hw, (Encoding.search_eq 8 Encoding.table w).1.trans hm.found, ?_⟩
  exact {
    named := by
      have hfirst := m.names.first_renamedAll (FieldUse.renamings word row.fields)
      have hsecond := m.names.second_renamedAll (FieldUse.renamings word row.fields)
      rw [hrenamed] at hfirst hsecond
      exact ⟨m, n, hm', hn, hfirst, hsecond⟩
    optional := fun i use huse hf => hm.names_optional huse hf
    settled := ⟨insn, hm.contributed, hkind, hsettled⟩ }

/-- A rounded product that keeps its optional operand: the kind is first renamed, then the next
one. -/
theorem decode_names_roundedProduct :
    let product := AddressSpace.holding 0 [0x54, 0x47]
    ∃ d, c55x.decode product {} 0 = .ok d ∧ d.insn.operandCount = 2 ∧
      namesOf? d.insn.kind = some ⟨"mpyr", none⟩ ∧
      ∃ w row word, d.MatchedIn product 0 w ∧
        (Encoding.search 8 Encoding.table w).1 = .found row word ∧
        NamedFrom product {} w row word d := by
  intro product
  have hfacts : (c55x.decode product {} 0).toOption.map
        (fun d => (d.insn.operandCount, d.insn.kind)) = some (2, Form.mpyr2.kind) ∧
      (Encoding.pagedMnemonic? Form.mpyr2.kind).map Mnemonic.names = some ⟨"mpyr", none⟩ := by
    decide +kernel
  obtain ⟨d, hd, hresult⟩ := exists_ok_of_toOption hfacts.1
  obtain ⟨hcount, hkind⟩ := Prod.mk.inj hresult
  refine ⟨d, hd, hcount, ?_, decode_names hd⟩
  rw [hkind, namesOf?, ← Encoding.pagedMnemonic?_eq]
  exact hfacts.2

end Machine

end DspCode
