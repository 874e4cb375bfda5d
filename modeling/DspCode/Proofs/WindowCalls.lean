import DspCode.Proofs.Window
import Mathlib.Data.List.Nodup

/-!
# Windows under any calls

A window fetches what it is asked for and keeps it, goes on from where it stopped and can be sent
back to its base. Here it is used by an arbitrary series of calls. Main statement: whatever was
called before, each offset answers by the given bytes and the address space alone, the next byte is
the one behind the bytes got since the last return to the base, and no address is read twice with
success.

What an address space is asked for does not show in an answer. But the operations are written for
any way to read an address (`fetchVia` and what is built on it), so they also run on an address
space that keeps a record of its readings. There they give what they give on the window's own
address space, and the record shows the rest.
-/

namespace DspCode

namespace AddressSpace

/-- The first of the offsets from `lo` through `hi` at which nothing is mapped. -/
def firstUnmapped? (space : AddressSpace) (base : Address) (lo hi : Nat) : Option Nat :=
  (List.range' lo (hi + 1 - lo)).find? fun k => !space.isMapped (base + UInt32.ofNat k)

variable {space : AddressSpace} {base : Address} {lo hi j : Nat}

/-- No place is found exactly when the whole stretch is mapped. -/
theorem firstUnmapped?_eq_none_iff :
    space.firstUnmapped? base lo hi = none ↔
      ∀ k, lo ≤ k → k ≤ hi → (space (base + UInt32.ofNat k)).isSome := by
  simp only [firstUnmapped?, isMapped, List.find?_range'_eq_none, Bool.not_not]
  exact forall_congr' fun k => forall_congr' fun _ => imp_congr_left (by omega)

/-- The place that is found is unmapped, and all before it in the stretch are mapped. -/
theorem firstUnmapped?_eq_some_iff :
    space.firstUnmapped? base lo hi = some j ↔
      space (base + UInt32.ofNat j) = none ∧ (lo ≤ j ∧ j ≤ hi) ∧
        ∀ k, lo ≤ k → k < j → (space (base + UInt32.ofNat k)).isSome := by
  simp only [firstUnmapped?, isMapped, List.find?_range'_eq_some, Bool.not_not, List.mem_range'_1,
    Bool.not_eq_true', Option.isSome_eq_false_iff, Option.isNone_iff_eq_none]
  exact and_congr_right fun _ => and_congr_left fun _ => by omega

end AddressSpace

/-- One reading of an address space: the address and what was there. -/
structure Reading where
  address : Address
  byte? : Option UInt8

/-- The addresses that were read with success, in order and as often as they were. -/
def Reading.fetched (record : List Reading) : List Address :=
  (record.filter (·.byte?.isSome)).map (·.address)

/-- Reads an address and puts the reading on record. -/
def AddressSpace.readRecorded (space : AddressSpace) (a : Address) :
    StateM (List Reading) (Option UInt8) :=
  modifyGet fun record => (space a, record ++ [⟨a, space a⟩])

namespace ByteWindow

/-- What an offset holds if the first bytes are given: a given byte, or else the byte of the address
space, provided that all addresses behind the given bytes are mapped up to it. -/
def content (space : AddressSpace) (base : Address) (given : List UInt8) (offset : Nat) :
    Except WindowError UInt8 :=
  if capacity ≤ offset then .error .exhausted
  else
    match given[offset]? with
    | some b => .ok b
    | none =>
      match space.firstUnmapped? base given.length offset with
      | some k => .error (.unmapped (base + UInt32.ofNat k))
      | none => (space.read (base + UInt32.ofNat offset)).mapError fun e => .unmapped e.address

/-- A call on a window. -/
inductive Call where
  | next
  | byteAt (offset : Nat)
  | peek (offset : Nat)
  | reset
  deriving DecidableEq

/-- What a call gives back. -/
inductive Reply where
  | answer (byte : Except WindowError UInt8)
  | known (byte? : Option UInt8)
  | done

/-- A call with what it gave back. -/
structure Event where
  call : Call
  reply : Reply

/-- A byte was got by asking for the next one. -/
def Event.gotNext : Event → Bool
  | ⟨.next, .answer (.ok _)⟩ => true
  | _ => false

/-- How many times the next byte was got since the last return to the base. -/
def nextCount (events : List Event) : Nat :=
  (events.reverse.takeWhile fun e => e.call ≠ .reset).countP Event.gotNext

/-- A window in use, with the calls made so far. -/
structure Trace where
  window : ByteWindow
  events : List Event

section Via

variable {m : Type → Type} [Monad m] (read : Address → m (Option UInt8))

/-- Carries out one call, if addresses are read in this way. -/
def performVia (w : ByteWindow) : Call → m (Reply × ByteWindow)
  | .next => do
    let r ← w.nextVia read
    return (.answer r.1, r.2)
  | .byteAt offset => do
    let r ← w.atVia read offset
    return (.answer r.1, r.2)
  | .peek offset => return (.known (w.peek? offset), w)
  | .reset => return (.done, w.reset)

/-- Carries out one call and notes what it gave back. -/
def Trace.stepVia (t : Trace) (c : Call) : m Trace := do
  let r ← t.window.performVia read c
  return ⟨r.2, t.events ++ [⟨c, r.1⟩]⟩

end Via

/-- Carries out one call on the window's own address space. -/
def Trace.step (t : Trace) (c : Call) : Trace := Id.run (t.stepVia t.window.readOwn c)

/-- Carries out calls one after the other. -/
def run (w : ByteWindow) (calls : List Call) : Trace := calls.foldl Trace.step ⟨w, []⟩

/-- Carries out calls one after the other and records what is read for them. -/
def runRecorded (w : ByteWindow) (calls : List Call) : Trace × List Reading :=
  Id.run ((calls.foldlM (Trace.stepVia w.space.readRecorded) ⟨w, []⟩).run [])

section Content

variable {space : AddressSpace} {base : Address} {given : List UInt8} {offset : Nat}

private theorem size_primed : (primed space base given).known.size = min capacity given.length := by
  simp only [primed, List.size_toArray, List.length_take]

/-- A primed window shows the given bytes, and after them those of the address space. -/
theorem shown?_primed_of_lt (h : offset < capacity) :
    (primed space base given).shown? offset =
      given[offset]?.or (space (base + UInt32.ofNat offset)) := by
  have hknown : (primed space base given).known[offset]? = given[offset]? := by
    rw [primed, List.getElem?_toArray, List.getElem?_take_of_lt h]
  rw [shown?, hknown]
  cases given[offset]? <;> rfl

private theorem isSome_shown?_primed (h : offset < capacity) (hg : offset < given.length) :
    ((primed space base given).shown? offset).isSome := by
  rw [shown?_primed_of_lt h, List.getElem?_eq_getElem hg]
  rfl

private theorem shown?_primed_of_le (h : offset < capacity) (hg : given.length ≤ offset) :
    (primed space base given).shown? offset = space (base + UInt32.ofNat offset) := by
  rw [shown?_primed_of_lt h, List.getElem?_eq_none hg, Option.none_or]

/-- A fresh window answers as its content says. -/
theorem answer_primed (space : AddressSpace) (base : Address) (given : List UInt8) (offset : Nat) :
    (primed space base given).answer offset = content space base given offset := by
  by_cases hc : capacity ≤ offset
  · rw [content, if_pos hc, answer_eq_exhausted_iff]
    exact hc
  have hlt : offset < capacity := Nat.not_le.mp hc
  rw [content, if_neg hc]
  by_cases hg : offset < given.length
  · rw [List.getElem?_eq_getElem hg]
    refine answer_eq_ok_iff.mpr ⟨hlt, fun j hj => ?_, ?_⟩
    · exact isSome_shown?_primed (by omega) (by omega)
    · rw [shown?_primed_of_lt hlt, List.getElem?_eq_getElem hg]
      rfl
  have hle : given.length ≤ offset := Nat.not_lt.mp hg
  -- up to `hi` bytes are shown, the given ones and behind them those of the address space
  have hshown : ∀ hi ≤ offset + 1,
      (∀ k, given.length ≤ k → k < hi → (space (base + UInt32.ofNat k)).isSome) →
        ∀ k < hi, ((primed space base given).shown? k).isSome := by
    intro hi hhi hmapped k hk
    by_cases hkg : k < given.length
    · exact isSome_shown?_primed (by omega) hkg
    · rw [shown?_primed_of_le (by omega) (Nat.not_lt.mp hkg)]
      exact hmapped k (Nat.not_lt.mp hkg) hk
  rw [List.getElem?_eq_none hle]
  cases hfirst : space.firstUnmapped? base given.length offset with
  | some j =>
    obtain ⟨hnone, ⟨hgj, hj⟩, hmapped⟩ := AddressSpace.firstUnmapped?_eq_some_iff.mp hfirst
    refine answer_eq_unmapped_iff.mpr ⟨hlt, j, hj, rfl, ?_, hshown j (by omega) hmapped⟩
    rw [shown?_primed_of_le (by omega) hgj]
    exact hnone
  | none =>
    have hmapped := AddressSpace.firstUnmapped?_eq_none_iff.mp hfirst
    obtain ⟨b, hb⟩ := Option.isSome_iff_exists.mp (hmapped offset hle (Nat.le_refl _))
    have hread : space.read (base + UInt32.ofNat offset) = .ok b := by rw [AddressSpace.read, hb]
    rw [hread]
    refine answer_eq_ok_iff.mpr ⟨hlt, fun j hj => ?_, ?_⟩
    · exact hshown (offset + 1) (Nat.le_refl _) (fun k hk hk' => hmapped k hk (by omega)) j
        (by omega)
    · rw [shown?_primed_of_le hlt hle]
      exact hb

end Content

section Steps

variable {space : AddressSpace} {base : Address} {given : List UInt8}

private theorem window_at? (w : ByteWindow) (offset : Nat) :
    (w.at? offset).2 = if capacity ≤ offset then w else (w.fetch offset).1 := by
  rw [at?_eq]
  split
  · rfl
  · split
    next he => rw [he]
    next he =>
      rw [he]
      split <;> rfl

/-- The window after a request for the next byte is the one that read it, moved on by one if the
byte could be had. -/
theorem window_next (w : ByteWindow) :
    w.next.2 =
      { (w.at? w.position).2 with position := w.position + w.next.1.isOk.toNat } := by
  have hp := (w.sameView_at? w.position).2
  rw [next_eq]
  split
  next b v he =>
    rw [he] at hp ⊢
    rw [← hp]
    rfl
  next e v he =>
    rw [he] at hp ⊢
    rw [← hp]
    rfl

/-- Fetching goes no further than the place asked for. -/
theorem size_fetch_le (w : ByteWindow) (offset : Nat) :
    (w.fetch offset).1.known.size ≤ max w.known.size (offset + 1) := by
  induction w using fetch_induction offset with
  | known w h =>
    rw [fetch_of_lt h]
    exact Nat.le_max_left _ _
  | unmapped w h ha =>
    rw [fetch_of_none h ha]
    exact Nat.le_max_left _ _
  | fetched w b h hb ih =>
    rw [fetch_of_some h hb]
    rw [Array.size_push] at ih
    omega

/-- A window never holds more bytes than its capacity. -/
theorem size_at?_le {w : ByteWindow} (h : w.known.size ≤ capacity) (offset : Nat) :
    (w.at? offset).2.known.size ≤ capacity := by
  rw [window_at?]
  split
  · exact h
  · have := w.size_fetch_le offset
    omega

/-- A return to the base starts the count again, and only a byte got by `next` adds to it. -/
theorem nextCount_concat (events : List Event) (e : Event) :
    nextCount (events ++ [e]) =
      if e.call = .reset then 0 else nextCount events + e.gotNext.toNat := by
  by_cases h : e.call = .reset
  · simp [nextCount, h]
  · cases hg : e.gotNext <;> simp [nextCount, h, hg]

private theorem gotNext_next (r : Except WindowError UInt8) :
    Event.gotNext ⟨.next, .answer r⟩ = r.isOk := by
  cases r <;> rfl

/-- A window in use still shows what it showed at first, holds no more than it can, and stands
behind the bytes got since the last return to the base. -/
structure Trace.Serves (t : Trace) (space : AddressSpace) (base : Address) (given : List UInt8) :
    Prop where
  view : SameView t.window (primed space base given)
  bounded : t.window.known.size ≤ capacity
  position : t.window.position = nextCount t.events

/-- One more call changes nothing of what a window in use serves. -/
theorem Trace.Serves.step {t : Trace} (h : t.Serves space base given) (c : Call) :
    (t.step c).Serves space base given := by
  cases c with
  | next =>
    refine ⟨(t.window.next_spec).2.1.trans h.view, ?_, ?_⟩
    · show t.window.next.2.known.size ≤ capacity
      rw [window_next]
      exact size_at?_le h.bounded _
    · show t.window.next.2.position = nextCount (t.events ++ [⟨.next, .answer t.window.next.1⟩])
      rw [window_next, nextCount_concat, gotNext_next, h.position]
      rfl
  | byteAt offset =>
    have hat := t.window.sameView_at? offset
    refine ⟨hat.1.trans h.view, size_at?_le h.bounded offset, ?_⟩
    show (t.window.at? offset).2.position = nextCount (t.events ++ [⟨.byteAt offset, _⟩])
    rw [hat.2, nextCount_concat, h.position]
    rfl
  | peek offset =>
    refine ⟨h.view, h.bounded, ?_⟩
    show t.window.position = nextCount (t.events ++ [⟨.peek offset, _⟩])
    rw [nextCount_concat, h.position]
    rfl
  | reset =>
    refine ⟨(sameView_reset _).trans h.view, h.bounded, ?_⟩
    show 0 = nextCount (t.events ++ [⟨.reset, .done⟩])
    rw [nextCount_concat]
    rfl

private theorem serves_foldl {t : Trace} (h : t.Serves space base given) (calls : List Call) :
    (calls.foldl Trace.step t).Serves space base given := by
  induction calls generalizing t with
  | nil => exact h
  | cons c calls ih => exact ih (h.step c)

/-- After any calls the window still serves the given bytes and the address space. -/
theorem serves_run (space : AddressSpace) (base : Address) (given : List UInt8)
    (calls : List Call) : ((primed space base given).run calls).Serves space base given := by
  refine serves_foldl ⟨.refl _, ?_, rfl⟩ calls
  show (primed space base given).known.size ≤ capacity
  rw [size_primed]
  exact Nat.min_le_left _ _

/-- A window that was called before still answers by the given bytes and the address space. -/
theorem Trace.Serves.answer {t : Trace} (h : t.Serves space base given) (offset : Nat) :
    t.window.answer offset = content space base given offset := by
  rw [h.view.answer, answer_primed]

/-- What a window in use knows is its content there. -/
theorem Trace.Serves.peek? {t : Trace} (h : t.Serves space base given) (offset : Nat) :
    t.window.peek? offset =
      if offset < t.window.known.size then (content space base given offset).toOption
      else none := by
  rw [ByteWindow.peek?, ← h.answer]
  split
  next hk =>
    have hok : t.window.answer offset = .ok t.window.known[offset] := by
      refine answer_eq_ok_iff.mpr ⟨Nat.lt_of_lt_of_le hk h.bounded, fun j hj => ?_, shown?_of_lt hk⟩
      rw [shown?_of_lt (Nat.lt_of_le_of_lt hj hk)]
      rfl
    rw [hok, Array.getElem?_eq_getElem hk]
    rfl
  next hk => exact Array.getElem?_eq_none (Nat.not_lt.mp hk)

end Steps

section Record

/-- The addresses of the offsets a window knows, from `lo` on. -/
def addressesFrom (w : ByteWindow) (lo : Nat) : List Address :=
  (List.range' lo (w.known.size - lo)).map fun k => w.base + UInt32.ofNat k

/-- The addresses of the bytes fetched first and of those fetched later are one stretch. -/
theorem addressesFrom_append {v w : ByteWindow} {lo : Nat} (hbase : w.base = v.base)
    (hlo : lo ≤ v.known.size) (hsize : v.known.size ≤ w.known.size) :
    v.addressesFrom lo ++ w.addressesFrom v.known.size = w.addressesFrom lo := by
  have hsplit : w.known.size - lo = (v.known.size - lo) + (w.known.size - v.known.size) := by omega
  have hmid : lo + (v.known.size - lo) = v.known.size := by omega
  rw [addressesFrom, addressesFrom, addressesFrom, hsplit, ← List.range'_append_1, hmid,
    List.map_append, hbase]

/-- A program on recorded memory has the result `r`, which takes the window `w` to `v`, and it reads
with success just what `v` knows and `w` does not, once each and in order. -/
structure Grows {α : Type} (x : StateM (List Reading) α) (r : α) (w v : ByteWindow) : Prop where
  space : v.space = w.space
  base : v.base = w.base
  size_le : w.known.size ≤ v.known.size
  reads : ∀ record, ∃ record', x.run record = pure (r, record') ∧
    Reading.fetched record' = Reading.fetched record ++ v.addressesFrom w.known.size

namespace Grows

variable {α β : Type} {u v w : ByteWindow}

/-- Nothing is read where a result is at hand. -/
theorem of_pure (r : α) (hspace : v.space = w.space) (hbase : v.base = w.base)
    (hknown : v.known = w.known) : Grows (pure r) r w v := by
  have hsize : w.known.size ≤ v.known.size := Nat.le_of_eq (congrArg Array.size hknown.symm)
  refine ⟨hspace, hbase, hsize, fun record => ⟨record, rfl, ?_⟩⟩
  simp [addressesFrom, hknown]

/-- What a computation reads in two parts is the stretch of the first followed by that of the
second. -/
theorem bind {x : StateM (List Reading) α} {f : α → StateM (List Reading) β} {r : α} {s : β}
    (hx : Grows x r w v) (hf : Grows (f r) s v u) : Grows (x >>= f) s w u := by
  refine ⟨hf.space.trans hx.space, hf.base.trans hx.base, Nat.le_trans hx.size_le hf.size_le, ?_⟩
  intro record
  obtain ⟨record', hrun, hfetched⟩ := hx.reads record
  obtain ⟨record'', hrun', hfetched'⟩ := hf.reads record'
  refine ⟨record'', ?_, ?_⟩
  · rw [StateT.run_bind, hrun, pure_bind]
    exact hrun'
  · rw [hfetched', hfetched, List.append_assoc,
      addressesFrom_append hf.base hx.size_le hf.size_le]

end Grows

/-- A reading that fails adds no byte. -/
theorem grows_readRecorded_none {w : ByteWindow} {a : Address} (ha : w.space a = none) :
    Grows (w.space.readRecorded a) none w w := by
  refine ⟨rfl, rfl, Nat.le_refl _, fun record => ⟨record ++ [⟨a, none⟩], ?_, ?_⟩⟩
  · rw [AddressSpace.readRecorded, StateT.run_modifyGet, ha]
  · simp [Reading.fetched, addressesFrom]

/-- A reading that succeeds right after the known bytes adds that byte. -/
theorem grows_readRecorded_some {w : ByteWindow} {b : UInt8}
    (hb : w.space (w.base + UInt32.ofNat w.known.size) = some b) :
    Grows (w.space.readRecorded (w.base + UInt32.ofNat w.known.size)) (some b) w
      { w with known := w.known.push b } := by
  refine ⟨rfl, rfl, by rw [Array.size_push]; omega,
    fun record => ⟨record ++ [⟨w.base + UInt32.ofNat w.known.size, some b⟩], ?_, ?_⟩⟩
  · rw [AddressSpace.readRecorded, StateT.run_modifyGet, hb]
  · simp [Reading.fetched, addressesFrom]

/-- On recorded memory fetching does what it does on the window's own address space. -/
theorem grows_fetchVia (w : ByteWindow) (offset : Nat) :
    Grows (w.fetchVia w.space.readRecorded offset) (w.fetch offset) w (w.fetch offset).1 := by
  induction w using fetch_induction offset with
  | known w h =>
    rw [fetch_of_lt h, fetchVia, if_neg (Nat.not_le.mpr h)]
    exact .of_pure _ rfl rfl rfl
  | unmapped w h ha =>
    rw [fetch_of_none h ha, fetchVia, if_pos h]
    exact (grows_readRecorded_none ha).bind (.of_pure _ rfl rfl rfl)
  | fetched w b h hb ih =>
    rw [fetch_of_some h hb, fetchVia, if_pos h]
    exact (grows_readRecorded_some hb).bind ih

private theorem grows_atVia (w : ByteWindow) (offset : Nat) :
    Grows (w.atVia w.space.readRecorded offset) (w.at? offset) w (w.at? offset).2 := by
  by_cases hc : capacity ≤ offset
  · rw [at?_eq, atVia, if_pos hc, if_pos hc]
    exact .of_pure _ rfl rfl rfl
  · rw [at?_eq, atVia, if_neg hc, if_neg hc]
    refine (w.grows_fetchVia offset).bind ?_
    obtain ⟨v, _ | a⟩ := w.fetch offset
    · cases hk : v.known[offset]? <;> simp only [hk] <;> exact .of_pure _ rfl rfl rfl
    · exact .of_pure _ rfl rfl rfl

private theorem grows_nextVia (w : ByteWindow) :
    Grows (w.nextVia w.space.readRecorded) w.next w w.next.2 := by
  rw [next_eq, nextVia]
  refine (w.grows_atVia w.position).bind ?_
  obtain ⟨_ | b, v⟩ := w.at? w.position <;> exact .of_pure _ rfl rfl rfl

/-- A call gives the same with and without the record of its readings, and reads only what is new.
-/
theorem grows_performVia (w : ByteWindow) (c : Call) :
    Grows (w.performVia w.space.readRecorded c) (Id.run (w.performVia w.readOwn c)) w
      (Id.run (w.performVia w.readOwn c)).2 := by
  cases c with
  | next => exact w.grows_nextVia.bind (.of_pure _ rfl rfl rfl)
  | byteAt offset => exact (w.grows_atVia offset).bind (.of_pure _ rfl rfl rfl)
  | peek offset => exact .of_pure _ rfl rfl rfl
  | reset => exact .of_pure _ rfl rfl rfl

private theorem grows_stepVia (t : Trace) (c : Call) :
    Grows (t.stepVia t.window.space.readRecorded c) (t.step c) t.window (t.step c).window :=
  (t.window.grows_performVia c).bind (.of_pure _ rfl rfl rfl)

/-- All calls together give the same with and without the record, and no address is in it twice. -/
theorem grows_foldlM (t : Trace) (calls : List Call) :
    Grows (calls.foldlM (Trace.stepVia t.window.space.readRecorded) t)
      (calls.foldl Trace.step t) t.window (calls.foldl Trace.step t).window := by
  induction calls generalizing t with
  | nil => exact .of_pure _ rfl rfl rfl
  | cons c calls ih =>
    -- the calls that follow still read the address space of the first window
    have hc := grows_stepVia t c
    have hrest := ih (t.step c)
    rw [hc.space] at hrest
    exact hc.bind hrest

/-- No two offsets of a window have the same address. -/
theorem nodup_addressesFrom {w : ByteWindow} (h : w.known.size ≤ capacity) (lo : Nat) :
    (w.addressesFrom lo).Nodup := by
  refine List.Nodup.map_on (fun i hi j hj heq => ?_) List.nodup_range'
  have hlt : ∀ k ∈ List.range' lo (w.known.size - lo), k < UInt32.size := by
    intro k hk
    have hk := List.mem_range'_1.mp hk
    have hcapacity : capacity < UInt32.size := by decide
    omega
  have hofNat := congrArg UInt32.toNat ((UInt32.add_right_inj w.base).mp heq)
  rwa [UInt32.toNat_ofNat_of_lt' (hlt i hi), UInt32.toNat_ofNat_of_lt' (hlt j hj)] at hofNat

/-- Recorded calls do what the calls do, and their successful readings are the known offsets behind
the given bytes. -/
theorem runRecorded_primed (space : AddressSpace) (base : Address) (given : List UInt8)
    (calls : List Call) :
    let t := (primed space base given).run calls
    ((primed space base given).runRecorded calls).1 = t ∧
      Reading.fetched ((primed space base given).runRecorded calls).2 =
        t.window.addressesFrom given.length := by
  intro t
  have hbounded : t.window.known.size ≤ capacity := (serves_run space base given calls).bounded
  obtain ⟨record, hrun, hfetched⟩ := (grows_foldlM ⟨primed space base given, []⟩ calls).reads []
  have hresult : (primed space base given).runRecorded calls = (t, record) := hrun
  rw [hresult]
  refine ⟨rfl, hfetched.trans ?_⟩
  -- past the capacity nothing is behind the given bytes
  show t.window.addressesFrom (primed space base given).known.size = _
  rw [size_primed]
  by_cases hg : given.length ≤ capacity
  · rw [Nat.min_eq_right hg]
  · rw [addressesFrom, addressesFrom, Nat.sub_eq_zero_of_le (by omega),
      Nat.sub_eq_zero_of_le (by omega)]
    rfl

/-- The given bytes stand in for memory, and the byte behind them is read with success once, also
across the top of the address space, a failure and a return to the base. -/
example :
    Reading.fetched ((primed (.holding 0xFFFFFFFE [0xEE, 0xEE, 0x33]) 0xFFFFFFFE [1, 2]).runRecorded
      [.next, .byteAt 3, .reset, .next, .next, .next, .byteAt 3]).2 = [0] := by
  decide +kernel

end Record

/-- After any calls a window answers each offset by its content, and the next byte is the content
behind the bytes got since the last return to the base; the position moves on with it exactly if it
can be had. What is known already is content too. Read with success are the offsets known behind the
given bytes, in order, and no address twice. -/
theorem fetching_is_transparent (space : AddressSpace) (base : Address) (given : List UInt8)
    (calls : List Call) :
    let t := (primed space base given).run calls
    let p := nextCount t.events
    let recorded := (primed space base given).runRecorded calls
    (∀ k, (t.window.at? k).1 = content space base given k) ∧
    t.window.next.1 = content space base given p ∧
    t.window.next.2.position = (if t.window.next.1.isOk then p + 1 else p) ∧
    (∀ k, t.window.peek? k =
      if k < t.window.known.size then (content space base given k).toOption else none) ∧
    recorded.1 = t ∧
    Reading.fetched recorded.2 =
      (List.range' given.length (t.window.known.size - given.length)).map
        (fun k => base + UInt32.ofNat k) ∧
    (Reading.fetched recorded.2).Nodup := by
  intro t p recorded
  have hserves : t.Serves space base given := serves_run space base given calls
  have hnext : t.window.next.1 = content space base given p := by
    rw [t.window.next_spec.1, hserves.position, hserves.answer]
  obtain ⟨hresult, hfetched⟩ := runRecorded_primed space base given calls
  refine ⟨hserves.answer, hnext, ?_, hserves.peek?, hresult, ?_, ?_⟩
  · rw [window_next, hserves.position]
    cases t.window.next.1 <;> rfl
  · rw [hfetched, addressesFrom, hserves.view.base]
    rfl
  · rw [hfetched]
    exact nodup_addressesFrom hserves.bounded _

end ByteWindow

end DspCode
