import DspCode.AddressSpace

/-!
# Byte windows

The bytes an instruction is read from: up to 32 bytes from a base address on, fetched in order and
at most once each. The first bytes may be given, and then stand in for what the address space holds
there.
-/

namespace DspCode

/-- Why a byte of a window cannot be had. -/
inductive WindowError where
  /-- The byte, or one before it, is at an address that is not mapped. -/
  | unmapped (address : Address)
  /-- The offset lies past the end of the window. -/
  | exhausted
  deriving DecidableEq, Repr

/-- A window over an address space, with the bytes fetched so far and a reading position. -/
structure ByteWindow where
  /-- Where further bytes come from. -/
  space : AddressSpace
  /-- The address of the first byte. -/
  base : Address
  /-- The bytes known so far, from the base on. -/
  known : Array UInt8
  /-- The offset of the byte that is read next. -/
  position : Nat

namespace ByteWindow

/-- How many bytes a window can hold. -/
def capacity : Nat := 32

/-- A window in which nothing has been fetched. -/
def new (space : AddressSpace) (base : Address) : ByteWindow := ⟨space, base, #[], 0⟩

/-- A window whose first bytes are given. -/
def primed (space : AddressSpace) (base : Address) (bytes : List UInt8) : ByteWindow :=
  ⟨space, base, (bytes.take capacity).toArray, 0⟩

/-- Moves the reading position back to the base. -/
def reset (w : ByteWindow) : ByteWindow := { w with position := 0 }

/-- The byte at an offset, if it is known already. -/
def peek? (w : ByteWindow) (offset : Nat) : Option UInt8 := w.known[offset]?

section Via

variable {m : Type → Type} [Monad m] (read : Address → m (Option UInt8))

/-- Fetches bytes in order until the one at `offset` is known or an address is not mapped. -/
@[specialize] def fetchVia (w : ByteWindow) (offset : Nat) : m (ByteWindow × Option Address) :=
  if w.known.size ≤ offset then do
    let a := w.base + UInt32.ofNat w.known.size
    match ← read a with
    | none => return (w, some a)
    | some b => fetchVia { w with known := w.known.push b } offset
  else return (w, none)
  termination_by offset + 1 - w.known.size
  decreasing_by simp; omega

/-- The byte at an offset, fetched if it is not known yet. -/
@[specialize] def atVia (w : ByteWindow) (offset : Nat) :
    m (Except WindowError UInt8 × ByteWindow) :=
  if capacity ≤ offset then return (.error .exhausted, w)
  else do
    match ← w.fetchVia read offset with
    | (w, some a) => return (.error (.unmapped a), w)
    | (w, none) =>
      match w.known[offset]? with
      | some b => return (.ok b, w)
      | none => return (.error .exhausted, w)

/-- The byte at the reading position; the position moves on if it can be had. -/
@[specialize] def nextVia (w : ByteWindow) : m (Except WindowError UInt8 × ByteWindow) := do
  match ← w.atVia read w.position with
  | (.ok b, w) => return (.ok b, { w with position := w.position + 1 })
  | (.error e, w) => return (.error e, w)

end Via

/-- Reads an address in the window's own address space. -/
def readOwn (w : ByteWindow) (a : Address) : Id (Option UInt8) := pure (w.space a)

/-- Fetches bytes from the window's own address space. -/
def fetch (w : ByteWindow) (offset : Nat) : ByteWindow × Option Address :=
  Id.run (w.fetchVia w.readOwn offset)

/-- The byte at an offset, from the window's own address space. -/
def at? (w : ByteWindow) (offset : Nat) : Except WindowError UInt8 × ByteWindow :=
  Id.run (w.atVia w.readOwn offset)

/-- The byte at the reading position, from the window's own address space. -/
def next (w : ByteWindow) : Except WindowError UInt8 × ByteWindow :=
  Id.run (w.nextVia w.readOwn)

/-! ## What the operations do -/

section Fetch

variable {w : ByteWindow} {offset : Nat}

/-- A known byte is not fetched again. -/
theorem fetch_of_lt (h : offset < w.known.size) : w.fetch offset = (w, none) := by
  rw [fetch, fetchVia, if_neg (Nat.not_le.mpr h)]
  rfl

/-- Fetching stops at an address that is not mapped. -/
theorem fetch_of_none (h : w.known.size ≤ offset)
    (ha : w.space (w.base + UInt32.ofNat w.known.size) = none) :
    w.fetch offset = (w, some (w.base + UInt32.ofNat w.known.size)) := by
  have hread : w.readOwn (w.base + UInt32.ofNat w.known.size) = pure none := congrArg pure ha
  rw [fetch, fetchVia, if_pos h]
  simp only [hread]
  rfl

/-- A byte that is fetched is known from then on. -/
theorem fetch_of_some {b : UInt8} (h : w.known.size ≤ offset)
    (hb : w.space (w.base + UInt32.ofNat w.known.size) = some b) :
    w.fetch offset = ({ w with known := w.known.push b } : ByteWindow).fetch offset := by
  have hread : w.readOwn (w.base + UInt32.ofNat w.known.size) = pure (some b) :=
    congrArg pure hb
  rw [fetch, fetchVia, if_pos h]
  simp only [hread]
  rfl

/-- Induction along the bytes that are fetched up to an offset. -/
theorem fetch_induction (offset : Nat) {motive : ByteWindow → Prop}
    (known : ∀ w, offset < w.known.size → motive w)
    (unmapped : ∀ w, w.known.size ≤ offset →
      w.space (w.base + UInt32.ofNat w.known.size) = none → motive w)
    (fetched : ∀ w b, w.known.size ≤ offset →
      w.space (w.base + UInt32.ofNat w.known.size) = some b →
        motive { w with known := w.known.push b } → motive w)
    (w : ByteWindow) : motive w :=
  if h : w.known.size ≤ offset then
    match ha : w.space (w.base + UInt32.ofNat w.known.size) with
    | none => unmapped w h ha
    | some b => fetched w b h ha (fetch_induction offset known unmapped fetched _)
  else known w (Nat.not_le.mp h)
  termination_by offset + 1 - w.known.size
  decreasing_by simp; omega

/-- Reading an offset fetches up to it, unless it lies past the end of the window. -/
theorem at?_eq (w : ByteWindow) (offset : Nat) :
    w.at? offset =
      if capacity ≤ offset then (.error .exhausted, w)
      else
        match w.fetch offset with
        | (w, some a) => (.error (.unmapped a), w)
        | (w, none) =>
          match w.known[offset]? with
          | some b => (.ok b, w)
          | none => (.error .exhausted, w) := rfl

/-- The next byte is the one at the reading position. -/
theorem next_eq (w : ByteWindow) :
    w.next =
      match w.at? w.position with
      | (.ok b, w) => (.ok b, { w with position := w.position + 1 })
      | (.error e, w) => (.error e, w) := rfl

end Fetch

end ByteWindow

end DspCode
