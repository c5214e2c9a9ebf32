import PerfReport.Snapshot.Encode

/-!
# Reading snapshots

The inverse of writing, for bytes of any origin. A length that cannot fit the
bytes that are left is refused before room is set aside for it. A read that
fails does not end the reading at once: the tables that are still due are set
aside first, unchecked.
-/

namespace PerfReport.Snapshot

/-- What is still unread, and the sizes of the tables set aside so far, latest
first. -/
structure Cursor where
  rest : Text
  reserved : List Nat := []
  /-- Sizes of the tables still to come, as far as they are known, latest first.
  What was not read counts as zero. -/
  due : List Nat := []

abbrev Decoder := EStateM SnapshotError Cursor

/-- The first `n` bytes and the rest; `done` bytes are before, latest first. -/
def splitBytes : (n : Nat) → Text → (done : Text) → Option (Text × Text)
  | 0, t, done => some (done.reverse, t)
  | n + 1, b :: t, done => splitBytes n t (b :: done)
  | _ + 1, [], _ => none

/-- The end of a read that found too few bytes. -/
def cutOff {α : Type} : Decoder α := fun c =>
  .error .truncated { c with reserved := c.due ++ c.reserved, due := [] }

def takeBytes (n : Nat) : Decoder Text := fun c =>
  match splitBytes n c.rest [] with
  | some (taken, rest) => .ok taken { c with rest := rest }
  | none => cutOff c

def getByte : Decoder UInt8 := fun c =>
  match c.rest with
  | b :: rest => .ok b { c with rest := rest }
  | [] => cutOff c

def getU32 : Decoder Nat := do return Word.littleValue (← takeBytes 4)

def getU64 : Decoder UInt64 := do return UInt64.ofNat (Word.littleValue (← takeBytes 8))

def getText : Decoder Text := do takeBytes (← getU32)

/-- From here on, a read that fails sets these tables aside. -/
def expect (due : List Nat) : Decoder Unit := fun c => .ok () { c with due := due }

/-- Sets aside a table of `count` items of at least `size` bytes each. -/
def reserve (count size : Nat) : Decoder Unit := fun c =>
  if c.rest.length < count * size then .error .truncated c
  else .ok () { c with reserved := count :: c.reserved }

/-- `count` items in order; `done` are before, latest first. -/
def getMany {α : Type} (item : Decoder α) : (count : Nat) → (done : List α) → Decoder (List α)
  | 0, done => return done.reverse
  | n + 1, done => do getMany item n ((← item) :: done)

def getVersion : Decoder UInt8 := do
  let v ← getByte
  if v = version ∨ v = oldVersion then return v else throw (.version v)

/-- What stands before the aggregate. -/
structure Heading where
  version : UInt8
  id : UInt64
  created : UInt64
  layout : Text
  title : Text
  sources : List Text

def getHeading : Decoder Heading := do
  expect [0, 0]
  let v ← getVersion
  let id ← getU64
  let created ← getU64
  let layout ← getText
  let title ← getText
  let count ← getU32
  reserve count 1
  expect [0]
  let sources ← getMany getText count []
  return ⟨v, id, created, layout, title, sources⟩

/-- Bytes of one column. -/
def columnSize (v : UInt8) : Nat := if v = oldVersion then 48 else 56

variable {α : Type} [Carrier α]

def getFloat : Decoder α := do return Carrier.ofBits (← getU64)

/-- A column of the old version gets the truncated sum as its exact sum. -/
def getExact (v : UInt8) (sum : α) : Decoder Int64 :=
  if v = oldVersion then return Double.truncate (Carrier.toBits sum)
  else return (← getU64).toInt64

def getColumn (v : UInt8) : Decoder (ColumnState α) := do
  let sum ← getFloat
  let max ← getFloat
  let min ← getFloat
  let count ← getU64
  let mean ← getFloat
  let m2 ← getFloat
  let exact ← getExact v sum
  return ⟨⟨sum, max, min⟩, ⟨count, mean, m2⟩, exact⟩

def getAggregate (v : UInt8) : Decoder (Aggregate α) := do
  let arity ← getU32
  expect [arity]
  let kind ← getByte
  let floor ← getByte
  let rows ← getU64
  reserve arity (columnSize v)
  expect []
  let states ← getMany (getColumn v) arity []
  return .restore ⟨kind.toNat⟩ (floor == 1) rows states

def getSnapshot : Decoder (Snapshot α) := do
  let h ← getHeading
  let agg ← getAggregate h.version
  return ⟨h.id, h.created.toInt64, h.layout, h.title, h.sources, agg⟩

/-- Nothing may follow. -/
def getEnd : Decoder Unit := fun c =>
  if c.rest.isEmpty then .ok () c else .error (.trailing c.rest.length) c

def decode (bytes : Text) : Except SnapshotError (Snapshot α) :=
  match (do let s ← getSnapshot; getEnd; return s : Decoder (Snapshot α)) { rest := bytes } with
  | .ok s _ => .ok s
  | .error e _ => .error e

end PerfReport.Snapshot
