import PerfReport.Aggregate

/-!
# Reading a log

A log is a sequence of physical lines, each ended by a newline; a carriage
return before the newline is no part of the line. Every line that is not
blank is one record. A line longer than the buffer ends the reading.
-/

namespace PerfReport

/-- The longest line that fits the buffer next to its newline. -/
def lineRoom : Nat := 1048575

/-- The lines of a text as far as they fit; `overlong` when one follows that
does not. -/
structure Lines where
  complete : List Text
  overlong : Bool

/-- A line from its bytes, latest first. -/
def finishLine : Text → Text
  | 13 :: bytes => bytes.reverse
  | bytes => bytes.reverse

/-- The lines of a text: `room` is left for the `current` line, and `done`
lines are before it; both are latest first. -/
def linesFrom : Text → (room : Nat) → (current : Text) → (done : List Text) → Lines
  | [], _, current, done =>
    ⟨(if current.isEmpty then done else finishLine current :: done).reverse, false⟩
  | b :: t, room, current, done =>
    if b = 10 then linesFrom t lineRoom [] (finishLine current :: done)
    else match room with
      | 0 => ⟨done.reverse, true⟩
      | room + 1 => linesFrom t room (b :: current) done

def Text.lines (t : Text) : Lines := linesFrom t lineRoom [] []

/-- Where a reading ended. -/
structure Reading where
  aggregate : Aggregate Float
  added : Nat
  error : Option Error

namespace Aggregate

/-- Ingests the lines in order: `read` lines were seen before and `added`
records accepted. A positive `limit` ends the reading after that many. -/
def readLines (limit : Int) (overlong : Bool) :
    (agg : Aggregate Float) → (read added : Nat) → List Text → Reading
  | agg, read, added, [] =>
    ⟨agg, added, if overlong then some (.lineTooLong (read + 1)) else none⟩
  | agg, read, added, line :: rest =>
    if line.isBlankText then readLines limit overlong agg (read + 1) added rest
    else match agg.ingest line with
      | .error e => ⟨agg, added, some (.format { e with line := read + 1 })⟩
      | .ok agg =>
        if 0 < limit ∧ limit ≤ (added + 1 : Nat) then ⟨agg, added + 1, none⟩
        else readLines limit overlong agg (read + 1) (added + 1) rest

def readFrom (agg : Aggregate Float) (text : Text) (limit : Int) : Reading :=
  let lines := text.lines
  readLines limit lines.overlong agg 0 0 lines.complete

end Aggregate

end PerfReport
