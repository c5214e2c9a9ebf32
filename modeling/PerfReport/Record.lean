import PerfReport.Error
import PerfReport.Number.Arith
import PerfReport.Text.Blank

/-!
# Records

One line of a log: as many fields as there are columns, every one a number.
A whole line is read before anything is done with it, so a record is never
half applied.
-/

namespace PerfReport

abbrev Record := List Float

/-- The fields of a line that has to have `arity` of them. -/
def splitRecord (line : Text) (arity : Int) : Except FormatError (List Text) :=
  let tokens := line.fields
  if (tokens.length : Int) = arity then .ok tokens
  else .error (.fieldCount arity tokens.length)

/-- Reads tokens from the left; `index` is the number of those before. -/
def readTokens {α : Type} (read? : Text → Option α) (kind : NumericKind) :
    (index : Nat) → (done : List α) → List Text → Except FormatError (List α)
  | _, done, [] => .ok done.reverse
  | i, done, t :: ts =>
    match read? t with
    | some x => readTokens read? kind (i + 1) (x :: done) ts
    | none => .error (.badToken i t kind)

/-- A record of whole numbers, each exact. -/
def parseIntegers (line : Text) (arity : Int) : Except FormatError (List Int64) := do
  readTokens Int64.ofText? .integer 0 [] (← splitRecord line arity)

/-- The double that a field of a column of this kind stands for. -/
def readField? (kind : NumericKind) (token : Text) : Option Float :=
  if kind = .integer then (Int64.ofText? token).map Double.ofWhole
  else RealLiteral.ofText? token

def parseRecord (line : Text) (arity : Int) (kind : NumericKind) : Except FormatError Record := do
  readTokens (readField? kind) kind 0 [] (← splitRecord line arity)

end PerfReport
