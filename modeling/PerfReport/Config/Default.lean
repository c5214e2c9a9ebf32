import PerfReport.Config

/-!
# The default configuration

Layouts for logs with two timing columns and, for each type of object, the
bytes it holds and those that were consumed.
-/

namespace PerfReport.Config

/-- A type of object in both reports. -/
structure Counter where
  /-- Its name in the pair report. -/
  pair : String
  /-- Its name in the summary. -/
  summary : String

def counters : List Counter :=
  [⟨"conses", "conses"⟩, ⟨"except", "exceptions"⟩, ⟨"functions", "functions"⟩,
    ⟨"streams", "streams"⟩, ⟨"symbols", "symbols"⟩, ⟨"vectors", "vectors"⟩]

/-- The columns of the counter at an index. -/
def leftColumn (index : Nat) : Int := 2 + 2 * index

def rightColumn (index : Nat) : Int := 3 + 2 * index

def timeGroup : Group where
  label := "time"
  left := 0
  right := 1
  leftLabel := "time(system)"
  rightLabel := "time(process)"

def pairGroup (c : Counter) (index : Nat) : Group where
  label := c.pair
  left := leftColumn index
  right := rightColumn index
  leftLabel := c.pair ++ "(bytes)"
  rightLabel := c.pair ++ "(consumed)"

def summaryGroup (c : Counter) (index : Nat) : Group where
  label := c.summary
  left := leftColumn index
  right := rightColumn index

def meanName : Text := "mean"

def summaryName : Text := "summary"

def meanLayout : Layout where
  arity := 14
  numeric := "float"
  division := Layout.exactDivision
  groups := timeGroup :: counters.zipIdx.map fun (c, i) => pairGroup c i

def summaryLayout : Layout where
  arity := 14
  numeric := "integer"
  records := 1
  summary := true
  total := true
  titleWidth := 10
  groups := counters.zipIdx.map fun (c, i) => summaryGroup c i

def standard : Config where
  layouts := (Layouts.empty.insert meanName (some meanLayout)).insert summaryName
    (some summaryLayout)
  archive := { cache := true }

end PerfReport.Config
