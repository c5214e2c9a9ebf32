import PerfReport.Text.Quoted

/-!
# Numeric kinds

A column holds real or whole numbers. Archived runs may carry a code that
names neither; such a kind behaves like the real numbers and is shown by its
code.
-/

namespace PerfReport

structure NumericKind where
  code : Int
  deriving DecidableEq

namespace NumericKind

def float : NumericKind := ⟨0⟩

def integer : NumericKind := ⟨1⟩

def name (kind : NumericKind) : Text :=
  if kind = float then "float"
  else if kind = integer then "integer"
  else "NumericKind(" ++ Text.ofInt kind.code ++ ")"

/-- The kind that a layout asks for; no name asks for real numbers. -/
def ofName? (name : Text) : Option NumericKind :=
  if name = [] ∨ name = ("float" : Text) then some float
  else if name = ("integer" : Text) ∨ name = ("int" : Text) then some integer
  else none

end NumericKind

end PerfReport
