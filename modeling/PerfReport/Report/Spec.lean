import PerfReport.Error

/-!
# Report specifications

How aggregated columns are laid out. A pair report has one line for every
group of two columns; a summary is a single line that starts with a title.
-/

namespace PerfReport

/-- Two columns under one label, or under a label each. -/
structure Group where
  label : Text := []
  left : Int := 0
  right : Int := 0
  leftLabel : Text := []
  rightLabel : Text := []
  deriving DecidableEq

namespace Group

def shownLeft (g : Group) : Text := if g.leftLabel.isEmpty then g.label else g.leftLabel

def shownRight (g : Group) : Text := if g.rightLabel.isEmpty then g.label else g.rightLabel

end Group

/-- Which values a report shows. -/
structure Mode where
  code : Int
  deriving DecidableEq

namespace Mode

/-- The means. -/
def averaged : Mode := ⟨0⟩

/-- The totals. -/
def raw : Mode := ⟨1⟩

def name (mode : Mode) : Text :=
  if mode = averaged then "averaged"
  else if mode = raw then "raw"
  else "Mode(" ++ Text.ofInt mode.code ++ ")"

end Mode

structure ReportSpec where
  groups : List Group
  summary : Bool := false
  title : Text := []
  /-- A summary ends with the grand total. -/
  total : Bool := false
  titleWidth : Int := 0
  labelWidth : Int := 0
  valueWidth : Int := 0
  /-- Decimals of an average. -/
  precision : Option Int := none
  deriving DecidableEq

namespace ReportSpec

/-- A width that is not positive asks for the default. -/
def widthOr (default width : Int) : Int := if 0 < width then width else default

def titleColumn (spec : ReportSpec) : Int := widthOr 10 spec.titleWidth

def labelColumn (spec : ReportSpec) : Int := widthOr 20 spec.labelWidth

def valueColumn (spec : ReportSpec) : Int := widthOr 10 spec.valueWidth

def decimals (spec : ReportSpec) : Int := spec.precision.getD 2

/-! ## Validation -/

/-- A summary shows the group's own label, a pair may label its sides. -/
def lacksLabel (summary : Bool) (g : Group) : Bool :=
  g.label.isEmpty && (summary || g.leftLabel.isEmpty || g.rightLabel.isEmpty)

def inRange (column arity : Int) : Bool := 0 ≤ column && column < arity

def checkGroup (summary : Bool) (arity : Int) (index : Nat) (g : Group) : Except SpecError Unit :=
  if lacksLabel summary g then .error (.noLabel index)
  else if !inRange g.left arity then .error (.leftOutOfRange g.label g.left arity)
  else if !inRange g.right arity then .error (.rightOutOfRange g.label g.right arity)
  else .ok ()

/-- Checks the groups in order; `index` of them are before. -/
def checkGroups (summary : Bool) (arity : Int) : (index : Nat) → List Group → Except SpecError Unit
  | _, [] => .ok ()
  | i, g :: gs => do
    checkGroup summary arity i g
    checkGroups summary arity (i + 1) gs

/-- Every group is labelled and refers to columns that exist. -/
def validate (spec : ReportSpec) (arity : Int) : Except SpecError Unit :=
  if spec.groups.isEmpty then .error .noGroups
  else match spec.precision with
    | some p =>
      if p < 0 then .error (.negativePrecision p)
      else checkGroups spec.summary arity 0 spec.groups
    | none => checkGroups spec.summary arity 0 spec.groups

end ReportSpec

end PerfReport
