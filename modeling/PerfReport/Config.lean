import PerfReport.Aggregate
import PerfReport.Report.Spec

/-!
# Configuration

The layouts of the reports and where runs are archived. A layout says how many
columns a record has, what they hold, how many records are read, and how the
result is laid out.
-/

namespace PerfReport

structure Layout where
  arity : Int := 0
  /-- The name of a numeric kind. -/
  numeric : Text := []
  /-- How means are rounded: exactly unless it says otherwise. -/
  division : Text := []
  /-- How many records are read; zero for all. -/
  records : Int := 0
  summary : Bool := false
  total : Bool := false
  titleWidth : Int := 0
  labelWidth : Int := 0
  valueWidth : Int := 0
  precision : Option Int := none
  groups : List Group := []
  deriving DecidableEq

namespace Layout

def exactDivision : Text := "exact"

def floorDivision : Text := "floor"

/-- An unknown name counts as real numbers. -/
def kind (l : Layout) : NumericKind := (NumericKind.ofName? l.numeric).getD .float

def spec (l : Layout) (title : Text) : ReportSpec where
  groups := l.groups
  summary := l.summary
  title := title
  total := l.total
  titleWidth := l.titleWidth
  labelWidth := l.labelWidth
  valueWidth := l.valueWidth
  precision := l.precision

/-- An empty aggregate of this shape. -/
def newAggregate (l : Layout) : Aggregate Float :=
  (Aggregate.fresh l.arity.toNat l.kind).setFloor (l.division == floorDivision)

/-- There is no aggregate of a layout with a negative arity. -/
def newAggregate? (l : Layout) : Option (Aggregate Float) :=
  if l.arity < 0 then none else some l.newAggregate

def validate (l : Layout) : Except LayoutError Unit := do
  if l.arity ≤ 0 then throw (.arity l.arity)
  if (NumericKind.ofName? l.numeric).isNone then throw (.numeric l.numeric)
  if !(l.division.isEmpty || l.division == exactDivision || l.division == floorDivision) then
    throw (.division l.division)
  if l.records < 0 then throw .negativeRecords
  ((l.spec []).validate l.arity).mapError LayoutError.spec

end Layout

/-- Layouts by name. A name may stand for no layout. -/
structure Layouts where
  entries : List (Text × Option Layout)
  nodup : (entries.map Prod.fst).Nodup

namespace Layouts

def empty : Layouts := ⟨[], List.nodup_nil⟩

/-- Puts a layout behind all others, over an older one of the same name. -/
def insert (ls : Layouts) (name : Text) (l : Option Layout) : Layouts where
  entries := ls.entries.filter (fun e => e.1 != name) ++ [(name, l)]
  nodup := by
    rw [List.map_append, List.nodup_append]
    refine ⟨(List.filter_sublist.map Prod.fst).nodup ls.nodup, by simp, ?_⟩
    intro a ha b hb
    obtain ⟨e, he, rfl⟩ := List.mem_map.1 ha
    have hne := (List.mem_filter.1 he).2
    simp only [List.map_cons, List.map_nil, List.mem_singleton] at hb
    subst hb
    simpa using hne

def find? (ls : Layouts) (name : Text) : Option Layout := (ls.entries.lookup name).join

end Layouts

/-- Where runs are kept; no path keeps none. -/
structure ArchiveSettings where
  path : Text := []
  cache : Bool := false
  deriving DecidableEq

structure Config where
  layouts : Layouts := .empty
  archive : ArchiveSettings := {}

namespace Config

def checkEntry (e : Text × Option Layout) : Except ConfigError Unit :=
  match e.2 with
  | none => .error (.emptyLayout e.1)
  | some l => l.validate.mapError (.layout e.1)

/-- There is a layout, and all of them are sound. -/
def validate (c : Config) : Except ConfigError Unit :=
  if c.layouts.entries.isEmpty then .error .noLayouts
  else c.layouts.entries.forM checkEntry

def layout (c : Config) (name : Text) : Except Error Layout :=
  match c.layouts.find? name with
  | some l => .ok l
  | none => .error (.noLayout name)

end Config

end PerfReport
