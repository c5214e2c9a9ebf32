import PerfReport.Yaml.Scalar.Date
import PerfReport.Yaml.Scalar.Whole

/-!
# The sense of plain scalars

A scalar without quotes stands for nothing, a truth value, a number or a date
if it is spelled like one, and for its text otherwise.
-/

namespace PerfReport.Yaml

inductive Sense
  | null
  | truth (value : Bool)
  | whole (value : Int)
  | real (value : Float)
  | date
  | text
  deriving DecidableEq

namespace Sense

def isOneOf (t : Text) (words : List String) : Bool := words.any fun w => t == Text.ofString w

/-! ## Words -/

def isNull (t : Text) : Bool := isOneOf t ["", "~", "null", "Null", "NULL"]

def word? (t : Text) : Option Sense :=
  if isNull t then some .null
  else if isOneOf t ["true", "True", "TRUE"] then some (.truth true)
  else if isOneOf t ["false", "False", "FALSE"] then some (.truth false)
  else if isOneOf t [".nan", ".NaN", ".NAN"] then some (.real Binary64.nan)
  else if isOneOf t [".inf", ".Inf", ".INF", "+.inf", "+.Inf", "+.INF"] then
    some (.real (Binary64.infinity false))
  else if isOneOf t ["-.inf", "-.Inf", "-.INF"] then some (.real (Binary64.infinity true))
  else none

/-- Words that stand for truth values only where one is expected. -/
def looseTruth? (t : Text) : Option Bool :=
  if isOneOf t ["y", "Y", "yes", "Yes", "YES", "on", "On", "ON"] then some true
  else if isOneOf t ["n", "N", "no", "No", "NO", "off", "Off", "OFF"] then some false
  else none

/-! ## Numbers -/

def isExponent : Text → Bool
  | [] => true
  | e :: t =>
    let digits := (takeSign t).2
    Text.lower e == 101 && !digits.isEmpty && digits.all Text.isDigit

/-- A decimal numeral with an optional fraction and exponent. -/
def isDecimal (t : Text) : Bool :=
  let body := (takeSign t).2
  let whole := body.takeWhile Text.isDigit
  match body.dropWhile Text.isDigit with
  | 46 :: rest =>
    let fraction := rest.takeWhile Text.isDigit
    !(whole.isEmpty && fraction.isEmpty) && isExponent (rest.dropWhile Text.isDigit)
  | rest => !whole.isEmpty && isExponent rest

def decimal? (t : Text) : Option Float := if isDecimal t then RealLiteral.ofText? t else none

/-- The sense of a scalar that starts with a sign or a digit. -/
def ofNumeral (t : Text) : Sense :=
  if Date.accepts t then .date
  else
    let bare := t.filter (· != 95)
    match Whole.ofText? bare with
    | some n => .whole n
    | none => match decimal? bare with
      | some x => .real x
      | none => match Whole.marked? bare with
        | some n => .whole n
        | none => .text

def ofText (t : Text) : Sense :=
  match word? t with
  | some s => s
  | none => match t with
    | b :: _ =>
      if Text.isDigit b || b == 43 || b == 45 then ofNumeral t
      else if b == 46 then
        match RealLiteral.ofText? t with
        | some x => .real x
        | none => .text
      else .text
    | [] => .text

/-! ## Tags -/

/-- The tag of what a scalar stands for. -/
def tag : Sense → Text
  | .null => "!!null"
  | .truth _ => "!!bool"
  | .whole _ => "!!int"
  | .real _ => "!!float"
  | .date => "!!timestamp"
  | .text => "!!str"

/-- The sense of a scalar with a tag. It has to be what the tag says, except
that a whole number may stand for a real one. -/
def ofTagged? (tag t : Text) : Option Sense :=
  let s := ofText t
  if tag = s.tag then some s
  else match s with
    | .whole n =>
      if tag = ("!!float" : Text) && n ≤ Int64.greatest then
        (Binary64.nearest? (n < 0) n.natAbs 1).map .real
      else none
    | _ => none

end Sense

end PerfReport.Yaml
