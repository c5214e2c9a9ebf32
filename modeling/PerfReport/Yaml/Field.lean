import PerfReport.Text.Base64
import PerfReport.Yaml.Decoding
import PerfReport.Yaml.Node
import PerfReport.Yaml.Scalar

/-!
# Fields

What a field takes from a node. A null is no value: the field keeps the one it
has. A node of the wrong shape fits no field.
-/

namespace PerfReport.Yaml.Node

/-! ## Scalars -/

def mergeTag : Text := "!!merge"

/-- The mark of a pair that stands for other pairs. -/
def mergeMark : Text := "<<"

/-- What a scalar stands for, and its text; none if its tag says something
else. -/
def resolve? (t : Text) : Style → Option (Sense × Text)
  | .plain => some (Sense.ofText t, t)
  | .quoted => some (.text, t)
  | .tagged tag =>
    if tag = ("!!binary" : Text) then (Base64.decodeLines? t).map fun bytes => (.text, bytes)
    else if tag = mergeTag && t == mergeMark then some (.text, t)
    else (Sense.ofTagged? tag t).map fun s => (s, t)

def isNull : Node → Bool
  | .scalar t style => (resolve? t style).any fun r => r.1 == .null
  | _ => false

/-- Reads a scalar: `f` gives what the field takes from its sense and text,
none if that does not fit. -/
def fromScalar {α : Type} (old : α) (f : Sense → Text → Option α) : Node → Decoding α
  | .scalar t style =>
    match resolve? t style with
    | none => .fail .unreadable
    | some (.null, _) => pure old
    | some (s, t) => match f s t with
      | some a => pure a
      | none => .misfits old
  | _ => .misfits old

/-- A text field takes the spelling of any scalar. -/
def toText (old : Text) : Node → Decoding Text := fromScalar old fun _ t => some t

/-- A real number without its fraction. What is below the 64-bit range, and
its upper end itself, become the least number; what is above it fits no
field. -/
def truncated? (x : Float) : Option Int :=
  match Binary64.Value.ofFloat x with
  | .indefinite => none
  | .infinite negative => if negative then some Int64.least else none
  | .finite negative m e =>
    let size : Nat := if 0 ≤ e then m * pow2 e.toNat else m / pow2 (-e).toNat
    let n : Int := if negative then -size else size
    if Int64.least ≤ n ∧ n ≤ Int64.greatest then some n
    else if n ≤ Int64.greatest + 1 then some Int64.least
    else none

/-- A number field takes numbers only. -/
def toInt (old : Int) : Node → Decoding Int := fromScalar old fun s _ =>
  match s with
  | .whole n => if n ≤ Int64.greatest then some n else none
  | .real x => truncated? x
  | _ => none

/-- A truth field takes truth values, and the loose words for them in any
style. -/
def toBool (old : Bool) : Node → Decoding Bool := fromScalar old fun s t =>
  match s with
  | .truth b => some b
  | .text => Sense.looseTruth? t
  | _ => none

/-! ## Lists -/

/-- A value that may be null. -/
def toOptional {α : Type} (read : Node → Decoding α) (n : Node) : Decoding (Option α) :=
  if n.isNull then pure none else some <$> read n

/-- The items of a list without those that are null, in front of which the
ones `done` are, latest first. -/
def readItems {α : Type} (read : Node → Decoding α) : List Node → (done : List α) →
    Decoding (List α)
  | [], done => pure done.reverse
  | n :: items, done => do
    if n.isNull then readItems read items done
    else readItems read items ((← read n) :: done)

def toList {α : Type} (read : Node → Decoding α) : Node → Decoding (List α)
  | .sequence items => readItems read items []
  | n => fromScalar [] (fun _ _ => none) n

end PerfReport.Yaml.Node
