import PerfReport.Number.Literal

/-!
# Whole numbers of a document

Decimal, or in base two, eight or sixteen after a mark; a leading zero alone
also marks base eight. Underscores have no meaning.
-/

namespace PerfReport.Yaml.Whole

def digitIn? (base : Nat) (b : UInt8) : Option Nat :=
  if RealLiteral.isHexDigit b && RealLiteral.hexValue b < base then some (RealLiteral.hexValue b)
  else none

/-- One digit more, unless the number is out of range already. -/
def grow (base n d : Nat) : Nat := if n < pow2 64 then base * n + d else n

/-- The value of a run of digits, which may be empty. -/
def valueIn? (base : Nat) (t : Text) : Option Nat :=
  t.foldlM (fun n b => (digitIn? base b).map (grow base n)) 0

/-- The value of a numeral whose base is marked in front. -/
def magnitude? : Text → Option Nat
  | [] => none
  | 48 :: m :: d :: t =>
    let mark := Text.lower m
    if mark = 98 then valueIn? 2 (d :: t)
    else if mark = 111 then valueIn? 8 (d :: t)
    else if mark = 120 then valueIn? 16 (d :: t)
    else valueIn? 8 (m :: d :: t)
  | 48 :: t => valueIn? 8 t
  | t => valueIn? 10 t

/-- A signed number has 64 bits with its sign, one without a sign has 64 bits
for its value. -/
def inRange? (signed negative : Bool) (n : Nat) : Option Int :=
  let value : Int := if negative then -n else n
  if Int64.least ≤ value ∧ value ≤ Int64.greatest then some value
  else if !signed && n < pow2 64 then some value
  else none

def signed? (magnitude? : Text → Option Nat) (t : Text) : Option Int :=
  let (negative, body) := takeSign t
  (magnitude? body).bind (inRange? (body.length < t.length) negative)

def nonempty? (base : Nat) (t : Text) : Option Nat := if t.isEmpty then none else valueIn? base t

/-- Behind a mark for base two or eight a number may have a sign of its own;
one in front of the mark can only be a minus. -/
def marked? (t : Text) : Option Int :=
  match t with
  | 48 :: 98 :: t => signed? (nonempty? 2) t
  | 48 :: 111 :: t => signed? (nonempty? 8) t
  | 45 :: 48 :: 98 :: t => signed? (nonempty? 2) (45 :: t)
  | 45 :: 48 :: 111 :: t => signed? (nonempty? 8) (45 :: t)
  | _ => none

def ofText? (t : Text) : Option Int := signed? magnitude? t

end PerfReport.Yaml.Whole
