import PerfReport.Text

/-!
# Dates

A plain scalar that spells a day, or a time of a day, stands for that and not
for its text.
-/

namespace PerfReport.Yaml.Date

/-- A number of one or two digits, and what follows it. -/
def number? : Text → Option (Nat × Text)
  | a :: b :: t =>
    if !Text.isDigit a then none
    else if Text.isDigit b then some (10 * Text.digitValue a + Text.digitValue b, t)
    else some (Text.digitValue a, b :: t)
  | [a] => if Text.isDigit a then some (Text.digitValue a, []) else none
  | [] => none

/-- A number of exactly two digits. -/
def pair? (t : Text) : Option (Nat × Text) :=
  match t with
  | a :: b :: rest =>
    if Text.isDigit a && Text.isDigit b then
      some (10 * Text.digitValue a + Text.digitValue b, rest)
    else none
  | _ => none

/-- Past one byte. -/
def past? (b : UInt8) : Text → Option Text
  | a :: t => if a = b then some t else none
  | [] => none

def isLeap (year : Nat) : Bool := year % 4 == 0 && (year % 100 != 0 || year % 400 == 0)

def monthLength (year month : Nat) : Nat :=
  if month = 2 then (if isLeap year then 29 else 28)
  else if month = 4 || month = 6 || month = 9 || month = 11 then 30
  else 31

/-- Past a day: a year of four digits, a month and a day. -/
def day? (t : Text) : Option Text := do
  let year := t.takeWhile Text.isDigit
  if year.length ≠ 4 then none
  let (month, t) ← number? (← past? 45 (t.drop 4))
  let (day, t) ← number? (← past? 45 t)
  if 1 ≤ month && month ≤ 12 && 1 ≤ day && day ≤ monthLength (Text.numeralValue year) month then
    some t
  else none

/-- Past a fraction of a second, if there is one. -/
def pastFraction : Text → Text
  | p :: d :: t =>
    if (p == 46 || p == 44) && Text.isDigit d then t.dropWhile Text.isDigit else p :: d :: t
  | t => t

/-- Past hours, minutes and seconds. -/
def time? (t : Text) : Option Text := do
  let (hour, t) ← number? t
  let (minute, t) ← number? (← past? 58 t)
  let (second, t) ← number? (← past? 58 t)
  if hour < 24 && minute < 60 && second < 60 then some (pastFraction t) else none

/-- Past the distance from universal time. -/
def zone? : Text → Option Text
  | 90 :: t => some t
  | sign :: t => do
    if sign ≠ 43 && sign ≠ 45 then none
    let (hours, t) ← pair? t
    let (minutes, t) ← pair? (← past? 58 t)
    if hours ≤ 24 && minutes ≤ 60 then some t else none
  | [] => none

/-- A day alone, a day and a time after a blank, or a day and a time with its
zone after the letter T. -/
def accepts (t : Text) : Bool :=
  match day? t with
  | none => false
  | some [] => true
  | some (c :: t) =>
    if c == 32 then time? (t.dropWhile (· == 32)) == some []
    else (c == 84 || c == 116) && (time? t).bind zone? == some []

end PerfReport.Yaml.Date
