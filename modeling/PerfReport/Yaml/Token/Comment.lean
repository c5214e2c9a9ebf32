import PerfReport.Yaml.Token

/-!
# Comments

A comment runs from a number sign to the end of its line. After a token the
rest of the line is searched for one, and after a comment the lines that
follow; the search looks ahead at most 512 characters.
-/

namespace PerfReport.Yaml

/-- How far ahead a comment is searched for. -/
def commentReach : Nat := 512

/-- Takes one byte in the document. -/
def isNarrow (c : Char) : Bool := c.toNat < 0x80

/-- Looks for a number sign from the place that is `ahead` characters ahead.
Blanks are passed over, and line ends if `overLines`; a line end of several
bytes is the last thing looked at. Gives the place of the sign. -/
def findComment (overLines : Bool) (rest : List Char) :
    (ahead : Nat) → List Char → Reader → Option (Option Nat × Reader)
  | ahead, [], r => do
    if commentReach ≤ ahead then return (none, r)
    return (none, ← r.need (ahead + 1) rest)
  | ahead, c :: cs, r => do
    if commentReach ≤ ahead then return (none, r)
    let r ← r.need (ahead + 1) rest
    if isBlank c then findComment overLines rest (ahead + 1) cs r
    else if overLines && isBreak c then
      if isNarrow c then findComment overLines rest (ahead + 1) cs r
      else if commentReach ≤ ahead + 1 then return (none, r)
      else return (none, ← r.need (ahead + 2) rest)
    else return (if c == '#' then some ahead else none, r)

/-- Past a comment that starts at the index `start`, to the end of its line. -/
def pastComment (start : Nat) : List Char → Reader → Option Source
  | [], r => do return ⟨[], ← r.need 1 []⟩
  | '\r' :: '\n' :: cs, r => do
    let r ← r.need 1 ('\r' :: '\n' :: cs)
    if start ≤ r.mark.index then return ⟨'\r' :: '\n' :: cs, r⟩
    let r ← r.need 2 ('\r' :: '\n' :: cs)
    pastComment start cs (r.pastBreak 2)
  | c :: cs, r => do
    let r ← r.need 1 (c :: cs)
    if !isBreak c then pastComment start cs (r.past c)
    else if start ≤ r.mark.index then return ⟨c :: cs, r⟩
    else
      let r ← r.need 2 (c :: cs)
      pastComment start cs (r.pastBreak 1)

namespace Source

/-- Past the comment that `findComment` finds from the place `ahead`, and
whether there was one. -/
def pastNextComment (overLines : Bool) (ahead : Nat) (s : Source) : Option (Bool × Source) := do
  let (found, r) ← findComment overLines s.rest ahead (s.rest.drop ahead) s.reader
  match found with
  | none => return (false, { s with reader := r })
  | some k => return (true, ← pastComment (r.mark.index + k) s.rest r)

/-- Past a comment on the line of the last token. -/
def pastLineComment (s : Source) : Option Source :=
  if 0 < s.reader.newlines then some s else (s.pastNextComment false 0).map Prod.snd

/-- A line end of several bytes comes next. -/
def atWideBreak (s : Source) : Bool := s.rest.head?.any fun c => isBreak c && !isNarrow c

/-- Past the comments on the next lines, behind the end of this one. -/
def pastMoreComments : (fuel : Nat) → Source → Option Source
  | 0, _ => none
  | fuel + 1, s =>
    if s.atWideBreak then s.need 2
    else do
      let (found, s) ← s.pastNextComment true 1
      if found then pastMoreComments fuel s else return s

/-- Past the comment here and those on the lines that follow, in a document of
`size` characters. -/
def pastComments (size : Nat) (s : Source) : Option Source := do
  let (_, s) ← s.pastNextComment true 0
  s.pastMoreComments (size + 1)

end Source

end PerfReport.Yaml
