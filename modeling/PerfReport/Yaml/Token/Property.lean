import PerfReport.Yaml.Token
import PerfReport.Yaml.Token.Flow

/-!
# Properties and directives

What is said about a node in front of it, its tag and its name, and what is
said about a document in front of it: the version of the format, and short
forms for the tags in it.
-/

namespace PerfReport.Yaml

/-! ## Names -/

/-- A name may be followed by one of these. -/
def endsName (rest : List Char) : Bool :=
  atGap rest || (rest.head?.any fun c => ['?', ':', ',', ']', '\x7d', '%', '@', '\x60'].contains c)

/-- The name behind its indicator. -/
def nodeName (s : Source) : Option (Text × Source) := do
  let (name, s) ← s.skip.takeWhile isWordChar
  if name.isEmpty || !endsName s.rest then none else some (textOf name, s)

/-! ## Tags -/

/-- The bytes of a character that are spelled as escapes: how many, and all of
them but the first continue it. -/
def isEscapedChar : Text → Bool
  | [] => false
  | a :: rest =>
    let width :=
      if a < 0x80 then 1 else if 0xC0 ≤ a && a ≤ 0xDF then 2
      else if 0xE0 ≤ a && a ≤ 0xEF then 3 else if 0xF0 ≤ a && a ≤ 0xF7 then 4 else 0
    rest.length + 1 == width && rest.all fun b => 0x80 ≤ b && b ≤ 0xBF

/-- Reads an address on; `octets` are those of an escaped character under
way, latest first. -/
def addressFrom : List Char → Reader → (octets : Text) → (text : Text) → Option (Text × Source)
  | '%' :: a :: b :: cs, r, octets, text => do
    let r ← r.need 3 ('%' :: a :: b :: cs)
    let octet := UInt8.ofNat (16 * (← hexDigit? a) + (← hexDigit? b))
    let octets := octet :: octets
    let r := r.pastAll ['%', a, b]
    if isEscapedChar octets.reverse then
      addressFrom cs (← r.need 1 cs) [] (octets ++ text)
    else if octets.length < 4 then addressFrom cs r octets text
    else none
  | c :: cs, r, octets, text =>
    if !octets.isEmpty || c == '%' then none
    else if isAddressChar c then do
      addressFrom cs (← (r.past c).need 1 cs) [] (UInt8.ofNat c.toNat :: text)
    else some (text.reverse, ⟨c :: cs, r⟩)
  | [], r, octets, text => if octets.isEmpty then some (text.reverse, ⟨[], r⟩) else none

/-- An address behind what was already read of it. -/
def address (head : Text) (s : Source) : Option (Text × Source) := do
  let s ← s.need 1
  let (text, s) ← addressFrom s.rest s.reader [] (head.drop 1).reverse
  if head.isEmpty && text.isEmpty then none else some (text, s)

/-- The start of a tag up to a second exclamation mark, if there is one. -/
def handle (s : Source) : Option (Text × Source) := do
  let s ← s.need 1
  if s.rest.head? != some '!' then none
  let (name, s) ← s.skip.takeWhile isWordChar
  if s.rest.head? == some '!' then
    return (textOf ('!' :: name ++ ['!']), s.skip)
  else return (textOf ('!' :: name), s)

/-- The text is a handle and not the start of an address. -/
def isHandle (t : Text) : Bool := 1 < t.length && t.getLast? == some 33

/-- A tag in one of its forms: an address between angle brackets, or an
address behind a handle. -/
def readTag (s : Source) : Option (Token × Source) := do
  let s ← s.need 2
  let (tag, s) ← match s.rest with
    | '!' :: '<' :: _ => do
      let (suffix, s) ← address [] (s.skipMany 2)
      if s.rest.head? != some '>' then none
      pure (Token.tag [] suffix, s.skip)
    | _ => do
      let (start, s) ← handle s
      if isHandle start then
        let (suffix, s) ← address [] s
        pure (Token.tag start suffix, s)
      else
        let (suffix, s) ← address start s
        pure (if suffix.isEmpty then Token.tag [] start else Token.tag "!" suffix, s)
  let s ← s.need 1
  if atGap s.rest then some (tag, s) else none

/-! ## Directives -/

/-- A number of one or two digits. -/
def versionNumber (s : Source) : Option (Nat × Source) := do
  let (digits, s) ← s.takeWhile Char.isDigit
  if digits.isEmpty || 2 < digits.length then none
  else some (digits.foldl (fun n c => 10 * n + (c.toNat - 48)) 0, s)

def versionDirective (s : Source) : Option (Token × Source) := do
  let s ← s.skipWhile isBlank
  let (major, s) ← versionNumber s
  if s.rest.head? != some '.' then none
  let (minor, s) ← versionNumber s.skip
  return (.version major minor, s)

def tagDirective (s : Source) : Option (Token × Source) := do
  let s ← s.skipWhile isBlank
  let (start, s) ← handle s
  if !isHandle start && start != ("!" : Text) then none
  let s ← s.need 1
  if !(s.rest.head?.any isBlank) then none
  let s ← s.skipWhile isBlank
  let (tagStart, s) ← address [] s
  let s ← s.need 1
  if atGap s.rest then some (.tagHandle start tagStart, s) else none

/-- A directive with the rest of its line. -/
def directive (s : Source) : Option (Token × Source) := do
  let (name, s) ← s.skip.takeWhile isWordChar
  if name.isEmpty || !atGap s.rest then none
  let (token, s) ←
    if name == "YAML".toList then versionDirective s
    else if name == "TAG".toList then tagDirective s
    else none
  let s ← s.skipWhile isBlank
  let s ← if s.rest.head? == some '#' then s.skipWhile (!isBreak ·) else some s
  if !atLineEnd s.rest then none
  return (token, ← s.pastLine)

end PerfReport.Yaml
