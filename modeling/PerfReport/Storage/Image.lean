import PerfReport.Storage.Keyed

/-!
# Store images

A store as one text, to be kept in a file: every key and every value behind
its length in four bytes.
-/

namespace PerfReport.KeyedStore

def imageField (t : Text) : Text := Word.little 4 t.length ++ t

def toImage (s : KeyedStore) : Text :=
  s.entries.flatMap fun (key, value) => imageField key ++ imageField value

def takeField? (t : Text) : Option (Text × Text) :=
  let n := Word.littleValue (t.take 4)
  let rest := t.drop 4
  if t.length < 4 || rest.length < n then none else some (rest.take n, rest.drop n)

/-- At most `fuel` entries. -/
def entriesOfImage? : (fuel : Nat) → Text → Option (List (Text × Text))
  | 0, t => if t.isEmpty then some [] else none
  | fuel + 1, t =>
    if t.isEmpty then some []
    else do
      let (key, t) ← takeField? t
      let (value, t) ← takeField? t
      return (key, value) :: (← entriesOfImage? fuel t)

def ofImage? (t : Text) : Option KeyedStore := do
  return { durable := true, entries := ← entriesOfImage? t.length t }

end PerfReport.KeyedStore
