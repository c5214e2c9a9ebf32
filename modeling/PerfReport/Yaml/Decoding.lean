/-!
# Decoding

Reading a value from a node. A part of the node that does not fit is noted and
left out, so that the rest is still read; what cannot be read at all ends the
reading.
-/

namespace PerfReport.Yaml

/-- What ends a reading. -/
inductive Fault
  /-- Something cannot be read. -/
  | unreadable
  /-- A merge meets a key that cannot be compared with names. -/
  | mergeKey
  deriving DecidableEq

/-- A value, and whether all that was read fitted. -/
def Decoding (α : Type) : Type := Except Fault (α × Bool)

namespace Decoding

/-- The value of a reading that ended well. -/
def fits {α : Type} (a : α) : Decoding α := .ok (a, true)

/-- The value without a part that does not fit. -/
def misfits {α : Type} (a : α) : Decoding α := .ok (a, false)

def fail {α : Type} (f : Fault) : Decoding α := .error f

def andThen {α β : Type} (x : Decoding α) (f : α → Decoding β) : Decoding β :=
  match x with
  | .error e => .error e
  | .ok (a, good) =>
    match f a with
    | .error e => .error e
    | .ok (b, better) => .ok (b, good && better)

instance : Monad Decoding where
  pure := fits
  bind := andThen

/-- Only a value that all parts fitted counts. -/
def result {α : Type} : Decoding α → Except Fault α
  | .error e => .error e
  | .ok (a, good) => if good then .ok a else .error .unreadable

end Decoding

end PerfReport.Yaml
