import PerfReport.Word

/-!
# Run keys

A run is stored under the letter `r` and its id, highest byte first, so that
keys sort in run order.
-/

namespace PerfReport.Key

def runMark : UInt8 := 114

def ofRun (id : UInt64) : Text := runMark :: Word.big 8 id.toNat

def isRun (key : Text) : Bool := key.length == 9 && key.head? == some runMark

/-- The id that the eight bytes after the first one spell, if there are as
many. -/
def runId? (key : Text) : Option UInt64 :=
  if key.length < 9 then none
  else some (UInt64.ofNat (Word.bigValue ((key.drop 1).take 8)))

/-- Where the last id that was handed out is kept. -/
def lastId : Text := "mlast"

end PerfReport.Key
