import PerfReport.Cli.Run
import PerfReport.Storage.Image
import Std.Time.DateTime.Timestamp

/-!
# The program

Looks at the files that a command names, runs the command on them, and brings
what it changed back to the disk.
-/

namespace PerfReport.Main

def pathOf (t : Text) : String := t.toString?.getD ""

/-- The file of an archive in its folder. -/
def imagePath (p : Place) : String := pathOf (p.follow "runs.image").write

def readText (path : String) : IO Text := do return (← IO.FS.readBinFile path).data.toList

def writeText (path : String) (t : Text) : IO Unit := IO.FS.writeBinFile path ⟨t.toArray⟩

/-- Takes a place and those around it into the world. -/
def observe (w : World) (path : Text) : IO World := do
  let folder ← IO.currentDir
  let (start, names) := Place.ofPath path
  (names.foldl Place.follow start).chain.foldlM (fun w p => do
    let path := pathOf p.write
    let found := folder / path
    if ← found.isDir then
      let w := { w with folders := p :: w.folders }
      if ← (folder / imagePath p).pathExists then
        match KeyedStore.ofImage? (← readText (imagePath p)) with
        | some store => return w.setArchive (some p) store
        | none => return w
      else return w
    else if ← found.pathExists then return w.setFile p (← readText path)
    else return w) w

/-- The paths that a command reads besides its configuration and archive. -/
def inputs : Cli.Command → List Text
  | .mean _ paths => paths
  | .summary _ _ path => [path]
  | .init (some path) _ => [path]
  | _ => []

/-- The world as far as a command can see it. -/
def observeFor (i : Cli.Invocation) (home : Text) : IO World := do
  let config := i.config.getD (Config.defaultPath home)
  let w ← (config :: inputs i.command).foldlM observe {}
  match i.session config w with
  | .ok s => if s.archivePath.isEmpty then return w else observe w s.archivePath
  | .error _ => return w

/-- Brings changes to the disk. -/
def settle (before after : World) : IO Unit := do
  for p in after.folders.reverse do
    unless before.isFolder p do IO.FS.createDirAll (pathOf p.write)
  for (p, bytes) in after.files do
    unless before.files.lookup p == some bytes do writeText (pathOf p.write) bytes
  for (p, store) in after.archives do
    unless (before.archives.lookup p).map KeyedStore.toImage == some store.toImage do
      writeText (imagePath p) store.toImage

def program (args : List String) : IO UInt32 := do
  let args := args.map Text.ofString
  let home := Text.ofString ((← IO.getEnv "HOME").getD "")
  let now ← Std.Time.Timestamp.now
  let here : Cli.Surroundings := ⟨home, Int64.ofInt now.toNanosecondsSinceUnixEpoch.toInt⟩
  let w ← match Cli.Invocation.parse args with
    | .ok i => observeFor i home
    | .error _ => pure {}
  let r := Cli.run here w args
  settle w r.world
  (← IO.getStdout).write ⟨r.out.toArray⟩
  match r.failed with
  | none => return 0
  | some e =>
    (← IO.getStderr).putStrLn (pathOf ("perfstat: " ++ e.message))
    return 1

end PerfReport.Main

def main (args : List String) : IO UInt32 := PerfReport.Main.program args
