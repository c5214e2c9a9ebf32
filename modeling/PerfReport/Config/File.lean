import PerfReport.Config.Document
import PerfReport.World

/-!
# Configuration files
-/

namespace PerfReport.Config

open Yaml (Codec)

variable {δ : Type} [Database δ]

/-- The configuration file of a user. -/
def defaultPath (home : Text) : Text :=
  let (start, names) := Place.ofPath home
  let p := names.foldl Place.follow start
  Place.write ((p.follow ".perfstat").follow "config.yaml")

def loadWith (y : Codec) (w : World δ) (path : Text) : Except Error Config :=
  match w.read path with
  | .error e => .error (.within "failed to read config file" (.file e))
  | .ok bytes => parse y bytes

def load (w : World δ) (path : Text) : Except Error Config := loadWith .standard w path

/-- The default configuration stands in for a missing file. -/
def loadOrStandard (w : World δ) (path : Text) : Except Error Config :=
  if w.isMissing path then .ok standard else load w path

/-- Writes a configuration, with the folders around its file; those stay if
the file cannot be written. -/
def saveWith (y : Codec) (c : Config) (w : World δ) (path : Text) : Except Error Unit × World δ :=
  match w.makeFolders (Place.folderOf path) with
  | .error e => (.error (.within "failed to create config directory" (.file e)), w)
  | .ok w =>
    match w.write path (y.write c.toNode) with
    | .error e => (.error (.within "failed to write config file" (.file e)), w)
    | .ok w => (.ok (), w)

def save (c : Config) (w : World δ) (path : Text) : Except Error Unit × World δ :=
  saveWith .standard c w path

end PerfReport.Config
