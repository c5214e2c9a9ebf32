import PerfReport.Error
import PerfReport.Storage.Keyed

/-!
# The world of a command

The files, folders and archives that a command can reach from its working
folder. Paths are followed name by name: every name but the last has to be a
folder. Names and paths are limited in their length.
-/

namespace PerfReport

/-! ## Paths -/

/-- The pieces of a text between the occurrences of a byte. -/
def Text.splitOn (mark : UInt8) : Text → List Text
  | [] => [[]]
  | b :: t =>
    if b = mark then [] :: splitOn mark t
    else match splitOn mark t with
      | piece :: pieces => (b :: piece) :: pieces
      | [] => [[b]]

/-- A place below the working folder, or below the root if its last name is a
slash; the innermost name comes first. -/
abbrev Place := List Text

namespace Place

def here : Place := []

def root : Place := ["/"]

def parentName : Text := ".."

def up : Place → Place
  | [] => [parentName]
  | name :: rest =>
    if name = parentName then name :: name :: rest
    else if name :: rest = root then root
    else rest

/-- The place that a name leads to. -/
def follow (p : Place) (name : Text) : Place :=
  if name.isEmpty || name == ("." : Text) then p
  else if name = parentName then p.up
  else name :: p

/-- Every path but the empty one starts here or at the root. -/
def ofPath (path : Text) : Place × List Text :=
  match path with
  | 47 :: rest => (root, rest.splitOn 47)
  | _ => (here, path.splitOn 47)

/-- How a place is written. -/
def write (p : Place) : Text :=
  match p.reverse with
  | [] => "."
  | name :: names =>
    if name = ("/" : Text) then "/" ++ List.intercalate [47] names
    else List.intercalate [47] (name :: names)

/-- The folder of a path, by its text alone. -/
def folderOf (path : Text) : Place :=
  let (start, names) := ofPath path
  names.dropLast.foldl follow start

/-- A place and those around it, outermost first. -/
def chain : Place → List Place
  | [] => []
  | name :: rest => chain rest ++ [name :: rest]

/-- The bytes of a name. -/
def maxName : Nat := 255

/-- A path has fewer bytes than this. -/
def pathLimit : Nat := 4096

/-- What is wrong with a path or with one of its names, by its text alone. -/
def textFault? (path : Text) : Option FileFault :=
  if path.contains 0 then some .invalidPath
  else if path.isEmpty then some .missing
  else if pathLimit ≤ path.length then some .nameTooLong
  else none

end Place

/-! ## Files and folders -/

/-- The archive of a folder is a database in it. -/
structure World (δ : Type := KeyedStore) [Database δ] where
  files : List (Place × Text) := []
  folders : List Place := []
  archives : List (Place × δ) := []

namespace World

variable {δ : Type} [Database δ]

inductive Entry
  | file (bytes : Text)
  | folder

def isFolder (w : World δ) (p : Place) : Bool :=
  p.isEmpty || p == Place.root || p.head? == some Place.parentName || w.folders.contains p

def entry? (w : World δ) (p : Place) : Option Entry :=
  if w.isFolder p then some .folder else (w.files.lookup p).map .file

/-- Follows names from a place. -/
def walk (w : World δ) : Place → List Text → Except FileFault Place
  | p, [] => .ok p
  | p, name :: names =>
    match w.entry? p with
    | none => .error .missing
    | some (.file _) => .error .notDirectory
    | some .folder =>
      if Place.maxName < name.length then .error .nameTooLong
      else w.walk (p.follow name) names

/-- Where a path leads, whether or not there is something. -/
def locate (w : World δ) (path : Text) : Except FileFault Place :=
  match Place.textFault? path with
  | some fault => .error fault
  | none =>
    let (start, names) := Place.ofPath path
    w.walk start names

def find (w : World δ) (path : Text) : Except FileFault Entry := do
  match w.entry? (← w.locate path) with
  | some e => .ok e
  | none => .error .missing

def isMissing (w : World δ) (path : Text) : Bool :=
  match w.find path with
  | .error .missing => true
  | _ => false

def exists? (w : World δ) (path : Text) : Bool := (w.find path).isOk

/-- The bytes of a file. A folder can be opened and not read. -/
def read (w : World δ) (path : Text) : Except FileError Text :=
  match w.find path with
  | .ok (.file bytes) => .ok bytes
  | .ok .folder => .error ⟨"read", path, .isDirectory⟩
  | .error fault => .error ⟨"open", path, fault⟩

def setFile (w : World δ) (p : Place) (bytes : Text) : World δ :=
  { w with files := (p, bytes) :: w.files.filter fun e => e.1 != p }

def write (w : World δ) (path : Text) (bytes : Text) : Except FileError (World δ) :=
  match w.locate path with
  | .error fault => .error ⟨"open", path, fault⟩
  | .ok p => if w.isFolder p then .error ⟨"open", path, .isDirectory⟩ else .ok (w.setFile p bytes)

/-- Makes a folder unless there is one. -/
def makeFolder (w : World δ) (p : Place) : Except FileError (World δ) :=
  match w.entry? p with
  | some .folder => .ok w
  | some (.file _) => .error ⟨"mkdir", p.write, .notDirectory⟩
  | none =>
    match w.locate p.write with
    | .ok _ => .ok { w with folders := p :: w.folders }
    | .error fault => .error ⟨"mkdir", p.write, fault⟩

/-- Makes a folder and those around it. -/
def makeFolders (w : World δ) (p : Place) : Except FileError (World δ) :=
  p.chain.foldlM makeFolder w

/-! ## Archives -/

/-- The store of an archive that was opened, and where it is. An archive
without a place is gone once it is closed. -/
structure OpenArchive (δ : Type := KeyedStore) [Database δ] where
  world : World δ
  place : Option Place
  store : δ

def archiveAt (w : World δ) (p : Place) : OpenArchive δ :=
  ⟨w, some p, (w.archives.lookup p).getD (Database.empty true)⟩

/-- The names of a path without the slashes at its end. -/
def dropSlashes (names : List Text) : List Text := (names.reverse.dropWhile List.isEmpty).reverse

/-- Makes the folder that a path leads to. The folder around it has to be
there, and the path has to name the new one. -/
def makeNamed (w : World δ) (path : Text) : Except FileFault (World δ × Place) := do
  if let some fault := Place.textFault? path then throw fault
  let (start, names) := Place.ofPath path
  let names := dropSlashes names
  let p ← w.walk start names
  if (names.getLast?.all fun name => name == Place.parentName || name == ("." : Text)) then
    throw .missing
  return ({ w with folders := p :: w.folders }, p)

/-- Opens the archive in a folder, which is made if it is missing. -/
def openArchive (w : World δ) (path : Text) : Except Error (OpenArchive δ) :=
  if path.isEmpty then .ok ⟨w, none, Database.empty true⟩
  else match w.find path with
    | .ok .folder =>
      match w.locate path with
      | .ok p => .ok (w.archiveAt p)
      | .error _ => .error .archiveUnusable
    | .error .missing =>
      match w.makeNamed path with
      | .ok (w, p) => .ok (w.archiveAt p)
      | .error _ => .error .archiveUnusable
    | _ => .error .archiveUnusable

def setArchive (w : World δ) (p : Option Place) (store : δ) : World δ :=
  match p with
  | some p => { w with archives := (p, store) :: w.archives.filter fun e => e.1 != p }
  | none => w

end World

end PerfReport
