import PaperTrail.Store.Address
import PaperTrail.Store.Database

/-!
# Files

* `FileTree` : a directory with all that is in it: directories, texts and stores, each under its
  path; the path of a directory ends in a slash;
* `Location` : the names of the directories that lead to a place;
* `FileTree.locate` : the directory that a path leads to, step by step;
* `FileTree.readText?`, `FileTree.writeText?` : the text of a file;
* `FileTree.makeDirectories` : creates a directory and those that lead to it;
* `FileTree.openStore?`, `FileTree.keepStore` : the contents of a store at its place;
* `FileTree.listing` : all paths in ascending order.

Paths are relative to the directory; nothing is found outside of it.
-/

namespace PaperTrail

/-- What a path stands for. -/
inductive FileNode where
  | directory
  | text (content : String)
  | store (contents : Database)

/-- Why a directory cannot be created. -/
inductive DirectoryError where
  /-- There is a file of its name. -/
  | occupied
  /-- A file stands where a directory would lead on. -/
  | notDirectory
  | nameTooLong
  | zeroCharacter
  | denied
deriving DecidableEq, Repr

def DirectoryError.message : DirectoryError → String
  | occupied => "File exists (os error 17)"
  | notDirectory => "Not a directory (os error 20)"
  | nameTooLong => "File name too long (os error 36)"
  | zeroCharacter => "file name contained an unexpected NUL byte"
  | denied => "Permission denied (os error 13)"

/-- A directory with all that is in it. -/
structure FileTree where
  nodes : Dictionary FileNode

namespace FileTree

def empty : FileTree := ⟨Dictionary.empty⟩

def listing (t : FileTree) : List String := t.nodes.keys

/-- The names that lead from the root to a directory, the last one first. -/
abbrev Location := List String

/-- The path of a directory, with a slash at its end; the root has the empty path. -/
def pathOf (l : Location) : String := String.join (l.reverse.map (· ++ "/"))

/-- What a name in a directory leads to. -/
inductive Step where
  | directory (location : Location)
  | file (path : String)
  | missing (path : String)

def step (t : FileTree) (l : Location) (name : String) : Step :=
  if name = "" ∨ name = "." then .directory l
  else if name = ".." then .directory l.tail
  else if t.nodes.contains (pathOf (name :: l)) then .directory (name :: l)
  else if t.nodes.contains (pathOf l ++ name) then .file (pathOf l ++ name)
  else .missing (pathOf l ++ name)

/-- What the parts of a path lead to; none when one before the last is no directory. -/
def follow (t : FileTree) (l : Location) : List String → Option Step
  | [] => some (.directory l)
  | [name] => some (t.step l name)
  | name :: rest =>
    match t.step l name with
    | .directory l => t.follow l rest
    | _ => none

/-- What a path leads to; none when it leads nowhere. -/
def locate (t : FileTree) (path : String) : Option Step :=
  if Path.isRelative path then t.follow [] (Path.components path) else none

def contains (t : FileTree) (path : String) : Bool :=
  match t.locate path with
  | some (.directory _) => true
  | some (.file _) => true
  | _ => false

def readText? (t : FileTree) (path : String) : Option String :=
  match t.locate path with
  | some (.file p) =>
    match t.nodes.get? p with
    | some (.text s) => some s
    | _ => none
  | _ => none

def put (t : FileTree) (path : String) (n : FileNode) : FileTree := ⟨t.nodes.insert path n⟩

/-- Whether the last name of a path can be given to a file. -/
def canCreate (path : String) : Bool :=
  Path.isFileName ((Path.components path).getLast?.getD "")

/-- The files with a text in a file, which is created when it is missing. -/
def writeText? (t : FileTree) (path : String) (s : String) : Option FileTree :=
  match t.locate path with
  | some (.file p) => some (t.put p (.text s))
  | some (.missing p) => if canCreate path then some (t.put p (.text s)) else none
  | _ => none

/-! ## Directories -/

/-- Goes through the names of a path and creates the directories that are missing, up to the first
one that cannot be created. The flag says whether one has been created before. -/
def makeAll (t : FileTree) (l : Location) (made : Bool) :
    List String → FileTree × Option DirectoryError
  | [] => (t, none)
  | name :: rest =>
    match t.step l name with
    | .directory l => t.makeAll l made rest
    | .file _ => (t, some (if made || rest.isEmpty then .occupied else .notDirectory))
    | .missing _ =>
      if Path.isFileName name then
        (t.put (pathOf (name :: l)) .directory).makeAll (name :: l) true rest
      else (t, some .nameTooLong)

/-- Creates a directory and those that lead to it. There is nothing to do for an empty path. -/
def makeDirectories (t : FileTree) (path : String) : FileTree × Option DirectoryError :=
  if path.isEmpty then (t, none)
  else if path.toList.any fun c => c.toNat = 0 then (t, some .zeroCharacter)
  else if Path.isRelative path then
    t.makeAll [] false (Path.components (Text.dropTrailing '/' path))
  else (t, some .denied)

def ofTexts (texts : List (String × String)) : FileTree :=
  texts.foldl (fun t e =>
    let t := (t.makeDirectories (Path.parent e.1)).1
    (t.writeText? e.1 e.2).getD t) empty

/-! ## Stores -/

/-- Opens a store: its contents, or none when there is no store at its place. A file that is missing
or empty becomes a store, if it can be changed. -/
def openStore? (t : FileTree) : StorePlace → FileTree × Option Database
  | .memory => (t, some Database.empty)
  | .file name access =>
    match t.locate name with
    | some (.file p) =>
      match t.nodes.get? p with
      | some (.store db) => (t, some db)
      | some (.text "") =>
        if access = .readWrite then (t.put p (.store Database.empty), some Database.empty)
        else (t, none)
      | _ => (t, none)
    | some (.missing p) =>
      if ¬ canCreate name then (t, none)
      else
        match access with
        | .readWrite => (t.put p (.store Database.empty), some Database.empty)
        | .readOnly => (t, none)
        | .immutable => (t.put p (.text ""), none)
    | _ => (t, none)

/-- The files with new contents of a store, if it is kept in a file that can be changed. -/
def keepStore (t : FileTree) (place : StorePlace) (db : Database) : FileTree :=
  match place with
  | .file name .readWrite =>
    match t.locate name with
    | some (.file p) => t.put p (.store db)
    | _ => t
  | _ => t

end FileTree

end PaperTrail
