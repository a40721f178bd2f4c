import PaperTrail.Path
import PaperTrail.Url.Form

/-!
# Addresses of stores

An address is the path of a file, or `sqlite:` with an optional `//`, a path in escaped form, and
options behind a question mark.

* `StoreAddress.ofText` : the address that is opened for a text: a path that starts with `~/` goes
  from the home directory;
* `StoreAddress.directory?` : the directory that has to exist before the file can be created;
* `StorePlace.ofText?` : what the text of an address leads to: a file with the way in which it is
  used, or a store in memory.
-/

namespace PaperTrail

def addressScheme : String := "sqlite:"

/-- An address as it is opened. -/
inductive StoreAddress where
  /-- An address that leads to no file. -/
  | asGiven (text : String)
  /-- The path of a file in escaped form, and the options. -/
  | file (path : String) (options? : Option String)
deriving DecidableEq, Repr

namespace StoreAddress

/-- The path with the home directory for a tilde at its start. -/
def expandHome (home? : Option String) (path : String) : String :=
  match Text.dropStart? "~/" path, home? with
  | some rest, some home => Text.dropTrailing '/' home ++ "/" ++ rest
  | _, _ => path

def cutOptions (s : String) : String × Option String :=
  match Text.cut? '?' s with
  | some (path, options) => (path, some options)
  | none => (s, none)

def ofRest (home? : Option String) (rest : String) : StoreAddress :=
  let (path, options?) := cutOptions ((Text.dropStart? "//" rest).getD rest)
  if Text.startsWith ":memory" rest ∨ path.isEmpty then asGiven (addressScheme ++ rest)
  else file (expandHome home? path) options?

/-- The address that is opened for a text. A text without the scheme is a path. -/
def ofText (home? : Option String) (s : String) : StoreAddress :=
  match Text.dropStart? addressScheme s with
  | some rest => ofRest home? rest
  | none => ofRest home? ("//" ++ s)

def text : StoreAddress → String
  | asGiven s => s
  | file path none => addressScheme ++ "//" ++ path
  | file path (some options) => addressScheme ++ "//" ++ path ++ "?" ++ options

/-- The directory that has to exist before the file can be created. -/
def directory? : StoreAddress → Option String
  | asGiven _ => none
  | file path _ => if (Path.parent path).isEmpty then none else some (Path.parent path)

end StoreAddress

/-! ## Options -/

def fileSystems : List String := ["unix", "unix-dotfile", "unix-excl", "unix-none"]

def memoryFileSystem : String := "memdb"

/-- How a store is opened. -/
structure StoreOptions where
  readOnly : Bool
  inMemory : Bool
  /-- The file is taken as one that nobody changes. -/
  immutable : Bool
  fileSystem? : Option String
deriving DecidableEq, Repr

namespace StoreOptions

def default : StoreOptions := ⟨false, false, false, none⟩

/-- The options with one more; unknown options and values are refused. -/
def set? (o : StoreOptions) (name value : String) : Option StoreOptions :=
  match name with
  | "mode" =>
    match value with
    | "ro" => some { o with readOnly := true }
    | "rw" => some o
    | "rwc" => some o
    | "memory" => some { o with inMemory := true }
    | _ => none
  | "cache" => if value = "shared" ∨ value = "private" then some o else none
  | "immutable" =>
    if value = "true" ∨ value = "1" then some { o with immutable := true }
    else if value = "false" ∨ value = "0" then some { o with immutable := false }
    else none
  | "vfs" => some { o with fileSystem? := some value }
  | _ => none

def setAll? : List (String × String) → StoreOptions → Option StoreOptions
  | [], o => some o
  | (name, value) :: rest, o => (o.set? name value).bind (setAll? rest)

def read? (o : StoreOptions) (s : String) : Option StoreOptions :=
  (Form.decodePairs? s).bind fun pairs => setAll? pairs o

def isSupported (o : StoreOptions) : Bool :=
  o.fileSystem?.all fun s => fileSystems.contains s || s == memoryFileSystem

end StoreOptions

/-! ## Places -/

/-- How a file is used. -/
inductive FileAccess where
  | readWrite
  | readOnly
  | immutable
deriving DecidableEq, Repr

/-- Where a store is kept. -/
inductive StorePlace where
  | memory
  | file (name : String) (access : FileAccess)
deriving DecidableEq, Repr

namespace StorePlace

def memoryName : String := ":memory:"

/-- What follows the authority, if there is one; it has to be empty or `localhost`. -/
def dropAuthority? (s : String) : Option String :=
  match Text.dropStart? "//" s with
  | none => some s
  | some rest =>
    let host := rest.toList.takeWhile (· ≠ '/')
    if host = [] ∨ host = "localhost".toList then
      some (String.ofList (rest.toList.dropWhile (· ≠ '/')))
    else none

/-- The options that count in a name with the scheme `file`. -/
def fileOptions : List String := ["mode", "cache", "vfs"]

/-- The path and the options of a name with the scheme `file`, given what follows the scheme: an
authority, a path in escaped form, options and a fragment. -/
def readFileName? (o : StoreOptions) (s : String) : Option (String × StoreOptions) := do
  let s ← dropAuthority? s
  let (path, options?) := StoreAddress.cutOptions (((Text.cut? '#' s).map (·.1)).getD s)
  let pairs := ((options?.bind Form.decodePairs?).getD []).filter fun p => fileOptions.contains p.1
  return (← Percent.decode? path, ← StoreOptions.setAll? pairs o)

/-- The place of a name under some options; a store in memory is of no use when it cannot be
changed. -/
def ofName? (name : String) (o : StoreOptions) : Option StorePlace :=
  if !o.isSupported then none
  else if o.inMemory || name.isEmpty || name == memoryName ||
      o.fileSystem? == some memoryFileSystem then
    if o.readOnly then none else some memory
  else if o.immutable then some (file name .immutable)
  else some (file name (if o.readOnly then .readOnly else .readWrite))

def ofText? (s : String) : Option StorePlace := do
  let rest := Text.dropStarts 's' "qlite:".toList (Text.dropStarts 's' "qlite://".toList s.toList)
  let (path, options?) := StoreAddress.cutOptions (String.ofList rest)
  if path = memoryName then
    ofName? path { ← StoreOptions.default.read? (options?.getD "") with inMemory := true }
  else
    let name ← Percent.decode? path
    let o ← StoreOptions.default.read? (options?.getD "")
    if name.toList.any fun c => c.toNat = 0 then none
    else
      match Text.dropStart? "file:" name with
      | some rest =>
        if o.immutable || o.fileSystem?.isSome then ofName? name o
        else
          let (name, o) ← readFileName? o rest
          ofName? name o
      | none => ofName? name o

end StorePlace

end PaperTrail
