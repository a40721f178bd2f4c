import PaperTrail.CommandLine.Run
import PaperTrail.Store.Json

/-!
# The program

The files are those of the current directory, and a store is kept as the text of its contents. There
is no network: every search fails.
-/

namespace PaperTrail

/-- What an action gives, or nothing when it fails. -/
def attempt? {α : Type} (action : IO α) : IO (Option α) := do
  try
    return some (← action)
  catch _ =>
    return none

def pathContains (path : String) : IO Bool := do
  try
    let _ ← IO.FS.Handle.mk path .read
    return true
  catch
    | .permissionDenied .. => return true
    | _ => return false

/-- Creates a directory and those that lead to it. -/
def createDirectories (path : String) : IO (Option DirectoryError) := do
  try
    IO.FS.createDirAll path
    return none
  catch
    | .alreadyExists .. => return some .occupied
    | .inappropriateType .. => return some .notDirectory
    | _ => return some .denied

def writeStore (name : String) (db : Database) : IO Unit := IO.FS.writeFile name db.text

/-- Opens a store; a file that is missing or empty becomes one, if it can be changed. -/
def openPlace? : StorePlace → IO (Option Database)
  | .memory => return some Database.empty
  | .file name access => do
    let s := (← attempt? (IO.FS.readFile name)).getD ""
    if ¬ s.isEmpty then return Database.ofText? s
    else if access = .readWrite then
      return (← attempt? (writeStore name Database.empty)).map fun _ => Database.empty
    else return none

/-- The files of the current directory, without a network. -/
def systemShell : Shell IO where
  contains := pathContains
  readText? path := attempt? (IO.FS.readFile path)
  writeText path s := return (← attempt? (IO.FS.writeFile path s)).isSome
  makeDirectories := createDirectories
  openPlace? := openPlace?
  keepStore
    | .file name .readWrite, db => writeStore name db
    | _, _ => return
  send r := return offline r

end PaperTrail

open PaperTrail in
def main (args : List String) : IO UInt32 := do
  match Invocation.ofArguments args with
  | .help =>
    IO.println usage
    return 0
  | .version =>
    IO.println version
    return 0
  | .misused =>
    IO.eprintln usage
    return 2
  | .run a =>
    let env : Environment := ⟨← IO.getEnv "HOME", ← IO.getEnv "DATABASE_URL"⟩
    match ← (systemShell.run env Registry.default a).run with
    | .ok lines =>
      lines.forM fun line => IO.println line
      return 0
    | .error e =>
      IO.eprintln e.text
      return 1
