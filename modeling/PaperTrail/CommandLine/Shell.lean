import PaperTrail.Files
import PaperTrail.Http.Request
import PaperTrail.Store.Basic

/-!
# What a command works with

* `Shell m` : files, stores and a network, as actions of a monad `m`;
* `Shell.openStore?` : the store at an address, with the place where it is kept;
* `FileTree.shell` : the shell of a directory, with any network.
-/

namespace PaperTrail

/-- Files, stores and a network. -/
structure Shell (m : Type → Type) where
  /-- Whether there is something at a path. -/
  contains : String → m Bool
  readText? : String → m (Option String)
  /-- Writes the text of a file; false when that is not possible. -/
  writeText : String → String → m Bool
  makeDirectories : String → m (Option DirectoryError)
  openPlace? : StorePlace → m (Option Database)
  keepStore : StorePlace → Database → m Unit
  send : Request → m Exchange

/-- What commands know of the user's settings. -/
structure Environment where
  /-- The home directory. -/
  home? : Option String
  /-- The address of the store, when it is not that of the configuration. -/
  database? : Option String

namespace Shell
variable {m : Type → Type} [Monad m]

/-- Opens the store at an address. The directory of its file is created first, if that is
possible. -/
def openStore? (sh : Shell m) (env : Environment) (address : String) :
    m (Option (StorePlace × Store)) := do
  let a := StoreAddress.ofText env.home? address
  if let some directory := a.directory? then
    let _ ← sh.makeDirectories directory
  match StorePlace.ofText? a.text with
  | none => return none
  | some place => return (← sh.openPlace? place).map fun db => (place, Store.ofDatabase db)

end Shell

def FileTree.shell (send : Request → StateM FileTree Exchange) : Shell (StateM FileTree) where
  contains path := return (← get).contains path
  readText? path := return (← get).readText? path
  writeText path s := do
    match (← get).writeText? path s with
    | some t => set t; return true
    | none => return false
  makeDirectories path := modifyGet fun t => (t.makeDirectories path).swap
  openPlace? place := modifyGet fun t => (t.openStore? place).swap
  keepStore place db := modify fun t => t.keepStore place db
  send := send

end PaperTrail
