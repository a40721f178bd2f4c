import PaperTrail.CommandLine.Arguments
import PaperTrail.CommandLine.Shell
import PaperTrail.Config.Yaml
import PaperTrail.Load
import PaperTrail.Paper.Json
import PaperTrail.Query.File

/-!
# Commands

* `CommandError` : why a command fails;
* `queryLines`, `Store.lines?`, `Report.text` : what commands print;
* `Shell.query`, `Shell.load`, `Shell.list`, `Shell.initConfig` : the commands;
* `Shell.run` : the command of some arguments.
-/

namespace PaperTrail

/-- Why a command fails. -/
inductive CommandError where
  /-- The configuration of a file cannot be used. -/
  | configFile (path : String) (error : ConfigError)
  /-- The arguments give settings that cannot be used. -/
  | setting (error : ConfigError)
  | query (error : QueryFileError)
  | directory (error : DirectoryError)
  | store (address : String)
  /-- More review values are asked for than can be asked for at once. -/
  | tooManyValues
  | load (error : LoadError)
  /-- More pages were found than can be counted. -/
  | endless
  | existingFile (path : String)
  | unwritableFile (path : String)

namespace CommandError

def message : CommandError → String
  | configFile path _ => s!"failed to load {path}"
  | setting e => e.message
  | query e => e.message
  | directory e => e.message
  | store address => s!"failed to open database {address}"
  | tooManyValues =>
    "database error: error returned from database: (code: 1) too many SQL variables"
  | load e => e.message
  | endless => "too many pages"
  | existingFile path => s!"{path} already exists, pass --force to overwrite"
  | unwritableFile path => s!"failed to write {path}"

def cause? : CommandError → Option String
  | configFile _ e => some e.message
  | query e => e.cause?.map DescriptionError.message
  | load e => e.cause?
  | _ => none

def text (e : CommandError) : String :=
  "Error: " ++ e.message ++ (e.cause?.map fun s => "\n\nCaused by:\n    " ++ s).getD ""

end CommandError

/-! ## What is printed -/

def titleLines (title : String) : List String :=
  let border := String.ofList (List.replicate (title.utf8ByteSize + 6) '=')
  [border, s!"== {title} ==", border]

/-- A query in every search syntax, with the name of the engine as a title. -/
def queryLines (q : Query) : List String :=
  Vendor.all.flatMap fun v => titleLines (Text.upper v.name) ++ [v.grammar.compile q]

/-- A line for each paper with one of the given review values, unless these are too many. -/
def Store.lines? (s : Store) (rejected : List Int) : Option (List String) :=
  (s.entries? rejected).map fun rows => rows.map fun row => listingLine row.1 row.2

def Report.text (r : Report) : String :=
  (Json.object [("created", .int r.created), ("matched", .int r.matched),
    ("links", .int r.links)]).compact

/-- How many pages of a search are fetched at most. -/
def pageLimit : Nat := 4611686018427387904

namespace Shell
variable {m : Type → Type} [Monad m] (sh : Shell m) (env : Environment)

/-! ## Settings -/

/-- The configuration of a file, or the usual one when there is no file. -/
def loadConfig (path : String) : ExceptT CommandError m Config := do
  if ¬ (← sh.contains path) then return Config.default
  match ← sh.readText? path with
  | none => throw (.configFile path .unreadableFile)
  | some s =>
    match Config.ofText s with
    | .error e => throw (.configFile path e)
    | .ok c => return c

/-- The query of the given file, or else of the configured one. -/
def loadQuery (c : Config) (file? : Option String) : ExceptT CommandError m Query := do
  match ← (PaperTrail.loadQuery sh.readText? c file? : m _) with
  | .error e => throw (.query e)
  | .ok q => return q

def withParams (c : Config) (params : List String) : Except ConfigError Config :=
  match c.applyOverrides params with
  | .error e => .error e
  | .ok c => c.validate.map fun _ => c

/-- The address of the store: the given one, or else that of the configuration, whose data
directory is created. -/
def storeAddress (c : Config) (database? : Option String) : ExceptT CommandError m String := do
  match database? with
  | some address => return address
  | none =>
    if let some directory := c.requiredDirectory? then
      if let some e ← (sh.makeDirectories directory : m _) then throw (.directory e)
    return c.databaseUrl env.database?

/-- Opens the given store, or else the configured one. -/
def openStore (c : Config) (database? : Option String) :
    ExceptT CommandError m (StorePlace × Store) := do
  let address ← sh.storeAddress env c database?
  match ← (sh.openStore? env address : m _) with
  | none => throw (.store address)
  | some opened => return opened

/-! ## Commands -/

def query (config : String) (file? : Option String) : ExceptT CommandError m (List String) := do
  let c ← sh.loadConfig config
  return queryLines (← sh.loadQuery c file?)

def load {σ : Type} (r : Registry σ) (config : String) (database? : Option String)
    (vendors : List String) (file? : Option String) (params : List String) :
    ExceptT CommandError m (List String) := do
  let c ← sh.loadConfig config
  match withParams c params with
  | .error e => throw (.setting e)
  | .ok c =>
    let q ← sh.loadQuery c file?
    let (place, s) ← sh.openStore env c database?
    match ← (PaperTrail.load sh.send pageLimit r c q vendors s : m _) with
    | none => throw .endless
    | some (s, .error e) =>
      sh.keepStore place s.drop
      throw (.load e)
    | some (s, .ok report) =>
      sh.keepStore place s.close
      return [report.text]

def list (config : String) (database? : Option String) (rejected : List Int) :
    ExceptT CommandError m (List String) := do
  let c ← sh.loadConfig config
  let (place, s) ← sh.openStore env c database?
  match s.lines? rejected with
  | none =>
    sh.keepStore place s.drop
    throw .tooManyValues
  | some lines =>
    sh.keepStore place s.close
    return lines

/-- Writes an example of a configuration; an existing file only when told to. -/
def initConfig (config : String) (force : Bool) : ExceptT CommandError m (List String) := do
  if (← sh.contains config) && !force then throw (.existingFile config)
  if ← sh.writeText config Config.exampleText then return [] else throw (.unwritableFile config)

/-- Carries out the command of some arguments: the lines that it prints. -/
def run {σ : Type} (r : Registry σ) (a : Arguments) : ExceptT CommandError m (List String) :=
  match a.command with
  | .query file? => sh.query a.config file?
  | .load database? vendors file? params => sh.load env r a.config database? vendors file? params
  | .list database? rejected => sh.list env a.config database? rejected
  | .initConfig force => sh.initConfig a.config force

end Shell

end PaperTrail
