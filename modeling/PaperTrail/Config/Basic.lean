import PaperTrail.Dictionary
import PaperTrail.Store.Address
import PaperTrail.Text.Blank
import PaperTrail.Text.Split
import PaperTrail.Value.Basic

/-!
# Configuration

* `Config` : where data are kept, which query is used, and free parameters of every vendor;
* `ConfigError` : what can be wrong with a configuration;
* `Config.validate` : the settings that must not be blank;
* `Config.vendorParam`, `Config.requireVendorParam` : a parameter as a text, a blank one counting as
  missing;
* `Config.applyOverride` : a parameter set by a text `VENDOR.KEY=VALUE`;
* `Config.databaseUrl` : the address of the store.
-/

namespace PaperTrail

/-- A setting with a value that it cannot have. -/
inductive InvalidSetting where
  | blankDataDir
  | blankDatabase
  | blankQueryFile
  | blankVendorName
  | maxRecords
deriving DecidableEq, Repr

def InvalidSetting.message : InvalidSetting → String
  | blankDataDir => "app.data_dir must be non-empty"
  | blankDatabase => "app.database must be non-empty when set"
  | blankQueryFile => "query_file must be non-empty when set"
  | blankVendorName => "vendors must not contain an empty name"
  | maxRecords => "ieee.max_records must be a positive integer"

/-- What can be wrong with a configuration. -/
inductive ConfigError where
  | unreadableFile
  | malformedFile
  | invalid (setting : InvalidSetting)
  | missingCredential (vendor key : String)
  | invalidOverride (param : String)
  | unknownVendor (name : String)
deriving DecidableEq, Repr

def ConfigError.message : ConfigError → String
  | unreadableFile => "I/O error"
  | malformedFile => "YAML parse error"
  | invalid setting => "Invalid configuration: " ++ setting.message
  | missingCredential vendor key => s!"missing '{key}' parameter for {vendor}"
  | invalidOverride param => s!"invalid parameter '{param}', expected VENDOR.KEY=VALUE"
  | unknownVendor name => s!"unknown vendor '{name}'"

/-- The settings of the program. -/
structure Config where
  /-- The directory for the store. -/
  dataDir : String
  /-- The address or the file of the store. -/
  database? : Option String
  /-- The file with the description of the query. -/
  queryFile? : Option String
  /-- The parameters of the vendors. -/
  vendors : Dictionary (Dictionary Value)

namespace Config

/-- The settings without a configuration file. -/
def default : Config := ⟨"./data", none, none, Dictionary.empty⟩

/-- Refuses blank settings, the first one in the order of the settings. -/
def validate (c : Config) : Except ConfigError Unit :=
  if Text.isBlankText c.dataDir then .error (.invalid .blankDataDir)
  else if c.database?.any Text.isBlankText then .error (.invalid .blankDatabase)
  else if c.queryFile?.any Text.isBlankText then .error (.invalid .blankQueryFile)
  else if c.vendors.keys.any Text.isBlankText then .error (.invalid .blankVendorName)
  else .ok ()

/-! ## Vendor parameters -/

def rawParam? (c : Config) (vendor key : String) : Option Value :=
  (c.vendors.get? vendor).bind fun params => params.get? key

/-- The text of a parameter without the blanks around it; a blank one is missing. -/
def vendorParam (c : Config) (vendor key : String) : Option String :=
  ((c.rawParam? vendor key).bind Value.scalarText?).bind fun s =>
    if (Text.trim s).isEmpty then none else some (Text.trim s)

def requireVendorParam (c : Config) (vendor key : String) : Except ConfigError String :=
  match c.vendorParam vendor key with
  | some s => .ok s
  | none => .error (.missingCredential vendor key)

/-- The vendor, key and value of a text `VENDOR.KEY=VALUE`. The names are taken without the blanks
around them and must not be blank; a key has no point. -/
def parseOverride? (param : String) : Option (String × String × String) := do
  let (path, value) ← Text.cut? '=' param
  let (vendor, key) ← Text.cut? '.' path
  let (vendor, key) := (Text.trim vendor, Text.trim key)
  if vendor.isEmpty || key.isEmpty || key.toList.contains '.' then none
  else some (vendor, key, value)

def setParam (c : Config) (vendor key value : String) : Config :=
  let params := (c.vendors.get? vendor).getD Dictionary.empty
  { c with vendors := c.vendors.insert vendor (params.insert key (.string value)) }

/-- The settings changed by a text `VENDOR.KEY=VALUE`. -/
def applyOverride (c : Config) (param : String) : Except ConfigError Config :=
  match parseOverride? param with
  | some (vendor, key, value) => .ok (c.setParam vendor key value)
  | none => .error (.invalidOverride param)

/-- The settings changed by texts in turn, up to the first one that is refused. -/
def applyOverrides : List String → Config → Except ConfigError Config
  | [], c => .ok c
  | p :: ps, c =>
    match c.applyOverride p with
    | .ok c => applyOverrides ps c
    | .error e => .error e

def addVendor (c : Config) (name : String) : Config :=
  { c with vendors := c.vendors.insertNew name Dictionary.empty }

/-! ## The store -/

/-- The address of the store by the settings: the configured one, or a file in the data
directory. -/
def configuredDatabaseUrl (c : Config) : String :=
  match c.database?.map Text.trim with
  | some db =>
    if Text.startsWith addressScheme db then db
    else if ¬ db.isEmpty then addressScheme ++ "//" ++ db
    else inDataDir
  | none => inDataDir
where
  /-- The file of the store in the data directory. -/
  inDataDir : String := addressScheme ++ "//" ++ Text.dropTrailing '/' c.dataDir ++ "/slr.db"

/-- The address of the store: the one that the environment gives, or that of the settings. -/
def databaseUrl (c : Config) (environment? : Option String) : String :=
  environment?.getD c.configuredDatabaseUrl

/-- The directory that has to exist; none when it is blank. -/
def requiredDirectory? (c : Config) : Option String :=
  if Text.isBlankText c.dataDir then none else some c.dataDir

def exampleText : String :=
  "app:\n" ++
  "  data_dir: \"./data\"\n" ++
  "  database: \"./data/slr.db\"\n\n" ++
  "query_file: \"./query.yml\"\n\n" ++
  "vendors:\n" ++
  "  ieee:\n" ++
  "    token: \"YOUR_IEEE_API_KEY\"\n" ++
  "    max_records: 200\n" ++
  "  scopus:\n" ++
  "    token: \"YOUR_SCOPUS_API_KEY\"\n" ++
  "    institutional_token: \"\"\n" ++
  "    partner_id: \"\"\n"

end Config

end PaperTrail
