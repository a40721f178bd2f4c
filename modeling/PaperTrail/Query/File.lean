import PaperTrail.Config.Basic
import PaperTrail.Query.Description
import PaperTrail.Yaml.Document

/-!
# Query files

* `Query.ofYaml` : the query that a YAML text describes;
* `queryPath?` : the file of the query: a given one, or else the configured one;
* `loadQuery` : the query of a file, or why there is none, for any way to read files.
-/

namespace PaperTrail

/-- Why a text gives no query. -/
inductive QueryTextError where
  | malformed
  | refused (error : DescriptionError)

def Query.ofYaml (s : String) : Except QueryTextError Query :=
  match Yaml.valueOfString? s with
  | none => .error .malformed
  | some v => (Query.ofValue v).mapError .refused

/-- Why there is no query. -/
inductive QueryFileError where
  | notConfigured
  | unreadable (path : String)
  | text (path : String) (error : QueryTextError)

def QueryFileError.message : QueryFileError → String
  | notConfigured => "no query file given and none configured"
  | unreadable path => s!"failed to load query from {path}"
  | text path _ => s!"failed to load query from {path}"

def QueryFileError.cause? : QueryFileError → Option DescriptionError
  | text _ (.refused e) => some e
  | _ => none

def queryPath? (c : Config) (given? : Option String) : Option String :=
  given?.orElse fun _ => c.queryFile?

/-- The query of a file, read by `read?`. -/
def loadQuery {m : Type → Type} [Monad m] (read? : String → m (Option String)) (c : Config)
    (given? : Option String) : m (Except QueryFileError Query) := do
  match queryPath? c given? with
  | none => return .error .notConfigured
  | some path =>
    match ← read? path with
    | none => return .error (.unreadable path)
    | some s => return (Query.ofYaml s).mapError (.text path)

end PaperTrail
