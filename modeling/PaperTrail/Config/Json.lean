import PaperTrail.Config.Basic
import PaperTrail.Value.Compact

/-!
# Configurations as JSON

`Config.toJson?` is the JSON form of a configuration, vendors and parameters in the order of their
names. There is none when the value of a parameter has none.
-/

namespace PaperTrail.Config

def paramsToJson? (params : Dictionary Value) : Option Json :=
  (params.entries.mapM fun (e : String × Value) => e.2.toJson?.map fun j => (e.1, j)).map .object

def toJson? (c : Config) : Option Json := do
  let vendors ← c.vendors.entries.mapM fun (e : String × Dictionary Value) =>
    (paramsToJson? e.2).map fun j => (e.1, j)
  return .object [
    ("app", .object [("data_dir", .string c.dataDir), ("database", Json.ofText? c.database?)]),
    ("query_file", Json.ofText? c.queryFile?),
    ("vendors", .object vendors)]

end PaperTrail.Config
