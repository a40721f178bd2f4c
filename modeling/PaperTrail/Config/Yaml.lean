import PaperTrail.Config.Basic
import PaperTrail.Yaml.Document

/-!
# Configuration files

A configuration file is a mapping with the key `app`, itself a mapping with the key `data_dir`.
Further settings may be missing, unknown ones have no meaning. A text is taken from any scalar as it
is written.

`Config.ofYaml?` is the configuration of a text.
-/

namespace PaperTrail.Config
open Yaml

/-- Reads a part of a document, counting the aliases that are followed. -/
abbrev Reading (α : Type) : Type := StateT Nat Option α

variable (d : Document)

/-- The node itself, or the one that an alias stands for. -/
def follow (v : Yaml.Node) : Reading Yaml.Node := fun jumps => d.follow v jumps

def readText (v : Yaml.Node) : Reading String := do
  match ← follow d v with
  | .scalar _ _ s => return s
  | _ => failure

/-- Whether a scalar stands for a missing setting; none when it is tagged as null and is not. -/
def isMissing? (p : Properties) (plain : Bool) (s : String) : Option Bool :=
  if ¬ plain then some false
  else
    match p.tag? with
    | none => some (s.isEmpty || Scalar.isNull s)
    | some tag =>
      if tag = Scalar.basicTag "null" then (if Scalar.isNull s then some true else none)
      else some false

def readOptionalText (v : Yaml.Node) : Reading (Option String) := do
  match ← follow d v with
  | .scalar p plain s =>
    match isMissing? p plain s with
    | none => failure
    | some true => return none
    | some false => return some s
  | _ => failure

/-- The entries of a mapping. An empty node is an empty mapping. -/
def readEntries (v : Yaml.Node) : Reading (List (String × Yaml.Node)) := do
  match ← follow d v with
  | .mapping _ es => es.mapM fun e => return (← readText d e.1, e.2)
  | .scalar _ true "" => return []
  | _ => failure

/-- The node of a setting; none when the setting is given twice. -/
def setting? (es : List (String × Yaml.Node)) (name : String) : Option (Option Yaml.Node) :=
  match es.filter (·.1 == name) with
  | [] => some none
  | [e] => some (some e.2)
  | _ => none

/-- How deeply the value of a parameter may be nested, inside three mappings. -/
def paramDepth : Nat := Document.maxDepth - 3

def readParams (v : Yaml.Node) : Reading (Dictionary Value) := do
  let es ← readEntries d v
  return Dictionary.ofList (← es.mapM fun e => return (e.1, ← fun j => d.valueOf paramDepth e.2 j))

def readVendors (v : Yaml.Node) : Reading (Dictionary (Dictionary Value)) := do
  let es ← readEntries d v
  return Dictionary.ofList (← es.mapM fun e => return (e.1, ← readParams d e.2))

/-- The setting of a name, read by `read`, or its default. -/
def readSetting {α : Type} (es : List (String × Yaml.Node)) (name : String) (default : α)
    (read : Yaml.Node → Reading α) : Reading α :=
  match setting? es name with
  | none => failure
  | some none => return default
  | some (some v) => read v

def readRequired {α : Type} (es : List (String × Yaml.Node)) (name : String)
    (read : Yaml.Node → Reading α) : Reading α :=
  match setting? es name with
  | some (some v) => read v
  | _ => failure

def readConfig (v : Yaml.Node) : Reading Config := do
  let es ← readEntries d v
  let (dataDir, database?) ← readRequired es "app" fun app => do
    let es ← readEntries d app
    return (← readRequired es "data_dir" (readText d),
      ← readSetting es "database" none (readOptionalText d))
  let queryFile? ← readSetting es "query_file" none (readOptionalText d)
  let vendors ← readSetting es "vendors" Dictionary.empty (readVendors d)
  return { dataDir, database?, queryFile?, vendors }

/-- The configuration of a text that holds one document. -/
def ofYaml? (s : String) : Option Config := do
  let d ← Document.ofString? s
  let root ← d.root?
  return (← (readConfig d root).run 0).1

def ofText (s : String) : Except ConfigError Config :=
  match ofYaml? s with
  | none => .error .malformedFile
  | some c =>
    match c.validate with
    | .ok () => .ok c
    | .error e => .error e

end PaperTrail.Config
