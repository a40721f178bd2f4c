import PaperTrail.Yaml.Character

/-!
# Tokens of YAML

`Token` lists the marks of a stream. Marks for the start and the end of block collections are not
written: they stand for a change of indentation. A scalar keeps whether it is plain, because only
plain ones are resolved; tags are kept as bytes, because their escapes need not form characters.
-/

namespace PaperTrail.Yaml

/-- The bytes of a tag or of a part of one. -/
abbrev TagBytes := List UInt8

/-- A mark of a stream. -/
inductive Token where
  | versionDirective (major minor : Nat)
  | tagDirective (handle : String) (start : TagBytes)
  | documentStart
  | documentEnd
  | blockSequenceStart
  | blockMappingStart
  | blockEnd
  | flowSequenceStart
  | flowSequenceEnd
  | flowMappingStart
  | flowMappingEnd
  | blockEntry
  | flowEntry
  | key
  | value
  | reference (name : String)
  | anchor (name : String)
  | tag (handle : String) (suffix : TagBytes)
  | scalar (plain : Bool) (text : String)
deriving DecidableEq, Inhabited

end PaperTrail.Yaml
