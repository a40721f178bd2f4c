import PaperTrail.Value.Compact
import PaperTrail.Text.Quoted

/-!
# Values in full detail

* `outline v` : a text that shows the kind of every part of a value;
* `fragment v` : the text by which an error shows a value: its compact JSON text, or its outline
  when JSON cannot express it.
-/

namespace PaperTrail.Value

mutual

/-- The value with the kind of every part. -/
def outline : Value → String
  | null => "Null"
  | bool b => "Bool(" ++ (if b then "true" else "false") ++ ")"
  | number n => "Number(" ++ n.text ++ ")"
  | string s => "String(" ++ Text.quoted s ++ ")"
  | sequence items => "Sequence [" ++ ", ".intercalate (outlineItems items) ++ "]"
  | mapping es => "Mapping \x7b" ++ ", ".intercalate (outlineEntries es) ++ "\x7d"
  | tagged tag v => "TaggedValue \x7b tag: " ++ tagName tag ++ ", value: " ++ v.outline ++ " \x7d"

def outlineItems : List Value → List String
  | [] => []
  | v :: rest => v.outline :: outlineItems rest

/-- The outlines of entries. A key that is a simple scalar is shown without its kind. -/
def outlineEntries : List (Value × Value) → List String
  | [] => []
  | (k, v) :: rest =>
    let key := match k with
      | bool b => if b then "true" else "false"
      | number n => n.text
      | string s => Text.quoted s
      | k => k.outline
    (key ++ ": " ++ v.outline) :: outlineEntries rest

end

/-- The text by which an error shows a value. -/
def fragment (v : Value) : String :=
  match v.toJson? with
  | some j => j.compact
  | none => v.outline

end PaperTrail.Value
