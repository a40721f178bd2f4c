import PaperTrail.Query.Grammar

/-!
# The supported search engines

* `Vendor` : the engines a query can be compiled for, with their grammars;
* `Vendor.ofName?` : the engine of a name, blanks around it and the case of its letters aside.
-/

namespace PaperTrail

/-- A search engine. -/
inductive Vendor where
  | scopus
  | ieee
  | acm
deriving DecidableEq, Repr, Inhabited

namespace Vendor

def all : List Vendor := [scopus, ieee, acm]

/-- The search syntax of Scopus: `TITLE("a" OR "b")`. -/
def scopusGrammar : Grammar where
  name := "scopus"
  operatorToken := Grammar.usualOperatorToken
  fieldToken
    | .title => "TITLE"
    | .abstract => "ABS"
    | .keywords => "AUTHKEY"
    | .all => "ALL"
  shape := .call
  descriptiveToken? := some "TITLE-ABS-KEY"

/-- The search syntax of IEEE Xplore: `("Document Title":"a" OR "Document Title":"b")`. -/
def ieeeGrammar : Grammar where
  name := "ieee"
  operatorToken := Grammar.usualOperatorToken
  fieldToken
    | .title => "\"Document Title\""
    | .abstract => "\"Abstract\""
    | .keywords => "\"Author Keywords\""
    | .all => "\"Full Text Only\""
  shape := .eachTerm
  descriptiveToken? := none

/-- The search syntax of the ACM Digital Library: `ContentGroupTitle:("a" OR "b")`. -/
def acmGrammar : Grammar where
  name := "acm"
  operatorToken := Grammar.usualOperatorToken
  fieldToken
    | .title => "ContentGroupTitle"
    | .abstract => "Abstract"
    | .keywords => "Keyword"
    | .all => "AllField"
  shape := .label
  descriptiveToken? := none

def grammar : Vendor → Grammar
  | scopus => scopusGrammar
  | ieee => ieeeGrammar
  | acm => acmGrammar

def name (v : Vendor) : String := v.grammar.name

/-- The engine of a name. -/
def ofName? (s : String) : Option Vendor := all.find? fun v => Text.sameFolded v.name (Text.trim s)

def unknownMessage (s : String) : String := "unknown vendor '" ++ s ++ "'"

end Vendor

end PaperTrail
