import PaperTrail.Text.Blank

/-!
# Papers

* `Resource` : what is known of a paper, empty texts standing for what is missing;
* `Source` : where a record of it was found; `Review` : what a reviewer decided;
* `Entry` : a record: a resource, its sources, and a review;
* `Resource.identity` : the fields by which two records are seen to be of one paper;
* `joinKeywords` : a list of keywords as one text.
-/

namespace PaperTrail

/-- The fields by which a paper is recognised. -/
inductive IdentityField where
  | doi
  | title
  | abstract
deriving DecidableEq, Repr

def IdentityField.name : IdentityField → String
  | .doi => "doi"
  | .title => "title"
  | .abstract => "abstract"

def IdentityField.all : List IdentityField := [.doi, .title, .abstract]

/-- What is known of a paper. A missing text is empty. -/
structure Resource where
  doi : String
  isbn : String
  title : String
  abstract : String
  keywords : String
deriving DecidableEq, Repr, Inhabited

namespace Resource

def empty : Resource := ⟨"", "", "", "", ""⟩

def get (r : Resource) : IdentityField → String
  | .doi => r.doi
  | .title => r.title
  | .abstract => r.abstract

/-- The fields by which the paper is recognised, with their texts; blank ones are left out. -/
def identity (r : Resource) : List (IdentityField × String) :=
  (IdentityField.all.map fun f => (f, r.get f)).filter fun p => !Text.isBlankText p.2

theorem mem_identity {r : Resource} {f : IdentityField} {s : String} :
    (f, s) ∈ r.identity ↔ r.get f = s ∧ Text.isBlankText s = false := by
  simp only [identity, IdentityField.all, List.map_cons, List.map_nil, List.mem_filter,
    List.mem_cons, Prod.mk.injEq, List.not_mem_nil, or_false, Bool.not_eq_eq_eq_not, Bool.not_true]
  cases f <;> simp only [reduceCtorEq, false_and, true_and, or_false, false_or] <;>
    exact ⟨fun h => ⟨h.1.symm, h.2⟩, fun h => ⟨h.1.symm, h.2⟩⟩

end Resource

/-- Where a record was found. -/
structure Source where
  origin : String
  link? : Option String
deriving DecidableEq, Repr, Inhabited

/-- The source with a link; an empty link counts as missing. -/
def Source.withLink (origin link : String) : Source :=
  ⟨origin, if link.isEmpty then none else some link⟩

/-- What a reviewer decided. The value `0` of `rejected` means that nothing is decided yet. -/
structure Review where
  rejected : Int
  saveForLater : Bool
  notes : String
deriving DecidableEq, Repr, Inhabited

def Review.new : Review := ⟨0, false, ""⟩

/-- A record of a paper. -/
structure Entry where
  resource : Resource
  sources : List Source
  review : Review
deriving DecidableEq, Repr, Inhabited

/-- The entry that has not been reviewed. -/
def Entry.new (resource : Resource) (sources : List Source) : Entry := ⟨resource, sources, .new⟩

/-- The entry with a source behind the others, unless it is one of them. -/
def Entry.addSource (e : Entry) (src : Source) : Entry :=
  if e.sources.contains src then e else { e with sources := e.sources ++ [src] }

/-! ## Keywords -/

def keywordSeparator : String := " | "

/-- The keywords as one text, without the blanks around them and without blank ones. -/
def joinKeywords (keywords : List String) : String :=
  keywordSeparator.intercalate ((keywords.map Text.trim).filter fun k => !k.isEmpty)

end PaperTrail
