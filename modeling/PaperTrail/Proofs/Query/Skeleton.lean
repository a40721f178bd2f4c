import PaperTrail.Proofs.Query.Tree
import PaperTrail.Query.Vendor

/-!
# Skeletons of queries

The skeleton of a query is what its text for a search engine shows: parts with a token and terms,
groups in parentheses, and at every level the operator, unless there is nothing to join.

* `Level` : things at one level; `Part`, `Item` : what stands at the levels of a query;
* `Grammar.skeleton` : the skeleton of a query;
* `Level.chars`, `Part.chars`, `Item.chars` : how a skeleton is written;
* `toList_compile` : the text of a query is its skeleton, written down. Hence nothing of the query
  but its skeleton can be read off the text.
-/

namespace PaperTrail

namespace Skeleton
variable {α β : Type}

/-- Things at one level in their order, with the operator between them when there are at least
two. -/
structure Level (α : Type) where
  operator? : Option Operator
  items : List α
deriving DecidableEq

def Level.of (o : Operator) (items : List α) : Level α :=
  ⟨if items.length < 2 then none else some o, items⟩

/-- A part of a clause: terms behind a token. -/
structure Part where
  negated : Bool
  token : String
  terms : Level String
deriving DecidableEq

/-- What stands at a level: a part of a clause, or a level of its own in parentheses. -/
inductive Item where
  | part (p : Part)
  | group (operator? : Option Operator) (items : List Item)

namespace Item
variable (part : Part → β) (group : Option Operator → List β → β)

mutual

/-- The value of an item, computed from those of the parts upwards. -/
def fold : Item → β
  | .part p => part p
  | .group o? items => group o? (foldEach items)

def foldEach : List Item → List β
  | [] => []
  | i :: is => fold i :: foldEach is

end

theorem foldEach_eq_map (is : List Item) : foldEach part group is = is.map (fold part group) := by
  induction is with
  | nil => rfl
  | cons i is ih => rw [foldEach, ih, List.map_cons]

@[simp] theorem fold_part (p : Part) : fold part group (.part p) = part p := rfl

@[simp] theorem fold_group (o? : Option Operator) (items : List Item) :
    fold part group (.group o? items) = group o? (items.map (fold part group)) := by
  rw [fold, foldEach_eq_map]

end Item

def Level.group (l : Level Item) : Item := .group l.operator? l.items

end Skeleton

open Skeleton

/-- What the text of a query shows: the items of its first level. -/
abbrev Skeleton := Level Item

/-! ## The skeleton of a query -/

namespace Grammar
variable (g : Grammar)

def clauseParts (c : Clause) : List Part :=
  (g.partTokens c).map fun token => ⟨c.negated, token, .of c.operator c.terms⟩

/-- A clause as an item: its only part, or else the group of its parts. -/
def clauseItem (c : Clause) : Item :=
  match g.clauseParts c with
  | [p] => .part p
  | ps => (Level.of c.operator (ps.map Item.part)).group

def nodeItem : Node → Item := Node.fold g.clauseItem fun o items => (Level.of o items).group

def skeleton (q : Query) : Skeleton := .of q.operator (q.children.map g.nodeItem)

end Grammar

/-! ## How a skeleton is written -/

namespace Skeleton
variable {α : Type} (g : Grammar)

def between : Option Operator → List Char
  | some o => (g.separator o).toList
  | none => []

/-- The things of a level, each written by `one`, with the operator between them. -/
def Level.chars (one : α → List Char) (l : Level α) : List Char :=
  (between g l.operator?).intercalate (l.items.map one)

def quoted (t : String) : List Char := '"' :: (t.toList ++ ['"'])

def labelled (token t : String) : List Char := token.toList ++ ':' :: quoted t

def termChars (token : String) (terms : Level String) : List Char :=
  match g.shape with
  | .call => token.toList ++ '(' :: (terms.chars g quoted ++ [')'])
  | .label => token.toList ++ ':' :: '(' :: (terms.chars g quoted ++ [')'])
  | .eachTerm => '(' :: (terms.chars g (labelled token) ++ [')'])

def negation : List Char := "NOT ".toList

def Part.chars (p : Part) : List Char :=
  if p.negated then negation ++ termChars g p.token p.terms else termChars g p.token p.terms

def Item.chars : Item → List Char :=
  Item.fold (Part.chars g) fun o? texts => '(' :: ((between g o?).intercalate texts ++ [')'])

@[simp] theorem Item.chars_part (p : Part) : Item.chars g (.part p) = p.chars g := rfl

theorem Item.chars_group (l : Level Item) :
    Item.chars g l.group = '(' :: (l.chars g (Item.chars g) ++ [')']) := by
  rw [Item.chars, Level.group, Item.fold_group]
  rfl

theorem Level.chars_of (o : Operator) (items : List α) (one : α → List Char) :
    (Level.of o items).chars g one = (g.separator o).toList.intercalate (items.map one) := by
  match items with
  | [] => rfl
  | [a] => rfl
  | a :: b :: rest => rfl

end Skeleton

namespace Grammar
variable (g : Grammar)

theorem toList_intercalate_separator (o : Operator) (texts : List String) :
    ((g.separator o).intercalate texts).toList =
      (g.separator o).toList.intercalate (texts.map String.toList) :=
  String.toList_intercalate

theorem toList_parenthesized (s : String) :
    (parenthesized s).toList = '(' :: (s.toList ++ [')']) := by
  simp [parenthesized]

theorem toList_quotedTerms (c : Clause) :
    (g.quotedTerms c).toList = (Level.of c.operator c.terms).chars g quoted := by
  rw [quotedTerms, toList_intercalate_separator, Level.chars_of, List.map_map]
  congr 2
  funext t
  simp [quoteTerm, quoted]

theorem toList_called (token : String) (c : Clause) :
    (g.called token c).toList = termChars g token (.of c.operator c.terms) := by
  rw [called, termChars]
  cases g.shape with
  | call => simp [toList_parenthesized, toList_quotedTerms]
  | label => simp [toList_parenthesized, toList_quotedTerms]
  | eachTerm =>
    have hone : (String.toList ∘ fun t => token ++ ":" ++ quoteTerm t) = labelled token := by
      funext t
      simp [quoteTerm, labelled, quoted]
    simp only [toList_parenthesized, toList_intercalate_separator, List.map_map, hone,
      Level.chars_of]

theorem toList_parts (c : Clause) :
    (g.parts c).map String.toList = (g.clauseParts c).map (Part.chars g) := by
  rw [parts, clauseParts, List.map_map, List.map_map]
  refine List.map_congr_left fun token _ => ?_
  simp only [Function.comp_apply, Part.chars]
  split
  · rw [String.toList_append, toList_called, negation]
  · exact g.toList_called token c

theorem toList_clauseText (c : Clause) : (g.clauseText c).toList = (g.clauseItem c).chars g := by
  have hparts := g.toList_parts c
  have hgroup : (parenthesized ((g.separator c.operator).intercalate (g.parts c))).toList =
      Item.chars g (Level.of c.operator ((g.clauseParts c).map Item.part)).group := by
    rw [toList_parenthesized, toList_intercalate_separator, hparts, Item.chars_group,
      Level.chars_of, List.map_map]
    rfl
  rw [clauseText, clauseItem]
  split
  · next text htext =>
    rw [htext, List.map_singleton] at hparts
    obtain ⟨p, hp, hchars⟩ := List.map_eq_singleton_iff.1 hparts.symm
    rw [hp]
    exact hchars.symm
  · next hmany =>
    split
    · next p hp =>
      rw [hp, List.map_singleton] at hparts
      obtain ⟨text, htext, -⟩ := List.map_eq_singleton_iff.1 hparts
      exact absurd htext (hmany text)
    · exact hgroup

theorem toList_nodeText (n : Node) : (g.nodeText n).toList = (g.nodeItem n).chars g := by
  induction n using Node.induct with
  | clause c => exact g.toList_clauseText c
  | group o children ih =>
    have htexts : children.map (String.toList ∘ g.nodeText) =
        children.map (Item.chars g ∘ g.nodeItem) := List.map_congr_left ih
    rw [nodeText, nodeTexts_eq_map, toList_parenthesized, toList_intercalate_separator,
      List.map_map, htexts, nodeItem, Node.fold_group, Item.chars_group, Level.chars_of,
      List.map_map]

/-- The text of a query is its skeleton, written down. -/
theorem toList_compile (q : Query) :
    (g.compile q).toList = (g.skeleton q).chars g (Item.chars g) := by
  rw [compile, nodeTexts_eq_map, toList_intercalate_separator, skeleton, Level.chars_of,
    List.map_map, List.map_map]
  congr 2
  funext n
  exact g.toList_nodeText n

end Grammar

end PaperTrail
