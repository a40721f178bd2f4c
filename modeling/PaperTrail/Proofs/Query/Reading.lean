import PaperTrail.Proofs.Query.Skeleton
import PaperTrail.Proofs.Text.Split

/-!
# Reading a search text

`read g s` finds the skeleton that the text `s` shows to the search engine of `g`: an item starts
with the word `NOT`, with the parenthesis of a group, or with a part; the terms of a part stand
behind its token in the shape of the engine; and the items of a level are read on as long as the
same operator follows.

* `Level.Proper`, `Part.Legible`, `Item.Legible` : the levels, parts and items that can be told from
  a text; `Grammar.Legible` : the grammars with tokens that can, among them those of all engines;
* `readLevel_chars`, `readTerms_chars`, `readItem_chars` : what has been written is read again,
  whatever follows it;
* `read_compile` : the text of a query without quotes in its terms shows its skeleton;
* `compile_eq_iff` : so two such queries have the same text just when they have the same skeleton,
  whatever else of the syntax the terms contain.
-/

namespace PaperTrail
open Text (dropStartChars? cutChars?)

namespace Skeleton
variable {α : Type} (g : Grammar)

abbrev Reader (α : Type) := List Char → Option (α × List Char)

def nextOperator? (s : List Char) : Option Operator :=
  [Operator.and, .or].find? fun o => (dropStartChars? (g.separator o).toList s).isSome

/-- The things that follow, each after the operator, as long as there is one; `limit` bounds their
number. -/
def readMore (one : Reader α) (o : Operator) : Nat → Reader (List α)
  | 0, _ => none
  | limit + 1, s =>
    match dropStartChars? (g.separator o).toList s with
    | none => some ([], s)
    | some s => do
      let (a, s) ← one s
      let (as, s) ← readMore one o limit s
      return (a :: as, s)

/-- The things at a level, joined by the operator that is written after the first one. -/
def readLevel (one : Reader α) : Reader (Level α) := fun s => do
  let (a, s) ← one s
  match nextOperator? g s with
  | none => return (⟨none, [a]⟩, s)
  | some o =>
    let (as, s) ← readMore g one o (s.length + 1) s
    return (⟨some o, a :: as⟩, s)

def readQuoted : Reader String := fun s => do
  let s ← dropStartChars? ['"'] s
  let (t, s) ← cutChars? '"' s
  return (String.ofList t, s)

def readLabelled (token : List Char) : Reader String := fun s => do
  readQuoted (← dropStartChars? (token ++ [':']) s)

def readParenthesized (one : Reader String) : Reader (Level String) := fun s => do
  let s ← dropStartChars? ['('] s
  let (terms, s) ← readLevel g one s
  let s ← dropStartChars? [')'] s
  return (terms, s)

def readTerms : Reader (String × Level String) := fun s =>
  match g.shape with
  | .call => do
    let (token, r) ← cutChars? '(' s
    let (terms, s) ← readParenthesized g readQuoted ('(' :: r)
    return ((String.ofList token, terms), s)
  | .label => do
    let (token, s) ← cutChars? ':' s
    let (terms, s) ← readParenthesized g readQuoted s
    return ((String.ofList token, terms), s)
  | .eachTerm => do
    let (token, _) ← cutChars? ':' (s.drop 1)
    let (terms, s) ← readParenthesized g (readLabelled token) s
    return ((String.ofList token, terms), s)

/-- The text after the parenthesis of a group. Where terms carry their tokens, a parenthesis before
a quote belongs to a part. -/
def groupStart? : List Char → Option (List Char)
  | '(' :: s => if g.shape = .eachTerm ∧ s.head? = some '"' then none else some s
  | _ => none

/-- An item; `limit` bounds the depth of its groups. -/
def readItem : Nat → Reader Item
  | 0, _ => none
  | limit + 1, s =>
    match dropStartChars? negation s with
    | some s => do
      let ((token, terms), s) ← readTerms g s
      return (.part ⟨true, token, terms⟩, s)
    | none =>
      match groupStart? g s with
      | some s => do
        let (l, s) ← readLevel g (readItem limit) s
        let s ← dropStartChars? [')'] s
        return (l.group, s)
      | none => do
        let ((token, terms), s) ← readTerms g s
        return (.part ⟨false, token, terms⟩, s)

/-- The skeleton that a text shows, if it shows one from its beginning to its end. -/
def read (s : String) : Option Skeleton :=
  match readLevel g (readItem g (s.toList.length + 1)) s.toList with
  | some (l, []) => some l
  | _ => none

end Skeleton

namespace Skeleton
variable {α : Type} {g : Grammar}

/-! ## What can be read -/

/-- A level with something to read, and an operator exactly if there is something to join. -/
inductive Level.Proper : Level α → Prop where
  | one (a : α) : Proper ⟨none, [a]⟩
  | several (o : Operator) (a b : α) (rest : List α) : Proper ⟨some o, a :: b :: rest⟩

theorem Level.proper_of (o : Operator) {items : List α} (h : items ≠ []) :
    (Level.of o items).Proper := by
  match items, h with
  | [a], _ => exact .one a
  | a :: b :: rest, _ => exact .several o a b rest

/-- A token that can be told from what stands around it. Where every term has its token, the quote
at its beginning tells a part from a group. -/
def LegibleToken : TermShape → String → Prop
  | .eachTerm, token => token.toList.head? = some '"' ∧ ':' ∉ token.toList
  | .call, token | .label, token =>
    token.toList ≠ [] ∧ token.toList.head? ≠ some 'N' ∧ '(' ∉ token.toList ∧ ':' ∉ token.toList

instance : (shape : TermShape) → (token : String) → Decidable (LegibleToken shape token)
  | .eachTerm, _ => inferInstanceAs (Decidable (_ ∧ _))
  | .call, _ => inferInstanceAs (Decidable (_ ∧ _))
  | .label, _ => inferInstanceAs (Decidable (_ ∧ _))

/-- A part whose token and terms can be told from the text. -/
structure Part.Legible (g : Grammar) (p : Part) : Prop where
  token : LegibleToken g.shape p.token
  terms : p.terms.Proper
  quoteFree : ∀ t ∈ p.terms.items, '"' ∉ t.toList

inductive Item.Legible (g : Grammar) : Item → Prop where
  | part {p : Part} (h : p.Legible g) : Legible g (.part p)
  | group {l : Level Item} (hl : l.Proper) (h : ∀ i ∈ l.items, Legible g i) : Legible g l.group

/-! ## Levels -/

def moreChars (g : Grammar) (o : Operator) (text : α → List Char) (items : List α) : List Char :=
  items.flatMap fun a => (g.separator o).toList ++ text a

theorem moreChars_cons (o : Operator) (text : α → List Char) (a : α) (items : List α) :
    moreChars g o text (a :: items) =
      (g.separator o).toList ++ (text a ++ moreChars g o text items) := by
  rw [moreChars, List.flatMap_cons, List.append_assoc]
  rfl

theorem Level.chars_one (text : α → List Char) (a : α) :
    Level.chars g text ⟨none, [a]⟩ = text a := by
  rw [Level.chars, List.map_singleton, List.intercalate_singleton]

theorem Level.chars_several (text : α → List Char) (o : Operator) (a : α) (items : List α) :
    Level.chars g text ⟨some o, a :: items⟩ = text a ++ moreChars g o text items := by
  rw [Level.chars, List.map_cons, Text.intercalate_cons, List.flatMap_map]
  rfl

/-- The text of a level starts with that of an item. -/
theorem Level.Proper.chars_eq {l : Level α} (hl : l.Proper) (text : α → List Char) :
    ∃ a ∈ l.items, ∃ more, l.chars g text = text a ++ more := by
  cases hl with
  | one a => exact ⟨a, List.mem_singleton_self a, [], by rw [Level.chars_one, List.append_nil]⟩
  | several o a b items => exact ⟨a, List.mem_cons_self, _, Level.chars_several text o a _⟩

theorem length_le_moreChars {o : Operator} {text : α → List Char} {items : List α} {a : α}
    (ha : a ∈ items) : (text a).length ≤ (moreChars g o text items).length := by
  obtain ⟨before, after, rfl⟩ := List.append_of_mem ha
  simp only [moreChars, List.flatMap_append, List.flatMap_cons, List.length_append]
  omega

theorem Level.Proper.length_le {l : Level α} (hl : l.Proper) (text : α → List Char) {a : α}
    (ha : a ∈ l.items) : (text a).length ≤ (l.chars g text).length := by
  cases hl with
  | one a' =>
    obtain rfl := List.mem_singleton.1 ha
    exact Nat.le_of_eq (congrArg List.length (Level.chars_one text _).symm)
  | several o a' b items =>
    rw [Level.chars_several, List.length_append]
    rcases List.mem_cons.1 ha with rfl | ha
    · exact Nat.le_add_right _ _
    · exact Nat.le_add_left_of_le (length_le_moreChars ha)

theorem length_separator_pos (o : Operator) : 0 < (g.separator o).toList.length := by
  simp [Grammar.separator]

theorem dropStartChars?_separator {rest : List Char} (h : nextOperator? g rest = none)
    (o : Operator) : dropStartChars? (g.separator o).toList rest = none := by
  have ho := List.find?_eq_none.1 h o (by cases o <;> decide)
  simpa using ho

theorem readMore_chars {one : Reader α} {text : α → List Char} {o : Operator} {items : List α}
    (hone : ∀ a ∈ items, ∀ rest, one (text a ++ rest) = some (a, rest)) {rest : List Char}
    (hstop : nextOperator? g rest = none) {limit : Nat}
    (hlimit : (moreChars g o text items).length < limit) :
    readMore g one o limit (moreChars g o text items ++ rest) = some (items, rest) := by
  induction items generalizing limit with
  | nil =>
    obtain ⟨limit, rfl⟩ := Nat.exists_eq_add_of_lt hlimit
    simp only [moreChars, List.flatMap_nil, List.nil_append, readMore,
      dropStartChars?_separator hstop]
  | cons a items ih =>
    rw [List.forall_mem_cons] at hone
    have hsep := length_separator_pos (g := g) o
    rw [moreChars_cons, List.length_append, List.length_append] at hlimit
    cases limit with
    | zero => omega
    | succ limit =>
      rw [moreChars_cons, List.append_assoc, List.append_assoc, readMore,
        Text.dropStartChars?_append]
      simp only [hone.1, ih hone.2 (by omega : _ < limit), Option.bind_eq_bind, Option.bind_some,
        Option.pure_def]

/-! ## What stands at the front of a text -/

theorem readQuoted_chars {t : String} (ht : '"' ∉ t.toList) (rest : List Char) :
    readQuoted (quoted t ++ rest) = some (t, rest) := by
  simp [readQuoted, quoted, dropStartChars?, Text.cutChars?_append ht]

theorem readLabelled_chars (token : String) {t : String} (ht : '"' ∉ t.toList)
    (rest : List Char) :
    readLabelled token.toList (labelled token t ++ rest) = some (t, rest) := by
  have htoken : labelled token t ++ rest = (token.toList ++ [':']) ++ (quoted t ++ rest) := by
    simp [labelled]
  rw [readLabelled, htoken, Text.dropStartChars?_append]
  exact readQuoted_chars ht rest

theorem dropStartChars?_not_termChars {p : Part} (hp : p.Legible g) (rest : List Char) :
    dropStartChars? negation (termChars g p.token p.terms ++ rest) = none := by
  have htoken := hp.token
  rw [termChars]
  cases hshape : g.shape with
  | call | label =>
    rw [hshape] at htoken
    obtain ⟨hne, hfirst, -, -⟩ := htoken
    obtain ⟨c, cs, hcs⟩ := List.exists_cons_of_ne_nil hne
    have hc : 'N' ≠ c := by simpa [hcs, eq_comm] using hfirst
    simp [hcs, negation, dropStartChars?, hc]
  | eachTerm => simp [negation, dropStartChars?]

theorem groupStart?_termChars {p : Part} (hp : p.Legible g) (rest : List Char) :
    groupStart? g (termChars g p.token p.terms ++ rest) = none := by
  have htoken := hp.token
  rw [termChars]
  cases hshape : g.shape with
  | call | label =>
    rw [hshape] at htoken
    obtain ⟨hne, -, hparen, -⟩ := htoken
    obtain ⟨c, cs, hcs⟩ := List.exists_cons_of_ne_nil hne
    have hc : c ≠ '(' := by
      rintro rfl
      exact hparen (hcs ▸ List.mem_cons_self)
    simp [hcs, groupStart?, hc]
  | eachTerm =>
    rw [hshape] at htoken
    obtain ⟨hquote, -⟩ := htoken
    obtain ⟨t, -, more, hmore⟩ := hp.terms.chars_eq (g := g) (labelled p.token)
    simp [groupStart?, hshape, hmore, labelled, hquote]

/-- A group is taken for one where terms carry their tokens, since an item does not start with a
quote there. -/
theorem head?_chars_ne {i : Item} (hi : i.Legible g) (hshape : g.shape = .eachTerm)
    (rest : List Char) : (i.chars g ++ rest).head? ≠ some '"' := by
  cases hi with
  | @part p h =>
    rw [Item.chars_part, Part.chars, termChars, hshape]
    split <;> simp [negation]
  | group hl h => simp [Item.chars_group]

theorem groupStart?_group {l : Level Item} (hl : l.Proper) (h : ∀ i ∈ l.items, i.Legible g)
    (rest : List Char) :
    groupStart? g ('(' :: (l.chars g (Item.chars g) ++ rest)) =
      some (l.chars g (Item.chars g) ++ rest) := by
  obtain ⟨i, hi, more, hmore⟩ := hl.chars_eq (g := g) (Item.chars g)
  rw [groupStart?, if_neg]
  rintro ⟨hshape, hhead⟩
  rw [hmore, List.append_assoc] at hhead
  exact head?_chars_ne (h i hi) hshape _ hhead

/-! ## Reading what was written -/

section Reading
variable (hg : g.operatorToken = Grammar.usualOperatorToken)
include hg

theorem nextOperator?_separator (o : Operator) (rest : List Char) :
    nextOperator? g ((g.separator o).toList ++ rest) = some o := by
  cases o <;> simp [nextOperator?, Grammar.separator, hg, Grammar.usualOperatorToken,
    dropStartChars?]

theorem nextOperator?_nil : nextOperator? g [] = none := by
  simp [nextOperator?, Grammar.separator, hg, Grammar.usualOperatorToken, dropStartChars?]

theorem nextOperator?_closing (rest : List Char) : nextOperator? g (')' :: rest) = none := by
  simp [nextOperator?, Grammar.separator, hg, Grammar.usualOperatorToken, dropStartChars?]

/-- A level is read again when its items are. -/
theorem readLevel_chars {one : Reader α} {text : α → List Char} {l : Level α} (hl : l.Proper)
    (hone : ∀ a ∈ l.items, ∀ rest, one (text a ++ rest) = some (a, rest)) {rest : List Char}
    (hstop : nextOperator? g rest = none) :
    readLevel g one (l.chars g text ++ rest) = some (l, rest) := by
  cases hl with
  | one a =>
    rw [Level.chars_one, readLevel]
    simp only [hone a (List.mem_singleton_self a), hstop, Option.bind_eq_bind, Option.bind_some,
      Option.pure_def]
  | several o a b items =>
    rw [List.forall_mem_cons] at hone
    have hnext : nextOperator? g (moreChars g o text (b :: items) ++ rest) = some o := by
      rw [moreChars_cons, List.append_assoc]
      exact nextOperator?_separator hg o _
    have hmore := readMore_chars hone.2 (o := o) hstop
      (Nat.lt_succ_of_le (List.sublist_append_left _ rest).length_le)
    rw [Level.chars_several, List.append_assoc, readLevel]
    simp only [hone.1, hnext, hmore, Option.bind_eq_bind, Option.bind_some, Option.pure_def]

theorem readParenthesized_chars {one : Reader String} {text : String → List Char}
    {terms : Level String} (hp : terms.Proper)
    (hone : ∀ t ∈ terms.items, ∀ rest, one (text t ++ rest) = some (t, rest)) (rest : List Char) :
    readParenthesized g one ('(' :: (terms.chars g text ++ ')' :: rest)) = some (terms, rest) := by
  have hterms := readLevel_chars hg hp hone (nextOperator?_closing hg rest)
  simp [readParenthesized, dropStartChars?, hterms]

/-- Terms behind a token are read again, whatever follows them. -/
theorem readTerms_chars {p : Part} (hp : p.Legible g) (rest : List Char) :
    readTerms g (termChars g p.token p.terms ++ rest) = some ((p.token, p.terms), rest) := by
  have htoken := hp.token
  rw [readTerms, termChars]
  cases hshape : g.shape with
  | call =>
    rw [hshape] at htoken
    obtain ⟨-, -, hparen, -⟩ := htoken
    have hterms := readParenthesized_chars hg hp.terms
      (fun t ht => readQuoted_chars (hp.quoteFree t ht)) rest
    simp [Text.cutChars?_append hparen, hterms]
  | label =>
    rw [hshape] at htoken
    obtain ⟨-, -, -, hcolon⟩ := htoken
    have hterms := readParenthesized_chars hg hp.terms
      (fun t ht => readQuoted_chars (hp.quoteFree t ht)) rest
    simp [Text.cutChars?_append hcolon, hterms]
  | eachTerm =>
    rw [hshape] at htoken
    obtain ⟨-, hcolon⟩ := htoken
    have hterms := readParenthesized_chars hg hp.terms
      (fun t ht => readLabelled_chars p.token (hp.quoteFree t ht)) rest
    obtain ⟨t, -, more, hmore⟩ := hp.terms.chars_eq (g := g) (labelled p.token)
    have hcut : cutChars? ':' (p.terms.chars g (labelled p.token) ++ ')' :: rest) =
        some (p.token.toList, quoted t ++ more ++ ')' :: rest) := by
      rw [hmore]
      exact Text.cutChars?_eq_some_iff.2 ⟨by simp [labelled], hcolon⟩
    simp [hcut, hterms]

/-- An item is read again, whatever follows it. -/
theorem readItem_chars {i : Item} (hi : i.Legible g) {limit : Nat}
    (hlimit : (i.chars g).length < limit) (rest : List Char) :
    readItem g limit (i.chars g ++ rest) = some (i, rest) := by
  induction hi generalizing limit rest with
  | @part p hp =>
    obtain ⟨limit, rfl⟩ := Nat.exists_eq_add_of_lt hlimit
    have hterms := readTerms_chars hg hp rest
    obtain ⟨negated, token, terms⟩ := p
    rw [Item.chars_part, Part.chars, readItem]
    cases negated with
    | true =>
      rw [if_pos rfl, List.append_assoc, Text.dropStartChars?_append]
      simp only [hterms, Option.bind_eq_bind, Option.bind_some, Option.pure_def]
    | false =>
      rw [if_neg Bool.false_ne_true, dropStartChars?_not_termChars hp, groupStart?_termChars hp]
      simp only [hterms, Option.bind_eq_bind, Option.bind_some, Option.pure_def]
  | @group l hl hitems ih =>
    cases limit with
    | zero => omega
    | succ limit =>
      rw [Item.chars_group, List.length_cons, List.length_append] at hlimit
      have hlevel : readLevel g (readItem g limit) (l.chars g (Item.chars g) ++ ')' :: rest) =
          some (l, ')' :: rest) := by
        refine readLevel_chars hg hl (fun i hi => ih i hi ?_) (nextOperator?_closing hg rest)
        have := hl.length_le (g := g) (Item.chars g) hi
        omega
      have hstart := groupStart?_group hl hitems (')' :: rest)
      have hnot : dropStartChars? negation ('(' :: (l.chars g (Item.chars g) ++ ')' :: rest)) =
          none := rfl
      rw [Item.chars_group, List.cons_append, List.append_assoc, List.singleton_append, readItem,
        hnot, hstart]
      simp only [hlevel, dropStartChars?, if_true, Option.bind_eq_bind, Option.bind_some,
        Option.pure_def]

theorem read_chars {l : Skeleton} (hl : l.Proper) (h : ∀ i ∈ l.items, i.Legible g) {s : String}
    (hs : s.toList = l.chars g (Item.chars g)) : read g s = some l := by
  have hlevel : readLevel g (readItem g (s.toList.length + 1)) (l.chars g (Item.chars g) ++ []) =
      some (l, []) := by
    refine readLevel_chars hg hl (fun i hi => readItem_chars hg (h i hi) ?_) (nextOperator?_nil hg)
    rw [hs]
    exact Nat.lt_succ_of_le (hl.length_le _ hi)
  rw [List.append_nil, ← hs] at hlevel
  rw [read, hlevel]

end Reading

end Skeleton

open Skeleton

/-! ## Queries -/

namespace Grammar
variable {g : Grammar}

/-- A grammar whose operators and tokens can be told from the text. -/
structure Legible (g : Grammar) : Prop where
  operators : g.operatorToken = usualOperatorToken
  field : ∀ f, LegibleToken g.shape (g.fieldToken f)
  descriptive : ∀ token, g.descriptiveToken? = some token → LegibleToken g.shape token

theorem Legible.partToken (hg : g.Legible) {c : Clause} {token : String}
    (h : token ∈ g.partTokens c) : LegibleToken g.shape token := by
  have hfields (h : token ∈ c.fields.map g.fieldToken) : LegibleToken g.shape token := by
    obtain ⟨f, -, rfl⟩ := List.mem_map.1 h
    exact hg.field f
  rw [partTokens] at h
  split at h
  · next descriptive hd =>
    split at h
    · obtain rfl := List.mem_singleton.1 h
      exact hg.descriptive _ hd
    · exact hfields h
  · exact hfields h

theorem partTokens_ne_nil (g : Grammar) (c : Clause) : g.partTokens c ≠ [] := by
  have hfields : c.fields.map g.fieldToken ≠ [] := mt List.map_eq_nil_iff.1 c.fields_ne_nil
  rw [partTokens]
  split
  · split
    · exact List.cons_ne_nil _ _
    · exact hfields
  · exact hfields

theorem clauseParts_ne_nil (g : Grammar) (c : Clause) : g.clauseParts c ≠ [] :=
  mt List.map_eq_nil_iff.1 (partTokens_ne_nil g c)

theorem Legible.clauseParts (hg : g.Legible) {c : Clause} (hc : ∀ t ∈ c.terms, '"' ∉ t.toList) :
    ∀ p ∈ g.clauseParts c, p.Legible g := by
  intro p hp
  obtain ⟨token, htoken, rfl⟩ := List.mem_map.1 hp
  exact ⟨hg.partToken htoken, Level.proper_of _ c.terms_ne_nil, hc⟩

theorem Legible.clauseItem (hg : g.Legible) {c : Clause} (hc : ∀ t ∈ c.terms, '"' ∉ t.toList) :
    (g.clauseItem c).Legible g := by
  have hparts := hg.clauseParts hc
  rw [Grammar.clauseItem]
  split
  · next p hp => exact .part (hparts p (hp ▸ List.mem_singleton_self p))
  · refine .group (Level.proper_of _ ?_) fun i hi => ?_
    · exact mt List.map_eq_nil_iff.1 (clauseParts_ne_nil g c)
    · obtain ⟨p, hp, rfl⟩ := List.mem_map.1 hi
      exact .part (hparts p hp)

theorem Legible.nodeItem (hg : g.Legible) {n : Node} (hn : n.NonEmpty)
    (hq : ∀ c ∈ n.clauses, ∀ t ∈ c.terms, '"' ∉ t.toList) : (g.nodeItem n).Legible g := by
  induction hn with
  | clause c => exact hg.clauseItem (hq c (List.mem_singleton_self c))
  | @group o children hne _ ih =>
    rw [Grammar.nodeItem, Node.fold_group]
    refine .group (Level.proper_of o (mt List.map_eq_nil_iff.1 hne)) fun i hi => ?_
    obtain ⟨n, hn, rfl⟩ := List.mem_map.1 hi
    exact ih n hn fun c hc => hq c (Node.mem_clauses_group.2 ⟨n, hn, hc⟩)

/-- The text of a query shows its skeleton. -/
theorem Legible.read_compile (hg : g.Legible) {q : Query} (hne : q.NonEmpty) (hq : q.QuoteFree) :
    read g (g.compile q) = some (g.skeleton q) := by
  obtain ⟨hchildren, hnodes⟩ := Query.nonEmpty_iff.1 hne
  refine read_chars hg.operators (Level.proper_of _ (mt List.map_eq_nil_iff.1 hchildren))
    (fun i hi => ?_) (g.toList_compile q)
  obtain ⟨n, hn, rfl⟩ := List.mem_map.1 hi
  exact hg.nodeItem (hnodes n hn) fun c hc => hq c (Query.mem_clauses.2 ⟨n, hn, hc⟩)

end Grammar

/-- All engines have legible grammars. -/
theorem Vendor.legible (v : Vendor) : v.grammar.Legible := by
  cases v with
  | scopus =>
    refine ⟨rfl, fun f => ?_, fun token h => ?_⟩
    · cases f <;> decide
    · obtain rfl := Option.some.inj h
      decide
  | ieee =>
    refine ⟨rfl, fun f => ?_, nofun⟩
    cases f <;> decide
  | acm =>
    refine ⟨rfl, fun f => ?_, nofun⟩
    cases f <;> decide

/-! ## Queries with the same text -/

/-- Two queries are written alike for an engine exactly if they have the same skeleton there. -/
theorem Vendor.compile_eq_iff (v : Vendor) {q q' : Query} (hne : q.NonEmpty) (hne' : q'.NonEmpty)
    (hq : q.QuoteFree) (hq' : q'.QuoteFree) :
    v.grammar.compile q = v.grammar.compile q' ↔ v.grammar.skeleton q = v.grammar.skeleton q' := by
  constructor
  · intro h
    have hread := v.legible.read_compile hne hq
    have hread' := v.legible.read_compile hne' hq'
    rw [h, hread'] at hread
    exact (Option.some.inj hread).symm
  · intro h
    apply String.toList_injective
    rw [Grammar.toList_compile, Grammar.toList_compile, h]

def Query.alone (o : Operator) : Query :=
  .ofClause o
    { operator := o, negated := true, fields := [.title], terms := [") OR (NOT a:"]
      nodup_fields := by decide, fields_ne_nil := by decide, terms_ne_nil := by decide }

/-- No operator can be read off a text in which nothing is joined. -/
theorem Vendor.compile_alone :
    (Query.alone .and).NonEmpty ∧ (Query.alone .or).NonEmpty ∧
    (Query.alone .and).QuoteFree ∧ (Query.alone .or).QuoteFree ∧
    ieee.grammar.compile (Query.alone .and) = ieee.grammar.compile (Query.alone .or) := by
  have hne (o : Operator) : (Query.alone o).NonEmpty := Query.nonEmpty_ofClause ..
  have hq (o : Operator) : (Query.alone o).QuoteFree := by
    cases o <;> exact Query.quoteFree_ofClause _ (by decide)
  exact ⟨hne .and, hne .or, hq .and, hq .or,
    (Vendor.compile_eq_iff ieee (hne .and) (hne .or) (hq .and) (hq .or)).2 rfl⟩

end PaperTrail
