import Mathlib.Data.List.Basic
import PaperTrail.Proofs.Http.Request
import PaperTrail.Proofs.Search.Continuation

/-!
# The chain of pages of Scopus

Every page of Scopus names the next one, so the replies to a search form a chain. `Scopus.Follows`
says which requests follow a chain of replies and what comes of them; fetching all pages sends
exactly these requests and gives exactly this result (`Scopus.drain_follows`).

* `Scopus.Barren`, `Scopus.Fruitful` : empty pages, and the others with their links and items;
* `Scopus.Link.PointsOn`, `Scopus.Names` : links to next pages, and the first of them;
* `Scopus.reply_cases` : what a reply can be;
* `Scopus.Follows` : the requests and the result of a chain of replies.
-/

namespace PaperTrail.Scopus

/-- A successful reply with these results. -/
def Shows (e : Exchange) (results? : Option Results) : Prop :=
  ∃ body, replyText name e = .ok body ∧ pageOf? body = some results?

/-- The results of an empty page: they are missing, have no items, or report an error. -/
inductive Barren : Option Results → Prop
  | missing : Barren none
  | withoutItems (links : List Link) : Barren (some ⟨links, none⟩)
  | noItems (links : List Link) : Barren (some ⟨links, some []⟩)
  | error (links : List Link) {item : Json} (rest : List Json) (h : item.get? "error" ≠ none) :
      Barren (some ⟨links, some (item :: rest)⟩)

/-- A reply that ends a search, with the page that it gives: a failure, a body that cannot be read,
or an empty page. -/
inductive Ending (e : Exchange) : Page → Prop
  | failed {err : FetchError} (h : replyText name e = .error err) : Ending e (.error err)
  | garbled {body : String} (h : replyText name e = .ok body) (hpage : pageOf? body = none) :
      Ending e (.error (.decode name))
  | empty {results? : Option Results} (h : Shows e results?) (hempty : Barren results?) :
      Ending e (.ok [])

/-- Items of which the first one does not report an error. -/
def Fruitful (items : List Json) : Prop :=
  ∃ item rest, items = item :: rest ∧ item.get? "error" = none

def Link.PointsOn (l : Link) : Prop := l.rel = "next" ∧ l.href ≠ ""

/-- The first link to a next page has this address. -/
def Names (links : List Link) (address : String) : Prop :=
  ∃ before l after, links = before ++ l :: after ∧ (∀ l' ∈ before, ¬ l'.PointsOn) ∧
    l.PointsOn ∧ l.href = address

/-- The requests that follow a chain of replies, from the reply of a number on, and what comes of
them. The first of the requests is given, or else why it cannot be made. -/
inductive Follows (c : Scopus) (replies : Nat → Exchange) :
    Nat → Except FetchError Request → List Request → Page → Prop
  | unmade (i : Nat) (e : FetchError) : Follows c replies i (.error e) [] (.error e)
  | ended {i : Nat} (r : Request) {page : Page} (h : Ending (replies i) page) :
      Follows c replies i (.ok r) [r] page
  | last {i : Nat} (r : Request) {links : List Link} {items : List Json}
      (h : Shows (replies i) (some ⟨links, some items⟩)) (hitems : Fruitful items)
      (hlinks : ∀ l ∈ links, ¬ l.PointsOn) : Follows c replies i (.ok r) [r] (.ok (items.map c.entryOf))
  | astray {i : Nat} (r : Request) {links : List Link} {items : List Json} {address : String}
      {e : UrlError} (h : Shows (replies i) (some ⟨links, some items⟩)) (hitems : Fruitful items)
      (hlinks : Names links address) (hurl : Url.parse address = .error e) :
      Follows c replies i (.ok r) [r] (.error (urlError e))
  | more {i : Nat} (r : Request) {links : List Link} {items : List Json} {address : String}
      {url : Url} {asked : List Request} {page : Page}
      (h : Shows (replies i) (some ⟨links, some items⟩)) (hitems : Fruitful items)
      (hlinks : Names links address) (hurl : Url.parse address = .ok url)
      (hrest : Follows c replies (i + 1) (c.authorized url) asked page) :
      Follows c replies i (.ok r) (r :: asked) (page.map (items.map c.entryOf ++ ·))

/-! ## Pages -/

theorem isEmptyPage_iff {items : List Json} : isEmptyPage items = false ↔ Fruitful items := by
  cases items with
  | nil => exact iff_of_false nofun (by rintro ⟨item, rest, h, -⟩; cases h)
  | cons item rest =>
    simp only [isEmptyPage, Option.isSome_eq_false_iff, Option.isNone_iff_eq_none]
    constructor
    · intro h
      exact ⟨item, rest, rfl, h⟩
    · rintro ⟨item', rest', h, hnone⟩
      obtain ⟨rfl, rfl⟩ := List.cons_eq_cons.1 h
      exact hnone

theorem pointsOn_iff {l : Link} : (l.rel == "next" && !l.href.isEmpty) = true ↔ l.PointsOn := by
  simp [Link.PointsOn]

theorem nextLink?_eq_none_iff {links : List Link} :
    nextLink? links = none ↔ ∀ l ∈ links, ¬ l.PointsOn := by
  simp only [nextLink?, Option.map_eq_none_iff, List.find?_eq_none, pointsOn_iff]

theorem nextLink?_eq_some_iff {links : List Link} {address : String} :
    nextLink? links = some address ↔ Names links address := by
  simp only [nextLink?, Option.map_eq_some_iff, List.find?_eq_some_iff_append, pointsOn_iff]
  constructor
  · rintro ⟨l, ⟨hl, before, after, hlinks, hbefore⟩, haddress⟩
    refine ⟨before, l, after, hlinks, fun l' hmem hpoints => ?_, hl, haddress⟩
    have hnot := hbefore l' hmem
    rw [pointsOn_iff.2 hpoints] at hnot
    cases hnot
  · rintro ⟨before, l, after, hlinks, hbefore, hl, haddress⟩
    refine ⟨l, ⟨hl, before, after, hlinks, fun l' hmem => ?_⟩, haddress⟩
    rw [Bool.not_eq_true', ← Bool.not_eq_true, pointsOn_iff]
    exact hbefore l' hmem

theorem takePage_of_barren (c : Scopus) {results? : Option Results} (h : Barren results?) :
    c.takePage results? = (c.withNext none, []) := by
  cases h with
  | missing => rfl
  | withoutItems links => rfl
  | noItems links => rfl
  | error links rest h =>
    have herror : isEmptyPage (_ :: rest) = true := Option.isSome_iff_ne_none.2 h
    simp only [takePage, herror, if_true]
    rfl

theorem takePage_of_fruitful (c : Scopus) (links : List Link) {items : List Json}
    (h : Fruitful items) :
    c.takePage (some ⟨links, some items⟩) =
      (c.withNext (nextLink? links), items.map c.entryOf) := by
  simp only [takePage, isEmptyPage_iff.2 h]
  rfl

theorem barren_or_fruitful (results? : Option Results) :
    Barren results? ∨ ∃ links items, results? = some ⟨links, some items⟩ ∧ Fruitful items := by
  obtain _ | ⟨links, _ | _ | ⟨item, rest⟩⟩ := results?
  · exact Or.inl .missing
  · exact Or.inl (.withoutItems links)
  · exact Or.inl (.noItems links)
  · by_cases h : item.get? "error" = none
    · exact Or.inr ⟨links, item :: rest, rfl, item, rest, rfl, h⟩
    · exact Or.inl (.error links rest h)

/-! ## Replies -/

theorem receive_of_ending (c : Scopus) {e : Exchange} {page : Page} (h : Ending e page) :
    ∃ c', c.receive e = (c', page) := by
  cases h with
  | failed h => exact ⟨c, by simp only [receive, h]⟩
  | garbled h hpage => exact ⟨c, by simp only [receive, h, hpage]⟩
  | empty h hempty =>
    obtain ⟨body, hbody, hpage⟩ := h
    exact ⟨c.withNext none, by simp only [receive, hbody, hpage, takePage_of_barren c hempty]⟩

theorem receive_of_fruitful (c : Scopus) {e : Exchange} {links : List Link} {items : List Json}
    (h : Shows e (some ⟨links, some items⟩)) (hitems : Fruitful items) :
    c.receive e = (c.withNext (nextLink? links), .ok (items.map c.entryOf)) := by
  obtain ⟨body, hbody, hpage⟩ := h
  simp only [receive, hbody, hpage, takePage_of_fruitful c links hitems]

/-- A reply ends the search or shows items. -/
theorem reply_cases (e : Exchange) :
    (∃ page, Ending e page) ∨
      ∃ links items, Shows e (some ⟨links, some items⟩) ∧ Fruitful items := by
  cases hbody : replyText name e with
  | error err => exact Or.inl ⟨_, .failed hbody⟩
  | ok body =>
    cases hpage : pageOf? body with
    | none => exact Or.inl ⟨_, .garbled hbody hpage⟩
    | some results? =>
      have hshows : Shows e results? := ⟨body, hbody, hpage⟩
      rcases barren_or_fruitful results? with h | ⟨links, items, rfl, h⟩
      · exact Or.inl ⟨_, .empty hshows h⟩
      · exact Or.inr ⟨links, items, hshows, h⟩

/-! ## Fetching all pages -/

variable {c : Scopus} {replies : Nat → Exchange}

theorem call_first (c : Scopus) : c.connector.call .first = c.fetchFirst := rfl

theorem call_next (c : Scopus) : c.connector.call .next = c.fetchNext := rfl

theorem map_map_append (page : Page) (a b : List Entry) :
    (page.map (b ++ ·)).map (a ++ ·) = page.map (a ++ b ++ ·) := by
  cases page with
  | error e => rfl
  | ok entries => exact congrArg Except.ok (List.append_assoc a b entries).symm

section
variable (c : Scopus) (replies : Nat → Exchange) (s : Scopus) (entries : List Entry)
  (sent : List Request) (limit : Nat)

theorem run_drainCall_unmade (e : FetchError) :
    ∃ k, (s.connector.drainCall (Server.inTurn replies).send limit entries
      ((c.withNext none).ask (.error e))).run sent = (some (k, .error e), sent) := by
  rw [ask, Connector.run_drainCall_error (Call.run_done _ _ _ _)]
  exact ⟨_, rfl⟩

theorem run_drainCall_ending (r : Request) {page : Page} (h : Ending (replies sent.length) page) :
    ∃ k, (s.connector.drainCall (Server.inTurn replies).send limit entries
      ((c.withNext none).ask (.ok r))).run sent =
        (some (k, page.map (entries ++ ·)), sent ++ [r]) := by
  obtain ⟨c', hreceive⟩ := receive_of_ending (c.withNext none) h
  have hrun : (((c.withNext none).ask (.ok r)).run (Server.inTurn replies).send).run sent =
      ((c', page), sent ++ [r]) := by
    rw [ask, Call.run_ask, Server.inTurn, hreceive]
  have hpage : (∃ e, page = .error e) ∨ page = .ok [] := by
    cases h with
    | failed h => exact Or.inl ⟨_, rfl⟩
    | garbled h hpage => exact Or.inl ⟨_, rfl⟩
    | empty h hempty => exact Or.inr rfl
  rcases hpage with ⟨e, rfl⟩ | rfl
  · exact ⟨_, Connector.run_drainCall_error hrun⟩
  · rw [Connector.run_drainCall_nil hrun, Except.map, List.append_nil]
    exact ⟨_, rfl⟩

theorem run_drainCall_fruitful (r : Request) {links : List Link} {items : List Json}
    (h : Shows (replies sent.length) (some ⟨links, some items⟩)) (hitems : Fruitful items) :
    (s.connector.drainCall (Server.inTurn replies).send limit entries
      ((c.withNext none).ask (.ok r))).run sent =
      (Connector.drainNext (Server.inTurn replies).send limit (entries ++ items.map c.entryOf)
        (c.withNext (nextLink? links)).connector).run (sent ++ [r]) := by
  have hne : items.map c.entryOf ≠ [] := by
    obtain ⟨item, rest, rfl, -⟩ := hitems
    exact List.cons_ne_nil _ _
  have hrun : (((c.withNext none).ask (.ok r)).run (Server.inTurn replies).send).run sent =
      ((c.withNext (nextLink? links), .ok (items.map c.entryOf)), sent ++ [r]) := by
    rw [ask, Call.run_ask, Server.inTurn, receive_of_fruitful _ h hitems]
    rfl
  rw [Connector.run_drainCall_of_ne_nil hrun hne]
  rfl

theorem run_drainNext_of_last {links : List Link} (h : ∀ l ∈ links, ¬ l.PointsOn) :
    ∃ k, (Connector.drainNext (Server.inTurn replies).send (limit + 1) entries
      (c.withNext (nextLink? links)).connector).run sent = (some (k, .ok entries), sent) := by
  have hcall : (c.withNext none).connector.call .next = .done (c.withNext none) (.ok []) := by
    rw [call_next, fetchNext_of_none (next?_withNext c none)]
  rw [nextLink?_eq_none_iff.2 h, Connector.drainNext_succ, hcall,
    Connector.run_drainCall_nil (Call.run_done _ _ _ _)]
  exact ⟨_, rfl⟩

theorem run_drainNext_of_names {links : List Link} {address : String} (h : Names links address) :
    (Connector.drainNext (Server.inTurn replies).send (limit + 1) entries
      (c.withNext (nextLink? links)).connector).run sent =
        ((c.withNext (some address)).connector.drainCall (Server.inTurn replies).send limit entries
          ((c.withNext none).ask (c.nextRequest address))).run sent := by
  have hcall : (c.withNext (some address)).connector.call .next =
      (c.withNext none).ask (c.nextRequest address) := by
    rw [call_next, fetchNext_of_some (next?_withNext c (some address))]
    rfl
  rw [nextLink?_eq_some_iff.2 h, Connector.drainNext_succ, hcall]

end

/-- Following a chain is what fetching all pages does, when it may go on for long enough. -/
theorem Follows.run_drainCall {i : Nat} {r? : Except FetchError Request} {asked : List Request}
    {page : Page} (h : c.Follows replies i r? asked page) (s : Scopus) (entries : List Entry)
    (sent : List Request) (hsent : sent.length = i) {limit : Nat} (hlimit : asked.length ≤ limit) :
    ∃ k, (s.connector.drainCall (Server.inTurn replies).send limit entries
      ((c.withNext none).ask r?)).run sent =
        (some (k, page.map (entries ++ ·)), sent ++ asked) := by
  induction h generalizing s entries sent limit with
  | unmade i e =>
    rw [List.append_nil]
    exact run_drainCall_unmade c replies s entries sent limit e
  | ended r h =>
    subst hsent
    exact run_drainCall_ending c replies s entries sent limit r h
  | last r h hitems hlinks =>
    subst hsent
    obtain ⟨limit, rfl⟩ := Nat.exists_eq_succ_of_ne_zero (Nat.ne_of_gt hlimit)
    rw [run_drainCall_fruitful _ _ _ _ _ _ r h hitems]
    exact run_drainNext_of_last _ _ _ _ _ hlinks
  | @astray i r links items address e h hitems hlinks hurl =>
    subst hsent
    obtain ⟨limit, rfl⟩ := Nat.exists_eq_succ_of_ne_zero (Nat.ne_of_gt hlimit)
    have hnext : c.nextRequest address = .error (urlError e) := by simp only [nextRequest, hurl]
    rw [run_drainCall_fruitful _ _ _ _ _ _ r h hitems, run_drainNext_of_names _ _ _ _ _ hlinks,
      hnext]
    exact run_drainCall_unmade _ _ _ _ _ _ _
  | @more i r links items address url asked page h hitems hlinks hurl hrest ih =>
    subst hsent
    rw [List.length_cons] at hlimit
    obtain ⟨limit, rfl⟩ := Nat.exists_eq_succ_of_ne_zero (by omega : limit ≠ 0)
    have hnext : c.nextRequest address = c.authorized url := by simp only [nextRequest, hurl]
    rw [run_drainCall_fruitful _ _ _ _ _ _ r h hitems, run_drainNext_of_names _ _ _ _ _ hlinks,
      hnext]
    obtain ⟨k, hk⟩ := ih (c.withNext (some address)) (entries ++ items.map c.entryOf)
      (sent ++ [r]) (by simp) (Nat.le_of_succ_le_succ hlimit)
    exact ⟨k, by rw [hk, map_map_append, List.append_assoc, List.singleton_append]⟩

/-- Fetching all pages, when it comes to an end, has followed the chain of the replies. -/
theorem follows_of_run_drainCall (limit : Nat) {r? : Except FetchError Request} {s : Scopus}
    {entries : List Entry} {sent sent' : List Request} {k : Connector Scopus} {result : Page}
    (h : (s.connector.drainCall (Server.inTurn replies).send limit entries
      ((c.withNext none).ask r?)).run sent = (some (k, result), sent')) :
    ∃ asked page, c.Follows replies sent.length r? asked page ∧ sent' = sent ++ asked ∧
      result = page.map (entries ++ ·) := by
  -- every page with items uses up one of the calls, so the rest of the chain is the shorter run
  induction limit using Nat.strongRecOn generalizing r? s entries sent with
  | ind limit ih =>
    cases r? with
    | error e =>
      obtain ⟨k', hk⟩ := run_drainCall_unmade c replies s entries sent limit e
      obtain ⟨⟨-, rfl⟩, rfl⟩ := by simpa using hk.symm.trans h
      exact ⟨[], .error e, .unmade _ e, (List.append_nil _).symm, rfl⟩
    | ok r =>
      rcases reply_cases (replies sent.length) with ⟨page, hending⟩ | ⟨links, items, hshows, hitems⟩
      · obtain ⟨k', hk⟩ := run_drainCall_ending c replies s entries sent limit r hending
        obtain ⟨⟨-, rfl⟩, rfl⟩ := by simpa using hk.symm.trans h
        exact ⟨[r], page, .ended r hending, rfl, rfl⟩
      · rw [run_drainCall_fruitful _ _ _ _ _ _ r hshows hitems] at h
        cases limit with
        | zero => cases h
        | succ limit =>
          cases hnext : nextLink? links with
          | none =>
            have hlinks := nextLink?_eq_none_iff.1 hnext
            obtain ⟨k', hk⟩ := run_drainNext_of_last c replies (entries ++ items.map c.entryOf)
              (sent ++ [r]) limit hlinks
            obtain ⟨⟨-, rfl⟩, rfl⟩ := by simpa using hk.symm.trans h
            exact ⟨[r], _, .last r hshows hitems hlinks, rfl, rfl⟩
          | some address =>
            have hlinks := nextLink?_eq_some_iff.1 hnext
            rw [run_drainNext_of_names _ _ _ _ _ hlinks] at h
            cases hurl : Url.parse address with
            | error e =>
              have hrequest : c.nextRequest address = .error (urlError e) := by
                simp only [nextRequest, hurl]
              obtain ⟨k', hk⟩ := run_drainCall_unmade c replies (c.withNext (some address))
                (entries ++ items.map c.entryOf) (sent ++ [r]) limit (urlError e)
              rw [hrequest] at h
              obtain ⟨⟨-, rfl⟩, rfl⟩ := by simpa using hk.symm.trans h
              exact ⟨[r], _, .astray r hshows hitems hlinks hurl, rfl, rfl⟩
            | ok url =>
              have hrequest : c.nextRequest address = c.authorized url := by
                simp only [nextRequest, hurl]
              rw [hrequest] at h
              obtain ⟨asked, page, hrest, rfl, rfl⟩ := ih limit (Nat.lt_succ_self limit) h
              rw [List.length_append, List.length_singleton] at hrest
              refine ⟨r :: asked, _, .more r hshows hitems hlinks hurl hrest, ?_, ?_⟩
              · rw [List.append_assoc, List.singleton_append]
              · rw [map_map_append]

/-- A request for the page of a URL goes to this URL, its user name and password apart. -/
theorem withoutUser_authorized {url : Url} {r : Request} (h : c.authorized url = .ok r) :
    r.url.withoutUser = url.withoutUser := by
  simp only [authorized] at h
  split at h
  · next r' hr =>
    obtain rfl := Except.ok.inj h
    simp only [bind, Option.bind_eq_some_iff] at hr
    obtain ⟨plain, hplain, accepting, haccepting, keyed, hkeyed, hlast⟩ := hr
    have hkeys : keyed.url.withoutUser = url.withoutUser := by
      rw [Request.url_withHeader hkeyed, Request.url_withHeader haccepting,
        Request.withoutUser_get hplain]
    split at hlast
    · rw [Request.url_withHeader hlast, hkeys]
    · rw [← Option.some.inj hlast, hkeys]
  · cases h

/-- A request can be made when the tokens can stand in headers. -/
theorem exists_authorized {url : Url} (hhost : url.hasHost = true)
    (htoken : Request.isHeaderValue c.token = true)
    (hinst : ∀ t, c.institutionalToken? = some t → Request.isHeaderValue t = true) :
    ∃ r, c.authorized url = .ok r := by
  obtain ⟨plain, hplain⟩ := Request.exists_get hhost
  obtain ⟨accepting, haccepting⟩ := plain.exists_withHeader "accept"
    (by decide : Request.isHeaderValue "application/json" = true)
  obtain ⟨keyed, hkeyed⟩ := accepting.exists_withHeader "x-els-apikey" htoken
  simp only [authorized, hplain, haccepting, hkeyed, bind, Option.bind_some]
  cases ht : c.institutionalToken? with
  | none => exact ⟨_, rfl⟩
  | some t =>
    obtain ⟨r, hr⟩ := keyed.exists_withHeader "x-els-insttoken" (hinst t ht)
    simp only [hr]
    exact ⟨_, rfl⟩

/-- Fetching all pages sends the requests that follow the chain of the replies and gives what comes
of them, provided it may go on for long enough; and it comes to an end in no other way. A request
goes to the URL that it is for, its user name and password apart; it can be made for every URL with a
host when the tokens can stand in headers. -/
theorem drain_follows (c : Scopus) (replies : Nat → Exchange) (asked : List Request) (page : Page) :
    (c.Follows replies 0 c.firstRequest asked page → ∀ limit, asked.length ≤ limit →
      ∃ k, (c.connector.drain (Server.inTurn replies).send limit).run [] = (some (k, page), asked)) ∧
    (∀ limit k, (c.connector.drain (Server.inTurn replies).send limit).run [] =
      (some (k, page), asked) → c.Follows replies 0 c.firstRequest asked page) ∧
    (∀ url r, c.authorized url = .ok r → r.url.withoutUser = url.withoutUser) ∧
    (Request.isHeaderValue c.token = true →
      (∀ t, c.institutionalToken? = some t → Request.isHeaderValue t = true) →
      ∀ url : Url, url.hasHost = true → ∃ r, c.authorized url = .ok r) := by
  have hcall : c.connector.call .first = (c.withNext none).ask c.firstRequest := by
    rw [call_first, fetchFirst_eq]
  have hmap : ∀ p : Page, p.map ([] ++ ·) = p := by
    intro p
    cases p <;> rfl
  refine ⟨fun h limit hlimit => ?_, fun limit k h => ?_, fun url r h => ?_,
    fun htoken hinst url hhost => exists_authorized hhost htoken hinst⟩
  · obtain ⟨k, hk⟩ := h.run_drainCall c [] [] rfl hlimit
    rw [Connector.drain_eq_drainCall, hcall, hk, hmap]
    exact ⟨k, rfl⟩
  · rw [Connector.drain_eq_drainCall, hcall] at h
    obtain ⟨asked', page', hfollows, rfl, rfl⟩ := follows_of_run_drainCall limit h
    rw [hmap]
    exact hfollows
  · exact withoutUser_authorized h

/-- A page with an item and three links, of which the last one points on, and then a page with an
error and such a link. -/
def itemThenError : Nat → Exchange
  | 0 => .reply 200 (some ("\x7b\"search-results\":\x7b\"entry\":[\x7b\"dc:title\":\"One\"\x7d]," ++
      "\"link\":[\x7b\"@ref\":\"self\",\"@href\":\"http://a/1\"\x7d," ++
      "\x7b\"@ref\":\"next\",\"@href\":\"\"\x7d," ++
      "\x7b\"@ref\":\"next\",\"@href\":\"http://a/2\"\x7d]\x7d\x7d"))
  | _ => .reply 200 (some ("\x7b\"search-results\":\x7b\"entry\":[\x7b\"error\":\"none\"\x7d]," ++
      "\"link\":[\x7b\"@ref\":\"next\",\"@href\":\"http://a/3\"\x7d]\x7d\x7d"))

theorem drain_follows_itemThenError :
    let c := new defaultBase "key" "q"
    let page := .ok [Entry.new { Resource.empty with title := "One" } [Source.withLink name ""]]
    ∃ asked, c.Follows itemThenError 0 c.firstRequest asked page ∧
      asked.map (fun r => (r.url.authority?.map Authority.text, r.url.path)) =
        [(some "api.elsevier.com", .segments ["content", "search", "scopus"]),
          (some "a", .segments ["2"])] ∧
      (∃ k, (c.connector.drain (Server.inTurn itemThenError).send asked.length).run [] =
        (some (k, page), asked)) ∧
      ∃ url r, Url.parse "http://a/2" = .ok url ∧ url.hasHost = true ∧ c.authorized url = .ok r := by
  intro c page
  have hrun :
      let result := (c.connector.drain (Server.inTurn itemThenError).send 2).run []
      result.1.map (·.2) = some page ∧
        result.2.map (fun r => (r.url.authority?.map Authority.text, r.url.path)) =
          [(some "api.elsevier.com", .segments ["content", "search", "scopus"]),
            (some "a", .segments ["2"])] := by decide +kernel
  cases hresult : (c.connector.drain (Server.inTurn itemThenError).send 2).run [] with
  | mk last? asked =>
    rw [hresult] at hrun
    obtain ⟨hpage, hasked⟩ := hrun
    obtain ⟨⟨k, _⟩, rfl, rfl⟩ := Option.map_eq_some_iff.1 hpage
    obtain ⟨hdrain, hfollows, -, hmade⟩ := drain_follows c itemThenError asked page
    have hchain := hfollows 2 k hresult
    let second : Url := ⟨"http", some ⟨"", none, "a", none⟩, .segments ["2"], none, none⟩
    have hsecond : Url.parse "http://a/2" = .ok second := by decide +kernel
    have hinst : ∀ t, c.institutionalToken? = some t → Request.isHeaderValue t = true :=
      fun t ht => nomatch ht
    obtain ⟨r, hr⟩ := hmade (by decide) hinst second rfl
    exact ⟨asked, hchain, hasked, hdrain hchain asked.length (Nat.le_refl _), second, r, hsecond, rfl,
      hr⟩

end PaperTrail.Scopus
