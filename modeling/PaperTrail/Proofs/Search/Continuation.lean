import PaperTrail.Proofs.Search.Session

/-!
# How a search goes on

* `Search.fresh` : a search as it was built; `Search.hasNext` : whether it knows a page to go on
  with;
* `Ieee.receive_cases`, `Scopus.receive_cases` : all that a reply can do;
* `Search.ensures_call` : a call keeps the settings, and no page is known after an empty one;
* `Search.session_continuation` : nothing is sent before the first page is asked for nor after an
  empty page, and asking for the first page starts from the beginning;
* `Search.turn_next_after_error` : a page of IEEE Xplore that fails is asked for again, one of Scopus
  is not.
-/

namespace PaperTrail

/-! ## Calls -/

namespace Ieee
variable {c : Ieee} {start : Nat}

def withNext (c : Ieee) (next? : Option Nat) : Ieee := { c with next? := next? }

@[simp] theorem next?_withNext (c : Ieee) (next? : Option Nat) : (c.withNext next?).next? = next? := rfl

@[simp] theorem withNext_withNext (c : Ieee) (a b : Option Nat) :
    (c.withNext a).withNext b = c.withNext b := rfl

theorem fetch_of_none (h : c.next? = none) : c.fetch = .done c (.ok []) := by
  simp only [fetch, h]

theorem fetch_of_error {e : FetchError} (h : c.next? = some start) (hr : c.request start = .error e) :
    c.fetch = .done c (.error e) := by
  simp only [fetch, h, hr]

theorem fetch_of_ok {r : Request} (h : c.next? = some start) (hr : c.request start = .ok r) :
    c.fetch = .ask r (c.receive start) := by
  simp only [fetch, h, hr]

end Ieee

namespace Scopus

def withNext (c : Scopus) (next? : Option String) : Scopus := { c with next? := next? }

@[simp] theorem next?_withNext (c : Scopus) (next? : Option String) :
    (c.withNext next?).next? = next? := rfl

def ask (c : Scopus) : Except FetchError Request → Call Scopus
  | .error e => .done c (.error e)
  | .ok r => .ask r c.receive

theorem fetchFirst_eq (c : Scopus) : c.fetchFirst = (c.withNext none).ask c.firstRequest := by
  change (match c.firstRequest with
    | .error e => Call.done (c.withNext none) (.error e)
    | .ok r => .ask r (c.withNext none).receive) = _
  cases c.firstRequest <;> rfl

theorem fetchNext_of_none {c : Scopus} (h : c.next? = none) : c.fetchNext = .done c (.ok []) := by
  simp only [fetchNext, h]

theorem fetchNext_of_some {c : Scopus} {link : String} (h : c.next? = some link) :
    c.fetchNext = (c.withNext none).ask (c.nextRequest link) := by
  simp only [fetchNext, h]
  change (match c.nextRequest link with
    | .error e => Call.done (c.withNext none) (.error e)
    | .ok r => .ask r (c.withNext none).receive) = _
  cases c.nextRequest link <;> rfl

end Scopus

/-! ## What a reply does -/

/-- A failure leaves a search of IEEE Xplore as it is, a page moves it on. -/
theorem Ieee.receive_cases (c : Ieee) (start : Nat) (e : Exchange) :
    (∃ err, c.receive start e = (c, .error err)) ∨
      ∃ total? entries, c.receive start e =
        (c.withNext (nextStart start entries.length total?), .ok entries) := by
  rw [receive]
  cases replyText name e with
  | error err => exact Or.inl ⟨err, rfl⟩
  | ok body =>
    cases hpage : pageOf? body with
    | none => exact Or.inl ⟨.decode name, by simp only [hpage]⟩
    | some page => exact Or.inr ⟨page.1, page.2, by simp only [hpage]; rfl⟩

/-- The entries of a page of Scopus, and the search that goes on after it. -/
theorem Scopus.takePage_cases (c : Scopus) (results? : Option Results) :
    c.takePage results? = (c.withNext none, []) ∨
      ∃ next? entries, entries ≠ [] ∧ c.takePage results? = (c.withNext next?, entries) := by
  cases results? with
  | none => exact Or.inl rfl
  | some r =>
    obtain ⟨links, _ | items⟩ := r
    · exact Or.inl rfl
    · cases hempty : isEmptyPage items with
      | true => exact Or.inl (by simp only [takePage, hempty, if_true]; rfl)
      | false =>
        refine Or.inr ⟨nextLink? links, items.map c.entryOf, ?_, ?_⟩
        · rintro hnil
          rw [List.map_eq_nil_iff.1 hnil] at hempty
          cases hempty
        · simp only [takePage, hempty]
          rfl

theorem Scopus.receive_cases (c : Scopus) (e : Exchange) :
    (∃ err, c.receive e = (c, .error err)) ∨
      c.receive e = (c.withNext none, .ok []) ∨
        ∃ next? entries, entries ≠ [] ∧ c.receive e = (c.withNext next?, .ok entries) := by
  rw [receive]
  cases replyText name e with
  | error err => exact Or.inl ⟨err, rfl⟩
  | ok body =>
    cases hpage : pageOf? body with
    | none => exact Or.inl ⟨.decode name, by simp only [hpage]⟩
    | some results? =>
      simp only [hpage]
      rcases c.takePage_cases results? with h | ⟨next?, entries, hne, h⟩
      · rw [h]
        exact Or.inr (Or.inl rfl)
      · rw [h]
        exact Or.inr (Or.inr ⟨next?, entries, hne, rfl⟩)

namespace Search

/-- The search as it was built. -/
def fresh : Search → Search
  | ieee c => ieee (c.withNext none)
  | scopus c => scopus (c.withNext none)

def hasNext : Search → Bool
  | ieee c => c.next?.isSome
  | scopus c => c.next?.isSome

theorem ieee_ensures_fetch (c : Ieee) :
    (c.fetch.mapState ieee).Ensures fun s p =>
      s.fresh = (ieee c).fresh ∧ (p = .ok [] → s.hasNext = false) ∧
        ∀ e, p = .error e → s = ieee c := by
  rw [Call.ensures_mapState]
  cases hnext : c.next? with
  | none =>
    rw [Ieee.fetch_of_none hnext]
    exact ⟨rfl, fun _ => by simp only [hasNext, hnext, Option.isSome_none], nofun⟩
  | some start =>
    cases hr : c.request start with
    | error err =>
      rw [Ieee.fetch_of_error hnext hr]
      exact ⟨rfl, nofun, fun _ _ => rfl⟩
    | ok r =>
      rw [Ieee.fetch_of_ok hnext hr]
      intro reply
      rcases c.receive_cases start reply with ⟨err, h⟩ | ⟨total?, entries, h⟩
      · rw [h]
        exact ⟨rfl, nofun, fun _ _ => rfl⟩
      · rw [h]
        refine ⟨rfl, fun hpage => ?_, nofun⟩
        obtain rfl : entries = [] := by simpa using hpage
        rfl

theorem scopus_ensures_ask {c : Scopus} (h : c.next? = none) (r? : Except FetchError Request) :
    ((c.ask r?).mapState scopus).Ensures fun s p =>
      s.fresh = (scopus c).fresh ∧ ((p = .ok [] ∨ ∃ e, p = .error e) → s.hasNext = false) := by
  have hlast : (scopus c).hasNext = false := by simp only [hasNext, h, Option.isSome_none]
  rw [Call.ensures_mapState]
  cases r? with
  | error err => exact ⟨rfl, fun _ => hlast⟩
  | ok r =>
    intro reply
    rcases c.receive_cases reply with ⟨err, h⟩ | h | ⟨next?, entries, hne, h⟩
    · rw [h]
      exact ⟨rfl, fun _ => hlast⟩
    · rw [h]
      exact ⟨rfl, fun _ => rfl⟩
    · rw [h]
      refine ⟨rfl, fun hpage => ?_⟩
      rcases hpage with hpage | ⟨e, hpage⟩
      · exact absurd (by simpa using hpage) hne
      · cases hpage

/-! ## Searches as connectors -/

theorem call_first_ieee (c : Ieee) :
    (ieee c).connector.call .first = (c.withNext (some 1)).fetch.mapState ieee := rfl

theorem call_next_ieee (c : Ieee) : (ieee c).connector.call .next = c.fetch.mapState ieee := rfl

theorem call_first_scopus (c : Scopus) :
    (scopus c).connector.call .first = c.fetchFirst.mapState scopus := rfl

theorem call_next_scopus (c : Scopus) :
    (scopus c).connector.call .next = c.fetchNext.mapState scopus := rfl

@[simp] theorem hasNext_fresh (s : Search) : s.fresh.hasNext = false := by cases s <;> rfl

theorem name_fresh (s : Search) : s.fresh.name = s.name := by cases s <;> rfl

theorem connector_withState {s s' : Search} (h : s'.fresh = s.fresh) :
    s.connector.withState s' = s'.connector := by
  have hname : s'.name = s.name := by rw [← name_fresh s', h, name_fresh]
  simp only [connector, Connector.withState, hname]

theorem call_next_of_not_hasNext {s : Search} (h : s.hasNext = false) :
    s.connector.call .next = .done s (.ok []) := by
  cases s with
  | ieee c =>
    have hnone : c.next? = none := by simpa [hasNext] using h
    rw [call_next_ieee, Ieee.fetch_of_none hnone]
    rfl
  | scopus c =>
    have hnone : c.next? = none := by simpa [hasNext] using h
    rw [call_next_scopus, Scopus.fetchNext_of_none hnone]
    rfl

/-- Asking for the first page does not look at what has been found so far. -/
theorem call_first_eq_of_fresh {s s' : Search} (h : s'.fresh = s.fresh) :
    s'.connector.call .first = s.connector.call .first := by
  have hfresh : ∀ s : Search, s.connector.call .first = s.fresh.connector.call .first := by
    intro s
    cases s <;> rfl
  rw [hfresh s', h, ← hfresh s]

theorem ensures_call (s : Search) (t : Turn) :
    (s.connector.call t).Ensures fun s' p =>
      s'.fresh = s.fresh ∧ (p = .ok [] → s'.hasNext = false) := by
  cases s with
  | ieee c =>
    have hfetch : ∀ c' : Ieee, (ieee c').fresh = (ieee c).fresh →
        (c'.fetch.mapState ieee).Ensures fun s' p =>
          s'.fresh = (ieee c).fresh ∧ (p = .ok [] → s'.hasNext = false) :=
      fun c' hc => (ieee_ensures_fetch c').imp fun s' p h => ⟨h.1.trans hc, h.2.1⟩
    cases t with
    | first =>
      rw [call_first_ieee]
      exact hfetch (c.withNext (some 1)) rfl
    | next =>
      rw [call_next_ieee]
      exact hfetch c rfl
  | scopus c =>
    have hask : ∀ r?, (((c.withNext none).ask r?).mapState scopus).Ensures
        fun s' p => s'.fresh = (scopus c).fresh ∧ (p = .ok [] → s'.hasNext = false) :=
      fun r? => (scopus_ensures_ask rfl r?).imp fun s' p h => ⟨h.1, fun hp => h.2 (Or.inl hp)⟩
    cases t with
    | first =>
      rw [call_first_scopus, Scopus.fetchFirst_eq]
      exact hask _
    | next =>
      cases hnext : c.next? with
      | none =>
        have hlast : (scopus c).hasNext = false := by
          simp only [hasNext, hnext, Option.isSome_none]
        rw [call_next_of_not_hasNext hlast]
        exact ⟨rfl, fun _ => hlast⟩
      | some link =>
        rw [call_next_scopus, Scopus.fetchNext_of_some hnext]
        exact hask _

/-- A failure leaves a search of IEEE Xplore where it is; a search of Scopus is at its end. -/
theorem ensures_next_error (s : Search) :
    (s.connector.call .next).Ensures fun s' p => ∀ e, p = .error e →
      match s with
      | ieee _ => s' = s
      | scopus _ => s'.hasNext = false := by
  cases s with
  | ieee c =>
    rw [call_next_ieee]
    exact (ieee_ensures_fetch c).imp fun s' p h => h.2.2
  | scopus c =>
    rw [call_next_scopus]
    cases hnext : c.next? with
    | none =>
      rw [Scopus.fetchNext_of_none hnext]
      exact nofun
    | some link =>
      rw [Scopus.fetchNext_of_some hnext]
      exact (scopus_ensures_ask rfl _).imp fun s' p h e hp => h.2 (Or.inr ⟨e, hp⟩)

/-! ## Built searches -/

theorem build_default (name : String) (cfg : Config) (query : String) :
    Registry.default.build name cfg query =
      if name = Scopus.name then (Scopus.ofConfig cfg query).map fun c => (scopus c).connector
      else if name = Ieee.name then (Ieee.ofConfig cfg query).map fun c => (ieee c).connector
      else .error (.config (.unknownVendor name)) := by
  simp only [Registry.build, Registry.default, Registry.register, Registry.empty,
    Dictionary.get?_insert, Dictionary.get?_empty]
  by_cases hscopus : name = Scopus.name
  · simp only [if_pos hscopus]
  · by_cases hieee : name = Ieee.name
    · simp only [if_neg hscopus, if_pos hieee]
    · simp only [if_neg hscopus, if_neg hieee]

/-- What the registry builds is the search of the service that has the name. -/
theorem build_eq_ok {name query : String} {cfg : Config} {k : Connector Search}
    (h : Registry.default.build name cfg query = .ok k) :
    (∃ c, name = Scopus.name ∧ Scopus.ofConfig cfg query = .ok c ∧ k = (scopus c).connector) ∨
      ∃ c, name = Ieee.name ∧ Ieee.ofConfig cfg query = .ok c ∧ k = (ieee c).connector := by
  rw [build_default] at h
  split at h
  · next hname =>
    cases hc : Scopus.ofConfig cfg query with
    | error e => rw [hc] at h; cases h
    | ok c =>
      rw [hc] at h
      exact Or.inl ⟨c, hname, rfl, (Except.ok.inj h).symm⟩
  · split at h
    · next hname =>
      cases hc : Ieee.ofConfig cfg query with
      | error e => rw [hc] at h; cases h
      | ok c =>
        rw [hc] at h
        exact Or.inr ⟨c, hname, rfl, (Except.ok.inj h).symm⟩
    · cases h

end Search

namespace Session
variable {srv : Server} {x : Session Search} {built : Search}

/-- A session of a search that was built in this way, none of whose pages is to come once an empty
one was brought. -/
def Of (built : Search) (x : Session Search) : Prop :=
  ∃ s : Search, x.connector = s.connector ∧ s.fresh = built.fresh ∧
    (x.pages.getLast? = some (.ok []) → s.hasNext = false)

theorem of_start (built : Search) : (start built.connector).Of built :=
  ⟨built, rfl, rfl, nofun⟩

theorem Of.turn (h : x.Of built) (t : Turn) : (x.turn srv t).Of built := by
  obtain ⟨s, hconnector, hfresh, -⟩ := h
  have hcall : (x.connector.call t).Ensures fun s' p =>
      s'.fresh = s.fresh ∧ (p = .ok [] → s'.hasNext = false) := by
    rw [hconnector]
    exact s.ensures_call t
  obtain ⟨s', p, hk, hpages, hs', hempty⟩ := turn_ensures srv hcall
  refine ⟨s', ?_, hs'.trans hfresh, fun hlast => hempty ?_⟩
  · rw [hk, hconnector, Search.connector_withState hs']
  · simpa [hpages] using hlast

theorem Of.turns (h : x.Of built) (ts : List Turn) : (x.turns srv ts).Of built := by
  induction ts generalizing x with
  | nil => exact h
  | cons t ts ih => exact ih (h.turn t)

/-- A search that knows no page to go on with sends nothing and brings empty pages. -/
theorem turns_next_of_not_hasNext (srv : Server) {s : Search} (hx : x.connector = s.connector)
    (h : s.hasNext = false) (n : Nat) :
    x.turns srv (List.replicate n .next) =
      { x with pages := x.pages ++ List.replicate n (.ok []) } := by
  induction n generalizing x with
  | zero =>
    rw [List.replicate_zero, List.replicate_zero, List.append_nil]
    rfl
  | succ n ih =>
    have hcall : x.connector.call .next = .done s (.ok []) := by
      rw [hx, Search.call_next_of_not_hasNext h]
    have hturn : x.turn srv .next = { x with pages := x.pages ++ [.ok []] } := by
      rw [turn_of_done hcall, hx, Search.connector_withState rfl]
    have hrest := ih (x := { x with pages := x.pages ++ [.ok []] }) hx
    rw [List.replicate_succ, turns_cons, hturn, hrest, List.replicate_succ]
    simp only [List.append_assoc, List.singleton_append]

/-- Two searches that were built alike give the same first page. -/
theorem turn_first_eq_of_fresh {s s' : Search} (h : s'.fresh = s.fresh) :
    (start s'.connector).turn srv .first = (start s.connector).turn srv .first := by
  have hcall := Search.call_first_eq_of_fresh h
  have hstate : ∀ st, s'.connector.withState st = s.connector.withState st := by
    intro st
    have hname : s'.name = s.name := by rw [← Search.name_fresh s', h, Search.name_fresh]
    simp only [Search.connector, Connector.withState, hname]
  cases hs : s.connector.call .first with
  | done st p =>
    rw [turn_of_done (s := start s'.connector) (hcall.trans hs),
      turn_of_done (s := start s.connector) hs]
    simp only [start, hstate]
  | ask r receive =>
    rw [turn_of_ask (s := start s'.connector) (hcall.trans hs),
      turn_of_ask (s := start s.connector) hs]
    simp only [start, hstate]

/-- A search that is asked for its first page starts from the beginning. -/
theorem Of.turns_first (h : x.Of built) (later : List Turn) :
    x.turns srv (.first :: later) =
      ((start built.connector).turns (srv.after x.sent) (.first :: later)).behind x.sent x.pages := by
  obtain ⟨s, hconnector, hfresh, -⟩ := h
  rw [turns_eq_behind, hconnector, turns_cons, turn_first_eq_of_fresh hfresh, ← turns_cons]

end Session

namespace Search
open Session

/-- A session with a search that was just built. Until the first page is asked for, it sends nothing
and brings empty pages. Once a call brings an empty page, the calls for the next page send nothing
and bring empty pages. And from a call for the first page on, it brings and sends what the search as
it was built does when it gets the same replies. -/
theorem session_continuation (s : Search) (srv : Server) (ts : List Turn) :
    let x := (start s.fresh.connector).turns srv ts
    (.first ∉ ts → x = ⟨s.fresh.connector, [], List.replicate ts.length (.ok [])⟩) ∧
    (x.pages.getLast? = some (.ok []) → ∀ n, x.turns srv (List.replicate n .next) =
      { x with pages := x.pages ++ List.replicate n (.ok []) }) ∧
    ∀ later,
      let anew := (start s.fresh.connector).turns (srv.after x.sent) (.first :: later)
      x.turns srv (.first :: later) = ⟨anew.connector, x.sent ++ anew.sent, x.pages ++ anew.pages⟩ := by
  intro x
  have hx : x.Of s.fresh := (of_start s.fresh).turns ts
  refine ⟨fun hfirst => ?_, fun hlast n => ?_, hx.turns_first⟩
  · have hts : ts = List.replicate ts.length .next := by
      refine List.eq_replicate_of_mem fun t ht => ?_
      cases t with
      | first => exact absurd ht hfirst
      | next => rfl
    change (start s.fresh.connector).turns srv ts = _
    rw [hts, turns_next_of_not_hasNext srv rfl (hasNext_fresh s), List.length_replicate]
    rfl
  · obtain ⟨s', hconnector, -, hempty⟩ := hx
    exact turns_next_of_not_hasNext srv hconnector (hempty hlast) n

def singleRecord : Server :=
  Server.ofList
    [.reply 200 (some "\x7b\"total_records\":1,\"articles\":[\x7b\"doi\":\"10.1/a\"\x7d]\x7d")]

theorem session_continuation_single :
    let s := ieee (Ieee.new Ieee.defaultBase "key" "q")
    let x := (start s.fresh.connector).turns singleRecord [.first, .next]
    (start s.fresh.connector).turns singleRecord [.next, .next] =
        ⟨s.fresh.connector, [], [.ok [], .ok []]⟩ ∧
      x.sent.length = 1 ∧ x.pages.getLast? = some (.ok []) ∧
      x.turns singleRecord [.next, .next] = { x with pages := x.pages ++ [.ok [], .ok []] } ∧
      (x.turns singleRecord [.first]).sent =
        x.sent ++ ((start s.fresh.connector).turns (singleRecord.after x.sent) [.first]).sent := by
  intro s x
  have hx : x.sent.length = 1 ∧ x.pages.getLast? = some (.ok []) := by decide +kernel
  obtain ⟨-, hempty, hanew⟩ := session_continuation s singleRecord [.first, .next]
  have hbefore := (session_continuation s singleRecord [.next, .next]).1 (by decide)
  have hagain : x.turns singleRecord [.first] = _ := hanew []
  exact ⟨hbefore, hx.1, hx.2, hempty hx.2 2, by rw [hagain]⟩

/-- A page that could not be fetched. In a session with a search of IEEE Xplore the next call asks
for it again; in one with a search of Scopus the results seem to be at their end: the next call
sends nothing and brings an empty page. -/
theorem turn_next_after_error (s : Search) (srv : Server) (ts : List Turn) {e : FetchError} :
    let x := (start s.fresh.connector).turns srv ts
    let failed := x.turn srv .next
    failed.pages.getLast? = some (.error e) →
      match s with
      | ieee _ => failed.connector = x.connector ∧
          ∀ r, failed.sent = x.sent ++ [r] → (failed.turn srv .next).sent = failed.sent ++ [r]
      | scopus _ => failed.turn srv .next = { failed with pages := failed.pages ++ [.ok []] } := by
  intro x failed hlast
  obtain ⟨s', hconnector, hfresh, -⟩ : x.Of s.fresh := (of_start s.fresh).turns ts
  have hcall := (s'.ensures_call .next).and s'.ensures_next_error
  rw [← hconnector] at hcall
  obtain ⟨st, p, hk, hpages, ⟨hst, -⟩, herror⟩ := turn_ensures srv hcall
  obtain rfl : p = .error e := by
    have hp : failed.pages.getLast? = some p := by simp only [failed, hpages, List.getLast?_concat]
    exact Option.some.inj (hp.symm.trans hlast)
  have hfailed : failed.connector = st.connector := by
    rw [hk, hconnector, connector_withState hst]
  have hend := herror e rfl
  cases s with
  | ieee c =>
    cases s' with
    | scopus c' => cases hfresh
    | ieee c' =>
      obtain rfl : st = ieee c' := hend
      have hsame : failed.connector = x.connector := hfailed.trans hconnector.symm
      refine ⟨hsame, fun r hr => ?_⟩
      cases hcall : x.connector.call .next with
      | done st p =>
        have hnone : failed.sent = x.sent := by simp only [failed, turn_of_done hcall]
        simp [hnone] at hr
      | ask r' receive =>
        have hsent : failed.sent = x.sent ++ [r'] := by simp only [failed, turn_of_ask hcall]
        obtain rfl : r' = r := by simpa using hsent.symm.trans hr
        rw [← hsame] at hcall
        rw [turn_of_ask hcall]
  | scopus c =>
    cases s' with
    | ieee c' => cases hfresh
    | scopus c' =>
      have hturn := turns_next_of_not_hasNext srv hfailed hend 1
      exact hturn

def oneOfTwo : Server :=
  Server.ofList
    [.reply 200 (some "\x7b\"total_records\":2,\"articles\":[\x7b\"doi\":\"10.1/a\"\x7d]\x7d")]

theorem turn_next_after_error_asks_again :
    let s := ieee (Ieee.new Ieee.defaultBase "key" "q")
    let x := (start s.fresh.connector).turns oneOfTwo [.first]
    let failed := x.turn oneOfTwo .next
    failed.pages.getLast? = some (.error (.transport "ieee")) ∧ failed.connector = x.connector ∧
      ∃ r, failed.sent = x.sent ++ [r] ∧ (failed.turn oneOfTwo .next).sent = failed.sent ++ [r] := by
  intro s x failed
  have hfailed : failed.pages.getLast? = some (.error (.transport "ieee")) ∧
      ∃ r ∈ failed.sent, failed.sent = x.sent ++ [r] := by decide +kernel
  obtain ⟨hlast, r, -, hr⟩ := hfailed
  obtain ⟨hsame, hagain⟩ := turn_next_after_error s oneOfTwo [.first] hlast
  exact ⟨hlast, hsame, r, hr, hagain r hr⟩

/-- A server that delivers the first page of Scopus and refuses the second one. -/
def oneThenBusy : Server :=
  Server.ofList
    [.reply 200 (some ("\x7b\"search-results\":\x7b\"entry\":[\x7b\"dc:title\":\"One\"\x7d]," ++
      "\"link\":[\x7b\"@ref\":\"next\",\"@href\":\"http://a/2\"\x7d]\x7d\x7d")),
      .reply 500 (some "busy")]

/-- The second page of Scopus is refused, and the next call does not ask for it again. -/
theorem not_asks_again_after_error :
    ¬ ∀ (s : Search) (srv : Server) (ts : List Turn) (e : FetchError) (r : Request),
      let x := (start s.fresh.connector).turns srv ts
      let failed := x.turn srv .next
      failed.pages.getLast? = some (.error e) → failed.sent = x.sent ++ [r] →
        (failed.turn srv .next).sent = failed.sent ++ [r] := by
  intro hall
  have hfailed :
      let x := (start (scopus (Scopus.new Scopus.defaultBase "key" "q")).fresh.connector).turns
        oneThenBusy [.first]
      let failed := x.turn oneThenBusy .next
      failed.pages.getLast? = some (.error (.status "scopus" 500 "busy")) ∧
        ∃ r ∈ failed.sent, failed.sent = x.sent ++ [r] ∧
          (failed.turn oneThenBusy .next).sent ≠ failed.sent ++ [r] := by decide +kernel
  obtain ⟨hlast, r, -, hr, hother⟩ := hfailed
  exact hother (hall _ oneThenBusy [.first] _ r hlast hr)

end Search

end PaperTrail
