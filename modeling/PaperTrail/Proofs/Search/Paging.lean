import Mathlib.Data.List.Forall2
import PaperTrail.Proofs.Http.Request
import PaperTrail.Proofs.Json.Equality
import PaperTrail.Proofs.Search.Continuation

/-!
# The pages of IEEE Xplore

A server has a list of records and answers the request for a page with some of them, as many as it
likes, from the number on that it is asked for. `Ieee.records_delivered`: whatever the sizes of its
pages are and whichever requests fail, the pages that arrive make up all records, in their order.

* `Ieee.Asks` : what a server reads from a request;
* `Ieee.Serves`, `Ieee.Fails` : the two kinds of replies;
* `Ieee.Position` : where a search stands when so many entries have arrived; `receive_of_serves` and
  `receive_of_fails` say how a reply moves it, everything else is counting along a session.
-/

namespace PaperTrail

namespace Ieee
variable {c : Ieee} {records : List Json} {entries : List Entry} {e : Exchange} {k : Nat}

/-! ## Requests -/

/-- Requests can be made for the address of a search. -/
def Reachable (c : Ieee) : Prop := c.baseUrl.hasHost = true ∧ ∃ ss, c.baseUrl.path = .segments ss

/-- What a server reads from a request for the page that starts with a record. -/
def Asks (c : Ieee) (start : Nat) (r : Request) : Prop :=
  r.parameters? = some [("apikey", c.token), ("querytext", c.query),
    ("start_record", toString start), ("max_records", toString c.maxRecords)]

theorem exists_request (h : c.Reachable) (start : Nat) :
    ∃ r, c.request start = .ok r ∧ c.Asks start r := by
  obtain ⟨hhost, ss, hpath⟩ := h
  let url : Url := ⟨c.baseUrl.scheme, c.baseUrl.authority?, .segments (ss.dropLast ++ searchPath),
    none, none⟩
  have hresolve : c.baseUrl.resolve searchPath = .ok url := by simp only [Url.resolve, hpath, url]
  obtain ⟨plain, hplain⟩ := Request.exists_get (u := url) hhost
  obtain ⟨r, hr⟩ := Request.exists_withHeader plain "accept"
    (by decide : Request.isHeaderValue "application/json" = true)
  have hrequest : c.request start = .ok (r.withQuery (c.pairs start)) := by
    simp only [request, hresolve, hplain, Option.bind_some, hr]
  have hquery : r.url.query? = none := by
    rw [Request.url_withHeader hr, Request.query?_get hplain]
  exact ⟨_, hrequest, Request.parameters?_withQuery hquery _⟩

theorem fetch_withNext (h : c.Reachable) (start : Nat) :
    ∃ r, (c.withNext (some start)).fetch = .ask r ((c.withNext (some start)).receive start) ∧
      c.Asks start r := by
  obtain ⟨r, hr, hasks⟩ := exists_request h start
  exact ⟨r, fetch_of_ok rfl hr, hasks⟩

/-! ## Replies -/

/-- A reported total: a number, or none where it is null or left out. -/
inductive Total : Json.Slot → Option Nat → Prop
  | number (n : Nat) : Total (.given (Json.int n)) (some n)
  | null : Total (.given .null) none
  | leftOut : Total .leftOut none

/-- Listed articles: an array, or none where they are left out. -/
inductive Articles : Json.Slot → List Json → Prop
  | array (run : List Json) : Articles (.given (.array run)) run
  | leftOut : Articles .leftOut []

/-- A text in JSON that reports a total and lists articles. -/
def Shows (body : String) (total? : Option Nat) (run : List Json) : Prop :=
  ∃ members total articles, Json.ofString? body = some (.object members) ∧
    Json.namedSlots? members ["total_records", "articles"] = some [total, articles] ∧
    Total total total? ∧ Articles articles run

/-- A successful reply to the request for the page that starts with a record: a run of the records
from this one on, which is empty only behind the last one, and the number of all records or none. -/
def Serves (records : List Json) (start : Nat) (e : Exchange) : Prop :=
  ∃ body total? run, replyText name e = .ok body ∧ Shows body total? run ∧
    (total? = none ∨ total? = some records.length) ∧ run <+: records.drop (start - 1) ∧
    (start ≤ records.length → run ≠ [])

/-- A failure: there is no reply, it breaks off, it has another status, or it cannot be read. -/
inductive Fails (e : Exchange) : Prop
  | refused {err : FetchError} (h : replyText name e = .error err)
  | garbled {body : String} (h : replyText name e = .ok body) (hpage : pageOf? body = none)

theorem mapM_of_forall₂ {vs : List Json} {es : List Entry}
    (h : List.Forall₂ (fun v e => entryOf? v = some e) vs es) : vs.mapM entryOf? = some es := by
  induction h with
  | nil => rfl
  | cons hv _ ih => rw [List.mapM_cons, hv, ih]; rfl

theorem pageOf?_of_shows {body : String} {total? : Option Nat} {run : List Json} {es : List Entry}
    (h : Shows body total? run) (htotal : ∀ n, total? = some n → n ≤ maxNumber)
    (hrun : List.Forall₂ (fun v e => entryOf? v = some e) run es) :
    pageOf? body = some (total?, es) := by
  obtain ⟨members, total, articles, hbody, hslots, hreported, hlisted⟩ := h
  have hnumber : total.nullable (Json.intBetween? 0 Number.maxUnsigned) =
      some (total?.map Int.ofNat) := by
    cases hreported with
    | number n =>
      have hn : n ≤ 4294967295 := htotal n rfl
      have hrange : (0 : Int) ≤ n ∧ (n : Int) ≤ Number.maxUnsigned := by
        rw [Number.maxUnsigned]
        omega
      simp only [Json.Slot.nullable, Json.intBetween?, Json.int, Json.int?, Option.filter_some,
        hrange, decide_true, Bool.and_self, if_true]
      rfl
    | null => rfl
    | leftOut => rfl
  have hentries : articles.orDefault [] (Json.list? entryOf?) = some es := by
    cases hlisted with
    | array => exact mapM_of_forall₂ hrun
    | leftOut => rw [List.forall₂_nil_left_iff.1 hrun]; rfl
  have hback : (total?.map Int.ofNat).map Int.toNat = total? := by cases total? <;> rfl
  simp only [pageOf?, hbody, Json.slots?, hslots, hnumber, hentries, bind, Option.bind_some, hback]
  rfl

/-! ## Where a search stands -/

/-- Where the next page of a search starts when the first `k` of `T` entries have arrived: with the
next entry, or nowhere, and then these were all. -/
def Position (T k : Nat) : Option Nat → Prop
  | some start => start = k + 1 ∧ k ≤ T
  | none => k = T

theorem Position.le {T : Nat} {next? : Option Nat} (h : Position T k next?) : k ≤ T := by
  cases next? with
  | none => exact Nat.le_of_eq h
  | some start => exact h.2

theorem position_nextStart {T received : Nat} {total? : Option Nat} (hT : T < maxNumber)
    (hreceived : k + received ≤ T) (hnone : received = 0 → k = T)
    (htotal : total? = none ∨ total? = some T) :
    Position T (k + received) (nextStart (k + 1) received total?) ∧
      (received = 0 → nextStart (k + 1) received total? = none) := by
  by_cases hempty : received = 0
  · subst hempty
    exact ⟨hnone rfl, fun _ => rfl⟩
  · have hstart : min (k + 1 + min received maxNumber) maxNumber = k + received + 1 := by
      simp only [maxNumber] at hT ⊢
      omega
    refine ⟨?_, fun h => absurd h hempty⟩
    rcases htotal with rfl | rfl
    · simp only [nextStart, if_neg hempty, hstart, Position]
      exact ⟨trivial, hreceived⟩
    · by_cases hlast : T < k + received + 1
      · simp only [nextStart, if_neg hempty, hstart, if_pos hlast, Position]
        omega
      · simp only [nextStart, if_neg hempty, hstart, if_neg hlast, Position]
        exact ⟨trivial, hreceived⟩

theorem receive_of_serves (c : Ieee)
    (hentries : List.Forall₂ (fun v e => entryOf? v = some e) records entries)
    (hT : entries.length < maxNumber) (hk : k ≤ entries.length) (h : Serves records (k + 1) e) :
    ∃ received next?, c.receive (k + 1) e =
        (c.withNext next?, .ok ((entries.drop k).take received)) ∧
      k + received ≤ entries.length ∧ Position entries.length (k + received) next? ∧
      (received = 0 → next? = none) := by
  obtain ⟨body, total?, run, hbody, hshows, htotal, hrun, hsome⟩ := h
  have hlength := hentries.length_eq
  rw [hlength] at htotal hsome
  rw [Nat.add_sub_cancel] at hrun
  have htake : run = (records.drop k).take run.length := List.prefix_iff_eq_take.1 hrun
  have hle : k + run.length ≤ entries.length := by
    have hrest := hrun.length_le
    rw [List.length_drop, hlength] at hrest
    omega
  have hpage : List.Forall₂ (fun v e => entryOf? v = some e) run
      ((entries.drop k).take run.length) := by
    have hpart := List.forall₂_take run.length (List.forall₂_drop k hentries)
    rwa [← htake] at hpart
  have hnone : run.length = 0 → k = entries.length := by
    intro hzero
    by_contra hne
    exact hsome (by omega) (List.length_eq_zero_iff.1 hzero)
  have hread : pageOf? body = some (total?, (entries.drop k).take run.length) := by
    refine pageOf?_of_shows hshows (fun n hn => ?_) hpage
    rcases htotal with hnil | hall
    · cases hnil.symm.trans hn
    · obtain rfl := Option.some.inj (hall.symm.trans hn)
      exact Nat.le_of_lt hT
  obtain ⟨hposition, hend⟩ := position_nextStart hT hle hnone htotal
  refine ⟨run.length, nextStart (k + 1) run.length total?, ?_, hle, hposition, hend⟩
  simp only [receive, hbody, hread, ← hpage.length_eq]
  rfl

theorem receive_of_fails (c : Ieee) (start : Nat) (h : Fails e) :
    ∃ err, c.receive start e = (c, .error err) := by
  cases h with
  | @refused err h => exact ⟨err, by simp only [receive, h]⟩
  | garbled h hpage => exact ⟨.decode name, by simp only [receive, h, hpage]⟩

/-! ## Sessions -/

theorem call_first (c : Ieee) : c.connector.call .first = (c.withNext (some 1)).fetch := rfl

theorem call_next (c : Ieee) : c.connector.call .next = c.fetch := rfl

theorem page_ne_nil {received : Nat} (hle : k + received ≤ entries.length) (h : received ≠ 0) :
    (entries.drop k).take received ≠ [] := by
  intro hnil
  have hlength := congrArg List.length hnil
  rw [List.length_take, List.length_drop, List.length_nil] at hlength
  omega

section
variable (hc : c.Reachable) (hentries : List.Forall₂ (fun v e => entryOf? v = some e) records entries)
  (hT : entries.length < maxNumber) {srv : Server}

/-- A session that has brought the first `k` entries, and whose search goes on from there. -/
structure Standing (c : Ieee) (entries : List Entry) (s : Session Ieee) (k : Nat)
    (next? : Option Nat) : Prop where
  connector : s.connector = (c.withNext next?).connector
  position : Position entries.length k next?
  delivered : Session.delivered s.pages = entries.take k
  ended : .ok [] ∈ s.pages → next? = none
  asked : s.sent.length ≤ k + Session.failures s.pages + if next? = none then 1 else 0

/-- A search that has come to its end stays there. -/
theorem Standing.turn_of_none (srv : Server) {s : Session Ieee} (h : Standing c entries s k none) :
    Standing c entries (s.turn srv .next) k none := by
  obtain ⟨hconnector, hposition, hdelivered, hended, hasked⟩ := h
  have hcall : s.connector.call .next = .done (c.withNext none) (.ok []) := by
    rw [hconnector, call_next, fetch_of_none (next?_withNext c none)]
  rw [Session.turn_of_done hcall]
  refine ⟨by rw [hconnector]; rfl, hposition, ?_, fun _ => rfl, ?_⟩
  · rw [Session.delivered_append, hdelivered]
    exact List.append_nil _
  · rw [Session.failures_append]
    exact hasked

variable {s : Session Ieee} {r : Request}

/-- The next call of a session asks for the page that starts with a record. -/
def AsksFor (c : Ieee) (s : Session Ieee) (start : Nat) (r : Request) : Prop :=
  s.connector.call .next = .ask r ((c.withNext (some start)).receive start)

include hentries hT in
theorem Standing.turn_of_serves (h : Standing c entries s k (some (k + 1)))
    (hcall : AsksFor c s (k + 1) r) (hserves : Serves records (k + 1) (srv s.sent r)) :
    ∃ k' next?, Standing c entries (s.turn srv .next) k' next? := by
  obtain ⟨hconnector, ⟨-, hk⟩, hdelivered, hended, hasked⟩ := h
  obtain ⟨received, next?, hreceive, hle, hposition, hend⟩ :=
    receive_of_serves (c.withNext (some (k + 1))) hentries hT hk hserves
  have hone : 1 ≤ received + if next? = none then 1 else 0 := by
    by_cases hzero : received = 0
    · rw [if_pos (hend hzero)]
      omega
    · omega
  rw [Session.turn_of_ask hcall, hreceive]
  refine ⟨k + received, next?, by rw [hconnector]; rfl, hposition, ?_, fun hmem => ?_, ?_⟩
  · rw [Session.delivered_append, hdelivered, Session.delivered, Session.delivered,
      List.append_nil, List.take_add]
  · rcases List.mem_append.1 hmem with hbefore | hnow
    · cases hended hbefore
    · have hnil : (entries.drop k).take received = [] :=
        (Except.ok.inj (List.mem_singleton.1 hnow)).symm
      by_contra hgoing
      exact page_ne_nil hle (fun hzero => hgoing (hend hzero)) hnil
  · rw [if_neg (Option.some_ne_none _)] at hasked
    rw [Session.failures_append, Session.failures, Session.failures, List.length_append,
      List.length_singleton]
    omega

theorem Standing.turn_of_fails (h : Standing c entries s k (some (k + 1)))
    (hcall : AsksFor c s (k + 1) r) (hfails : Fails (srv s.sent r)) :
    Standing c entries (s.turn srv .next) k (some (k + 1)) := by
  obtain ⟨hconnector, hposition, hdelivered, hended, hasked⟩ := h
  obtain ⟨err, hreceive⟩ := receive_of_fails (c.withNext (some (k + 1))) (k + 1) hfails
  rw [Session.turn_of_ask hcall, hreceive]
  refine ⟨by rw [hconnector]; rfl, hposition, ?_, fun hmem => ?_, ?_⟩
  · rw [Session.delivered_append, hdelivered]
    exact List.append_nil _
  · rcases List.mem_append.1 hmem with hbefore | hnow
    · exact hended hbefore
    · cases List.mem_singleton.1 hnow
  · rw [if_neg (Option.some_ne_none _)] at hasked ⊢
    rw [Session.failures_append, Session.failures, Session.failures, List.length_append,
      List.length_singleton]
    omega

include hc hentries hT in
theorem Standing.turn
    (hsrv : ∀ past r start, 1 ≤ start → c.Asks start r →
      Serves records start (srv past r) ∨ Fails (srv past r))
    {next? : Option Nat} (h : Standing c entries s k next?) :
    ∃ k' next?', Standing c entries (s.turn srv .next) k' next?' := by
  cases next? with
  | none => exact ⟨k, none, h.turn_of_none srv⟩
  | some start =>
    obtain ⟨rfl, -⟩ := h.position
    obtain ⟨r, hfetch, hasks⟩ := fetch_withNext hc (k + 1)
    have hcall : AsksFor c s (k + 1) r := by
      rw [AsksFor, h.connector, call_next, hfetch]
    rcases hsrv s.sent r (k + 1) (Nat.le_add_left 1 k) hasks with hserves | hfails
    · exact h.turn_of_serves hentries hT hcall hserves
    · exact ⟨k, some (k + 1), h.turn_of_fails hcall hfails⟩

include hc hentries hT in
theorem Standing.turns
    (hsrv : ∀ past r start, 1 ≤ start → c.Asks start r →
      Serves records start (srv past r) ∨ Fails (srv past r))
    (n : Nat) {next? : Option Nat} (h : Standing c entries s k next?) :
    ∃ k' next?', Standing c entries (s.turns srv (List.replicate n .next)) k' next?' := by
  induction n generalizing s k next? with
  | zero => exact ⟨k, next?, h⟩
  | succ n ih =>
    obtain ⟨k', next?', h'⟩ := h.turn hc hentries hT hsrv
    exact ih h'

/-- The first page is the next one of a search that goes on with record 1. -/
theorem turn_first (c : Ieee) (srv : Server) :
    (Session.start c.connector).turn srv .first =
      (Session.start (c.withNext (some 1)).connector).turn srv .next := rfl

include hc hentries hT in
theorem run_drainCall_of_serves
    (hsrv : ∀ past r start, 1 ≤ start → c.Asks start r → Serves records start (srv past r))
    (limit : Nat) (next? : Option Nat) (sent : List Request) (hk : k ≤ entries.length)
    (hlimit : entries.length ≤ k + limit) :
    ∃ last sent', ((c.withNext next?).connector.drainCall srv.send limit (entries.take k)
        (c.withNext (some (k + 1))).fetch).run sent = (some (last, .ok entries), sent') ∧
      sent'.length + k ≤ sent.length + entries.length + 1 := by
  -- a page that is not empty uses up one of the calls, and moves `k` on by one or more
  induction limit using Nat.strongRecOn generalizing k next? sent with
  | ind limit ih =>
    obtain ⟨r, hfetch, hasks⟩ := fetch_withNext hc (k + 1)
    have hserves := hsrv sent r (k + 1) (Nat.le_add_left 1 k) hasks
    obtain ⟨received, after?, hreceive, hle, hposition, hend⟩ :=
      receive_of_serves (c.withNext (some (k + 1))) hentries hT hk hserves
    have hrun : ((c.withNext (some (k + 1))).fetch.run srv.send).run sent =
        ((c.withNext after?, .ok ((entries.drop k).take received)), sent ++ [r]) := by
      rw [hfetch, Call.run_ask, hreceive]
      rfl
    by_cases hzero : received = 0
    · subst hzero
      rw [hend rfl] at hposition hrun
      obtain rfl : k = entries.length := hposition
      rw [Connector.run_drainCall_nil hrun, List.take_length]
      exact ⟨_, sent ++ [r], rfl, by rw [List.length_append, List.length_singleton]; omega⟩
    · obtain ⟨limit, rfl⟩ := Nat.exists_eq_succ_of_ne_zero (by omega : limit ≠ 0)
      have hnext : ∀ last? : Option Nat, (c.withNext next?).connector.withState (c.withNext last?) =
          (c.withNext last?).connector := fun _ => rfl
      rw [Connector.run_drainCall_of_ne_nil hrun (page_ne_nil hle hzero), hnext, ← List.take_add,
        Connector.drainNext_succ]
      cases after? with
      | none =>
        have hcall : (c.withNext none).connector.call .next = .done (c.withNext none) (.ok []) := by
          rw [call_next, fetch_of_none (next?_withNext c none)]
        have hall : k + received = entries.length := hposition
        rw [hcall, Connector.run_drainCall_nil (Call.run_done _ _ _ _), hall, List.take_length]
        exact ⟨_, sent ++ [r], rfl, by rw [List.length_append, List.length_singleton]; omega⟩
      | some start =>
        obtain ⟨rfl, -⟩ := hposition
        obtain ⟨last, sent', hdrain, hsent'⟩ := ih limit (Nat.lt_succ_self limit)
          (some (k + received + 1)) (sent ++ [r]) hle (by omega)
        rw [List.length_append, List.length_singleton] at hsent'
        exact ⟨last, sent', hdrain, by omega⟩

end

/-- A server has a list of records. It answers the request for a page with as many of them as it
likes, from the number on that it is asked for; its pages may be short, and tell how many records
there are or not. Then fetching all pages gives the entries of all records in their order, with at
most one request more than there are records. When some of the requests fail, and the next page is
asked for again and again, the pages that arrive make up the entries from the first one on; they are
all when an empty page arrives, which it does after as many more calls as have failed. -/
theorem records_delivered (c : Ieee) (hc : c.Reachable) (records : List Json) (entries : List Entry)
    (hentries : List.Forall₂ (fun v e => entryOf? v = some e) records entries)
    (hT : entries.length < maxNumber) (srv : Server)
    (hsrv : ∀ past r start, 1 ≤ start → c.Asks start r →
      Serves records start (srv past r) ∨ Fails (srv past r)) :
    ((∀ past r start, 1 ≤ start → c.Asks start r → Serves records start (srv past r)) →
      ∀ limit, entries.length ≤ limit → ∃ last sent,
        (c.connector.drain srv.send limit).run [] = (some (last, .ok entries), sent) ∧
          sent.length ≤ entries.length + 1) ∧
    ∀ n,
      let x := (Session.start c.connector).turns srv (.first :: List.replicate n .next)
      Session.delivered x.pages <+: entries ∧
        (.ok [] ∈ x.pages → Session.delivered x.pages = entries) ∧
        x.sent.length ≤ entries.length + 1 + Session.failures x.pages ∧
        (entries.length + Session.failures x.pages ≤ n → .ok [] ∈ x.pages) := by
  refine ⟨fun hserves limit hlimit => ?_, fun n => ?_⟩
  · obtain ⟨last, sent, hdrain, hsent⟩ := run_drainCall_of_serves (k := 0) hc hentries hT hserves
      limit c.next? [] (Nat.zero_le _) (by omega)
    rw [Connector.drain_eq_drainCall, call_first]
    exact ⟨last, sent, hdrain, by simpa using hsent⟩
  · intro x
    have hstart : Standing c entries (Session.start (c.withNext (some 1)).connector) 0 (some 1) :=
      ⟨rfl, ⟨rfl, Nat.zero_le _⟩, rfl, nofun, Nat.zero_le _⟩
    have hx : x = (Session.start (c.withNext (some 1)).connector).turns srv
        (List.replicate (n + 1) .next) := by
      change ((Session.start c.connector).turn srv .first).turns srv _ = _
      rw [turn_first]
      rfl
    obtain ⟨k, next?, hstanding⟩ := hstart.turns hc hentries hT hsrv (n + 1)
    rw [← hx] at hstanding
    have hk : k ≤ entries.length := hstanding.position.le
    have hlength : x.pages.length = n + 1 := by
      rw [hx, Session.length_pages_turns, List.length_replicate]
      exact Nat.zero_add _
    have hdelivered := hstanding.delivered
    refine ⟨?_, fun hmem => ?_, ?_, fun hn => ?_⟩
    · rw [hdelivered]
      exact List.take_prefix k entries
    · have hposition := hstanding.position
      rw [hstanding.ended hmem] at hposition
      obtain rfl : k = entries.length := hposition
      rw [hdelivered, List.take_length]
    · have hasked := hstanding.asked
      split at hasked <;> omega
    · by_contra hnone
      have hcount := Session.length_le_of_nil_not_mem hnone
      rw [hdelivered, List.length_take] at hcount
      omega

def twoRecords : List Json := [.object [("doi", .string "a")], .object [("doi", .string "b")]]

def twoEntries : List Entry :=
  ["a", "b"].map fun doi => Entry.new { Resource.empty with doi } [Source.withLink name ""]

def oneByOne (c : Ieee) : Server := fun _ r =>
  .reply 200 (some
    (if r.parameters? = some (c.pairs 1) then
      "\x7b\"total_records\":2,\"articles\":[\x7b\"doi\":\"a\"\x7d]\x7d"
    else if r.parameters? = some (c.pairs 2) then "\x7b\"articles\":[\x7b\"doi\":\"b\"\x7d]\x7d"
    else "\x7b\x7d"))

def busyOnce (srv : Server) : Server := fun past r =>
  if past.length = 1 then .reply 503 (some "busy") else srv past r

theorem repr_inj {m n : Nat} : m.repr = n.repr ↔ m = n := by
  refine ⟨fun h => ?_, congrArg Nat.repr⟩
  rw [Nat.repr_eq_ofList_toDigits, Nat.repr_eq_ofList_toDigits, String.ofList_inj] at h
  rw [← Nat.ofDigitChars_ten_toDigits (n := m), h, Nat.ofDigitChars_ten_toDigits]

theorem serves_oneByOne {c : Ieee} {start : Nat} {r : Request} (past : List Request)
    (hstart : 1 ≤ start) (h : c.Asks start r) : Serves twoRecords start (oneByOne c past r) := by
  have hasks : r.parameters? = some (c.pairs start) := h
  have hpairs : ∀ n, some (c.pairs start) = some (c.pairs n) ↔ start = n := by
    intro n
    simp only [pairs, Option.some.injEq, List.cons.injEq, Prod.mk.injEq, and_true, true_and]
    exact repr_inj
  rw [oneByOne, hasks]
  simp only [hpairs]
  split
  · subst start
    exact ⟨_, some 2, [.object [("doi", .string "a")]], rfl,
      ⟨[("total_records", Json.int 2), ("articles", .array [.object [("doi", .string "a")]])], _, _,
        by decide +kernel, rfl, .number 2, .array _⟩, Or.inr rfl, ⟨[_], rfl⟩, nofun⟩
  · split
    · subst start
      exact ⟨_, none, [.object [("doi", .string "b")]], rfl,
        ⟨[("articles", .array [.object [("doi", .string "b")]])], .leftOut, _, by decide +kernel, rfl,
          .leftOut, .array _⟩, Or.inl rfl, ⟨[], rfl⟩, nofun⟩
    · have hbehind : twoRecords.length < start := by
        change 2 < start
        omega
      exact ⟨_, none, [], rfl, ⟨[], .leftOut, .leftOut, by decide +kernel, rfl, .leftOut,
        .leftOut⟩, Or.inl rfl, List.nil_prefix, fun h => absurd h (Nat.not_le_of_lt hbehind)⟩

theorem records_delivered_oneByOne :
    let c := new defaultBase "key" "q"
    let x := (Session.start c.connector).turns (busyOnce (oneByOne c))
      (.first :: List.replicate 3 .next)
    (∃ last sent, (c.connector.drain (oneByOne c).send 2).run [] = (some (last, .ok twoEntries), sent) ∧
      sent.length ≤ 3) ∧
    Session.failures x.pages = 1 ∧ .ok [] ∈ x.pages ∧ Session.delivered x.pages = twoEntries ∧
      x.sent.length ≤ 4 := by
  intro c x
  have hc : c.Reachable := ⟨by decide +kernel, [""], rfl⟩
  have hentries : List.Forall₂ (fun v e => entryOf? v = some e) twoRecords twoEntries :=
    .cons (by decide +kernel) (.cons (by decide +kernel) .nil)
  have hT : twoEntries.length < maxNumber := by decide
  have hserves : ∀ past r start, 1 ≤ start → c.Asks start r →
      Serves twoRecords start (oneByOne c past r) :=
    fun past r start hstart h => serves_oneByOne past hstart h
  have hbusy : ∀ past r start, 1 ≤ start → c.Asks start r →
      Serves twoRecords start (busyOnce (oneByOne c) past r) ∨
        Fails (busyOnce (oneByOne c) past r) := by
    intro past r start hstart h
    rw [busyOnce]
    split
    · exact Or.inr (.refused rfl)
    · exact Or.inl (hserves past r start hstart h)
  have hall := (records_delivered c hc twoRecords twoEntries hentries hT (oneByOne c)
    fun past r start hstart h => Or.inl (hserves past r start hstart h)).1 hserves 2 (by decide)
  have hfailures : Session.failures x.pages = 1 := by decide +kernel
  obtain ⟨-, hdelivered, hasked, hend⟩ := (records_delivered c hc twoRecords twoEntries hentries hT
    (busyOnce (oneByOne c)) hbusy).2 3
  have hempty : .ok [] ∈ x.pages := hend (by rw [hfailures]; decide)
  have hx : x.sent.length ≤ 4 := by
    rw [hfailures] at hasked
    exact hasked
  exact ⟨hall, hfailures, hempty, hdelivered hempty, hx⟩

end Ieee

end PaperTrail
