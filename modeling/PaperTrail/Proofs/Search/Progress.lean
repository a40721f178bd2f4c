import PaperTrail.Proofs.Search.Paging

/-!
# How far a search of IEEE Xplore gets

The numbers with which the pages of a search start go up from page to page, as long as they are
below the greatest number; there the search stays, and asks for one page again and again.

* `Session.after`, `Session.Fetches` : a search after a number of calls, and the page that a call
  brings;
* `Ieee.Precedes` : how the numbers of pages go on, `precedes_nextStart` for one page;
* `Ieee.Due`, `Ieee.Moves` : the page that a call asks for, and all that a call can do;
* `Ieee.starts_increase` : the numbers go up, and a search with a total below the greatest number
  comes to its end.
-/

namespace PaperTrail

/-! ## Calls in turn -/

def Turn.ofNumber : Nat → Turn
  | 0 => .first
  | _ + 1 => .next

namespace Session
variable {σ : Type}

def after (srv : Server) (k : Connector σ) : Nat → Session σ
  | 0 => start k
  | n + 1 => (after srv k n).turn srv (.ofNumber n)

/-- The call of a number sends a request, and it brings a page. -/
def Fetches (srv : Server) (k : Connector σ) (n : Nat) (r : Request) (page : List Entry) : Prop :=
  (after srv k (n + 1)).sent = (after srv k n).sent ++ [r] ∧
    (after srv k (n + 1)).pages = (after srv k n).pages ++ [.ok page]

end Session

namespace Ieee
variable {c : Ieee} {srv : Server} {x x' : Session Ieee} {t : Turn} {next? total? : Option Nat}
  {a b start received T : Nat} {r : Request} {es : List Entry} {e : Exchange}

/-! ## The numbers of pages -/

/-- A page that starts with `b` comes behind one that starts with `a`: it starts with a greater
number, unless both have got to the greatest number of all. -/
def Precedes (a b : Nat) : Prop := a < b ∧ b ≤ maxNumber ∨ a = maxNumber ∧ b = maxNumber

theorem Precedes.trans {d : Nat} (h : Precedes a b) (h' : Precedes b d) : Precedes a d := by
  unfold Precedes at *
  omega

theorem nextStart_eq_some_iff :
    nextStart start received total? = some b ↔
      received ≠ 0 ∧ b = min (start + received) maxNumber ∧ ∀ T, total? = some T → b ≤ T := by
  have hmin : min (start + min received maxNumber) maxNumber = min (start + received) maxNumber := by
    omega
  by_cases hzero : received = 0
  · rw [nextStart, if_pos hzero]
    exact iff_of_false (Option.some_ne_none b).symm fun h => h.1 hzero
  · simp only [nextStart, if_neg hzero, hmin]
    cases total? with
    | none =>
      constructor
      · intro h
        exact ⟨hzero, (Option.some.inj h).symm, fun T hT => absurd hT (Option.some_ne_none T).symm⟩
      · rintro ⟨-, rfl, -⟩
        rfl
    | some T =>
      by_cases hlast : T < min (start + received) maxNumber
      · simp only [if_pos hlast]
        refine iff_of_false (Option.some_ne_none b).symm ?_
        rintro ⟨-, rfl, hle⟩
        exact absurd (hle T rfl) (Nat.not_le_of_lt hlast)
      · simp only [if_neg hlast, Option.some.injEq, forall_eq']
        constructor
        · rintro rfl
          exact ⟨hzero, rfl, Nat.le_of_not_lt hlast⟩
        · rintro ⟨-, rfl, -⟩
          rfl

theorem precedes_nextStart (hstart : start ≤ maxNumber)
    (h : nextStart start received total? = some b) : Precedes start b := by
  obtain ⟨hreceived, rfl, -⟩ := nextStart_eq_some_iff.1 h
  unfold Precedes
  omega

/-! ## Requests and replies -/

theorem asks_of_request (h : c.request start = .ok r) : c.Asks start r := by
  rw [request] at h
  split at h
  · cases h
  · next url hurl =>
    split at h
    · cases h
    · next accepting hget =>
      obtain ⟨plain, hplain, haccept⟩ := Option.bind_eq_some_iff.1 hget
      obtain rfl := Except.ok.inj h
      have hquery : url.query? = none := by
        rw [Url.resolve] at hurl
        split at hurl
        · cases hurl
        · obtain rfl := Except.ok.inj hurl
          rfl
      apply Request.parameters?_withQuery
      rw [Request.url_withHeader haccept, Request.query?_get hplain, hquery]

theorem Asks.eq (h : c.Asks a r) (h' : c.Asks b r) : a = b := by
  have hpairs := Option.some.inj (h.symm.trans h')
  simp only [List.cons.injEq, Prod.mk.injEq, and_true, true_and] at hpairs
  exact repr_inj.1 hpairs

/-- A successful reply with a page: a reported total, or none, and entries. -/
def Pages (e : Exchange) (total? : Option Nat) (es : List Entry) : Prop :=
  ∃ body, replyText name e = .ok body ∧ pageOf? body = some (total?, es)

theorem receive_of_pages (c : Ieee) (start : Nat) (h : Pages e total? es) :
    c.receive start e = (c.withNext (nextStart start es.length total?), .ok es) := by
  obtain ⟨body, hbody, hpage⟩ := h
  simp only [receive, hbody, hpage]
  rfl

theorem pages_or_fails (e : Exchange) : (∃ total? es, Pages e total? es) ∨ Fails e := by
  cases hbody : replyText name e with
  | error err => exact Or.inr (.refused hbody)
  | ok body =>
    cases hpage : pageOf? body with
    | none => exact Or.inr (.garbled hbody hpage)
    | some page => exact Or.inl ⟨page.1, page.2, body, hbody, hpage⟩

theorem Pages.not_fails (h : Pages e total? es) : ¬ Fails e := by
  obtain ⟨body, hbody, hpage⟩ := h
  rintro (⟨hrefused⟩ | ⟨hbody', hgarbled⟩)
  · cases hbody.symm.trans hrefused
  · obtain rfl := Except.ok.inj (hbody.symm.trans hbody')
    cases hpage.symm.trans hgarbled

/-! ## Calls -/

/-- The call that is due in a session asks for the page that starts with this number, or for none. -/
structure Due (c : Ieee) (x : Session Ieee) (t : Turn) (next? : Option Nat) : Prop where
  connector : ∃ s : Ieee, x.connector = s.connector
  call : x.connector.call t = (c.withNext next?).fetch

theorem Due.of_turn (h : Due c x t next?)
    (hx : x'.connector = x.connector.withState (c.withNext total?)) : Due c x' .next total? := by
  obtain ⟨s, hs⟩ := h.connector
  rw [hs] at hx
  exact ⟨⟨c.withNext total?, hx⟩, by rw [hx]; rfl⟩

theorem due_start (c : Ieee) : Due c (Session.start c.connector) .first (some 1) :=
  ⟨⟨c, rfl⟩, rfl⟩

/-- All that a call can do: it sends nothing, it fails, or it brings a page. -/
inductive Moves (srv : Server) (c : Ieee) (x x' : Session Ieee) : Option Nat → Option Nat → Prop
  | idle {next? : Option Nat} (hsent : x'.sent = x.sent) : Moves srv c x x' next? next?
  | failed {start : Nat} {r : Request} {err : FetchError} (hsent : x'.sent = x.sent ++ [r])
      (hpages : x'.pages = x.pages ++ [.error err])
      (hreply : Fails (srv x.sent r)) : Moves srv c x x' (some start) (some start)
  | paged {start : Nat} {r : Request} {total? : Option Nat} {es : List Entry}
      (hasks : c.Asks start r) (hreply : Pages (srv x.sent r) total? es)
      (hsent : x'.sent = x.sent ++ [r]) (hpages : x'.pages = x.pages ++ [.ok es]) :
      Moves srv c x x' (some start) (nextStart start es.length total?)

theorem Due.turn_paged (h : Due c x t (some start)) (hr : c.request start = .ok r)
    (hreply : Pages (srv x.sent r) total? es) :
    Due c (x.turn srv t) .next (nextStart start es.length total?) ∧
      (x.turn srv t).sent = x.sent ++ [r] ∧ (x.turn srv t).pages = x.pages ++ [.ok es] := by
  have hcall := h.call.trans (fetch_of_ok (c := c.withNext (some start)) rfl hr)
  have hturn : x.turn srv t = _ := Session.turn_of_ask hcall
  rw [receive_of_pages _ start hreply] at hturn
  refine ⟨h.of_turn ?_, ?_, ?_⟩ <;> rw [hturn]
  rfl

theorem Due.turn (h : Due c x t next?) (srv : Server) :
    ∃ after?, Due c (x.turn srv t) .next after? ∧ Moves srv c x (x.turn srv t) next? after? := by
  cases next? with
  | none =>
    have hturn : x.turn srv t = _ := Session.turn_of_done (h.call.trans (fetch_of_none rfl))
    exact ⟨none, h.of_turn (by rw [hturn]), .idle (by rw [hturn])⟩
  | some start =>
    cases hr : c.request start with
    | error err =>
      have hcall := h.call.trans (fetch_of_error (c := c.withNext (some start)) rfl hr)
      have hturn : x.turn srv t = _ := Session.turn_of_done hcall
      exact ⟨some start, h.of_turn (by rw [hturn]), .idle (by rw [hturn])⟩
    | ok r =>
      rcases pages_or_fails (srv x.sent r) with ⟨total?, es, hpages⟩ | hfails
      · obtain ⟨hdue, hsent, harrived⟩ := h.turn_paged hr hpages
        exact ⟨_, hdue, .paged (asks_of_request hr) hpages hsent harrived⟩
      · have hcall := h.call.trans (fetch_of_ok (c := c.withNext (some start)) rfl hr)
        have hturn : x.turn srv t = _ := Session.turn_of_ask hcall
        obtain ⟨err, hreceive⟩ := receive_of_fails (c.withNext (some start)) start hfails
        rw [hreceive] at hturn
        exact ⟨some start, h.of_turn (by rw [hturn]),
          .failed (by rw [hturn]) (by rw [hturn]) hfails⟩

/-- A call that sends a request and brings a page has brought the page that was due. -/
theorem Moves.fetched (h : Moves srv c x x' next? total?) (hsent : x'.sent = x.sent ++ [r])
    (hpages : x'.pages = x.pages ++ [.ok es]) :
    ∃ start reported?, next? = some start ∧ c.Asks start r ∧
      Pages (srv x.sent r) reported? es ∧ total? = nextStart start es.length reported? := by
  cases h with
  | idle hnone =>
    have hlength := congrArg List.length (hnone.symm.trans hsent)
    simp at hlength
  | failed _ herror _ =>
    have hpage := List.append_cancel_left (herror.symm.trans hpages)
    simp at hpage
  | paged hasks hreply hsent' hpages' =>
    obtain rfl : r = _ := by simpa using List.append_cancel_left (hsent.symm.trans hsent')
    obtain rfl : es = _ := by simpa using List.append_cancel_left (hpages.symm.trans hpages')
    exact ⟨_, _, rfl, hasks, hreply, rfl⟩

/-! ## From call to call -/

/-- What comes next is a page of the search, and it comes behind the one that starts with `a`. -/
def Beyond (a : Nat) (next? : Option Nat) : Prop := ∀ b, next? = some b → Precedes a b

def Within (next? : Option Nat) : Prop := ∀ b, next? = some b → 1 ≤ b ∧ b ≤ maxNumber

theorem within_nextStart (hstart : 1 ≤ start) : Within (nextStart start received total?) := by
  intro b hb
  obtain ⟨-, rfl, -⟩ := nextStart_eq_some_iff.1 hb
  simp only [maxNumber]
  omega

theorem Moves.within (h : Moves srv c x x' next? total?) (hnext : Within next?) : Within total? := by
  cases h with
  | idle _ => exact hnext
  | failed _ _ _ => exact hnext
  | paged _ _ _ _ => exact within_nextStart (hnext _ rfl).1

theorem Moves.beyond (h : Moves srv c x x' next? total?) (hnext : Within next?)
    (ha : Beyond a next?) : Beyond a total? := by
  cases h with
  | idle _ => exact ha
  | failed _ _ _ => exact ha
  | paged _ _ _ _ =>
    intro b hb
    exact (ha _ rfl).trans (precedes_nextStart (hnext _ rfl).2 hb)

theorem exists_due (srv : Server) (c : Ieee) (n : Nat) :
    ∃ next?, Due c (Session.after srv c.connector n) (.ofNumber n) next? ∧ Within next? := by
  induction n with
  | zero =>
    refine ⟨some 1, due_start c, fun b hb => ?_⟩
    obtain rfl := Option.some.inj hb
    exact ⟨Nat.le_refl 1, by decide⟩
  | succ n ih =>
    obtain ⟨next?, hdue, hwithin⟩ := ih
    obtain ⟨after?, hdue', hmoves⟩ := hdue.turn srv
    exact ⟨after?, hdue', hmoves.within hwithin⟩

theorem exists_due_beyond {i j : Nat} (hij : i < j)
    (hi : Session.Fetches srv c.connector i r es) (ha : c.Asks a r) :
    ∃ next?, Due c (Session.after srv c.connector j) (.ofNumber j) next? ∧ Within next? ∧
      Beyond a next? := by
  -- by induction on the calls behind call `i`: what is due stays beyond the page that it has brought
  obtain ⟨d, rfl⟩ := Nat.exists_eq_add_of_lt hij
  clear hij
  induction d with
  | zero =>
    obtain ⟨next?, hdue, hwithin⟩ := exists_due srv c i
    obtain ⟨after?, hdue', hmoves⟩ := hdue.turn srv
    obtain ⟨start, reported?, rfl, hasks, -, rfl⟩ := hmoves.fetched hi.1 hi.2
    obtain rfl := hasks.eq ha
    exact ⟨_, hdue', hmoves.within hwithin, fun b hb => precedes_nextStart (hwithin _ rfl).2 hb⟩
  | succ d ih =>
    obtain ⟨next?, hdue, hwithin, hbeyond⟩ := ih
    obtain ⟨after?, hdue', hmoves⟩ := hdue.turn srv
    exact ⟨after?, hdue', hmoves.within hwithin, hmoves.beyond hwithin hbeyond⟩

theorem precedes_of_fetches {i j : Nat} {r' : Request} {es' : List Entry} (hij : i < j)
    (hi : Session.Fetches srv c.connector i r es) (ha : c.Asks a r)
    (hj : Session.Fetches srv c.connector j r' es') (hb : c.Asks b r') : Precedes a b := by
  obtain ⟨next?, hdue, -, hbeyond⟩ := exists_due_beyond hij hi ha
  obtain ⟨after?, -, hmoves⟩ := hdue.turn srv
  obtain ⟨start, reported?, rfl, hasks, -, -⟩ := hmoves.fetched hj.1 hj.2
  obtain rfl := hasks.eq hb
  exact hbeyond _ rfl

/-! ## The end of a search -/

/-- A page that is due has a number behind the requests sent so far, and the first page apart, one
that does not exceed the total; when none is due, no more requests were sent than there are records,
the one for the first page apart. -/
def Bounded (T asked : Nat) : Option Nat → Prop
  | some b => asked < b ∧ b ≤ max T 1
  | none => asked ≤ max T 1

theorem Bounded.le {asked : Nat} (h : Bounded T asked next?) : asked ≤ T + 1 := by
  cases next? <;> simp only [Bounded] at h <;> omega

theorem bounded_nextStart (hT : T < maxNumber) {asked : Nat} (h : Bounded T asked (some start)) :
    Bounded T (asked + 1) (nextStart start received (some T)) := by
  obtain ⟨hasked, hstart⟩ := h
  cases hnext : nextStart start received (some T) with
  | none =>
    simp only [Bounded]
    omega
  | some b =>
    obtain ⟨hreceived, rfl, hle⟩ := nextStart_eq_some_iff.1 hnext
    have hb := hle T rfl
    simp only [Bounded]
    omega

/-- Every reply is a page and reports the total. -/
def Reports (srv : Server) (T : Nat) : Prop :=
  ∀ past r, ∃ es, Pages (srv past r) (some T) es

theorem Pages.eq {es' : List Entry} {reported? : Option Nat} (h : Pages e total? es)
    (h' : Pages e reported? es') : total? = reported? ∧ es = es' := by
  obtain ⟨body, hbody, hpage⟩ := h
  obtain ⟨body', hbody', hpage'⟩ := h'
  obtain rfl := Except.ok.inj (hbody.symm.trans hbody')
  simpa using hpage.symm.trans hpage'

theorem Moves.bounded (hT : T < maxNumber) (hsrv : Reports srv T)
    (h : Moves srv c x x' next? total?) (hb : Bounded T x.sent.length next?) :
    Bounded T x'.sent.length total? := by
  cases h with
  | idle hsent => rwa [hsent]
  | failed _ _ hreply =>
    obtain ⟨es, hpages⟩ := hsrv x.sent _
    exact absurd hreply hpages.not_fails
  | paged _ hreply hsent _ =>
    obtain ⟨es, hpages⟩ := hsrv x.sent _
    obtain ⟨rfl, -⟩ := hreply.eq hpages
    rw [hsent, List.length_append, List.length_singleton]
    exact bounded_nextStart hT hb

theorem length_sent_after (hT : T < maxNumber) (hsrv : Reports srv T) (c : Ieee) (n : Nat) :
    (Session.after srv c.connector n).sent.length ≤ T + 1 := by
  suffices h : ∃ next?, Due c (Session.after srv c.connector n) (.ofNumber n) next? ∧
      Bounded T (Session.after srv c.connector n).sent.length next? by
    obtain ⟨next?, -, hbounded⟩ := h
    exact hbounded.le
  induction n with
  | zero => exact ⟨some 1, due_start c, Nat.zero_lt_one, Nat.le_max_right T 1⟩
  | succ n ih =>
    obtain ⟨next?, hdue, hbounded⟩ := ih
    obtain ⟨after?, hdue', hmoves⟩ := hdue.turn srv
    exact ⟨after?, hdue', hmoves.bounded hT hsrv hbounded⟩

theorem run_drainCall_of_reports (hT : T < maxNumber) (hsrv : Reports srv T) (s : Ieee)
    (limit : Nat) (entries : List Entry) (sent : List Request)
    (hb : Bounded T sent.length (some start)) (hlimit : T + 1 ≤ limit + sent.length) :
    ∃ last page sent', (s.connector.drainCall srv.send limit entries
        (c.withNext (some start)).fetch).run sent = (some (last, page), sent') ∧
      sent'.length ≤ T + 1 ∧ (c.Reachable → ∃ all, page = .ok all) := by
  induction limit generalizing s start entries sent with
  | zero =>
    obtain ⟨hasked, hstart⟩ := hb
    omega
  | succ limit ih =>
    have hasked := Nat.le_trans (Nat.lt_of_lt_of_le hb.1 hb.2)
      (Nat.max_le.2 ⟨Nat.le_succ T, Nat.le_add_left 1 T⟩)
    cases hr : c.request start with
    | error err =>
      rw [fetch_of_error (c := c.withNext (some start)) rfl hr,
        Connector.run_drainCall_error (Call.run_done _ _ _ _)]
      refine ⟨_, _, sent, rfl, Nat.le_of_succ_le hasked, fun hc => ?_⟩
      obtain ⟨r, hr', -⟩ := exists_request hc start
      cases hr.symm.trans hr'
    | ok r =>
      obtain ⟨es, hpages⟩ := hsrv sent r
      have hrun : ((c.withNext (some start)).fetch.run srv.send).run sent =
          ((c.withNext (nextStart start es.length (some T)), .ok es), sent ++ [r]) := by
        rw [fetch_of_ok (c := c.withNext (some start)) rfl hr, Call.run_ask,
          receive_of_pages _ start hpages, withNext_withNext]
      have hsent : (sent ++ [r]).length = sent.length + 1 := by
        rw [List.length_append, List.length_singleton]
      by_cases hempty : es = []
      · subst hempty
        rw [Connector.run_drainCall_nil hrun]
        exact ⟨_, _, _, rfl, by omega, fun _ => ⟨_, rfl⟩⟩
      · have hbounded : Bounded T (sent.length + 1) (nextStart start es.length (some T)) :=
          bounded_nextStart hT hb
        rw [Connector.run_drainCall_of_ne_nil hrun hempty, Connector.drainNext_succ]
        cases hnext : nextStart start es.length (some T) with
        | none =>
          have hcall : (s.connector.withState (c.withNext none)).call .next =
              .done (c.withNext none) (.ok []) := fetch_of_none (next?_withNext c none)
          rw [hcall, Connector.run_drainCall_nil (Call.run_done _ _ _ _)]
          exact ⟨_, _, _, rfl, by omega, fun _ => ⟨_, rfl⟩⟩
        | some b =>
          rw [hnext, ← hsent] at hbounded
          exact ih (c.withNext (some b)) _ _ hbounded (by omega)

/-! ## Servers that repeat themselves -/

def always (body : String) : Server := fun _ _ => .reply 200 (some body)

theorem Due.fetches (hc : c.Reachable) (hsrv : ∀ past r, Pages (srv past r) total? es) {n : Nat}
    (h : Due c (Session.after srv c.connector n) (.ofNumber n) (some start)) :
    ∃ r, Session.Fetches srv c.connector n r es ∧ c.Asks start r ∧
      Due c (Session.after srv c.connector (n + 1)) (.ofNumber (n + 1))
        (nextStart start es.length total?) := by
  obtain ⟨r, hr, hasks⟩ := exists_request hc start
  obtain ⟨hdue, hsent, hpages⟩ := h.turn_paged hr (hsrv _ r)
  exact ⟨r, ⟨hsent, hpages⟩, hasks, hdue⟩

/-- The pages of a search that arrive one after the other start with ever greater numbers, whatever
the server does, until the greatest number of all is reached. When every reply is a page and reports
a total below it, the search comes to its end, and it never sends more than one request more than
there are records. -/
theorem starts_increase (c : Ieee) (srv : Server) :
    (∀ i j r r' es es' a b, i < j → Session.Fetches srv c.connector i r es → c.Asks a r →
      Session.Fetches srv c.connector j r' es' → c.Asks b r' →
        a < b ∨ a = maxNumber ∧ b = maxNumber) ∧
    ∀ T, T < maxNumber → Reports srv T →
      (∀ n, (Session.after srv c.connector n).sent.length ≤ T + 1) ∧
      ∀ limit, T + 1 ≤ limit → ∃ last page sent,
        (c.connector.drain srv.send limit).run [] = (some (last, page), sent) ∧
          sent.length ≤ T + 1 ∧ (c.Reachable → ∃ all, page = .ok all) := by
  refine ⟨fun i j r r' es es' a b hij hi ha hj hb => ?_, fun T hT hsrv => ⟨?_, ?_⟩⟩
  · exact (precedes_of_fetches hij hi ha hj hb).imp_left And.left
  · exact length_sent_after hT hsrv c
  · intro limit hlimit
    rw [Connector.drain_eq_drainCall, call_first]
    exact run_drainCall_of_reports hT hsrv c limit [] []
      ⟨Nat.zero_lt_one, Nat.le_max_right T 1⟩ hlimit

def oneOfTwoPage : String := "\x7b\"total_records\":2,\"articles\":[\x7b\x7d]\x7d"

def oneOfManyPage : String := "\x7b\"total_records\":8589934592,\"articles\":[\x7b\x7d]\x7d"

def blankEntry : Entry := Entry.new Resource.empty [Source.withLink name ""]

theorem starts_increase_oneOfTwo :
    let c := new defaultBase "key" "q"
    let srv := always oneOfTwoPage
    (∃ r r', Session.Fetches srv c.connector 0 r [blankEntry] ∧ c.Asks 1 r ∧
      Session.Fetches srv c.connector 1 r' [blankEntry] ∧ c.Asks 2 r' ∧
        (1 < 2 ∨ 1 = maxNumber ∧ 2 = maxNumber)) ∧
    Reports srv 2 ∧ (∀ n, (Session.after srv c.connector n).sent.length ≤ 3) ∧
    ∃ last page sent, (c.connector.drain srv.send 3).run [] = (some (last, page), sent) ∧
      sent.length ≤ 3 ∧ (c.Reachable → ∃ all, page = .ok all) := by
  intro c srv
  have hc : c.Reachable := ⟨by decide +kernel, [""], rfl⟩
  have hreply : Pages (.reply 200 (some oneOfTwoPage)) (some 2) [blankEntry] :=
    ⟨oneOfTwoPage, by decide +kernel, by decide +kernel⟩
  have hpages : ∀ past r, Pages (srv past r) (some 2) [blankEntry] := fun _ _ => hreply
  have hreports : Reports srv 2 := fun past r => ⟨_, hpages past r⟩
  obtain ⟨r, hfirst, hasks, hdue⟩ := Due.fetches hc hpages (n := 0) (due_start c)
  have hdue' : Due c (Session.after srv c.connector 1) (.ofNumber 1) (some 2) := hdue
  obtain ⟨r', hsecond, hasks', -⟩ := Due.fetches hc hpages hdue'
  obtain ⟨hincrease, hend⟩ := starts_increase c srv
  obtain ⟨hsent, hdrain⟩ := hend 2 (by decide) hreports
  exact ⟨⟨r, r', hfirst, hasks, hsecond, hasks',
      hincrease 0 1 r r' _ _ 1 2 Nat.zero_lt_one hfirst hasks hsecond hasks'⟩,
    hreports, hsent, hdrain 3 (Nat.le_refl 3)⟩

theorem due_oneOfMany {c : Ieee} (hc : c.Reachable)
    (hpages : ∀ past r, Pages (srv past r) (some 8589934592) [blankEntry]) (n : Nat) :
    Due c (Session.after srv c.connector n) (.ofNumber n) (some (min (n + 1) maxNumber)) ∧
      (Session.after srv c.connector n).sent.length = n := by
  induction n with
  | zero => exact ⟨due_start c, rfl⟩
  | succ n ih =>
    obtain ⟨hdue, hlength⟩ := ih
    have hnext : nextStart (min (n + 1) maxNumber) [blankEntry].length (some 8589934592) =
        some (min (n + 1 + 1) maxNumber) := by
      rw [nextStart_eq_some_iff, List.length_singleton]
      refine ⟨Nat.one_ne_zero, by omega, fun T hT => ?_⟩
      obtain rfl := Option.some.inj hT
      simp only [maxNumber]
      omega
    obtain ⟨r, hfetches, -, hdue'⟩ := Due.fetches hc hpages hdue
    rw [hnext] at hdue'
    refine ⟨hdue', ?_⟩
    rw [hfetches.1, List.length_append, List.length_singleton, hlength]

/-- The numbers do not go up for ever, and a search does not always come to its end: behind the
greatest number, one page is asked for again and again. -/
theorem not_starts_increase :
    (¬ ∀ (c : Ieee) (srv : Server), (∀ past r, ∃ total? es, Pages (srv past r) total? es) →
      ∀ n r r' es es' a b, Session.Fetches srv c.connector n r es → c.Asks a r →
        Session.Fetches srv c.connector (n + 1) r' es' → c.Asks b r' → a < b) ∧
    ¬ ∀ (c : Ieee) (srv : Server) T, Reports srv T →
      ∀ n, (Session.after srv c.connector n).sent.length ≤ T + 1 := by
  let c := new defaultBase "key" "q"
  let srv := always oneOfManyPage
  have hc : c.Reachable := ⟨by decide +kernel, [""], rfl⟩
  have hreply : Pages (.reply 200 (some oneOfManyPage)) (some 8589934592) [blankEntry] :=
    ⟨oneOfManyPage, by decide +kernel, by decide +kernel⟩
  have hpages : ∀ past r, Pages (srv past r) (some 8589934592) [blankEntry] := fun _ _ => hreply
  constructor
  · intro h
    obtain ⟨r, hfetches, hasks, -⟩ :=
      Due.fetches hc hpages (due_oneOfMany hc hpages (maxNumber - 1)).1
    obtain ⟨r', hfetches', hasks', -⟩ :=
      Due.fetches hc hpages (due_oneOfMany hc hpages (maxNumber - 1 + 1)).1
    have hless := h c srv (fun past r => ⟨_, _, hpages past r⟩) _ r r' _ _ _ _ hfetches hasks
      hfetches' hasks'
    omega
  · intro h
    have hle := h c srv 8589934592 (fun past r => ⟨_, hpages past r⟩) (8589934592 + 2)
    rw [(due_oneOfMany hc hpages _).2] at hle
    omega

end Ieee

end PaperTrail
