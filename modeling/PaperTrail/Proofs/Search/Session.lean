import PaperTrail.Search.Registry

/-!
# Sessions

A session is a connector in use: the calls made so far, the requests that they sent, and the pages
that they brought.

* `Server` : what comes of a request, given the requests before it, so a server of any behaviour;
* `Turn` : a call of a connector; `Session.turn`, `Session.turns` : a session after calls;
* `Call.Ensures` : what holds after a call whatever the reply is; `Session.turn_ensures` carries it
  over to sessions;
* `Session.delivered`, `Session.failures` : the entries that have arrived, the calls that have failed;
* `turns_eq_behind` : what happens in a session from some moment on depends on the connector and on
  the replies from then on, not on what was sent and brought before;
* `Connector.drainCall` : fetching all pages from a call on; `drain_eq_drainCall` and `drainNext_succ`
  bring both loops to it.
-/

namespace PaperTrail

/-- What comes of a request, given the requests that were sent before it. -/
def Server := List Request → Request → Exchange

namespace Server

def send (srv : Server) (r : Request) : StateM (List Request) Exchange :=
  fun sent => (srv sent r, sent ++ [r])

def after (srv : Server) (sent : List Request) : Server := fun later r => srv (sent ++ later) r

/-- The server that gives replies in turn, whatever it is asked. -/
def inTurn (replies : Nat → Exchange) : Server := fun sent _ => replies sent.length

/-- The server that gives the replies of a list in turn, and then none. -/
def ofList (replies : List Exchange) : Server := inTurn fun n => replies.getD n .failed

end Server

instance : DecidableEq Page
  | .ok a, .ok b => decidable_of_iff (a = b) (by simp)
  | .error a, .error b => decidable_of_iff (a = b) (by simp)
  | .ok _, .error _ => isFalse nofun
  | .error _, .ok _ => isFalse nofun

/-- A call of a connector: for the first page or for the next one. -/
inductive Turn where
  | first
  | next
deriving DecidableEq

variable {σ τ : Type}

namespace Call

/-- What holds of state and page after a call, whatever comes of its request. -/
def Ensures (P : σ → Page → Prop) : Call σ → Prop
  | done s p => P s p
  | ask _ receive => ∀ e, P (receive e).1 (receive e).2

theorem ensures_mapState {f : σ → τ} {P : τ → Page → Prop} {call : Call σ} :
    (call.mapState f).Ensures P ↔ call.Ensures fun s p => P (f s) p := by
  cases call <;> rfl

@[simp] theorem run_done (srv : Server) (sent : List Request) (s : σ) (p : Page) :
    ((done s p).run srv.send).run sent = ((s, p), sent) := rfl

@[simp] theorem run_ask (srv : Server) (sent : List Request) (r : Request)
    (receive : Exchange → σ × Page) :
    ((ask r receive).run srv.send).run sent = (receive (srv sent r), sent ++ [r]) := rfl

theorem Ensures.imp {P Q : σ → Page → Prop} {call : Call σ} (h : call.Ensures P)
    (hPQ : ∀ s p, P s p → Q s p) : call.Ensures Q := by
  cases call with
  | done s p => exact hPQ s p h
  | ask r receive => exact fun e => hPQ _ _ (h e)

theorem Ensures.and {P Q : σ → Page → Prop} {call : Call σ} (hP : call.Ensures P)
    (hQ : call.Ensures Q) : call.Ensures fun s p => P s p ∧ Q s p := by
  cases call with
  | done s p => exact ⟨hP, hQ⟩
  | ask r receive => exact fun e => ⟨hP e, hQ e⟩

end Call

namespace Connector

def call (k : Connector σ) : Turn → Call σ
  | .first => k.first k.state
  | .next => k.next k.state

def fetch {m : Type → Type} [Monad m] (send : Request → m Exchange) (k : Connector σ) :
    Turn → m (Connector σ × Page)
  | .first => k.fetchFirst send
  | .next => k.fetchNext send

theorem fetch_eq {m : Type → Type} [Monad m] (send : Request → m Exchange) (k : Connector σ)
    (t : Turn) : k.fetch send t = do
      let (s, p) ← (k.call t).run send
      return (k.withState s, p) := by
  cases t <;> rfl

end Connector

/-- A connector in use. -/
structure Session (σ : Type) where
  connector : Connector σ
  sent : List Request
  pages : List Page

namespace Session

def start (k : Connector σ) : Session σ := ⟨k, [], []⟩

def turn (srv : Server) (s : Session σ) (t : Turn) : Session σ :=
  let ((k, p), sent) := (s.connector.fetch srv.send t).run s.sent
  ⟨k, sent, s.pages ++ [p]⟩

def turns (srv : Server) (s : Session σ) (ts : List Turn) : Session σ := ts.foldl (turn srv) s

variable {srv : Server} {s : Session σ} {t : Turn}

theorem turns_cons (ts : List Turn) : s.turns srv (t :: ts) = (s.turn srv t).turns srv ts := rfl

theorem turn_of_done {st : σ} {p : Page} (h : s.connector.call t = .done st p) :
    s.turn srv t = ⟨s.connector.withState st, s.sent, s.pages ++ [p]⟩ := by
  simp only [turn, Connector.fetch_eq, h]
  rfl

theorem turn_of_ask {r : Request} {receive : Exchange → σ × Page}
    (h : s.connector.call t = .ask r receive) :
    s.turn srv t =
      ⟨s.connector.withState (receive (srv s.sent r)).1, s.sent ++ [r],
        s.pages ++ [(receive (srv s.sent r)).2]⟩ := by
  simp only [turn, Connector.fetch_eq, h]
  rfl

theorem turn_ensures (srv : Server) {P : σ → Page → Prop} (h : (s.connector.call t).Ensures P) :
    ∃ st p, (s.turn srv t).connector = s.connector.withState st ∧
      (s.turn srv t).pages = s.pages ++ [p] ∧ P st p := by
  cases hcall : s.connector.call t with
  | done st p =>
    rw [hcall] at h
    rw [turn_of_done hcall]
    exact ⟨st, p, rfl, rfl, h⟩
  | ask r receive =>
    rw [hcall] at h
    rw [turn_of_ask hcall]
    exact ⟨_, _, rfl, rfl, h _⟩

/-! ## Sessions that go on -/

def behind (s : Session σ) (sent : List Request) (pages : List Page) : Session σ :=
  ⟨s.connector, sent ++ s.sent, pages ++ s.pages⟩

theorem turn_behind (sent : List Request) (pages : List Page) :
    (s.behind sent pages).turn srv t = (s.turn (srv.after sent) t).behind sent pages := by
  cases hcall : s.connector.call t with
  | done st p =>
    rw [turn_of_done (s := s) hcall, turn_of_done (s := s.behind sent pages) hcall]
    simp only [behind, List.append_assoc]
  | ask r receive =>
    rw [turn_of_ask (s := s) hcall, turn_of_ask (s := s.behind sent pages) hcall]
    simp only [behind, Server.after, List.append_assoc]

theorem turns_behind (ts : List Turn) (sent : List Request) (pages : List Page) :
    (s.behind sent pages).turns srv ts = (s.turns (srv.after sent) ts).behind sent pages := by
  induction ts generalizing s with
  | nil => rfl
  | cons t ts ih => rw [turns_cons, turns_cons, turn_behind, ih]

/-- What happens from now on depends on the connector and on the server as it is now. -/
theorem turns_eq_behind (s : Session σ) (ts : List Turn) :
    s.turns srv ts =
      ((start s.connector).turns (srv.after s.sent) ts).behind s.sent s.pages := by
  rw [← turns_behind]
  simp only [start, behind, List.append_nil]

/-! ## What arrives -/

theorem length_pages_turn (s : Session σ) (t : Turn) :
    (s.turn srv t).pages.length = s.pages.length + 1 := by
  cases hcall : s.connector.call t with
  | done st p => rw [turn_of_done hcall, List.length_append, List.length_singleton]
  | ask r receive => rw [turn_of_ask hcall, List.length_append, List.length_singleton]

theorem length_pages_turns (s : Session σ) (ts : List Turn) :
    (s.turns srv ts).pages.length = s.pages.length + ts.length := by
  induction ts generalizing s with
  | nil => rfl
  | cons t ts ih => rw [turns_cons, ih, length_pages_turn, List.length_cons]; omega

/-- The entries of the pages that have arrived. -/
def delivered : List Page → List Entry
  | [] => []
  | .ok page :: pages => page ++ delivered pages
  | .error _ :: pages => delivered pages

/-- How many pages could not be fetched. -/
def failures : List Page → Nat
  | [] => 0
  | .ok _ :: pages => failures pages
  | .error _ :: pages => failures pages + 1

theorem delivered_append (pages more : List Page) :
    delivered (pages ++ more) = delivered pages ++ delivered more := by
  induction pages with
  | nil => rfl
  | cons p pages ih =>
    cases p with
    | ok page => rw [List.cons_append, delivered, delivered, ih, List.append_assoc]
    | error e => rw [List.cons_append, delivered, delivered, ih]

theorem failures_append (pages more : List Page) :
    failures (pages ++ more) = failures pages + failures more := by
  induction pages with
  | nil => simp [failures]
  | cons p pages ih =>
    cases p with
    | ok page => rw [List.cons_append, failures, failures, ih]
    | error e => rw [List.cons_append, failures, failures, ih]; omega

/-- A page that arrives and is not empty brings an entry. -/
theorem length_le_of_nil_not_mem {pages : List Page} (h : .ok [] ∉ pages) :
    pages.length ≤ (delivered pages).length + failures pages := by
  induction pages with
  | nil => exact Nat.le_refl 0
  | cons p pages ih =>
    have hrest := ih fun hmem => h (List.mem_cons_of_mem p hmem)
    cases p with
    | error e =>
      rw [List.length_cons, delivered, failures]
      omega
    | ok page =>
      have hne : page ≠ [] := by
        rintro rfl
        exact h List.mem_cons_self
      have hpos := List.length_pos_iff.2 hne
      rw [List.length_cons, delivered, failures, List.length_append]
      omega

end Session

/-! ## Fetching all pages -/

namespace Connector
variable {m : Type → Type} [Monad m]

/-- Fetches all pages from a call on, behind the entries so far. -/
def drainCall (send : Request → m Exchange) (limit : Nat) (entries : List Entry) (k : Connector σ)
    (call : Call σ) : m (Option (Connector σ × Page)) := do
  match ← call.run send with
  | (s, .error e) => return some (k.withState s, .error e)
  | (s, .ok page) =>
    if page.isEmpty then return some (k.withState s, .ok entries)
    else drainNext send limit (entries ++ page) (k.withState s)

theorem drain_eq_drainCall [LawfulMonad m] (send : Request → m Exchange) (limit : Nat)
    (k : Connector σ) : k.drain send limit = k.drainCall send limit [] (k.call .first) := by
  simp only [drain, drainCall, fetchFirst, call, List.nil_append, bind_assoc, pure_bind]
  refine bind_congr fun sp => ?_
  obtain ⟨s, e | page⟩ := sp <;> rfl

theorem drainNext_succ [LawfulMonad m] (send : Request → m Exchange) (limit : Nat)
    (entries : List Entry) (k : Connector σ) :
    drainNext send (limit + 1) entries k = k.drainCall send limit entries (k.call .next) := by
  simp only [drainNext, drainCall, fetchNext, call, bind_assoc, pure_bind]
  refine bind_congr fun sp => ?_
  obtain ⟨s, e | page⟩ := sp <;> rfl

variable {srv : Server} {k : Connector σ} {limit : Nat} {entries : List Entry}
  {sent sent' : List Request} {call : Call σ} {st : σ}

theorem run_drainCall_error {e : FetchError}
    (h : (call.run srv.send).run sent = ((st, .error e), sent')) :
    (k.drainCall srv.send limit entries call).run sent =
      (some (k.withState st, .error e), sent') := by
  rw [drainCall, StateT.run_bind, h]
  rfl

theorem run_drainCall_nil (h : (call.run srv.send).run sent = ((st, .ok []), sent')) :
    (k.drainCall srv.send limit entries call).run sent =
      (some (k.withState st, .ok entries), sent') := by
  rw [drainCall, StateT.run_bind, h]
  rfl

theorem run_drainCall_of_ne_nil {page : List Entry}
    (h : (call.run srv.send).run sent = ((st, .ok page), sent')) (hne : page ≠ []) :
    (k.drainCall srv.send limit entries call).run sent =
      (drainNext srv.send limit (entries ++ page) (k.withState st)).run sent' := by
  obtain ⟨e, rest, rfl⟩ := List.exists_cons_of_ne_nil hne
  rw [drainCall, StateT.run_bind, h]
  rfl

end Connector

end PaperTrail
