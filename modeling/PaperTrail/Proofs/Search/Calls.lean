import PaperTrail.Proofs.Search.Drain

/-!
# The calls of fetching all pages

Fetching all pages of a connector makes one call for the first page, and then calls for the next one
as long as pages come that are not empty. A session that makes the same calls one by one shows which
pages come; nothing is said of what the connector does between the calls.

* `Connector.noting` : a connector that also notes which of its calls are made. It goes through the
  same states and brings the same pages (`turns_noting`);
* `drainCalls` : the calls up to the one that ends the search behind some pages;
* `run_drainCall_of_turns`, `run_drainCall_low` : by induction on the pages, what a limit that is high
  enough gives, and that a lower one gives nothing;
* `drain_noting` : what fetching all pages gives, and the calls that it makes.
-/

namespace PaperTrail
variable {σ : Type}

/-! ## Noting calls -/

namespace Connector

/-- The connector with a note of every call that is made. -/
def noting (k : Connector σ) : Connector (σ × List Turn) where
  name := k.name
  state := (k.state, [])
  first s := (k.first s.1).mapState fun st => (st, s.2 ++ [.first])
  next s := (k.next s.1).mapState fun st => (st, s.2 ++ [.next])

end Connector

namespace Session

/-- The session of the connector that notes its calls, after the noted ones. -/
def noted (s : Session σ) (calls : List Turn) : Session (σ × List Turn) :=
  ⟨s.connector.noting.withState (s.connector.state, calls), s.sent, s.pages⟩

theorem call_noted (s : Session σ) (calls : List Turn) (t : Turn) :
    (s.noted calls).connector.call t =
      (s.connector.call t).mapState fun st => (st, calls ++ [t]) := by
  cases t <;> rfl

theorem turn_noted (srv : Server) (s : Session σ) (calls : List Turn) (t : Turn) :
    (s.noted calls).turn srv t = (s.turn srv t).noted (calls ++ [t]) := by
  have hnoted := call_noted s calls t
  cases hcall : s.connector.call t with
  | done st p =>
    rw [hcall] at hnoted
    rw [turn_of_done hcall, turn_of_done hnoted]
    rfl
  | ask r receive =>
    rw [hcall] at hnoted
    rw [turn_of_ask hcall, turn_of_ask hnoted]
    rfl

/-- Noting the calls changes neither states nor pages. -/
theorem turns_noting (srv : Server) (s : Session σ) (calls ts : List Turn) :
    (s.noted calls).turns srv ts = (s.turns srv ts).noted (calls ++ ts) := by
  induction ts generalizing s calls with
  | nil => rw [List.append_nil]; rfl
  | cons t ts ih => rw [turns_cons, turn_noted, ih, turns_cons, List.append_assoc]; rfl

/-! ## One call of a session -/

/-- A session after a call, as the call is carried out. -/
theorem exists_turn (srv : Server) (s : Session σ) (t : Turn) :
    ∃ st p sent, ((s.connector.call t).run srv.send).run s.sent = ((st, p), sent) ∧
      s.turn srv t = ⟨s.connector.withState st, sent, s.pages ++ [p]⟩ := by
  cases hcall : s.connector.call t with
  | done st p => exact ⟨st, p, s.sent, rfl, turn_of_done hcall⟩
  | ask r receive => exact ⟨_, _, _, rfl, turn_of_ask hcall⟩

theorem pages_turns (srv : Server) (s : Session σ) (ts : List Turn) :
    ∃ more, (s.turns srv ts).pages = s.pages ++ more := by
  rw [turns_eq_behind]
  exact ⟨_, rfl⟩

/-- Calls change nothing of a connector but its state. -/
theorem connector_turns (srv : Server) (s : Session σ) (ts : List Turn) :
    (s.turns srv ts).connector = s.connector.withState (s.turns srv ts).connector.state := by
  induction ts generalizing s with
  | nil => rfl
  | cons t ts ih =>
    obtain ⟨st, p, sent, -, hturn⟩ := s.exists_turn srv t
    rw [turns_cons, hturn]
    exact ih _

end Session

/-! ## All calls -/

namespace Connector

/-- The calls of a search whose end is found behind as many pages. -/
def drainCalls (n : Nat) : List Turn := .first :: List.replicate n .next

def ending : Option FetchError → Page
  | none => .ok []
  | some e => .error e

variable {srv : Server} {s : Session σ} {t : Turn} {pages : List (List Entry)}
  {e? : Option FetchError}

/-- The first of the pages is the one that the first of the calls brings. -/
theorem turns_pages_cons {page : List Entry}
    (h : (s.turns srv (t :: List.replicate (pages.length + 1) .next)).pages =
      s.pages ++ ((page :: pages).map .ok ++ [ending e?])) :
    ∃ st sent, ((s.connector.call t).run srv.send).run s.sent = ((st, .ok page), sent) ∧
      s.turn srv t = ⟨s.connector.withState st, sent, s.pages ++ [.ok page]⟩ ∧
      ((s.turn srv t).turns srv (.next :: List.replicate pages.length .next)).pages =
        (s.turn srv t).pages ++ (pages.map .ok ++ [ending e?]) := by
  obtain ⟨st, p, sent, hrun, hturn⟩ := s.exists_turn srv t
  rw [Session.turns_cons, List.replicate_succ, hturn] at h
  rw [hturn]
  obtain ⟨more, hmore⟩ := Session.pages_turns srv
    ⟨s.connector.withState st, sent, s.pages ++ [p]⟩ (.next :: List.replicate pages.length .next)
  have hsame := hmore.symm.trans h
  rw [List.append_assoc, List.append_cancel_left_eq, List.map_cons, List.cons_append,
    List.cons_append, List.nil_append, List.cons.injEq] at hsame
  obtain ⟨rfl, rfl⟩ := hsame
  exact ⟨st, sent, hrun, rfl, hmore⟩

theorem run_drainCall_of_turns (hne : ∀ page ∈ pages, page ≠ [])
    (h : (s.turns srv (t :: List.replicate pages.length .next)).pages =
      s.pages ++ (pages.map .ok ++ [ending e?])) {limit : Nat} (hlimit : pages.length ≤ limit)
    (entries : List Entry) :
    let last := s.turns srv (t :: List.replicate pages.length .next)
    (s.connector.drainCall srv.send limit entries (s.connector.call t)).run s.sent =
      (some (last.connector, (resultOf pages e?).map (entries ++ ·)), last.sent) := by
  induction pages generalizing s t limit entries with
  | nil =>
    obtain ⟨st, p, sent, hrun, hturn⟩ := s.exists_turn srv t
    rw [List.length_nil, List.replicate_zero, Session.turns_cons, hturn] at h ⊢
    obtain rfl : p = ending e? := by simpa [Session.turns] using h
    cases e? with
    | none =>
      rw [run_drainCall_nil hrun, resultOf, List.flatten_nil, Except.map, List.append_nil]
      rfl
    | some e =>
      rw [run_drainCall_error hrun]
      rfl
  | cons page pages ih =>
    obtain ⟨st, sent, hrun, hturn, hrest⟩ := turns_pages_cons h
    rw [List.forall_mem_cons] at hne
    rw [List.length_cons] at hlimit ⊢
    obtain ⟨limit, rfl⟩ := Nat.exists_eq_succ_of_ne_zero (by omega : limit ≠ 0)
    rw [run_drainCall_of_ne_nil hrun hne.1, drainNext_succ, resultOf_cons, List.replicate_succ,
      Session.turns_cons]
    rw [hturn] at hrest ⊢
    exact ih hne.2 hrest (by omega) (entries ++ page)

/-- A limit below the number of pages is not enough. -/
theorem run_drainCall_low (hne : ∀ page ∈ pages, page ≠ [])
    (h : (s.turns srv (t :: List.replicate pages.length .next)).pages =
      s.pages ++ (pages.map .ok ++ [ending e?])) {limit : Nat} (hlimit : limit < pages.length)
    (entries : List Entry) :
    ((s.connector.drainCall srv.send limit entries (s.connector.call t)).run s.sent).1 = none := by
  induction pages generalizing s t limit entries with
  | nil => exact absurd hlimit (Nat.not_lt_zero limit)
  | cons page pages ih =>
    obtain ⟨st, sent, hrun, hturn, hrest⟩ := turns_pages_cons h
    rw [List.forall_mem_cons] at hne
    rw [run_drainCall_of_ne_nil hrun hne.1]
    cases limit with
    | zero => rfl
    | succ limit =>
      rw [List.length_cons] at hlimit
      rw [drainNext_succ]
      rw [hturn] at hrest
      exact ih hne.2 hrest (by omega) (entries ++ page)

/-- Fetching all pages of a connector. Say the pages are not empty up to one that is empty or an
error, as a session shows that makes the call for the first page and then as many calls for the next
one as there are pages that are not empty. Then fetching all pages makes exactly these calls, and
gives the entries of the pages, one page behind the other, or the error. A limit on the calls is too
low exactly when it is lower than the number of pages. -/
theorem drain_noting (srv : Server) (k : Connector σ) (pages : List (List Entry))
    (e? : Option FetchError) (hne : ∀ page ∈ pages, page ≠ [])
    (hpages : ((Session.start k).turns srv (drainCalls pages.length)).pages =
      pages.map .ok ++ [ending e?]) :
    let last := (Session.start k).turns srv (drainCalls pages.length)
    (∀ limit, pages.length ≤ limit →
      (k.drain srv.send limit).run [] = (some (last.connector, resultOf pages e?), last.sent) ∧
      (k.noting.drain srv.send limit).run [] =
        (some (k.noting.withState (last.connector.state, drainCalls pages.length),
          resultOf pages e?), last.sent)) ∧
    ∀ limit, limit < pages.length → ((k.drain srv.send limit).run []).1 = none := by
  have hid : (resultOf pages e?).map (([] : List Entry) ++ ·) = resultOf pages e? := by
    cases e? <;> rfl
  intro last
  refine ⟨fun limit hlimit => ⟨?_, ?_⟩, fun limit hlimit => ?_⟩
  · have hrun := run_drainCall_of_turns hne (s := .start k) hpages hlimit []
    rw [drain_eq_drainCall, ← hid]
    exact hrun
  · have hnoted := Session.turns_noting srv (.start k) [] (drainCalls pages.length)
    have hsame : (((Session.start k).noted []).turns srv (drainCalls pages.length)).pages =
        pages.map .ok ++ [ending e?] := by
      rw [hnoted]
      exact hpages
    have hrun := run_drainCall_of_turns hne (s := (Session.start k).noted []) hsame hlimit []
    have hconnector : last.connector.noting = k.noting.withState (last.connector.state, []) := by
      rw [Session.connector_turns srv (.start k) (drainCalls pages.length)]
      rfl
    have hlast : (last.noted (drainCalls pages.length)).connector =
        k.noting.withState (last.connector.state, drainCalls pages.length) := by
      rw [Session.noted, hconnector]
      rfl
    rw [hid, show (.first :: List.replicate pages.length Turn.next) = drainCalls pages.length from rfl,
      hnoted, List.nil_append] at hrun
    rw [drain_eq_drainCall, ← hlast]
    exact hrun
  · rw [drain_eq_drainCall]
    exact run_drainCall_low hne (s := .start k) hpages hlimit []

def ofPages (name : String) (pages : List Page) : Connector (List Page) :=
  ⟨name, pages, bring, bring⟩
where
  bring : List Page → Call (List Page)
    | [] => .done [] (.ok [])
    | page :: pages => .done pages page

/-- Behind an empty page there is a fourth one that is never fetched, and behind an error an empty
one. -/
theorem drain_noting_ofPages :
    let paper title := Entry.new ⟨"", "", title, "", ""⟩ []
    let three := ofPages "a" [.ok [paper "1"], .ok [paper "2", paper "3"], .ok [], .ok [paper "4"]]
    let broken := ofPages "a" [.ok [paper "1"], .error (.transport "a"), .ok []]
    (three.noting.drain (Server.send fun _ _ => .failed) 2).run [] =
      (some (three.noting.withState ([.ok [paper "4"]], [.first, .next, .next]),
        .ok [paper "1", paper "2", paper "3"]), []) ∧
    ((three.drain (Server.send fun _ _ => .failed) 1).run []).1 = none ∧
    (broken.noting.drain (Server.send fun _ _ => .failed) 1).run [] =
      (some (broken.noting.withState ([.ok []], [.first, .next]), .error (.transport "a")), []) := by
  intro paper three broken
  have hthree := drain_noting (fun _ _ => .failed) three [[paper "1"], [paper "2", paper "3"]] none
    (by decide) rfl
  have hbroken := drain_noting (fun _ _ => .failed) broken [[paper "1"]] (some (.transport "a"))
    (by decide) rfl
  exact ⟨(hthree.1 2 (Nat.le_refl _)).2, hthree.2 1 (by decide), (hbroken.1 1 (Nat.le_refl _)).2⟩

end Connector

end PaperTrail
