import PaperTrail.Proofs.Search.Session

/-!
# What fetching all pages brings

Fetching all pages of a connector has no bound of its own: it goes on for as long as pages come that
are not empty. `Connector.Brings` says without any bound which pages come and how they end. A limit
on the calls that is no lower than the number of pages leads to exactly that (`Brings.run_drain`),
and whatever the limit, there is no other result (`brings_of_run_drain`). `Settles` is what this
comes to for any computation with such a limit.
-/

namespace PaperTrail

/-- A computation with a limit ends with `a` and the requests `sent`, unless the limit is too low; and
it is not too low from some limit on. -/
structure Settles {α : Type} (run : Nat → Option α × List Request) (a : α) (sent : List Request) :
    Prop where
  enough : ∃ enough, ∀ limit, enough ≤ limit → run limit = (some a, sent)
  otherwise : ∀ limit, run limit = (some a, sent) ∨ (run limit).1 = none

theorem Settles.unique {α : Type} {run : Nat → Option α × List Request} {a b : α}
    {sent sent' : List Request} (h : Settles run a sent) (h' : Settles run b sent') :
    a = b ∧ sent = sent' := by
  obtain ⟨n, hn⟩ := h.enough
  obtain ⟨n', hn'⟩ := h'.enough
  have heq := (hn (max n n') (Nat.le_max_left _ _)).symm.trans (hn' _ (Nat.le_max_right _ _))
  simpa using heq

def andThen {α β : Type} (run : Nat → Option α × List Request)
    (next : α → List Request → Nat → Option β × List Request) (limit : Nat) :
    Option β × List Request :=
  match run limit with
  | (none, sent) => (none, sent)
  | (some a, sent) => next a sent limit

section
variable {α β : Type} {run : Nat → Option α × List Request}
  {next : α → List Request → Nat → Option β × List Request} {a : α} {b : β}
  {sent sent' : List Request}

theorem andThen_of_eq_some {limit : Nat} (h : run limit = (some a, sent)) :
    andThen run next limit = next a sent limit := by
  rw [andThen, h]

theorem andThen_of_eq_none {limit : Nat} (h : (run limit).1 = none) :
    (andThen run next limit).1 = none := by
  unfold andThen
  cases hrun : run limit with
  | mk a? sent =>
    rw [hrun] at h
    subst h
    rfl

theorem settles_const (a : α) (sent : List Request) : Settles (fun _ => (some a, sent)) a sent :=
  ⟨⟨0, fun _ _ => rfl⟩, fun _ => Or.inl rfl⟩

theorem Settles.map (h : Settles run a sent) (f : α → β) :
    Settles (fun limit => Prod.map (Option.map f) id (run limit)) (f a) sent := by
  obtain ⟨n, hn⟩ := h.enough
  refine ⟨⟨n, fun limit hlimit => ?_⟩, fun limit => ?_⟩
  · rw [hn limit hlimit]
    rfl
  · rcases h.otherwise limit with hsome | hnone
    · rw [hsome]
      exact Or.inl rfl
    · rw [Prod.map_fst, hnone]
      exact Or.inr rfl

theorem Settles.andThen (h : Settles run a sent) (hnext : Settles (next a sent) b sent') :
    Settles (andThen run next) b sent' := by
  obtain ⟨n, hn⟩ := h.enough
  obtain ⟨n', hn'⟩ := hnext.enough
  refine ⟨⟨max n n', fun limit hlimit => ?_⟩, fun limit => ?_⟩
  · rw [andThen_of_eq_some (hn limit (by omega)), hn' limit (by omega)]
  · rcases h.otherwise limit with hsome | hnone
    · rw [andThen_of_eq_some hsome]
      exact hnext.otherwise limit
    · exact Or.inr (andThen_of_eq_none hnone)

theorem Settles.andThen_eq_none (h : Settles run a sent)
    (hnext : ∀ limit, (next a sent limit).1 = none) (limit : Nat) :
    (PaperTrail.andThen run next limit).1 = none := by
  rcases h.otherwise limit with hsome | hnone
  · rw [andThen_of_eq_some hsome]
    exact hnext limit
  · exact andThen_of_eq_none hnone

end

namespace Connector
variable {σ : Type}

/-- From a call on, after the requests `sent`, the connector brings these pages, none of them empty,
and then an empty page, or the error that is given. -/
inductive Brings (srv : Server) (k : Connector σ) :
    Call σ → List Request → List (List Entry) → Option FetchError → List Request → Prop
  | empty {call : Call σ} {sent sent' : List Request} {st : σ}
      (h : (call.run srv.send).run sent = ((st, .ok []), sent')) : Brings srv k call sent [] none sent'
  | error {call : Call σ} {sent sent' : List Request} {st : σ} {e : FetchError}
      (h : (call.run srv.send).run sent = ((st, .error e), sent')) :
      Brings srv k call sent [] (some e) sent'
  | page {call : Call σ} {sent sent' sent'' : List Request} {st : σ} {page : List Entry}
      {pages : List (List Entry)} {e? : Option FetchError}
      (h : (call.run srv.send).run sent = ((st, .ok page), sent')) (hne : page ≠ [])
      (hrest : Brings srv k (k.next st) sent' pages e? sent'') :
      Brings srv k call sent (page :: pages) e? sent''

/-- What comes of pages that end with an empty page or with an error: an error leaves nothing of the
pages before it. -/
def resultOf (pages : List (List Entry)) : Option FetchError → Page
  | none => .ok pages.flatten
  | some e => .error e

theorem resultOf_cons (entries page : List Entry) (pages : List (List Entry))
    (e? : Option FetchError) :
    (resultOf (page :: pages) e?).map (entries ++ ·) =
      (resultOf pages e?).map (entries ++ page ++ ·) := by
  cases e? with
  | none => exact congrArg Except.ok (List.append_assoc ..).symm
  | some e => rfl

variable {srv : Server} {k : Connector σ} {call : Call σ} {sent sent' : List Request}
  {pages : List (List Entry)} {e? : Option FetchError}

theorem Brings.run_drainCall (h : k.Brings srv call sent pages e? sent') {limit : Nat}
    (hlimit : pages.length ≤ limit) (st : σ) (entries : List Entry) :
    ∃ last, ((k.withState st).drainCall srv.send limit entries call).run sent =
      (some (last, (resultOf pages e?).map (entries ++ ·)), sent') := by
  induction h generalizing limit st entries with
  | empty h =>
    rw [run_drainCall_nil h]
    exact ⟨_, by rw [resultOf, List.flatten_nil, Except.map, List.append_nil]⟩
  | error h =>
    rw [run_drainCall_error h]
    exact ⟨_, rfl⟩
  | @page call sent sent' sent'' st' page pages e? h hne hrest ih =>
    rw [List.length_cons] at hlimit
    obtain ⟨limit, rfl⟩ := Nat.exists_eq_succ_of_ne_zero (by omega : limit ≠ 0)
    rw [run_drainCall_of_ne_nil h hne, drainNext_succ, resultOf_cons]
    exact ih (by omega) st' (entries ++ page)

/-- A call fails, brings an empty page, or brings a page with entries. -/
theorem run_call_cases (srv : Server) (call : Call σ) (sent : List Request) :
    (∃ st e sent', (call.run srv.send).run sent = ((st, .error e), sent')) ∨
      (∃ st sent', (call.run srv.send).run sent = ((st, .ok []), sent')) ∨
      ∃ st page sent', (call.run srv.send).run sent = ((st, .ok page), sent') ∧ page ≠ [] := by
  obtain ⟨⟨st, page⟩, sent'⟩ := (call.run srv.send).run sent
  rcases page with e | _ | ⟨entry, rest⟩
  · exact Or.inl ⟨st, e, sent', rfl⟩
  · exact Or.inr (Or.inl ⟨st, sent', rfl⟩)
  · exact Or.inr (Or.inr ⟨st, entry :: rest, sent', rfl, List.cons_ne_nil _ _⟩)

theorem brings_of_run_drainCall {limit : Nat} {st : σ} {entries : List Entry}
    {last : Connector σ} {result : Page}
    (h : ((k.withState st).drainCall srv.send limit entries call).run sent =
      (some (last, result), sent')) :
    ∃ pages e?, k.Brings srv call sent pages e? sent' ∧
      result = (resultOf pages e?).map (entries ++ ·) := by
  induction limit using Nat.strongRecOn generalizing call sent st entries with
  | ind limit ih =>
    rcases run_call_cases srv call sent with ⟨st', e, mid, hrun⟩ | ⟨st', mid, hrun⟩ |
      ⟨st', page, mid, hrun, hne⟩
    · rw [run_drainCall_error hrun] at h
      obtain ⟨⟨-, rfl⟩, rfl⟩ := by simpa using h
      exact ⟨[], some e, .error hrun, rfl⟩
    · rw [run_drainCall_nil hrun] at h
      obtain ⟨⟨-, rfl⟩, rfl⟩ := by simpa using h
      exact ⟨[], none, .empty hrun, by rw [resultOf, List.flatten_nil, Except.map, List.append_nil]⟩
    · rw [run_drainCall_of_ne_nil hrun hne] at h
      cases limit with
      | zero => cases h
      | succ limit =>
        rw [drainNext_succ] at h
        obtain ⟨pages, e?, hrest, rfl⟩ := ih limit (Nat.lt_succ_self limit) h
        exact ⟨page :: pages, e?, .page hrun hne hrest, (resultOf_cons entries page pages e?).symm⟩

/-- With a limit that is high enough, fetching all pages gives what they bring. -/
theorem Brings.run_drain (h : k.Brings srv (k.call .first) sent pages e? sent') {limit : Nat}
    (hlimit : pages.length ≤ limit) :
    ∃ last, (k.drain srv.send limit).run sent = (some (last, resultOf pages e?), sent') := by
  obtain ⟨last, hrun⟩ := h.run_drainCall hlimit k.state []
  refine ⟨last, ?_⟩
  rw [drain_eq_drainCall]
  refine hrun.trans ?_
  cases e? <;> rfl

/-- Fetching all pages gives nothing but what they bring. -/
theorem brings_of_run_drain {limit : Nat} {last : Connector σ} {result : Page}
    (h : (k.drain srv.send limit).run sent = (some (last, result), sent')) :
    ∃ pages e?, k.Brings srv (k.call .first) sent pages e? sent' ∧ result = resultOf pages e? := by
  have hstart : ((k.withState k.state).drainCall srv.send limit [] (k.call .first)).run sent =
      (some (last, result), sent') := by
    rwa [drain_eq_drainCall] at h
  obtain ⟨pages, e?, hbrings, rfl⟩ := brings_of_run_drainCall hstart
  refine ⟨pages, e?, hbrings, ?_⟩
  cases e? <;> rfl

/-- What fetching all pages brings settles it. -/
theorem Brings.settles (h : k.Brings srv (k.call .first) sent pages e? sent') :
    Settles (fun limit => Prod.map (Option.map (·.2)) id ((k.drain srv.send limit).run sent))
      (resultOf pages e?) sent' := by
  refine ⟨⟨pages.length, fun limit hlimit => ?_⟩, fun limit => ?_⟩
  · obtain ⟨last, hrun⟩ := h.run_drain hlimit
    simp only [hrun, Prod.map_apply, Option.map_some, id_eq]
  · cases hdrain : (k.drain srv.send limit).run sent with
    | mk last? sent'' =>
      cases last? with
      | none => exact Or.inr rfl
      | some pair =>
        obtain ⟨last, result⟩ := pair
        obtain ⟨pages', e?', hbrings, rfl⟩ := brings_of_run_drain hdrain
        -- both are what a limit that is high enough for both gives
        obtain ⟨_, hrun⟩ := h.run_drain (Nat.le_max_left pages.length pages'.length)
        obtain ⟨_, hrun'⟩ := hbrings.run_drain (Nat.le_max_right pages.length pages'.length)
        have heq := hrun.symm.trans hrun'
        rw [Prod.mk.injEq, Option.some_inj, Prod.mk.injEq] at heq
        rw [heq.1.2, heq.2]
        exact Or.inl rfl

end Connector

end PaperTrail
