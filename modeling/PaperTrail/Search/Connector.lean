import PaperTrail.Config.Basic
import PaperTrail.Http.Request
import PaperTrail.Http.Status
import PaperTrail.Paper.Basic

/-!
# Connectors

A connector pages through the results of a search. Each of its two calls sends at most one request.

* `FetchError` : why a page could not be fetched;
* `Call` : a call of a connector: its result, or the request that it sends and what it makes of the
  reply, each with the state of the connector afterwards;
* `Connector` : a name, a state, and the two calls: for the first page and for the next one. An
  empty page says that there are no more results;
* `Connector.drain` : all pages up to the first empty one, or the first error.

Calls are carried out by a function `send` in any monad, so that a server can be anything from a
list of replies to a network.
-/

namespace PaperTrail

/-- Why a page could not be fetched. -/
inductive FetchError where
  | config (error : ConfigError)
  | transport (vendor : String)
  | status (vendor : String) (code : Nat) (body : String)
  | decode (vendor : String)
  | url (vendor reason : String)
deriving DecidableEq, Repr

def FetchError.message : FetchError → String
  | config e => e.message
  | transport vendor => s!"request to {vendor} failed"
  | status vendor code body => s!"{vendor} error {Http.statusText code}: {body}"
  | decode vendor => s!"invalid {vendor} response"
  | url vendor reason => s!"invalid {vendor} URL: {reason}"

/-- One page of results, or why there is none. -/
abbrev Page := Except FetchError (List Entry)

/-- A call of a connector with states `σ`. -/
inductive Call (σ : Type) where
  | done (state : σ) (page : Page)
  | ask (request : Request) (receive : Exchange → σ × Page)

namespace Call
variable {σ τ : Type} {m : Type → Type} [Monad m]

def run (send : Request → m Exchange) : Call σ → m (σ × Page)
  | done s p => pure (s, p)
  | ask r receive => return receive (← send r)

/-- The call of a connector that is part of another one. -/
def mapState (f : σ → τ) : Call σ → Call τ
  | done s p => done (f s) p
  | ask r receive => ask r fun e => ((receive e).1 |> f, (receive e).2)

end Call

/-- A connector with states `σ`. -/
structure Connector (σ : Type) where
  name : String
  state : σ
  /-- Starts the search from the beginning. -/
  first : σ → Call σ
  /-- Goes on with the search. -/
  next : σ → Call σ

/-- The text of a successful reply. -/
def replyText (vendor : String) : Exchange → Except FetchError String
  | .failed => .error (.transport vendor)
  | .reply status body? =>
    if Http.isSuccess status then
      match body? with
      | some s => .ok (bodyText s)
      | none => .error (.transport vendor)
    else .error (.status vendor status (bodyText (body?.getD "")))

namespace Connector
variable {σ : Type} {m : Type → Type} [Monad m]

def withState (c : Connector σ) (s : σ) : Connector σ := { c with state := s }

def fetchFirst (send : Request → m Exchange) (c : Connector σ) : m (Connector σ × Page) := do
  let (s, p) ← (c.first c.state).run send
  return (c.withState s, p)

def fetchNext (send : Request → m Exchange) (c : Connector σ) : m (Connector σ × Page) := do
  let (s, p) ← (c.next c.state).run send
  return (c.withState s, p)

/-- Fetches pages up to the first empty one, behind the entries so far; none when the given number
of calls is not enough. -/
def drainNext (send : Request → m Exchange) :
    Nat → List Entry → Connector σ → m (Option (Connector σ × Page))
  | 0, _, _ => return none
  | n + 1, entries, c => do
    match ← c.fetchNext send with
    | (c, .error e) => return some (c, .error e)
    | (c, .ok page) =>
      if page.isEmpty then return some (c, .ok entries)
      else drainNext send n (entries ++ page) c

/-- The entries of all pages up to the first empty one, or the first error; none when the given
number of further pages is not enough. -/
def drain (send : Request → m Exchange) (limit : Nat) (c : Connector σ) :
    m (Option (Connector σ × Page)) := do
  match ← c.fetchFirst send with
  | (c, .error e) => return some (c, .error e)
  | (c, .ok page) => if page.isEmpty then return some (c, .ok []) else drainNext send limit page c

end Connector

end PaperTrail
