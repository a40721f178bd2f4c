import PaperTrail.Query.Vendor
import PaperTrail.Search.Registry
import PaperTrail.Store.Basic

/-!
# Loading

A load runs one query at several vendors in turn and puts what they find into a store.

* `compileFor` : the text of a query in the search syntax of a vendor;
* `fetchAll` : all that a vendor finds;
* `loadVendor`, `load` : what one vendor, or several, add to a store. A load ends with the first
  vendor that fails, of which nothing is stored.

Connectors are asked for at most `limit` further pages; there is no result when that is not enough.
-/

namespace PaperTrail

/-- Why a load fails, and at which vendor. -/
inductive LoadError where
  /-- There is no search syntax for it. -/
  | unknownVendor (vendor : String)
  | connector (vendor : String) (error : FetchError)
  | fetch (vendor : String) (error : FetchError)
  | store (vendor : String) (error : InvalidOrigin)
deriving DecidableEq, Repr

namespace LoadError

def message : LoadError → String
  | unknownVendor vendor => Vendor.unknownMessage vendor
  | connector vendor _ => s!"failed to set up {vendor} connector"
  | fetch vendor _ => s!"failed to fetch results from {vendor}"
  | store vendor _ => s!"failed to store results from {vendor}"

def cause? : LoadError → Option String
  | unknownVendor _ => none
  | connector _ e => some e.message
  | fetch _ e => some e.message
  | store _ e => some e.message

end LoadError

def compileFor (q : Query) (vendor : String) : Except LoadError String :=
  match Vendor.ofName? vendor with
  | some v => .ok (v.grammar.compile q)
  | none => .error (.unknownVendor vendor)

def connectorFor {σ : Type} (r : Registry σ) (c : Config) (q : Query) (vendor : String) :
    Except LoadError (Connector σ) :=
  match compileFor q vendor with
  | .error e => .error e
  | .ok text => (r.build vendor c text).mapError (.connector vendor)

section
variable {σ : Type} {m : Type → Type} [Monad m]

def fetchAll (send : Request → m Exchange) (limit : Nat) (r : Registry σ) (c : Config) (q : Query)
    (vendor : String) : m (Option (Except LoadError (List Entry))) := do
  match connectorFor r c q vendor with
  | .error e => return some (.error e)
  | .ok k =>
    match ← k.drain send limit with
    | none => return none
    | some (_, page) => return some (page.mapError (.fetch vendor))

/-- Puts all that a vendor finds into a store. -/
def loadVendor (send : Request → m Exchange) (limit : Nat) (r : Registry σ) (c : Config)
    (q : Query) (vendor : String) (s : Store) : m (Option (Store × Except LoadError Report)) := do
  match ← fetchAll send limit r c q vendor with
  | none => return none
  | some (.error e) => return some (s, .error e)
  | some (.ok entries) =>
    let (s, report) := s.insert entries
    return some (s, report.mapError (.store vendor))

/-- Puts all that several vendors find into a store, one vendor after the other, and adds up what
was done. -/
def load (send : Request → m Exchange) (limit : Nat) (r : Registry σ) (c : Config) (q : Query) :
    List String → Store → m (Option (Store × Except LoadError Report))
  | [], s => return some (s, .ok Report.empty)
  | vendor :: vendors, s => do
    match ← loadVendor send limit r c q vendor s with
    | none => return none
    | some (s, .error e) => return some (s, .error e)
    | some (s, .ok report) =>
      match ← load send limit r c q vendors s with
      | none => return none
      | some (s, rest) => return some (s, rest.map (report + ·))

end

end PaperTrail
