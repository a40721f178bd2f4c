import PaperTrail.Search.Ieee
import PaperTrail.Search.Scopus

/-!
# Registries of connectors

* `Registry σ` : the connectors that can be built, by their names; they share the states `σ`;
* `Registry.build` : the connector of a name for a configuration and a query;
* `Registry.default` : the registry of IEEE Xplore and Scopus.
-/

namespace PaperTrail

/-- Builds a connector for a configuration and a query. -/
abbrev Factory (σ : Type) := Config → String → Except FetchError (Connector σ)

/-- Connectors by their names. -/
structure Registry (σ : Type) where
  factories : Dictionary (Factory σ)

namespace Registry
variable {σ : Type}

def empty : Registry σ := ⟨Dictionary.empty⟩

def register (r : Registry σ) (name : String) (f : Factory σ) : Registry σ :=
  ⟨r.factories.insert name f⟩

def names (r : Registry σ) : List String := r.factories.keys

/-- Whether there is a connector of exactly this name. -/
def contains (r : Registry σ) (name : String) : Bool := r.factories.contains name

def build (r : Registry σ) (name : String) (cfg : Config) (query : String) :
    Except FetchError (Connector σ) :=
  match r.factories.get? name with
  | some f => f cfg query
  | none => .error (.config (.unknownVendor name))

end Registry

/-- A search of one of the supported services. -/
inductive Search where
  | ieee (search : Ieee)
  | scopus (search : Scopus)

namespace Search

def first : Search → Call Search
  | ieee c => (c.connector.first c).mapState ieee
  | scopus c => (c.connector.first c).mapState scopus

def next : Search → Call Search
  | ieee c => (c.connector.next c).mapState ieee
  | scopus c => (c.connector.next c).mapState scopus

def name : Search → String
  | ieee _ => Ieee.name
  | scopus _ => Scopus.name

def connector (s : Search) : Connector Search := ⟨s.name, s, first, next⟩

end Search

def Registry.default : Registry Search :=
  let r := empty.register Ieee.name fun cfg q =>
    (Ieee.ofConfig cfg q).map fun c => (Search.ieee c).connector
  r.register Scopus.name fun cfg q =>
    (Scopus.ofConfig cfg q).map fun c => (Search.scopus c).connector

end PaperTrail
