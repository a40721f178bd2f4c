import PaperTrail.Http.Request
import PaperTrail.Proofs.Url.Form

/-!
# What a request asks for

* `Request.parameters?` : the pairs in the query of a request, as a server reads them;
* `withoutUser_get` : a request for a URL goes to this URL, its user name and password apart;
* `parameters?_withQuery` : pairs that are put into a query are read from it.
-/

namespace PaperTrail

@[simp] theorem Url.withoutUser_withoutUser (u : Url) : u.withoutUser.withoutUser = u.withoutUser := by
  simp only [Url.withoutUser, Option.map_map]
  rfl

namespace Request

/-- The pairs in the query of a request. -/
def parameters? (r : Request) : Option (List (String × String)) :=
  r.url.query?.bind Form.decodePairs?

theorem get_cases {u : Url} {r : Request} (h : get u = some r) :
    r.url = u ∨ r.url = u.withoutUser := by
  rw [get] at h
  split at h
  · cases h
  · split at h
    · obtain rfl := Option.some.inj h
      exact Or.inl rfl
    · obtain rfl := Option.some.inj h
      exact Or.inr rfl

theorem withoutUser_get {u : Url} {r : Request} (h : get u = some r) :
    r.url.withoutUser = u.withoutUser := by
  rcases get_cases h with h | h <;> simp only [h, Url.withoutUser_withoutUser]

theorem query?_get {u : Url} {r : Request} (h : get u = some r) : r.url.query? = u.query? := by
  rcases get_cases h with h | h <;> rw [h]
  rfl

theorem exists_get {u : Url} (h : u.hasHost = true) : ∃ r, get u = some r := by
  rw [get, if_neg (not_not_intro h)]
  split <;> exact ⟨_, rfl⟩

theorem exists_withHeader (r : Request) (name : String) {value : String}
    (h : isHeaderValue value = true) : ∃ r', r.withHeader name value = some r' :=
  ⟨_, if_pos h⟩

theorem url_withHeader {r r' : Request} {name value : String} (h : r.withHeader name value = some r') :
    r'.url = r.url := by
  rw [withHeader] at h
  split at h
  · obtain rfl := Option.some.inj h
    rfl
  · cases h

theorem parameters?_withQuery {r : Request} (h : r.url.query? = none)
    (pairs : List (String × String)) : (r.withQuery pairs).parameters? = some pairs := by
  simp only [parameters?, withQuery, h, Option.bind_some, Form.decodePairs?_encodePairs]

end Request

end PaperTrail
