import PaperTrail.Proofs.Config.Overrides
import PaperTrail.Proofs.Http.Request
import PaperTrail.Proofs.Search.Chain
import PaperTrail.Proofs.Search.Paging
import PaperTrail.Proofs.Text.Split
import PaperTrail.Proofs.Url.Web

/-!
# Where a search is sent to

A search goes to the server of its base URL, and the path of searches takes the place of what follows
the last slash of the base path.

* `Url.server` : scheme, host and port of a URL;
* `Request.LeadsTo` : a request goes to a server and a path of it;
* `Ieee.leadsTo_request`, `Scopus.leadsTo_firstRequest` : where the first requests lead;
* `dropTrailing_eq_iff` : of which paths the part before the last slash is the path without slashes at
  its end;
* `Search.first_request_of_base` : the first request of a search with a configured base URL; what is
  documented for it holds for base paths with exactly one slash at the end, and for no others.
-/

namespace PaperTrail

/-! ## Paths -/

/-- What comes before the last slash of a path is the path without the slashes at its end exactly when
the path ends in one slash. -/
theorem dropTrailing_eq_iff {directory last : String} (h : '/' ∉ last.toList) :
    Text.dropTrailing '/' (directory ++ "/" ++ last) = directory ↔
      directory ++ "/" ++ last = Text.dropTrailing '/' (directory ++ "/" ++ last) ++ "/" := by
  by_cases hlast : last = ""
  · subst hlast
    rw [String.append_empty, String.append_left_inj, eq_comm]
  · have hself : Text.dropTrailing '/' (directory ++ "/" ++ last) = directory ++ "/" ++ last := by
      refine Text.dropTrailing_eq_self fun x hx => ?_
      rintro rfl
      have hne : last.toList ≠ [] := fun hnil => hlast (String.toList_inj.1 hnil)
      rw [String.toList_append, List.getLast?_append_of_ne_nil _ hne] at hx
      exact h (List.mem_of_mem_getLast? hx)
    have hlonger : ∀ s t : String, t ≠ "" → s ++ t ≠ s := by
      intro s t ht heq
      exact ht ((String.append_right_inj s).1 (heq.trans String.append_empty.symm))
    rw [hself, String.append_assoc]
    refine iff_of_false (hlonger _ _ fun hnil => ?_) (hlonger _ "/" (by decide)).symm
    simpa using congrArg String.toList hnil

namespace UrlPath

theorem text_segments_append (a b : List String) :
    (segments (a ++ b)).text = (segments a).text ++ (segments b).text := by
  simp [text]

theorem text_segments_singleton (s : String) : (segments [s]).text = "/" ++ s := by
  simp [text]

end UrlPath

/-! ## Requests -/

def Url.server (u : Url) : String × Option (String × Option Nat) :=
  (u.scheme, u.authority?.map fun a => (a.host, a.port?))

theorem Url.server_withoutUser (u : Url) : u.withoutUser.server = u.server := by
  rw [server, withoutUser, Option.map_map]
  rfl

namespace Request

/-- The request goes to the path on the server. -/
def LeadsTo (r : Request) (u : Url) (path : List String) : Prop :=
  r.url.server = u.server ∧ r.url.path = .segments path

theorem leadsTo_get {u : Url} {r : Request} (h : get u = some r) {path : List String}
    (hpath : u.path = .segments path) : r.LeadsTo u path := by
  rcases get_cases h with h | h
  · rw [LeadsTo, h]
    exact ⟨rfl, hpath⟩
  · rw [LeadsTo, h]
    exact ⟨u.server_withoutUser, hpath⟩

theorem LeadsTo.withHeader {r r' : Request} {u : Url} {path : List String} {name value : String}
    (h : r.LeadsTo u path) (hr : r.withHeader name value = some r') : r'.LeadsTo u path := by
  rwa [LeadsTo, url_withHeader hr]

theorem LeadsTo.withQuery {r : Request} {u : Url} {path : List String} (h : r.LeadsTo u path)
    (pairs : List (String × String)) : (r.withQuery pairs).LeadsTo u path := h

end Request

theorem Request.LeadsTo.of_server {r : Request} {u v : Url} {path : List String}
    (h : r.LeadsTo u path) (hserver : u.server = v.server) : r.LeadsTo v path :=
  ⟨h.1.trans hserver, h.2⟩

theorem Url.resolve_segments {u : Url} {ss : List String} (h : u.path = .segments ss)
    (relative : List String) : ∃ url, u.resolve relative = .ok url ∧ url.server = u.server ∧
      url.hasHost = u.hasHost ∧ url.path = .segments (ss.dropLast ++ relative) := by
  rw [resolve, h]
  exact ⟨_, rfl, rfl, rfl, rfl⟩

theorem Ieee.leadsTo_request {c : Ieee} {start : Nat} {r : Request} {ss : List String}
    (hpath : c.baseUrl.path = .segments ss) (h : c.request start = .ok r) :
    r.LeadsTo c.baseUrl (ss.dropLast ++ searchPath) := by
  obtain ⟨url, hresolve, hserver, -, hurl⟩ := Url.resolve_segments hpath searchPath
  simp only [request, hresolve] at h
  split at h
  · cases h
  · next r' hr =>
    obtain rfl := Except.ok.inj h
    obtain ⟨plain, hplain, hr⟩ := Option.bind_eq_some_iff.1 hr
    exact (((Request.leadsTo_get hplain hurl).withHeader hr).withQuery _).of_server hserver

namespace Scopus
variable {c : Scopus} {url : Url}

theorem leadsTo_authorized {r : Request} {path : List String} (hpath : url.path = .segments path)
    (h : c.authorized url = .ok r) : r.LeadsTo url path := by
  simp only [authorized] at h
  split at h
  · next r' hr =>
    obtain rfl := Except.ok.inj h
    simp only [bind, Option.bind_eq_some_iff] at hr
    obtain ⟨plain, hplain, accepting, haccepting, keyed, hkeyed, hlast⟩ := hr
    have hleads := ((Request.leadsTo_get hplain hpath).withHeader haccepting).withHeader hkeyed
    split at hlast
    · exact hleads.withHeader hlast
    · rwa [← Option.some.inj hlast]
  · cases h

theorem leadsTo_firstRequest {r : Request} {ss : List String}
    (hpath : c.baseUrl.path = .segments ss) (h : c.firstRequest = .ok r) :
    r.LeadsTo c.baseUrl (ss.dropLast ++ searchPath) := by
  obtain ⟨url, hresolve, hserver, -, hurl⟩ := Url.resolve_segments hpath searchPath
  simp only [firstRequest, hresolve] at h
  cases hr : c.authorized url with
  | error e => rw [hr] at h; cases h
  | ok r' =>
    rw [hr] at h
    obtain rfl := Except.ok.inj h
    exact ((leadsTo_authorized hurl hr).withQuery _).of_server hserver

end Scopus

/-! ## Searches -/

namespace Search

def baseUrl : Search → Url
  | ieee c => c.baseUrl
  | scopus c => c.baseUrl

def searchPath : Search → List String
  | ieee _ => Ieee.searchPath
  | scopus _ => Scopus.searchPath

def firstRequest : Search → Except FetchError Request
  | ieee c => c.request 1
  | scopus c => c.firstRequest

theorem call_first_of_ok {s : Search} {r : Request} (h : s.firstRequest = .ok r) :
    ∃ receive, s.connector.call .first = .ask r receive := by
  cases s with
  | ieee c =>
    rw [call_first_ieee, Ieee.fetch_of_ok (c := c.withNext (some 1)) rfl h]
    exact ⟨_, rfl⟩
  | scopus c =>
    rw [call_first_scopus, Scopus.fetchFirst_eq, show c.firstRequest = .ok r from h]
    exact ⟨_, rfl⟩

theorem firstRequest_of_ask {s : Search} {r : Request} {receive : Exchange → Search × Page}
    (h : s.connector.call .first = .ask r receive) : s.firstRequest = .ok r := by
  cases hr : s.firstRequest with
  | ok r' =>
    obtain ⟨receive', hask⟩ := call_first_of_ok hr
    rw [hask] at h
    rw [(Call.ask.inj h).1]
  | error e =>
    cases s with
    | ieee c =>
      rw [call_first_ieee, Ieee.fetch_of_error (c := c.withNext (some 1)) rfl hr] at h
      cases h
    | scopus c =>
      rw [call_first_scopus, Scopus.fetchFirst_eq, show c.firstRequest = .error e from hr] at h
      cases h

theorem leadsTo_firstRequest {s : Search} {r : Request} {ss : List String}
    (hpath : s.baseUrl.path = .segments ss) (h : s.firstRequest = .ok r) :
    r.LeadsTo s.baseUrl (ss.dropLast ++ s.searchPath) := by
  cases s with
  | ieee c => exact Ieee.leadsTo_request hpath h
  | scopus c => exact Scopus.leadsTo_firstRequest hpath h

/-! ## Configured searches -/

theorem ieee_ofConfig {cfg : Config} {query base : String} {c : Ieee} {u : Url}
    (h : Ieee.ofConfig cfg query = .ok c) (hbase : cfg.vendorParam Ieee.name "base_url" = some base)
    (hu : Url.parse base = .ok u) : c.baseUrl = u := by
  simp only [Ieee.ofConfig, hbase, hu] at h
  split at h
  · cases h
  · simp only [Ieee.configured] at h
    split at h
    · obtain rfl := Except.ok.inj h
      rfl
    · split at h
      · obtain rfl := Except.ok.inj h
        rfl
      · cases h

theorem scopus_ofConfig {cfg : Config} {query base : String} {c : Scopus} {u : Url}
    (h : Scopus.ofConfig cfg query = .ok c)
    (hbase : cfg.vendorParam Scopus.name "base_url" = some base) (hu : Url.parse base = .ok u) :
    c.baseUrl = u ∧ cfg.vendorParam Scopus.name "token" = some c.token ∧
      cfg.vendorParam Scopus.name "institutional_token" = c.institutionalToken? := by
  simp only [Scopus.ofConfig, hbase, hu, Config.requireVendorParam] at h
  cases htoken : cfg.vendorParam Scopus.name "token" with
  | none => rw [htoken] at h; cases h
  | some token =>
    rw [htoken] at h
    obtain rfl := Except.ok.inj h
    exact ⟨rfl, rfl, rfl⟩

/-- The search that the registry builds with a configured base URL. -/
theorem exists_search_of_build {name query base : String} {cfg : Config} {k : Connector Search}
    {u : Url} (h : Registry.default.build name cfg query = .ok k)
    (hbase : cfg.vendorParam name "base_url" = some base) (hu : Url.parse base = .ok u) :
    ∃ s : Search, k = s.connector ∧ s.name = name ∧ s.baseUrl = u ∧ ∀ c, s = scopus c →
      cfg.vendorParam Scopus.name "token" = some c.token ∧
        cfg.vendorParam Scopus.name "institutional_token" = c.institutionalToken? := by
  rcases build_eq_ok h with ⟨c, rfl, hc, rfl⟩ | ⟨c, rfl, hc, rfl⟩
  · obtain ⟨hurl, htokens⟩ := scopus_ofConfig hc hbase hu
    refine ⟨scopus c, rfl, rfl, hurl, ?_⟩
    rintro c' ⟨⟩
    exact htokens
  · refine ⟨ieee c, rfl, rfl, ieee_ofConfig hc hbase hu, ?_⟩
    rintro c' ⟨⟩

theorem exists_firstRequest {s : Search} {ss : List String} (hhost : s.baseUrl.hasHost = true)
    (hpath : s.baseUrl.path = .segments ss)
    (htokens : ∀ c, s = scopus c → Request.isHeaderValue c.token = true ∧
      ∀ t, c.institutionalToken? = some t → Request.isHeaderValue t = true) :
    ∃ r, s.firstRequest = .ok r := by
  cases s with
  | ieee c =>
    obtain ⟨r, hr, -⟩ := Ieee.exists_request ⟨hhost, ss, hpath⟩ 1
    exact ⟨r, hr⟩
  | scopus c =>
    obtain ⟨url, hresolve, -, hhost', -⟩ := Url.resolve_segments hpath Scopus.searchPath
    obtain ⟨htoken, hinst⟩ := htokens c rfl
    obtain ⟨r, hr⟩ := Scopus.exists_authorized (hhost'.trans hhost) htoken hinst
    refine ⟨r.withQuery c.pairs, ?_⟩
    simp only [firstRequest, Scopus.firstRequest, show c.baseUrl.resolve Scopus.searchPath = _ from
      hresolve, hr]
    rfl

/-- The path of searches of each service, as it is documented to stand behind the base URL. -/
def endpoints : List (String × String) :=
  [("ieee", "/api/v1/search/articles"), ("scopus", "/content/search/scopus")]

theorem mem_endpoints (s : Search) : (s.name, (UrlPath.segments s.searchPath).text) ∈ endpoints := by
  cases s with
  | ieee c => exact List.mem_cons_self
  | scopus c => exact List.mem_cons_of_mem _ List.mem_cons_self

/-- Where the first request of a search goes whose base URL is configured, with any path. It goes to
the server of the base URL, and its path is what the base path has before its last slash with the path
of searches behind it: a last segment of the base path is dropped. So the path is that of the base URL
without slashes at its end and with the path of searches behind it exactly when the base path ends in
one slash. There is such a request, unless a token for Scopus cannot stand in a header. -/
theorem first_request_of_base {name query base : String} {cfg : Config} {k : Connector Search}
    {u : Url} (hk : Registry.default.build name cfg query = .ok k)
    (hbase : cfg.vendorParam name "base_url" = some base) (hu : Url.parse base = .ok u)
    (hweb : u.scheme = "http" ∨ u.scheme = "https") :
    ∃ endpoint, (name, endpoint) ∈ endpoints ∧
      (∀ r receive, k.call .first = .ask r receive →
        r.url.server = u.server ∧
        (∃ directory, u.path.text = directory ++ "/" ++ Text.afterLast '/' u.path.text ∧
          r.url.path.text = directory ++ endpoint) ∧
        (r.url.path.text = Text.dropTrailing '/' u.path.text ++ endpoint ↔
          u.path.text = Text.dropTrailing '/' u.path.text ++ "/")) ∧
      ((name = Scopus.name → ∀ key ∈ ["token", "institutional_token"], ∀ t,
          cfg.vendorParam name key = some t → Request.isHeaderValue t = true) →
        ∃ r receive, k.call .first = .ask r receive) := by
  obtain ⟨s, rfl, rfl, rfl, htokens⟩ := exists_search_of_build hk hbase hu
  obtain ⟨hhost, ss, hpath, hne, hclean⟩ := Url.parse_web hu hweb
  obtain ⟨init, last, rfl⟩ : ∃ init last, ss = init ++ [last] :=
    ⟨_, _, (List.dropLast_append_getLast hne).symm⟩
  have hlast : '/' ∉ last.toList := hclean last (by simp)
  have htext : s.baseUrl.path.text = (UrlPath.segments init).text ++ "/" ++ last := by
    rw [hpath, UrlPath.text_segments_append, UrlPath.text_segments_singleton, String.append_assoc]
  refine ⟨_, s.mem_endpoints, fun r receive hask => ?_, fun hheaders => ?_⟩
  · obtain ⟨hserver, hurl⟩ := leadsTo_firstRequest hpath (firstRequest_of_ask hask)
    rw [List.dropLast_concat] at hurl
    refine ⟨hserver, ⟨(UrlPath.segments init).text, ?_, ?_⟩, ?_⟩
    · rw [htext]
      exact congrArg _ (Text.afterLast_append hlast _).symm
    · rw [hurl, UrlPath.text_segments_append]
    · rw [hurl, UrlPath.text_segments_append, String.append_left_inj, htext, eq_comm]
      exact dropTrailing_eq_iff hlast
  · have hvalues : ∀ c, s = scopus c → Request.isHeaderValue c.token = true ∧
        ∀ t, c.institutionalToken? = some t → Request.isHeaderValue t = true := by
      rintro c rfl
      obtain ⟨htoken, hinst⟩ := htokens c rfl
      exact ⟨hheaders rfl "token" (by simp) _ htoken, fun t ht =>
        hheaders rfl "institutional_token" (by simp) t (hinst.trans ht)⟩
    obtain ⟨r, hr⟩ := exists_firstRequest hhost hpath hvalues
    exact ⟨r, call_first_of_ok hr⟩

def withBase (name base : String) : Config :=
  (Config.default.setParam name "token" "key").setParam name "base_url" base

def proxyUrl : Url :=
  ⟨"https", some ⟨"", none, "h.org", some 8443⟩, .segments ["proxy", "v2", ""], none, none⟩

theorem first_request_of_base_slash :
    let base := "https://h.org:8443/proxy/v2/"
    let cfg := withBase "scopus" base
    ∃ k, Registry.default.build "scopus" cfg "q" = .ok k ∧
      cfg.vendorParam "scopus" "base_url" = some base ∧ Url.parse base = .ok proxyUrl ∧
      (proxyUrl.scheme = "http" ∨ proxyUrl.scheme = "https") ∧
      (∀ key ∈ ["token", "institutional_token"], ∀ t, cfg.vendorParam "scopus" key = some t →
        Request.isHeaderValue t = true) ∧
      ∃ r receive, k.call .first = .ask r receive ∧
        r.url.server = ("https", some ("h.org", some 8443)) ∧
        r.url.path.text = "/proxy/v2/content/search/scopus" := by
  intro base cfg
  have hc : Scopus.ofConfig cfg "q" = .ok (Scopus.new proxyUrl "key" "q") := by decide +kernel
  have hk : Registry.default.build "scopus" cfg "q" =
      .ok (scopus (Scopus.new proxyUrl "key" "q")).connector := by
    rw [build_default, if_pos (show "scopus" = Scopus.name from rfl), hc]
    rfl
  have hbase : cfg.vendorParam "scopus" "base_url" = some base := by decide +kernel
  have hu : Url.parse base = .ok proxyUrl := by decide +kernel
  have hweb : proxyUrl.scheme = "http" ∨ proxyUrl.scheme = "https" := Or.inr rfl
  have hheaders : ∀ key ∈ ["token", "institutional_token"], ∀ t,
      cfg.vendorParam "scopus" key = some t → Request.isHeaderValue t = true := by
    have htoken : cfg.vendorParam "scopus" "token" = some "key" := by decide +kernel
    have hinst : cfg.vendorParam "scopus" "institutional_token" = none := by decide +kernel
    simp only [List.forall_mem_cons, htoken, hinst, Option.some.injEq]
    refine ⟨?_, nofun, nofun⟩
    rintro t rfl
    decide
  obtain ⟨endpoint, hmem, hfirst, hexists⟩ := first_request_of_base hk hbase hu hweb
  have hendpoint : endpoint = "/content/search/scopus" := by simpa [endpoints] using hmem
  obtain ⟨r, receive, hask⟩ := hexists fun _ => hheaders
  obtain ⟨hserver, -, hpath⟩ := hfirst r receive hask
  have hone : proxyUrl.path.text = Text.dropTrailing '/' proxyUrl.path.text ++ "/" := by
    decide +kernel
  refine ⟨_, hk, hbase, hu, hweb, hheaders, r, receive, hask, hserver, ?_⟩
  rw [hpath.2 hone, hendpoint]
  decide +kernel

/-- The last segment of a base path without a slash at its end is not in the request. -/
theorem not_below_base : ¬ ∀ (name query base endpoint : String) (cfg : Config)
    (k : Connector Search) (u : Url) (r : Request) (receive : Exchange → Search × Page),
    (name, endpoint) ∈ endpoints → Registry.default.build name cfg query = .ok k →
    cfg.vendorParam name "base_url" = some base → Url.parse base = .ok u →
    u.scheme = "http" ∨ u.scheme = "https" → u.query? = none → u.fragment? = none →
    k.call .first = .ask r receive →
      r.url.server = u.server ∧
        r.url.path.text = Text.dropTrailing '/' u.path.text ++ endpoint := by
  intro h
  let base := "http://h.org/proxy"
  let u : Url := ⟨"http", some ⟨"", none, "h.org", none⟩, .segments ["proxy"], none, none⟩
  let c := Ieee.new u "key" "q"
  let r : Request :=
    ⟨⟨"http", some ⟨"", none, "h.org", none⟩, .segments ["api", "v1", "search", "articles"],
      some "apikey=key&querytext=q&start_record=1&max_records=200", none⟩,
      [("accept", "application/json")]⟩
  have hc : Ieee.ofConfig (withBase "ieee" base) "q" = .ok c := by decide +kernel
  have hk : Registry.default.build "ieee" (withBase "ieee" base) "q" = .ok (ieee c).connector := by
    rw [build_default, if_neg (by decide), if_pos (show "ieee" = Ieee.name from rfl), hc]
    rfl
  obtain ⟨receive, hask⟩ := call_first_of_ok (s := ieee c) (r := r) (by decide +kernel)
  have hpath := (h "ieee" "q" base "/api/v1/search/articles" _ _ u r receive List.mem_cons_self hk
    (by decide +kernel) (by decide +kernel) (Or.inl rfl) rfl rfl hask).2
  exact absurd hpath (by decide +kernel)

end Search

end PaperTrail
