import PaperTrail.Load
import PaperTrail.Proofs.Search.Drain
import PaperTrail.Proofs.Store.AllOrNothing
import PaperTrail.Proofs.Store.Batches

/-!
# How far a load gets

A load goes through its vendors in order and ends with the first one that fails. What every vendor
before it found is in the store, one batch for each; of the one that fails there is nothing, and
the ones behind it are not asked.

* `Fetched` : what asking one vendor comes to, when it comes to an end;
* `GoesIn`, `Fails` : the vendor goes into the store, or the load ends with it;
* `Stored` : vendors that go in one after the other, each with its batch and its report;
* `run_load_cons` : one step of a load, from which `GoesIn.settles` and `Fails.settles` say what a
  vendor does to a load, and `Stored.settles` what a run of vendors does;
* `Stored.insert_flatten` : vendors that go in do what one insertion of all their entries does;
* `load_stops_at_first_failure` : the whole of it.
-/

namespace PaperTrail.Load
variable {σ : Type} (srv : Server) (r : Registry σ) (c : Config) (q : Query)

/-- What asking a vendor comes to, after the requests `sent`: all that it finds, or why it fails. Of a
vendor that fails on the way, the pages before do not count. -/
inductive Fetched (vendor : String) (sent : List Request) :
    Except LoadError (List Entry) → List Request → Prop
  | unknown (hname : Vendor.ofName? vendor = none) :
      Fetched vendor sent (.error (.unknownVendor vendor)) sent
  | unbuilt {v : Vendor} {e : FetchError} (hname : Vendor.ofName? vendor = some v)
      (hbuild : r.build vendor c (v.grammar.compile q) = .error e) :
      Fetched vendor sent (.error (.connector vendor e)) sent
  | broken {v : Vendor} {k : Connector σ} {pages : List (List Entry)} {e : FetchError}
      {sent' : List Request} (hname : Vendor.ofName? vendor = some v)
      (hbuild : r.build vendor c (v.grammar.compile q) = .ok k)
      (hbrings : k.Brings srv (k.call .first) sent pages (some e) sent') :
      Fetched vendor sent (.error (.fetch vendor e)) sent'
  | complete {v : Vendor} {k : Connector σ} {pages : List (List Entry)}
      {sent' : List Request} (hname : Vendor.ofName? vendor = some v)
      (hbuild : r.build vendor c (v.grammar.compile q) = .ok k)
      (hbrings : k.Brings srv (k.call .first) sent pages none sent') :
      Fetched vendor sent (.ok pages.flatten) sent'

/-- A vendor goes in: it finds `batch`, and the store takes it. -/
structure GoesIn (vendor : String) (s : Store) (sent : List Request) (batch : List Entry)
    (report : Report) (sent' : List Request) : Prop where
  fetched : Fetched srv r c q vendor sent (.ok batch) sent'
  inserted : (s.insert batch).2 = .ok report

/-- A vendor fails: it cannot be asked to the end, or the store refuses what it finds. -/
inductive Fails (vendor : String) (s : Store) (sent : List Request) :
    LoadError → List Request → Prop
  | fetch {e : LoadError} {sent' : List Request}
      (h : Fetched srv r c q vendor sent (.error e) sent') : Fails vendor s sent e sent'
  | store {batch : List Entry} {e : InvalidOrigin} {sent' : List Request}
      (h : Fetched srv r c q vendor sent (.ok batch) sent') (hinsert : (s.insert batch).2 = .error e) :
      Fails vendor s sent (.store vendor e) sent'

/-- Vendors go in one after the other, each with a batch of its own. -/
inductive Stored : List String → Store → List Request → List (List Entry) → List Report →
    List Request → Prop
  | nil (s : Store) (sent : List Request) : Stored [] s sent [] [] sent
  | cons {vendor : String} {vendors : List String} {s : Store} {batch : List Entry}
      {report : Report} {batches : List (List Entry)} {reports : List Report}
      {sent sent' sent'' : List Request} (h : GoesIn srv r c q vendor s sent batch report sent')
      (hrest : Stored vendors (s.insert batch).1 sent' batches reports sent'') :
      Stored (vendor :: vendors) s sent (batch :: batches) (report :: reports) sent''

variable {srv r c q} {vendor : String} {vendors : List String} {s : Store}
  {sent sent' : List Request}

/-! ## One vendor -/

theorem run_fetchAll_of_error {e : LoadError} (h : connectorFor r c q vendor = .error e) (limit : Nat) :
    (fetchAll srv.send limit r c q vendor).run sent = (some (.error e), sent) := by
  unfold fetchAll
  rw [h]
  rfl

theorem run_fetchAll_of_ok {k : Connector σ} (h : connectorFor r c q vendor = .ok k) (limit : Nat) :
    (fetchAll srv.send limit r c q vendor).run sent =
      andThen (fun limit => Prod.map (Option.map (·.2)) id ((k.drain srv.send limit).run sent))
        (fun page sent' _ => (some (page.mapError (.fetch vendor)), sent')) limit := by
  unfold fetchAll andThen
  rw [h]
  simp only [StateT.run_bind]
  cases hdrain : (k.drain srv.send limit).run sent with
  | mk last? sent' => cases last? <;> rfl

theorem connectorFor_of_unknown (hname : Vendor.ofName? vendor = none) :
    connectorFor r c q vendor = .error (.unknownVendor vendor) := by
  unfold connectorFor compileFor
  rw [hname]

theorem connectorFor_of_known {v : Vendor} (hname : Vendor.ofName? vendor = some v) :
    connectorFor r c q vendor =
      (r.build vendor c (v.grammar.compile q)).mapError (.connector vendor) := by
  unfold connectorFor compileFor
  rw [hname]

theorem connectorFor_of_build {v : Vendor} {built : Except FetchError (Connector σ)}
    (hname : Vendor.ofName? vendor = some v)
    (hbuild : r.build vendor c (v.grammar.compile q) = built) :
    connectorFor r c q vendor = built.mapError (.connector vendor) := by
  rw [connectorFor_of_known hname, hbuild]

theorem Fetched.settles {found : Except LoadError (List Entry)}
    (h : Fetched srv r c q vendor sent found sent') :
    Settles (fun limit => (fetchAll srv.send limit r c q vendor).run sent) found sent' := by
  have hdrained : ∀ {v : Vendor} {k : Connector σ} {pages : List (List Entry)}
      {e? : Option FetchError}, Vendor.ofName? vendor = some v →
      r.build vendor c (v.grammar.compile q) = .ok k →
      k.Brings srv (k.call .first) sent pages e? sent' →
      Settles (fun limit => (fetchAll srv.send limit r c q vendor).run sent)
        ((Connector.resultOf pages e?).mapError (.fetch vendor)) sent' := by
    intro v k pages e? hname hbuild hbrings
    have hk : connectorFor r c q vendor = .ok k := connectorFor_of_build hname hbuild
    simp only [run_fetchAll_of_ok hk]
    exact hbrings.settles.andThen (settles_const _ _)
  cases h with
  | unknown hname =>
    simp only [run_fetchAll_of_error (connectorFor_of_unknown hname)]
    exact settles_const _ _
  | @unbuilt v e hname hbuild =>
    have hk : connectorFor r c q vendor = .error (.connector vendor e) :=
      connectorFor_of_build hname hbuild
    simp only [run_fetchAll_of_error hk]
    exact settles_const _ _
  | broken hname hbuild hbrings => exact hdrained hname hbuild hbrings
  | complete hname hbuild hbrings => exact hdrained hname hbuild hbrings

theorem fetched_of_run_fetchAll {limit : Nat} {found : Except LoadError (List Entry)}
    (h : (fetchAll srv.send limit r c q vendor).run sent = (some found, sent')) :
    Fetched srv r c q vendor sent found sent' := by
  cases hname : Vendor.ofName? vendor with
  | none =>
    rw [run_fetchAll_of_error (connectorFor_of_unknown hname)] at h
    obtain ⟨rfl, rfl⟩ := by simpa using h
    exact .unknown hname
  | some v =>
    cases hbuild : r.build vendor c (v.grammar.compile q) with
    | error e =>
      have hk : connectorFor r c q vendor = .error (.connector vendor e) :=
        connectorFor_of_build hname hbuild
      rw [run_fetchAll_of_error hk] at h
      obtain ⟨rfl, rfl⟩ := by simpa using h
      exact .unbuilt hname hbuild
    | ok k =>
      have hk : connectorFor r c q vendor = .ok k := connectorFor_of_build hname hbuild
      rw [run_fetchAll_of_ok hk, andThen] at h
      cases hdrain : (k.drain srv.send limit).run sent with
      | mk last? sent'' =>
        rw [hdrain] at h
        cases last? with
        | none => cases h
        | some pair =>
          obtain ⟨last, result⟩ := pair
          obtain ⟨pages, e?, hbrings, rfl⟩ := Connector.brings_of_run_drain hdrain
          have heq : (some ((Connector.resultOf pages e?).mapError (.fetch vendor)), sent'') =
              (some found, sent') := h
          rw [Prod.mk.injEq, Option.some_inj] at heq
          obtain ⟨rfl, rfl⟩ := heq
          cases e? with
          | none => exact .complete hname hbuild hbrings
          | some e => exact .broken hname hbuild hbrings

theorem Fetched.unique {found found' : Except LoadError (List Entry)} {sent'' : List Request}
    (h : Fetched srv r c q vendor sent found sent')
    (h' : Fetched srv r c q vendor sent found' sent'') : found = found' ∧ sent' = sent'' :=
  h.settles.unique h'.settles

/-! ## One vendor after the other -/

def addReport (report : Report) : Store × Except LoadError Report → Store × Except LoadError Report
  | (s, result) => (s, result.map (report + ·))

def proceed (srv : Server) (r : Registry σ) (c : Config) (q : Query) (vendor : String)
    (vendors : List String) (s : Store) (found : Except LoadError (List Entry))
    (sent : List Request) (limit : Nat) :
    Option (Store × Except LoadError Report) × List Request :=
  match found with
  | .error e => (some (s, .error e), sent)
  | .ok batch =>
    match (s.insert batch).2 with
    | .error e => (some ((s.insert batch).1, .error (.store vendor e)), sent)
    | .ok report =>
      Prod.map (Option.map (addReport report)) id
        ((load srv.send limit r c q vendors (s.insert batch).1).run sent)

theorem run_loadVendor {limit : Nat} {batch : List Entry}
    (h : (fetchAll srv.send limit r c q vendor).run sent = (some (.ok batch), sent')) :
    (loadVendor srv.send limit r c q vendor s).run sent =
      (some ((s.insert batch).1, (s.insert batch).2.mapError (.store vendor)), sent') := by
  unfold loadVendor
  rw [StateT.run_bind, h]
  rfl

theorem run_load_cons (limit : Nat) :
    (load srv.send limit r c q (vendor :: vendors) s).run sent =
      andThen (fun limit => (fetchAll srv.send limit r c q vendor).run sent)
        (proceed srv r c q vendor vendors s) limit := by
  unfold andThen
  beta_reduce
  rw [load, StateT.run_bind]
  cases hfetch : (fetchAll srv.send limit r c q vendor).run sent with
  | mk found? sent' =>
    rcases found? with _ | e | batch
    · have hvendor : (loadVendor srv.send limit r c q vendor s).run sent = (none, sent') := by
        unfold loadVendor
        rw [StateT.run_bind, hfetch]
        rfl
      rw [hvendor]
      rfl
    · have hvendor : (loadVendor srv.send limit r c q vendor s).run sent =
          (some (s, .error e), sent') := by
        unfold loadVendor
        rw [StateT.run_bind, hfetch]
        rfl
      rw [hvendor]
      rfl
    · rw [run_loadVendor hfetch]
      unfold proceed
      dsimp only
      cases hinsert : (s.insert batch).2 with
      | error e => rfl
      | ok report =>
        show StateT.run (load srv.send limit r c q vendors (s.insert batch).1 >>= _) sent' = _
        rw [StateT.run_bind]
        dsimp only
        cases hrest : (load srv.send limit r c q vendors (s.insert batch).1).run sent' with
        | mk last? sent'' => cases last? <;> rfl

/-! ## Several vendors -/

/-- A load of vendors, by the limit on the pages of each. -/
def loading (srv : Server) (r : Registry σ) (c : Config) (q : Query) (vendors : List String)
    (s : Store) (sent : List Request) (limit : Nat) :
    Option (Store × Except LoadError Report) × List Request :=
  (load srv.send limit r c q vendors s).run sent

/-- The store after batches have been inserted one by one. -/
def takeIn (s : Store) (batches : List (List Entry)) : Store :=
  batches.foldl (fun s batch => (s.insert batch).1) s

def total (reports : List Report) : Report := reports.foldr Report.add Report.empty

theorem foldr_addReport_error (reports : List Report) (s : Store) (e : LoadError) :
    reports.foldr addReport (s, .error e) = (s, .error e) := by
  induction reports with
  | nil => rfl
  | cons report reports ih =>
    rw [List.foldr_cons, ih]
    rfl

theorem foldr_addReport_ok (reports : List Report) (s : Store) :
    reports.foldr addReport (s, .ok Report.empty) = (s, .ok (total reports)) := by
  induction reports with
  | nil => rfl
  | cons report reports ih =>
    rw [List.foldr_cons, ih]
    rfl

theorem loading_cons : loading srv r c q (vendor :: vendors) s sent =
    andThen (fun limit => (fetchAll srv.send limit r c q vendor).run sent)
      (proceed srv r c q vendor vendors s) :=
  funext run_load_cons

theorem GoesIn.settles {batch : List Entry} {report : Report} {sent'' : List Request}
    {outcome : Store × Except LoadError Report}
    (h : GoesIn srv r c q vendor s sent batch report sent')
    (hrest : Settles (loading srv r c q vendors (s.insert batch).1 sent') outcome sent'') :
    Settles (loading srv r c q (vendor :: vendors) s sent) (addReport report outcome) sent'' := by
  rw [loading_cons]
  refine h.fetched.settles.andThen ?_
  unfold proceed
  dsimp only
  rw [h.inserted]
  exact hrest.map _

/-- A store that refuses a batch is left as it was. -/
theorem insert_fst_of_error {batch : List Entry} {e : InvalidOrigin} (hs : s.Sound)
    (h : (s.insert batch).2 = .error e) : (s.insert batch).1 = s := by
  rw [Store.insert_of_unfit hs ((Store.insert_eq_error_iff hs batch e).1 h)]

theorem Fails.settles {e : LoadError} (hs : s.Sound) (h : Fails srv r c q vendor s sent e sent')
    (later : List String) :
    Settles (loading srv r c q (vendor :: later) s sent) (s, .error e) sent' := by
  rw [loading_cons]
  cases h with
  | fetch h => exact h.settles.andThen (settles_const _ _)
  | store h hinsert =>
    refine h.settles.andThen ?_
    unfold proceed
    dsimp only
    rw [hinsert, insert_fst_of_error hs hinsert]
    exact settles_const _ _

theorem loading_eq_none (h : ∀ found sent', ¬ Fetched srv r c q vendor sent found sent')
    (limit : Nat) : (loading srv r c q (vendor :: vendors) s sent limit).1 = none := by
  rw [loading_cons]
  refine andThen_of_eq_none ?_
  cases hfetch : (fetchAll srv.send limit r c q vendor).run sent with
  | mk found? sent' =>
    cases found? with
    | none => rfl
    | some found => exact absurd (fetched_of_run_fetchAll hfetch) (h found sent')

section
variable {batches : List (List Entry)} {reports : List Report} {done rest : List String}

theorem Stored.settles {sent'' : List Request} {outcome : Store × Except LoadError Report}
    (h : Stored srv r c q done s sent batches reports sent')
    (hrest : Settles (loading srv r c q rest (takeIn s batches) sent') outcome sent'') :
    Settles (loading srv r c q (done ++ rest) s sent) (reports.foldr addReport outcome) sent'' := by
  induction h with
  | nil s sent => exact hrest
  | cons h _ ih => exact h.settles (ih hrest)

theorem Stored.loading_eq_none (h : Stored srv r c q done s sent batches reports sent')
    (hrest : ∀ limit, (loading srv r c q rest (takeIn s batches) sent' limit).1 = none) :
    ∀ limit, (loading srv r c q (done ++ rest) s sent limit).1 = none := by
  induction h with
  | nil s sent => exact hrest
  | cons h _ ih =>
    rw [List.cons_append, loading_cons]
    refine h.fetched.settles.andThen_eq_none fun limit => ?_
    unfold proceed
    dsimp only
    rw [h.inserted, Prod.map_fst, Option.map_eq_none_iff]
    exact ih hrest limit

/-- Vendors split behind the last one of those that go in from the start. -/
theorem exists_stored (srv : Server) (r : Registry σ) (c : Config) (q : Query)
    (vendors : List String) (s : Store) (sent : List Request) :
    ∃ done rest batches reports sent', vendors = done ++ rest ∧
      Stored srv r c q done s sent batches reports sent' ∧
      (∀ done' rest' batches' reports' sent'', vendors = done' ++ rest' →
        Stored srv r c q done' s sent batches' reports' sent'' → done' <+: done) ∧
      ∀ vendor later, rest = vendor :: later →
        (∃ e sent'', Fails srv r c q vendor (takeIn s batches) sent' e sent'') ∨
          ∀ found sent'', ¬ Fetched srv r c q vendor sent' found sent'' := by
  induction vendors generalizing s sent with
  | nil =>
    refine ⟨[], [], [], [], sent, rfl, .nil s sent, ?_, by simp⟩
    intro done' rest' _ _ _ h _
    obtain ⟨rfl, -⟩ := List.append_eq_nil_iff.1 h.symm
    exact List.prefix_refl _
  | cons vendor vendors ih =>
    by_cases hgoes : ∃ batch report sent', GoesIn srv r c q vendor s sent batch report sent'
    · obtain ⟨batch, report, sent', hgoes⟩ := hgoes
      obtain ⟨done, rest, batches, reports, sent'', rfl, hstored, hlongest, hnext⟩ :=
        ih (s.insert batch).1 sent'
      refine ⟨vendor :: done, rest, batch :: batches, report :: reports, sent'', rfl,
        .cons hgoes hstored, ?_, hnext⟩
      intro done' rest' batches' reports' sent₁ hsplit h
      cases h with
      | nil => exact List.nil_prefix
      | cons hgoes' hrest' =>
        obtain ⟨rfl, htails⟩ := List.cons.inj hsplit
        -- what the vendor finds is determined, so both go on in the same store
        obtain ⟨hbatch, rfl⟩ := hgoes'.fetched.unique hgoes.fetched
        obtain rfl := Except.ok.inj hbatch
        exact (List.prefix_cons_inj vendor).2 (hlongest _ _ _ _ _ htails hrest')
    · refine ⟨[], vendor :: vendors, [], [], sent, rfl, .nil s sent, ?_, ?_⟩
      · intro done' rest' _ _ _ hsplit h
        cases h with
        | nil => exact List.nil_prefix
        | cons hgoes' _ =>
          obtain ⟨rfl, -⟩ := List.cons.inj hsplit
          exact absurd ⟨_, _, _, hgoes'⟩ hgoes
      · intro v later hrest
        obtain ⟨rfl, rfl⟩ := List.cons.inj hrest
        by_cases hfetched : ∃ found sent', Fetched srv r c q vendor sent found sent'
        · obtain ⟨found, sent', hfetched⟩ := hfetched
          left
          cases found with
          | error e => exact ⟨e, sent', .fetch hfetched⟩
          | ok batch =>
            cases hinsert : (s.insert batch).2 with
            | error e => exact ⟨_, sent', .store hfetched hinsert⟩
            | ok report => exact absurd ⟨batch, report, sent', hfetched, hinsert⟩ hgoes
        · right
          intro found sent' h
          exact hfetched ⟨found, sent', h⟩

end

theorem sound_takeIn (hs : s.Sound) (batches : List (List Entry)) : (takeIn s batches).Sound := by
  induction batches generalizing s with
  | nil => exact hs
  | cons batch batches ih => exact ih (hs.call (.insert batch))

/-- Vendors that go in leave the store as one insertion of all that they found. -/
theorem Stored.insert_flatten {done : List String} {batches : List (List Entry)}
    {reports : List Report} (hs : s.Sound) (h : Stored srv r c q done s sent batches reports sent') :
    s.insert batches.flatten = (takeIn s batches, .ok (total reports)) := by
  induction h with
  | nil s sent => exact Store.insert_of_isEmpty rfl
  | @cons vendor vendors s batch report batches reports sent sent' sent'' hgoes hrest ih =>
    have hlater := ih (hs.call (.insert batch))
    have hbatch := (Store.isOk_insert hs batch).1 (by rw [hgoes.inserted]; rfl)
    have hbatches := (Store.isOk_insert (hs.call (.insert batch)) batches.flatten).1
      (by rw [Store.call, hlater]; rfl)
    have hfit : firstUnfit ((batch ++ batches.flatten).flatMap (·.sources)) = none := by
      rw [List.flatMap_append, firstUnfit_append, hbatch, hbatches]
      rfl
    obtain ⟨r₁, r₂, h₁, h₂, hjoined⟩ := Store.insert_append hs hfit
    rw [hlater] at h₂ hjoined
    obtain rfl := Except.ok.inj (hgoes.inserted.symm.trans h₁)
    obtain rfl := Except.ok.inj h₂
    exact hjoined

/-- Vendors split into a longest run of those that go in from the start, and the rest. The load
leaves the store as if their batches had been inserted one by one, and nothing else: when no vendor
is left, with the sum of their reports; when the next one fails, with its error, whatever vendors
come behind it. The only other case is a vendor whose pages never end; then there is no result. One
insertion of everything that the vendors of the run found leaves the same store, with the same sum. -/
theorem load_stops_at_first_failure (srv : Server) (r : Registry σ) (c : Config) (q : Query)
    (db : Database) (events : List Store.Event) (vendors : List String) (sent : List Request) :
    let s := (Store.ofDatabase db).run events
    (∃ done rest batches reports sent', vendors = done ++ rest ∧
      Stored srv r c q done s sent batches reports sent' ∧
      (∀ done' rest' batches' reports' sent'', vendors = done' ++ rest' →
        Stored srv r c q done' s sent batches' reports' sent'' → done' <+: done) ∧
      ∀ vendor later, rest = vendor :: later →
        (∃ e sent'', Fails srv r c q vendor (takeIn s batches) sent' e sent'') ∨
          ∀ found sent'', ¬ Fetched srv r c q vendor sent' found sent'') ∧
    ∀ done rest batches reports sent', vendors = done ++ rest →
      Stored srv r c q done s sent batches reports sent' →
      s.insert batches.flatten = (takeIn s batches, .ok (total reports)) ∧
      (rest = [] → Settles (loading srv r c q vendors s sent)
        (takeIn s batches, .ok (total reports)) sent') ∧
      ∀ vendor later, rest = vendor :: later →
        (∀ e sent'', Fails srv r c q vendor (takeIn s batches) sent' e sent'' → ∀ later',
          Settles (loading srv r c q (done ++ vendor :: later') s sent)
            (takeIn s batches, .error e) sent'') ∧
        ((∀ found sent'', ¬ Fetched srv r c q vendor sent' found sent'') →
          ∀ limit, (loading srv r c q vendors s sent limit).1 = none) := by
  intro s
  have hs : s.Sound := Store.sound_run db events
  refine ⟨exists_stored srv r c q vendors s sent, ?_⟩
  rintro done rest batches reports sent' rfl hstored
  have hkept := sound_takeIn hs batches
  refine ⟨hstored.insert_flatten hs, ?_, ?_⟩
  · rintro rfl
    rw [← foldr_addReport_ok]
    exact hstored.settles (settles_const _ _)
  · rintro vendor later rfl
    refine ⟨fun e sent'' hfails later' => ?_, fun hendless => ?_⟩
    · rw [← foldr_addReport_error reports]
      exact hstored.settles (hfails.settles hkept later')
    · exact hstored.loading_eq_none fun limit => loading_eq_none hendless limit

/-! ## An example -/

/-- A connector that sends a request to a host for each of its pages. -/
def scripted (host : String) (pages : List Page) : Connector (List Page) :=
  ⟨host, pages, handOut, handOut⟩
where
  /-- The call for the next of some pages. -/
  handOut : List Page → Call (List Page)
    | [] => .ask (request host) fun _ => ([], .ok [])
    | page :: pages => .ask (request host) fun _ => (pages, page)
  /-- The request to a host. -/
  request (host : String) : Request :=
    ⟨⟨"http", some ⟨"", none, host, none⟩, .segments [""], none, none⟩, []⟩

/-- Three vendors, of which the second one fails behind its first page. -/
def threeVendors : Registry (List Page) :=
  let paper (title : String) : Entry :=
    .new { Resource.empty with title } [Source.withLink "web" ("http://" ++ title)]
  let register (r : Registry (List Page)) (name : String) (pages : List Page) :=
    r.register name fun _ _ => .ok (scripted name pages)
  let r := register .empty "ieee" [.ok [paper "A"], .ok [paper "B", paper "a"]]
  let r := register r "scopus" [.ok [paper "C"], .error (.status "scopus" 503 "busy")]
  register r "acm" [.ok [paper "D"]]

theorem load_stops_at_second_vendor :
    let r := threeVendors
    let c := Config.default
    let q : Query := ⟨.and, []⟩
    let srv : Server := fun _ _ => .failed
    let events : List Store.Event := [
      .call (.insert [.new { Resource.empty with title := "B" } []]),
      .call (.review 1 (.later true) false)]
    let s := (Store.ofDatabase .empty).run events
    let pages : List (List Entry) := [
      [.new { Resource.empty with title := "A" } [⟨"web", some "http://A"⟩]],
      [.new { Resource.empty with title := "B" } [⟨"web", some "http://B"⟩],
        .new { Resource.empty with title := "a" } [⟨"web", some "http://a"⟩]]]
    let asked := List.replicate 3 (scripted.request "ieee")
    Stored srv r c q ["ieee"] s [] [pages.flatten] [⟨1, 2, 3⟩] asked ∧
    Settles (loading srv r c q ["ieee", "scopus", "acm"] s [])
      (takeIn s [pages.flatten], .error (.fetch "scopus" (.status "scopus" 503 "busy")))
      (asked ++ List.replicate 2 (scripted.request "scopus")) ∧
    (takeIn s [pages.flatten]).entries? [0] = some
      [(1, ⟨{ Resource.empty with title := "B" }, [⟨"web", some "http://B"⟩], ⟨0, true, ""⟩⟩),
        (2, .new { Resource.empty with title := "A" }
          [⟨"web", some "http://A"⟩, ⟨"web", some "http://a"⟩])] := by
  intro r c q srv events s pages asked
  have hieee : GoesIn srv r c q "ieee" s [] pages.flatten ⟨1, 2, 3⟩ asked := by
    refine ⟨.complete (by decide : Vendor.ofName? "ieee" = some .ieee) rfl ?_, by decide +kernel⟩
    exact .page rfl (List.cons_ne_nil _ _) (.page rfl (List.cons_ne_nil _ _) (.empty rfl))
  have hstored := Stored.cons hieee (.nil _ _)
  have hscopus : Fails srv r c q "scopus" (takeIn s [pages.flatten]) asked
      (.fetch "scopus" (.status "scopus" 503 "busy"))
      (asked ++ List.replicate 2 (scripted.request "scopus")) :=
    .fetch (.broken (by decide : Vendor.ofName? "scopus" = some .scopus) rfl
      (.page rfl (List.cons_ne_nil _ _) (.error rfl)))
  obtain ⟨-, hends⟩ := load_stops_at_first_failure srv r c q .empty events
    ["ieee", "scopus", "acm"] []
  obtain ⟨-, -, hrest⟩ := hends ["ieee"] ["scopus", "acm"] _ _ _ rfl hstored
  exact ⟨hstored, (hrest "scopus" ["acm"] rfl).1 _ _ hscopus ["acm"], by decide +kernel⟩

end PaperTrail.Load
