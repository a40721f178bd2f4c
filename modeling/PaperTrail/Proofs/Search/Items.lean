import PaperTrail.Proofs.Json.Equality
import PaperTrail.Proofs.Json.Record
import PaperTrail.Proofs.Search.Chain

/-!
# The items of a page of Scopus

A reply of Scopus lists items. `Scopus.receive_of_lists`: unless the first of them reports an error,
the page has one entry for every item, whatever the others contain; a page is empty when there is no
list, when the list is empty, and when its first item reports an error, be there others or not.

* `Scopus.Lists` : the list of items of a body; `lists_iff` says that it is the one that is read;
* `Scopus.page_of_shows` : the page of a reply with these results.
-/

namespace PaperTrail.Scopus
variable {body : String} {items : List Json} {results? : Option Results} {v : Json}

/-- A body lists items: under the results of the search, in the entry. -/
def Lists (v : Json) (items : List Json) : Prop :=
  ∃ results, Json.Holds "search-results" 0 v results ∧ Json.Holds "entry" 1 results (.array items)

theorem nullable_itemsOf?_eq_some_iff {slot : Json.Slot} {items? : Option (List Json)}
    (h : slot.nullable itemsOf? = some items?) :
    items? = some items ↔ slot = .given (.array items) := by
  cases slot with
  | given w =>
    cases w with
    | null =>
      obtain rfl := Option.some.inj h
      exact iff_of_false nofun nofun
    | array listed =>
      obtain ⟨items', hitems, rfl⟩ := Option.map_eq_some_iff.1 h
      obtain rfl : listed = items' := (Option.filter_eq_some_iff.1 hitems).1 |> Option.some.inj
      rw [Option.some.injEq, Json.Slot.given.injEq, Json.array.injEq]
    | _ => cases h
  | leftOut | cutOff =>
    obtain rfl := Option.some.inj h
    exact iff_of_false nofun nofun

theorem resultsOf?_items?_iff {r : Results} (h : resultsOf? v = some r) :
    r.items? = some items ↔ Json.Holds "entry" 1 v (.array items) := by
  simp only [resultsOf?, bind, Option.bind_eq_some_iff] at h
  obtain ⟨slots, hslots, h⟩ := h
  split at h
  · next links listed =>
    obtain ⟨links, hlinks, items?, hitems, rfl⟩ := by
      simpa only [Option.bind_eq_some_iff, pure, Option.some.injEq] using h
    rw [nullable_itemsOf?_eq_some_iff hitems, ← Json.slots?_given_iff hslots rfl]
    simp only [List.getElem?_cons_succ, List.getElem?_cons_zero, Option.some.injEq]
  · cases h

/-- The items of the results are those that the body lists. -/
theorem lists_iff (hjson : Json.ofString? body = some v) (hpage : pageOf? body = some results?) :
    Lists v items ↔ ∃ links, results? = some ⟨links, some items⟩ := by
  simp only [pageOf?, hjson, bind, Option.bind_some, Option.bind_eq_some_iff] at hpage
  obtain ⟨slots, hslots, hpage⟩ := hpage
  split at hpage
  · next slot =>
    have hgiven : ∀ w, slot = .given w ↔ Json.Holds "search-results" 0 v w := by
      intro w
      rw [← Json.slots?_given_iff hslots rfl, List.getElem?_cons_zero, Option.some.injEq]
    simp only [Lists, ← hgiven]
    cases results? with
    | none =>
      refine iff_of_false ?_ nofun
      rintro ⟨w, rfl, hitems⟩
      cases hitems <;> simp [Json.Slot.optional] at hpage
    | some r =>
      obtain ⟨w, rfl, hr⟩ : ∃ w, slot = .given w ∧ resultsOf? w = some r := by
        simp only [Json.Slot.optional] at hpage
        split at hpage
        · cases hpage
        · exact ⟨_, rfl, by simpa using hpage⟩
        · cases hpage
        · cases hpage
      simp only [Json.Slot.given.injEq, exists_eq_left', ← resultsOf?_items?_iff hr]
      obtain ⟨links, items?⟩ := r
      simp
  · cases hpage

/-! ## Pages -/

theorem receive_call (c : Scopus) {t : Turn} {r : Request} {receive : Exchange → Scopus × Page}
    (h : c.connector.call t = .ask r receive) : receive = (c.withNext none).receive := by
  have hask : ∀ r? : Except FetchError Request, (c.withNext none).ask r? = .ask r receive →
      receive = (c.withNext none).receive := by
    intro r? hr
    cases r? with
    | error err => cases hr
    | ok r => exact (Call.ask.inj hr).2.symm
  cases t with
  | first =>
    rw [call_first, fetchFirst_eq] at h
    exact hask _ h
  | next =>
    rw [call_next] at h
    cases hnext : c.next? with
    | none =>
      rw [fetchNext_of_none hnext] at h
      cases h
    | some link =>
      rw [fetchNext_of_some hnext] at h
      exact hask _ h

theorem page_withNext (c : Scopus) (next? : Option String) (e : Exchange) :
    ((c.withNext next?).receive e).2 = (c.receive e).2 := by
  rcases reply_cases e with ⟨page, h⟩ | ⟨links, items, h, hitems⟩
  · cases h with
    | failed h => simp only [receive, h]
    | garbled h hpage => simp only [receive, h, hpage]
    | empty h hempty =>
      obtain ⟨body, hbody, hpage⟩ := h
      simp only [receive, hbody, hpage, takePage_of_barren _ hempty]
  · rw [receive_of_fruitful _ h hitems, receive_of_fruitful _ h hitems]
    rfl

theorem barren_iff :
    Barren results? ↔ ∀ links item rest, results? = some ⟨links, some (item :: rest)⟩ →
      item.get? "error" ≠ none := by
  constructor
  · rintro h links item rest rfl
    cases h with
    | error links rest h => exact h
  · intro h
    rcases barren_or_fruitful results? with hbarren | ⟨links, items, rfl, item, rest, rfl, hitem⟩
    · exact hbarren
    · exact absurd hitem (h links item rest rfl)

theorem page_of_shows (c : Scopus) {e : Exchange} (h : Shows e results?) :
    ∃ entries, (c.receive e).2 = .ok entries ∧ (entries = [] ↔ Barren results?) ∧
      ∀ links items, results? = some ⟨links, some items⟩ → Fruitful items →
        entries = items.map c.entryOf := by
  rcases barren_or_fruitful results? with hbarren | ⟨links, items, rfl, hitems⟩
  · obtain ⟨c', hreceive⟩ := receive_of_ending c (.empty h hbarren)
    refine ⟨[], by rw [hreceive], iff_of_true rfl hbarren, ?_⟩
    rintro links items rfl ⟨item, rest, rfl, hitem⟩
    exact absurd hitem (barren_iff.1 hbarren links item rest rfl)
  · refine ⟨items.map c.entryOf, by rw [receive_of_fruitful c h hitems], ?_, ?_⟩
    · obtain ⟨item, rest, rfl, hitem⟩ := hitems
      exact iff_of_false (List.cons_ne_nil _ _) fun hbarren =>
        barren_iff.1 hbarren links item rest rfl hitem
    · rintro links' items' heq -
      cases heq
      rfl

/-- The page of a readable reply with a list of items whose first one reports no error has the
entries of these items, one by one and in their order, and no other item keeps any of them away. A
page is empty exactly when no list is there that begins with such an item. -/
theorem receive_of_lists (c : Scopus) {e : Exchange} {body : String} {v : Json}
    (hbody : replyText name e = .ok body) (hjson : Json.ofString? body = some v)
    (hpage : pageOf? body ≠ none) :
    ∃ entries, (c.receive e).2 = .ok entries ∧
      (∀ t r receive, c.connector.call t = .ask r receive → (receive e).2 = .ok entries) ∧
      (∀ items, Lists v items → (∀ item, items.head? = some item → item.get? "error" = none) →
        entries = items.map c.entryOf) ∧
      (entries = [] ↔ ∀ item rest, Lists v (item :: rest) → item.get? "error" ≠ none) := by
  obtain ⟨results?, hresults⟩ := Option.ne_none_iff_exists'.1 hpage
  have hlists : ∀ items, Lists v items ↔ ∃ links, results? = some ⟨links, some items⟩ :=
    fun _ => lists_iff hjson hresults
  obtain ⟨entries, hentries, hempty, hfruitful⟩ := c.page_of_shows ⟨body, hbody, hresults⟩
  refine ⟨entries, hentries, fun t r receive h => ?_, fun items hitems herror => ?_, ?_⟩
  · rw [receive_call c h, page_withNext, hentries]
  · obtain ⟨links, rfl⟩ := (hlists items).1 hitems
    cases items with
    | nil => exact hempty.2 (.noItems links)
    | cons item rest => exact hfruitful links _ rfl ⟨item, rest, rfl, herror item rfl⟩
  · rw [hempty, barren_iff]
    constructor
    · intro h item rest hitems
      obtain ⟨links, rfl⟩ := (hlists _).1 hitems
      exact h links item rest rfl
    · rintro h links item rest rfl
      exact h item rest ((hlists _).2 ⟨links, rfl⟩)

def listing (items : List Json) : Json :=
  .object [("search-results", .object [("entry", .array items)])]

def titled : Json := .object [("dc:title", .string "One")]

def failing : Json := .object [("error", .string "none")]

theorem lists_listing (items : List Json) : Lists (listing items) items :=
  ⟨_, .member (List.mem_singleton_self _), .member (List.mem_singleton_self _)⟩

theorem receive_of_lists_titled_failing :
    let c := new defaultBase "key" "q"
    let body := "\x7b\"search-results\":\x7b\"entry\":" ++
      "[\x7b\"dc:title\":\"One\"\x7d,\x7b\"error\":\"none\"\x7d]\x7d\x7d"
    Json.ofString? body = some (listing [titled, failing]) ∧
      Lists (listing [titled, failing]) [titled, failing] ∧
      (c.receive (.reply 200 (some body))).2 = .ok [
        Entry.new { Resource.empty with title := "One" } [Source.withLink name ""],
        Entry.new Resource.empty [Source.withLink name ""]] := by
  intro c body
  have hbody : replyText name (.reply 200 (some body)) = .ok body := by decide +kernel
  have hjson : Json.ofString? body = some (listing [titled, failing]) := by decide +kernel
  have hpage : pageOf? body ≠ none := Option.isSome_iff_ne_none.1 (by decide +kernel)
  obtain ⟨entries, hentries, -, hlisted, -⟩ := receive_of_lists c hbody hjson hpage
  have hlists := lists_listing [titled, failing]
  have hmap := hlisted _ hlists fun item h => by
    obtain rfl := Option.some.inj h
    rfl
  refine ⟨hjson, hlists, ?_⟩
  rw [hentries, hmap]
  decide +kernel

/-- An item does not always have an entry: behind an item with an error, it has none. -/
theorem not_entry_of_every_item :
    ¬ ∀ (c : Scopus) (e : Exchange) (body : String) (v : Json) (items : List Json),
      replyText name e = .ok body → Json.ofString? body = some v → pageOf? body ≠ none →
        Lists v items → (∀ item, items = [item] → item.get? "error" = none) →
          ∃ entries, (c.receive e).2 = .ok entries ∧ entries.length = items.length := by
  intro h
  let c := new defaultBase "key" "q"
  let body := "\x7b\"search-results\":\x7b\"entry\":" ++
    "[\x7b\"error\":\"none\"\x7d,\x7b\"dc:title\":\"One\"\x7d]\x7d\x7d"
  have hpage : (c.receive (.reply 200 (some body))).2 = .ok [] := by decide +kernel
  obtain ⟨entries, hentries, hlength⟩ := h c (.reply 200 (some body)) body
    (listing [failing, titled]) [failing, titled] (by decide +kernel) (by decide +kernel)
    (Option.isSome_iff_ne_none.1 (by decide +kernel)) (lists_listing _)
    fun item hitem => by simp at hitem
  obtain rfl := Except.ok.inj (hpage.symm.trans hentries)
  cases hlength

end PaperTrail.Scopus
