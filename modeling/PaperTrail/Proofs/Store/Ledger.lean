import Mathlib.Data.List.Find
import Mathlib.Data.List.Induction
import Mathlib.Data.List.Pairwise
import PaperTrail.Paper.Basic

/-!
# The ledger of accepted entries

To which paper an entry belongs is settled when the entry is accepted, and depends on nothing but
the entries accepted before it.

* `Filing` : an accepted entry with the number of its paper, and whether it made that paper;
* `ledger same entries` : the filings of entries that were accepted in this order, where `same` says
  which texts count as the same;
* `Filing.Follows` : the rule for one filing, given everything before it, and `follows_ledger` : in
  a ledger every filing follows it;
* `pairwise_ledger` : where matching is symmetric and transitive, entries have the same number just
  when they match.
-/

namespace PaperTrail

/-- Whether a resource has the same text as an older one in a field that is not blank. -/
def Resource.shares (same : String → String → Bool) (older r : Resource) : Bool :=
  IdentityField.all.any fun f => !Text.isBlankText (r.get f) && same (older.get f) (r.get f)

theorem Resource.shares_iff {same : String → String → Bool} {older r : Resource} :
    older.shares same r = true ↔
      ∃ f, Text.isBlankText (r.get f) = false ∧ same (older.get f) (r.get f) = true := by
  have hall : ∀ f : IdentityField, f ∈ IdentityField.all := by
    intro f
    cases f <;> decide
  simp [shares, List.any_eq_true, hall]

theorem Resource.shares_congr {same same' : String → String → Bool} {older r : Resource}
    (h : ∀ f, same (older.get f) (r.get f) = same' (older.get f) (r.get f)) :
    older.shares same r = older.shares same' r := by
  unfold shares
  simp only [h]

/-- Resources share a field with each other when this does not depend on the order of texts. -/
theorem Resource.shares_symm {same : String → String → Bool} (hcomm : ∀ a b, same a b = same b a)
    (hblank : ∀ a b, same a b = true → Text.isBlankText a = true → Text.isBlankText b = true)
    {a b : Resource} (h : a.shares same b = true) : b.shares same a = true := by
  rw [shares_iff] at h ⊢
  obtain ⟨f, hb, hsame⟩ := h
  refine ⟨f, ?_, by rw [hcomm, hsame]⟩
  rw [← Bool.not_eq_true]
  intro ha
  rw [hblank _ _ hsame ha] at hb
  cases hb

/-- An accepted entry, the number of its paper, and whether the entry made that paper. -/
structure Filing where
  id : Int
  entry : Entry
  created : Bool
deriving DecidableEq

def papers (filings : List Filing) : List Filing := filings.filter (·.created)

/-- The rule for a filing after earlier ones. -/
inductive Filing.Follows (same : String → String → Bool) (earlier : List Filing) :
    Filing → Prop where
  /-- An entry that shares no field with an earlier paper makes a paper, with a higher number. -/
  | created {id : Int} {e : Entry}
      (hnew : ∀ p ∈ papers earlier, p.entry.resource.shares same e.resource = false)
      (habove : ∀ p ∈ papers earlier, p.id < id) : Follows same earlier ⟨id, e, true⟩
  /-- An entry belongs to the paper of the lowest number with which it shares a field. -/
  | matched {p : Filing} {e : Entry} (hp : p ∈ papers earlier)
      (hshares : p.entry.resource.shares same e.resource = true)
      (hlowest : ∀ p' ∈ papers earlier, p'.id < p.id →
        p'.entry.resource.shares same e.resource = false) : Follows same earlier ⟨p.id, e, false⟩

section
variable (same : String → String → Bool)

/-- The filing of an entry after others: under the first paper with which it shares a field, or
under the next number. -/
def file (filings : List Filing) (e : Entry) : Filing :=
  match (papers filings).find? (·.entry.resource.shares same e.resource) with
  | some p => ⟨p.id, e, false⟩
  | none => ⟨(papers filings).length + 1, e, true⟩

/-- The filings of entries accepted in this order. -/
def ledger (entries : List Entry) : List Filing :=
  entries.foldl (fun filings e => filings ++ [file same filings e]) []

theorem ledger_concat (entries : List Entry) (e : Entry) :
    ledger same (entries ++ [e]) = ledger same entries ++ [file same (ledger same entries) e] := by
  rw [ledger, List.foldl_append]
  rfl

@[simp] theorem entry_file (filings : List Filing) (e : Entry) :
    (file same filings e).entry = e := by
  unfold file
  split <;> rfl

theorem map_entry_ledger (entries : List Entry) :
    (ledger same entries).map (·.entry) = entries := by
  induction entries using List.reverseRecOn with
  | nil => rfl
  | append_singleton entries e ih =>
    rw [ledger_concat, List.map_append, ih, List.map_singleton, entry_file]

theorem length_ledger (entries : List Entry) : (ledger same entries).length = entries.length := by
  have hlength := congrArg List.length (map_entry_ledger same entries)
  rwa [List.length_map] at hlength

theorem entry_mem_of_mem_ledger {entries : List Entry} {f : Filing}
    (h : f ∈ ledger same entries) : f.entry ∈ entries := by
  have hmem : f.entry ∈ (ledger same entries).map (·.entry) := List.mem_map_of_mem h
  rwa [map_entry_ledger] at hmem

theorem mem_of_mem_papers {filings : List Filing} {p : Filing} (h : p ∈ papers filings) :
    p ∈ filings :=
  (List.mem_filter.1 h).1

/-- A ledger depends on nothing but which fields of the entries are the same. -/
theorem ledger_congr {same same' : String → String → Bool} {entries : List Entry}
    (h : ∀ e ∈ entries, ∀ e' ∈ entries, ∀ f,
      same (e.resource.get f) (e'.resource.get f) = same' (e.resource.get f) (e'.resource.get f)) :
    ledger same entries = ledger same' entries := by
  induction entries using List.reverseRecOn with
  | nil => rfl
  | append_singleton entries e ih =>
    have hold := ih fun e he e' he' =>
      h e (List.mem_append_left _ he) e' (List.mem_append_left _ he')
    have hfind : ∀ p ∈ papers (ledger same' entries),
        p.entry.resource.shares same e.resource = p.entry.resource.shares same' e.resource := by
      intro p hp
      have hentry := entry_mem_of_mem_ledger same' (mem_of_mem_papers hp)
      exact Resource.shares_congr
        (h _ (List.mem_append_left _ hentry) e (List.mem_append_right _ List.mem_cons_self))
    rw [ledger_concat, ledger_concat, hold, file, List.find?_congr hfind, file]

/-! ## The numbers of papers -/

theorem papers_concat (filings : List Filing) (f : Filing) :
    papers (filings ++ [f]) = papers filings ++ if f.created then [f] else [] := by
  rw [papers, List.filter_append, List.filter_cons, List.filter_nil, ← papers]

/-- Papers are numbered from one on. -/
theorem ids_papers (entries : List Entry) :
    (papers (ledger same entries)).map (·.id) =
      (List.range (papers (ledger same entries)).length).map fun i : Nat => (i : Int) + 1 := by
  induction entries using List.reverseRecOn with
  | nil => rfl
  | append_singleton entries e ih =>
    rw [ledger_concat, papers_concat, file]
    split
    · simpa using ih
    · simp [List.range_succ, ih]

theorem pairwise_papers (entries : List Entry) :
    (papers (ledger same entries)).Pairwise fun p p' => p.id < p'.id := by
  have hids : ((papers (ledger same entries)).map (·.id)).Pairwise (· < ·) := by
    rw [ids_papers, List.pairwise_map]
    exact List.pairwise_lt_range.imp fun h => by omega
  exact List.pairwise_map.1 hids

theorem id_le_of_mem_papers {entries : List Entry} {p : Filing}
    (hp : p ∈ papers (ledger same entries)) : p.id ≤ (papers (ledger same entries)).length := by
  have hid : p.id ∈ (papers (ledger same entries)).map (·.id) := List.mem_map_of_mem hp
  rw [ids_papers, List.mem_map] at hid
  obtain ⟨i, hi, hid⟩ := hid
  have := List.mem_range.1 hi
  omega

/-! ## The rule -/

theorem follows_file (entries : List Entry) (e : Entry) :
    (file same (ledger same entries) e).Follows same (ledger same entries) := by
  unfold file
  split
  · next p hfind =>
    obtain ⟨hshares, before, after, hpapers, hbefore⟩ := List.find?_eq_some_iff_append.1 hfind
    refine .matched (List.mem_of_find?_eq_some hfind) hshares fun p' hp' hlower => ?_
    have hascend := pairwise_papers same entries
    rw [hpapers, List.pairwise_append, List.pairwise_cons] at hascend
    rw [hpapers, List.mem_append, List.mem_cons] at hp'
    rcases hp' with hp' | rfl | hp'
    · simpa using hbefore p' hp'
    · omega
    · have := hascend.2.1.1 p' hp'
      omega
  · next hfind =>
    refine .created (fun p hp => by simpa using List.find?_eq_none.1 hfind p hp) fun p hp => ?_
    have := id_le_of_mem_papers same hp
    omega

/-- In a ledger every filing follows the rule. -/
theorem follows_ledger {entries : List Entry} {earlier later : List Filing} {f : Filing}
    (h : ledger same entries = earlier ++ f :: later) : f.Follows same earlier := by
  induction entries using List.reverseRecOn generalizing later with
  | nil => simp [ledger] at h
  | append_singleton entries e ih =>
    rw [ledger_concat] at h
    rcases List.eq_nil_or_concat later with rfl | ⟨later, last, rfl⟩
    · obtain ⟨rfl, hf⟩ := List.append_inj' h rfl
      obtain rfl := List.singleton_inj.1 hf
      exact follows_file same entries e
    · rw [List.concat_eq_append, ← List.cons_append, ← List.append_assoc] at h
      exact ih (List.append_inj' h rfl).1

/-! ## Groups of entries -/

theorem mem_papers_of_mem {filings : List Filing} {f : Filing} (h : f ∈ filings)
    (hcreated : f.created = true) : f ∈ papers filings :=
  List.mem_filter.2 ⟨h, hcreated⟩

/-- Every number in a ledger is that of a paper. -/
theorem exists_paper {entries : List Entry} {f : Filing} (h : f ∈ ledger same entries) :
    ∃ p ∈ papers (ledger same entries), p.id = f.id := by
  obtain ⟨earlier, later, hsplit⟩ := List.append_of_mem h
  cases follows_ledger same hsplit with
  | created _ _ => exact ⟨_, mem_papers_of_mem h rfl, rfl⟩
  | matched hp _ _ =>
    refine ⟨_, mem_papers_of_mem ?_ (List.mem_filter.1 hp).2, rfl⟩
    rw [hsplit]
    exact List.mem_append_left _ (mem_of_mem_papers hp)

/-- Whether two filings have the same number just when their entries share a field. -/
def Grouped (f g : Filing) : Prop :=
  f.id = g.id ↔ f.entry.resource.shares same g.entry.resource = true

theorem grouped_symm (hsymm : ∀ a b : Resource, a.shares same b = true → b.shares same a = true) :
    Std.Symm (Grouped same) := by
  refine ⟨fun f g h => ?_⟩
  unfold Grouped at h ⊢
  rw [eq_comm, h]
  exact ⟨hsymm _ _, hsymm _ _⟩

/-- Where sharing a field is symmetric and transitive, entries go to one paper just when they share
a field: whichever entry of a group makes the paper, the others are recognised by it. -/
theorem pairwise_ledger {entries : List Entry}
    (hsymm : ∀ a b : Resource, a.shares same b = true → b.shares same a = true)
    (htrans : ∀ a ∈ entries, ∀ b ∈ entries, ∀ c ∈ entries, a.resource.shares same b.resource = true →
      b.resource.shares same c.resource = true → a.resource.shares same c.resource = true) :
    (ledger same entries).Pairwise (Grouped same) := by
  induction entries using List.reverseRecOn with
  | nil => exact List.Pairwise.nil
  | append_singleton entries e ih =>
    have hsym := grouped_symm same hsymm
    have hold := ih fun a ha b hb c hc => htrans a (List.mem_append_left _ ha) b
      (List.mem_append_left _ hb) c (List.mem_append_left _ hc)
    have hentry : ∀ f ∈ ledger same entries, f.entry ∈ entries ++ [e] :=
      fun f hf => List.mem_append_left _ (entry_mem_of_mem_ledger same hf)
    have he : e ∈ entries ++ [e] := List.mem_append_right _ (List.mem_singleton_self e)
    -- what an older paper shares with the entry, the other filings under its number share too
    have hgroup : ∀ f ∈ ledger same entries, ∀ g ∈ ledger same entries, f.id = g.id →
        g.entry.resource.shares same e.resource = true →
          f.entry.resource.shares same e.resource = true := by
      intro f hf g hg hid hge
      rcases eq_or_ne f g with rfl | hne
      · exact hge
      · exact htrans _ (hentry f hf) _ (hentry g hg) e he ((hold.forall hf hg hne).1 hid) hge
    rw [ledger_concat, List.pairwise_append]
    refine ⟨hold, List.pairwise_singleton _ _, fun f hf g hg => ?_⟩
    obtain rfl := List.mem_singleton.1 hg
    unfold Grouped file
    split
    · next p hfind =>
      have hp := mem_of_mem_papers (List.mem_of_find?_eq_some hfind)
      have hpe : p.entry.resource.shares same e.resource = true := by
        simpa using List.find?_some hfind
      refine ⟨fun hid => hgroup f hf p hp hid hpe, fun hfe => ?_⟩
      have hfp := htrans _ (hentry f hf) e he _ (hentry p hp) hfe (hsymm _ _ hpe)
      rcases eq_or_ne f p with rfl | hne
      · rfl
      · exact (hold.forall hf hp hne).2 hfp
    · next hfind =>
      obtain ⟨p, hp, hid⟩ := exists_paper same hf
      refine iff_of_false (fun hnew => ?_) fun hfe => ?_
      · have hle := id_le_of_mem_papers same hp
        have hnext : f.id = (papers (ledger same entries)).length + 1 := hnew
        omega
      · exact List.find?_eq_none.1 hfind p hp (hgroup p (mem_of_mem_papers hp) f hf hid hfe)

/-- A filing depends on the entries before it only. -/
theorem getElem_ledger {entries : List Entry} {i : Nat} (hi : i < entries.length)
    (h : i < (ledger same entries).length) :
    (ledger same entries)[i] = file same (ledger same (entries.take i)) entries[i] := by
  induction entries using List.reverseRecOn with
  | nil => cases hi
  | append_singleton entries e ih =>
    have hlength := length_ledger same entries
    simp only [ledger_concat]
    rw [List.length_append, List.length_singleton] at hi
    rcases Nat.lt_succ_iff_lt_or_eq.1 hi with hlt | rfl
    · rw [List.getElem_append_left (by omega), List.getElem_append_left hlt,
        List.take_append_of_le_length (le_of_lt hlt), ih hlt]
    · rw [List.getElem_append_right (by omega), List.getElem_append_right (le_refl _),
        List.take_left]
      simp [hlength]

end

end PaperTrail
