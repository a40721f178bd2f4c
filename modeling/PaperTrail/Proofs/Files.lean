import PaperTrail.Files
import PaperTrail.Proofs.Dictionary
import PaperTrail.Proofs.Text.Split

/-!
# Directories that have been created

Once the directory that should hold a file has been created, the path of the file leads somewhere:
`locate_of_makeDirectories`.

* `FileTree.Keeps` : every directory that could be entered before can be entered still, which creating
  directories never spoils (`keeps_makeAll`);
* `follow_makeAll` : the names that have been gone through lead to a directory;
* `follow_filter_iff` : the parts of a path without meaning lead nowhere else, so it does not matter
  that the path of the holding directory is written without them;
* `Path.holders`, `Path.components_parent` : the names that the path of the holding directory is joined
  from are those it is cut into.
-/

namespace PaperTrail

namespace FileTree
variable {t t' : FileTree} {l l' : Location} {name : String} {names : List String}

/-! ## Following names -/

theorem follow_cons_iff : t.follow l (name :: names) = some (.directory l') ↔
    ∃ l₁, t.step l name = .directory l₁ ∧ t.follow l₁ names = some (.directory l') := by
  cases names with
  | nil =>
    simp only [follow, Option.some.injEq]
    constructor
    · exact fun h => ⟨l', h, rfl⟩
    · rintro ⟨l₁, h, ⟨⟩⟩
      exact h
  | cons name' names =>
    rw [follow]
    · split
      · next l₁ hstep =>
        rw [hstep]
        constructor
        · exact fun h => ⟨l₁, rfl, h⟩
        · rintro ⟨l₂, ⟨⟩, h⟩
          exact h
      · next hstep =>
        refine iff_of_false nofun ?_
        rintro ⟨l₁, h, -⟩
        exact hstep l₁ h
    · exact nofun

/-- A path whose last part is looked for in a directory leads somewhere. -/
theorem follow_concat (h : t.follow l names = some (.directory l')) (last : String) :
    t.follow l (names ++ [last]) = some (t.step l' last) := by
  induction names generalizing l with
  | nil =>
    obtain ⟨⟩ := h
    rfl
  | cons name names ih =>
    obtain ⟨l₁, hstep, hrest⟩ := follow_cons_iff.1 h
    rw [List.cons_append, follow, hstep]
    · exact ih hrest
    · simp

theorem step_of_not_meaningful (h : Path.isMeaningful name = false) :
    t.step l name = .directory l := by
  have hname : name = "" ∨ name = "." := by
    rcases Bool.eq_false_or_eq_true (name == ".") with hdot | hdot
    · exact Or.inr (beq_iff_eq.1 hdot)
    · exact Or.inl (by simpa [Path.isMeaningful, bne, hdot] using h)
  exact if_pos hname

/-- Parts without meaning do not change where names lead. -/
theorem follow_filter_iff : t.follow l (names.filter Path.isMeaningful) = some (.directory l') ↔
    t.follow l names = some (.directory l') := by
  induction names generalizing l with
  | nil => exact Iff.rfl
  | cons name names ih =>
    rw [List.filter_cons, follow_cons_iff]
    split
    · rw [follow_cons_iff]
      exact exists_congr fun _ => and_congr_right fun _ => ih
    · next hname =>
      rw [step_of_not_meaningful (Bool.eq_false_iff.2 hname), ih]
      constructor
      · exact fun h => ⟨l, rfl, h⟩
      · rintro ⟨_, ⟨⟩, h⟩
        exact h

/-! ## Creating directories -/

/-- Every directory that a name leads to in `t`, it leads to in `t'`. -/
def Keeps (t t' : FileTree) : Prop :=
  ∀ l name l', t.step l name = .directory l' → t'.step l name = .directory l'

theorem Keeps.refl (t : FileTree) : Keeps t t := fun _ _ _ h => h

theorem Keeps.trans {t₁ t₂ t₃ : FileTree} (h : Keeps t₁ t₂) (h' : Keeps t₂ t₃) : Keeps t₁ t₃ :=
  fun l name l' hstep => h' l name l' (h l name l' hstep)

theorem contains_put (t : FileTree) (path p : String) (n : FileNode) :
    (t.put path n).nodes.contains p = (decide (p = path) || t.nodes.contains p) :=
  Dictionary.contains_insert ..

theorem keeps_put (t : FileTree) (path : String) (n : FileNode) : Keeps t (t.put path n) := by
  intro l name l' h
  unfold step at h ⊢
  split at h
  · next hself => rwa [if_pos hself]
  · next hself =>
    rw [if_neg hself]
    split at h
    · next hup => rwa [if_pos hup]
    · next hup =>
      rw [if_neg hup]
      split at h
      · next hdir => rwa [if_pos (by rw [contains_put, hdir, Bool.or_true])]
      · split at h <;> cases h

theorem step_put_directory {path : String} (h : t.step l name = .missing path) :
    (t.put (pathOf (name :: l)) .directory).step l name = .directory (name :: l) := by
  unfold step at h ⊢
  split at h
  · cases h
  · next hself =>
    rw [if_neg hself]
    split at h
    · cases h
    · next hup =>
      rw [if_neg hup, if_pos (by rw [contains_put, decide_eq_true rfl, Bool.true_or])]

theorem keeps_makeAll (t : FileTree) (l : Location) (made : Bool) (names : List String) :
    Keeps t (t.makeAll l made names).1 := by
  induction names generalizing t l made with
  | nil => exact Keeps.refl t
  | cons name names ih =>
    rw [makeAll]
    split
    · exact ih t _ made
    · exact Keeps.refl t
    · split
      · exact (keeps_put t _ _).trans (ih _ _ true)
      · exact Keeps.refl t

/-- Names that have been gone through without an error lead to a directory. -/
theorem follow_makeAll {made : Bool} (h : (t.makeAll l made names).2 = none) :
    ∃ l', (t.makeAll l made names).1.follow l names = some (.directory l') := by
  induction names generalizing t l made with
  | nil => exact ⟨l, rfl⟩
  | cons name names ih =>
    rw [makeAll] at h ⊢
    split at h
    · next l₁ hstep =>
      obtain ⟨l', hrest⟩ := ih h
      exact ⟨l', follow_cons_iff.2 ⟨l₁, keeps_makeAll t l₁ made names l name l₁ hstep, hrest⟩⟩
    · cases h
    · next path hstep =>
      split at h
      · next hname =>
        obtain ⟨l', hrest⟩ := ih h
        rw [if_pos hname]
        exact ⟨l', follow_cons_iff.2 ⟨name :: l,
          keeps_makeAll _ _ true names l name _ (step_put_directory hstep), hrest⟩⟩
      · cases h

end FileTree

/-! ## The directory of a file -/

namespace Path
variable {path : String}

def endsInName (path : String) : Bool := isMeaningful ((components path).getLast?.getD "")

/-- The names that lead to the directory that holds a file. -/
def holders (path : String) : List String :=
  start path ++ ((components path).filter isMeaningful).dropLast

theorem filter_start (path : String) : (start path).filter isMeaningful = [] := by
  unfold start
  split <;> rfl

theorem exists_components (h : endsInName path = true) : ∃ init last,
    components path = init ++ [last] ∧ holders path = start path ++ init.filter isMeaningful := by
  obtain ⟨init, last, hsplit⟩ : ∃ init last, components path = init ++ [last] := by
    refine ⟨_, _, (List.dropLast_append_getLast (l := components path) ?_).symm⟩
    simp [components, Text.split, Text.splitChars_ne_nil]
  have hlast : isMeaningful last = true := by simpa [endsInName, hsplit] using h
  refine ⟨init, last, hsplit, ?_⟩
  rw [holders, hsplit, List.filter_append, List.filter_cons_of_pos hlast, List.filter_nil,
    List.dropLast_concat]

theorem slash_not_mem_of_mem_holders {name : String} (h : name ∈ holders path) :
    '/' ∉ name.toList := by
  rcases List.mem_append.1 h with h | h
  · unfold start at h
    split at h <;> simp_all
  · exact Text.not_mem_of_mem_split (List.mem_of_mem_filter (List.dropLast_subset _ h))

/-- The path of a directory is cut into the names it was joined from. -/
theorem components_parent {front : List String} {last : String} (h : holders path = front ++ [last])
    (hlast : last ≠ "") : (parent path).isEmpty = false ∧
      components (Text.dropTrailing '/' (parent path)) = holders path := by
  rw [h]
  have hslash : ∀ p ∈ front ++ [last], '/' ∉ p.toList := fun p hp =>
    slash_not_mem_of_mem_holders (h ▸ hp)
  have hparent : parent path = '/'.toString.intercalate (front ++ [last]) := by
    rw [← h]
    rfl
  have hchars : last.toList ≠ [] := fun hnil => hlast (String.toList_inj.1 hnil)
  obtain ⟨before, hends⟩ : ∃ before, (parent path).toList = before ++ last.toList := by
    obtain ⟨before, hends⟩ :=
      Text.exists_intercalate_concat ['/'] (front.map String.toList) last.toList
    refine ⟨before, ?_⟩
    rw [hparent, ← hends]
    simp [String.toList_intercalate]
  have hkept : Text.dropTrailing '/' (parent path) = parent path := by
    refine Text.dropTrailing_eq_self fun c hc => ?_
    rintro rfl
    rw [hends, List.getLast?_append_of_ne_nil _ hchars] at hc
    exact hslash last (by simp) (List.mem_of_mem_getLast? hc)
  constructor
  · rw [String.isEmpty_eq_false_iff]
    rintro hempty
    simp [hempty, hchars] at hends
  · rw [hkept, hparent, components, Text.split_intercalate (by simp) hslash]

end Path

namespace FileTree
variable {t : FileTree} {path : String}

theorem makeDirectories_of_none (hne : path.isEmpty = false) (h : (t.makeDirectories path).2 = none) :
    t.makeDirectories path = t.makeAll [] false (Path.components (Text.dropTrailing '/' path)) := by
  unfold makeDirectories at h ⊢
  rw [if_neg (by simp [hne])] at h ⊢
  split at h
  · cases h
  · next hzero =>
    rw [if_neg hzero]
    split at h
    · next hrel => rw [if_pos hrel]
    · cases h

/-- When the directory that holds a file has been created, the path of the file leads somewhere: to
the file, or to where it is missing. -/
theorem locate_of_makeDirectories (hrel : Path.isRelative path = true)
    (hname : Path.endsInName path = true) (h : (t.makeDirectories (Path.parent path)).2 = none) :
    (t.makeDirectories (Path.parent path)).1.locate path ≠ none := by
  obtain ⟨init, last, hsplit, hholders⟩ := Path.exists_components hname
  obtain ⟨l, hfollow⟩ : ∃ l, (t.makeDirectories (Path.parent path)).1.follow []
      (init.filter Path.isMeaningful) = some (.directory l) := by
    rcases List.eq_nil_or_concat (init.filter Path.isMeaningful) with hnil | ⟨front, holder, hconcat⟩
    · rw [hnil]
      exact ⟨[], rfl⟩
    · have hmem : holder ∈ init.filter Path.isMeaningful := by simp [hconcat]
      have hholder : holder ≠ "" := by
        rintro rfl
        exact absurd (List.of_mem_filter hmem) (by decide)
      have hends : Path.holders path = Path.start path ++ front ++ [holder] := by
        rw [hholders, hconcat, List.concat_eq_append, List.append_assoc]
      obtain ⟨hne, hparts⟩ := Path.components_parent hends hholder
      have hall := makeDirectories_of_none hne h
      rw [hall, hparts] at h ⊢
      obtain ⟨l, hl⟩ := follow_makeAll h
      refine ⟨l, follow_filter_iff.1 ?_⟩
      have hmeaningful : (Path.holders path).filter Path.isMeaningful =
          (init.filter Path.isMeaningful).filter Path.isMeaningful := by
        rw [hholders, List.filter_append, Path.filter_start, List.nil_append]
      rw [← hmeaningful]
      exact follow_filter_iff.2 hl
  rw [locate, if_pos hrel, hsplit, follow_concat (follow_filter_iff.1 hfollow)]
  exact Option.some_ne_none _

end FileTree

end PaperTrail
