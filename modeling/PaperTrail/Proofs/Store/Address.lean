import PaperTrail.CommandLine.Shell
import PaperTrail.Proofs.Files
import PaperTrail.Proofs.Url.Form

/-!
# The file of an address

An address is read twice: once for the directory that is created first, and once more, from its text,
for the file that is opened. The second reading takes off every scheme at the start, and takes the path
for an escaped one.

* `dropStarts_text`, `cutOptions_behindScheme` : the second reading finds the path and the options of
  the address again;
* `StorePlace.Unmistakable` : the paths for which this is so;
* `StorePlace.ofText?_file` : the place of an address;
* `FileTree.run_openStore?` : a store is opened among the files with the directory of its path;
* `StoreAddress.opens_behind_directory` : for a path without escapes this is the directory of the file
  that is opened; `not_behind_directory` : for others it need not be.
-/

namespace PaperTrail

namespace StoreAddress
variable {path : String}

theorem cutOptions_of_not_mem (h : '?' ∉ path.toList) : cutOptions path = (path, none) := by
  have hcut : Text.cut? '?' path = none := by
    rw [Text.cut?, Text.cutChars?_eq_none_iff.2 h]
    rfl
  rw [cutOptions, hcut]

theorem cutOptions_append (h : '?' ∉ path.toList) (options : String) :
    cutOptions (path ++ "?" ++ options) = (path, some options) := by
  have hcut : Text.cut? '?' (path ++ "?" ++ options) = some (path, options) :=
    Text.cut?_eq_some_iff.2 ⟨rfl, h⟩
  rw [cutOptions, hcut]

def behindScheme (path : String) : Option String → String
  | none => path
  | some options => path ++ "?" ++ options

theorem text_file (path : String) (options? : Option String) :
    (file path options?).text = addressScheme ++ "//" ++ behindScheme path options? := by
  cases options? with
  | none => rfl
  | some options => simp only [text, behindScheme, String.append_assoc]

theorem cutOptions_behindScheme (h : '?' ∉ path.toList) (options? : Option String) :
    cutOptions (behindScheme path options?) = (path, options?) := by
  cases options? with
  | none => exact cutOptions_of_not_mem h
  | some options => exact cutOptions_append h options

theorem not_prefix_behindScheme (h : ¬ addressScheme.toList <+: path.toList)
    (options? : Option String) : ¬ addressScheme.toList <+: (behindScheme path options?).toList := by
  cases options? with
  | none => exact h
  | some options =>
    intro hprefix
    rw [behindScheme, String.append_assoc, String.toList_append, String.toList_append] at hprefix
    exact h (Text.prefix_of_prefix_append (by decide) hprefix)

theorem dropStarts_text (h : ¬ addressScheme.toList <+: path.toList) (options? : Option String) :
    Text.dropStarts 's' "qlite:".toList
        (Text.dropStarts 's' "qlite://".toList (file path options?).text.toList) =
      (behindScheme path options?).toList := by
  have hscheme : addressScheme.toList = 's' :: "qlite:".toList := by decide
  have hrest := not_prefix_behindScheme h options?
  rw [hscheme] at hrest
  have htext : (file path options?).text.toList =
      's' :: "qlite://".toList ++ (behindScheme path options?).toList := by
    rw [text_file, String.toList_append]
    rfl
  have hslashes : ¬ 's' :: "qlite://".toList <+: (behindScheme path options?).toList := fun hprefix =>
    hrest (List.IsPrefix.trans ⟨"//".toList, by decide⟩ hprefix)
  rw [htext, Text.dropStarts_append, Text.dropStarts_of_not_prefix hslashes,
    Text.dropStarts_of_not_prefix hrest]

end StoreAddress

namespace StorePlace

/-- A path that is not taken for something else where files are opened: there are no options in it,
no scheme stands at its start, also not in front of the name that it is the escaped form of, and it is
not the name of a store in memory. -/
structure Unmistakable (path : String) : Prop where
  question : '?' ∉ path.toList
  scheme : ¬ addressScheme.toList <+: path.toList
  memory : path ≠ memoryName
  file : ∀ name, Percent.decode? path = some name → Text.startsWith "file:" name = false

/-- What opens a file takes the path in its address as an escaped one. -/
theorem ofText?_file {path : String} (h : Unmistakable path) (options? : Option String) :
    ofText? (StoreAddress.file path options?).text =
      (Percent.decode? path).bind fun name =>
        (StoreOptions.default.read? (options?.getD "")).bind fun o =>
          if name.toList.any fun c => c.toNat = 0 then none else ofName? name o := by
  simp only [ofText?, StoreAddress.dropStarts_text h.scheme, String.ofList_toList,
    StoreAddress.cutOptions_behindScheme h.question, Option.bind_eq_bind, if_neg h.memory]
  refine Option.bind_congr fun name hname => ?_
  have hnone : Text.dropStart? "file:" name = none := by
    simpa [Text.startsWith, Text.dropStart?] using h.file name hname
  rw [hnone]

theorem ofName?_eq_file {name n : String} {o : StoreOptions} {access : FileAccess}
    (h : ofName? name o = some (file n access)) : n = name := by
  unfold ofName? at h
  split at h
  · cases h
  · split at h
    · split at h <;> cases h
    · split at h
      · cases h
        rfl
      · cases h
        rfl

theorem ofName?_default {name : String} (hne : name ≠ "") (hmemory : name ≠ memoryName) :
    ofName? name .default = some (file name .readWrite) := by
  simp [ofName?, StoreOptions.default, StoreOptions.isSupported, hne, hmemory]

theorem decode?_of_ofText?_file {path name : String} (h : Unmistakable path)
    {options? : Option String} {access : FileAccess}
    (hplace : ofText? (StoreAddress.file path options?).text = some (file name access)) :
    Percent.decode? path = some name := by
  rw [ofText?_file h] at hplace
  obtain ⟨n, hn, hplace⟩ := Option.bind_eq_some_iff.1 hplace
  obtain ⟨o, -, hplace⟩ := Option.bind_eq_some_iff.1 hplace
  split at hplace
  · cases hplace
  · rw [hn, ofName?_eq_file hplace]

/-- A path without escapes and without options leads to the file of its name. -/
theorem ofText?_plain {path : String} (h : Unmistakable path) (hpercent : '%' ∉ path.toList)
    (hrel : Path.isRelative path = true) :
    ofText? (StoreAddress.file path none).text = some (file path .readWrite) := by
  have hread : StoreOptions.default.read? "" = some .default := by decide +kernel
  have hne : path ≠ "" := by
    rintro rfl
    cases hrel
  have hzero : ¬ (path.toList.any fun c => c.toNat = 0) = true := by
    unfold Path.isRelative at hrel
    split at hrel
    · cases hrel
    · cases hrel
    · simpa using hrel
  rw [ofText?_file h, Percent.decode?_of_not_mem hpercent, Option.bind_some, Option.getD_none, hread,
    Option.bind_some, if_neg hzero, ofName?_default hne h.memory]

end StorePlace

/-! ## Opening a store -/

def Path.directory? (path : String) : Option String :=
  if (parent path).isEmpty then none else some (parent path)

namespace FileTree
variable {t : FileTree} {name : String}

/-- The files after the directory of a path has been created, as far as that is possible. -/
def prepared (t : FileTree) (path : String) : FileTree := (t.makeDirectories (Path.parent path)).1

theorem openStore?_of_missing (hleads : t.locate name ≠ none) (hmissing : t.contains name = false)
    (hname : canCreate name = true) :
    (t.openStore? (.file name .readWrite)).2 = some Database.empty := by
  unfold contains at hmissing
  unfold openStore?
  cases hstep : t.locate name with
  | none => exact absurd hstep hleads
  | some step =>
    rw [hstep] at hmissing
    cases step with
    | directory l => cases hmissing
    | file p => cases hmissing
    | missing p => simp [hstep, hname]

/-- A store is opened among the files with the directory of its path. -/
theorem run_openStore? (send : Request → StateM FileTree Exchange) (env : Environment)
    {s path : String} {options? : Option String} {place : StorePlace}
    (hs : StoreAddress.ofText env.home? s = .file path options?)
    (hplace : StorePlace.ofText? (StoreAddress.file path options?).text = some place) :
    (((shell send).openStore? env s).run t).1 =
      ((t.prepared path).openStore? place).2.map fun db => (place, Store.ofDatabase db) := by
  have hprepared : (StoreAddress.file path options?).directory? = none → t.prepared path = t := by
    intro hnone
    have hempty : (Path.parent path).isEmpty = true := by
      simpa [StoreAddress.directory?] using hnone
    rw [prepared, makeDirectories, if_pos hempty]
  simp only [Shell.openStore?, hs]
  cases hdirectory : (StoreAddress.file path options?).directory? with
  | none =>
    simp only [hplace, StateT.run_bind]
    rw [hprepared hdirectory]
    rfl
  | some directory =>
    have hparent : directory = Path.parent path := by
      simp only [StoreAddress.directory?] at hdirectory
      split at hdirectory <;> cases hdirectory
      rfl
    simp only [hplace, StateT.run_bind]
    subst hparent
    rfl

end FileTree

namespace StoreAddress

/-- The file of a store that is opened by a path or an address has the path in it, read as an escaped
one, as its name. The directory that is created first is that of the path as it is written. So for a
path without escapes it is the directory of this very file: a directory that is missing does not keep
a store from being opened. -/
theorem opens_behind_directory {home? : Option String} {s path : String} {options? : Option String}
    (hs : ofText home? s = .file path options?) (hpath : StorePlace.Unmistakable path) :
    (∀ name access, StorePlace.ofText? (ofText home? s).text = some (.file name access) →
        Percent.decode? path = some name) ∧
      (ofText home? s).directory? = Path.directory? path ∧
      ('%' ∉ path.toList →
        (∀ name access, StorePlace.ofText? (ofText home? s).text = some (.file name access) →
          (ofText home? s).directory? = Path.directory? name) ∧
        (options? = none → Path.isRelative path = true →
          StorePlace.ofText? (ofText home? s).text = some (.file path .readWrite)) ∧
        ∀ (send : Request → StateM FileTree Exchange) (database? : Option String) (t : FileTree),
          StorePlace.ofText? (ofText home? s).text = some (.file path .readWrite) →
          Path.isRelative path = true → Path.endsInName path = true →
          FileTree.canCreate path = true → (t.makeDirectories (Path.parent path)).2 = none →
          (t.prepared path).contains path = false →
            (((FileTree.shell send).openStore? ⟨home?, database?⟩ s).run t).1 =
              some (.file path .readWrite, Store.ofDatabase Database.empty)) := by
  rw [hs]
  refine ⟨fun name access => StorePlace.decode?_of_ofText?_file hpath, rfl,
    fun hpercent => ⟨?_, ?_, ?_⟩⟩
  · intro name access hplace
    have hname := StorePlace.decode?_of_ofText?_file hpath hplace
    rw [Percent.decode?_of_not_mem hpercent] at hname
    rw [← Option.some.inj hname]
    rfl
  · rintro rfl hrel
    exact StorePlace.ofText?_plain hpath hpercent hrel
  · intro send database? t hplace hrel hname hcreate hmade hmissing
    have hleads : (t.prepared path).locate path ≠ none :=
      FileTree.locate_of_makeDirectories hrel hname hmade
    rw [FileTree.run_openStore? send ⟨home?, database?⟩ hs hplace,
      FileTree.openStore?_of_missing hleads hmissing hcreate, Option.map_some]

theorem opens_behind_directory_home :
    let s := "sqlite://~/reviews/slr.db?mode=rwc"
    let path := "data/me/reviews/slr.db"
    let home? := some "data/me/"
    ofText home? s = .file path (some "mode=rwc") ∧ StorePlace.Unmistakable path ∧
      '%' ∉ path.toList ∧ (ofText home? s).directory? = some "data/me/reviews" ∧
      ∀ send, (((FileTree.shell send).openStore? ⟨home?, none⟩ s).run FileTree.empty).1 =
        some (.file path .readWrite, Store.ofDatabase Database.empty) := by
  intro s path home?
  have hs : ofText home? s = .file path (some "mode=rwc") := by decide +kernel
  have hpercent : '%' ∉ path.toList := by decide +kernel
  have hpath : StorePlace.Unmistakable path := by
    refine ⟨by decide +kernel, by decide +kernel, by decide +kernel, fun name hname => ?_⟩
    rw [Percent.decode?_of_not_mem hpercent] at hname
    rw [← Option.some.inj hname]
    decide +kernel
  have hplace : StorePlace.ofText? (ofText home? s).text = some (.file path .readWrite) := by
    decide +kernel
  obtain ⟨-, hdirectory, hplain⟩ := opens_behind_directory hs hpath
  obtain ⟨-, -, hopens⟩ := hplain hpercent
  refine ⟨hs, hpath, hpercent, hdirectory.trans (by decide +kernel), fun send => ?_⟩
  exact hopens send none FileTree.empty hplace (by decide +kernel) (by decide +kernel)
    (by decide +kernel) (by decide +kernel) (by decide +kernel)

/-- The directory of an escaped path is not the one that the file is in, and a directory that is
missing does keep the store from being opened. -/
theorem not_behind_directory : ∃ s path name : String, ofText none s = .file path none ∧
    StorePlace.ofText? (ofText none s).text = some (.file name .readWrite) ∧
    (ofText none s).directory? ≠ Path.directory? name ∧ Path.isRelative name = true ∧
    Path.endsInName name = true ∧ FileTree.canCreate name = true ∧
    (FileTree.empty.makeDirectories (Path.parent name)).2 = none ∧
    (FileTree.empty.prepared name).contains name = false ∧
    ∀ send, (((FileTree.shell send).openStore? ⟨none, none⟩ s).run FileTree.empty).1 = none := by
  have hs : ofText none "sqlite://d%20b/c.db" = .file "d%20b/c.db" none := by decide +kernel
  have hplace : StorePlace.ofText? (StoreAddress.file "d%20b/c.db" none).text =
      some (.file "d b/c.db" .readWrite) := by decide +kernel
  refine ⟨"sqlite://d%20b/c.db", "d%20b/c.db", "d b/c.db", hs, by rw [hs, hplace], by decide +kernel,
    by decide +kernel, by decide +kernel, by decide +kernel, by decide +kernel, by decide +kernel,
    fun send => ?_⟩
  have hnone : ((FileTree.empty.prepared "d%20b/c.db").openStore?
      (.file "d b/c.db" .readWrite)).2.isNone = true := by decide +kernel
  rw [FileTree.run_openStore? send ⟨none, none⟩ hs hplace, Option.isNone_iff_eq_none.1 hnone,
    Option.map_none]

end StoreAddress

end PaperTrail
