import PaperTrail.Proofs.Url.Form
import PaperTrail.Url.Parser

/-!
# URLs of the web

The URL of a text with a web scheme names a host, and its path has at least one segment
(`parse_web`): the parser refuses an empty host (`Host.parse_ne_empty`), and every path begins with a
slash. No segment has a slash in it, since a path is cut at its slashes and no escape makes a new one
(`clean_pathSegments`).
-/

namespace PaperTrail

theorem Percent.mem_of_mem_encodeChars {keep : Char → Bool} {c : Char} {cs : List Char}
    (hkept : Form.isKept c = false) (hpercent : c ≠ '%') (h : c ∈ encodeChars keep cs) : c ∈ cs := by
  obtain ⟨x, hx, hc⟩ := List.mem_flatMap.1 h
  split at hc
  · obtain rfl := List.mem_singleton.1 hc
    exact hx
  · obtain ⟨b, -, hb⟩ := List.mem_flatMap.1 hc
    rcases Form.isKept_or_of_mem_escape hb with hc | hc
    · rw [hkept] at hc
      cases hc
    · exact absurd hc hpercent

/-! ## Hosts -/

namespace Host

theorem ipv4Text_ne_empty (n : Nat) : ipv4Text n ≠ "" := by
  intro h
  have hpoint : '.' ∈ (ipv4Text n).toList := by
    simp [ipv4Text]
  rw [h] at hpoint
  cases hpoint

theorem parseIpv4_ne_empty {cs : List Char} {host : String} (h : parseIpv4 cs = .ok host) :
    host ≠ "" := by
  unfold parseIpv4 at h
  dsimp only at h
  split at h
  · cases h
  · split at h
    · cases h
    · split at h
      · cases h
      · obtain rfl := Except.ok.inj h
        exact ipv4Text_ne_empty _

theorem parseDomain_ne_empty {cs : List Char} {host : String} (h : parseDomain cs = .ok host) :
    host ≠ "" := by
  unfold parseDomain at h
  split at h
  · cases h
  · next s _ =>
    dsimp only at h
    split at h
    · cases h
    · split at h
      · cases h
      · next hempty =>
        split at h
        · exact parseIpv4_ne_empty h
        · obtain rfl := Except.ok.inj h
          rintro rfl
          exact hempty rfl

theorem parseIpv6_ne_empty {cs : List Char} {host : String} (h : parseIpv6 cs = .ok host) :
    host ≠ "" := by
  unfold parseIpv6 at h
  split at h
  · cases h
  · split at h
    · obtain rfl := Except.ok.inj h
      intro hempty
      simpa using congrArg String.toList hempty
    · cases h

theorem parse_ne_empty {cs : List Char} {host : String} (h : parse cs = .ok host) : host ≠ "" := by
  unfold parse at h
  split at h
  · exact parseIpv6_ne_empty h
  · exact parseDomain_ne_empty h

end Host

namespace Url

/-! ## Segments -/

/-- Segments without a slash in them. -/
def Clean (ss : List String) : Prop := ∀ s ∈ ss, '/' ∉ s.toList

theorem Clean.append {a b : List String} (ha : Clean a) (hb : Clean b) : Clean (a ++ b) := by
  intro s hs
  rcases List.mem_append.1 hs with hs | hs
  · exact ha s hs
  · exact hb s hs

theorem Clean.dropLast {ss : List String} (h : Clean ss) : Clean ss.dropLast :=
  fun s hs => h s (List.dropLast_subset ss hs)

theorem clean_singleton {s : String} (h : '/' ∉ s.toList) : Clean [s] := by
  intro x hx
  rwa [List.mem_singleton.1 hx]

theorem clean_encoded {part : List Char} (h : '/' ∉ part) :
    Clean [String.ofList (Percent.encodeChars Percent.keptPath part)] := by
  refine clean_singleton fun hmem => h ?_
  rw [String.toList_ofList] at hmem
  exact Percent.mem_of_mem_encodeChars (by decide) (by decide) hmem

theorem clean_addSegments {path : List String} {parts : List (List Char)} (hpath : Clean path)
    (hne : parts ≠ []) (hparts : ∀ p ∈ parts, '/' ∉ p) :
    addSegments path parts ≠ [] ∧ Clean (addSegments path parts) := by
  have hempty : Clean [""] := clean_singleton (by simp)
  fun_induction addSegments path parts with
  | case1 => exact absurd rfl hne
  | case2 path p hdouble => exact ⟨by simp, hpath.dropLast.append hempty⟩
  | case3 path p _ hsingle => exact ⟨by simp, hpath.append hempty⟩
  | case4 path p => exact ⟨by simp, hpath.append (clean_encoded (hparts p List.mem_cons_self))⟩
  | case5 path p q rest hdouble ih =>
    exact ih hpath.dropLast (by simp) (List.forall_mem_cons.1 hparts).2
  | case6 path p q rest _ hsingle ih => exact ih hpath (by simp) (List.forall_mem_cons.1 hparts).2
  | case7 path p q rest _ _ ih =>
    obtain ⟨hp, hrest⟩ := List.forall_mem_cons.1 hparts
    exact ih (hpath.append (clean_encoded hp)) (by simp) hrest

/-- The path of a special scheme has a segment, and no segment has a slash. -/
theorem clean_pathSegments (cs : List Char) :
    pathSegments true cs ≠ [] ∧ Clean (pathSegments true cs) := by
  have hparts : ∀ cs, addSegments [] (Text.splitChars '/' cs) ≠ [] ∧
      Clean (addSegments [] (Text.splitChars '/' cs)) := fun cs =>
    clean_addSegments nofun (Text.splitChars_ne_nil '/' cs) fun _ => Text.not_mem_of_mem_splitChars
  unfold pathSegments
  dsimp only
  split
  · exact ⟨by simp, clean_singleton (by simp)⟩
  · exact hparts _
  · exact hparts _

/-! ## Web schemes -/

theorem host_of_authority {scheme : String} {atEnd : Bool} {cs : List Char} {a : Authority}
    (hspecial : isSpecial scheme = true) (h : authority scheme atEnd cs = .ok a) : a.host ≠ "" := by
  unfold authority at h
  simp only [hspecial, if_true, bind, Except.bind, pure, Except.pure] at h
  split at h
  · cases h
  · split at h
    · cases h
    · next host hhost =>
      split at h
      · cases h
      · obtain rfl := Except.ok.inj h
        exact Host.parse_ne_empty hhost

/-- What a text with a web scheme is read as. -/
theorem withAuthority_of_special {scheme : String} {cs : List Char} {u : Url}
    (hspecial : isSpecial scheme = true) (h : withAuthority scheme cs = .ok u) :
    u.hasHost = true ∧ ∃ ss, u.path = .segments ss ∧ ss ≠ [] ∧ Clean ss := by
  unfold withAuthority at h
  simp only [bind, Except.bind, pure, Except.pure] at h
  split at h
  · cases h
  · next a ha =>
    obtain rfl := Except.ok.inj h
    have hhost := host_of_authority hspecial ha
    refine ⟨?_, _, rfl, ?_⟩
    · simpa [hasHost, assemble] using hhost
    · rw [hspecial]
      exact clean_pathSegments _

theorem scheme_of_fileUrl {cs : List Char} {u : Url} (h : fileUrl cs = .ok u) : u.scheme = "file" := by
  unfold fileUrl at h
  simp only [bind, Except.bind, pure, Except.pure] at h
  split at h
  · split at h
    · obtain rfl := Except.ok.inj h
      rfl
    · split at h
      · cases h
      · obtain rfl := Except.ok.inj h
        rfl
  · obtain rfl := Except.ok.inj h
    rfl

theorem scheme_of_withAuthority {scheme : String} {cs : List Char} {u : Url}
    (h : withAuthority scheme cs = .ok u) : u.scheme = scheme := by
  unfold withAuthority at h
  simp only [bind, Except.bind, pure, Except.pure] at h
  split at h
  · cases h
  · obtain rfl := Except.ok.inj h
    rfl

/-- The URL of a text with a web scheme names a host and has a path of segments. -/
theorem parse_web {s : String} {u : Url} (h : parse s = .ok u)
    (hweb : u.scheme = "http" ∨ u.scheme = "https") :
    u.hasHost = true ∧ ∃ ss, u.path = .segments ss ∧ ss ≠ [] ∧ Clean ss := by
  have hspecial : isSpecial u.scheme = true := by rcases hweb with h | h <;> rw [h] <;> decide
  unfold parse at h
  split at h
  · cases h
  · next scheme cs _ =>
    split at h
    · rw [scheme_of_fileUrl h] at hweb
      exact absurd hweb (by decide)
    · split at h
      · next hs => exact withAuthority_of_special hs h
      · next hs =>
        have hscheme : u.scheme = scheme := by
          split at h
          · exact scheme_of_withAuthority h
          · obtain rfl := Except.ok.inj h
            rfl
          · obtain rfl := Except.ok.inj h
            rfl
        rw [hscheme] at hspecial
        exact absurd hspecial hs

end Url

end PaperTrail
