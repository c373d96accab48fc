import Tickline.Analysis.ArtifactFiles
import Tickline.Analysis.TaskPlan

/-!
# Paths of artifacts

`validateRelativePath` states its grammar as a fixed point of `path.Clean` with several tests beside
it.  What it accepts is exactly a list of segments joined by slashes, each of which is a name
without a backslash (`isRelativePath_iff`).  Joined to an absolute root such a path adds its
segments to the root's elements (`joinPath_segments`), so it stays strictly below the root, and the
segments can be read off the joined path again (`artifact_paths_cannot_climb`).
-/

set_option autoImplicit false

namespace Tickline.Analysis

open Tickline.Model Tickline.Model.Artifacts

/-- A segment of an artifact's path. -/
structure IsSegment (segment : GoString) : Prop extends GoString.IsName segment where
  noBackslash : GoString.byte '\\' ∉ segment

/-- A non-empty list of segments, joined by slashes. -/
def IsSegmentPath (value : GoString) : Prop :=
  ∃ segments : List GoString, segments ≠ [] ∧ (∀ segment ∈ segments, IsSegment segment) ∧
    value = GoString.join segments '/'

/-- A clean absolute path that has the elements of a root and then at least one name. -/
def StrictlyBelow (root path : GoString) : Prop :=
  ∃ names : List GoString, names ≠ [] ∧ (∀ name ∈ names, GoString.IsName name) ∧
    path = GoString.byte '/' :: GoString.join (root.elements ++ names) '/'

/-- INTERNAL: a path of names passes every test that does not look for backslashes. -/
theorem tests_of_names {segments : List GoString} (hne : segments ≠ [])
    (hnames : ∀ segment ∈ segments, GoString.IsName segment) {value : GoString}
    (hvalue : value = GoString.join segments '/') :
    value ≠ [] ∧ value ≠ .ascii "." ∧ value ≠ .ascii ".." ∧ value.isAbs = false ∧
      value.clean = value ∧ value.hasPrefix "../" = false := by
  have hsplit : value.split '/' = segments := by
    rw [hvalue]
    exact GoString.split_join (fun segment hmem => (hnames segment hmem).noSeparator) hne
  -- Each refused shape shows a segment that is no name.
  have hsome : ∀ text segment : GoString, segment ∈ text.split '/' →
      ¬ GoString.IsName segment → value ≠ text := by
    rintro text segment hmem hnot rfl
    rw [hsplit] at hmem
    exact hnot (hnames segment hmem)
  have habs : value.isAbs = false := by
    rw [Bool.eq_false_iff]
    intro habs
    obtain ⟨rest, hrest⟩ := List.isPrefixOf_iff_prefix.mp habs
    refine hsome value [] ?_ (fun h => h.nonempty rfl) rfl
    rw [← hrest]
    show [] ∈ ([] ++ GoString.byte '/' :: rest : GoString).split '/'
    rw [GoString.split_separator]
    exact List.mem_append_left _ (List.mem_singleton.mpr rfl)
  have hempty : value ≠ [] :=
    hsome _ _ (List.mem_singleton.mpr rfl) fun h => h.nonempty rfl
  refine ⟨hempty, hsome _ _ (List.mem_singleton.mpr rfl) fun h => h.notDot rfl,
    hsome _ _ (List.mem_singleton.mpr rfl) fun h => h.notDotDot rfl, habs, ?_, ?_⟩
  · have hkept : value.keptElements = segments := by
      rw [GoString.keptElements, hsplit, GoString.foldl_names hnames, List.nil_append]
    rw [GoString.clean_of_not_isAbs hempty habs, hkept, if_neg hne, hvalue]
  · rw [Bool.eq_false_iff]
    intro hfront
    obtain ⟨rest, hrest⟩ := List.isPrefixOf_iff_prefix.mp hfront
    refine hsome value (.ascii "..") ?_ (fun h => h.notDotDot rfl) rfl
    rw [← hrest]
    show GoString.ascii ".." ∈ (GoString.ascii ".." ++ GoString.byte '/' :: rest : GoString).split '/'
    rw [GoString.split_separator]
    exact List.mem_append_left _ (List.mem_singleton.mpr rfl)

/-- INTERNAL: what is in a part is in what joins the parts. -/
theorem mem_join {parts : List GoString} {part : GoString} (hpart : part ∈ parts) {b : UInt8}
    (hb : b ∈ part) : b ∈ GoString.join parts '/' := by
  induction parts with
  | nil => cases hpart
  | cons first rest ih =>
    cases rest with
    | nil =>
      obtain rfl := List.mem_singleton.mp hpart
      rwa [GoString.join, List.intercalate_singleton]
    | cons next rest =>
      rw [GoString.join, List.intercalate_cons_cons]
      rcases List.mem_cons.mp hpart with rfl | hrest
      · exact List.mem_append_left _ (List.mem_append_left _ hb)
      · exact List.mem_append_right _ (ih hrest)

/-- **The grammar behind the tests** of `validateRelativePath`.
SRC: artifactmanifest/manifest.go:319-334 -/
theorem isRelativePath_iff (value : GoString) :
    isRelativePath value = true ↔ IsSegmentPath value := by
  constructor
  · intro h
    have hnames := names_of_isRelativePath h
    have hjoin : GoString.join (value.split '/') '/' = value := List.intercalate_splitOn _
    have hbackslash : GoString.byte '\\' ∉ value := by
      simp only [isRelativePath, Bool.not_eq_true', Bool.or_eq_false_iff] at h
      simpa using h.2
    refine ⟨value.split '/', List.splitOn_ne_nil _ _, fun segment hmem => ?_, hjoin.symm⟩
    refine ⟨hnames segment hmem, fun hin => hbackslash ?_⟩
    rw [← hjoin]
    exact mem_join hmem hin
  · rintro ⟨segments, hne, hsegments, hvalue⟩
    obtain ⟨hempty, hdot, hup, habs, hclean, hstays⟩ :=
      tests_of_names hne (fun segment hmem => (hsegments segment hmem).toIsName) hvalue
    have hbackslash : GoString.byte '\\' ∉ value := by
      rw [hvalue]
      intro hin
      rcases mem_intercalate hin with hin | ⟨segment, hmem, hin⟩
      · exact absurd (List.mem_singleton.mp hin) (by decide)
      · exact (hsegments segment hmem).noBackslash hin
    simp [isRelativePath, hempty, hdot, hup, habs, hclean, hstays, hbackslash]

/-- INTERNAL: a path of segments adds them to the elements of a root. -/
theorem joinPath_segments {root value : GoString} (hroot : root.isAbs = true)
    (hvalue : isRelativePath value = true) :
    GoString.joinPath root value =
      GoString.byte '/' :: GoString.join (root.elements ++ value.split '/') '/' := by
  have hnames := names_of_isRelativePath hvalue
  have habs := GoString.isAbs_joinPath hroot value
  have hkept := GoString.keptElements_joinPath hroot hnames
  have hclean : (GoString.joinPath root value).clean = GoString.joinPath root value := by
    have hne : root ≠ [] := by
      rintro rfl
      cases hroot
    have hwhole : (root ++ GoString.byte '/' :: value).isAbs = true := by
      obtain ⟨rest, rfl⟩ := List.isPrefixOf_iff_prefix.mp hroot
      rfl
    rw [GoString.joinPath, if_neg hne, if_neg (GoString.ne_nil_of_names hnames)]
    exact (GoString.clean_clean_of_isAbs hwhole).2.2
  rw [← hkept, ← GoString.clean_of_isAbs habs, hclean]

/-- **Artifact paths cannot climb**: what is accepted is a list of segments, joined to an absolute
root it is strictly below the root, and two accepted paths lead to two places.
SRC: artifactmanifest/manifest.go:319-334, 412-415 -/
theorem artifact_paths_cannot_climb :
    (∀ value, isRelativePath value = true ↔ IsSegmentPath value) ∧
      ∀ root : GoString, root.isAbs = true →
        (∀ value, isRelativePath value = true →
          StrictlyBelow root (GoString.joinPath root value)) ∧
        ∀ value other, isRelativePath value = true → isRelativePath other = true →
          GoString.joinPath root value = GoString.joinPath root other → value = other := by
  refine ⟨isRelativePath_iff, fun root hroot => ⟨fun value hvalue => ?_, ?_⟩⟩
  · exact ⟨value.split '/', List.splitOn_ne_nil _ _, names_of_isRelativePath hvalue,
      joinPath_segments hroot hvalue⟩
  · intro value other hvalue hother heq
    have helements := congrArg GoString.elements heq
    rw [(GoString.elements_joinPath hroot (names_of_isRelativePath hvalue)).1,
      (GoString.elements_joinPath hroot (names_of_isRelativePath hother)).1] at helements
    have hsplit : value.split '/' = other.split '/' := List.append_cancel_left helements
    calc value = GoString.join (value.split '/') '/' := (List.intercalate_splitOn _).symm
      _ = GoString.join (other.split '/') '/' := by rw [hsplit]
      _ = other := List.intercalate_splitOn _

/-- A log of a run below the root of a repository. -/
theorem artifact_paths_cannot_climb_log :
    StrictlyBelow (.ascii "/r/") (.ascii "/r/reports/a.log") := by
  have hbelow := (artifact_paths_cannot_climb.2 (.ascii "/r/") (by decide)).1
    (.ascii "reports/a.log") (by decide)
  exact (show GoString.joinPath (.ascii "/r/") (.ascii "reports/a.log") =
    .ascii "/r/reports/a.log" by decide) ▸ hbelow

end Tickline.Analysis
