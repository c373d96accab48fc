import Mathlib.Data.List.Induction
import Tickline.Model.GoText

/-!
# Cleaned paths

What `clean` keeps of a path: elements that go up, at the front of a path that is not rooted, and
then names (`Kept`).  A path with nothing but names in it (`Names`) is its own cleaned path, joined
to a directory it adds its names, and seen from the directory it is itself (`rel_joinPath`): it does
not lead out of the directory.
-/

set_option autoImplicit false

namespace Tickline.Model.GoString

/-! ## Elements -/

/-- An element that is the name of a file. -/
structure IsName (element : GoString) : Prop where
  nonempty : element ≠ []
  notDot : element ≠ ascii "."
  notDotDot : element ≠ ascii ".."
  noSeparator : byte '/' ∉ element

/-- The elements that `clean` may keep. -/
structure Kept (rooted : Bool) (kept : List GoString) : Prop where
  shape : ∃ ups names, kept = ups ++ names ∧ (∀ up ∈ ups, up = ascii "..") ∧
    (∀ name ∈ names, IsName name) ∧ (rooted = true → ups = [])

/-- INTERNAL: an element that is dropped. -/
theorem cleanElement_skip {rooted : Bool} {kept : List GoString} {element : GoString}
    (h : element = [] ∨ element = ascii ".") : cleanElement rooted kept element = kept := by
  rw [cleanElement, if_pos h]

/-- INTERNAL: an element that goes up from the start. -/
theorem cleanElement_up_nil (rooted : Bool) :
    cleanElement rooted [] (ascii "..") = if rooted then [] else [ascii ".."] := by
  rw [cleanElement, if_neg (by decide), if_pos rfl]
  rfl

/-- INTERNAL: an element that goes up from another. -/
theorem cleanElement_up_append (rooted : Bool) (kept : List GoString) (last : GoString) :
    cleanElement rooted (kept ++ [last]) (ascii "..") =
      if last = ascii ".." then kept ++ [last] ++ [ascii ".."] else kept := by
  rw [cleanElement, if_neg (by decide), if_pos rfl, List.getLast?_concat, List.dropLast_concat]

/-- INTERNAL: an element that is kept. -/
theorem cleanElement_name {rooted : Bool} {kept : List GoString} {element : GoString}
    (hskip : ¬ (element = [] ∨ element = ascii ".")) (hup : element ≠ ascii "..") :
    cleanElement rooted kept element = kept ++ [element] := by
  rw [cleanElement, if_neg hskip, if_neg hup]

/-- INTERNAL: an element is kept, dropped, or drops another. -/
theorem kept_cleanElement {rooted : Bool} {kept : List GoString} {element : GoString}
    (h : Kept rooted kept) (hseparator : byte '/' ∉ element) :
    Kept rooted (cleanElement rooted kept element) := by
  obtain ⟨ups, names, rfl, hups, hnames, hrooted⟩ := h
  by_cases hskip : element = [] ∨ element = ascii "."
  · rw [cleanElement_skip hskip]
    exact ⟨ups, names, rfl, hups, hnames, hrooted⟩
  · by_cases hup : element = ascii ".."
    · subst hup
      induction names using List.reverseRecOn with
      | append_singleton front last =>
        rw [← List.append_assoc, cleanElement_up_append,
          if_neg (hnames last (by simp)).notDotDot]
        exact ⟨ups, front, rfl, hups, fun name hname => hnames name (by simp [hname]), hrooted⟩
      | nil =>
        rw [List.append_nil]
        induction ups using List.reverseRecOn with
        | nil =>
          rw [cleanElement_up_nil]
          cases rooted with
          | true => exact ⟨[], [], rfl, by simp, by simp, fun _ => rfl⟩
          | false => exact ⟨[ascii ".."], [], rfl, by simp, by simp, by simp⟩
        | append_singleton front last =>
          rw [cleanElement_up_append, if_pos (hups last (by simp))]
          refine ⟨front ++ [last] ++ [ascii ".."], [], by simp, ?_, by simp, ?_⟩
          · intro up hmem
            rcases List.mem_append.mp hmem with hmem | hmem
            · exact hups up hmem
            · exact List.mem_singleton.mp hmem
          · intro htrue
            exact absurd (hrooted htrue) (by simp)
    · rw [cleanElement_name hskip hup]
      refine ⟨ups, names ++ [element], by simp, hups, ?_, hrooted⟩
      intro name hname
      rcases List.mem_append.mp hname with hname | hname
      · exact hnames name hname
      · obtain rfl := List.mem_singleton.mp hname
        exact ⟨fun h => hskip (Or.inl h), fun h => hskip (Or.inr h), hup, hseparator⟩

/-- INTERNAL: the elements that are left of a list of elements. -/
theorem kept_foldl {rooted : Bool} {elements : List GoString}
    (helements : ∀ element ∈ elements, byte '/' ∉ element) {kept : List GoString}
    (h : Kept rooted kept) : Kept rooted (elements.foldl (cleanElement rooted) kept) := by
  induction elements generalizing kept with
  | nil => exact h
  | cons element elements ih =>
    exact ih (fun other hother => helements other (List.mem_cons_of_mem _ hother))
      (kept_cleanElement h (helements element (List.mem_cons_self ..)))

/-- INTERNAL: names are kept. -/
theorem foldl_names {rooted : Bool} {names : List GoString} (h : ∀ name ∈ names, IsName name)
    (kept : List GoString) : names.foldl (cleanElement rooted) kept = kept ++ names := by
  induction names generalizing kept with
  | nil => exact (List.append_nil kept).symm
  | cons name names ih =>
    have hname := h name (List.mem_cons_self ..)
    have hstep : cleanElement rooted kept name = kept ++ [name] :=
      cleanElement_name (not_or.mpr ⟨hname.nonempty, hname.notDot⟩) hname.notDotDot
    rw [List.foldl_cons, hstep, ih fun other hother => h other (List.mem_cons_of_mem _ hother),
      List.append_assoc, List.singleton_append]

/-- INTERNAL: kept elements are kept again. -/
theorem foldl_kept {rooted : Bool} {kept : List GoString} (h : Kept rooted kept) :
    kept.foldl (cleanElement rooted) [] = kept := by
  obtain ⟨ups, names, rfl, hups, hnames, hrooted⟩ := h
  have hfront : ups.foldl (cleanElement rooted) [] = ups := by
    cases rooted with
    | true => rw [hrooted rfl, List.foldl_nil]
    | false =>
      clear hrooted
      induction ups using List.reverseRecOn with
      | nil => rfl
      | append_singleton ups up ih =>
        have hothers : ∀ other ∈ ups, other = ascii ".." := fun other hother =>
          hups other (by simp [hother])
        rw [List.foldl_append, ih hothers, List.foldl_cons, List.foldl_nil, hups up (by simp)]
        rcases List.eq_nil_or_concat ups with rfl | ⟨front, last, rfl⟩
        · exact cleanElement_up_nil false
        · rw [List.concat_eq_append] at hothers ⊢
          rw [cleanElement_up_append, if_pos (hothers last (by simp))]
  rw [List.foldl_append, hfront, foldl_names hnames]

/-! ## Paths -/

/-- INTERNAL: the elements of a path have no separator in them. -/
theorem separator_not_mem {path element : GoString} (h : element ∈ path.split '/') :
    byte '/' ∉ element := by
  unfold split at h
  induction path generalizing element with
  | nil => simp_all
  | cons unit path ih =>
    rw [List.splitOn_cons_eq_if_modifyHead] at h
    split_ifs at h with hunit
    · rcases List.mem_cons.mp h with rfl | h
      · simp
      · exact ih h
    · obtain ⟨first, rest, hsplit⟩ := List.exists_cons_of_ne_nil
        (List.splitOn_ne_nil (byte '/') path)
      rw [hsplit] at h ih
      rcases List.mem_cons.mp h with rfl | h
      · intro hmem
        rcases List.mem_cons.mp hmem with heq | hmem
        · exact hunit (heq ▸ beq_self_eq_true _)
        · exact ih (List.mem_cons_self ..) hmem
      · exact ih (List.mem_cons_of_mem _ h)

/-- The elements that `clean` keeps. -/
def keptElements (path : GoString) : List GoString :=
  (path.split '/').foldl (cleanElement path.isAbs) []

/-- INTERNAL: they are some that may be kept. -/
theorem kept_keptElements (path : GoString) : Kept path.isAbs path.keptElements :=
  kept_foldl (fun _ => separator_not_mem) ⟨[], [], rfl, by simp, by simp, fun _ => rfl⟩

/-- INTERNAL: what is kept has no separator in it, and is no element that is skipped. -/
theorem Kept.mem {rooted : Bool} {kept : List GoString} (h : Kept rooted kept) {element : GoString}
    (hmem : element ∈ kept) :
    element ≠ [] ∧ element ≠ ascii "." ∧ byte '/' ∉ element := by
  obtain ⟨ups, names, rfl, hups, hnames, -⟩ := h
  rcases List.mem_append.mp hmem with hmem | hmem
  · rw [hups element hmem]
    decide
  · exact ⟨(hnames element hmem).nonempty, (hnames element hmem).notDot,
      (hnames element hmem).noSeparator⟩

/-- INTERNAL: elements are found again in what joins them. -/
theorem split_join {elements : List GoString} (h : ∀ element ∈ elements, byte '/' ∉ element)
    (hne : elements ≠ []) : (join elements '/').split '/' = elements :=
  List.splitOn_intercalate _ h hne

/-- INTERNAL: a path in front of a separator. -/
theorem split_separator (path rest : GoString) :
    (path ++ byte '/' :: rest).split '/' = path.split '/' ++ rest.split '/' :=
  List.splitOn_append_cons_self _ _

/-- INTERNAL: a rooted path is cleaned. -/
theorem clean_of_isAbs {path : GoString} (h : path.isAbs = true) :
    path.clean = byte '/' :: join path.keptElements '/' := by
  have hne : path ≠ [] := by
    rintro rfl
    cases h
  rw [clean, if_neg hne]
  simp only [h, if_true, keptElements]

/-- INTERNAL: a path that is not rooted is cleaned. -/
theorem clean_of_not_isAbs {path : GoString} (hne : path ≠ []) (h : path.isAbs = false) :
    path.clean = if path.keptElements = [] then ascii "." else join path.keptElements '/' := by
  rw [clean, if_neg hne]
  simp only [h, Bool.false_eq_true, if_false, keptElements]

/-- INTERNAL: the elements of a rooted path. -/
theorem elements_of_isAbs {path : GoString} (h : path.isAbs = true) :
    path.elements = path.keptElements := by
  have hkept := kept_keptElements path
  have hall : ∀ element ∈ path.keptElements,
      decide (element ≠ [] ∧ element ≠ ascii ".") = true := fun element hmem =>
    decide_eq_true ⟨(hkept.mem hmem).1, (hkept.mem hmem).2.1⟩
  have hsplit : (path.clean.split '/').filter
      (fun element => decide (element ≠ [] ∧ element ≠ ascii ".")) =
        ((join path.keptElements '/').split '/').filter
          fun element => decide (element ≠ [] ∧ element ≠ ascii ".") := by
    have hfront := split_separator [] (join path.keptElements '/')
    rw [clean_of_isAbs h]
    rw [List.nil_append] at hfront
    rw [hfront]
    rfl
  rw [elements, hsplit]
  by_cases hnil : path.keptElements = []
  · rw [hnil]
    rfl
  · rw [split_join (fun element hmem => (hkept.mem hmem).2.2) hnil]
    exact List.filter_eq_self.mpr hall

/-- INTERNAL: a cleaned rooted path is rooted, keeps the same and is clean. -/
theorem clean_clean_of_isAbs {path : GoString} (h : path.isAbs = true) :
    path.clean.isAbs = true ∧ path.clean.keptElements = path.keptElements ∧
      path.clean.clean = path.clean := by
  have hkept := kept_keptElements path
  rw [h] at hkept
  have habs : path.clean.isAbs = true := by
    rw [clean_of_isAbs h]
    rfl
  have hsame : path.clean.keptElements = path.keptElements := by
    have hfront := split_separator [] (join path.keptElements '/')
    rw [List.nil_append] at hfront
    rw [keptElements, habs, clean_of_isAbs h, hfront, List.foldl_append]
    show ((join path.keptElements '/').split '/').foldl (cleanElement true) [] = _
    by_cases hnil : path.keptElements = []
    · rw [hnil]
      rfl
    · rw [split_join (fun element hmem => (hkept.mem hmem).2.2) hnil, foldl_kept hkept]
  refine ⟨habs, hsame, ?_⟩
  rw [clean_of_isAbs habs, hsame, clean_of_isAbs h]

/-! ## Paths below a directory -/

/-- INTERNAL: a clean path that does not go up consists of names. -/
theorem names_of_clean {path : GoString} (hne : path ≠ []) (hdot : path ≠ ascii ".")
    (hup : path ≠ ascii "..") (habs : path.isAbs = false) (hclean : path.clean = path)
    (hstays : path.hasPrefix "../" = false) : ∀ name ∈ path.split '/', IsName name := by
  have hkept := kept_keptElements path
  rw [clean_of_not_isAbs hne habs] at hclean
  have hsome : path.keptElements ≠ [] := by
    intro hnil
    rw [if_pos hnil] at hclean
    exact hdot hclean.symm
  rw [if_neg hsome] at hclean
  have hsplit : path.split '/' = path.keptElements := by
    have hjoin := split_join (fun element hmem => (hkept.mem hmem).2.2) hsome
    rwa [hclean] at hjoin
  obtain ⟨ups, names, hshape, hups, hnames, -⟩ := hkept
  rw [hsplit, hshape]
  cases ups with
  | nil => exact hnames
  | cons first rest =>
    obtain rfl := hups first (List.mem_cons_self ..)
    rw [hshape, List.cons_append] at hclean
    cases hmore : rest ++ names with
    | nil =>
      rw [hmore] at hclean
      exact absurd hclean.symm hup
    | cons next more =>
      rw [hmore] at hclean
      have hfront : path.hasPrefix "../" = true := by
        rw [← hclean, join, List.intercalate_cons_cons]
        rfl
      rw [hstays] at hfront
      cases hfront

/-- INTERNAL: a list in front of another is what they share. -/
theorem dropShared_append (as bs : List GoString) : dropShared as (as ++ bs) = ([], bs) := by
  induction as with
  | nil => cases bs <;> rfl
  | cons a as ih => rw [List.cons_append, dropShared, if_pos rfl, ih]

/-- INTERNAL: a path joined to a rooted directory is rooted. -/
theorem isAbs_joinPath {root : GoString} (hroot : root.isAbs = true) (path : GoString) :
    (joinPath root path).isAbs = true := by
  have hrootNe : root ≠ [] := by
    rintro rfl
    cases hroot
  obtain ⟨unit, units, rfl⟩ := List.exists_cons_of_ne_nil hrootNe
  have habs : isAbs (unit :: units ++ byte '/' :: path) = true := hroot
  rw [joinPath, if_neg hrootNe]
  split_ifs
  · exact (clean_clean_of_isAbs hroot).1
  · exact (clean_clean_of_isAbs habs).1

section

variable {root path : GoString} (hroot : root.isAbs = true)
  (hnames : ∀ name ∈ path.split '/', IsName name)

include hnames in
/-- INTERNAL: a path of names is not empty. -/
theorem ne_nil_of_names : path ≠ [] := by
  rintro rfl
  exact (hnames [] (List.mem_singleton.mpr rfl)).nonempty rfl

include hroot hnames

/-- INTERNAL: a path of names adds them to what is kept of a directory. -/
theorem keptElements_joinPath :
    (joinPath root path).keptElements = root.elements ++ path.split '/' := by
  have hrootNe : root ≠ [] := by
    rintro rfl
    cases hroot
  obtain ⟨unit, units, rfl⟩ := List.exists_cons_of_ne_nil hrootNe
  have habs : isAbs (unit :: units ++ byte '/' :: path) = true := hroot
  rw [joinPath, if_neg hrootNe, if_neg (ne_nil_of_names hnames), (clean_clean_of_isAbs habs).2.1,
    keptElements, habs, split_separator, List.foldl_append, foldl_names hnames,
    elements_of_isAbs hroot, keptElements, hroot]

/-- **A path of names adds them to a directory.** -/
theorem elements_joinPath : (joinPath root path).elements = root.elements ++ path.split '/' ∧
    (joinPath root path).clean.elements = root.elements ++ path.split '/' := by
  have habs := isAbs_joinPath hroot path
  obtain ⟨hcleanAbs, hcleanSame, -⟩ := clean_clean_of_isAbs habs
  rw [elements_of_isAbs habs, elements_of_isAbs hcleanAbs, hcleanSame]
  exact ⟨keptElements_joinPath hroot hnames, keptElements_joinPath hroot hnames⟩

/-- **Seen from the directory, a path below it is the path of names.** -/
theorem rel_joinPath : rel root.clean (joinPath root path).clean = some path := by
  obtain ⟨hrootAbs, hrootSame, hrootClean⟩ := clean_clean_of_isAbs hroot
  obtain ⟨hcleanAbs, -, hcleanClean⟩ := clean_clean_of_isAbs (isAbs_joinPath hroot path)
  obtain ⟨-, hcleanElements⟩ := elements_joinPath hroot hnames
  have hrootElements : root.clean.elements = root.elements := by
    rw [elements_of_isAbs hrootAbs, hrootSame, elements_of_isAbs hroot]
  have hdiffer : root.clean ≠ (joinPath root path).clean := by
    intro heq
    have hlength := congrArg (fun path : GoString => path.elements.length) heq
    simp only [hrootElements, hcleanElements, List.length_append] at hlength
    have hsplit : path.split '/' ≠ [] := List.splitOn_ne_nil _ _
    have := List.length_pos_iff.mpr hsplit
    omega
  rw [rel, hrootClean, hcleanClean, if_neg hdiffer, hrootAbs, hcleanAbs,
    if_neg (fun h => h rfl), hrootElements, hcleanElements, dropShared_append]
  show some (join ([] ++ path.split '/') '/') = some path
  rw [List.nil_append]
  exact congrArg some (List.intercalate_splitOn _)

end

end Tickline.Model.GoString
