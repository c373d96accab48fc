import Mathlib.Data.List.DropRight
import Tickline.Analysis.RunDirectories
import Tickline.Model.CheckCommand

/-!
# Finding the repository

A cleaned absolute path is a list of names, and its directory is the path of all but the last of
them (`dir_rooted`).  So the search for the repository goes through the front parts of a list from
the longest on, and comes to the innermost directory around its start that looks like the root
(`find_iff`).
-/

set_option autoImplicit false

namespace Tickline.Analysis

open Tickline.Model Tickline.Model.Artifacts Tickline.Model.Cli
open Tickline.Model.GoString (byte ascii join IsName keptElements)

/-! ## Directories -/

/-- The cleaned absolute path of names. -/
def rooted (names : List GoString) : GoString := byte '/' :: join names '/'

theorem isAbs_rooted (names : List GoString) : (rooted names).isAbs = true := rfl

/-- INTERNAL: what is kept of a path of names, with a slash behind it or not. -/
theorem keptElements_rooted {names : List GoString} (h : ∀ name ∈ names, IsName name) :
    (rooted names).keptElements = names ∧
      keptElements (rooted names ++ [byte '/']) = names := by
  have hkept : ((join names '/').split '/').foldl (GoString.cleanElement true) [] = names := by
    by_cases hnil : names = []
    · subst hnil
      rfl
    · rw [GoString.split_join (fun name hname => (h name hname).noSeparator) hnil,
        GoString.foldl_names h, List.nil_append]
  have hfront : (rooted names).split '/' = [[]] ++ (join names '/').split '/' :=
    GoString.split_separator [] (join names '/')
  have hbehind : GoString.split (rooted names ++ [byte '/']) '/' =
      (rooted names).split '/' ++ [[]] := GoString.split_separator (rooted names) []
  constructor
  · rw [keptElements, isAbs_rooted, hfront, List.foldl_append]
    exact hkept
  · have habs : GoString.isAbs (rooted names ++ [byte '/']) = true := rfl
    rw [keptElements, habs, hbehind, hfront, List.foldl_append, List.foldl_append]
    exact hkept

theorem elements_rooted {names : List GoString} (h : ∀ name ∈ names, IsName name) :
    (rooted names).elements = names := by
  rw [GoString.elements_of_isAbs (isAbs_rooted names), (keptElements_rooted h).1]

/-- A cleaned absolute path is that of its names. -/
theorem eq_rooted {path : GoString} (habs : path.isAbs = true) :
    (∀ name ∈ path.elements, IsName name) ∧ path.clean = rooted path.elements := by
  have hkept := GoString.kept_keptElements path
  rw [habs] at hkept
  obtain ⟨ups, names, hshape, -, hnames, hups⟩ := hkept
  rw [hups rfl, List.nil_append] at hshape
  rw [GoString.elements_of_isAbs habs, GoString.clean_of_isAbs habs, hshape]
  exact ⟨hnames, rfl⟩

/-- INTERNAL: what stands behind the last slash is dropped. -/
theorem rdropWhile_name {text name : GoString} (h : byte '/' ∉ name) :
    (text ++ byte '/' :: name).rdropWhile (· ≠ byte '/') = text ++ [byte '/'] := by
  have hall : ∀ b ∈ name.reverse, decide (b ≠ byte '/') = true := by
    intro b hb
    refine decide_eq_true ?_
    rintro rfl
    exact h (List.mem_reverse.mp hb)
  rw [List.append_cons, List.rdropWhile, List.reverse_append, List.dropWhile_append_of_pos hall,
    List.reverse_append, List.reverse_singleton, List.singleton_append,
    List.dropWhile_cons_of_neg (by simp), List.reverse_cons, List.reverse_reverse]

/-- **The directory of a path** has all names but the last. -/
theorem dir_rooted {names : List GoString} (h : ∀ name ∈ names, IsName name) :
    (rooted names).dir = rooted names.dropLast := by
  induction names using List.reverseRecOn with
  | nil => rfl
  | append_singleton front last _ =>
    have hfront : ∀ name ∈ front, IsName name :=
      fun name hname => h name (List.mem_append_left _ hname)
    have hlast : byte '/' ∉ last :=
      (h last (List.mem_append_right _ (List.mem_singleton.mpr rfl))).noSeparator
    rw [List.dropLast_concat]
    by_cases hnil : front = []
    · subst hnil
      have hpath : rooted ([] ++ [last]) = [] ++ byte '/' :: last := by
        rw [rooted, List.nil_append, join, List.intercalate_singleton, List.nil_append]
      show GoString.clean ((rooted ([] ++ [last])).rdropWhile (· ≠ byte '/')) = _
      rw [hpath, rdropWhile_name hlast]
      rfl
    · have hpath : rooted (front ++ [last]) = rooted front ++ byte '/' :: last := by
        rw [rooted, join_concat hnil]
        rfl
      show GoString.clean ((rooted (front ++ [last])).rdropWhile (· ≠ byte '/')) = _
      rw [hpath, rdropWhile_name hlast, GoString.clean_of_isAbs rfl, (keptElements_rooted hfront).2]
      rfl

/-! ## The search -/

/-- The innermost root of a repository around a directory. -/
structure Innermost (tree : FileTree) (names front : List GoString) : Prop where
  within : front <+: names
  isRoot : isRepositoryRoot tree (rooted front) = true
  nearest : ∀ other, other <+: names → isRepositoryRoot tree (rooted other) = true →
    other <+: front

/-- INTERNAL: a directory that is no root. -/
theorem innermost_concat {tree : FileTree} {front : List GoString} {last : GoString}
    (h : ¬ isRepositoryRoot tree (rooted (front ++ [last])) = true) (root : List GoString) :
    Innermost tree (front ++ [last]) root ↔ Innermost tree front root := by
  have hproper : ∀ other, isRepositoryRoot tree (rooted other) = true →
      (other <+: front ++ [last] ↔ other <+: front) := by
    intro other hother
    rw [List.prefix_concat_iff]
    refine or_iff_right ?_
    rintro rfl
    exact h hother
  constructor
  · rintro ⟨hwithin, hroot, hnearest⟩
    exact ⟨(hproper root hroot).mp hwithin, hroot, fun other hother hisRoot =>
      hnearest other ((hproper other hisRoot).mpr hother) hisRoot⟩
  · rintro ⟨hwithin, hroot, hnearest⟩
    exact ⟨(hproper root hroot).mpr hwithin, hroot, fun other hother hisRoot =>
      hnearest other ((hproper other hisRoot).mp hother) hisRoot⟩

/-- INTERNAL: a path has more bytes than names. -/
theorem length_lt_rooted {names : List GoString} (h : ∀ name ∈ names, IsName name) :
    names.length < (rooted names).length := by
  have hjoin : names.length ≤ (join names '/').length := by
    induction names with
    | nil => exact Nat.zero_le _
    | cons first rest ih =>
      obtain ⟨hfirst, hrest⟩ := List.forall_mem_cons.mp h
      have hpos := List.length_pos_of_ne_nil hfirst.nonempty
      cases rest with
      | nil => simpa [join, List.intercalate, Nat.succ_le_iff] using hpos
      | cons next rest =>
        have hmore := ih hrest
        simp only [join, List.intercalate_cons_cons, List.length_append, List.length_cons,
          List.length_nil] at hmore ⊢
        omega
  exact Nat.lt_succ_of_le hjoin

/-- **The search comes to the innermost root.** -/
theorem findFrom_iff {tree : FileTree} {fuel : ℕ} {names : List GoString}
    (hnames : ∀ name ∈ names, IsName name) (hfuel : names.length < fuel) (root : GoString) :
    findFrom tree fuel (rooted names) = some root ↔
      ∃ front, Innermost tree names front ∧ root = rooted front := by
  induction names using List.reverseRecOn generalizing fuel with
  | nil =>
    obtain ⟨fuel, rfl⟩ := Nat.exists_eq_succ_of_ne_zero (Nat.ne_of_gt hfuel)
    rw [findFrom]
    by_cases hroot : isRepositoryRoot tree (rooted []) = true
    · rw [if_pos hroot]
      constructor
      · rintro ⟨⟩
        exact ⟨[], ⟨List.prefix_refl _, hroot, fun _ hother _ => hother⟩, rfl⟩
      · rintro ⟨front, hfront, rfl⟩
        rw [List.prefix_nil.mp hfront.within]
    · have hdir : (rooted []).dir = rooted [] := rfl
      rw [if_neg hroot, if_pos hdir]
      refine iff_of_false (by simp) ?_
      rintro ⟨front, hfront, -⟩
      exact hroot (List.prefix_nil.mp hfront.within ▸ hfront.isRoot)
  | append_singleton front last ih =>
    obtain ⟨fuel, rfl⟩ := Nat.exists_eq_succ_of_ne_zero (Nat.ne_of_gt
      (Nat.lt_of_le_of_lt (Nat.zero_le _) hfuel))
    have hfront : ∀ name ∈ front, IsName name :=
      fun name hname => hnames name (List.mem_append_left _ hname)
    rw [findFrom]
    by_cases hroot : isRepositoryRoot tree (rooted (front ++ [last])) = true
    · rw [if_pos hroot]
      constructor
      · rintro ⟨⟩
        exact ⟨_, ⟨List.prefix_refl _, hroot, fun _ hother _ => hother⟩, rfl⟩
      · rintro ⟨other, hother, rfl⟩
        rw [hother.within.eq_of_length_le
          (hother.nearest _ (List.prefix_refl _) hroot).length_le]
    · have hdir : (rooted (front ++ [last])).dir = rooted front := by
        rw [dir_rooted hnames, List.dropLast_concat]
      have hdiffer : rooted front ≠ rooted (front ++ [last]) := by
        intro heq
        have helements := congrArg GoString.elements heq
        rw [elements_rooted hfront, elements_rooted hnames] at helements
        exact List.cons_ne_nil last [] (List.append_right_eq_self.mp helements.symm)
      rw [if_neg hroot, hdir, if_neg hdiffer, ih hfront (by simpa using hfuel)]
      simp only [innermost_concat hroot]

/-- INTERNAL: an absolute path is clean. -/
theorem abs_eq_rooted (tree : FileTree) (path : GoString) :
    (∀ name ∈ (tree.abs path).elements, IsName name) ∧
      tree.abs path = rooted (tree.abs path).elements := by
  obtain ⟨hnames, hclean⟩ := eq_rooted (isAbs_abs tree path)
  refine ⟨hnames, Eq.trans ?_ hclean⟩
  unfold FileTree.abs
  split_ifs with habs
  · exact (GoString.clean_clean_of_isAbs habs).2.2.symm
  · rw [GoString.joinPath]
    have hne : tree.workingDirectory ≠ [] := by
      intro hnil
      have habsolute := tree.absolute
      rw [hnil] at habsolute
      cases habsolute
    rw [if_neg hne]
    split_ifs
    · exact (GoString.clean_clean_of_isAbs tree.absolute).2.2.symm
    · obtain ⟨first, rest, hcons⟩ := List.exists_cons_of_ne_nil hne
      have hwhole : GoString.isAbs (tree.workingDirectory ++ byte '/' :: path) = true := by
        have habsolute := tree.absolute
        rw [hcons] at habsolute ⊢
        exact habsolute
      exact (GoString.clean_clean_of_isAbs hwhole).2.2.symm

/-- Where a search is asked to start: the working directory, if nothing is said. -/
def startOf (tree : FileTree) (start : GoString) : GoString :=
  tree.abs (if start = [] then tree.workingDirectory else start)

/-- INTERNAL: a directory on an absolute path is one. -/
theorem directoryAt_eq_rooted (tree : FileTree) (info : Node) (path : GoString) :
    (∀ name ∈ (directoryAt info (tree.abs path)).elements, IsName name) ∧
      directoryAt info (tree.abs path) = rooted (directoryAt info (tree.abs path)).elements := by
  obtain ⟨hnames, hrooted⟩ := abs_eq_rooted tree path
  have hdropped : ∀ name ∈ (tree.abs path).elements.dropLast, IsName name :=
    fun name hname => hnames name (List.mem_of_mem_dropLast hname)
  have hdir : (tree.abs path).dir = rooted (tree.abs path).elements.dropLast := by
    conv_lhs => rw [hrooted, dir_rooted hnames]
  cases info with
  | directory => exact ⟨hnames, hrooted⟩
  | _ =>
    dsimp only [directoryAt]
    rw [hdir, elements_rooted hdropped]
    exact ⟨hdropped, rfl⟩

/-- The directory that a search starts in. -/
def StartsIn (tree : FileTree) (start : GoString) (names : List GoString) : Prop :=
  ∃ info, tree.node (startOf tree start).elements = some info ∧
    names = (directoryAt info (startOf tree start)).elements

/-- INTERNAL: a search that starts nowhere. -/
theorem find_of_missing {tree : FileTree} {start : GoString}
    (hnode : tree.node (startOf tree start).elements = none) :
    find tree start = .error .inspect := by
  unfold startOf at hnode
  unfold find
  simp only [hnode]

/-- INTERNAL: a search is its loop. -/
theorem find_of_there {tree : FileTree} {start root : GoString} {info : Node}
    (hnode : tree.node (startOf tree start).elements = some info) :
    find tree start = .ok root ↔
      findFrom tree (directoryAt info (startOf tree start)).length
        (directoryAt info (startOf tree start)) = some root := by
  unfold startOf at hnode ⊢
  unfold find
  simp only [hnode]
  cases findFrom tree _ (directoryAt info (tree.abs
    (if start = [] then tree.workingDirectory else start))) <;> simp

/-- **Which repository is found**: the innermost directory, from the start on outwards, that has
the files of a repository.
SRC: repository/root.go:9-67 -/
theorem find_iff {tree : FileTree} {start root : GoString} : find tree start = .ok root ↔
    ∃ names front, StartsIn tree start names ∧ Innermost tree names front ∧
      root = rooted front := by
  unfold StartsIn
  cases hnode : tree.node (startOf tree start).elements with
  | none =>
    rw [find_of_missing hnode]
    exact iff_of_false (by simp) (by simp)
  | some info =>
    obtain ⟨hnames, hrooted⟩ := directoryAt_eq_rooted tree info
      (if start = [] then tree.workingDirectory else start)
    have hloop : findFrom tree _ _ = some root ↔ _ :=
      findFrom_iff hnames (length_lt_rooted hnames) root
    rw [← hrooted] at hloop
    refine ((find_of_there hnode).trans hloop).trans ?_
    constructor
    · rintro ⟨front, hfront, rfl⟩
      exact ⟨_, front, ⟨info, rfl, rfl⟩, hfront, rfl⟩
    · rintro ⟨names, front, ⟨found, hfound, rfl⟩, hfront, rfl⟩
      obtain rfl := Option.some.inj hfound
      exact ⟨front, hfront, rfl⟩

end Tickline.Analysis
