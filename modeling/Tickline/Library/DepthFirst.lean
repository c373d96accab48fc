import Mathlib.Data.List.Nodup
import Mathlib.Data.List.Pairwise
import Mathlib.Logic.Function.Basic
import Mathlib.Logic.Relation

/-!
# Depth-first search with marks

`visit` is the usual search of a graph that is given by a function: an item that is met while
it is being visited closes a cycle, one that was visited is passed over, and an item is listed
behind everything it needs.  `Finds` is the search without its marks and its fuel; a search
that succeeds finds what `Finds` says (`search_finds`), it never runs out of fuel when there is
one unit more than there are items (`search_not_exhausted`), and it succeeds on items that are
ranked above what they need (`search_ok`).

Which of two items a search lists first can be told without searching: by the first root that
needs one of the two and not the other, or, where a root needs both, by what that root needs
(`Earlier`, `Finds.pairwise`).
-/

set_option autoImplicit false

namespace Tickline.Library.DepthFirst

variable {α ε : Type}

/-! ## Search -/

inductive Mark
  | unvisited
  | visiting
  | visited
  deriving DecidableEq

/-- The marks, the items being visited (outermost first), and the items visited, in the order in
which their visits ended. -/
structure Search (α : Type) where
  mark : α → Mark
  stack : List α
  order : List α

/-- Why a search stops, with the items it was visiting. -/
inductive Fault (α ε : Type)
  | cycle (stack : List α) (id : α)
  | refused (stack : List α) (cause : ε)
  | exhausted
  deriving DecidableEq

/-- Nothing visited. -/
def Search.fresh : Search α := ⟨fun _ => .unvisited, [], []⟩

/-- Begin to visit an item. -/
def Search.enter [DecidableEq α] (search : Search α) (id : α) : Search α where
  mark := Function.update search.mark id .visiting
  stack := search.stack ++ [id]
  order := search.order

/-- End the visit of an item. -/
def Search.leave [DecidableEq α] (search : Search α) (id : α) : Search α where
  mark := Function.update search.mark id .visited
  stack := search.stack.dropLast
  order := search.order ++ [id]

/-- Visit an item; `needs` says what it needs, or refuses it. -/
def visit [DecidableEq α] (needs : α → Except ε (List α)) :
    ℕ → α → Search α → Except (Fault α ε) (Search α)
  | 0, _, _ => .error .exhausted
  | fuel + 1, id, search =>
    match search.mark id with
    | .visiting => .error (.cycle search.stack id)
    | .visited => .ok search
    | .unvisited =>
      match needs id with
      | .error cause => .error (.refused search.stack cause)
      | .ok ids => do
        let inner ← ids.foldlM (fun search id => visit needs fuel id search) (search.enter id)
        return inner.leave id

/-- Visit some items one after the other. -/
def visitAll [DecidableEq α] (needs : α → Except ε (List α)) (fuel : ℕ) (ids : List α)
    (search : Search α) : Except (Fault α ε) (Search α) :=
  ids.foldlM (fun search id => visit needs fuel id search) search

/-! ## What a search finds -/

/-- What an item needs, nothing for one that is refused. -/
def neededBy (needs : α → Except ε (List α)) (id : α) : List α :=
  match needs id with
  | .ok ids => ids
  | .error _ => []

/-- **The search without marks**: with `active` being visited and `done` visited, visiting the
roots visits `found`, in this order. -/
inductive Finds (deps : α → List α) : List α → List α → List α → List α → Prop
  | nil (active done : List α) : Finds deps active done [] []
  | known {active done ids found : List α} {id : α} (hid : id ∈ done)
      (hrest : Finds deps active done ids found) : Finds deps active done (id :: ids) found
  | new {active done ids inner rest : List α} {id : α} (hactive : id ∉ active) (hdone : id ∉ done)
      (hinner : Finds deps (id :: active) done (deps id) inner)
      (hrest : Finds deps active (done ++ inner ++ [id]) ids rest) :
      Finds deps active done (id :: ids) (inner ++ id :: rest)

/-- An item needs another: by itself, or through what it needs. -/
def Needs (deps : α → List α) : α → α → Prop := Relation.ReflTransGen fun a b => b ∈ deps a

/-- A list with everything its items need. -/
def Closed (deps : α → List α) (items : List α) : Prop := ∀ a ∈ items, ∀ b ∈ deps a, b ∈ items

/-- Every item stands behind what it needs, or that was done before. -/
def Ordered (deps : α → List α) : List α → List α → Prop
  | _, [] => True
  | done, a :: rest => (∀ b ∈ deps a, b ∈ done) ∧ Ordered deps (done ++ [a]) rest

theorem ordered_append {deps : α → List α} {done front rest : List α} :
    Ordered deps done (front ++ rest) ↔
      Ordered deps done front ∧ Ordered deps (done ++ front) rest := by
  induction front generalizing done with
  | nil => simp [Ordered]
  | cons a front ih =>
    rw [List.cons_append, Ordered, Ordered, ih, and_assoc, List.append_assoc,
      List.singleton_append]

/-- What is ordered is closed. -/
theorem Ordered.closed {deps : α → List α} {done items : List α} (hdone : Closed deps done)
    (h : Ordered deps done items) : Closed deps (done ++ items) := by
  induction items generalizing done with
  | nil => rwa [List.append_nil]
  | cons a items ih =>
    rw [← List.singleton_append, ← List.append_assoc]
    apply ih _ h.2
    intro b hb c hc
    rcases List.mem_append.mp hb with hb | hb
    · exact List.mem_append_left _ (hdone b hb c hc)
    · obtain rfl := List.mem_singleton.mp hb
      exact List.mem_append_left _ (h.1 c hc)

theorem Closed.needs {deps : α → List α} {items : List α} (h : Closed deps items) {a b : α}
    (ha : a ∈ items) (hneeds : Needs deps a b) : b ∈ items := by
  induction hneeds with
  | refl => exact ha
  | tail _ hstep ih => exact h _ ih _ hstep

namespace Finds

variable {deps : α → List α} {active done roots found : List α}

/-- INTERNAL: what is being visited is not found, and what was visited is not found again. -/
theorem fresh (h : Finds deps active done roots found) :
    ∀ a ∈ found, a ∉ active ∧ a ∉ done := by
  induction h with
  | nil => simp
  | known _ _ ih => exact ih
  | new hactive hdone _ _ ihinner ihrest =>
    intro a ha
    rcases List.mem_append.mp ha with ha | ha
    · obtain ⟨hnot, hnew⟩ := ihinner a ha
      exact ⟨fun h => hnot (List.mem_cons_of_mem _ h), hnew⟩
    · rcases List.mem_cons.mp ha with rfl | ha
      · exact ⟨hactive, hdone⟩
      · obtain ⟨hnot, hnew⟩ := ihrest a ha
        exact ⟨hnot, fun h => hnew (by simp [h])⟩

/-- Nothing is found twice. -/
theorem nodup (h : Finds deps active done roots found) : found.Nodup := by
  induction h with
  | nil => exact List.nodup_nil
  | known _ _ ih => exact ih
  | @new active done ids inner rest id hactive hdone hinner hrest ihinner ihrest =>
    have hid : id ∉ rest := fun h => (hrest.fresh id h).2 (by simp)
    refine List.nodup_append.mpr ⟨ihinner, List.nodup_cons.mpr ⟨hid, ihrest⟩, ?_⟩
    rintro a ha b hb rfl
    rcases List.mem_cons.mp hb with rfl | hb
    · exact (hinner.fresh a ha).1 List.mem_cons_self
    · exact (hrest.fresh a hb).2 (by simp [ha])

/-- The roots are found, where they were not known. -/
theorem roots_mem (h : Finds deps active done roots found) : ∀ a ∈ roots, a ∈ done ++ found := by
  induction h with
  | nil => simp
  | known hid _ ih =>
    intro a ha
    rcases List.mem_cons.mp ha with rfl | ha
    · exact List.mem_append_left _ hid
    · exact ih a ha
  | new _ _ _ _ _ ihrest =>
    intro a ha
    rcases List.mem_cons.mp ha with rfl | ha
    · simp
    · have := ihrest a ha
      simp only [List.mem_append, List.mem_cons] at this ⊢
      tauto

/-- Only what a root needs is found. -/
theorem needed (h : Finds deps active done roots found) :
    ∀ a ∈ found, ∃ root ∈ roots, Needs deps root a := by
  induction h with
  | nil => simp
  | known _ _ ih =>
    intro a ha
    obtain ⟨root, hroot, hneeds⟩ := ih a ha
    exact ⟨root, List.mem_cons_of_mem _ hroot, hneeds⟩
  | @new active done ids inner rest id _ _ _ _ ihinner ihrest =>
    intro a ha
    rcases List.mem_append.mp ha with ha | ha
    · obtain ⟨root, hroot, hneeds⟩ := ihinner a ha
      exact ⟨id, List.mem_cons_self, Relation.ReflTransGen.head hroot hneeds⟩
    · rcases List.mem_cons.mp ha with rfl | ha
      · exact ⟨a, List.mem_cons_self, Relation.ReflTransGen.refl⟩
      · obtain ⟨root, hroot, hneeds⟩ := ihrest a ha
        exact ⟨root, List.mem_cons_of_mem _ hroot, hneeds⟩

/-- **An item stands behind what it needs.** -/
theorem ordered (h : Finds deps active done roots found) : Ordered deps done found := by
  induction h with
  | nil => trivial
  | known _ _ ih => exact ih
  | new _ _ hinner _ ihinner ihrest =>
    exact ordered_append.mpr ⟨ihinner, hinner.roots_mem, ihrest⟩

/-- What a search finds depends on the roots and on what was visited only. -/
theorem unique {active' found' : List α} (h : Finds deps active done roots found)
    (h' : Finds deps active' done roots found') : found = found' := by
  induction h generalizing active' found' with
  | nil =>
    cases h'
    rfl
  | known hid _ ih =>
    cases h' with
    | known _ hrest => exact ih hrest
    | new _ hdone _ _ => exact absurd hid hdone
  | new _ hdone _ _ ihinner ihrest =>
    cases h' with
    | known hid _ => exact absurd hid hdone
    | new _ _ hinner hrest =>
      obtain rfl := ihinner hinner
      rw [ihrest hrest]

/-- Only what the items found need matters. -/
theorem congr {deps' : α → List α} (h : Finds deps active done roots found)
    (hdeps : ∀ a ∈ found, deps a = deps' a) : Finds deps' active done roots found := by
  induction h with
  | nil => exact .nil _ _
  | known hid _ ih => exact .known hid (ih hdeps)
  | @new active done ids inner rest id hactive hdone _ _ ihinner ihrest =>
    have hid : deps id = deps' id := hdeps id (by simp)
    refine .new hactive hdone (hid ▸ ihinner fun a ha => hdeps a (List.mem_append_left _ ha)) ?_
    exact ihrest fun a ha => hdeps a (by simp [ha])

end Finds

/-- **Which of two items comes first**: the first root that needs one of the two and not the other
tells; a root that needs both sends the question to what it needs itself. -/
inductive Earlier (deps : α → List α) : List α → α → α → Prop
  | skip {root : α} {roots : List α} {a b : α} (ha : ¬ Needs deps root a)
      (hb : ¬ Needs deps root b) (hrest : Earlier deps roots a b) :
      Earlier deps (root :: roots) a b
  | apart {root : α} {roots : List α} {a b : α} (ha : Needs deps root a)
      (hb : ¬ Needs deps root b) : Earlier deps (root :: roots) a b
  | inside {root : α} {roots : List α} {a b : α} (ha : Needs deps root a)
      (hb : Needs deps root b) (hinner : Earlier deps (deps root) a b) :
      Earlier deps (root :: roots) a b

variable {deps : α → List α}

theorem Earlier.asymm {roots : List α} {a b : α} (h : Earlier deps roots a b) :
    ¬ Earlier deps roots b a := by
  induction h with
  | skip ha hb _ ih =>
    intro h'
    cases h' with
    | skip _ _ hrest => exact ih hrest
    | apart hb' _ => exact hb hb'
    | inside hb' _ _ => exact hb hb'
  | apart ha hb =>
    intro h'
    cases h' with
    | skip _ ha' _ => exact ha' ha
    | apart hb' _ => exact hb hb'
    | inside hb' _ _ => exact hb hb'
  | inside ha hb _ ih =>
    intro h'
    cases h' with
    | skip hb' _ _ => exact hb' hb
    | apart _ ha' => exact ha' ha
    | inside _ _ hinner => exact ih hinner

/-- INTERNAL: an item that no root needs comes behind those that one needs. -/
theorem earlier_of_not_needed {roots : List α} {a b : α} (ha : ∃ root ∈ roots, Needs deps root a)
    (hb : ∀ root ∈ roots, ¬ Needs deps root b) : Earlier deps roots a b := by
  induction roots with
  | nil => simp at ha
  | cons root roots ih =>
    have hroot : ¬ Needs deps root b := hb root List.mem_cons_self
    by_cases hneeds : Needs deps root a
    · exact .apart hneeds hroot
    · refine .skip hneeds hroot (ih ?_ fun r hr => hb r (List.mem_cons_of_mem _ hr))
      obtain ⟨r, hr, hra⟩ := ha
      rcases List.mem_cons.mp hr with rfl | hr
      · exact absurd hra hneeds
      · exact ⟨r, hr, hra⟩

/-- **A search lists its items in this order.** -/
theorem Finds.pairwise {active done roots found : List α} (hdone : Closed deps done)
    (h : Finds deps active done roots found) : found.Pairwise (Earlier deps roots) := by
  induction h with
  | nil => exact List.Pairwise.nil
  | @known active done ids found id hid hrest ih =>
    have hnot : ∀ a ∈ found, ¬ Needs deps id a := fun a ha hneeds =>
      (hrest.fresh a ha).2 (hdone.needs hid hneeds)
    exact (ih hdone).imp_of_mem fun ha hb hab => .skip (hnot _ ha) (hnot _ hb) hab
  | @new active done ids inner rest id hactive hnew hinner hrest ihinner ihrest =>
    have hclosed : Closed deps (done ++ inner) := hinner.ordered.closed hdone
    have hclosed' : Closed deps (done ++ inner ++ [id]) :=
      Ordered.closed hclosed ⟨hinner.roots_mem, trivial⟩
    have hid : ∀ root ∈ deps id, ¬ Needs deps root id := fun root hroot hneeds =>
      (List.mem_append.mp (hclosed.needs (hinner.roots_mem root hroot) hneeds)).elim hnew
        fun hmem => (hinner.fresh id hmem).1 List.mem_cons_self
    have hneeds : ∀ a ∈ inner, Needs deps id a := by
      intro a ha
      obtain ⟨root, hroot, hneeds⟩ := hinner.needed a ha
      exact .head hroot hneeds
    have hnot : ∀ a ∈ rest, ¬ Needs deps id a := fun a ha hneeds =>
      (hrest.fresh a ha).2 (hclosed'.needs (by simp) hneeds)
    refine List.pairwise_append.mpr ⟨?_, List.pairwise_cons.mpr ⟨?_, ?_⟩, ?_⟩
    · exact (ihinner hdone).imp_of_mem fun ha hb hab => .inside (hneeds _ ha) (hneeds _ hb) hab
    · exact fun a ha => .apart .refl (hnot a ha)
    · exact (ihrest hclosed').imp_of_mem fun ha hb hab => .skip (hnot _ ha) (hnot _ hb) hab
    · intro a ha b hb
      rcases List.mem_cons.mp hb with rfl | hb
      · exact .inside (hneeds a ha) .refl (earlier_of_not_needed (hinner.needed a ha) hid)
      · exact .apart (hneeds a ha) (hnot b hb)

/-- **Two orders of the same items** are one order exactly when the relations they follow agree. -/
theorem eq_iff_of_pairwise {r r' : α → α → Prop} {items items' : List α}
    (hr : ∀ a b, r a b → ¬ r b a) (hr' : ∀ a b, r' a b → ¬ r' b a) (hitems : items.Pairwise r)
    (hitems' : items'.Pairwise r') (hperm : items.Perm items') :
    items = items' ↔ ∀ a ∈ items, ∀ b ∈ items, r a b ↔ r' a b := by
  constructor
  · rintro rfl
    have hboth : ∀ a ∈ items, ∀ b ∈ items, a ≠ b → (r a b ∧ r' a b) ∨ (r b a ∧ r' b a) := by
      intro a ha b hb hne
      have hpairs : items.Pairwise fun a b => (r a b ∧ r' a b) ∨ (r b a ∧ r' b a) :=
        (List.pairwise_and_iff.mpr ⟨hitems, hitems'⟩).imp .inl
      have hsymm : Std.Symm fun a b => (r a b ∧ r' a b) ∨ (r b a ∧ r' b a) := ⟨fun _ _ => Or.symm⟩
      exact hpairs.forall ha hb hne
    intro a ha b hb
    rcases eq_or_ne a b with rfl | hne
    · exact ⟨fun h => absurd h (hr _ _ h), fun h => absurd h (hr' _ _ h)⟩
    · rcases hboth a ha b hb hne with ⟨h, h'⟩ | ⟨h, h'⟩
      · exact ⟨fun _ => h', fun _ => h⟩
      · exact ⟨fun hab => absurd h (hr _ _ hab), fun hab => absurd h' (hr' _ _ hab)⟩
  · intro hagree
    have hitems'' : items'.Pairwise r := hitems'.imp_of_mem fun ha hb hab =>
      (hagree _ (hperm.mem_iff.mpr ha) _ (hperm.mem_iff.mpr hb)).mpr hab
    exact hperm.eq_of_pairwise (fun a b _ _ hab hba => absurd hba (hr a b hab)) hitems hitems''

/-! ## The search finds it -/

/-- The marks are those of the items being visited and of the items listed. -/
structure Marked (search : Search α) (active : List α) : Prop where
  visiting : ∀ a, search.mark a = .visiting ↔ a ∈ active
  visited : ∀ a, search.mark a = .visited ↔ a ∈ search.order

theorem marked_fresh : Marked (Search.fresh : Search α) [] where
  visiting _ := by simp [Search.fresh]
  visited _ := by simp [Search.fresh]

/-- INTERNAL: one item, and then others. -/
theorem Finds.cons {active done ids found rest : List α} {id : α}
    (h : Finds deps active done [id] found) (hrest : Finds deps active (done ++ found) ids rest) :
    Finds deps active done (id :: ids) (found ++ rest) := by
  cases h with
  | known hid hnil =>
    cases hnil
    rw [List.append_nil] at hrest
    exact .known hid hrest
  | @new _ _ _ inner rest' _ hactive hdone hinner hnil =>
    cases hnil
    rw [← List.append_assoc] at hrest
    rw [List.append_assoc, List.singleton_append]
    exact .new hactive hdone hinner hrest

variable [DecidableEq α] {needs : α → Except ε (List α)} {fuel : ℕ}

/-- INTERNAL: the marks behind the beginning of a visit. -/
theorem Marked.enter {search : Search α} {active : List α} (h : Marked search active) {id : α}
    (hid : search.mark id = .unvisited) : Marked (search.enter id) (id :: active) where
  visiting a := by
    rcases eq_or_ne a id with rfl | hne
    · simp [Search.enter]
    · simp [Search.enter, hne, h.visiting a]
  visited a := by
    rcases eq_or_ne a id with rfl | hne
    · have := (h.visited a).not.mp (by simp [hid])
      simp [Search.enter, this]
    · simp [Search.enter, hne, h.visited a]

/-- INTERNAL: the marks behind the end of a visit. -/
theorem Marked.leave {search : Search α} {active : List α} {id : α}
    (h : Marked search (id :: active)) (hid : id ∉ active) : Marked (search.leave id) active where
  visiting a := by
    rcases eq_or_ne a id with rfl | hne
    · simp [Search.leave, hid]
    · simp [Search.leave, hne, h.visiting a]
  visited a := by
    rcases eq_or_ne a id with rfl | hne
    · simp [Search.leave]
    · simp [Search.leave, hne, h.visited a]

/-- What a search that succeeds has done. -/
structure Found (needs : α → Except ε (List α)) (active ids : List α) (search after : Search α)
    (found : List α) : Prop where
  finds : Finds (neededBy needs) active search.order ids found
  order : after.order = search.order ++ found
  marked : Marked after active
  accepted : ∀ a ∈ found, ∃ ids, needs a = .ok ids

/-- INTERNAL: the loop over some items, from what is known of each visit. -/
theorem visitAll_found
    (hvisit : ∀ {id : α} {search after : Search α} {active : List α},
      visit needs fuel id search = .ok after → Marked search active →
        ∃ found, Found needs active [id] search after found)
    {ids : List α} {search after : Search α} {active : List α}
    (h : visitAll needs fuel ids search = .ok after) (hmarked : Marked search active) :
    ∃ found, Found needs active ids search after found := by
  induction ids generalizing search with
  | nil =>
    cases h
    exact ⟨[], .nil _ _, (List.append_nil _).symm, hmarked, by simp⟩
  | cons id ids ih =>
    cases hfirst : visit needs fuel id search with
    | error fault => simp [visitAll, List.foldlM_cons, hfirst, bind, Except.bind] at h
    | ok middle =>
      have hrest : visitAll needs fuel ids middle = .ok after := by
        simpa [visitAll, List.foldlM_cons, hfirst, bind, Except.bind] using h
      obtain ⟨found, hfound⟩ := hvisit hfirst hmarked
      obtain ⟨rest, hrest⟩ := ih hrest hfound.marked
      refine ⟨found ++ rest, hfound.finds.cons (hfound.order ▸ hrest.finds), ?_, hrest.marked, ?_⟩
      · rw [hrest.order, hfound.order, List.append_assoc]
      · intro a ha
        exact (List.mem_append.mp ha).elim (hfound.accepted a) (hrest.accepted a)

/-- **A visit that succeeds** finds what the search without marks finds. -/
theorem visit_found {id : α} {search after : Search α} {active : List α}
    (h : visit needs fuel id search = .ok after) (hmarked : Marked search active) :
    ∃ found, Found needs active [id] search after found := by
  induction fuel generalizing id search after active with
  | zero => simp [visit] at h
  | succ fuel ih =>
    unfold visit at h
    cases hmark : search.mark id with
    | visiting => simp [hmark] at h
    | visited =>
      simp only [hmark, Except.ok.injEq] at h
      subst h
      exact ⟨[], .known ((hmarked.visited id).mp hmark) (.nil _ _), (List.append_nil _).symm,
        hmarked, by simp⟩
    | unvisited =>
      have hactive : id ∉ active := (hmarked.visiting id).not.mp (by simp [hmark])
      have hdone : id ∉ search.order := (hmarked.visited id).not.mp (by simp [hmark])
      cases hneeds : needs id with
      | error cause => simp [hmark, hneeds] at h
      | ok ids =>
        cases hinner : visitAll needs fuel ids (search.enter id) with
        | error fault =>
          unfold visitAll at hinner
          simp [hmark, hneeds, hinner, bind, Except.bind] at h
        | ok inner =>
          have hafter : inner.leave id = after := by
            unfold visitAll at hinner
            simpa [hmark, hneeds, hinner, bind, Except.bind, pure, Except.pure] using h
          subst hafter
          obtain ⟨found, hfound⟩ := visitAll_found ih hinner (hmarked.enter hmark)
          have hdeps : neededBy needs id = ids := by simp [neededBy, hneeds]
          refine ⟨found ++ [id], .new hactive hdone (hdeps ▸ hfound.finds) (.nil _ _), ?_,
            hfound.marked.leave hactive, ?_⟩
          · show inner.order ++ [id] = _
            rw [hfound.order, List.append_assoc]
            rfl
          · intro a ha
            rcases List.mem_append.mp ha with ha | ha
            · exact hfound.accepted a ha
            · obtain rfl := List.mem_singleton.mp ha
              exact ⟨ids, hneeds⟩

/-- **A search that succeeds** finds what the search without marks finds. -/
theorem search_finds {ids : List α} {after : Search α}
    (h : visitAll needs fuel ids .fresh = .ok after) :
    Finds (neededBy needs) [] [] ids after.order ∧ ∀ a ∈ after.order, ∃ ids, needs a = .ok ids := by
  obtain ⟨found, hfound⟩ := visitAll_found visit_found h marked_fresh
  have horder : after.order = found := hfound.order
  rw [horder]
  exact ⟨hfound.finds, hfound.accepted⟩

/-! ## The search succeeds -/

/-- Items that are accepted and ranked above what they need. -/
def Ranked (needs : α → Except ε (List α)) (good : α → Prop) (rank : α → ℕ) : Prop :=
  ∀ a, good a → ∃ ids, needs a = .ok ids ∧ ∀ b ∈ ids, good b ∧ rank b < rank a

/-- INTERNAL: the loop over ranked items, from what is known of each visit. -/
theorem visitAll_ok {good : α → Prop} {rank : α → ℕ} {bound : ℕ}
    (hvisit : ∀ {id : α} {search : Search α}, good id → rank id < bound →
      (∀ a, search.mark a = .visiting → rank id < rank a) →
        ∃ after, visit needs fuel id search = .ok after ∧
          ∀ a, after.mark a = .visiting ↔ search.mark a = .visiting)
    {ids : List α} {search : Search α} (hids : ∀ id ∈ ids, good id ∧ rank id < bound)
    (hsearch : ∀ a, search.mark a = .visiting → ∀ id ∈ ids, rank id < rank a) :
    ∃ after, visitAll needs fuel ids search = .ok after ∧
      ∀ a, after.mark a = .visiting ↔ search.mark a = .visiting := by
  induction ids generalizing search with
  | nil => exact ⟨search, rfl, fun _ => Iff.rfl⟩
  | cons id ids ih =>
    obtain ⟨hgood, hrank⟩ := hids id List.mem_cons_self
    obtain ⟨middle, hfirst, hmiddle⟩ :=
      hvisit hgood hrank fun a ha => hsearch a ha id List.mem_cons_self
    obtain ⟨after, hrest, hafter⟩ := ih (fun i hi => hids i (List.mem_cons_of_mem _ hi))
      fun a ha i hi => hsearch a ((hmiddle a).mp ha) i (List.mem_cons_of_mem _ hi)
    refine ⟨after, ?_, fun a => (hafter a).trans (hmiddle a)⟩
    unfold visitAll at hrest ⊢
    rw [List.foldlM_cons, hfirst]
    exact hrest

/-- **Ranked items are visited**, with more fuel than the rank. -/
theorem visit_ok {good : α → Prop} {rank : α → ℕ} (hranked : Ranked needs good rank) {id : α}
    {search : Search α} (hgood : good id) (hfuel : rank id < fuel)
    (hsearch : ∀ a, search.mark a = .visiting → rank id < rank a) :
    ∃ after, visit needs fuel id search = .ok after ∧
      ∀ a, after.mark a = .visiting ↔ search.mark a = .visiting := by
  induction fuel generalizing id search with
  | zero => omega
  | succ fuel ih =>
    unfold visit
    cases hmark : search.mark id with
    | visiting => exact absurd (hsearch id hmark) (Nat.lt_irrefl _)
    | visited => exact ⟨search, rfl, fun _ => Iff.rfl⟩
    | unvisited =>
      obtain ⟨ids, hneeds, hids⟩ := hranked id hgood
      have henter : ∀ a, (search.enter id).mark a = .visiting → rank id ≤ rank a := by
        intro a ha
        rcases eq_or_ne a id with rfl | hne
        · exact Nat.le_refl _
        · exact Nat.le_of_lt (hsearch a (by simpa [Search.enter, hne] using ha))
      obtain ⟨inner, hinner, hmarks⟩ : ∃ inner,
          visitAll needs fuel ids (search.enter id) = .ok inner ∧
            ∀ a, inner.mark a = .visiting ↔ (search.enter id).mark a = .visiting := by
        apply visitAll_ok ih
        · intro b hb
          exact ⟨(hids b hb).1, by have := (hids b hb).2; omega⟩
        · intro a ha b hb
          exact Nat.lt_of_lt_of_le (hids b hb).2 (henter a ha)
      refine ⟨inner.leave id, ?_, fun a => ?_⟩
      · unfold visitAll at hinner
        simp [hneeds, hinner, bind, Except.bind, pure, Except.pure]
      · rcases eq_or_ne a id with rfl | hne
        · simp [Search.leave, hmark]
        · have := hmarks a
          simpa [Search.leave, Search.enter, hne] using this

/-- The place of an item in a list. -/
def place (items : List α) (a : α) : ℕ := items.idxOf a

theorem place_lt_length {items : List α} {a : α} (h : a ∈ items) : place items a < items.length :=
  List.idxOf_lt_length_iff.mpr h

/-- An ordered list ranks its items by their places. -/
theorem Ordered.place_lt {deps : α → List α} {items : List α} (h : Ordered deps [] items)
    (hnodup : items.Nodup) {a b : α} (ha : a ∈ items) (hb : b ∈ deps a) :
    b ∈ items ∧ place items b < place items a := by
  obtain ⟨front, behind, rfl⟩ := List.append_of_mem ha
  obtain ⟨-, hdeps, -⟩ := ordered_append.mp h
  have hfront : b ∈ front := by simpa using hdeps b hb
  have hnot : a ∉ front := fun hmem =>
    (List.nodup_append.mp hnodup).2.2 a hmem a List.mem_cons_self rfl
  refine ⟨List.mem_append_left _ hfront, ?_⟩
  unfold place
  rw [List.idxOf_append_of_mem hfront, List.idxOf_append_of_notMem hnot, List.idxOf_cons_self]
  exact List.idxOf_lt_length_iff.mpr hfront

/-- **A search of ranked items succeeds.** -/
theorem search_ok {good : α → Prop} {rank : α → ℕ} (hranked : Ranked needs good rank)
    {ids : List α} (hids : ∀ id ∈ ids, good id ∧ rank id < fuel) :
    ∃ after, visitAll needs fuel ids .fresh = .ok after := by
  obtain ⟨after, hrun, -⟩ := visitAll_ok (visit_ok hranked) hids
    fun a (ha : Search.fresh.mark a = .visiting) => absurd ha (by simp [Search.fresh])
  exact ⟨after, hrun⟩

/-! ## The fuel suffices -/

/-- How many of the items are not visited yet. -/
def unvisited (items : List α) (search : Search α) : ℕ :=
  items.countP fun id => search.mark id == .unvisited

/-- A search that has not run out of fuel and has taken no marks away. -/
def Progresses (items : List α) (search : Search α) (run : Except (Fault α ε) (Search α)) : Prop :=
  run ≠ .error .exhausted ∧ ∀ after, run = .ok after → unvisited items after ≤ unvisited items search

/-- INTERNAL: another mark than none takes no marks away. -/
theorem unvisited_update_le (items : List α) {search after : Search α} {id : α} {mark : Mark}
    (hmark : mark ≠ .unvisited) (hafter : after.mark = Function.update search.mark id mark) :
    unvisited items after ≤ unvisited items search := by
  apply List.countP_mono_left
  intro a _ ha
  rw [hafter] at ha
  rcases eq_or_ne a id with rfl | hne
  · simp [hmark] at ha
  · simpa [hne] using ha

theorem Search.unvisited_enter_le (search : Search α) (items : List α) (id : α) :
    unvisited items (search.enter id) ≤ unvisited items search :=
  unvisited_update_le items (show Mark.visiting ≠ .unvisited by decide) rfl

theorem Search.unvisited_leave_le (search : Search α) (items : List α) (id : α) :
    unvisited items (search.leave id) ≤ unvisited items search :=
  unvisited_update_le items (show Mark.visited ≠ .unvisited by decide) rfl

/-- INTERNAL: a mark on an item that had none. -/
theorem unvisited_enter_lt {items : List α} {search : Search α} {id : α} (hid : id ∈ items)
    (hmark : search.mark id = .unvisited) :
    unvisited items (search.enter id) < unvisited items search := by
  obtain ⟨front, rest, rfl⟩ := List.append_of_mem hid
  have hfront := search.unvisited_enter_le front id
  have hrest := search.unvisited_enter_le rest id
  unfold unvisited at hfront hrest ⊢
  rw [List.countP_append, List.countP_append, List.countP_cons_of_neg (by simp [Search.enter]),
    List.countP_cons_of_pos (by simp [hmark])]
  omega

/-- INTERNAL: the loop over some items, from what is known of each visit. -/
theorem visitAll_progresses {items : List α}
    (hvisit : ∀ {id : α} {search : Search α}, unvisited items search < fuel →
      Progresses items search (visit needs fuel id search))
    {ids : List α} {search : Search α} (hfuel : unvisited items search < fuel) :
    Progresses items search (visitAll needs fuel ids search) := by
  induction ids generalizing search with
  | nil =>
    refine ⟨by simp [visitAll, pure, Except.pure], fun after h => ?_⟩
    cases h
    exact Nat.le_refl _
  | cons id ids ih =>
    have hstep : Progresses items search (visit needs fuel id search) := hvisit hfuel
    obtain ⟨hnot, hle⟩ := hstep
    unfold visitAll at ih ⊢
    rw [List.foldlM_cons]
    cases hfirst : visit needs fuel id search with
    | error fault =>
      rw [hfirst] at hnot
      exact ⟨hnot, fun after h => by cases h⟩
    | ok middle =>
      have hmiddle := hle middle hfirst
      obtain ⟨hnot', hle'⟩ := ih (Nat.lt_of_le_of_lt hmiddle hfuel)
      exact ⟨hnot', fun after h => Nat.le_trans (hle' after h) hmiddle⟩

/-- **Fuel for one more visit than there are unvisited items** is enough, where only known items
need others. -/
theorem visit_progresses {items : List α}
    (hitems : ∀ a ids, needs a = .ok ids → ids ≠ [] → a ∈ items) {id : α} {search : Search α}
    (hfuel : unvisited items search < fuel) :
    Progresses items search (visit needs fuel id search) := by
  induction fuel generalizing id search with
  | zero => omega
  | succ fuel ih =>
    unfold visit
    cases hmark : search.mark id with
    | visiting => exact ⟨by simp, fun after h => by simp at h⟩
    | visited => exact ⟨by simp, fun after h => by simp at h; exact h ▸ Nat.le_refl _⟩
    | unvisited =>
      cases hneeds : needs id with
      | error cause => exact ⟨by simp, fun after h => by simp at h⟩
      | ok ids =>
        have hinner : Progresses items (search.enter id)
            (visitAll needs fuel ids (search.enter id)) := by
          rcases eq_or_ne ids [] with rfl | hne
          · exact ⟨by simp [visitAll, pure, Except.pure], fun after h => by
              cases h
              exact Nat.le_refl _⟩
          · have := unvisited_enter_lt (hitems id ids hneeds hne) hmark
            exact visitAll_progresses ih (by omega)
        obtain ⟨hnot, hle⟩ := hinner
        unfold visitAll at hnot hle
        simp only
        cases hrun : ids.foldlM (fun search id => visit needs fuel id search) (search.enter id) with
        | error fault =>
          rw [hrun] at hnot
          exact ⟨hnot, fun after h => by cases h⟩
        | ok inner =>
          refine ⟨by simp [bind, Except.bind, pure, Except.pure], fun after h => ?_⟩
          cases h
          exact Nat.le_trans (inner.unvisited_leave_le items id)
            (Nat.le_trans (hle inner hrun) (search.unvisited_enter_le items id))

/-- **A search does not run out of fuel.** -/
theorem search_not_exhausted {items : List α}
    (hitems : ∀ a ids, needs a = .ok ids → ids ≠ [] → a ∈ items) {ids : List α} :
    visitAll needs (items.length + 1) ids .fresh ≠ .error .exhausted :=
  (visitAll_progresses (visit_progresses hitems)
    (Nat.lt_succ_of_le List.countP_le_length)).1

end Tickline.Library.DepthFirst
