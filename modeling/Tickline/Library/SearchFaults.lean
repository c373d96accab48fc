import Mathlib.Data.List.Chain
import Tickline.Library.DepthFirst

/-!
# Where a depth-first search stops

The stack of a search is a path from a root on which each item needs the next, with no item
twice.  So a search that stops at an item that is being visited has found a cycle of the graph,
and one that stops at a refused item has found a path to it (`search_fault`).  A search that
succeeds on every item of a graph shows that there is no cycle (`Ordered.not_needs_itself`).
-/

set_option autoImplicit false

namespace Tickline.Library.DepthFirst

variable {α ε : Type}

/-! ## Paths and cycles -/

/-- A path from a root, on which each item needs the next. -/
structure Path (deps : α → List α) (roots path : List α) : Prop where
  start : ∀ first ∈ path.head?, first ∈ roots
  steps : path.IsChain fun a b => b ∈ deps a

/-- A cycle: each item needs the next, the last is the first again, and no other comes twice. -/
structure IsCycle (deps : α → List α) (items : List α) : Prop where
  closed : ∃ first inner, items = first :: inner ++ [first] ∧ (first :: inner).Nodup
  steps : items.IsChain fun a b => b ∈ deps a

variable {deps : α → List α} {roots : List α}

/-- One item more. -/
theorem Path.concat {path : List α} {a b : α} (h : Path deps roots (path ++ [a]))
    (hb : b ∈ deps a) : Path deps roots (path ++ [a] ++ [b]) where
  start first hfirst := by
    apply h.start
    rwa [List.head?_append_of_ne_nil _ (by simp)] at hfirst
  steps := by
    refine List.isChain_append.mpr ⟨h.steps, List.isChain_singleton b, ?_⟩
    intro x hx y hy
    obtain rfl : a = x := by simpa using hx
    obtain rfl : b = y := by simpa using hy
    exact hb

/-- INTERNAL: the last item of a path is needed by its first. -/
theorem needs_getLast {path : List α} {first last : α}
    (hsteps : path.IsChain fun a b => b ∈ deps a) (hfirst : first ∈ path.head?)
    (hlast : last ∈ path.getLast?) : Needs deps first last := by
  induction path generalizing first with
  | nil => simp at hfirst
  | cons a path ih =>
    obtain rfl : a = first := by simpa using hfirst
    cases path with
    | nil =>
      obtain rfl : a = last := by simpa using hlast
      exact .refl
    | cons b path =>
      rw [List.isChain_cons_cons] at hsteps
      rw [List.getLast?_cons_cons] at hlast
      exact .head hsteps.1 (ih hsteps.2 rfl hlast)

/-- **Where a path leads** is needed by a root. -/
theorem Path.needed {path : List α} {a : α} (h : Path deps roots (path ++ [a])) :
    ∃ root ∈ roots, Needs deps root a := by
  cases hfirst : (path ++ [a]).head? with
  | none => simp at hfirst
  | some first => exact ⟨first, h.start first hfirst, needs_getLast h.steps hfirst (by simp)⟩

/-- An item on a cycle needs itself. -/
theorem IsCycle.needs_itself {items : List α} (h : IsCycle deps items) :
    ∃ a ∈ items, Relation.TransGen (fun a b => b ∈ deps a) a a := by
  obtain ⟨first, inner, rfl, -⟩ := h.closed
  refine ⟨first, by simp, ?_⟩
  have hsteps := h.steps
  cases hinner : inner ++ [first] with
  | nil => simp at hinner
  | cons second rest =>
    rw [List.cons_append, hinner, List.isChain_cons_cons] at hsteps
    refine Relation.TransGen.head' hsteps.1 (needs_getLast hsteps.2 rfl ?_)
    rw [← hinner]
    simp

/-- **An order has no cycle**: the items listed behind what they need do not need themselves. -/
theorem Ordered.not_needs_itself [DecidableEq α] {items : List α} (h : Ordered deps [] items)
    (hnodup : items.Nodup) {a : α} (ha : a ∈ items) :
    ¬ Relation.TransGen (fun a b => b ∈ deps a) a a := by
  have hlt : ∀ b, Relation.TransGen (fun a b => b ∈ deps a) a b →
      b ∈ items ∧ place items b < place items a := by
    intro b hb
    induction hb with
    | single hstep => exact h.place_lt hnodup ha hstep
    | tail _ hstep ih =>
      obtain ⟨hmem, hplace⟩ := h.place_lt hnodup ih.1 hstep
      exact ⟨hmem, hplace.trans ih.2⟩
  exact fun hself => Nat.lt_irrefl _ (hlt a hself).2

/-- INTERNAL: a path that comes back to an item of its own has a cycle at its end. -/
theorem isCycle_dropWhile [DecidableEq α] {stack : List α} {id : α} (hnodup : stack.Nodup)
    (hid : id ∈ stack) (hsteps : (stack ++ [id]).IsChain fun a b => b ∈ deps a) :
    ∃ front inner, stack = front ++ id :: inner ∧ stack.dropWhile (· ≠ id) = id :: inner ∧
      IsCycle deps (id :: inner ++ [id]) := by
  obtain ⟨front, inner, rfl⟩ := List.append_of_mem hid
  obtain ⟨-, hinner, happart⟩ := List.nodup_append.mp hnodup
  refine ⟨front, inner, rfl, ?_, ⟨id, inner, rfl, hinner⟩, ?_⟩
  · rw [List.dropWhile_append_of_pos, List.dropWhile_cons_of_neg (by simp)]
    intro a ha
    exact decide_eq_true (happart a ha id List.mem_cons_self)
  · rw [List.append_assoc] at hsteps
    exact (List.isChain_append.mp hsteps).2.1

/-! ## The stack of a search -/

variable [DecidableEq α] {needs : α → Except ε (List α)} {fuel : ℕ}

/-- The items being visited are those on the stack, each once. -/
structure OnTrail (search : Search α) : Prop where
  marked : Marked search search.stack
  nodup : search.stack.Nodup

omit [DecidableEq α] in
theorem onTrail_fresh : OnTrail (Search.fresh : Search α) := ⟨marked_fresh, List.nodup_nil⟩

/-- INTERNAL: the trail behind the beginning of a visit. -/
theorem OnTrail.enter {search : Search α} (h : OnTrail search) {id : α}
    (hid : search.mark id = .unvisited) : OnTrail (search.enter id) := by
  have hmarked := h.marked.enter hid
  have hnot : id ∉ search.stack := (h.marked.visiting id).not.mp (by simp [hid])
  constructor
  · constructor
    · intro a
      rw [hmarked.visiting a]
      simp [Search.enter, or_comm]
    · exact hmarked.visited
  · exact List.nodup_append.mpr ⟨h.nodup, List.nodup_singleton id, by
      intro a ha b hb heq
      obtain rfl := List.mem_singleton.mp hb
      exact hnot (heq ▸ ha)⟩

/-- INTERNAL: the loop over some items leaves the stack, if each visit does. -/
theorem visitAll_stack
    (hvisit : ∀ {id : α} {search after : Search α}, visit needs fuel id search = .ok after →
      after.stack = search.stack) {ids : List α} {search after : Search α}
    (h : visitAll needs fuel ids search = .ok after) : after.stack = search.stack := by
  induction ids generalizing search with
  | nil =>
    cases h
    rfl
  | cons id ids ih =>
    cases hfirst : visit needs fuel id search with
    | error fault => simp [visitAll, List.foldlM_cons, hfirst, bind, Except.bind] at h
    | ok middle =>
      have hrest : visitAll needs fuel ids middle = .ok after := by
        simpa [visitAll, List.foldlM_cons, hfirst, bind, Except.bind] using h
      rw [ih hrest, hvisit hfirst]

/-- **A visit leaves the stack as it was.** -/
theorem visit_stack {id : α} {search after : Search α}
    (h : visit needs fuel id search = .ok after) : after.stack = search.stack := by
  induction fuel generalizing id search after with
  | zero => simp [visit] at h
  | succ fuel ih =>
    unfold visit at h
    cases hmark : search.mark id with
    | visiting => simp [hmark] at h
    | visited =>
      simp only [hmark, Except.ok.injEq] at h
      rw [h]
    | unvisited =>
      cases hneeds : needs id with
      | error cause => simp [hmark, hneeds] at h
      | ok ids =>
        cases hinner : visitAll needs fuel ids (search.enter id) with
        | error fault =>
          unfold visitAll at hinner
          simp [hmark, hneeds, hinner, bind, Except.bind] at h
        | ok inner =>
          have hafter : inner.leave id = after := by
            unfold visitAll at hinner
            simpa [hmark, hneeds, hinner, bind, Except.bind, pure, Except.pure] using h
          subst hafter
          show inner.stack.dropLast = search.stack
          rw [visitAll_stack ih hinner]
          simp [Search.enter]

/-- INTERNAL: a visit that succeeds stays on the trail. -/
theorem OnTrail.visited {search after : Search α} (h : OnTrail search) {id : α}
    (hvisit : visit needs fuel id search = .ok after) : OnTrail after := by
  have hstack := visit_stack hvisit
  obtain ⟨found, hfound⟩ := visit_found hvisit h.marked
  exact ⟨hstack ▸ hfound.marked, hstack ▸ h.nodup⟩

/-! ## Faults -/

/-- What a fault says of the graph. -/
def Fault.Explained (needs : α → Except ε (List α)) (roots : List α) : Fault α ε → Prop
  | .cycle stack id =>
    stack.Nodup ∧ id ∈ stack ∧ Path (neededBy needs) roots (stack ++ [id])
  | .refused stack cause =>
    ∃ id, needs id = .error cause ∧ Path (neededBy needs) roots (stack ++ [id])
  | .exhausted => True

/-- INTERNAL: the loop over some items, from what is known of each visit. -/
theorem visitAll_fault
    (hvisit : ∀ {id : α} {search : Search α} {fault : Fault α ε},
      visit needs fuel id search = .error fault → OnTrail search →
        Path (neededBy needs) roots (search.stack ++ [id]) → fault.Explained needs roots)
    {ids : List α} {search : Search α} {fault : Fault α ε}
    (h : visitAll needs fuel ids search = .error fault) (htrail : OnTrail search)
    (hpath : ∀ id ∈ ids, Path (neededBy needs) roots (search.stack ++ [id])) :
    fault.Explained needs roots := by
  induction ids generalizing search with
  | nil => cases h
  | cons id ids ih =>
    cases hfirst : visit needs fuel id search with
    | error other =>
      obtain rfl : other = fault := by
        simpa [visitAll, List.foldlM_cons, hfirst, bind, Except.bind] using h
      exact hvisit hfirst htrail (hpath id List.mem_cons_self)
    | ok middle =>
      have hrest : visitAll needs fuel ids middle = .error fault := by
        simpa [visitAll, List.foldlM_cons, hfirst, bind, Except.bind] using h
      refine ih hrest (htrail.visited hfirst) fun other hother => ?_
      rw [visit_stack hfirst]
      exact hpath other (List.mem_cons_of_mem _ hother)

/-- **A visit that fails** is explained by a path from a root. -/
theorem visit_fault {id : α} {search : Search α} {fault : Fault α ε}
    (h : visit needs fuel id search = .error fault) (htrail : OnTrail search)
    (hpath : Path (neededBy needs) roots (search.stack ++ [id])) :
    fault.Explained needs roots := by
  induction fuel generalizing id search fault with
  | zero =>
    obtain rfl : Fault.exhausted = fault := by simpa [visit] using h
    trivial
  | succ fuel ih =>
    unfold visit at h
    cases hmark : search.mark id with
    | visiting =>
      obtain rfl : Fault.cycle search.stack id = fault := by simpa [hmark] using h
      exact ⟨htrail.nodup, (htrail.marked.visiting id).mp hmark, hpath⟩
    | visited => simp [hmark] at h
    | unvisited =>
      cases hneeds : needs id with
      | error cause =>
        obtain rfl : Fault.refused search.stack cause = fault := by simpa [hmark, hneeds] using h
        exact ⟨id, hneeds, hpath⟩
      | ok ids =>
        have hdeps : neededBy needs id = ids := by simp [neededBy, hneeds]
        cases hinner : visitAll needs fuel ids (search.enter id) with
        | error other =>
          obtain rfl : other = fault := by
            unfold visitAll at hinner
            simpa [hmark, hneeds, hinner, bind, Except.bind] using h
          exact visitAll_fault ih hinner (htrail.enter hmark) fun next hnext =>
            hpath.concat (hdeps ▸ hnext)
        | ok inner =>
          unfold visitAll at hinner
          simp [hmark, hneeds, hinner, bind, Except.bind, pure, Except.pure] at h

/-- **A search that fails** has found a cycle or a path to a refused item, or has run out of
fuel. -/
theorem search_fault {ids : List α} {fault : Fault α ε}
    (h : visitAll needs fuel ids .fresh = .error fault) : fault.Explained needs ids := by
  refine visitAll_fault visit_fault h onTrail_fresh fun id hid => ⟨?_, List.isChain_singleton id⟩
  intro first hfirst
  obtain rfl : id = first := by simpa [Search.fresh] using hfirst
  exact hid

/-! ## More fuel -/

/-- INTERNAL: the loop over some items, from what is known of each visit. -/
theorem visitAll_mono
    (hvisit : ∀ {id : α} {search : Search α}, visit needs fuel id search ≠ .error .exhausted →
      visit needs (fuel + 1) id search = visit needs fuel id search)
    {ids : List α} {search : Search α} (h : visitAll needs fuel ids search ≠ .error .exhausted) :
    visitAll needs (fuel + 1) ids search = visitAll needs fuel ids search := by
  induction ids generalizing search with
  | nil => rfl
  | cons id ids ih =>
    unfold visitAll at ih h ⊢
    rw [List.foldlM_cons] at h
    rw [List.foldlM_cons, List.foldlM_cons]
    cases hfirst : visit needs fuel id search with
    | error fault =>
      rw [hfirst] at h
      rw [hvisit (by rw [hfirst]; exact h), hfirst]
      rfl
    | ok middle =>
      rw [hfirst] at h
      rw [hvisit (by simp [hfirst]), hfirst]
      exact ih h

/-- INTERNAL: one unit of fuel more. -/
theorem visit_mono {id : α} {search : Search α}
    (h : visit needs fuel id search ≠ .error .exhausted) :
    visit needs (fuel + 1) id search = visit needs fuel id search := by
  induction fuel generalizing id search with
  | zero => exact absurd rfl h
  | succ fuel ih =>
    rw [visit] at h
    rw [visit, visit]
    cases hmark : search.mark id with
    | visiting => rfl
    | visited => rfl
    | unvisited =>
      cases hneeds : needs id with
      | error cause => rfl
      | ok ids =>
        have hinner : visitAll needs fuel ids (search.enter id) ≠ .error .exhausted := by
          intro hexhausted
          unfold visitAll at hexhausted
          simp [hmark, hneeds, hexhausted, bind, Except.bind] at h
        have hmore := visitAll_mono ih hinner
        unfold visitAll at hmore
        simp only [hmore]

/-- **A search that has fuel enough** does the same with more. -/
theorem visitAll_eq_of_le {ids : List α} {search : Search α} {more : ℕ}
    (h : visitAll needs fuel ids search ≠ .error .exhausted) (hle : fuel ≤ more) :
    visitAll needs more ids search = visitAll needs fuel ids search := by
  induction more, hle using Nat.le_induction with
  | base => rfl
  | succ more _ ih =>
    rw [visitAll_mono visit_mono (by rw [ih]; exact h), ih]

end Tickline.Library.DepthFirst
