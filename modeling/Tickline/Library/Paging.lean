import Mathlib.Data.List.Basic
import Mathlib.Order.Basic

/-!
# Paging with a cursor

A list is read in pages: a page has the first entries behind a cursor, at most a fixed number
of them, and the next cursor is the key of the page's last entry.  For entries in the strict
order of their keys, a page behind the key of the last entry read is the front of the rest
(`page_behind`), so that reading pages until one is empty reads every entry once and in order
(`collect_eq`).

The order of the keys is any relation that does not relate two keys both ways.
-/

set_option autoImplicit false

namespace Tickline.Library.Paging

variable {α κ ε : Type} {before : κ → κ → Prop} [DecidableRel before] {key : α → κ}

/-- The entries behind a cursor, at most `limit` of them. -/
def page (before : κ → κ → Prop) [DecidableRel before] (key : α → κ) (entries : List α)
    (limit : ℕ) (cursor : Option κ) : List α :=
  (entries.filter fun entry => cursor.all fun k => before k (key entry)).take limit

/-- The cursor behind some entries. -/
def cursorOf (key : α → κ) (entries : List α) : Option κ := entries.getLast?.map key

/-- Read pages until one is empty, with at most `fuel` of them; `none` when the fuel runs out. -/
def collect (key : α → κ) (fetch : Option κ → Except ε (List α)) :
    ℕ → Option κ → Except ε (Option (List α))
  | 0, _ => return none
  | fuel + 1, cursor => do
    let page ← fetch cursor
    if page.isEmpty then return some []
    let rest ← collect key fetch fuel (cursorOf key page)
    return rest.map (page ++ ·)

/-- **A page behind the entries read** is the front of the others. -/
theorem page_behind (hasymm : ∀ a b, before a b → ¬ before b a) {front rest : List α}
    (hordered : (front ++ rest).Pairwise fun a b => before (key a) (key b)) (limit : ℕ) :
    page before key (front ++ rest) limit (cursorOf key front) = rest.take limit := by
  unfold page cursorOf
  rcases List.eq_nil_or_concat' front with rfl | ⟨init, last, rfl⟩
  · simp
  · obtain ⟨hfront, -, hrest⟩ := List.pairwise_append.mp hordered
    have hinit := (List.pairwise_append.mp hfront).2.2
    have hfrontNone : (init ++ [last]).filter (fun entry =>
        (some (key last)).all fun k => before k (key entry)) = [] := by
      rw [List.filter_eq_nil_iff]
      intro entry hentry
      rw [Option.all_some, decide_eq_true_eq]
      rcases List.mem_append.mp hentry with hentry | hentry
      · exact hasymm _ _ (hinit entry hentry last (List.mem_singleton.mpr rfl))
      · obtain rfl := List.mem_singleton.mp hentry
        exact fun h => hasymm _ _ h h
    have hrestAll : rest.filter (fun entry =>
        (some (key last)).all fun k => before k (key entry)) = rest := by
      rw [List.filter_eq_self]
      intro entry hentry
      rw [Option.all_some, decide_eq_true_eq]
      exact hrest last (by simp) entry hentry
    rw [List.getLast?_concat, Option.map_some, List.filter_append, hfrontNone, hrestAll,
      List.nil_append]

/-- INTERNAL: the cursor behind a page that is not empty. -/
theorem cursorOf_append {front page : List α} (h : page ≠ []) :
    cursorOf key (front ++ page) = cursorOf key page := by
  unfold cursorOf
  rw [List.getLast?_append_of_ne_nil _ h]

/-- **Paging is exact**: from the start, with fuel for one page more than there are entries, all
entries are read, each once and in order. -/
theorem collect_eq (hasymm : ∀ a b, before a b → ¬ before b a) {entries : List α}
    (hordered : entries.Pairwise fun a b => before (key a) (key b)) {limit : ℕ} (hlimit : 0 < limit)
    {fetch : Option κ → Except ε (List α)}
    (hfetch : ∀ cursor, fetch cursor = .ok (page before key entries limit cursor)) {fuel : ℕ}
    (hfuel : entries.length < fuel) : collect key fetch fuel none = .ok (some entries) := by
  have hrun : ∀ (fuel : ℕ) (front rest : List α), front ++ rest = entries → rest.length < fuel →
      collect key fetch fuel (cursorOf key front) = .ok (some rest) := by
    intro fuel
    induction fuel with
    | zero => exact fun _ rest _ hfuel => absurd hfuel (Nat.not_lt_zero _)
    | succ fuel ih =>
      rintro front rest rfl hfuel
      have hpage := hfetch (cursorOf key front)
      rw [page_behind hasymm hordered limit] at hpage
      rw [collect, hpage]
      show (if (rest.take limit).isEmpty then _ else _) = _
      cases rest with
      | nil =>
        rw [List.take_nil]
        rfl
      | cons entry rest =>
        have hne : (entry :: rest).take limit ≠ [] := by
          obtain ⟨n, rfl⟩ := Nat.exists_eq_add_of_lt hlimit
          simp
        have hsplit : (front ++ (entry :: rest).take limit) ++ (entry :: rest).drop limit =
            front ++ entry :: rest := by
          rw [List.append_assoc, List.take_append_drop]
        have hshorter : ((entry :: rest).drop limit).length < fuel := by
          rw [List.length_drop]
          simp only [List.length_cons] at hfuel ⊢
          omega
        have hrest := ih _ _ hsplit hshorter
        rw [cursorOf_append hne] at hrest
        rw [if_neg (by simpa using hne), hrest]
        show Except.ok (some (_ ++ _)) = _
        rw [List.take_append_drop]
  exact hrun fuel [] entries rfl hfuel

end Tickline.Library.Paging
