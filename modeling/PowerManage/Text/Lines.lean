import Mathlib.Data.List.Basic
import Mathlib.Data.List.Induction

/-!
# Lines of a text

A text is a list of symbols, and one symbol ends a line.  The last line of a text may lack
its end, and a text that ends with an end of line has no further empty line after it.

Main results:

- `terminate_eq`: ending the last line of a text is writing out its lines.
- `lines_unlines_append`: the lines of a text that starts with whole lines are these
  lines and the lines of the rest.
- `splitOn_unlines_append`: the same for the parts between the ends of lines.
-/

namespace PowerManage.Lines

open List

variable {α : Type} (nl : α)

/-- The text of a list of lines, each with its end. -/
def unlines (ls : List (List α)) : List α :=
  ls.flatMap (· ++ [nl])

section Splitting

variable [DecidableEq α]

/-- The lines of a text without their ends; what follows the last end is a line unless it
is empty. -/
def lines (text : List α) : List (List α) :=
  if (text.splitOn nl).getLastD [] = [] then (text.splitOn nl).dropLast else text.splitOn nl

/-- A text whose last line is ended, if it has one. -/
def terminate (text : List α) : List α :=
  if text ≠ [] ∧ text.getLast? ≠ some nl then text ++ [nl] else text

end Splitting

variable {nl}

@[simp]
theorem unlines_nil : unlines nl [] = [] :=
  rfl

@[simp]
theorem unlines_cons (l : List α) (ls : List (List α)) :
    unlines nl (l :: ls) = l ++ nl :: unlines nl ls := by
  simp [unlines]

@[simp]
theorem unlines_append (ls ms : List (List α)) :
    unlines nl (ls ++ ms) = unlines nl ls ++ unlines nl ms :=
  flatMap_append

theorem forall_ne_of_not_mem {α : Type} [DecidableEq α] {sep : α} {l : List α} (h : sep ∉ l) :
    ∀ b ∈ l, decide (b ≠ sep) = true :=
  fun _ hb => decide_eq_true fun heq => h (heq ▸ hb)

/-- The parts of a split list hold elements of the list other than the separator. -/
theorem mem_of_mem_splitOn {α : Type} [BEq α] [LawfulBEq α] {sep b : α} {l part : List α}
    (h : part ∈ l.splitOn sep) (hb : b ∈ part) : b ∈ l ∧ b ≠ sep := by
  induction l generalizing part with
  | nil => simp_all
  | cons a l ih =>
    rw [splitOn_cons_eq_if_modifyHead] at h
    by_cases ha : a = sep
    · simp only [ha, beq_self_eq_true, if_true, mem_cons] at h
      rcases h with rfl | h
      · simp at hb
      · exact ⟨mem_cons_of_mem _ (ih h hb).1, (ih h hb).2⟩
    · simp only [beq_iff_eq, ha, if_false] at h
      cases hsplit : l.splitOn sep with
      | nil => exact absurd hsplit (splitOn_ne_nil _ _)
      | cons first rest =>
        rw [hsplit] at ih
        rw [hsplit, modifyHead_cons, mem_cons] at h
        rcases h with rfl | h
        · rcases mem_cons.mp hb with rfl | hb
          · exact ⟨mem_cons_self, ha⟩
          · have hfirst := ih mem_cons_self hb
            exact ⟨mem_cons_of_mem _ hfirst.1, hfirst.2⟩
        · have hrest := ih (mem_cons_of_mem _ h) hb
          exact ⟨mem_cons_of_mem _ hrest.1, hrest.2⟩

variable [DecidableEq α]

@[simp]
theorem lines_nil : lines nl [] = [] := by
  simp [lines]

/-- No part of a split text holds the end of line. -/
theorem not_mem_of_mem_splitOn {text l : List α} (h : l ∈ text.splitOn nl) : nl ∉ l :=
  fun hmem => (mem_of_mem_splitOn h hmem).2 rfl

theorem not_mem_of_mem_lines {text l : List α} (h : l ∈ lines nl text) : nl ∉ l := by
  rw [lines] at h
  by_cases hlast : (text.splitOn nl).getLastD [] = []
  · rw [if_pos hlast] at h
    exact not_mem_of_mem_splitOn (dropLast_subset _ h)
  · rw [if_neg hlast] at h
    exact not_mem_of_mem_splitOn h

variable {ls : List (List α)}

/-- Whole lines at the start of a text are its first parts. -/
theorem splitOn_unlines_append (h : ∀ l ∈ ls, nl ∉ l) (text : List α) :
    (unlines nl ls ++ text).splitOn nl = ls ++ text.splitOn nl := by
  induction ls with
  | nil => simp
  | cons l ls ih =>
    rw [unlines_cons, append_assoc, cons_append, splitOn_append_cons_self,
      splitOn_eq_singleton (h l mem_cons_self),
      ih (forall_mem_cons.mp h).2]
    rfl

/-- The lines of a text that starts with whole lines. -/
theorem lines_unlines_append (h : ∀ l ∈ ls, nl ∉ l) (text : List α) :
    lines nl (unlines nl ls ++ text) = ls ++ lines nl text := by
  have hne : text.splitOn nl ≠ [] := splitOn_ne_nil _ _
  have hlast : (ls ++ text.splitOn nl).getLastD [] = (text.splitOn nl).getLastD [] := by
    rw [getLastD_eq_getLast?, getLastD_eq_getLast?, getLast?_append,
      getLast?_eq_some_getLast hne, Option.some_or]
  rw [lines, lines, splitOn_unlines_append h, hlast]
  by_cases hend : (text.splitOn nl).getLastD [] = []
  · rw [if_pos hend, if_pos hend, dropLast_append_of_ne_nil hne]
  · rw [if_neg hend, if_neg hend]

@[simp]
theorem lines_unlines (h : ∀ l ∈ ls, nl ∉ l) : lines nl (unlines nl ls) = ls := by
  have happend := lines_unlines_append h ([] : List α)
  rwa [append_nil, lines_nil, append_nil] at happend

omit [DecidableEq α] in
/-- Joining lines ends all but the last part. -/
theorem intercalate_append (ls : List (List α)) {rest : List (List α)} (hrest : rest ≠ []) :
    [nl].intercalate (ls ++ rest) = unlines nl ls ++ [nl].intercalate rest := by
  induction ls with
  | nil => simp
  | cons l ls ih =>
    cases hcase : ls ++ rest with
    | nil => exact absurd (append_eq_nil_iff.mp hcase).2 hrest
    | cons m more =>
      rw [cons_append, hcase, intercalate_cons_cons, ← hcase, ih, unlines_cons]
      simp

/-- The parts of a text are those before the last end and what follows it. -/
theorem splitOn_eq_dropLast_append (text : List α) :
    text.splitOn nl = (text.splitOn nl).dropLast ++ [(text.splitOn nl).getLastD []] := by
  rw [getLastD_eq_getLast?, getLast?_eq_some_getLast (splitOn_ne_nil nl text),
    Option.getD_some, dropLast_append_getLast]

/-- A text is its ended lines and what follows the last end. -/
theorem unlines_dropLast_splitOn (text : List α) :
    unlines nl (text.splitOn nl).dropLast ++ (text.splitOn nl).getLastD [] = text := by
  calc unlines nl (text.splitOn nl).dropLast ++ (text.splitOn nl).getLastD []
      = [nl].intercalate ((text.splitOn nl).dropLast ++ [(text.splitOn nl).getLastD []]) := by
        rw [intercalate_append _ (cons_ne_nil _ _), intercalate_singleton]
    _ = [nl].intercalate (text.splitOn nl) := by rw [← splitOn_eq_dropLast_append]
    _ = text := intercalate_splitOn nl

/-- Nothing follows the last end of line if the text is empty or ends with one. -/
theorem getLastD_splitOn_eq_nil_iff {text : List α} :
    (text.splitOn nl).getLastD [] = [] ↔ text = [] ∨ text.getLast? = some nl := by
  constructor
  · intro hlast
    have htext : unlines nl (text.splitOn nl).dropLast ++ (text.splitOn nl).getLastD [] = text :=
      unlines_dropLast_splitOn text
    rw [hlast, append_nil] at htext
    cases hparts : (text.splitOn nl).dropLast using reverseRecOn with
    | nil =>
      rw [hparts] at htext
      exact .inl htext.symm
    | append_singleton ls l =>
      rw [hparts] at htext
      rw [← htext]
      simp
  · rintro (hnil | hlast)
    · rw [hnil]
      simp
    · rcases getLast?_eq_some_iff.mp hlast with ⟨front, hfront⟩
      rw [hfront, splitOn_append_cons_self, splitOn_nil]
      simp

/-- Ending the last line of a text is writing out its lines. -/
theorem terminate_eq (text : List α) : terminate nl text = unlines nl (lines nl text) := by
  have htext : unlines nl (text.splitOn nl).dropLast ++ (text.splitOn nl).getLastD [] = text :=
    unlines_dropLast_splitOn text
  have hempty : (text.splitOn nl).getLastD [] = [] ↔ text = [] ∨ text.getLast? = some nl :=
    getLastD_splitOn_eq_nil_iff
  rw [terminate, lines]
  by_cases hlast : (text.splitOn nl).getLastD [] = []
  · rw [if_pos hlast, if_neg (by rw [← not_or, not_not]; exact hempty.mp hlast)]
    rw [hlast, append_nil] at htext
    exact htext.symm
  · rw [if_neg hlast, if_pos (not_or.mp fun h => hlast (hempty.mpr h))]
    calc text ++ [nl]
        = unlines nl (text.splitOn nl).dropLast ++ (text.splitOn nl).getLastD [] ++ [nl] := by
          rw [htext]
      _ = unlines nl ((text.splitOn nl).dropLast ++ [(text.splitOn nl).getLastD []]) := by
          rw [unlines_append, unlines_cons, unlines_nil, append_assoc]
      _ = unlines nl (text.splitOn nl) := by rw [← splitOn_eq_dropLast_append]

/-- The lines of a text are the parts of it without a last end of line. -/
theorem lines_eq_splitOn (text : List α) :
    lines nl text = if text = [] then []
      else (if text.getLast? = some nl then text.dropLast else text).splitOn nl := by
  by_cases hnil : text = []
  · rw [hnil, if_pos rfl, lines_nil]
  rw [if_neg hnil, lines]
  by_cases hlast : text.getLast? = some nl
  · rw [if_pos hlast, if_pos (getLastD_splitOn_eq_nil_iff.mpr (.inr hlast))]
    rcases getLast?_eq_some_iff.mp hlast with ⟨front, hfront⟩
    rw [hfront, splitOn_append_cons_self, splitOn_nil]
    simp
  · rw [if_neg hlast, if_neg fun h => (getLastD_splitOn_eq_nil_iff.mp h).elim hnil hlast]

end PowerManage.Lines
