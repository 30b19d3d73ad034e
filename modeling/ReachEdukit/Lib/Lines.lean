import ReachEdukit.Lib.Turns

/-!
# Texts of lines

A text is lines, each with a terminator behind it, and maybe one more line without. A reader that
gives the lines that are good one by one gives all lines of a text of such lines. Here the terminator
is any item and what makes a line good is the reader's affair.

## Main definitions

* `Lines.unlines` — the lines, each with its terminator
* `Lines.Reads` — a reader of the lines that are good

## Main results

* `Lines.exists_unlines` — a text is such lines
* `Lines.Reads.all_unlines`, `Lines.Reads.all_unlines_append` — what the reader makes of a text
-/

namespace Lines

variable {α : Type*} {nl : α}

/-- The lines, each with its terminator. -/
def unlines (nl : α) (ls : List (List α)) : List α := ls.flatMap fun l => l ++ [nl]

@[simp] theorem unlines_nil : unlines nl [] = [] := rfl

@[simp] theorem unlines_cons (l : List α) (ls : List (List α)) :
    unlines nl (l :: ls) = l ++ nl :: unlines nl ls := by
  rw [unlines, List.flatMap_cons, List.append_assoc, List.singleton_append]
  rfl

theorem unlines_append (ls ls' : List (List α)) :
    unlines nl (ls ++ ls') = unlines nl ls ++ unlines nl ls' := List.flatMap_append

/-- A text is lines with terminators, and a line without. -/
theorem exists_unlines (nl : α) (text : List α) : ∃ ls last, text = unlines nl ls ++ last ∧
    (∀ l ∈ ls, nl ∉ l) ∧ nl ∉ last := by
  induction text with
  | nil => exact ⟨[], [], rfl, fun l hl => absurd hl List.not_mem_nil, List.not_mem_nil⟩
  | cons a text ih =>
    obtain ⟨ls, last, rfl, hls, hlast⟩ := ih
    by_cases ha : a = nl
    · refine ⟨[] :: ls, last, ?_, ?_, hlast⟩
      · rw [ha, unlines_cons]
        rfl
      · intro l hl
        obtain rfl | hl := List.mem_cons.mp hl
        · exact List.not_mem_nil
        · exact hls l hl
    · have hcons : ∀ l : List α, nl ∉ l → nl ∉ a :: l := by
        intro l hl hmem
        obtain h | h := List.mem_cons.mp hmem
        · exact ha h.symm
        · exact hl h
      cases ls with
      | nil =>
        exact ⟨[], a :: last, rfl, fun l hl => absurd hl List.not_mem_nil, hcons last hlast⟩
      | cons l ls =>
        refine ⟨(a :: l) :: ls, last, ?_, ?_, hlast⟩
        · rw [unlines_cons, unlines_cons]
          rfl
        · intro l' hl'
          obtain rfl | hl' := List.mem_cons.mp hl'
          · exact hcons l (hls l List.mem_cons_self)
          · exact hls l' (List.mem_cons_of_mem _ hl')

/-- A reader of the lines that are good. -/
structure Reads (read : List α → Option (List α × List α)) (nl : α) (Good : List α → Prop) :
    Prop where
  /-- Every turn leaves less than it found. -/
  shrinks : Turns.Shrinks read
  /-- There is no line at the end. -/
  eof : read [] = none
  /-- A line is read with its terminator. -/
  line : ∀ l rest, Good l → read (l ++ nl :: rest) = some (l, rest)
  /-- A line without one is the last. -/
  last : ∀ l, Good l → l ≠ [] → read l = some (l, [])

variable {read : List α → Option (List α × List α)} {Good : List α → Prop} {ls : List (List α)}
  {last : List α}

/-- Lines in front of a text. -/
theorem Reads.all_append (h : Reads read nl Good) (hls : ∀ l ∈ ls, Good l) (text : List α) :
    Turns.all read (unlines nl ls ++ text) = ls ++ Turns.all read text := by
  induction ls with
  | nil => rfl
  | cons l ls ih =>
    have hl : Good l := hls l List.mem_cons_self
    have hread : read (unlines nl (l :: ls) ++ text) = some (l, unlines nl ls ++ text) := by
      rw [unlines_cons, List.append_assoc, List.cons_append]
      exact h.line l _ hl
    rw [Turns.all_of_some h.shrinks hread, ih fun l hl => hls l (List.mem_cons_of_mem _ hl)]
    rfl

/-- **A text of lines** is read as it is. -/
theorem Reads.all_unlines (h : Reads read nl Good) (hls : ∀ l ∈ ls, Good l) :
    Turns.all read (unlines nl ls) = ls := by
  have happend := h.all_append hls []
  rwa [List.append_nil, Turns.all_of_none h.eof, List.append_nil] at happend

/-- So is one with a line more. -/
theorem Reads.all_unlines_append (h : Reads read nl Good) (hls : ∀ l ∈ ls, Good l)
    (hlast : Good last) (hne : last ≠ []) : Turns.all read (unlines nl ls ++ last) = ls ++ [last] := by
  rw [h.all_append hls, Turns.all_of_some h.shrinks (h.last last hlast hne), Turns.all_of_none h.eof]

end Lines
