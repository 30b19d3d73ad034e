import ReachEdukit.Lib.Memory
import ReachEdukit.Lib.Run

/-!
# A bounded FIFO, and the ring that holds one

The FIFO is a list. It takes a block as a whole or not at all, and gives out as much of what is asked
for as it has. The ring is a memory with two positions: what lies between them, going around at the
end, is what it holds. One place always stays free, so that the positions tell full from empty.

## Main definitions

* `Fifo.step`, `Fifo.Op`, `Fifo.Answer` — the FIFO
* `Fifo.pushed`, `Fifo.got` — what went in and what came out since it was last emptied
* `Fifo.between` — what a ring holds

## Main results

* `Fifo.pushed_eq_got_append` — what came out, followed by what is inside, is what went in
* `Fifo.between_blit_tail`, `Fifo.between_blit_around` — writing behind what a ring holds
* `Fifo.between_split` — reading at the front of it
-/

namespace Fifo

open Memory

variable {α : Type*}

/-! ### The FIFO -/

/-- What is done with a FIFO. -/
inductive Op (α : Type*)
  /-- Put a block in. -/
  | push (bs : List α)
  /-- Take so many values out. -/
  | get (n : ℕ)
  /-- Empty it. -/
  | reset

/-- What it answers. -/
inductive Answer (α : Type*)
  /-- The block is in. -/
  | pushed (bs : List α)
  /-- There is no room for it. -/
  | full
  /-- The values. -/
  | got (bs : List α)
  /-- It is empty now. -/
  | cleared
  deriving DecidableEq, Repr

/-- A FIFO for fewer than `size` values. -/
def step (size : ℕ) (q : List α) : Op α → List α × Answer α
  | .push bs => if q.length + bs.length < size then (q ++ bs, .pushed bs) else (q, .full)
  | .get n => (q.drop n, .got (q.take n))
  | .reset => ([], .cleared)

/-- What has gone in since it was emptied, when `acc` had gone in before. -/
def goesIn (acc : List α) : Answer α → List α
  | .pushed bs => acc ++ bs
  | .full => acc
  | .got _ => acc
  | .cleared => []

/-- What has come out since it was emptied, when `acc` had come out before. -/
def comesOut (acc : List α) : Answer α → List α
  | .pushed _ => acc
  | .full => acc
  | .got bs => acc ++ bs
  | .cleared => []

/-- What has gone in since the FIFO was last emptied. -/
def pushed (log : List (Answer α)) : List α := log.foldl goesIn []

/-- What has come out since then. -/
def got (log : List (Answer α)) : List α := log.foldl comesOut []

theorem pushed_step {size : ℕ} {q : List α} {log : List (Answer α)} (op : Op α)
    (h : pushed log = got log ++ q) :
    pushed (log ++ [(step size q op).2]) =
      got (log ++ [(step size q op).2]) ++ (step size q op).1 := by
  simp only [pushed, got, List.foldl_concat] at h ⊢
  rcases op with bs | n | _
  · simp only [step]
    split
    · simp only [goesIn, comesOut, h, List.append_assoc]
    · simp only [goesIn, comesOut, h]
  · simp only [step, goesIn, comesOut, h, List.append_assoc, List.take_append_drop]
  · rfl

/-- **Nothing is lost, doubled or moved.** What came out, followed by what is inside, is what went
in. -/
theorem pushed_eq_got_append (size : ℕ) (ops : List (Op α)) :
    pushed (Run.outs (step size) [] ops) =
      got (Run.outs (step size) [] ops) ++ Run.final (step size) [] ops :=
  Run.history_of_along (I := fun q log => pushed log = got log ++ q) (C := fun _ _ => True)
    (fun _ _ op h _ => pushed_step op h) (show pushed [] = got [] ++ [] from rfl)
    (Run.along_of_forall (fun _ _ _ => trivial) _)

/-! ### The ring -/

/-- What a ring of `size` places holds between `r` and `w`. -/
def between (size : ℕ) (m : ℕ → α) (r w : ℕ) : List α :=
  if r ≤ w then window m r (w - r) else window m r (size - r) ++ window m 0 w

theorem between_of_le {size : ℕ} {m : ℕ → α} {r w : ℕ} (h : r ≤ w) :
    between size m r w = window m r (w - r) := if_pos h

theorem between_of_lt {size : ℕ} {m : ℕ → α} {r w : ℕ} (h : w < r) :
    between size m r w = window m r (size - r) ++ window m 0 w := if_neg (Nat.not_le.mpr h)

/-- A block behind what the ring holds, that does not reach the end. -/
theorem between_blit_tail {size : ℕ} {m : ℕ → α} {r w : ℕ} {bs : List α} (hr : r < size)
    (hroom : (between size m r w).length + bs.length < size) :
    between size (blit m w bs) r (w + bs.length) = between size m r w ++ bs := by
  by_cases h : r ≤ w
  · obtain ⟨k, rfl⟩ := Nat.exists_eq_add_of_le h
    rw [between_of_le h, between_of_le (by omega), Nat.add_assoc, Nat.add_sub_cancel_left,
      Nat.add_sub_cancel_left, window_blit_behind]
  · have hw : w < r := Nat.not_le.mp h
    rw [between_of_lt hw, List.length_append, length_window, length_window] at hroom
    rw [between_of_lt hw, between_of_lt (by omega), window_blit_of_ge (by omega), List.append_assoc,
      ← window_blit_behind m 0 w bs, Nat.zero_add]

/-- A block behind what the ring holds, up to the end. -/
theorem between_blit_end {size : ℕ} {m : ℕ → α} {r w : ℕ} {bs : List α} (hr : r < size)
    (hroom : (between size m r w).length + bs.length < size) (hend : w + bs.length = size) :
    between size (blit m w bs) r 0 = between size m r w ++ bs := by
  by_cases h : r ≤ w
  · obtain ⟨k, rfl⟩ := Nat.exists_eq_add_of_le h
    rw [between_of_le h, length_window] at hroom
    rw [between_of_le h, between_of_lt (by omega), window_zero, List.append_nil,
      Nat.add_sub_cancel_left, ← window_blit_behind]
    congr 1
    omega
  · rw [between_of_lt (Nat.not_le.mp h), List.length_append, length_window, length_window] at hroom
    omega

/-- A block behind what the ring holds, in two parts, the second one at the front. -/
theorem between_blit_around {size : ℕ} {m : ℕ → α} {r w : ℕ} {bs bs' : List α} (hr : r < size)
    (hroom : (between size m r w).length + bs.length + bs'.length < size)
    (hend : w + bs.length = size) :
    between size (blit (blit m w bs) 0 bs') r bs'.length = between size m r w ++ (bs ++ bs') := by
  by_cases h : r ≤ w
  · have hlen := hroom
    rw [between_of_le h, length_window] at hlen
    have hfront := between_blit_end (m := m) hr (Nat.lt_of_le_of_lt (Nat.le_add_right ..) hroom) hend
    rw [between_of_lt (by omega), window_zero, List.append_nil] at hfront
    rw [between_of_lt (by omega), window_blit_self, window_blit_of_ge (by omega), hfront,
      List.append_assoc]
  · rw [between_of_lt (Nat.not_le.mp h), List.length_append, length_window, length_window] at hroom
    omega

/-- Some of what the ring holds, in front of the end, and the rest. -/
theorem between_split {size : ℕ} {m : ℕ → α} {r w n : ℕ}
    (hn : if r ≤ w then r + n ≤ w else r + n ≤ size) (hsize : w < size) :
    between size m r w = window m r n ++ between size m (r + n) w := by
  split at hn
  · next h =>
    obtain ⟨k, rfl⟩ := Nat.exists_eq_add_of_le hn
    rw [between_of_le h, between_of_le hn, Nat.add_sub_cancel_left, ← window_add]
    congr 1
    omega
  · next h =>
    obtain ⟨k, rfl⟩ := Nat.exists_eq_add_of_le hn
    rw [between_of_lt (by omega), between_of_lt (by omega), Nat.add_sub_cancel_left,
      ← List.append_assoc, ← window_add]
    congr 2
    omega

/-- The end is the front. -/
theorem between_end {size : ℕ} {m : ℕ → α} {w : ℕ} (h : w < size) :
    between size m size w = between size m 0 w := by
  rw [between_of_lt h, between_of_le (Nat.zero_le w), Nat.sub_self, window_zero, List.nil_append,
    Nat.sub_zero]

theorem length_between {size : ℕ} {m : ℕ → α} {r w : ℕ} :
    (between size m r w).length = if r ≤ w then w - r else size - r + w := by
  rw [between]
  split <;> simp

end Fifo
