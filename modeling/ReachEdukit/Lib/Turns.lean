import Mathlib

/-!
# Reading a stream turn by turn

A reader takes something off the front of a list, or finds that it is at its end. `Turns.all` is what
it takes, turn after turn, until the end. If every turn leaves less than it found, there is an end,
and `all` has the equations of the loop.

## Main definitions

* `Turns.Shrinks` — every turn leaves less than it found
* `Turns.all` — everything that the reader takes

## Main results

* `Turns.all_of_none`, `Turns.all_of_some` — the loop, one turn at a time
* `Turns.all_induction` — induction on the turns
-/

namespace Turns

variable {α β : Type*} {read : List β → Option (α × List β)}

/-- Every turn leaves less than it found. -/
def Shrinks (read : List β → Option (α × List β)) : Prop :=
  ∀ l a rest, read l = some (a, rest) → rest.length < l.length

/-- What the reader takes in `fuel` turns. -/
def upTo (read : List β → Option (α × List β)) : ℕ → List β → List α
  | 0, _ => []
  | fuel + 1, l => (read l).elim [] fun r => r.1 :: upTo read fuel r.2

/-- Everything that the reader takes. -/
def all (read : List β → Option (α × List β)) (l : List β) : List α := upTo read (l.length + 1) l

theorem upTo_of_none {fuel : ℕ} {l : List β} (h : read l = none) : upTo read fuel l = [] := by
  cases fuel with
  | zero => rfl
  | succ fuel => rw [upTo, h, Option.elim_none]

theorem upTo_of_some {fuel : ℕ} {l rest : List β} {a : α} (h : read l = some (a, rest)) :
    upTo read (fuel + 1) l = a :: upTo read fuel rest := by
  rw [upTo, h, Option.elim_some]

/-- There are no more turns than the list is long. -/
theorem upTo_eq (hread : Shrinks read) {n m : ℕ} {l : List β} (hn : l.length < n)
    (hm : l.length < m) : upTo read n l = upTo read m l := by
  induction n generalizing m l with
  | zero => exact absurd hn (Nat.not_lt_zero _)
  | succ n ih =>
    obtain ⟨m, rfl⟩ : ∃ k, m = k + 1 := ⟨m - 1, by omega⟩
    obtain hnone | ⟨⟨a, rest⟩, hsome⟩ := Option.eq_none_or_eq_some (read l)
    · rw [upTo_of_none hnone, upTo_of_none hnone]
    · have hless := hread l a rest hsome
      have hrest : upTo read n rest = upTo read m rest := ih (by omega) (by omega)
      rw [upTo_of_some hsome, upTo_of_some hsome, hrest]

theorem all_of_none {l : List β} (h : read l = none) : all read l = [] := upTo_of_none h

theorem all_of_some (hread : Shrinks read) {l rest : List β} {a : α}
    (h : read l = some (a, rest)) : all read l = a :: all read rest := by
  have hless := hread l a rest h
  rw [all, upTo_of_some h, upTo_eq hread hless (Nat.lt_succ_self _)]
  rfl

/-- Induction on the turns. -/
theorem all_induction (hread : Shrinks read) {P : List β → Prop}
    (hend : ∀ l, read l = none → P l) (hturn : ∀ l a rest, read l = some (a, rest) → P rest → P l)
    (l : List β) : P l := by
  obtain ⟨n, hn⟩ : ∃ n, n = l.length := ⟨_, rfl⟩
  induction n using Nat.strong_induction_on generalizing l with
  | _ n ih =>
    obtain hnone | ⟨⟨a, rest⟩, hsome⟩ := Option.eq_none_or_eq_some (read l)
    · exact hend l hnone
    · have hless := hread l a rest hsome
      exact hturn l a rest hsome (ih rest.length (by omega) rest rfl)

end Turns
