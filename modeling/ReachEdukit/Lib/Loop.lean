import Mathlib

/-!
# Loops that end

A turn of a loop puts something out and goes on in a new state, or ends the loop. When every turn makes
a measure of the state smaller, the loop has an end, and it can be read turn by turn.

## Main definitions

* `Loop.Decreases` — every turn makes the measure smaller
* `Loop.outs`, `Loop.final` — what the loop puts out, and the state in which it ends

## Main results

* `Loop.outs_of_none`, `Loop.outs_of_some`, `Loop.final_of_none`, `Loop.final_of_some` — one turn
* `Loop.upTo_add` — turns after turns
* `Loop.induction` — induction on the turns
-/

namespace Loop

variable {σ ο : Type*} {turn : σ → Option (ο × σ)} {measure : σ → ℕ} {s s' : σ} {o : ο}

/-- Every turn makes the measure smaller. -/
def Decreases (turn : σ → Option (ο × σ)) (measure : σ → ℕ) : Prop :=
  ∀ s o s', turn s = some (o, s') → measure s' < measure s

/-- What `fuel` turns put out, and the state after them. -/
def upTo (turn : σ → Option (ο × σ)) : ℕ → σ → List ο × σ
  | 0, s => ([], s)
  | fuel + 1, s => (turn s).elim ([], s) fun r =>
    (r.1 :: (upTo turn fuel r.2).1, (upTo turn fuel r.2).2)

/-- What the loop puts out. -/
def outs (turn : σ → Option (ο × σ)) (measure : σ → ℕ) (s : σ) : List ο :=
  (upTo turn (measure s + 1) s).1

/-- The state in which the loop ends. -/
def final (turn : σ → Option (ο × σ)) (measure : σ → ℕ) (s : σ) : σ :=
  (upTo turn (measure s + 1) s).2

theorem upTo_of_none {fuel : ℕ} (h : turn s = none) : upTo turn fuel s = ([], s) := by
  cases fuel with
  | zero => rfl
  | succ fuel => rw [upTo, h, Option.elim_none]

theorem upTo_of_some {fuel : ℕ} (h : turn s = some (o, s')) :
    upTo turn (fuel + 1) s = (o :: (upTo turn fuel s').1, (upTo turn fuel s').2) := by
  rw [upTo, h, Option.elim_some]

/-- Turns after turns. -/
theorem upTo_add (turn : σ → Option (ο × σ)) (m n : ℕ) (s : σ) :
    upTo turn (m + n) s =
      ((upTo turn m s).1 ++ (upTo turn n (upTo turn m s).2).1, (upTo turn n (upTo turn m s).2).2) := by
  induction m generalizing s with
  | zero =>
    rw [Nat.zero_add]
    rfl
  | succ m ih =>
    cases hs : turn s with
    | none => rw [upTo_of_none hs, upTo_of_none hs, upTo_of_none hs, List.append_nil]
    | some r =>
      obtain ⟨o, s'⟩ := r
      rw [Nat.add_right_comm, upTo_of_some hs, upTo_of_some hs, ih]
      rfl

/-- There are no more turns than the measure says. -/
theorem upTo_eq (hturn : Decreases turn measure) {n m : ℕ} (hn : measure s < n) (hm : measure s < m) :
    upTo turn n s = upTo turn m s := by
  induction n generalizing m s with
  | zero => exact absurd hn (Nat.not_lt_zero _)
  | succ n ih =>
    obtain ⟨m, rfl⟩ : ∃ k, m = k + 1 := ⟨m - 1, by omega⟩
    cases hs : turn s with
    | none => rw [upTo_of_none hs, upTo_of_none hs]
    | some r =>
      obtain ⟨o, s'⟩ := r
      have hless := hturn s o s' hs
      have hrest : upTo turn n s' = upTo turn m s' := ih (by omega) (by omega)
      rw [upTo_of_some hs, upTo_of_some hs, hrest]

theorem outs_of_none (h : turn s = none) : outs turn measure s = [] := congrArg Prod.fst (upTo_of_none h)

theorem final_of_none (h : turn s = none) : final turn measure s = s := congrArg Prod.snd (upTo_of_none h)

theorem upTo_turn (hturn : Decreases turn measure) (h : turn s = some (o, s')) :
    upTo turn (measure s + 1) s =
      (o :: (upTo turn (measure s' + 1) s').1, (upTo turn (measure s' + 1) s').2) := by
  rw [upTo_of_some h, upTo_eq hturn (hturn s o s' h) (Nat.lt_succ_self _)]

theorem outs_of_some (hturn : Decreases turn measure) (h : turn s = some (o, s')) :
    outs turn measure s = o :: outs turn measure s' := congrArg Prod.fst (upTo_turn hturn h)

theorem final_of_some (hturn : Decreases turn measure) (h : turn s = some (o, s')) :
    final turn measure s = final turn measure s' := by
  rw [final, upTo_turn hturn h]
  rfl

/-- **Induction on the turns.** -/
theorem induction (hturn : Decreases turn measure) {P : σ → Prop} (hend : ∀ s, turn s = none → P s)
    (hstep : ∀ s o s', turn s = some (o, s') → P s' → P s) (s : σ) : P s := by
  obtain ⟨n, hn⟩ : ∃ n, n = measure s := ⟨_, rfl⟩
  induction n using Nat.strong_induction_on generalizing s with
  | _ n ih =>
    cases hs : turn s with
    | none => exact hend s hs
    | some r =>
      obtain ⟨o, s'⟩ := r
      exact hstep s o s' hs (ih _ (hn ▸ hturn s o s' hs) s' rfl)

end Loop
