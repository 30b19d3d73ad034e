import Mathlib

/-!
# Runs of a machine

A machine here is a step function: it reads one event, moves to a new state and puts something
out. This file has what every development about such a machine needs and nothing about a
particular one: the state after a list of events, the outputs along the way, and the rules that
turn a fact about one step into a fact about every run.

## Main definitions

* `Run.final`, `Run.outs` — the state a run ends in, and what it puts out
* `Run.Along` — a condition on every step of a run, read in the state before the step

## Main results

* `Run.final_invariant`, `Run.history_of_along` — the invariant rules
* `Run.foldlM_isSome_iff`, `Run.forall_prefix_iff` — when a run of a machine that may fail does not
* `Run.forall_cut_concat` — a property of every cut of a list, one item at a time
* `Run.outs_forall` — every output of a run satisfies what every step's output satisfies
* `Run.flatten_outs_pairwise` — outputs that climb a ladder held in the state are increasing
-/

namespace Run

variable {σ ε ο : Type*} {step : σ → ε → σ × ο}

/-- The state after the events `es`, read one by one from `s`. -/
def final (step : σ → ε → σ × ο) : σ → List ε → σ
  | s, [] => s
  | s, e :: es => final step (step s e).1 es

/-- The outputs of that run, one an event. -/
def outs (step : σ → ε → σ × ο) : σ → List ε → List ο
  | _, [] => []
  | s, e :: es => (step s e).2 :: outs step (step s e).1 es

@[simp] theorem final_nil (s : σ) : final step s [] = s := rfl

@[simp] theorem final_cons (s : σ) (e : ε) (es : List ε) :
    final step s (e :: es) = final step (step s e).1 es := rfl

@[simp] theorem outs_nil (s : σ) : outs step s [] = [] := rfl

@[simp] theorem outs_cons (s : σ) (e : ε) (es : List ε) :
    outs step s (e :: es) = (step s e).2 :: outs step (step s e).1 es := rfl

theorem final_append (s : σ) (es fs : List ε) :
    final step s (es ++ fs) = final step (final step s es) fs := by
  induction es generalizing s with
  | nil => rfl
  | cons e es ih => exact ih _

theorem outs_append (s : σ) (es fs : List ε) :
    outs step s (es ++ fs) = outs step s es ++ outs step (final step s es) fs := by
  induction es generalizing s with
  | nil => rfl
  | cons e es ih => simp only [List.cons_append, outs_cons, ih, final_cons]

/-- A machine that puts its outputs through `g` runs through the same states. -/
theorem final_post {π : Type*} (g : ο → π) (s : σ) (es : List ε) :
    final (fun s e => ((step s e).1, g (step s e).2)) s es = final step s es := by
  induction es generalizing s with
  | nil => rfl
  | cons e es ih => exact ih _

/-- A machine that is another one with something left out puts out the same. -/
theorem outs_of_proj {τ : Type*} {step' : τ → ε → τ × ο} {f : σ → τ}
    (h : ∀ s e, step' (f s) e = (f (step s e).1, (step s e).2)) (s : σ) (es : List ε) :
    outs step' (f s) es = outs step s es := by
  induction es generalizing s with
  | nil => rfl
  | cons e es ih => rw [outs_cons, outs_cons, h, ih]

@[simp] theorem length_outs (s : σ) (es : List ε) : (outs step s es).length = es.length := by
  induction es generalizing s with
  | nil => rfl
  | cons e es ih => simp [ih]

/-- The output of one event, put out in the state the events before it lead to. -/
theorem getElem?_outs (s : σ) (es : List ε) (i : ℕ) :
    (outs step s es)[i]? = es[i]?.map fun e => (step (final step s (es.take i)) e).2 := by
  induction es generalizing s i with
  | nil => simp
  | cons e es ih =>
    cases i with
    | zero => rfl
    | succ i => simpa using ih (step s e).1 i

/-- **The invariant rule.** What the events of a run preserve one by one, the run preserves. -/
theorem final_invariant {I : σ → Prop} {es : List ε}
    (hstep : ∀ s, I s → ∀ e ∈ es, I (step s e).1) {s : σ} (hs : I s) : I (final step s es) := by
  induction es generalizing s with
  | nil => exact hs
  | cons e es ih =>
    refine ih (fun s hs e he => hstep s hs e (List.mem_cons_of_mem _ he)) ?_
    exact hstep s hs e (List.mem_cons_self ..)

/-- Under an invariant, what every step puts out holds of every output of the run. -/
theorem outs_forall {I : σ → Prop} {Q : ο → Prop} {es : List ε}
    (hstep : ∀ s, I s → ∀ e ∈ es, I (step s e).1 ∧ Q (step s e).2) {s : σ} (hs : I s) :
    ∀ o ∈ outs step s es, Q o := by
  induction es generalizing s with
  | nil => simp
  | cons e es ih =>
    intro o ho
    obtain ⟨hI, hQ⟩ := hstep s hs e (List.mem_cons_self ..)
    rcases List.mem_cons.mp ho with rfl | ho
    · exact hQ
    · exact ih (fun s hs e he => hstep s hs e (List.mem_cons_of_mem _ he)) hI o ho

/-- `C` holds at every step of the run: of the state the step starts in and the event it reads. -/
def Along (step : σ → ε → σ × ο) (C : σ → ε → Prop) : σ → List ε → Prop
  | _, [] => True
  | s, e :: es => C s e ∧ Along step C (step s e).1 es

instance decidableAlong {C : σ → ε → Prop} [∀ s e, Decidable (C s e)] :
    (s : σ) → (es : List ε) → Decidable (Along step C s es)
  | _, [] => .isTrue trivial
  | s, e :: es =>
    have : Decidable (Along step C (step s e).1 es) := decidableAlong (step s e).1 es
    inferInstanceAs (Decidable (C s e ∧ Along step C (step s e).1 es))

theorem along_append {C : σ → ε → Prop} (s : σ) (es fs : List ε) :
    Along step C s (es ++ fs) ↔ Along step C s es ∧ Along step C (final step s es) fs := by
  induction es generalizing s with
  | nil => simp [Along]
  | cons e es ih => simp only [List.cons_append, Along, ih, final_cons, and_assoc]

/-- A condition along a run, step by step. -/
theorem along_iff_getElem? {C : σ → ε → Prop} (s : σ) (es : List ε) :
    Along step C s es ↔ ∀ i e, es[i]? = some e → C (final step s (es.take i)) e := by
  induction es generalizing s with
  | nil => simp [Along]
  | cons e es ih =>
    rw [Along, ih]
    constructor
    · intro h i e' he'
      cases i with
      | zero =>
        obtain rfl : e = e' := by simpa using he'
        exact h.1
      | succ i => exact h.2 i e' (by simpa using he')
    · intro h
      exact ⟨h 0 e rfl, fun i e' he' => h (i + 1) e' (by simpa using he')⟩

theorem Along.mono {C D : σ → ε → Prop} (hCD : ∀ s e, C s e → D s e) {s : σ} {es : List ε}
    (h : Along step C s es) : Along step D s es := by
  induction es generalizing s with
  | nil => trivial
  | cons e es ih => exact ⟨hCD s e h.1, ih h.2⟩

theorem along_and {C D : σ → ε → Prop} (s : σ) (es : List ε) :
    Along step (fun s e => C s e ∧ D s e) s es ↔ Along step C s es ∧ Along step D s es := by
  induction es generalizing s with
  | nil => simp [Along]
  | cons e es ih =>
    simp only [Along, ih]
    exact and_and_and_comm

/-- Two conditions that agree under an invariant hold along the same runs. -/
theorem along_iff_of_invariant {I : σ → Prop} {C D : σ → ε → Prop}
    (hCD : ∀ s e, I s → (C s e ↔ D s e)) (hstep : ∀ s e, I s → D s e → I (step s e).1) {s : σ}
    (hs : I s) (es : List ε) : Along step C s es ↔ Along step D s es := by
  induction es generalizing s with
  | nil => exact Iff.rfl
  | cons e es ih =>
    rw [Along, Along, hCD s e hs]
    exact and_congr_right fun hD => ih (hstep s e hs hD)

/-- A condition that holds of the events in every state. -/
theorem along_of_forall {C : σ → ε → Prop} {es : List ε} (h : ∀ e ∈ es, ∀ s, C s e) (s : σ) :
    Along step C s es := by
  induction es generalizing s with
  | nil => trivial
  | cons e es ih =>
    exact ⟨h e (List.mem_cons_self ..) s, ih (fun e he => h e (List.mem_cons_of_mem _ he)) _⟩

/-- The invariant rule for a run whose steps all meet a condition, for the state and all that has
been put out so far. -/
theorem history_of_along {I : σ → List ο → Prop} {C : σ → ε → Prop}
    (hstep : ∀ s log e, I s log → C s e → I (step s e).1 (log ++ [(step s e).2])) {s : σ}
    {log : List ο} {es : List ε} (hs : I s log) (hC : Along step C s es) :
    I (final step s es) (log ++ outs step s es) := by
  induction es generalizing s log with
  | nil =>
    rw [outs_nil, List.append_nil]
    exact hs
  | cons e es ih =>
    rw [outs_cons, List.append_cons]
    exact ih (hstep s log e hs hC.1) hC.2

/-- Every output of such a run is what a step puts out for one of the events. -/
theorem exists_of_mem_outs {I : σ → Prop} {C : σ → ε → Prop} {Q : ε → ο → Prop} {es : List ε}
    (hstep : ∀ s, I s → ∀ e ∈ es, C s e → I (step s e).1 ∧ Q e (step s e).2) {s : σ} (hs : I s)
    (hC : Along step C s es) : ∀ o ∈ outs step s es, ∃ e ∈ es, Q e o := by
  induction es generalizing s with
  | nil => simp
  | cons e es ih =>
    intro o ho
    obtain ⟨hI, hQ⟩ := hstep s hs e (List.mem_cons_self ..) hC.1
    rcases List.mem_cons.mp ho with rfl | ho
    · exact ⟨e, List.mem_cons_self .., hQ⟩
    · obtain ⟨e', he', h⟩ :=
        ih (fun s hs e he => hstep s hs e (List.mem_cons_of_mem _ he)) hI hC.2 o ho
      exact ⟨e', List.mem_cons_of_mem _ he', h⟩

/-! ### Machines that may fail -/

section Fallible

variable {f : σ → ε → Option σ}

/-- `C` holds at every step of a run up to the one that fails. -/
def AlongSome (f : σ → ε → Option σ) (C : σ → ε → Prop) : σ → List ε → Prop
  | _, [] => True
  | s, e :: es => C s e ∧ ∀ s', f s e = some s' → AlongSome f C s' es

theorem alongSome_cons_of_none {C : σ → ε → Prop} {s : σ} {e : ε} {es : List ε} (h : f s e = none) :
    AlongSome f C s (e :: es) ↔ C s e := by
  simp [AlongSome, h]

theorem alongSome_cons_of_some {C : σ → ε → Prop} {s s' : σ} {e : ε} {es : List ε}
    (h : f s e = some s') : AlongSome f C s (e :: es) ↔ C s e ∧ AlongSome f C s' es := by
  simp [AlongSome, h]

instance decidableAlongSome {C : σ → ε → Prop} [∀ s e, Decidable (C s e)] :
    (s : σ) → (es : List ε) → Decidable (AlongSome f C s es)
  | _, [] => .isTrue trivial
  | s, e :: es =>
    match h : f s e with
    | none => decidable_of_iff _ (alongSome_cons_of_none h).symm
    | some s' =>
      have : Decidable (AlongSome f C s' es) := decidableAlongSome s' es
      decidable_of_iff _ (alongSome_cons_of_some h).symm

/-- Two conditions that agree under an invariant hold along the same runs. -/
theorem alongSome_iff_of_invariant {I : σ → Prop} {C D : σ → ε → Prop}
    (hCD : ∀ s e, I s → (C s e ↔ D s e))
    (hstep : ∀ s e, I s → D s e → ∀ s', f s e = some s' → I s') {s : σ} (hs : I s) (es : List ε) :
    AlongSome f C s es ↔ AlongSome f D s es := by
  induction es generalizing s with
  | nil => exact Iff.rfl
  | cons e es ih =>
    rw [AlongSome, AlongSome, hCD s e hs]
    exact and_congr_right fun hD => forall₂_congr fun s' hs' => ih (hstep s e hs hD s' hs')

/-- A run does not fail exactly when every step meets the condition for not failing. -/
theorem foldlM_isSome_iff {C : σ → ε → Prop} {es : List ε}
    (h : ∀ s, ∀ e ∈ es, ((f s e).isSome ↔ C s e)) (s : σ) :
    (es.foldlM f s).isSome ↔ AlongSome f C s es := by
  induction es generalizing s with
  | nil => exact iff_of_true rfl trivial
  | cons e es ih =>
    have ih := ih fun s e he => h s e (List.mem_cons_of_mem _ he)
    rw [List.foldlM_cons, AlongSome, ← h s e (List.mem_cons_self ..)]
    rcases hstep : f s e with _ | s'
    · exact iff_of_false (by simp) fun h => absurd h.1 (by simp)
    · simpa using ih s'

/-- The invariant rule for such a run: when every step meets the condition, none fails. -/
theorem AlongSome.invariant {I : σ → Prop} {C : σ → ε → Prop} {es : List ε}
    (hstep : ∀ s, I s → ∀ e ∈ es, C s e → ∃ s', f s e = some s' ∧ I s') {s : σ} (hs : I s)
    (h : AlongSome f C s es) : ∀ pre, pre <+: es → ∃ s', pre.foldlM f s = some s' ∧ I s' := by
  induction es generalizing s with
  | nil =>
    intro pre hpre
    rw [List.prefix_nil.mp hpre]
    exact ⟨s, rfl, hs⟩
  | cons e es ih =>
    intro pre hpre
    obtain ⟨s₁, hs₁, hI⟩ := hstep s hs e (List.mem_cons_self ..) h.1
    obtain rfl | ⟨pre', rfl, hpre'⟩ := List.prefix_cons_iff.mp hpre
    · exact ⟨s, rfl, hs⟩
    · rw [List.foldlM_cons, hs₁]
      exact ih (fun s hs e he => hstep s hs e (List.mem_cons_of_mem _ he)) hI (h.2 s₁ hs₁) pre' hpre'

/-- A run gets through with `P` after every step exactly when every step meets the condition that
keeps the invariant. -/
theorem forall_prefix_iff {I P : σ → Prop} {C : σ → ε → Prop} {es : List ε}
    (hP : ∀ s, I s → P s)
    (hstep : ∀ s, I s → ∀ e ∈ es, C s e → ∃ s', f s e = some s' ∧ I s')
    (hnot : ∀ s, I s → ∀ e ∈ es, ¬ C s e → ∀ s', f s e = some s' → ¬ P s') {s : σ} (hs : I s) :
    (∀ pre, pre <+: es → ∃ s', pre.foldlM f s = some s' ∧ P s') ↔ AlongSome f C s es := by
  constructor
  · induction es generalizing s with
    | nil => exact fun _ => trivial
    | cons e es ih =>
      intro h
      have hone : e ∈ e :: es := List.mem_cons_self ..
      have hC : C s e := by
        by_contra hC
        obtain ⟨s', heq, hs'⟩ := h [e] (by simp)
        rw [List.foldlM_cons] at heq
        obtain ⟨s₁, hs₁, heq⟩ := Option.bind_eq_some_iff.mp heq
        obtain rfl := Option.some.inj heq
        exact hnot s hs e hone hC s₁ hs₁ hs'
      refine ⟨hC, fun s₁ hs₁ => ?_⟩
      obtain ⟨s₂, hs₂, hI⟩ := hstep s hs e hone hC
      obtain rfl := Option.some.inj (hs₁.symm.trans hs₂)
      refine ih (fun s hs e he => hstep s hs e (List.mem_cons_of_mem _ he))
        (fun s hs e he => hnot s hs e (List.mem_cons_of_mem _ he)) hI fun pre hpre => ?_
      obtain ⟨s', heq, hs'⟩ := h (e :: pre) (List.cons_prefix_cons.mpr ⟨rfl, hpre⟩)
      rw [List.foldlM_cons, hs₁] at heq
      exact ⟨s', heq, hs'⟩
  · intro h pre hpre
    obtain ⟨s', heq, hs'⟩ := h.invariant hstep hs pre hpre
    exact ⟨s', heq, hP s' hs'⟩

end Fallible

/-! ### Cuts -/

/-- What holds at every cut of a list with one more item held at every cut before, and holds at the
last one. -/
theorem forall_cut_concat {α : Type*} {P : List α → α → Prop} {l : List α} {a : α} :
    (∀ pre b post, l ++ [a] = pre ++ b :: post → P pre b) ↔
      (∀ pre b post, l = pre ++ b :: post → P pre b) ∧ P l a := by
  constructor
  · intro h
    refine ⟨fun pre b post hl => ?_, h l a [] rfl⟩
    exact h pre b (post ++ [a]) (by rw [hl]; simp)
  · rintro ⟨hl, ha⟩ pre b post heq
    rcases List.eq_nil_or_concat post with rfl | ⟨post, c, rfl⟩
    · obtain ⟨rfl, hb⟩ := List.append_inj' heq rfl
      obtain rfl := List.singleton_inj.mp hb
      exact ha
    · refine hl pre b post ?_
      have h : l ++ [a] = (pre ++ b :: post) ++ [c] := by simpa using heq
      exact (List.append_inj' h rfl).1

/-! ### Batches -/

/-- A machine that reads its events batch by batch. -/
def batch (step : σ → ε → σ × ο) (s : σ) (es : List ε) : σ × List ο :=
  (final step s es, outs step s es)

theorem flatten_outs_batch {β : Type*} (g : β → List ε) (s : σ) (bs : List β) :
    (outs (fun s b => batch step s (g b)) s bs).flatten = outs step s (bs.flatMap g) := by
  induction bs generalizing s with
  | nil => rfl
  | cons b bs ih =>
    rw [outs_cons, List.flatten_cons, ih, List.flatMap_cons, outs_append]
    rfl

/-! ### Increasing outputs

The machine keeps a rung `m s`; each step puts out a list of values whose keys lie above the rung
it starts on and not above the one it leaves. Then the keys of the whole run increase strictly. -/

section Ladder

variable {α β : Type*} [Preorder α] {key : β → α} {f : σ → ε → σ × List β} {m : σ → α}
  {I : σ → Prop}

/-- One step of the ladder: the rung never falls, and the keys lie between the two rungs. -/
structure Climbs (key : β → α) (f : σ → ε → σ × List β) (m : σ → α) (s : σ) (e : ε) : Prop where
  /-- The rung does not fall. -/
  rung : m s ≤ m (f s e).1
  /-- The keys lie above the old rung and up to the new one. -/
  between : ∀ x ∈ (f s e).2, m s < key x ∧ key x ≤ m (f s e).1
  /-- The keys of one step increase. -/
  sorted : (f s e).2.Pairwise fun x y => key x < key y

theorem rung_lt_of_mem_outs (hI : ∀ s e, I s → I (f s e).1)
    (hm : ∀ s e, I s → Climbs key f m s e) {s : σ} (hs : I s) (es : List ε) :
    ∀ x ∈ (outs f s es).flatten, m s < key x := by
  induction es generalizing s with
  | nil => simp
  | cons e es ih =>
    intro x hx
    rw [outs_cons, List.flatten_cons] at hx
    rcases List.mem_append.mp hx with hx | hx
    · exact ((hm s e hs).between x hx).1
    · exact lt_of_le_of_lt (hm s e hs).rung (ih (hI s e hs) x hx)

theorem flatten_outs_pairwise (hI : ∀ s e, I s → I (f s e).1)
    (hm : ∀ s e, I s → Climbs key f m s e) {s : σ} (hs : I s) (es : List ε) :
    (outs f s es).flatten.Pairwise fun x y => key x < key y := by
  induction es generalizing s with
  | nil => simp
  | cons e es ih =>
    rw [outs_cons, List.flatten_cons, List.pairwise_append]
    refine ⟨(hm s e hs).sorted, ih (hI s e hs), fun x hx y hy => ?_⟩
    have hxm : key x ≤ m (f s e).1 := ((hm s e hs).between x hx).2
    exact lt_of_le_of_lt hxm (rung_lt_of_mem_outs hI hm (hI s e hs) es y hy)

end Ladder

end Run
