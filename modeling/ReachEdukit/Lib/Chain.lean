import Mathlib

/-!
# Linked lists

A linked list is a pointer to its first cell and, in every cell, a pointer to the next one. Here the
cells are addresses, and the pointers a function on them; what else is in a cell does not matter. The
cells that a pointer leads through are a list, and there is only one such list, so none of them comes
twice.

A list is changed at a place that is found by walking along it: the pointer that leads to the place,
in a cell or at the front, is set to something else.

## Main definitions

* `Chain.Seg` — the cells from one pointer to another
* `Chain.walk` — look for a cell, and keep the one before it
* `Chain.relink` — set the pointer behind a cell, or the one at the front
* `Chain.follow` — the cells from a pointer on

## Main results

* `Chain.Seg.nodup` — no cell comes twice
* `Chain.walk_eq` — the walk stops at the first cell that is looked for
* `Chain.Seg.insert`, `Chain.Seg.remove` — a cell is put in, or taken out
-/

namespace Chain

variable {A : Type*}

/-- The cells from the pointer `p` to the pointer `q`. -/
def Seg (next : A → Option A) : Option A → List A → Option A → Prop
  | p, [], q => p = q
  | p, a :: l, q => p = some a ∧ Seg next (next a) l q

instance decidableSeg [DecidableEq A] (next : A → Option A) :
    (p : Option A) → (l : List A) → (q : Option A) → Decidable (Seg next p l q)
  | p, [], q => inferInstanceAs (Decidable (p = q))
  | p, a :: l, q =>
    have : Decidable (Seg next (next a) l q) := decidableSeg next (next a) l q
    inferInstanceAs (Decidable (p = some a ∧ Seg next (next a) l q))

variable {next next' : A → Option A} {p q : Option A} {a : A} {l l' : List A}

@[simp] theorem seg_nil : Seg next p [] q ↔ p = q := Iff.rfl

@[simp] theorem seg_cons : Seg next p (a :: l) q ↔ p = some a ∧ Seg next (next a) l q := Iff.rfl

theorem seg_append : Seg next p (l ++ l') q ↔ ∃ r, Seg next p l r ∧ Seg next r l' q := by
  induction l generalizing p with
  | nil => simp
  | cons a l ih => simp only [List.cons_append, seg_cons, ih, and_assoc, exists_and_left]

/-- The pointer to a list is the pointer to its first cell. -/
theorem Seg.eq_head? (h : Seg next p l none) : p = l.head? := by
  rcases l with _ | ⟨a, l⟩
  · exact h
  · exact h.1

/-- A list reads the pointers in its cells only. -/
theorem Seg.congr (h : Seg next p l q) (heq : ∀ a ∈ l, next' a = next a) : Seg next' p l q := by
  induction l generalizing p with
  | nil => exact h
  | cons a l ih =>
    refine ⟨h.1, ?_⟩
    rw [heq a (List.mem_cons_self ..)]
    exact ih h.2 fun b hb => heq b (List.mem_cons_of_mem _ hb)

/-- A pointer leads through one list. -/
theorem Seg.unique (h : Seg next p l none) (h' : Seg next p l' none) : l = l' := by
  induction l generalizing p l' with
  | nil =>
    rcases l' with _ | ⟨b, l'⟩
    · rfl
    · exact absurd (h.symm.trans h'.1) (by simp)
  | cons a l ih =>
    rcases l' with _ | ⟨b, l'⟩
    · exact absurd (h'.symm.trans h.1) (by simp)
    · obtain rfl := Option.some.inj (h.1.symm.trans h'.1)
      rw [ih h.2 h'.2]

/-- **No cell comes twice**: behind it there would be two lists. -/
theorem Seg.nodup (h : Seg next p l none) : l.Nodup := by
  induction l generalizing p with
  | nil => exact List.nodup_nil
  | cons a l ih =>
    refine List.nodup_cons.mpr ⟨fun ha => ?_, ih h.2⟩
    obtain ⟨s, t, rfl⟩ := List.append_of_mem ha
    obtain ⟨r, -, -, ht⟩ := seg_append.mp h.2
    have hlen := congrArg List.length (h.2.unique ht)
    simp only [List.length_append, List.length_cons] at hlen
    omega

/-- The cells from a pointer on, not more than `n` of them. -/
def follow (next : A → Option A) : ℕ → Option A → List A
  | 0, _ => []
  | _ + 1, none => []
  | n + 1, some a => a :: follow next n (next a)

theorem Seg.follow_eq {n : ℕ} (h : Seg next p l none) (hn : l.length ≤ n) : follow next n p = l := by
  induction l generalizing p n with
  | nil =>
    obtain rfl := h
    rcases n with _ | n <;> rfl
  | cons a l ih =>
    rcases n with _ | n
    · exact absurd hn (by simp)
    · rw [h.1, follow, ih h.2 (by simpa using hn)]

/-! ### Walking -/

/-- Walk from `p` to the first cell that is looked for, behind the cell `prev`: the cell before it
and the pointer to it; `none` when that takes `fuel` cells or more. -/
def walk (next : A → Option A) (sought : A → Bool) : ℕ → Option A → Option A →
    Option (Option A × Option A)
  | 0, _, _ => none
  | _ + 1, prev, none => some (prev, none)
  | fuel + 1, prev, some a =>
    if sought a then some (prev, some a) else walk next sought fuel (some a) (next a)

/-- **The walk stops at the first cell that is looked for**, or at the end. -/
theorem walk_eq {sought : A → Bool} {fuel : ℕ} {prev : Option A} {pre post : List A}
    (hpre : Seg next p pre q) (hpost : Seg next q post none) (hno : ∀ a ∈ pre, sought a = false)
    (hyes : ∀ a ∈ post.head?, sought a) (hfuel : pre.length < fuel) :
    walk next sought fuel prev p = some (pre.getLast?.or prev, q) := by
  induction pre generalizing p prev fuel with
  | nil =>
    obtain rfl := hpre
    rcases fuel with _ | fuel
    · exact absurd hfuel (by simp)
    · rcases post with _ | ⟨b, post⟩
      · obtain rfl := hpost
        rfl
      · obtain ⟨rfl, -⟩ := hpost
        rw [walk, if_pos (hyes b rfl)]
        rfl
  | cons a pre ih =>
    obtain ⟨rfl, hpre⟩ := hpre
    rcases fuel with _ | fuel
    · exact absurd hfuel (by simp)
    · rw [walk, if_neg (by rw [hno a (List.mem_cons_self ..)]; simp),
        ih hpre (fun b hb => hno b (List.mem_cons_of_mem _ hb)) (by simpa using hfuel)]
      rcases pre with _ | ⟨b, pre⟩
      · rfl
      · have hlast := List.getLast?_eq_some_getLast (List.cons_ne_nil b pre)
        simp [List.getLast?_cons_cons, hlast]

/-! ### Changing a list -/

theorem getLast?_ne_some (h : a ∉ l) : l.getLast? ≠ some a :=
  fun hlast => h (List.mem_of_getLast? hlast)

variable [DecidableEq A]

/-- Set the pointer behind the cell `prev`, or the one at the front, to `p`. -/
def relink (next : A → Option A) (head prev p : Option A) : (A → Option A) × Option A :=
  prev.elim (next, p) fun a => (Function.update next a p, head)

/-- The pointers elsewhere stay. -/
theorem relink_of_ne {head prev : Option A} (h : prev ≠ some a) :
    (relink next head prev p).1 a = next a := by
  rcases prev with _ | b
  · rfl
  · exact Function.update_of_ne (fun hab => h (by rw [hab])) ..

/-- The list up to the place leads to what is put there. -/
theorem Seg.relink {head : Option A} (h : Seg next head l q) (hl : l.Nodup) (p : Option A) :
    Seg (relink next head l.getLast? p).1 (relink next head l.getLast? p).2 l p := by
  rcases List.eq_nil_or_concat l with rfl | ⟨l, a, rfl⟩
  · rfl
  · rw [List.concat_eq_append] at h hl ⊢
    rw [List.getLast?_concat]
    obtain ⟨r, hseg, rfl, -⟩ := seg_append.mp h
    refine seg_append.mpr ⟨some a, hseg.congr fun b hb => ?_, rfl, ?_⟩
    · refine Function.update_of_ne ?_ ..
      rintro rfl
      exact (List.nodup_append.mp hl).2.2 b hb b (List.mem_singleton_self b) rfl
    · exact Function.update_self ..

/-- **A cell is put in**: the pointer in it is set to what comes behind. -/
theorem Seg.insert {head : Option A} {pre post : List A} {x : A} (hpre : Seg next head pre q)
    (hpost : Seg next q post none) (hx : x ∉ pre ++ post) :
    let r := Chain.relink (Function.update next x q) head pre.getLast? (some x)
    Seg r.1 r.2 (pre ++ x :: post) none := by
  have hnodup := List.nodup_append.mp (seg_append.mpr ⟨q, hpre, hpost⟩).nodup
  rw [List.mem_append, not_or] at hx
  have hne : ∀ b ∈ pre ++ post, Function.update next x q b = next b := by
    intro b hb
    refine Function.update_of_ne ?_ ..
    rintro rfl
    exact (List.mem_append.mp hb).elim hx.1 hx.2
  have hfront := (hpre.congr fun b hb => hne b (List.mem_append_left _ hb)).relink hnodup.1
    (some x)
  refine seg_append.mpr ⟨some x, hfront, rfl, ?_⟩
  rw [relink_of_ne (getLast?_ne_some hx.1), Function.update_self]
  refine hpost.congr fun b hb => ?_
  rw [relink_of_ne (getLast?_ne_some fun hpre => hnodup.2.2 b hpre b hb rfl),
    hne b (List.mem_append_right _ hb)]

/-- **A cell is taken out.** -/
theorem Seg.remove {head : Option A} {pre post : List A} {x : A}
    (h : Seg next head (pre ++ x :: post) none) :
    let r := Chain.relink next head pre.getLast? (next x)
    Seg r.1 r.2 (pre ++ post) none := by
  have hnodup := List.nodup_append.mp h.nodup
  obtain ⟨r, hpre, -, hpost⟩ := seg_append.mp h
  refine seg_append.mpr ⟨next x, hpre.relink hnodup.1 _, hpost.congr fun b hb => ?_⟩
  exact relink_of_ne (getLast?_ne_some fun hpre =>
    hnodup.2.2 b hpre b (List.mem_cons_of_mem _ hb) rfl)

end Chain
