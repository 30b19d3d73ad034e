import Mathlib

/-!
# Tables of slots

A table is a list of slots that is scanned from the front; an operation acts on the first slot it is
looking for and breaks. `setFirst` is that scan. Its one fact is a decomposition of the table around
the slot it acts on, from which membership, length and pairwise properties follow.

## Main definitions

* `Slots.setFirst` — change the first slot with a property
* `Slots.count` — how many slots of an array have a property

## Main results

* `Slots.setFirst_split` — the table around the slot that is changed
* `Slots.pairwise_setFirst` — a symmetric relation survives if the new slot keeps it
* `Slots.count_update` — the count after one slot has changed
* `Slots.find?_finRange_eq_some` — the first slot of an array with a property
-/

namespace Slots

variable {α : Type*} {p : α → Bool} {f : α → α} {l : List α}

/-- Change the first slot with the property `p`, if there is one. -/
def setFirst (p : α → Bool) (f : α → α) : List α → List α
  | [] => []
  | a :: as => if p a then f a :: as else a :: setFirst p f as

@[simp] theorem length_setFirst (p : α → Bool) (f : α → α) (l : List α) :
    (setFirst p f l).length = l.length := by
  induction l with
  | nil => rfl
  | cons a as ih =>
    rw [setFirst]
    split <;> simp [ih]

/-- Without such a slot nothing changes. -/
theorem setFirst_of_none (h : l.find? p = none) : setFirst p f l = l := by
  induction l with
  | nil => rfl
  | cons a as ih =>
    rw [List.find?_cons] at h
    cases ha : p a with
    | true => simp [ha] at h
    | false =>
      simp only [ha] at h
      rw [setFirst, ha, ih h]
      rfl

/-- The table around the slot that is changed. -/
theorem setFirst_split {a : α} (h : l.find? p = some a) :
    ∃ l₁ l₂, l = l₁ ++ a :: l₂ ∧ (∀ b ∈ l₁, p b = false) ∧ setFirst p f l = l₁ ++ f a :: l₂ := by
  induction l with
  | nil => simp at h
  | cons b bs ih =>
    rw [List.find?_cons] at h
    cases hb : p b with
    | true =>
      simp only [hb, Option.some.injEq] at h
      subst h
      exact ⟨[], bs, rfl, by simp, by simp [setFirst, hb]⟩
    | false =>
      simp only [hb] at h
      obtain ⟨l₁, l₂, rfl, hno, hset⟩ := ih h
      refine ⟨b :: l₁, l₂, rfl, ?_, by simp [setFirst, hb, hset]⟩
      intro c hc
      rcases List.mem_cons.mp hc with rfl | hc
      · exact hb
      · exact hno c hc

/-- The slots after a change. -/
theorem mem_of_mem_setFirst {b : α} (h : b ∈ setFirst p f l) :
    b ∈ l ∨ ∃ a, l.find? p = some a ∧ b = f a := by
  cases ha : l.find? p with
  | none =>
    rw [setFirst_of_none ha] at h
    exact .inl h
  | some a =>
    obtain ⟨l₁, l₂, rfl, -, hset⟩ := setFirst_split (f := f) ha
    rw [hset] at h
    rcases List.mem_append.mp h with h | h
    · exact .inl (List.mem_append_left _ h)
    · rcases List.mem_cons.mp h with rfl | h
      · exact .inr ⟨a, rfl, rfl⟩
      · exact .inl (List.mem_append_right _ (List.mem_cons_of_mem _ h))

/-- A symmetric relation between any two slots survives a change if the slot stays as it is, or the
new one has it to all that were there. -/
theorem pairwise_setFirst {R : α → α → Prop} (hR : ∀ {a b}, R a b → R b a) (h : l.Pairwise R)
    (hnew : ∀ a, l.find? p = some a → f a = a ∨ ∀ b ∈ l, R (f a) b) :
    (setFirst p f l).Pairwise R := by
  cases ha : l.find? p with
  | none => rwa [setFirst_of_none ha]
  | some a =>
    obtain ⟨l₁, l₂, rfl, -, hset⟩ := setFirst_split (f := f) ha
    rw [hset]
    rcases hnew a ha with hsame | hnew
    · rwa [hsame]
    · rw [List.pairwise_middle hR, List.pairwise_cons] at h ⊢
      refine ⟨fun b hb => hnew b ?_, h.2⟩
      rcases List.mem_append.mp hb with hb | hb
      · exact List.mem_append_left _ hb
      · exact List.mem_append_right _ (List.mem_cons_of_mem _ hb)

/-! ### Arrays -/

section Array

variable {n : ℕ}

/-- How many slots of an array have the property `p`. -/
def count (p : α → Bool) (t : Fin n → α) : ℕ := (List.finRange n).countP fun i => p (t i)

theorem count_eq_sum (p : α → Bool) (t : Fin n → α) : count p t = ∑ i, (p (t i)).toNat := by
  rw [Fin.sum_univ_def, count]
  induction List.finRange n with
  | nil => rfl
  | cons i is ih =>
    rw [List.countP_cons, List.map_cons, List.sum_cons, ih, Nat.add_comm]
    cases p (t i) <;> rfl

/-- The count after one slot has changed, with the old slot and the new one on the other sides. -/
theorem count_update (p : α → Bool) (t : Fin n → α) (i : Fin n) (a : α) :
    count p (Function.update t i a) + (p (t i)).toNat = count p t + (p a).toNat := by
  have hrest : ∑ j ∈ Finset.univ.erase i, (p (Function.update t i a j)).toNat =
      ∑ j ∈ Finset.univ.erase i, (p (t j)).toNat :=
    Finset.sum_congr rfl fun j hj => by rw [Function.update_of_ne (Finset.ne_of_mem_erase hj)]
  rw [count_eq_sum, count_eq_sum, ← Finset.sum_erase_add _ _ (Finset.mem_univ i),
    ← Finset.sum_erase_add _ (fun j => (p (t j)).toNat) (Finset.mem_univ i), hrest,
    Function.update_self]
  omega

/-- The count after all slots may have changed, those that lose the property counted by `q`. -/
theorem count_add_count {p q : α → Bool} {t t' : Fin n → α}
    (h : ∀ i, (p (t' i)).toNat + (q (t i)).toNat = (p (t i)).toNat) :
    count p t' + count q t = count p t := by
  rw [count_eq_sum, count_eq_sum, count_eq_sum, ← Finset.sum_add_distrib]
  exact Finset.sum_congr rfl fun i _ => h i

theorem count_congr {p : α → Bool} {t t' : Fin n → α} (h : ∀ i, p (t' i) = p (t i)) :
    count p t' = count p t := by
  rw [count, count]
  exact List.countP_congr fun i _ => by rw [h i]

theorem count_eq_zero {p : α → Bool} {t : Fin n → α} (h : ∀ i, p (t i) = false) :
    count p t = 0 :=
  List.countP_eq_zero.mpr fun i _ => by simp [h i]

theorem count_le (p : α → Bool) (t : Fin n → α) : count p t ≤ n := by
  have h : count p t ≤ (List.finRange n).length := List.countP_le_length
  rwa [List.length_finRange] at h

/-- The first slot with a property. -/
theorem find?_finRange_eq_some {p : Fin n → Bool} {i : Fin n} :
    (List.finRange n).find? p = some i ↔ p i = true ∧ ∀ j < i, p j = false := by
  have h := List.find?_ofFn_eq_some_of_injective (f := id) (p := p) (i := i) Function.injective_id
  rw [List.ofFn_id] at h
  simpa using h

/-- Without a slot that lacks the property all of them have it. -/
theorem count_eq_of_find?_eq_none {p : α → Bool} {t : Fin n → α}
    (h : (List.finRange n).find? (fun i => !p (t i)) = none) : count p t = n := by
  have hall : ∀ i ∈ List.finRange n, p (t i) = true := by
    intro i hi
    simpa using List.find?_eq_none.mp h i hi
  rw [count, List.countP_eq_length.mpr hall, List.length_finRange]

end Array

end Slots
