import Mathlib.Data.List.Nodup

/-!
# Stores that are written one entry after another

A store has values at places. Nothing is said about how it keeps them: all that is known is what can
be read after one write, and that is assumed, not proved. A program that saves a record writes one
entry for each of its fields, and gives up at the first write that fails.

When no two entries have the same place, everything that was written can be read at the end. The order
does not matter then, nor what the store held before.

## Main definitions

* `Store.writeAll` — the entries are written, until one fails
* `Store.ReadsBack` — what one write does to what is read

## Main results

* `Store.writeAll_append` — two lists of entries
* `Store.ReadsBack.kept_all`, `Store.ReadsBack.written_all` — what many writes do
-/

namespace ReachEdukit

namespace Store

variable {F P V : Type*} {write : F → P → V → F × Bool} {Plain : V → Prop}
  {Reads : F → P → V → Prop}

/-- The entries are written one after another, until one fails. -/
def writeAll (write : F → P → V → F × Bool) : List (P × V) → F → F × Bool
  | [], f => (f, true)
  | e :: es, f =>
    if (write f e.1 e.2).2 then writeAll write es (write f e.1 e.2).1
    else ((write f e.1 e.2).1, false)

/-- A plain value that was written is read, and the other places stay as they are. -/
structure ReadsBack (write : F → P → V → F × Bool) (Plain : V → Prop) (Reads : F → P → V → Prop) :
    Prop where
  written : ∀ {f p v}, (write f p v).2 = true → Plain v → Reads (write f p v).1 p v
  kept : ∀ {f p v p' v'}, (write f p v).2 = true → p' ≠ p → Reads f p' v' →
    Reads (write f p v).1 p' v'

theorem writeAll_cons {f : F} {e : P × V} {es : List (P × V)} (h : (write f e.1 e.2).2 = true) :
    writeAll write (e :: es) f = writeAll write es (write f e.1 e.2).1 :=
  if_pos h

theorem writeAll_cons_of_fails {f : F} {e : P × V} (es : List (P × V))
    (h : ¬ (write f e.1 e.2).2 = true) :
    writeAll write (e :: es) f = ((write f e.1 e.2).1, false) :=
  if_neg h

theorem succeeds_of_writeAll_cons {f : F} {e : P × V} {es : List (P × V)}
    (h : (writeAll write (e :: es) f).2 = true) : (write f e.1 e.2).2 = true := by
  by_contra hfails
  rw [writeAll_cons_of_fails es hfails] at h
  exact Bool.false_ne_true h

/-- Two lists of entries, the second one if the first one was written. -/
theorem writeAll_append (es₁ es₂ : List (P × V)) (f : F) :
    writeAll write (es₁ ++ es₂) f =
      if (writeAll write es₁ f).2 then writeAll write es₂ (writeAll write es₁ f).1
      else ((writeAll write es₁ f).1, false) := by
  induction es₁ generalizing f with
  | nil => rfl
  | cons e es ih =>
    by_cases hwrite : (write f e.1 e.2).2 = true
    · rw [List.cons_append, writeAll_cons hwrite, writeAll_cons hwrite, ih]
    · rw [List.cons_append, writeAll_cons_of_fails _ hwrite, writeAll_cons_of_fails _ hwrite]
      rfl

/-- A place that is not written keeps its value. -/
theorem ReadsBack.kept_all (h : ReadsBack write Plain Reads) {es : List (P × V)} {f : F} {p : P}
    {v : V} (hok : (writeAll write es f).2 = true) (hp : p ∉ es.map Prod.fst) (hv : Reads f p v) :
    Reads (writeAll write es f).1 p v := by
  induction es generalizing f with
  | nil => exact hv
  | cons e es ih =>
    have hwrite := succeeds_of_writeAll_cons hok
    rw [writeAll_cons hwrite] at hok ⊢
    exact ih hok (List.not_mem_of_not_mem_cons hp)
      (h.kept hwrite (List.ne_of_not_mem_cons hp) hv)

/-- **Everything that was written is read**, when the places are different. -/
theorem ReadsBack.written_all (h : ReadsBack write Plain Reads) {es : List (P × V)} {f : F}
    (hok : (writeAll write es f).2 = true) (hplaces : (es.map Prod.fst).Nodup) :
    ∀ e ∈ es, Plain e.2 → Reads (writeAll write es f).1 e.1 e.2 := by
  induction es generalizing f with
  | nil => exact fun e he => absurd he List.not_mem_nil
  | cons e es ih =>
    intro e' he' hplain
    have hwrite := succeeds_of_writeAll_cons hok
    obtain ⟨hnot, hrest⟩ := List.nodup_cons.mp hplaces
    rw [writeAll_cons hwrite] at hok ⊢
    obtain rfl | hmem := List.mem_cons.mp he'
    · exact h.kept_all hok hnot (h.written hwrite hplain)
    · exact ih hok hrest e' hmem hplain

end Store

end ReachEdukit
