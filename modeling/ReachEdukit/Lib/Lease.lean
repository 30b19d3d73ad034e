import Mathlib

/-!
# Slots on lease

A table of slots is shared by many threads. A slot is marked taken while one thread works on it; which
thread that is stands nowhere in the table, only in what each thread holds in its own variables. This
file has the rules by which such a table stays sound: the marks say which slots are held, no two
threads hold one slot, the record in a held slot is what its holder expects at the point it has come
to, and the record in a free slot is clean.

Every step of a thread is one of six moves, each with the condition under which it keeps the table
sound.

## Main definitions

* `Lease.Terms` — which slot a thread holds, what it expects there, and what a clean record is
* `Lease.Table` — the threads' variables, the marks and the records
* `Lease.Table.Sound`

## Main results

* `Lease.Table.Sound.keep`, `Sound.stay`, `Sound.move` — a thread works on its slot, or on none
* `Lease.Table.Sound.take`, `Sound.give`, `Sound.pass` — a slot is taken, given back or handed on
* `Lease.Table.Sound.outside` — somebody else writes to a record
-/

namespace Lease

/-- What is agreed on: the slot a thread with the variables `l` holds, the records it can find there,
and the records a free slot may have. -/
structure Terms (I L D : Type*) where
  slot : L → Option I
  Fits : L → D → Prop
  Clean : D → Prop

/-- The variables of every thread, the mark and the record of every slot. -/
structure Table (O I L D : Type*) where
  vars : O → L
  taken : I → Bool
  record : I → D

variable {O I L D : Type*} {T : Terms I L D} {t : Table O I L D}

namespace Table

/-- The table is sound. -/
structure Sound (T : Terms I L D) (t : Table O I L D) : Prop where
  unique : ∀ {o o' i}, T.slot (t.vars o) = some i → T.slot (t.vars o') = some i → o = o'
  taken_iff : ∀ i, t.taken i = true ↔ ∃ o, T.slot (t.vars o) = some i
  fits : ∀ {o i}, T.slot (t.vars o) = some i → T.Fits (t.vars o) (t.record i)
  clean : ∀ {i}, t.taken i = false → T.Clean (t.record i)

theorem Sound.taken (h : t.Sound T) {o : O} {i : I} (hi : T.slot (t.vars o) = some i) :
    t.taken i = true :=
  (h.taken_iff i).mpr ⟨o, hi⟩

/-- Nobody holds a slot that is not marked. -/
theorem Sound.not_slot (h : t.Sound T) {o : O} {i : I} (hi : t.taken i = false) :
    T.slot (t.vars o) ≠ some i := by
  intro ho
  exact Bool.false_ne_true (hi.symm.trans (h.taken ho))

variable [DecidableEq O] [DecidableEq I]

/-- A thread has new variables. -/
def setVars (t : Table O I L D) (o : O) (l : L) : Table O I L D :=
  { t with vars := Function.update t.vars o l }

/-- A slot has a new record. -/
def setRecord (t : Table O I L D) (i : I) (d : D) : Table O I L D :=
  { t with record := Function.update t.record i d }

/-- A slot has a new mark. -/
def setTaken (t : Table O I L D) (i : I) (b : Bool) : Table O I L D :=
  { t with taken := Function.update t.taken i b }

section Fields

variable (o : O) (i : I) (l : L) (d : D) (b : Bool)

omit [DecidableEq I] in
@[simp] theorem setVars_vars : (t.setVars o l).vars = Function.update t.vars o l := rfl
omit [DecidableEq I] in
@[simp] theorem setVars_taken : (t.setVars o l).taken = t.taken := rfl
omit [DecidableEq I] in
@[simp] theorem setVars_record : (t.setVars o l).record = t.record := rfl
omit [DecidableEq O] in
@[simp] theorem setRecord_vars : (t.setRecord i d).vars = t.vars := rfl
omit [DecidableEq O] in
@[simp] theorem setRecord_taken : (t.setRecord i d).taken = t.taken := rfl
omit [DecidableEq O] in
@[simp] theorem setRecord_record : (t.setRecord i d).record = Function.update t.record i d := rfl
omit [DecidableEq O] in
@[simp] theorem setTaken_vars : (t.setTaken i b).vars = t.vars := rfl
omit [DecidableEq O] in
@[simp] theorem setTaken_taken : (t.setTaken i b).taken = Function.update t.taken i b := rfl
omit [DecidableEq O] in
@[simp] theorem setTaken_record : (t.setTaken i b).record = t.record := rfl

end Fields

omit [DecidableEq I] in
/-- What a thread holds after one thread has moved. -/
theorem slot_setVars {o o' : O} {l : L} {i : I}
    (h : T.slot ((t.setVars o l).vars o') = some i) :
    (o' = o ∧ T.slot l = some i) ∨ (o' ≠ o ∧ T.slot (t.vars o') = some i) := by
  rw [setVars_vars, Function.update_apply] at h
  split at h
  · next heq => exact .inl ⟨heq, h⟩
  · next hne => exact .inr ⟨hne, h⟩

omit [DecidableEq O] in
/-- Somebody else writes to a record: neither its holder nor the next one may mind. -/
theorem Sound.outside (h : t.Sound T) {i : I} {d : D}
    (hfits : ∀ l, T.slot l = some i → T.Fits l (t.record i) → T.Fits l d)
    (hclean : T.Clean (t.record i) → T.Clean d) : (t.setRecord i d).Sound T where
  unique := h.unique
  taken_iff := h.taken_iff
  fits {o j} ho := by
    change T.Fits (t.vars o) (Function.update t.record i d j)
    rw [Function.update_apply]
    split
    · next heq =>
      subst heq
      exact hfits _ ho (h.fits ho)
    · exact h.fits ho
  clean {j} hj := by
    change T.Clean (Function.update t.record i d j)
    rw [Function.update_apply]
    split
    · next heq =>
      subst heq
      exact hclean (h.clean hj)
    · exact h.clean hj

/-- A thread goes on with the slot it holds, and writes to its record. -/
theorem Sound.keep (h : t.Sound T) {o : O} {i : I} {l : L} {d : D}
    (ho : T.slot (t.vars o) = some i) (hl : T.slot l = some i) (hfits : T.Fits l d) :
    ((t.setVars o l).setRecord i d).Sound T where
  unique {p p' j} hp hp' := by
    rcases slot_setVars hp with ⟨rfl, hj⟩ | ⟨hne, hq⟩ <;>
      rcases slot_setVars hp' with ⟨rfl, hj'⟩ | ⟨hne', hq'⟩
    · rfl
    · obtain rfl : i = j := Option.some.inj (hl.symm.trans hj)
      exact h.unique ho hq'
    · obtain rfl : i = j := Option.some.inj (hl.symm.trans hj')
      exact h.unique hq ho
    · exact h.unique hq hq'
  taken_iff j := by
    change t.taken j = true ↔ ∃ p, T.slot (Function.update t.vars o l p) = some j
    rw [h.taken_iff j]
    refine exists_congr fun p => ?_
    rw [Function.update_apply]
    split
    · next heq => rw [heq, ho, hl]
    · exact Iff.rfl
  fits {p j} hp := by
    rcases slot_setVars hp with ⟨rfl, hj⟩ | ⟨hne, hq⟩
    · obtain rfl : i = j := Option.some.inj (hl.symm.trans hj)
      simpa using hfits
    · have hij : j ≠ i := by
        rintro rfl
        exact hne (h.unique hq ho)
      simpa [hne, hij] using h.fits hq
  clean {j} hj := by
    have hij : j ≠ i := by
      rintro rfl
      exact h.not_slot hj ho
    change T.Clean (Function.update t.record i d j)
    rw [Function.update_of_ne hij]
    exact h.clean hj

omit [DecidableEq O] in
@[simp] theorem setRecord_self (t : Table O I L D) (i : I) : t.setRecord i (t.record i) = t := by
  rw [setRecord, Function.update_eq_self]

omit [DecidableEq I] in
/-- A thread goes on with the slot it holds, and leaves its record as it is. -/
theorem Sound.stay (h : t.Sound T) {o : O} {i : I} {l : L} (ho : T.slot (t.vars o) = some i)
    (hl : T.slot l = some i) (hfits : T.Fits l (t.record i)) : (t.setVars o l).Sound T := by
  classical
  have hkeep := h.keep ho hl hfits
  rwa [← setVars_record (t := t) o l, setRecord_self] at hkeep

omit [DecidableEq I] in
/-- A thread that holds no slot goes on without one. -/
theorem Sound.move (h : t.Sound T) {o : O} {l : L} (ho : T.slot (t.vars o) = none)
    (hl : T.slot l = none) : (t.setVars o l).Sound T where
  unique {p p' j} hp hp' := by
    rcases slot_setVars hp with ⟨rfl, hj⟩ | ⟨-, hq⟩
    · exact absurd (hl.symm.trans hj) (Option.some_ne_none j).symm
    · rcases slot_setVars hp' with ⟨rfl, hj⟩ | ⟨-, hq'⟩
      · exact absurd (hl.symm.trans hj) (Option.some_ne_none j).symm
      · exact h.unique hq hq'
  taken_iff j := by
    change t.taken j = true ↔ ∃ p, T.slot (Function.update t.vars o l p) = some j
    rw [h.taken_iff j]
    refine exists_congr fun p => ?_
    rw [Function.update_apply]
    split
    · next heq => rw [heq, ho, hl]
    · exact Iff.rfl
  fits {p j} hp := by
    rcases slot_setVars hp with ⟨rfl, hj⟩ | ⟨hne, hq⟩
    · exact absurd (hl.symm.trans hj) (Option.some_ne_none j).symm
    · simpa [hne] using h.fits hq
  clean := h.clean

/-- A thread that holds no slot takes one that is free. -/
theorem Sound.take (h : t.Sound T) {o : O} {i : I} {l : L} (ho : T.slot (t.vars o) = none)
    (hi : t.taken i = false) (hl : T.slot l = some i) (hfits : T.Fits l (t.record i)) :
    ((t.setVars o l).setTaken i true).Sound T where
  unique {p p' j} hp hp' := by
    rcases slot_setVars hp with ⟨rfl, hj⟩ | ⟨-, hq⟩ <;>
      rcases slot_setVars hp' with ⟨rfl, hj'⟩ | ⟨-, hq'⟩
    · rfl
    · obtain rfl : i = j := Option.some.inj (hl.symm.trans hj)
      exact absurd hq' (h.not_slot hi)
    · obtain rfl : i = j := Option.some.inj (hl.symm.trans hj')
      exact absurd hq (h.not_slot hi)
    · exact h.unique hq hq'
  taken_iff j := by
    change Function.update t.taken i true j = true ↔
      ∃ p, T.slot (Function.update t.vars o l p) = some j
    rw [Function.update_apply]
    split
    · next heq => exact iff_of_true rfl ⟨o, by rw [Function.update_self, hl, heq]⟩
    · next hne =>
      rw [h.taken_iff j]
      refine exists_congr fun p => ?_
      rw [Function.update_apply]
      split
      · next heq =>
        rw [heq, ho, hl]
        exact iff_of_false (Option.some_ne_none j).symm fun hij => hne (Option.some.inj hij).symm
      · exact Iff.rfl
  fits {p j} hp := by
    rcases slot_setVars hp with ⟨rfl, hj⟩ | ⟨hne, hq⟩
    · obtain rfl : i = j := Option.some.inj (hl.symm.trans hj)
      simpa using hfits
    · simpa [hne] using h.fits hq
  clean {j} hj := by
    change Function.update t.taken i true j = false at hj
    rw [Function.update_apply] at hj
    split at hj
    · cases hj
    · exact h.clean hj

/-- A thread gives back the slot it holds, with a clean record. -/
theorem Sound.give (h : t.Sound T) {o : O} {i : I} {l : L} {d : D}
    (ho : T.slot (t.vars o) = some i) (hl : T.slot l = none) (hclean : T.Clean d) :
    (((t.setVars o l).setTaken i false).setRecord i d).Sound T where
  unique {p p' j} hp hp' := by
    rcases slot_setVars hp with ⟨rfl, hj⟩ | ⟨-, hq⟩
    · exact absurd (hl.symm.trans hj) (Option.some_ne_none j).symm
    · rcases slot_setVars hp' with ⟨rfl, hj⟩ | ⟨-, hq'⟩
      · exact absurd (hl.symm.trans hj) (Option.some_ne_none j).symm
      · exact h.unique hq hq'
  taken_iff j := by
    change Function.update t.taken i false j = true ↔
      ∃ p, T.slot (Function.update t.vars o l p) = some j
    constructor
    · intro hj
      rw [Function.update_apply] at hj
      split at hj
      · cases hj
      · next hne =>
        obtain ⟨p, hp⟩ := (h.taken_iff j).mp hj
        refine ⟨p, ?_⟩
        have hpo : p ≠ o := by
          rintro rfl
          exact hne (Option.some.inj (hp.symm.trans ho))
        rwa [Function.update_of_ne hpo]
    · rintro ⟨p, hp⟩
      rcases slot_setVars hp with ⟨rfl, hj⟩ | ⟨hne, hq⟩
      · exact absurd (hl.symm.trans hj) (Option.some_ne_none j).symm
      · have hij : j ≠ i := by
          rintro rfl
          exact hne (h.unique hq ho)
        rw [Function.update_of_ne hij]
        exact h.taken hq
  fits {p j} hp := by
    rcases slot_setVars hp with ⟨rfl, hj⟩ | ⟨hne, hq⟩
    · exact absurd (hl.symm.trans hj) (Option.some_ne_none j).symm
    · have hij : j ≠ i := by
        rintro rfl
        exact hne (h.unique hq ho)
      simpa [hne, hij] using h.fits hq
  clean {j} hj := by
    change T.Clean (Function.update t.record i d j)
    rw [Function.update_apply]
    split
    · exact hclean
    · next hij =>
      change Function.update t.taken i false j = false at hj
      rw [Function.update_of_ne hij] at hj
      exact h.clean hj

/-- A thread hands the slot it holds on to one that has none. -/
theorem Sound.pass (h : t.Sound T) {o p : O} {i : I} {l m : L} (hne : p ≠ o)
    (ho : T.slot (t.vars o) = some i) (hp : T.slot (t.vars p) = none) (hl : T.slot l = none)
    (hm : T.slot m = some i) (hfits : T.Fits m (t.record i)) :
    ((t.setVars o l).setVars p m).Sound T := by
  have hgive : ((t.setVars o l).setTaken i false).Sound { T with Clean := fun _ => True } := by
    have hkeep : t.Sound { T with Clean := fun _ => True } :=
      ⟨h.unique, h.taken_iff, h.fits, fun _ => trivial⟩
    have hback := hkeep.give (d := t.record i) ho hl trivial
    rwa [setRecord, setTaken_record, setVars_record, Function.update_eq_self] at hback
  have hp' : T.slot ((t.setVars o l).vars p) = none := by
    rw [setVars_vars, Function.update_of_ne hne, hp]
  have htake := hgive.take hp' (Function.update_self ..) hm hfits
  have htaken : Function.update (Function.update t.taken i false) i true = t.taken := by
    rw [Function.update_idem, ← h.taken ho, Function.update_eq_self]
  refine ⟨htake.unique, fun j => ?_, htake.fits, fun {j} hj => h.clean hj⟩
  have hj := htake.taken_iff j
  rw [setTaken_taken, setVars_taken, setTaken_taken, setVars_taken, htaken] at hj
  exact hj

end Table

end Lease
