import Mathlib

/-!
# Descriptors that are used again

A process opens objects and gets a number for each; a number that is closed is given out again. An
agent that has opened an object keeps the number and closes it some time later. If somebody else has
closed the number before, the object of the agent is gone, and what the agent closes then is whatever
has got the number since.

An object here has a name of its own besides its number, so that one can say what a call of `close`
has hit. `Displaced` says that an object was closed by somebody who does not hold it. The main result
is that an agent's own call of `close` hits the agent's own object exactly when that has not happened.

## Main definitions

* `Descriptors.Table`, `Descriptors.Table.move` — who holds what, which numbers are open, and a move
* `Descriptors.Table.Sound` — the invariant, for a table and the calls of `close` so far

## Main results

* `Descriptors.Table.Sound.move` — legal moves keep it
* `Descriptors.Table.Sound.open_iff` — an object is open under its holder's number exactly when it has
  not been displaced
* `Descriptors.Table.Sound.hits_own_iff` — when a holder closes his own object
-/

namespace Descriptors

/-- A number, and the object that was opened under it. -/
structure Handle where
  number : ℤ
  object : ℕ
  deriving DecidableEq

/-- A call of `close`: the object of the agent that closes, if it is one that holds any, and the object
that was open under the number. -/
structure Closed where
  own : Option ℕ
  hit : Option ℕ
  deriving DecidableEq

/-- Who holds what, which object is open under a number, and how many objects there have been. -/
structure Table (A : Type*) where
  hand : A → Option Handle
  opened : ℤ → Option ℕ
  made : ℕ

/-- What can happen. -/
inductive Move (A : Type*)
  | stay
  /-- An agent opens an object and gets a number. -/
  | make (a : A) (n : ℤ)
  /-- An object is opened, and nobody keeps its number. -/
  | leak (n : ℤ)
  | pass (a b : A)
  | close (a : A) (n : ℤ)
  /-- Somebody closes a number that he does not hold. -/
  | foreign (n : ℤ)

/-- A call of `close` has hit an object, and it was not the call of the one who held it. -/
def Closed.Strange (c : Option Closed) (x : ℕ) : Prop := ∃ own, c = some ⟨own, some x⟩ ∧ own ≠ some x

/-- An object has been closed by somebody who did not hold it. -/
def Displaced (log : List (Option Closed)) (x : ℕ) : Prop := ∃ c ∈ log, Closed.Strange c x

theorem displaced_concat {log : List (Option Closed)} {c : Option Closed} {x : ℕ} :
    Displaced (log ++ [c]) x ↔ Displaced log x ∨ Closed.Strange c x := by
  simp only [Displaced, List.mem_append, List.mem_singleton, or_and_right, exists_or,
    exists_eq_left]

/-- Every holder who closes an object closes his own. -/
def ClosesOwn (log : List (Option Closed)) : Prop :=
  ∀ c ∈ log, ∀ x y, c = some ⟨some x, y⟩ → y = some x

/-- No object has been closed by somebody who holds nothing when its holder closes it. -/
def Undisturbed (log : List (Option Closed)) : Prop :=
  ∀ pre c post, log = pre ++ c :: post → ∀ x y, c = some ⟨some x, y⟩ → some ⟨none, some x⟩ ∉ pre

theorem closesOwn_concat {log : List (Option Closed)} {c : Option Closed} :
    ClosesOwn (log ++ [c]) ↔ ClosesOwn log ∧ ∀ x y, c = some ⟨some x, y⟩ → y = some x := by
  simp only [ClosesOwn, List.mem_append, List.mem_singleton, or_imp, forall_and, forall_eq]

/-- While every holder has closed his own object, what has been displaced was closed by somebody who
held nothing. -/
theorem displaced_iff_of_own {log : List (Option Closed)} (hlog : ClosesOwn log) {x : ℕ} :
    Displaced log x ↔ some ⟨none, some x⟩ ∈ log := by
  constructor
  · rintro ⟨c, hc, own, rfl, hne⟩
    rcases own with _ | y
    · exact hc
    · exact absurd (hlog _ hc y _ rfl).symm hne
  · intro hmem
    exact ⟨_, hmem, none, rfl, (Option.some_ne_none _).symm⟩

variable {A : Type*} [DecidableEq A]

namespace Table

variable (t : Table A)

/-- What happens in a move, and the call of `close` in it. -/
def move (t : Table A) : Move A → Table A × Option Closed
  | .stay => (t, none)
  | .make a n =>
    (⟨Function.update t.hand a (some ⟨n, t.made⟩), Function.update t.opened n (some t.made),
      t.made + 1⟩, none)
  | .leak n => (⟨t.hand, Function.update t.opened n (some t.made), t.made + 1⟩, none)
  | .pass a b =>
    ({ t with hand := Function.update (Function.update t.hand a none) b (t.hand a) }, none)
  | .close a n =>
    (⟨Function.update t.hand a none, Function.update t.opened n none, t.made⟩,
      some ⟨(t.hand a).map Handle.object, t.opened n⟩)
  | .foreign n => ({ t with opened := Function.update t.opened n none }, some ⟨none, t.opened n⟩)

/-- A number is given out only when it is not open, an agent has one object at a time, and closes the
number it was given. Only the numbers in `spare` may be left open by everybody. -/
def Legal (spare : ℤ → Prop) (t : Table A) : Move A → Prop
  | .stay => True
  | .make a n => t.hand a = none ∧ t.opened n = none
  | .leak n => spare n ∧ t.opened n = none
  | .pass _ b => t.hand b = none
  | .close a n => ∃ h, t.hand a = some h ∧ h.number = n
  | .foreign _ => True

/-- The invariant, for the calls of `close` so far. -/
structure Sound (spare : ℤ → Prop) (t : Table A) (log : List (Option Closed)) : Prop where
  unique : ∀ {a b h h'}, t.hand a = some h → t.hand b = some h' → h.object = h'.object → a = b
  made : ∀ {a h}, t.hand a = some h → h.object < t.made
  opened_made : ∀ {n x}, t.opened n = some x → x < t.made
  opened_inj : ∀ {n m x}, t.opened n = some x → t.opened m = some x → n = m
  held : ∀ {n x}, t.opened n = some x → spare n ∨ ∃ a, t.hand a = some ⟨n, x⟩
  served : ∀ {a h}, t.hand a = some h → Displaced log h.object ∨ t.opened h.number = some h.object
  gone : ∀ {x}, Displaced log x → x < t.made ∧ ∀ n, t.opened n ≠ some x

variable {t} {spare : ℤ → Prop} {log : List (Option Closed)}

omit [DecidableEq A] in
theorem sound_of_empty (hhand : ∀ a, t.hand a = none) (hopened : ∀ n, t.opened n = none) :
    t.Sound spare [] where
  unique ha := absurd ((hhand _).symm.trans ha) (Option.some_ne_none _).symm
  made ha := absurd ((hhand _).symm.trans ha) (Option.some_ne_none _).symm
  opened_made hn := absurd ((hopened _).symm.trans hn) (Option.some_ne_none _).symm
  opened_inj hn := absurd ((hopened _).symm.trans hn) (Option.some_ne_none _).symm
  held hn := absurd ((hopened _).symm.trans hn) (Option.some_ne_none _).symm
  served ha := absurd ((hhand _).symm.trans ha) (Option.some_ne_none _).symm
  gone := by
    rintro x ⟨c, hc, -⟩
    cases hc

omit [DecidableEq A] in
/-- An object is open under its holder's number exactly when it has not been displaced. -/
theorem Sound.open_iff (h : t.Sound spare log) {a : A} {x : Handle} (ha : t.hand a = some x) :
    t.opened x.number = some x.object ↔ ¬ Displaced log x.object := by
  constructor
  · intro hopen hgone
    exact (h.gone hgone).2 _ hopen
  · intro hgone
    exact (h.served ha).resolve_left hgone

omit [DecidableEq A] in
/-- A move without a call of `close` adds nothing. -/
theorem Sound.concat (h : t.Sound spare log) : t.Sound spare (log ++ [none]) where
  unique := h.unique
  made := h.made
  opened_made := h.opened_made
  opened_inj := h.opened_inj
  held := h.held
  served ha := (h.served ha).imp (fun hd => displaced_concat.mpr (.inl hd)) id
  gone hd := by
    refine h.gone ((displaced_concat.mp hd).resolve_right ?_)
    rintro ⟨own, heq, -⟩
    cases heq

omit [DecidableEq A] in
theorem opened_update_some {n m : ℤ} {x : ℕ}
    (h : Function.update t.opened n (some t.made) m = some x) :
    (m = n ∧ x = t.made) ∨ (m ≠ n ∧ t.opened m = some x) := by
  rw [Function.update_apply] at h
  split at h
  · next heq => exact .inl ⟨heq, (Option.some.inj h).symm⟩
  · next hne => exact .inr ⟨hne, h⟩

omit [DecidableEq A] in
theorem opened_update_none {n m : ℤ} {x : ℕ} (h : Function.update t.opened n none m = some x) :
    m ≠ n ∧ t.opened m = some x := by
  rw [Function.update_apply] at h
  split at h
  · cases h
  · next hne => exact ⟨hne, h⟩

theorem hand_update {f : A → Option Handle} {a b : A} {y : Option Handle} {x : Handle}
    (h : Function.update f a y b = some x) : (b = a ∧ y = some x) ∨ (b ≠ a ∧ f b = some x) := by
  rw [Function.update_apply] at h
  split at h
  · next heq => exact .inl ⟨heq, h⟩
  · next hne => exact .inr ⟨hne, h⟩

omit [DecidableEq A] in
/-- A new object is open, under a number that is spared for now. -/
theorem Sound.opens (h : t.Sound spare log) {n : ℤ} (hfree : t.opened n = none) :
    (⟨t.hand, Function.update t.opened n (some t.made), t.made + 1⟩ : Table A).Sound
      (fun m => spare m ∨ m = n) log where
  unique := h.unique
  made ha := Nat.lt_succ_of_lt (h.made ha)
  opened_made {m x} hm := by
    rcases opened_update_some hm with ⟨-, rfl⟩ | ⟨-, hold⟩
    · exact Nat.lt_succ_self _
    · exact Nat.lt_succ_of_lt (h.opened_made hold)
  opened_inj {m m' x} hm hm' := by
    rcases opened_update_some hm with ⟨hmn, hx⟩ | ⟨-, hold⟩ <;>
      rcases opened_update_some hm' with ⟨hmn', hx'⟩ | ⟨-, hold'⟩
    · exact hmn.trans hmn'.symm
    · exact absurd (hx ▸ h.opened_made hold') (Nat.lt_irrefl _)
    · exact absurd (hx' ▸ h.opened_made hold) (Nat.lt_irrefl _)
    · exact h.opened_inj hold hold'
  held {m x} hm := by
    rcases opened_update_some hm with ⟨hmn, -⟩ | ⟨-, hold⟩
    · exact .inl (.inr hmn)
    · exact (h.held hold).imp .inl id
  served {a x} ha := by
    refine (h.served ha).imp id fun hopen => ?_
    have hne : x.number ≠ n := by
      rintro rfl
      rw [hfree] at hopen
      cases hopen
    change Function.update t.opened n _ _ = _
    rw [Function.update_of_ne hne]
    exact hopen
  gone {x} hd := by
    refine ⟨Nat.lt_succ_of_lt (h.gone hd).1, fun m hm => ?_⟩
    rcases opened_update_some hm with ⟨-, rfl⟩ | ⟨-, hold⟩
    · exact Nat.lt_irrefl _ (h.gone hd).1
    · exact (h.gone hd).2 m hold

/-- An agent takes a spared number whose object nobody holds. -/
theorem Sound.grab {n : ℤ} (h : t.Sound (fun m => spare m ∨ m = n) log) {a : A} {x : ℕ}
    (ha : t.hand a = none) (hn : t.opened n = some x)
    (hx : ∀ b y, t.hand b = some y → y.object ≠ x) :
    ({ t with hand := Function.update t.hand a (some ⟨n, x⟩) } : Table A).Sound spare log where
  unique {b b' y y'} hb hb' hy := by
    rcases hand_update hb with ⟨hba, hz⟩ | ⟨-, hold⟩ <;>
      rcases hand_update hb' with ⟨hba', hz'⟩ | ⟨-, hold'⟩
    · exact hba.trans hba'.symm
    · obtain rfl := Option.some.inj hz
      exact absurd hy.symm (hx b' y' hold')
    · obtain rfl := Option.some.inj hz'
      exact absurd hy (hx b y hold)
    · exact h.unique hold hold' hy
  made {b y} hb := by
    rcases hand_update hb with ⟨-, hz⟩ | ⟨-, hold⟩
    · obtain rfl := Option.some.inj hz
      exact h.opened_made hn
    · exact h.made hold
  opened_made := h.opened_made
  opened_inj := h.opened_inj
  held {m y} hm := by
    rcases h.held hm with (hspare | rfl) | ⟨b, hb⟩
    · exact .inl hspare
    · obtain rfl := Option.some.inj (hm.symm.trans hn)
      exact .inr ⟨a, Function.update_self ..⟩
    · have hne : b ≠ a := by
        rintro rfl
        rw [ha] at hb
        cases hb
      refine .inr ⟨b, ?_⟩
      change Function.update t.hand a _ b = _
      rw [Function.update_of_ne hne]
      exact hb
  served {b y} hb := by
    rcases hand_update hb with ⟨-, hz⟩ | ⟨-, hold⟩
    · obtain rfl := Option.some.inj hz
      exact .inr hn
    · exact h.served hold
  gone := h.gone

/-- A handle goes from one agent to another. -/
theorem Sound.pass (h : t.Sound spare log) {a b : A} (hb : t.hand b = none) :
    ({ t with hand := Function.update (Function.update t.hand a none) b (t.hand a) } :
      Table A).Sound spare log := by
  -- who has it now had it before, or is `b` and has what `a` had
  have hback : ∀ {c x}, Function.update (Function.update t.hand a none) b (t.hand a) c = some x →
      (c = b ∧ t.hand a = some x) ∨ (c ≠ b ∧ c ≠ a ∧ t.hand c = some x) := by
    intro c x hc
    rcases hand_update hc with ⟨hcb, hx⟩ | ⟨hcb, hx⟩
    · exact .inl ⟨hcb, hx⟩
    · rcases hand_update hx with ⟨-, hx⟩ | ⟨hca, hx⟩
      · cases hx
      · exact .inr ⟨hcb, hca, hx⟩
  have horig : ∀ {c x}, Function.update (Function.update t.hand a none) b (t.hand a) c = some x →
      ∃ c', t.hand c' = some x := by
    intro c x hc
    rcases hback hc with ⟨-, hx⟩ | ⟨-, -, hx⟩
    · exact ⟨a, hx⟩
    · exact ⟨c, hx⟩
  exact
    { unique := by
        intro c c' x x' hc hc' hx
        rcases hback hc with ⟨hcb, hold⟩ | ⟨-, hca, hold⟩ <;>
          rcases hback hc' with ⟨hcb', hold'⟩ | ⟨-, hca', hold'⟩
        · exact hcb.trans hcb'.symm
        · exact absurd (h.unique hold hold' hx).symm hca'
        · exact absurd (h.unique hold hold' hx) hca
        · exact h.unique hold hold' hx
      made := by
        intro c x hc
        obtain ⟨c', hc'⟩ := horig hc
        exact h.made hc'
      opened_made := h.opened_made
      opened_inj := h.opened_inj
      held := by
        intro n x hn
        refine (h.held hn).imp id ?_
        rintro ⟨c, hc⟩
        by_cases hca : c = a
        · subst hca
          refine ⟨b, ?_⟩
          change Function.update (Function.update t.hand c none) b (t.hand c) b = _
          rw [Function.update_self, hc]
        · refine ⟨c, ?_⟩
          have hcb : c ≠ b := by
            rintro rfl
            rw [hb] at hc
            cases hc
          change Function.update (Function.update t.hand a none) b (t.hand a) c = _
          rw [Function.update_of_ne hcb, Function.update_of_ne hca]
          exact hc
      served := by
        intro c x hc
        obtain ⟨c', hc'⟩ := horig hc
        exact h.served hc'
      gone := h.gone }

/-- An agent forgets the number it has. -/
theorem Sound.drop (h : t.Sound spare log) {a : A} {y : Handle} (ha : t.hand a = some y) :
    ({ t with hand := Function.update t.hand a none } : Table A).Sound
      (fun m => spare m ∨ m = y.number) log where
  unique {b b' x x'} hb hb' hx := by
    rcases hand_update hb with ⟨-, hz⟩ | ⟨-, hold⟩
    · cases hz
    · rcases hand_update hb' with ⟨-, hz⟩ | ⟨-, hold'⟩
      · cases hz
      · exact h.unique hold hold' hx
  made {b x} hb := by
    rcases hand_update hb with ⟨-, hz⟩ | ⟨-, hold⟩
    · cases hz
    · exact h.made hold
  opened_made := h.opened_made
  opened_inj := h.opened_inj
  held {m x} hm := by
    rcases h.held hm with hspare | ⟨b, hb⟩
    · exact .inl (.inl hspare)
    · by_cases hba : b = a
      · subst hba
        obtain rfl := Option.some.inj (hb.symm.trans ha)
        exact .inl (.inr rfl)
      · refine .inr ⟨b, ?_⟩
        change Function.update t.hand a none b = _
        rw [Function.update_of_ne hba]
        exact hb
  served {b x} hb := by
    rcases hand_update hb with ⟨-, hz⟩ | ⟨-, hold⟩
    · cases hz
    · exact h.served hold
  gone := h.gone

omit [DecidableEq A] in
/-- A number is closed by one who does not hold the object under it any more, if he ever did. -/
theorem Sound.closes {n : ℤ} (h : t.Sound (fun m => spare m ∨ m = n) log) {own : Option ℕ}
    (hown : ∀ b x, t.hand b = some x → own ≠ some x.object) :
    ({ t with opened := Function.update t.opened n none } : Table A).Sound spare
      (log ++ [some ⟨own, t.opened n⟩]) where
  unique := h.unique
  made := h.made
  opened_made hm := h.opened_made (opened_update_none hm).2
  opened_inj hm hm' := h.opened_inj (opened_update_none hm).2 (opened_update_none hm').2
  held {m x} hm := by
    obtain ⟨hne, hold⟩ := opened_update_none hm
    rcases h.held hold with (hspare | hmn) | hb
    · exact .inl hspare
    · exact absurd hmn hne
    · exact .inr hb
  served {b x} hb := by
    rcases h.served hb with hd | hopen
    · exact .inl (displaced_concat.mpr (.inl hd))
    · by_cases hne : x.number = n
      · refine .inl (displaced_concat.mpr (.inr ⟨own, ?_, hown b x hb⟩))
        rw [← hne, hopen]
      · refine .inr ?_
        change Function.update t.opened n none x.number = _
        rw [Function.update_of_ne hne]
        exact hopen
  gone {x} hd := by
    rcases displaced_concat.mp hd with hd | ⟨own', heq, -⟩
    · exact ⟨(h.gone hd).1, fun m hm => (h.gone hd).2 m (opened_update_none hm).2⟩
    · have hopen : t.opened n = some x := by
        have hhit := congrArg Closed.hit (Option.some.inj heq)
        exact hhit
      refine ⟨h.opened_made hopen, fun m hm => ?_⟩
      obtain ⟨hne, hold⟩ := opened_update_none hm
      exact hne (h.opened_inj hold hopen)

omit [DecidableEq A] in
theorem Sound.mono {spare' : ℤ → Prop} (h : t.Sound spare log) (hs : ∀ n, spare n → spare' n) :
    t.Sound spare' log :=
  { h with held := fun hn => (h.held hn).imp (hs _) id }

/-- Legal moves keep the invariant. -/
theorem Sound.move (h : t.Sound spare log) {m : Move A} (hm : t.Legal spare m) :
    (t.move m).1.Sound spare (log ++ [(t.move m).2]) := by
  cases m with
  | stay => exact h.concat
  | make a n =>
    refine Sound.concat (Sound.grab (t := ⟨t.hand, _, _⟩) (h.opens hm.2) hm.1
      (Function.update_self ..) fun b y hb => ?_)
    exact (h.made hb).ne
  | leak n =>
    refine Sound.concat ((h.opens hm.2).mono ?_)
    rintro k (hk | rfl)
    · exact hk
    · exact hm.1
  | pass a b => exact Sound.concat (h.pass hm)
  | close a n =>
    obtain ⟨y, ha, rfl⟩ := hm
    have hown : ∀ b x, Function.update t.hand a none b = some x → some y.object ≠ some x.object := by
      intro b x hb heq
      rcases hand_update hb with ⟨-, hz⟩ | ⟨hne, hold⟩
      · cases hz
      · exact hne (h.unique hold ha (Option.some.inj heq).symm)
    have hcloses := (h.drop ha).closes hown
    change Sound spare _ (log ++ [some ⟨(t.hand a).map Handle.object, t.opened y.number⟩])
    rw [ha]
    exact hcloses
  | foreign n =>
    have hmono : t.Sound (fun m => spare m ∨ m = n) log := h.mono fun _ hk => .inl hk
    refine hmono.closes ?_
    intro b x _
    exact (Option.some_ne_none _).symm

/-- As long as all have closed their own objects, the next one does exactly when nobody who holds
nothing has closed it before. -/
theorem Sound.hits_own_iff (h : t.Sound spare log) {m : Move A} (hm : t.Legal spare m)
    (hlog : ClosesOwn log) {x : ℕ} {y : Option ℕ} (hc : (t.move m).2 = some ⟨some x, y⟩) :
    y = some x ↔ some ⟨none, some x⟩ ∉ log := by
  cases m with
  | close a n =>
    obtain ⟨z, ha, rfl⟩ := hm
    rw [Table.move, ha] at hc
    obtain ⟨rfl, rfl⟩ : z.object = x ∧ t.opened z.number = y := by simpa using hc
    rw [h.open_iff ha, displaced_iff_of_own hlog]
  | stay => cases hc
  | make a n => cases hc
  | leak n => cases hc
  | pass a b => cases hc
  | foreign n => cases hc

end Table

end Descriptors
