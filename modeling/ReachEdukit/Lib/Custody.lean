import Mathlib

/-!
# Custody of things

Agents make things, put them into places, take them out again and give them up. A place is a
variable: whoever reads it has a copy of what it names, and whoever writes it forgets what it named.
So nothing here keeps a thing from being taken twice or forgotten. Beside the variables stands the
*holder* of each thing, which moves with it; a move is *legal* when the variable it reads or writes
agrees with the holder.

## Main definitions

* `Custody` — what the agents have in hand, what the places name, and who holds what
* `Custody.move`, `Custody.Legal` — the moves
* `Custody.Sound` — hands and places agree with the holders

## Main results

* `Custody.Sound.move` — legal moves keep custody sound
* `Custody.holder_move_eq_gone` — a thing is given up once: by an agent who holds it
-/

/-- Where a thing is: with an agent, in a place, or given up. -/
inductive Holder (A P : Type*)
  | agent (a : A)
  | place (p : P)
  | gone
  deriving DecidableEq

/-- What the agents have in hand, what the places name, and who holds what. -/
@[ext]
structure Custody (A P T : Type*) where
  /-- What an agent has in hand. -/
  hand : A → Option T
  /-- What a place names. -/
  place : P → Option T
  /-- The holder of a thing, `none` for one that has not been made. -/
  holder : T → Option (Holder A P)

namespace Custody

variable {A P T : Type*}

/-- The moves. -/
inductive Move (A P T : Type*)
  /-- The agent makes a thing. -/
  | make (a : A) (t : T)
  /-- The agent puts what he has into a place. -/
  | put (a : A) (p : P)
  /-- The agent takes what a place names. -/
  | take (a : A) (p : P)
  /-- The agent gives up what he has. -/
  | close (a : A)
  /-- The place names nothing any more. -/
  | wipe (p : P)

/-- The thing that is moved. -/
def moved (c : Custody A P T) : Move A P T → Option T
  | .make _ t => some t
  | .put a _ => c.hand a
  | .take _ p => c.place p
  | .close a => c.hand a
  | .wipe _ => none

/-- Where it is moved to. -/
def Move.goal : Move A P T → Holder A P
  | .make a _ => .agent a
  | .put _ p => .place p
  | .take a _ => .agent a
  | .close _ => .gone
  | .wipe p => .place p

/-- Writing the place forgets nothing: what it names is not held there. -/
def Idle (c : Custody A P T) (p : P) : Prop :=
  ∀ t, c.place p = some t → c.holder t ≠ some (.place p)

/-- What the place names is held there. -/
def Holds (c : Custody A P T) (p : P) : Prop :=
  ∀ t, c.place p = some t → c.holder t = some (.place p)

instance [DecidableEq A] [DecidableEq P] (c : Custody A P T) (p : P) : Decidable (c.Idle p) :=
  inferInstanceAs (Decidable (∀ t ∈ c.place p, c.holder t ≠ some (.place p)))

instance [DecidableEq A] [DecidableEq P] (c : Custody A P T) (p : P) : Decidable (c.Holds p) :=
  inferInstanceAs (Decidable (∀ t ∈ c.place p, c.holder t = some (.place p)))

/-- What is made is new, what is taken is held by the place, and no place is written that holds
something. -/
def Legal (c : Custody A P T) : Move A P T → Prop
  | .make a t => c.hand a = none ∧ c.holder t = none
  | .put _ p => c.Idle p
  | .take a p => c.hand a = none ∧ c.Holds p
  | .close _ => True
  | .wipe p => c.Idle p

/-- Hands and places agree with the holders. -/
structure Sound (c : Custody A P T) : Prop where
  /-- What an agent has in hand is with him. -/
  hand : ∀ {a t}, c.hand a = some t → c.holder t = some (.agent a)
  /-- What is in a place is what it names. -/
  place : ∀ {p t}, c.holder t = some (.place p) → c.place p = some t

variable {c : Custody A P T} {m : Move A P T} {t : T}

theorem Sound.hand_inj (hc : c.Sound) {a b : A} (ha : c.hand a = some t) (hb : c.hand b = some t) :
    a = b := by
  have heq : (some (.agent a) : Option (Holder A P)) = some (.agent b) := (hc.hand ha).symm.trans (hc.hand hb)
  exact Holder.agent.inj (Option.some.inj heq)

/-- What is in a legal move was not given up. -/
theorem Sound.holder_moved (hc : c.Sound) (hm : c.Legal m) (h : c.moved m = some t) :
    c.holder t = none ∨ (∃ a, c.holder t = some (.agent a)) ∨ ∃ p, c.holder t = some (.place p) := by
  rcases m with ⟨a, t'⟩ | ⟨a, p⟩ | ⟨a, p⟩ | a | p
  · obtain rfl : t' = t := Option.some.inj h
    exact .inl hm.2
  · exact .inr (.inl ⟨a, hc.hand h⟩)
  · exact .inr (.inr ⟨p, hm.2 t h⟩)
  · exact .inr (.inl ⟨a, hc.hand h⟩)
  · cases h

variable [DecidableEq A] [DecidableEq P] [DecidableEq T]

/-- The hands after a move. -/
def handAfter (c : Custody A P T) : Move A P T → A → Option T
  | .make a t => Function.update c.hand a (some t)
  | .put a _ => Function.update c.hand a none
  | .take a p => Function.update c.hand a (c.place p)
  | .close a => Function.update c.hand a none
  | .wipe _ => c.hand

/-- The places after it. -/
def placeAfter (c : Custody A P T) : Move A P T → P → Option T
  | .put a p => Function.update c.place p (c.hand a)
  | .wipe p => Function.update c.place p none
  | _ => c.place

/-- The holders after it. -/
def holderAfter (c : Custody A P T) (m : Move A P T) : T → Option (Holder A P) :=
  (c.moved m).elim c.holder fun t => Function.update c.holder t (some m.goal)

/-- A move. -/
def move (c : Custody A P T) (m : Move A P T) : Custody A P T where
  hand := c.handAfter m
  place := c.placeAfter m
  holder := c.holderAfter m

theorem holder_move_of_moved (h : c.moved m = some t) : (c.move m).holder t = some m.goal := by
  show c.holderAfter m t = some m.goal
  rw [holderAfter, h]
  exact Function.update_self ..

theorem holder_move_of_ne (h : c.moved m ≠ some t) : (c.move m).holder t = c.holder t := by
  show c.holderAfter m t = c.holder t
  rw [holderAfter]
  rcases hmoved : c.moved m with _ | t'
  · rfl
  · have hne : t ≠ t' := by
      rintro rfl
      exact h hmoved
    exact Function.update_of_ne hne ..

/-- A thing that is moved to a place was put there. -/
theorem holder_move_eq_place {p : P} (h : (c.move m).holder t = some (.place p)) :
    c.holder t = some (.place p) ∨ ∃ a, m = .put a p ∧ c.hand a = some t := by
  by_cases hmoved : c.moved m = some t
  · rw [holder_move_of_moved hmoved, Option.some.injEq] at h
    rcases m with ⟨a, t'⟩ | ⟨a, p'⟩ | ⟨a, p'⟩ | a | p'
    · cases h
    · obtain rfl : p' = p := Holder.place.inj h
      exact .inr ⟨a, rfl, hmoved⟩
    · cases h
    · cases h
    · cases hmoved
  · rw [holder_move_of_ne hmoved] at h
    exact .inl h

/-- A thing is given up once: by an agent who holds it. -/
theorem holder_move_eq_gone (hc : c.Sound) (hm : c.Legal m) :
    (c.move m).holder t = some .gone ↔
      c.holder t = some .gone ∨ ∃ a, m = .close a ∧ c.hand a = some t := by
  by_cases hmoved : c.moved m = some t
  · rw [holder_move_of_moved hmoved]
    have hnot : c.holder t ≠ some .gone := by
      intro hgone
      rcases hc.holder_moved hm hmoved with h | ⟨a, h⟩ | ⟨p, h⟩ <;> rw [h] at hgone <;> cases hgone
    rw [or_iff_right hnot]
    constructor
    · intro h
      rcases m with ⟨a, t'⟩ | ⟨a, p⟩ | ⟨a, p⟩ | a | p
      · cases h
      · cases h
      · cases h
      · exact ⟨a, rfl, hmoved⟩
      · cases h
    · rintro ⟨a, rfl, -⟩
      rfl
  · rw [holder_move_of_ne hmoved]
    refine ⟨.inl, ?_⟩
    rintro (h | ⟨a, rfl, h⟩)
    · exact h
    · exact absurd h hmoved

/-- A thing that is not there yet is there once it is made. -/
theorem holder_move_eq_none (hc : c.Sound) (hm : c.Legal m) :
    (c.move m).holder t = none ↔ c.holder t = none ∧ ∀ a, m ≠ .make a t := by
  by_cases hmoved : c.moved m = some t
  · rw [holder_move_of_moved hmoved]
    refine ⟨fun h => absurd h (Option.some_ne_none _), ?_⟩
    rintro ⟨hnone, hmake⟩
    rcases m with ⟨a, t'⟩ | ⟨a, p⟩ | ⟨a, p⟩ | a | p
    · obtain rfl : t' = t := Option.some.inj hmoved
      exact absurd rfl (hmake a)
    · rw [hc.hand hmoved] at hnone
      cases hnone
    · rw [hm.2 t hmoved] at hnone
      cases hnone
    · rw [hc.hand hmoved] at hnone
      cases hnone
    · cases hmoved
  · rw [holder_move_of_ne hmoved]
    refine ⟨fun h => ⟨h, ?_⟩, And.left⟩
    rintro a rfl
    exact hmoved rfl

omit [DecidableEq T] in
theorem of_update_none {f : A → Option T} {a b : A} (h : Function.update f b none a = some t) :
    a ≠ b ∧ f a = some t := by
  rw [Function.update_apply] at h
  split at h
  · cases h
  · next hne => exact ⟨hne, h⟩

/-- What an agent has in hand after a move is what was moved to him, or what he had and was not
moved. -/
theorem Sound.hand_move (hc : c.Sound) (hm : c.Legal m) {a : A} (h : (c.move m).hand a = some t) :
    (c.moved m = some t ∧ m.goal = .agent a) ∨ (c.hand a = some t ∧ c.moved m ≠ some t) := by
  replace h : c.handAfter m a = some t := h
  rcases m with ⟨b, t'⟩ | ⟨b, p⟩ | ⟨b, p⟩ | b | p
  · rw [handAfter, Function.update_apply] at h
    split at h
    · next heq => exact .inl ⟨h, heq ▸ rfl⟩
    · refine .inr ⟨h, fun hmoved => ?_⟩
      obtain rfl : t' = t := Option.some.inj hmoved
      exact Option.some_ne_none _ ((hc.hand h).symm.trans hm.2)
  · obtain ⟨hne, h⟩ := of_update_none h
    exact .inr ⟨h, fun hmoved => hne (hc.hand_inj h hmoved)⟩
  · rw [handAfter, Function.update_apply] at h
    split at h
    · next heq => exact .inl ⟨h, heq ▸ rfl⟩
    · refine .inr ⟨h, fun hmoved => ?_⟩
      have hplace : some (Holder.agent a) = some (.place p) := (hc.hand h).symm.trans (hm.2 t hmoved)
      cases hplace
  · obtain ⟨hne, h⟩ := of_update_none h
    exact .inr ⟨h, fun hmoved => hne (hc.hand_inj h hmoved)⟩
  · exact .inr ⟨h, fun hmoved => by cases hmoved⟩

/-- Legal moves keep custody sound. -/
theorem Sound.move (hc : c.Sound) (hm : c.Legal m) : (c.move m).Sound where
  hand {a t} h := by
    rcases hc.hand_move hm h with ⟨hmoved, hgoal⟩ | ⟨hhand, hmoved⟩
    · rw [holder_move_of_moved hmoved, hgoal]
    · rw [holder_move_of_ne hmoved]
      exact hc.hand hhand
  place {p t} h := by
    show c.placeAfter m p = some t
    rcases holder_move_eq_place h with hplace | ⟨a, rfl, hhand⟩
    · have hname : c.place p = some t := hc.place hplace
      rcases m with ⟨b, t'⟩ | ⟨b, q⟩ | ⟨b, q⟩ | b | q
      · exact hname
      · have hne : p ≠ q := by
          rintro rfl
          exact hm t hname hplace
        rw [placeAfter, Function.update_of_ne hne, hname]
      · exact hname
      · exact hname
      · have hne : p ≠ q := by
          rintro rfl
          exact hm t hname hplace
        rw [placeAfter, Function.update_of_ne hne, hname]
    · rw [placeAfter, Function.update_self, hhand]

end Custody
