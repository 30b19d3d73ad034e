import ReachEdukit.Middle.TimerClock

/-!
# Creating a timer with wrong arguments

`mid_timer_create0` checks its arguments, and it checks that there is a timer to take. In both cases it
prints a line and goes on. So a wrong argument is stored like any other, and with an empty pool it follows
the null pointer; it never returns an error. With right arguments and a timer to take it does what it
should, if the loop of `msg_timer_queue` ends.

## Main definitions

* `Rejects` — the check of the arguments
* `midTimerCreate0Raw` — the function, with its arguments as it gets them and what it returns
* `Gains` — the queue has one timer more, or again
* `CreatesAtomically` — what is asked of the function

## Main results

* `Holds.createRaw` — with a timer to take and a loop that ends, the queue gains one timer
* `createsAtomically_iff` — when the function does what is asked of it
-/

namespace ReachEdukit

namespace Middle

variable {F X : Type} [DecidableEq F] [DecidableEq X]

/-- The check of the arguments. -/
def Rejects (null : F) (intval loops : BitVec 32) (func : F) : Prop :=
  intval.toInt ≤ 0 ∨ loops.toInt < 0 ∨ 5 < loops.toInt ∨ func = null

instance (null : F) (intval loops : BitVec 32) (func : F) : Decidable (Rejects null intval loops func) :=
  inferInstanceAs (Decidable (_ ∨ _ ∨ _ ∨ _))

/-- `mid_timer_create0`, and what it returns: the check makes no difference. The fields of a timer are
unsigned. -/
def midTimerCreate0Raw (intval loops : BitVec 32) (func : F) (arg : X) (clock : BitVec 32)
    (s : Timers F X) : Option (Timers F X × ℤ) :=
  (midTimerCreate0 intval.toNat loops.toNat func arg clock.toNat s).map fun s' => (s', 0)

/-- No timer can be taken: none is for the function and the argument, and the pool is empty. -/
def NoTimer (s : Timers F X) (active free : List Ptr) (key : F × X) : Prop :=
  free = [] ∧ ∀ u ∈ active, (s.timer u).key ≠ key

/-- The queue has one timer for the key, with the given loops and interval and due behind the clock: the
one it had, or the first of the pool. The others stand as before. -/
def Gains (s s' : Timers F X) (active free : List Ptr) (func : F) (arg : X) (loops intval clock : ℕ) :
    Prop :=
  ∃ t pre post free' due, Holds s' [] (pre ++ t :: post) free' ∧
    active.filter (· ≠ t) = pre ++ post ∧
    (t ∈ active ∧ free' = free ∨ t ∉ active ∧ free = t :: free') ∧
    clock < due ∧ s'.timer = Function.update s.timer t ⟨func, arg, loops, intval, due⟩

/-- What is asked of `mid_timer_create0`: with a wrong argument, or with no timer to take, an error and
nothing changed; otherwise 0, and one timer more or again. -/
structure CreatesAtomically (null : F) (intval loops : BitVec 32) (func : F) (arg : X)
    (clock : BitVec 32) (s : Timers F X) (active free : List Ptr) : Prop where
  /-- An error changes nothing. -/
  error : Rejects null intval loops func ∨ NoTimer s active free (func, arg) →
    ∃ code, midTimerCreate0Raw intval loops func arg clock s = some (s, code) ∧ code ≠ 0
  /-- Otherwise there is a timer. -/
  created : ¬ Rejects null intval loops func → ¬ NoTimer s active free (func, arg) →
    ∃ s', midTimerCreate0Raw intval loops func arg clock s = some (s', 0) ∧
      Gains s s' active free func arg loops.toNat intval.toNat clock.toNat

variable {null func : F} {arg : X} {s s' : Timers F X} {active free : List Ptr}
  {intval loops clock : BitVec 32}

/-- It never returns an error. -/
theorem code_eq_zero {code : ℤ}
    (h : midTimerCreate0Raw intval loops func arg clock s = some (s', code)) : code = 0 := by
  obtain ⟨s₁, -, hcode⟩ := Option.map_eq_some_iff.mp h
  exact (Prod.mk.inj hcode).2.symm

omit [DecidableEq F] in
/-- A number that is above zero as a signed one is above zero. -/
theorem toNat_pos_of_not_rejects (h : ¬ Rejects null intval loops func) : 0 < intval.toNat := by
  by_contra hzero
  have hintval : intval = 0 := BitVec.eq_of_toNat_eq (Nat.eq_zero_of_not_pos hzero)
  refine h (Or.inl ?_)
  rw [hintval]
  exact le_rfl

/-- **With a timer to take**: if the loop ends the queue gains one timer, and if not there is no
answer. -/
theorem Holds.createRaw (h : Holds s [] active free) (hintval : 0 < intval.toNat)
    (hroom : ¬ NoTimer s active free (func, arg)) :
    if clock.toNat < lastTime intval.toNat clock.toNat then
      ∃ s', midTimerCreate0Raw intval loops func arg clock s = some (s', 0) ∧
        Gains s s' active free func arg loops.toNat intval.toNat clock.toNat
    else midTimerCreate0Raw intval loops func arg clock s = none := by
  have htake : (∃ u ∈ active, (s.timer u).key = (func, arg)) ∨ free ≠ [] := by
    by_contra hnone
    rw [not_or, not_not] at hnone
    exact hroom ⟨hnone.2, fun u hu hkey => hnone.1 ⟨u, hu, hkey⟩⟩
  obtain ⟨found, s₁, t, rest, free', hdequeue, hfound, hs₁, hon, htimer, hrest, hfree⟩ := h.take htake
  obtain ⟨v, hv⟩ : ∃ v : Timer F X,
    ⟨func, arg, loops.toNat, intval.toNat, clock.toNat⟩ = v := ⟨_, rfl⟩
  have hself : (s₁.set t v).timer t = v := Function.update_self ..
  have hcall : midTimerCreate0Raw intval loops func arg clock s =
      (msgTimerQueue t clock.toNat (s₁.set t v)).map fun s' => (s', 0) := by
    rw [midTimerCreate0Raw, midTimerCreate0, hdequeue, Option.bind_eq_bind, Option.bind_some, hfound, hv]
    rfl
  have hends : CatchesUp ((s₁.set t v).timer t) clock.toNat ↔
      clock.toNat < lastTime intval.toNat clock.toNat := by
    rw [hself, catchesUp_iff (by rw [← hv]; exact clock.isLt), GetsBehind, ← hv]
  rw [hcall]
  split_ifs with hlast
  · obtain ⟨due, hdue⟩ := hends.mpr hlast
    have hkeys : ∀ u ∈ rest, ((s₁.set t v).timer u).key ≠ ((s₁.set t v).timer t).key := by
      intro u hu hkey
      have hother : (s₁.set t v).timer u = s₁.timer u := by
        refine Function.update_of_ne ?_ ..
        rintro rfl
        exact hs₁.hand_not_mem.1 hu
      rw [hother, hself, ← hv] at hkey
      exact ((hon _ _).mp ⟨u, hu, rfl, rfl⟩).1 hkey
    obtain ⟨s', pre, post, rfl, heq, hs', htimer'⟩ := (hs₁.set v).enqueue
      (by rw [hself, ← hv]; exact hintval) hkeys hdue
    refine ⟨s', by rw [heq]; rfl, t, pre, post, free', due, hs', hrest, hfree, catchUp_lt hdue, ?_⟩
    rw [htimer', hself, set_timer, Function.update_idem, htimer, ← hv]
  · rw [msgTimerQueue_eq_none (mt hends.mp hlast)]
    rfl

/-- **Creating a timer** is atomic exactly when the arguments are right, there is a timer to take, and the
greatest time it can get is behind the clock. -/
theorem createsAtomically_iff (null : F) (h : Holds s [] active free) (intval loops : BitVec 32)
    (func : F) (arg : X) (clock : BitVec 32) :
    CreatesAtomically null intval loops func arg clock s active free ↔
      ¬ Rejects null intval loops func ∧ ¬ NoTimer s active free (func, arg) ∧
        clock.toNat < lastTime intval.toNat clock.toNat := by
  constructor
  · intro hatomic
    have hgood : ¬ (Rejects null intval loops func ∨ NoTimer s active free (func, arg)) := by
      intro hbad
      obtain ⟨code, heq, hcode⟩ := hatomic.error hbad
      exact hcode (code_eq_zero heq)
    rw [not_or] at hgood
    refine ⟨hgood.1, hgood.2, ?_⟩
    by_contra hlast
    have hnone :=
      @Holds.createRaw F X _ _ func arg s active free intval loops clock h
        (toNat_pos_of_not_rejects hgood.1) hgood.2
    rw [if_neg hlast] at hnone
    obtain ⟨s', heq, -⟩ := hatomic.created hgood.1 hgood.2
    rw [hnone] at heq
    exact absurd heq.symm (Option.some_ne_none _)
  · rintro ⟨hright, hroom, hlast⟩
    refine ⟨fun hbad => absurd hbad (not_or.mpr ⟨hright, hroom⟩), fun _ _ => ?_⟩
    have hcreated :=
      @Holds.createRaw F X _ _ func arg s active free intval loops clock h
        (toNat_pos_of_not_rejects hright) hroom
    rw [if_pos hlast] at hcreated
    exact hcreated

/-- A first timer, for one second and two loops. -/
theorem createsAtomically_iff_sample :
    CreatesAtomically 0 1 2 7 0 5 (sampleTimers 0) [] (List.finRange timerPoolSize).reverse ↔
      ¬ Rejects 0 1 2 7 ∧ ¬ NoTimer (sampleTimers 0) [] (List.finRange timerPoolSize).reverse (7, 0) ∧
        5 < lastTime 1 5 :=
  createsAtomically_iff 0 (holds_init _) 1 2 7 0 5

/-- **A wrong argument is stored**: with an interval of -1 the function returns 0, and the timers are not
what they were. -/
theorem not_createsAtomically :
    ¬ CreatesAtomically 0 (-1) 2 7 0 5 (sampleTimers 0) [] (List.finRange timerPoolSize).reverse ∧
      ∃ s', midTimerCreate0Raw (-1) 2 7 0 5 (sampleTimers 0) = some (s', 0) ∧ s' ≠ sampleTimers 0 := by
  have hrejects : Rejects 0 (-1) 2 7 := Or.inl (by decide)
  have hroom : ¬ NoTimer (sampleTimers 0) [] (List.finRange timerPoolSize).reverse (7, 0) := fun h =>
    absurd h.1 (List.cons_ne_nil _ _)
  constructor
  · intro h
    obtain ⟨code, heq, hcode⟩ := h.error (Or.inl hrejects)
    exact hcode (code_eq_zero heq)
  · have hcreated :=
      @Holds.createRaw ℕ ℕ _ _ 7 0 (sampleTimers 0) [] _ (-1) 2 5 (holds_init _) (by decide) hroom
    rw [if_pos (by decide +kernel)] at hcreated
    obtain ⟨s', heq, t, -, -, -, due, -, -, -, -, htimer⟩ := hcreated
    refine ⟨s', heq, ?_⟩
    rintro rfl
    have hintval : 1 = (2 : ℕ) ^ 32 - 1 := by
      have hself := congrArg Timer.intval (congrFun htimer t)
      rw [Function.update_self] at hself
      exact hself
    omega

end Middle

end ReachEdukit
