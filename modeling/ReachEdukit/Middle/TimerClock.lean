import ReachEdukit.Middle.Timer
import Mathlib.Data.Int.GCD
import Mathlib.Data.Nat.ModEq

/-!
# Timers at the end of the clock

The loop at the front of `msg_timer_queue` adds the interval to the time of a timer until that is behind
the clock. Both are numbers of 32 bits. The times that the loop sees are those that differ from the first
one by multiples of the greatest common divisor of the interval and `2 ^ 32`, so it ends exactly when the
greatest number of that kind is behind the clock. Near the end of the clock there may be none; and if the
interval, in milliseconds, is a multiple of `2 ^ 32`, there is none anywhere.

When the loop ends, the last step did not go over the end, and the timer is due within its interval.

## Main definitions

* `lastTime` — the greatest time that the loop can see
* `GetsBehind` — it is behind the clock

## Main results

* `exists_add_mul_mod_eq` — adding over and over reaches every number of the right kind
* `catchesUp_iff` — when the loop ends
* `expiry_iff` — when `msg_timer_queue` and `msg_timer_deal` end, and when the timer is due then
-/

namespace ReachEdukit

namespace Middle

/-! ### Adding over and over -/

/-- Adding `step` over and over reaches every number below `M` that is the same up to the greatest common
divisor of `step` and `M`. -/
theorem exists_add_mul_mod_eq {M step x y : ℕ} (hx : x < M)
    (h : y ≡ x [MOD step.gcd M]) : ∃ k < M, (y + k * step) % M = x := by
  have hM : (0 : ℤ) < M := by omega
  obtain ⟨c, hc⟩ := Nat.modEq_iff_dvd.mp h
  have hbezout := Nat.gcd_eq_gcd_ab step M
  obtain ⟨k, hk⟩ : ∃ k : ℕ, (k : ℤ) = c * step.gcdA M % M :=
    Int.eq_ofNat_of_zero_le (Int.emod_nonneg _ hM.ne') |>.imp fun _ h => h.symm
  have hlt : (k : ℤ) < M := by
    rw [hk]
    exact Int.emod_lt_of_pos _ hM
  refine ⟨k, by omega, ?_⟩
  have hmod : y + k * step ≡ x [MOD M] := by
    refine Nat.modEq_iff_dvd.mpr ⟨c * step.gcdB M + c * step.gcdA M / M * step, ?_⟩
    have hquot := Int.emod_add_mul_ediv (c * step.gcdA M) M
    rw [← hk] at hquot
    push_cast
    linear_combination hc + c * hbezout - step * hquot
  rw [Nat.ModEq, Nat.mod_eq_of_lt hx] at hmod
  exact hmod

/-! ### The loop -/

variable {intval clock fuel due due' : ℕ}

/-- The loop runs out of fuel if none of its times is behind the clock. -/
theorem catchUp_eq_none_iff (hdue : due < 2 ^ 32) :
    catchUp intval clock fuel due = none ↔
      ∀ k < fuel, (due + k * (intval * 1000)) % 2 ^ 32 ≤ clock := by
  induction fuel generalizing due with
  | zero => exact iff_of_true rfl fun k hk => absurd hk (Nat.not_lt_zero k)
  | succ fuel ih =>
    have hfirst : (due + 0 * (intval * 1000)) % 2 ^ 32 = due := by
      rw [Nat.zero_mul, Nat.add_zero, Nat.mod_eq_of_lt hdue]
    have hnext : ∀ k, ((due + intval * 1000) % 2 ^ 32 + k * (intval * 1000)) % 2 ^ 32 =
        (due + (k + 1) * (intval * 1000)) % 2 ^ 32 := by
      intro k
      rw [Nat.mod_add_mod, Nat.succ_mul, Nat.add_assoc, Nat.add_comm (intval * 1000)]
    rw [catchUp]
    by_cases hle : due ≤ clock
    · rw [if_pos hle, ih (Nat.mod_lt _ (by norm_num))]
      constructor
      · intro h k hk
        cases k with
        | zero => rwa [hfirst]
        | succ k =>
          rw [← hnext]
          exact h k (Nat.lt_of_succ_lt_succ hk)
      · intro h k hk
        rw [hnext]
        exact h (k + 1) (Nat.succ_lt_succ hk)
    · rw [if_neg hle]
      refine iff_of_false (Option.some_ne_none _) fun h => hle ?_
      rw [← hfirst]
      exact h 0 (Nat.succ_pos fuel)

/-- The loop adds the interval at most once behind the clock. -/
theorem catchUp_le (hle : due ≤ clock) (h : catchUp intval clock fuel due = some due') :
    due' ≤ clock + intval * 1000 % 2 ^ 32 ∧ due' < 2 ^ 32 := by
  induction fuel generalizing due with
  | zero => exact absurd h (by simp [catchUp])
  | succ fuel ih =>
    rw [catchUp, if_pos hle] at h
    by_cases hnext : (due + intval * 1000) % 2 ^ 32 ≤ clock
    · exact ih hnext h
    · cases fuel with
      | zero => exact absurd h (by simp [catchUp])
      | succ fuel =>
        rw [catchUp, if_neg hnext] at h
        obtain rfl := Option.some.inj h
        refine ⟨?_, Nat.mod_lt _ (by norm_num)⟩
        rw [← Nat.add_mod_mod]
        exact (Nat.mod_le _ _).trans (Nat.add_le_add_right hle _)

/-- The greatest time that the loop can see. -/
def lastTime (intval due : ℕ) : ℕ :=
  2 ^ 32 - (intval * 1000).gcd (2 ^ 32) + due % (intval * 1000).gcd (2 ^ 32)

/-- The greatest time that the timer can get is behind the clock. -/
def GetsBehind {F X : Type} (v : Timer F X) (clock : ℕ) : Prop := clock < lastTime v.intval v.clock

instance {F X : Type} (v : Timer F X) (clock : ℕ) : Decidable (GetsBehind v clock) :=
  inferInstanceAs (Decidable (_ < _))

theorem gcd_pos_le (intval : ℕ) :
    0 < (intval * 1000).gcd (2 ^ 32) ∧ (intval * 1000).gcd (2 ^ 32) ≤ 2 ^ 32 :=
  ⟨Nat.gcd_pos_of_pos_right _ (by norm_num), Nat.gcd_le_right _ (by norm_num)⟩

theorem lastTime_lt (intval due : ℕ) : lastTime intval due < 2 ^ 32 := by
  obtain ⟨hpos, hle⟩ := gcd_pos_le intval
  have hmod := Nat.mod_lt due hpos
  rw [lastTime]
  omega

theorem lastTime_modEq (intval due : ℕ) :
    due ≡ lastTime intval due [MOD (intval * 1000).gcd (2 ^ 32)] := by
  have hdvd : (intval * 1000).gcd (2 ^ 32) ∣ 2 ^ 32 - (intval * 1000).gcd (2 ^ 32) :=
    Nat.dvd_sub (Nat.gcd_dvd_right _ _) dvd_rfl
  rw [Nat.ModEq, lastTime, Nat.add_mod, Nat.mod_eq_zero_of_dvd hdvd, Nat.zero_add, Nat.mod_mod,
    Nat.mod_mod]

/-- Every time that the loop sees is at most that one. -/
theorem add_mul_mod_le (intval due k : ℕ) :
    (due + k * (intval * 1000)) % 2 ^ 32 ≤ lastTime intval due := by
  obtain ⟨hpos, hle⟩ := gcd_pos_le intval
  have hsame : (due + k * (intval * 1000)) % 2 ^ 32 % (intval * 1000).gcd (2 ^ 32) =
      due % (intval * 1000).gcd (2 ^ 32) := by
    rw [Nat.mod_mod_of_dvd _ (Nat.gcd_dvd_right _ _), Nat.add_mod,
      Nat.mod_eq_zero_of_dvd ((Nat.gcd_dvd_left _ _).mul_left k), Nat.add_zero, Nat.mod_mod]
  have hlt := Nat.mod_lt (due + k * (intval * 1000)) (show 0 < 2 ^ 32 by norm_num)
  rw [lastTime]
  generalize (due + k * (intval * 1000)) % 2 ^ 32 = x at hsame hlt ⊢
  have hmul : ((intval * 1000).gcd (2 ^ 32)) ∣ 2 ^ 32 := Nat.gcd_dvd_right _ _
  generalize (intval * 1000).gcd (2 ^ 32) = d at hsame hmul hpos hle ⊢
  -- Both are multiples of `d` and the same rest.
  obtain ⟨q, hq⟩ := hmul
  have hdiv : x / d < q := Nat.div_lt_of_lt_mul (by rwa [← hq])
  have hmul : d * (x / d) ≤ d * (q - 1) := Nat.mul_le_mul_left d (by omega)
  rw [Nat.mul_sub_one, ← hq] at hmul
  have hsplit := Nat.div_add_mod x d
  omega

variable {F X : Type} {v : Timer F X}

/-- **The loop ends** exactly when the greatest time it can see is behind the clock. -/
theorem catchesUp_iff (hdue : v.clock < 2 ^ 32) : CatchesUp v clock ↔ GetsBehind v clock := by
  rw [CatchesUp, ← Option.ne_none_iff_exists', ne_eq, catchUp_eq_none_iff hdue, GetsBehind]
  constructor
  · intro h
    by_contra hle
    exact h fun k _ => (add_mul_mod_le v.intval v.clock k).trans (Nat.le_of_not_lt hle)
  · intro hlt h
    obtain ⟨k, hk, hlast⟩ := exists_add_mul_mod_eq (lastTime_lt v.intval v.clock)
      (lastTime_modEq v.intval v.clock)
    exact absurd (h k hk) (by rw [hlast]; exact Nat.not_le.mpr hlt)

/-- More turns do not help. -/
theorem catchUp_eq_none_of_not_getsBehind (hdue : due < 2 ^ 32) (h : ¬ clock < lastTime intval due)
    (fuel : ℕ) : catchUp intval clock fuel due = none :=
  (catchUp_eq_none_iff hdue).mpr fun k _ =>
    (add_mul_mod_le intval due k).trans (Nat.le_of_not_lt h)

/-! ### Queueing and dealing -/

section Queue

variable {s s' : Timers F X} {t : Ptr} {active free : List Ptr}

/-- The timer is due within its interval from the clock on, counted in 32 bits. -/
def DueWithin (v : Timer F X) (clock due : ℕ) : Prop :=
  0 < (due + 2 ^ 32 - clock) % 2 ^ 32 ∧ (due + 2 ^ 32 - clock) % 2 ^ 32 ≤ v.intval * 1000 % 2 ^ 32

theorem msgTimerQueue_eq_none (h : ¬ CatchesUp (s.timer t) clock) : msgTimerQueue t clock s = none := by
  rw [CatchesUp, ← Option.ne_none_iff_exists', not_not] at h
  rw [msgTimerQueue, Option.bind_eq_bind, h]
  rfl

theorem dueWithin_of_catchUp (hle : v.clock ≤ clock)
    (h : catchUp v.intval clock fuel v.clock = some due) : DueWithin v clock due := by
  obtain ⟨hnear, hsmall⟩ := catchUp_le hle h
  have hlt := catchUp_lt h
  have hdiff : (due + 2 ^ 32 - clock) % 2 ^ 32 = due - clock := by
    rw [Nat.sub_add_comm hlt.le, Nat.add_mod_right]
    exact Nat.mod_eq_of_lt (by omega)
  rw [DueWithin, hdiff]
  omega

/-- **`msg_timer_queue`** ends when the timer gets behind the clock, and the timer is due within its
interval then. -/
theorem msgTimerQueue_iff (h : Holds s [t] active free) (hintval : 0 < (s.timer t).intval)
    (hkey : ∀ u ∈ active, (s.timer u).key ≠ (s.timer t).key) (hdue : (s.timer t).clock < 2 ^ 32) :
    (∃ s', msgTimerQueue t clock s = some s' ∧
      ((s.timer t).clock ≤ clock → DueWithin (s.timer t) clock (s'.timer t).clock)) ↔
      GetsBehind (s.timer t) clock := by
  rw [← catchesUp_iff hdue]
  constructor
  · rintro ⟨s', heq, -⟩
    by_contra hnot
    rw [msgTimerQueue_eq_none hnot] at heq
    exact absurd heq.symm (Option.some_ne_none s')
  · rintro ⟨due, hends⟩
    obtain ⟨s', pre, post, -, heq, -, htimer⟩ := h.enqueue hintval hkey hends
    refine ⟨s', heq, fun hle => ?_⟩
    rw [htimer, Function.update_self]
    exact dueWithin_of_catchUp hle hends

variable [DecidableEq F] [DecidableEq X]

/-- A timer that goes back and does not get behind the clock. -/
theorem Holds.fire_eq_none (h : Holds s [] (t :: active) free) (hloops : (s.timer t).loops ≠ 1)
    (hnot : ¬ CatchesUp (s.timer t) clock) : Middle.fire t clock s = none := by
  have hfirst : Holds s [] ([] ++ t :: active) free := h
  obtain ⟨s₁, hdequeue, hs₁, htimer⟩ := hfirst.dequeue rfl
  rw [Middle.fire, Option.bind_eq_bind, hdequeue, Option.bind_some]
  simp only [set_timer, Function.update_self, htimer]
  by_cases hzero : (s.timer t).loops = 0
  · rw [if_pos hzero]
    refine msgTimerQueue_eq_none ?_
    rwa [htimer]
  · rw [if_neg hzero, if_pos (by omega)]
    refine msgTimerQueue_eq_none ?_
    rw [set_timer, Function.update_self]
    exact hnot

/-- **The timers that are due** are dealt with exactly when those that go back get behind the clock. -/
theorem Holds.expire_isSome_iff {room : ℕ} (h : Holds s [] active free)
    (hroom : (dueKeys s active clock).length ≤ room) :
    (∃ r, Middle.expire clock room s = some r) ↔ Returns s active clock := by
  constructor
  · induction room generalizing s active free with
    | zero =>
      rcases h.firstDue_cases with ⟨-, hlate⟩ | ⟨t, rest, rfl, -, hdue⟩
      · exact fun _ u hu hle => absurd hle (Nat.not_le.mpr (hlate u hu))
      · rw [dueKeys_cons hdue] at hroom
        exact absurd hroom (by simp)
    | succ room ih =>
      rcases h.firstDue_cases with ⟨-, hlate⟩ | ⟨t, rest, rfl, hfirst, hdue⟩
      · exact fun _ u hu hle => absurd hle (Nat.not_le.mpr (hlate u hu))
      · rintro ⟨r, hr⟩
        rw [Middle.expire, hfirst, Option.bind_eq_bind] at hr
        obtain ⟨s₁, hfire, hr⟩ := Option.bind_eq_some_iff.mp hr
        have hends : (s.timer t).loops ≠ 1 → CatchesUp (s.timer t) clock := by
          intro hloops
          by_contra hnot
          rw [h.fire_eq_none hloops hnot] at hfire
          exact absurd hfire.symm (Option.some_ne_none s₁)
        obtain ⟨s₂, active₁, free₁, hfire₂, hs₁, -, hrest, hreturns⟩ := h.fire hends
        obtain rfl := Option.some.inj (hfire.symm.trans hfire₂)
        obtain ⟨r', hr', -⟩ := Option.bind_eq_some_iff.mp hr
        rw [dueKeys_cons hdue, List.length_cons] at hroom
        have hlater := ih hs₁ (by rw [hrest]; omega) ⟨r', hr'⟩
        intro u hu
        rcases List.mem_cons.mp hu with rfl | hu
        · exact fun _ => hends
        · exact hreturns.mp hlater u hu
  · intro hreturns
    obtain ⟨s', active', free', heq, -⟩ := h.expire hreturns hroom
    exact ⟨_, heq⟩

theorem Holds.deal_isSome_iff (h : Holds s [] active free) :
    (∃ r, msgTimerDeal clock s = some r) ↔ Returns s active clock := by
  have hroom : (dueKeys s active clock).length ≤ timerPoolSize := by
    rw [dueKeys, List.length_map]
    exact (List.length_filter_le ..).trans h.length_le
  rw [← h.expire_isSome_iff hroom, msgTimerDeal]
  constructor
  · rintro ⟨r, hr⟩
    obtain ⟨r', hr', -⟩ := Option.map_eq_some_iff.mp hr
    exact ⟨r', hr'⟩
  · rintro ⟨r, hr⟩
    exact ⟨_, congrArg _ hr⟩

end Queue

/-! ### Expiry -/

/-- The interval and the time of a timer are numbers of 32 bits. -/
def Timers.Bits (s : Timers F X) : Prop :=
  ∀ t, (s.timer t).intval < 2 ^ 32 ∧ (s.timer t).clock < 2 ^ 32

variable [DecidableEq F] [DecidableEq X]

/-- **Expiry.** `msg_timer_queue` ends, and the timer is due within its interval from the clock on,
exactly when the greatest time that the timer can get is behind the clock; `msg_timer_deal` ends exactly
when this is so for every timer that is due and is not in its last loop. -/
theorem expiry_iff (clock : ℕ) {s : Timers F X} (hbits : s.Bits) (active free : List Ptr) :
    (∀ t, Holds s [t] active free → 0 < (s.timer t).intval →
      (∀ u ∈ active, (s.timer u).key ≠ (s.timer t).key) →
      ((∃ s', msgTimerQueue t clock s = some s' ∧
        ((s.timer t).clock ≤ clock → DueWithin (s.timer t) clock (s'.timer t).clock)) ↔
        GetsBehind (s.timer t) clock)) ∧
      (Holds s [] active free →
        ((∃ r, msgTimerDeal clock s = some r) ↔
          ∀ t ∈ active, (s.timer t).clock ≤ clock → (s.timer t).loops ≠ 1 →
            GetsBehind (s.timer t) clock)) := by
  constructor
  · intro t h hintval hkey
    exact msgTimerQueue_iff h hintval hkey (hbits t).2
  · intro h
    rw [h.deal_isSome_iff]
    refine forall₂_congr fun t _ => forall₂_congr fun _ _ => ?_
    exact catchesUp_iff (hbits t).2

/-- All timers are for an interval of one second, and due at a time. -/
def sampleTimers (due : ℕ) : Timers ℕ ℕ := .init fun _ => ⟨7, 0, 0, 1, due⟩

theorem sampleTimers_bits : (sampleTimers 0).Bits ∧ (msgTimerAlloc (sampleTimers 0)).1.Bits := by
  have hsmall : 1 < 2 ^ 32 ∧ 0 < 2 ^ 32 := by norm_num
  exact ⟨fun _ => hsmall, fun _ => hsmall⟩

/-- The last timer is taken from the pool. -/
theorem holds_sampleTimers (due : ℕ) : Holds (msgTimerAlloc (sampleTimers due)).1 [Fin.last 19] []
    ((List.finRange timerPoolSize).reverse.drop 1) := by
  have hinit : Holds (sampleTimers due) [] []
      (Fin.last 19 :: (List.finRange timerPoolSize).reverse.drop 1) := holds_init _
  exact hinit.alloc.2.1

/-- A timer at five milliseconds, and a queue with none. -/
theorem expiry_iff_sample :
    (∃ s', msgTimerQueue (Fin.last 19) 5 (msgTimerAlloc (sampleTimers 0)).1 = some s' ∧
      (0 ≤ 5 → DueWithin (⟨7, 0, 0, 1, 0⟩ : Timer ℕ ℕ) 5 (s'.timer (Fin.last 19)).clock)) ∧
      ∃ r, msgTimerDeal 5 (sampleTimers 0) = some r := by
  constructor
  · refine ((expiry_iff 5 sampleTimers_bits.2 _ _).1 _ (holds_sampleTimers 0) Nat.one_pos (by simp)).mpr ?_
    change GetsBehind (⟨7, 0, 0, 1, 0⟩ : Timer ℕ ℕ) 5
    decide +kernel
  · exact ((expiry_iff 5 sampleTimers_bits.1 _ _).2 (holds_init _)).mpr (by simp)

/-- **At the end of the clock** the loop does not end, however long it runs. -/
theorem not_ends_at_last :
    Holds (msgTimerAlloc (sampleTimers (2 ^ 32 - 1))).1 [Fin.last 19] []
        ((List.finRange timerPoolSize).reverse.drop 1) ∧
      msgTimerQueue (Fin.last 19) (2 ^ 32 - 1) (msgTimerAlloc (sampleTimers (2 ^ 32 - 1))).1 = none ∧
      ∀ fuel, catchUp 1 (2 ^ 32 - 1) fuel (2 ^ 32 - 1) = none := by
  have hnot : ¬ 2 ^ 32 - 1 < lastTime 1 (2 ^ 32 - 1) := by decide +kernel
  refine ⟨holds_sampleTimers _, msgTimerQueue_eq_none ?_,
    fun fuel => catchUp_eq_none_of_not_getsBehind (by decide) hnot fuel⟩
  change ¬ CatchesUp (⟨7, 0, 0, 1, 2 ^ 32 - 1⟩ : Timer ℕ ℕ) (2 ^ 32 - 1)
  rw [catchesUp_iff (by decide)]
  exact hnot

end Middle

end ReachEdukit
