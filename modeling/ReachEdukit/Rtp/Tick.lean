import ReachEdukit.Lib.Run

/-!
# The ticks of the sender

`UdpSend_get_time_tick` turns the time of a frame into a tick: the time that has passed since a base,
which is the time of the first frame. When more has passed than 32 bits can hold in units of a
ninetieth of a millisecond, the time of the frame becomes the base. Going back is going far ahead here,
since the difference is taken without a sign.

A tick that would not be above the one before is raised by one. But it is the new value that is raised,
not the one before: a frame that is behind gets a tick that is behind, too.

## Main definitions

* `udpSendGetTimeTick` — the tick of a frame
* `Rebases` — the time of the frame becomes the base
* `NotBehind` — no less time has passed than the tick before says

## Main results

* `ticks_in_range`, `rebasesOnlyFar` — what every run has
* `ticksIncrease_iff` — when the ticks increase
-/

namespace ReachEdukit

namespace Rtp

/-- The times of `send_udp_handle`. -/
structure SendTime where
  /-- The base; zero until there is one. -/
  baseVideoTime : BitVec 32
  /-- The tick before. -/
  prevVideoTime : BitVec 32
  /-- The time of the frame before. -/
  prevTimeTick : BitVec 32
  deriving DecidableEq, Repr

/-- A new handle is all zeros. -/
def SendTime.init : SendTime := ⟨0, 0, 0⟩

/-- The most that may have passed since the base. -/
def maxElapsed : BitVec 32 := 0xFFFFFFFF / 90 - 10000

/-- More has passed since the base. -/
def Rebases (s : SendTime) (timeTick : BitVec 32) : Prop := maxElapsed < timeTick - s.baseVideoTime

instance (s : SendTime) (timeTick : BitVec 32) : Decidable (Rebases s timeTick) :=
  inferInstanceAs (Decidable (_ < _))

/-- A tick that is not above the one before is raised by one. -/
def raised (videoTime prev : BitVec 32) : BitVec 32 :=
  if videoTime ≤ prev then videoTime + 1 else videoTime

/-- `UdpSend_get_time_tick`. -/
def udpSendGetTimeTick (s : SendTime) (timeTick : BitVec 32) : SendTime × BitVec 32 :=
  if s.baseVideoTime = 0 then (⟨timeTick, 0, timeTick⟩, 0)
  else if Rebases s timeTick then
    (⟨timeTick, raised 0 s.prevVideoTime, timeTick⟩, raised 0 s.prevVideoTime)
  else
    (⟨s.baseVideoTime, raised (timeTick - s.baseVideoTime) s.prevVideoTime, timeTick⟩,
      raised (timeTick - s.baseVideoTime) s.prevVideoTime)

variable {s : SendTime} {timeTick : BitVec 32}

/-- The tick is kept for the next frame. -/
theorem prevVideoTime_eq (s : SendTime) (timeTick : BitVec 32) :
    (udpSendGetTimeTick s timeTick).1.prevVideoTime = (udpSendGetTimeTick s timeTick).2 := by
  rw [udpSendGetTimeTick]
  split_ifs <;> rfl

/-- The base changes when there is none, and when too much has passed. -/
theorem baseVideoTime_eq (s : SendTime) (timeTick : BitVec 32) :
    (udpSendGetTimeTick s timeTick).1.baseVideoTime =
      if s.baseVideoTime = 0 ∨ Rebases s timeTick then timeTick else s.baseVideoTime := by
  rw [udpSendGetTimeTick]
  by_cases hnone : s.baseVideoTime = 0
  · rw [if_pos hnone, if_pos (Or.inl hnone)]
  · by_cases hfar : Rebases s timeTick
    · rw [if_neg hnone, if_pos hfar, if_pos (Or.inr hfar)]
    · rw [if_neg hnone, if_neg hfar, if_neg (not_or.mpr ⟨hnone, hfar⟩)]

/-- The tick of a frame that is not too far from the base. -/
theorem tick_eq (hbase : s.baseVideoTime ≠ 0) (hnear : ¬ Rebases s timeTick) :
    (udpSendGetTimeTick s timeTick).2 =
      raised (timeTick - s.baseVideoTime) s.prevVideoTime := by
  rw [udpSendGetTimeTick, if_neg hbase, if_neg hnear]

theorem toNat_maxElapsed : maxElapsed.toNat = 47711858 := rfl

/-- A value is raised above the one before exactly when it was not below it. -/
theorem lt_raised_iff {v : BitVec 32} (hv : v ≤ maxElapsed) (prev : BitVec 32) :
    prev < raised v prev ↔ prev ≤ v := by
  have hmax := toNat_maxElapsed
  rw [raised]
  split_ifs <;> bv_omega

theorem toNat_raised_le {v : BitVec 32} (hv : v ≤ maxElapsed) (prev : BitVec 32) :
    (raised v prev).toNat ≤ 47711859 := by
  have hmax := toNat_maxElapsed
  rw [raised]
  split_ifs <;> bv_omega

theorem toNat_tick_le (s : SendTime) (timeTick : BitVec 32) :
    (udpSendGetTimeTick s timeTick).2.toNat ≤ 47711859 := by
  rw [udpSendGetTimeTick]
  split_ifs with hnone hfar
  · exact Nat.zero_le _
  · exact toNat_raised_le (BitVec.le_of_lt (by decide)) _
  · exact toNat_raised_le (BitVec.not_lt.mp hfar) _

/-! ### Runs -/

/-- No less time has passed since the base than the tick before says, unless the frame becomes the
base. -/
def NotBehind (s : SendTime) (timeTick : BitVec 32) : Prop :=
  s.baseVideoTime ≠ 0 → ¬ Rebases s timeTick → s.prevVideoTime ≤ timeTick - s.baseVideoTime

instance (s : SendTime) (timeTick : BitVec 32) : Decidable (NotBehind s timeTick) :=
  inferInstanceAs (Decidable (_ → _ → _))

/-- The ticks of frames with these times. -/
def ticks (times : List (BitVec 32)) : List (BitVec 32) := Run.outs udpSendGetTimeTick .init times

/-- The times of the handle when the first `i` frames were sent. -/
def sendTimeAt (times : List (BitVec 32)) (i : ℕ) : SendTime :=
  Run.final udpSendGetTimeTick .init (times.take i)

/-- Every tick is above the one before, unless the frame becomes the base. -/
def TicksIncrease (times : List (BitVec 32)) : Prop :=
  ∀ i v v' timeTick, (ticks times)[i]? = some v → (ticks times)[i + 1]? = some v' →
    times[i + 1]? = some timeTick → ¬ Rebases (sendTimeAt times (i + 1)) timeTick → v < v'

/-- A base that there is changes only for a frame that is too far from it, which becomes the base. -/
def RebasesOnlyFar (times : List (BitVec 32)) : Prop :=
  ∀ i timeTick, times[i]? = some timeTick → (sendTimeAt times i).baseVideoTime ≠ 0 →
    (sendTimeAt times (i + 1)).baseVideoTime ≠ (sendTimeAt times i).baseVideoTime →
    Rebases (sendTimeAt times i) timeTick ∧ (sendTimeAt times (i + 1)).baseVideoTime = timeTick

variable {times : List (BitVec 32)}

theorem sendTimeAt_succ {i : ℕ} (htime : times[i]? = some timeTick) :
    sendTimeAt times (i + 1) = (udpSendGetTimeTick (sendTimeAt times i) timeTick).1 := by
  rw [sendTimeAt, List.take_add_one, htime, Run.final_append]
  rfl

theorem ticks_getElem? (i : ℕ) :
    (ticks times)[i]? = times[i]?.map fun t => (udpSendGetTimeTick (sendTimeAt times i) t).2 :=
  Run.getElem?_outs ..

/-- Once there is a base, there always is one. -/
theorem baseVideoTime_ne_zero (h : ∀ t ∈ times, t ≠ 0) {i : ℕ} (hi : i < times.length) :
    (sendTimeAt times (i + 1)).baseVideoTime ≠ 0 := by
  rw [sendTimeAt_succ (List.getElem?_eq_getElem hi), baseVideoTime_eq]
  split_ifs with hchange
  · exact h _ (List.getElem_mem hi)
  · exact fun hnone => hchange (Or.inl hnone)

theorem rebasesOnlyFar (times : List (BitVec 32)) : RebasesOnlyFar times := by
  intro i timeTick htime hbase hchanged
  rw [sendTimeAt_succ htime, baseVideoTime_eq] at hchanged ⊢
  by_cases hfar : Rebases (sendTimeAt times i) timeTick
  · exact ⟨hfar, if_pos (Or.inr hfar)⟩
  · exact absurd (if_neg (not_or.mpr ⟨hbase, hfar⟩)) hchanged

/-- **Every tick is in range**: in units of a ninetieth it fits into 32 bits. -/
theorem ticks_in_range (times : List (BitVec 32)) : ∀ v ∈ ticks times, v.toNat * 90 < 2 ^ 32 := by
  refine Run.outs_forall (I := fun _ => True) (fun s _ timeTick _ => ⟨trivial, ?_⟩) trivial
  have hle := toNat_tick_le s timeTick
  omega

/-- One frame after another: the tick increases exactly when the frame is not behind. -/
theorem tick_increases_iff (hbase : s.baseVideoTime ≠ 0) (hnear : ¬ Rebases s timeTick) :
    s.prevVideoTime < (udpSendGetTimeTick s timeTick).2 ↔ NotBehind s timeTick := by
  rw [tick_eq hbase hnear, lt_raised_iff (BitVec.not_lt.mp hnear), NotBehind,
    forall_prop_of_true hbase, forall_prop_of_true hnear]

/-- **The ticks of a run.** When no frame has the time zero, the ticks increase but for the frames that
become the base, the base changes for no other reason, and every tick is in range, exactly when no
frame is behind. -/
theorem ticksIncrease_iff (h : ∀ t ∈ times, t ≠ 0) :
    (TicksIncrease times ∧ RebasesOnlyFar times ∧ ∀ v ∈ ticks times, v.toNat * 90 < 2 ^ 32) ↔
      Run.Along udpSendGetTimeTick NotBehind .init times := by
  rw [and_iff_left ⟨rebasesOnlyFar times, ticks_in_range times⟩, Run.along_iff_getElem?]
  constructor
  · intro hincrease i timeTick htime hbase hnear
    cases i with
    | zero => exact absurd rfl hbase
    | succ i =>
      obtain ⟨hlt, -⟩ := List.getElem?_eq_some_iff.mp htime
      have hprev := List.getElem?_eq_getElem (Nat.lt_of_succ_lt hlt)
      have hlast : (ticks times)[i]? = some (sendTimeAt times (i + 1)).prevVideoTime := by
        rw [ticks_getElem?, hprev, Option.map_some, sendTimeAt_succ hprev, prevVideoTime_eq]
      have hnext : (ticks times)[i + 1]? =
          some (udpSendGetTimeTick (sendTimeAt times (i + 1)) timeTick).2 := by
        rw [ticks_getElem?, htime, Option.map_some]
      have hraised := hincrease i _ _ timeTick hlast hnext htime hnear
      exact (tick_increases_iff hbase hnear).mp hraised hbase hnear
  · intro hall i v v' timeTick hv hv' htime hnear
    obtain ⟨hlt, -⟩ := List.getElem?_eq_some_iff.mp htime
    have hprev := List.getElem?_eq_getElem (Nat.lt_of_succ_lt hlt)
    have hbase := baseVideoTime_ne_zero h (Nat.lt_of_succ_lt hlt)
    rw [ticks_getElem?, hprev, Option.map_some, Option.some.injEq, ← prevVideoTime_eq,
      ← sendTimeAt_succ hprev] at hv
    rw [ticks_getElem?, htime, Option.map_some, Option.some.injEq] at hv'
    rw [← hv, ← hv']
    exact (tick_increases_iff hbase hnear).mpr (hall (i + 1) timeTick htime)

/-- Two frames, the second one later. -/
theorem ticksIncrease_iff_sample :
    (TicksIncrease [100, 110] ∧ RebasesOnlyFar [100, 110] ∧
      ∀ v ∈ ticks [100, 110], v.toNat * 90 < 2 ^ 32) ↔
      Run.Along udpSendGetTimeTick NotBehind .init [100, 110] :=
  ticksIncrease_iff (by simp)

/-- A frame whose time is eight milliseconds before that of the frame before it: the ticks are 0, 10
and 3. -/
theorem tick_falls : ticks [100, 110, 102] = [0, 10, 3] ∧ ¬ TicksIncrease [100, 110, 102] := by
  have hticks : ticks [100, 110, 102] = [0, 10, 3] := by decide +kernel
  refine ⟨hticks, fun hincrease => ?_⟩
  have hlt := hincrease 1 10 3 102 (by rw [hticks]; rfl) (by rw [hticks]; rfl) rfl (by decide)
  exact absurd hlt (by decide)

end Rtp

end ReachEdukit
