import ReachEdukit.Receive.MediaFrame
import ReachEdukit.Rtp.Clock

/-!
# Jumps of the source after a reconnect

The first halves of `pkg_placed_in_frame` and `pkg_placed_in_frame_audio` keep the clocks of a stream. They
are the same code as that of the UDP receiver, but for one condition: a jump ahead counts only while
`av_connect_flag` is 0. The receive module sets the flag to 1 when it has lost a connection; a part that
is no jump should set it back. The line for this reads `M_handle->av_connect_flag == 0;`, which compares
and sets nothing. So the first lost connection turns the examination of jumps ahead off for good, and from
then on the clock takes them as they are.

## Main definitions

* `StreamClock.place` — the clock part of the two functions
* `Bridged` — a part is handled as a jump
* `Rearmed` — from the second part after a reconnect on, every jump is

## Main results

* `clockAfter_tracks` — the invariant of a run
* `rearmed_iff` — the runs in which every jump is handled
-/

namespace ReachEdukit

namespace Receive

open Rtp (RecvTime SourceTick ClockKind getIntervalTime getIntervalTime_eq interval jumpsBack)

/-! ### The clocks -/

/-- `EXAMIN_TIME`. -/
def examinTime : BitVec 32 := 800

/-- `recv_time_t` and `av_connect_flag` of `stream_handle`. -/
structure StreamClock where
  /-- The clocks for pictures and for sound. -/
  time : ClockKind → RecvTime
  /-- `av_connect_flag`. -/
  avConnectFlag : BitVec 8

/-- A new handle, all zero. -/
def StreamClock.init : StreamClock := ⟨fun _ => .init, 0⟩

/-- A jump of H.264 and sound: back, or ahead by more than `EXAMIN_TIME` while the flag is 0. -/
def jumpsConnected (flag : BitVec 8) (tick prev : BitVec 32) : Bool :=
  decide (tick < prev) ||
    (decide (prev < tick) && decide (examinTime < tick - prev)) && decide (flag = 0)

/-- What counts as a jump for a part. -/
def jumpsOf (flag : BitVec 8) (p : SourceTick) : ClockKind → BitVec 32 → Bool
  | .video => if p.jpeg then jumpsBack p.tick else jumpsConnected flag p.tick
  | .audio => jumpsConnected flag p.tick

/-- What `pkg_placed_in_frame` and `pkg_placed_in_frame_audio` do to the clock, for a part of a picture
or of sound. Neither sets the flag. -/
def StreamClock.place (c : StreamClock) (k : ClockKind) (p : SourceTick) : StreamClock :=
  { c with
    time := Function.update c.time k
      ((c.time k).advance (jumpsOf c.avConnectFlag p k) p.tick p.now) }

/-- What happens to a stream. -/
inductive ClockEvent
  /-- The loop of the receiver gets to `EXIT`, and will connect again. -/
  | reconnect
  /-- A part is placed. -/
  | part (k : ClockKind) (p : SourceTick)
  deriving DecidableEq, Repr

/-- One event. -/
def StreamClock.step (c : StreamClock) : ClockEvent → StreamClock
  | .reconnect => { c with avConnectFlag := 1 }
  | .part k p => c.place k p

/-- The clocks after a run. -/
def clockAfter (es : List ClockEvent) : StreamClock := es.foldl StreamClock.step .init

/-! ### What is asked of them -/

/-- The parts of one clock. -/
def ClockEvent.tickOf (k : ClockKind) : ClockEvent → Option SourceTick
  | .reconnect => none
  | .part k' p => if k' = k then some p else none

/-- The last part of a clock. -/
def lastTick (k : ClockKind) (es : List ClockEvent) : Option SourceTick :=
  (es.filterMap (ClockEvent.tickOf k)).getLast?

/-- A part has come since the last reconnect. -/
def SinceReconnect (es : List ClockEvent) : Prop :=
  ∃ before since, es = before ++ .reconnect :: since ∧ since ≠ [] ∧ .reconnect ∉ since

/-- The source tick goes ahead by more than `EXAMIN_TIME`. -/
def JumpsAhead (prev p : SourceTick) : Prop := prev.tick.toNat + examinTime.toNat < p.tick.toNat

/-- It goes back, or ahead by more than `EXAMIN_TIME`. -/
def Jumps (prev p : SourceTick) : Prop := p.tick.toNat < prev.tick.toNat ∨ JumpsAhead prev p

instance (prev p : SourceTick) : Decidable (JumpsAhead prev p) := inferInstanceAs (Decidable (_ < _))

instance (prev p : SourceTick) : Decidable (Jumps prev p) := inferInstanceAs (Decidable (_ ∨ _))

/-- The clock handles a part as a jump: it goes on by the local time, and begins again at the tick of
the part. -/
structure Bridged (t t' : RecvTime) (prev p : SourceTick) : Prop where
  /-- The clock goes on by the local time. -/
  timeTick : t'.timeTick = t.timeTick + BitVec.ofNat 32 (interval prev.now.toNat p.now.toNat)
  /-- It begins again at the tick. -/
  initTime : t'.initTime = p.tick
  /-- From there it goes on. -/
  calTime : t'.calTime = t'.timeTick

/-- The parts that are examined: those of H.264 and of sound. -/
def Examined (k : ClockKind) (p : SourceTick) : Prop := k = .video → p.jpeg = false

/-- What happens in a run at the parts that are examined, from the second part after a reconnect on:
`P` is asked of the events before, the clock, the part before and the part. -/
def AtEachExamined (es : List ClockEvent)
    (P : List ClockEvent → ClockKind → SourceTick → SourceTick → Prop) : Prop :=
  ∀ before k p after, es = before ++ .part k p :: after → SinceReconnect before → Examined k p →
    ∀ prev, lastTick k before = some prev → P before k prev p

/-- Every jump is handled. -/
def Rearmed (es : List ClockEvent) : Prop :=
  AtEachExamined es fun before k prev p => Jumps prev p →
    Bridged ((clockAfter before).time k) ((clockAfter (before ++ [.part k p])).time k) prev p

/-- There is no jump ahead. -/
def NoJumpAhead (es : List ClockEvent) : Prop :=
  AtEachExamined es fun _ _ prev p => ¬ JumpsAhead prev p

variable {k : ClockKind} {p prev : SourceTick} {c : StreamClock} {es : List ClockEvent}

/-! ### One part -/

theorem lastTick_concat_reconnect (k : ClockKind) (es : List ClockEvent) :
    lastTick k (es ++ [.reconnect]) = lastTick k es := by
  rw [lastTick, List.filterMap_append]
  exact congrArg List.getLast? (List.append_nil _)

theorem lastTick_concat_part (k k' : ClockKind) (p : SourceTick) (es : List ClockEvent) :
    lastTick k (es ++ [.part k' p]) = if k' = k then some p else lastTick k es := by
  rw [lastTick, List.filterMap_append, List.filterMap_cons, ClockEvent.tickOf]
  split_ifs with hk
  · exact List.getLast?_concat
  · exact congrArg List.getLast? (List.append_nil _)

theorem clockAfter_concat (es : List ClockEvent) (e : ClockEvent) :
    clockAfter (es ++ [e]) = (clockAfter es).step e :=
  List.foldl_concat ..

/-- A clock is kept whatever counts as a jump, if every step back does. -/
theorem tracks_advance {t : RecvTime} {last : Option SourceTick} (h : t.Tracks last)
    {jumps : BitVec 32 → Bool} (hself : jumps p.tick = false)
    (hback : ∀ prev, jumps prev = false → prev ≤ p.tick) :
    (t.advance jumps p.tick p.now).Tracks (some p) := by
  obtain rfl | ⟨prev, rfl⟩ := Option.eq_none_or_eq_some last
  · obtain ⟨hflag, htime⟩ := h
    simp only [RecvTime.advance, hflag, Bool.false_eq_true, if_false, hself]
    refine ⟨rfl, rfl, rfl, BitVec.le_refl _, ?_⟩
    simp
  · obtain ⟨hflag, hprev, hnow, hle, htime⟩ := h
    cases hjump : jumps prev.tick with
    | true =>
      simp only [RecvTime.advance, hflag, if_true, hprev, hjump]
      refine ⟨rfl, rfl, rfl, BitVec.le_refl _, ?_⟩
      simp
    | false =>
      have hgoes := hback prev.tick hjump
      have hcal : (if t.initTime < p.tick then p.tick - t.initTime else t.initTime - p.tick) =
          p.tick - t.initTime := by
        split_ifs <;> bv_omega
      simp only [RecvTime.advance, hflag, if_true, hprev, hjump, Bool.false_eq_true, if_false, hcal]
      exact ⟨rfl, rfl, rfl, by bv_omega, BitVec.add_comm _ _⟩

theorem place_time (c : StreamClock) (k k' : ClockKind) (p : SourceTick) :
    (c.place k p).time k' = if k = k' then
      (c.time k').advance (jumpsOf c.avConnectFlag p k) p.tick p.now else c.time k' := by
  rw [StreamClock.place]
  split_ifs with hk
  · obtain rfl := hk
    exact Function.update_self ..
  · exact Function.update_of_ne (Ne.symm hk) ..

theorem jumpsOf_of_examined (flag : BitVec 8) (h : Examined k p) :
    jumpsOf flag p k = jumpsConnected flag p.tick := by
  cases k with
  | video => rw [jumpsOf, h rfl, if_neg Bool.false_ne_true]
  | audio => rfl

theorem jumpsOf_self (flag : BitVec 8) (k : ClockKind) (p : SourceTick) :
    jumpsOf flag p k p.tick = false := by
  have hconnected : jumpsConnected flag p.tick p.tick = false := by
    simp [jumpsConnected]
  cases k with
  | video =>
    rw [jumpsOf]
    split_ifs
    · simp [jumpsBack]
    · exact hconnected
  | audio => exact hconnected

theorem le_of_jumpsOf (flag : BitVec 8) (k : ClockKind) (p : SourceTick) (prev : BitVec 32)
    (h : jumpsOf flag p k prev = false) : prev ≤ p.tick := by
  have hconnected : jumpsConnected flag p.tick prev = false → prev ≤ p.tick := by
    intro h
    rw [jumpsConnected, Bool.or_eq_false_iff, decide_eq_false_iff_not] at h
    exact BitVec.not_lt.mp h.1
  cases k with
  | video =>
    rw [jumpsOf] at h
    split_ifs at h
    · rw [jumpsBack, decide_eq_false_iff_not] at h
      exact BitVec.not_lt.mp h
    · exact hconnected h
  | audio => exact hconnected h

/-- With the flag set, only a step back counts. -/
theorem jumpsConnected_one_iff (tick prev : BitVec 32) :
    jumpsConnected 1 tick prev = true ↔ tick.toNat < prev.toNat := by
  have hset : decide ((1 : BitVec 8) = 0) = false := rfl
  rw [jumpsConnected, hset, Bool.and_false, Bool.or_false, decide_eq_true_iff]
  exact BitVec.lt_def

/-! ### Runs -/

/-- **The invariant of a run**: the clocks are kept, and the flag is set from the first reconnect
on. -/
theorem clockAfter_tracks (es : List ClockEvent) :
    (∀ k, ((clockAfter es).time k).Tracks (lastTick k es)) ∧
      (.reconnect ∈ es → (clockAfter es).avConnectFlag = 1) := by
  induction es using List.reverseRecOn with
  | nil => exact ⟨fun k => ⟨rfl, rfl⟩, fun h => absurd h List.not_mem_nil⟩
  | append_singleton es e ih =>
    obtain ⟨htracks, hflag⟩ := ih
    rw [clockAfter_concat]
    cases e with
    | reconnect =>
      refine ⟨fun k => ?_, fun _ => rfl⟩
      rw [lastTick_concat_reconnect]
      exact htracks k
    | part k' p =>
      refine ⟨fun k => ?_, fun hmem => ?_⟩
      · rw [lastTick_concat_part]
        change ((clockAfter es).place k' p).time k |>.Tracks _
        rw [place_time]
        split_ifs with hk
        · exact tracks_advance (htracks k) (jumpsOf_self _ k' p) (le_of_jumpsOf _ k' p)
        · exact htracks k
      · refine hflag ((List.mem_append.mp hmem).resolve_right fun h => ?_)
        exact absurd (List.mem_singleton.mp h) (by simp)

/-- A part that is looked at after a reconnect is placed by the test for the connected flag. -/
theorem time_of_examined (hsince : .reconnect ∈ es) (hexamined : Examined k p) :
    (clockAfter (es ++ [.part k p])).time k =
      ((clockAfter es).time k).advance (jumpsConnected 1 p.tick) p.tick p.now := by
  obtain ⟨-, hset⟩ := clockAfter_tracks es
  rw [clockAfter_concat]
  change ((clockAfter es).place k p).time k = _
  rw [place_time, if_pos rfl, jumpsOf_of_examined _ hexamined, hset hsince]

/-- That test does not see a tick that goes ahead. -/
theorem jumpsConnected_one_of_le (h : ¬ p.tick.toNat < prev.tick.toNat) :
    jumpsConnected 1 p.tick prev.tick = false := by
  rw [Bool.eq_false_iff, ne_eq, jumpsConnected_one_iff]
  exact h

/-- **A jump after a reconnect** is handled as one exactly when it goes back. -/
theorem bridged_iff (hsince : .reconnect ∈ es) (hexamined : Examined k p)
    (hlast : lastTick k es = some prev) (hjump : Jumps prev p) :
    Bridged ((clockAfter es).time k) ((clockAfter (es ++ [.part k p])).time k) prev p ↔
      ¬ JumpsAhead prev p := by
  have hkept := (clockAfter_tracks es).1 k
  rw [hlast] at hkept
  obtain ⟨hflag, hprev, hnow, hle, htime⟩ := hkept
  rw [time_of_examined hsince hexamined]
  generalize (clockAfter es).time k = t at hflag hprev hnow hle htime
  by_cases hback : p.tick.toNat < prev.tick.toNat
  · have hnot : ¬ JumpsAhead prev p := by
      rw [JumpsAhead]
      omega
    have hcounts := (jumpsConnected_one_iff p.tick prev.tick).mpr hback
    refine iff_of_true ?_ hnot
    simp only [RecvTime.advance, hflag, if_true, hprev, hcounts]
    refine ⟨?_, rfl, rfl⟩
    rw [getIntervalTime_eq, hnow]
  · -- The clock goes on from where it began, which is not the tick of the part.
    have hahead : JumpsAhead prev p := hjump.resolve_left hback
    have hcounts := jumpsConnected_one_of_le hback
    refine iff_of_false (fun h => ?_) (not_not.mpr hahead)
    have hinit := h.initTime
    simp only [RecvTime.advance, hflag, if_true, hprev, hcounts, Bool.false_eq_true, if_false] at hinit
    rw [hinit, BitVec.le_def] at hle
    rw [JumpsAhead] at hahead
    omega

/-- **A jump ahead after a reconnect** moves the clock by its own size. -/
theorem timeTick_of_jumpsAhead (hsince : .reconnect ∈ es) (hexamined : Examined k p)
    (hlast : lastTick k es = some prev) (hahead : JumpsAhead prev p) :
    ((clockAfter (es ++ [.part k p])).time k).timeTick =
      ((clockAfter es).time k).timeTick + (p.tick - prev.tick) := by
  have hkept := (clockAfter_tracks es).1 k
  rw [hlast] at hkept
  obtain ⟨hflag, hprev, hnow, hle, htime⟩ := hkept
  rw [JumpsAhead] at hahead
  have hback : ¬ p.tick.toNat < prev.tick.toNat := by omega
  have hcounts := jumpsConnected_one_of_le hback
  rw [time_of_examined hsince hexamined]
  have hcal : (if ((clockAfter es).time k).initTime < p.tick
      then p.tick - ((clockAfter es).time k).initTime
      else ((clockAfter es).time k).initTime - p.tick) =
        p.tick - ((clockAfter es).time k).initTime := by
    split_ifs <;> bv_omega
  simp only [RecvTime.advance, hflag, if_true, hprev, hcounts, Bool.false_eq_true, if_false, hcal]
  rw [htime]
  bv_omega

/-- **Every jump is handled** from the second part after a reconnect on exactly when none goes
ahead. -/
theorem rearmed_iff (es : List ClockEvent) : Rearmed es ↔ NoJumpAhead es := by
  refine forall_congr' fun before => forall_congr' fun k => forall_congr' fun p =>
    forall_congr' fun after => forall_congr' fun _ => forall_congr' fun hsince =>
    forall_congr' fun hexamined => forall_congr' fun prev => forall_congr' fun hlast => ?_
  have hmem : .reconnect ∈ before := by
    obtain ⟨_, _, rfl, -⟩ := hsince
    exact List.mem_append_right _ (List.mem_cons_self ..)
  constructor
  · intro hbridged hahead
    exact (bridged_iff hmem hexamined hlast (Or.inr hahead)).mp (hbridged (Or.inr hahead)) hahead
  · intro hnot hjump
    exact (bridged_iff hmem hexamined hlast hjump).mpr hnot

/-- A reconnect and three parts, the last of which is ahead by 100 minutes. -/
def jumpAhead : List ClockEvent :=
  [.reconnect, .part .video ⟨1000, 0, false⟩, .part .video ⟨1040, 40, false⟩,
    .part .video ⟨6001040, 80, false⟩]

/-- **A jump ahead is not handled**: the clock goes on by 100 minutes in 40 ms. -/
theorem not_rearmed_jumpAhead :
    ¬ Rearmed jumpAhead ∧ ((clockAfter jumpAhead).time .video).timeTick = 6000040 := by
  refine ⟨fun h => ?_, by decide +kernel⟩
  refine (rearmed_iff jumpAhead).mp h (jumpAhead.take 3) .video ⟨6001040, 80, false⟩ [] rfl ?_
    (fun _ => rfl) ⟨1040, 40, false⟩ rfl (by decide)
  exact ⟨[], (jumpAhead.take 3).drop 1, rfl, by decide, by decide⟩

end Receive

end ReachEdukit
