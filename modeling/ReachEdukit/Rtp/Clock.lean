import ReachEdukit.Rtp.Recv

/-!
# The clocks of the receiver

Every part that arrives has a tick of its source. The receiver turns the ticks into a clock of its own,
one for the pictures and one for the sound: the clock goes on by as much as the tick does, and where the
tick jumps, by the local time between the two parts, at least by one.

The source does not add to the clock from part to part. It keeps the tick and the value of the clock
from the last jump, and takes the difference to that tick. `RecvTime.Tracks` is what ties the two
together: the clock is the value at the last jump and what the ticks have gone on since.

## Main definitions

* `increment`, `accumulated` — what the clock should be
* `takePart` — a part is placed, and a frame that is complete is handed out
* `RecvTime.Tracks` — the invariant

## Main results

* `RecvTime.Tracks.advance` — one part
* `handleAfter_clock` — the clock after a run
* `clock_accumulates` — the rule for the clock, and the order of the frames that are handed out
-/

namespace ReachEdukit

namespace Rtp

open Memory

/-! ### What the clock should be -/

/-- The tick of a part, and the local time when it arrived. -/
structure SourceTick where
  tick : BitVec 32
  now : BitVec 32
  /-- It is a part of a JPEG picture. -/
  jpeg : Bool
  deriving DecidableEq, Repr

/-- The tick has gone on after the one before, and for H.264 and sound not by more than
`UdpRecv_EXAMIN_TIME`. -/
def Follows (prev cur : SourceTick) : Prop :=
  prev.tick.toNat ≤ cur.tick.toNat ∧
    (cur.jpeg = true ∨ cur.tick.toNat ≤ prev.tick.toNat + examinTime.toNat)

instance (prev cur : SourceTick) : Decidable (Follows prev cur) :=
  inferInstanceAs (Decidable (_ ∧ _))

/-- The time between two local times. -/
def interval (prev now : ℕ) : ℕ := max 1 ((now - prev) + (prev - now))

/-- By how much the clock goes on. -/
def increment (prev cur : SourceTick) : ℕ :=
  if Follows prev cur then cur.tick.toNat - prev.tick.toNat
  else interval prev.now.toNat cur.now.toNat

/-- How much the clock has gone on over a list of ticks. -/
def accumulated : List SourceTick → ℕ
  | [] => 0
  | [_] => 0
  | prev :: cur :: rest => increment prev cur + accumulated (cur :: rest)

theorem accumulated_concat (l : List SourceTick) (cur : SourceTick) :
    accumulated (l ++ [cur]) =
      accumulated l + l.getLast?.elim 0 fun prev => increment prev cur := by
  induction l with
  | nil => rfl
  | cons a l ih =>
    cases l with
    | nil => simp [accumulated]
    | cons b l =>
      change increment a b + accumulated (b :: l ++ [cur]) = _
      rw [ih, ← Nat.add_assoc]
      rfl

/-- The clock does not go back. -/
theorem accumulated_mono {l₁ l₂ : List SourceTick} (h : l₁ <+: l₂) :
    accumulated l₁ ≤ accumulated l₂ := by
  obtain ⟨l, rfl⟩ := h
  induction l using List.reverseRecOn with
  | nil => rw [List.append_nil]
  | append_singleton l cur ih =>
    rw [← List.append_assoc, accumulated_concat]
    exact ih.trans (Nat.le_add_right _ _)

/-- The clock goes on at every jump. -/
theorem increment_pos {prev cur : SourceTick} (h : ¬ Follows prev cur) : 0 < increment prev cur := by
  rw [increment, if_neg h]
  exact Nat.lt_of_lt_of_le Nat.zero_lt_one (Nat.le_max_left _ _)

/-! ### One clock -/

/-- What counts as a jump for a part. -/
def SourceTick.jumps (cur : SourceTick) : BitVec 32 → Bool :=
  if cur.jpeg then jumpsBack cur.tick else jumpsFar cur.tick

theorem jumps_iff (prev cur : SourceTick) : cur.jumps prev.tick = true ↔ ¬ Follows prev cur := by
  rw [SourceTick.jumps, Follows]
  cases cur.jpeg with
  | true =>
    simp only [if_true, jumpsBack, decide_eq_true_eq, true_or, and_true]
    bv_omega
  | false =>
    simp only [Bool.false_eq_true, if_false, jumpsFar, Bool.or_eq_true, Bool.and_eq_true,
      decide_eq_true_eq, false_or]
    bv_omega

theorem jumps_self (cur : SourceTick) : cur.jumps cur.tick = false := by
  rw [Bool.eq_false_iff, Ne, jumps_iff, not_not]
  exact ⟨le_rfl, Or.inr (Nat.le_add_right _ _)⟩

theorem getIntervalTime_eq (prev now : BitVec 32) :
    getIntervalTime prev now = BitVec.ofNat 32 (interval prev.toNat now.toNat) := by
  simp only [getIntervalTime, interval]
  split_ifs <;> bv_omega

/-- The clock before any part, and after one with a given tick. -/
def RecvTime.Tracks (t : RecvTime) (last : Option SourceTick) : Prop :=
  last.elim (t.initFlag = false ∧ t.timeTick = 0) fun last =>
    t.initFlag = true ∧ t.prevTimeTick = last.tick ∧ t.prevTime = last.now ∧
      t.initTime ≤ last.tick ∧ t.timeTick = t.calTime + (last.tick - t.initTime)

/-- **A part arrives**: the clock goes on as it should, and is kept as it was. -/
theorem RecvTime.Tracks.advance {t : RecvTime} {last : Option SourceTick} (h : t.Tracks last)
    (cur : SourceTick) :
    (t.advance cur.jumps cur.tick cur.now).timeTick =
        t.timeTick + BitVec.ofNat 32 (last.elim 0 fun prev => increment prev cur) ∧
      (t.advance cur.jumps cur.tick cur.now).Tracks (some cur) := by
  obtain rfl | ⟨prev, rfl⟩ := Option.eq_none_or_eq_some last
  · obtain ⟨hflag, htime⟩ := h
    simp only [RecvTime.advance, hflag, Bool.false_eq_true, if_false, jumps_self]
    refine ⟨?_, rfl, rfl, rfl, ?_, ?_⟩
    · simp [htime]
    · exact BitVec.le_refl _
    · simp
  · obtain ⟨hflag, hprev, hnow, hle, htime⟩ := h
    by_cases hjump : cur.jumps prev.tick = true
    · have hfar := (jumps_iff prev cur).mp hjump
      simp only [RecvTime.advance, hflag, if_true, hprev, hjump]
      refine ⟨?_, rfl, rfl, rfl, BitVec.le_refl _, ?_⟩
      · rw [getIntervalTime_eq, hnow, Option.elim_some, increment, if_neg hfar]
      · simp
    · have hnear : Follows prev cur := not_not.mp (mt (jumps_iff prev cur).mpr hjump)
      have hgoes := hnear.1
      have hcal : (if t.initTime < cur.tick then cur.tick - t.initTime else t.initTime - cur.tick) =
          cur.tick - t.initTime := by
        split_ifs <;> bv_omega
      simp only [RecvTime.advance, hflag, if_true, hprev, if_neg hjump, hcal]
      refine ⟨?_, rfl, rfl, rfl, by bv_omega, BitVec.add_comm _ _⟩
      rw [Option.elim_some, increment, if_pos hnear, htime]
      bv_omega

/-! ### The parts of a run -/

/-- Pictures and sound have clocks of their own. -/
inductive ClockKind
  | video
  | audio
  deriving DecidableEq, Repr

/-- The clock of a codec. -/
def DataCodec.clockKind : DataCodec → Option ClockKind
  | .h264 | .jpeg => some .video
  | .aac => some .audio
  | .unknown => none

/-- The clocks of the handle. -/
def Handle.clock (h : Handle) : ClockKind → RecvTime
  | .video => h.videoTime
  | .audio => h.audioTime

/-- A part that is given to `pkg_placed_in_frame` or `pkg_placed_in_frame_audio`. -/
structure Part where
  fh : FreameHead
  body : Buffer
  len : ℕ
  /-- The local time. -/
  now : BitVec 32

/-- The tick of a part. -/
def Part.source (p : Part) : SourceTick := ⟨p.fh.mTimeTick, p.now, p.fh.mDataCodec = .jpeg⟩

/-- The clock of a part. -/
def Part.kind (p : Part) : Option ClockKind := p.fh.mDataCodec.clockKind

/-- A part is placed, and a frame that is complete with it is handed out. Nothing is known of the handle
once a copy has left its buffers. -/
def takePart (s : Option Handle) (p : Part) : Option Handle × Option Delivered :=
  match s.bind fun h => udpRecvMediaFrameData h p.fh p.body p.len p.now with
  | none => (none, none)
  | some (h, true) => (some (h.handOut p.fh).1, (h.handOut p.fh).2)
  | some (h, false) => (some h, none)

/-- The handle after the parts of a run. -/
def handleAfter (parts : List Part) : Option Handle := Run.final takePart (some .init) parts

/-- The ticks of a clock. -/
def ticksOf (k : ClockKind) (parts : List Part) : List SourceTick :=
  (parts.filter fun p => p.kind = some k).map Part.source

variable {h h' : Handle} {p : Part} {parts : List Part} {k : ClockKind}

theorem ticksOf_concat (k : ClockKind) (parts : List Part) (p : Part) :
    ticksOf k (parts ++ [p]) = ticksOf k parts ++ if p.kind = some k then [p.source] else [] := by
  rw [ticksOf, List.filter_append, List.map_append, ticksOf]
  by_cases hk : p.kind = some k
  · rw [if_pos hk, List.filter_cons_of_pos (by simpa using hk)]
    rfl
  · rw [if_neg hk, List.filter_cons_of_neg (by simpa using hk)]
    rfl

/-- **Placing a part** moves its clock only. -/
theorem udpRecvMediaFrameData_clock {flag : Bool}
    (hplace : udpRecvMediaFrameData h p.fh p.body p.len p.now = some (h', flag)) (k : ClockKind) :
    h'.clock k = if p.kind = some k
      then (h.clock k).advance p.source.jumps p.source.tick p.source.now else h.clock k := by
  rw [Part.kind, Part.source, SourceTick.jumps]
  cases hcodec : p.fh.mDataCodec with
  | unknown =>
    simp only [udpRecvMediaFrameData, hcodec, Option.some.injEq, Prod.mk.injEq] at hplace
    rw [← hplace.1]
    rfl
  | h264 =>
    simp only [udpRecvMediaFrameData, hcodec, pkgPlacedInFrame, Option.bind_eq_bind,
      Option.bind_eq_some_iff, Option.pure_def, Option.some.injEq, Prod.mk.injEq] at hplace
    obtain ⟨_, ⟨placed, -, rfl⟩, rfl, -⟩ := hplace
    cases k <;> rfl
  | jpeg =>
    simp only [udpRecvMediaFrameData, hcodec, pkgPlacedInFrame, Option.bind_eq_bind,
      Option.bind_eq_some_iff, Option.pure_def, Option.some.injEq, Prod.mk.injEq] at hplace
    obtain ⟨_, ⟨placed, -, rfl⟩, rfl, -⟩ := hplace
    cases k <;> rfl
  | aac =>
    simp only [udpRecvMediaFrameData, hcodec, pkgPlacedInFrameAudio, Option.bind_eq_bind,
      Option.bind_eq_some_iff, Option.pure_def, Option.some.injEq, Prod.mk.injEq] at hplace
    obtain ⟨_, ⟨placed, -, rfl⟩, rfl, -⟩ := hplace
    cases k <;> rfl

/-- Handing out a frame moves no clock; the frame has the time of its clock. -/
theorem handOut_clock (h : Handle) (fh : FreameHead) (k : ClockKind) :
    (h.handOut fh).1.clock k = h.clock k ∧
      ∀ d ∈ (h.handOut fh).2, d.info.type.clockKind = some k →
        fh.mDataCodec.clockKind = some k ∧ d.info.timestamp = (h.clock k).timeTick := by
  rw [Handle.handOut]
  cases hcodec : fh.mDataCodec <;> cases k <;>
    simp [Handle.clock, StreamInfo.set, DataCodec.clockKind, hcodec]

/-- What taking a part does to the clocks, and the time of the frame that it completes. -/
theorem takePart_spec {out : Option Delivered} (htake : takePart (some h) p = (some h', out))
    (k : ClockKind) :
    (h'.clock k = if p.kind = some k
      then (h.clock k).advance p.source.jumps p.source.tick p.source.now else h.clock k) ∧
      ∀ d ∈ out, d.info.type.clockKind = some k →
        p.kind = some k ∧ d.info.timestamp = (h'.clock k).timeTick := by
  rw [takePart, Option.bind_some] at htake
  obtain hnone | ⟨⟨placed, flag⟩, hplace⟩ :=
    Option.eq_none_or_eq_some (udpRecvMediaFrameData h p.fh p.body p.len p.now)
  · rw [hnone] at htake
    exact absurd (Prod.mk.inj htake).1 (by simp)
  · have hclock := udpRecvMediaFrameData_clock hplace k
    rw [hplace] at htake
    cases flag with
    | false =>
      obtain ⟨hsome, rfl⟩ := Prod.mk.inj htake
      obtain rfl := Option.some.inj hsome
      exact ⟨hclock, fun d hd => absurd hd (by simp)⟩
    | true =>
      obtain ⟨hsome, rfl⟩ := Prod.mk.inj htake
      obtain rfl := Option.some.inj hsome
      obtain ⟨hsame, hframe⟩ := handOut_clock placed p.fh k
      rw [hsame]
      exact ⟨hclock, hframe⟩

theorem takePart_none (p : Part) : takePart none p = (none, none) := rfl

/-- A part that is not taken completes no frame. -/
theorem takePart_out_of_none (hnone : (takePart (some h) p).1 = none) :
    (takePart (some h) p).2 = none := by
  rw [takePart, Option.bind_some] at hnone ⊢
  obtain hfails | ⟨⟨placed, flag⟩, hplace⟩ :=
    Option.eq_none_or_eq_some (udpRecvMediaFrameData h p.fh p.body p.len p.now)
  · rw [hfails]
  · rw [hplace] at hnone
    cases flag <;> exact absurd hnone (by simp)

theorem handleAfter_concat (parts : List Part) (p : Part) :
    handleAfter (parts ++ [p]) = (takePart (handleAfter parts) p).1 :=
  Run.final_append ..

/-- A run that gets through a part got through the parts before. -/
theorem handleAfter_of_concat (hafter : handleAfter (parts ++ [p]) = some h') :
    ∃ h out, handleAfter parts = some h ∧ takePart (some h) p = (some h', out) := by
  rw [handleAfter_concat] at hafter
  obtain hnone | ⟨h, hh⟩ := Option.eq_none_or_eq_some (handleAfter parts)
  · rw [hnone, takePart_none] at hafter
    exact absurd hafter (by simp)
  · rw [hh] at hafter
    exact ⟨h, _, hh, Prod.ext hafter rfl⟩

/-- The invariant of a run, for one clock. -/
def Accumulates (k : ClockKind) (parts : List Part) (h : Handle) : Prop :=
  (h.clock k).Tracks (ticksOf k parts).getLast? ∧
    (h.clock k).timeTick = BitVec.ofNat 32 (accumulated (ticksOf k parts))

theorem accumulates_init (k : ClockKind) : Accumulates k [] .init := by
  cases k <;> exact ⟨⟨rfl, rfl⟩, rfl⟩

/-- **One part of a run.** -/
theorem Accumulates.take (hacc : Accumulates k parts h) {out : Option Delivered}
    (htake : takePart (some h) p = (some h', out)) : Accumulates k (parts ++ [p]) h' := by
  obtain ⟨htracks, htime⟩ := hacc
  rw [Accumulates, (takePart_spec htake k).1, ticksOf_concat]
  by_cases hk : p.kind = some k
  · rw [if_pos hk, if_pos hk, List.getLast?_concat, accumulated_concat]
    obtain ⟨hnext, htracks'⟩ := htracks.advance p.source
    refine ⟨htracks', ?_⟩
    rw [hnext, htime, BitVec.ofNat_add]
  · rw [if_neg hk, if_neg hk, List.append_nil]
    exact ⟨htracks, htime⟩

/-- **The clock after a run** is what has accumulated. -/
theorem handleAfter_clock (hafter : handleAfter parts = some h) (k : ClockKind) :
    Accumulates k parts h := by
  induction parts using List.reverseRecOn generalizing h with
  | nil =>
    obtain rfl := Option.some.inj hafter
    exact accumulates_init k
  | append_singleton parts p ih =>
    obtain ⟨h₀, out, hh₀, htake⟩ := handleAfter_of_concat hafter
    exact (ih hh₀).take htake

/-! ### The frames that are handed out -/

/-- The frame that the part at a place completes. -/
def deliveredAt (parts : List Part) (i : ℕ) : Option Delivered :=
  (Run.outs takePart (some .init) parts)[i]?.join

/-- The part at a place is a jump of its clock. -/
def JumpAt (k : ClockKind) (parts : List Part) (m : ℕ) : Prop :=
  ∃ p prev, parts[m]? = some p ∧ p.kind = some k ∧
    (ticksOf k (parts.take m)).getLast? = some prev ∧ ¬ Follows prev p.source

theorem ticksOf_of_isPrefix {parts' : List Part} (hpre : parts <+: parts') (k : ClockKind) :
    ticksOf k parts <+: ticksOf k parts' := by
  obtain ⟨rest, rfl⟩ := hpre
  rw [ticksOf, ticksOf, List.filter_append, List.map_append]
  exact List.prefix_append _ _

/-- How much the clock has gone on when the first `i` parts were taken. -/
def accumulatedAt (k : ClockKind) (parts : List Part) (i : ℕ) : ℕ :=
  accumulated (ticksOf k (parts.take i))

theorem accumulatedAt_mono (k : ClockKind) (parts : List Part) {i j : ℕ} (hij : i ≤ j) :
    accumulatedAt k parts i ≤ accumulatedAt k parts j :=
  accumulated_mono (ticksOf_of_isPrefix (List.take_prefix_take_left hij) k)

theorem accumulatedAt_le (k : ClockKind) (parts : List Part) (i : ℕ) :
    accumulatedAt k parts i ≤ accumulated (ticksOf k parts) :=
  accumulated_mono (ticksOf_of_isPrefix (List.take_prefix i parts) k)

/-- At a jump the clock goes on. -/
theorem accumulatedAt_jump {m : ℕ} (hjump : JumpAt k parts m) :
    accumulatedAt k parts m < accumulatedAt k parts (m + 1) := by
  obtain ⟨p, prev, hp, hk, hprev, hfar⟩ := hjump
  rw [accumulatedAt, accumulatedAt, List.take_add_one, hp, Option.toList_some, ticksOf_concat,
    if_pos hk, accumulated_concat, hprev]
  exact Nat.lt_add_of_pos_right (increment_pos hfar)

/-- A frame that is handed out has the time of its clock. -/
theorem deliveredAt_timestamp {i : ℕ} {d : Delivered} (hd : deliveredAt parts i = some d)
    (hk : d.info.type.clockKind = some k) :
    d.info.timestamp = BitVec.ofNat 32 (accumulatedAt k parts (i + 1)) := by
  rw [deliveredAt, Run.getElem?_outs, Option.join_eq_some_iff, Option.map_eq_some_iff] at hd
  obtain ⟨p, hp, hout⟩ := hd
  change (takePart (handleAfter (parts.take i)) p).2 = some d at hout
  obtain hnone | ⟨h, hh⟩ := Option.eq_none_or_eq_some (handleAfter (parts.take i))
  · rw [hnone, takePart_none] at hout
    exact absurd hout (by simp)
  · rw [hh] at hout
    obtain hstop | ⟨h', hh'⟩ := Option.eq_none_or_eq_some (takePart (some h) p).1
    · rw [takePart_out_of_none hstop] at hout
      exact absurd hout (by simp)
    · have htake : takePart (some h) p = (some h', some d) := Prod.ext hh' hout
      obtain ⟨-, htime⟩ := ((takePart_spec htake k).2 d rfl hk)
      have hacc := (handleAfter_clock hh k).take htake
      rw [htime, hacc.2, accumulatedAt, List.take_add_one, hp]
      rfl

/-- The rule for the clocks: the part that comes after a run moves its own clock, from nothing or from
the part before, and no other. -/
def ClockRule (k : ClockKind) (parts : List Part) (p : Part) (h h' : Handle) : Prop :=
  (h'.clock k).timeTick =
    if p.kind = some k then
      (ticksOf k parts).getLast?.elim 0 fun prev =>
        (h.clock k).timeTick + BitVec.ofNat 32 (increment prev p.source)
    else (h.clock k).timeTick

theorem clockRule (hafter : handleAfter parts = some h)
    (hafter' : handleAfter (parts ++ [p]) = some h') (k : ClockKind) : ClockRule k parts p h h' := by
  obtain ⟨h₀, out, hh₀, htake⟩ := handleAfter_of_concat hafter'
  obtain rfl := Option.some.inj (hafter.symm.trans hh₀)
  obtain ⟨htracks, htime⟩ := handleAfter_clock hafter k
  rw [ClockRule, (takePart_spec htake k).1]
  by_cases hk : p.kind = some k
  · rw [if_pos hk, if_pos hk, (htracks.advance p.source).1]
    obtain hnone | ⟨prev, hprev⟩ := Option.eq_none_or_eq_some (ticksOf k parts).getLast?
    · rw [hnone] at htracks ⊢
      have hzero : (h.clock k).timeTick = 0 := htracks.2
      rw [hzero]
      rfl
    · rw [hprev]
      rfl
  · rw [if_neg hk, if_neg hk]

/-- The frames of a clock that are handed out in a run: their times do not decrease, and they increase
where the clock jumps between them. -/
def TimesOrdered (k : ClockKind) (parts : List Part) : Prop :=
  ∀ i j d d', i < j → deliveredAt parts i = some d → deliveredAt parts j = some d' →
    d.info.type.clockKind = some k → d'.info.type.clockKind = some k →
    d.info.timestamp ≤ d'.info.timestamp ∧
      ((∃ m, i < m ∧ m ≤ j ∧ JumpAt k parts m) → d.info.timestamp < d'.info.timestamp)

/-- Without a wrap the frames are in order. -/
theorem timesOrdered (hwrap : accumulated (ticksOf k parts) < 2 ^ 32) : TimesOrdered k parts := by
  intro i j d d' hij hd hd' hk hk'
  have hle := accumulatedAt_mono k parts (Nat.succ_le_succ hij.le)
  have hi := accumulatedAt_le k parts (i + 1)
  have hj := accumulatedAt_le k parts (j + 1)
  rw [deliveredAt_timestamp hd hk, deliveredAt_timestamp hd' hk', BitVec.le_def, BitVec.lt_def,
    BitVec.toNat_ofNat, BitVec.toNat_ofNat, Nat.mod_eq_of_lt (hi.trans_lt hwrap),
    Nat.mod_eq_of_lt (hj.trans_lt hwrap)]
  refine ⟨hle, ?_⟩
  rintro ⟨m, him, hmj, hjump⟩
  have hbefore := accumulatedAt_mono k parts (Nat.succ_le_of_lt him)
  have hafter := accumulatedAt_mono k parts (Nat.succ_le_succ hmj)
  exact (hbefore.trans_lt (accumulatedAt_jump hjump)).trans_le hafter

/-- **The clocks of the receiver.** Whatever parts arrive, each one moves its clock by the rule; and in
a run in which the clock does not wrap, the frames that are handed out have times in order. -/
theorem clock_accumulates (k : ClockKind) :
    (∀ parts p h h', handleAfter parts = some h → handleAfter (parts ++ [p]) = some h' →
      ClockRule k parts p h h') ∧
      ∀ parts, accumulated (ticksOf k parts) < 2 ^ 32 → TimesOrdered k parts :=
  ⟨fun _ _ _ _ hafter hafter' => clockRule hafter hafter' k, fun _ hwrap => timesOrdered hwrap⟩

/-- An audio part of one byte with a tick. -/
def audioPart (tick now : BitVec 32) : Part :=
  ⟨{ mDataCodec := .aac, mTimeTick := tick, mDwSegment := 3, mFrameLength := 1 }, emptyBody, 1, now⟩

/-- A sound that jumps back by 40 and is bridged by 25 of the local time. -/
theorem clock_accumulates_sample :
    (∃ h h', handleAfter [audioPart 100 0, audioPart 120 20] = some h ∧
      handleAfter ([audioPart 100 0, audioPart 120 20] ++ [audioPart 80 45]) = some h' ∧
      ClockRule .audio [audioPart 100 0, audioPart 120 20] (audioPart 80 45) h h') ∧
      TimesOrdered .audio [audioPart 100 0, audioPart 120 20, audioPart 80 45] := by
  have hrun : (handleAfter ([audioPart 100 0, audioPart 120 20] ++ [audioPart 80 45])).isSome := by
    decide +kernel
  obtain ⟨h', hafter'⟩ := Option.isSome_iff_exists.mp hrun
  obtain ⟨h, -, hafter, -⟩ := handleAfter_of_concat hafter'
  exact ⟨⟨h, h', hafter, hafter', (clock_accumulates .audio).1 _ _ h h' hafter hafter'⟩,
    (clock_accumulates .audio).2 _ (by decide)⟩

example : ((deliveredAt [audioPart 100 0, audioPart 120 20, audioPart 80 45] 2).map fun d =>
    d.info.timestamp) = some 45 := by
  decide +kernel

end Rtp

end ReachEdukit
