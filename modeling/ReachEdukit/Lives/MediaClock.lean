import ReachEdukit.Lib.Run
import ReachEdukit.Rtp.ClockRate

/-!
# The clock of a live medium

The timestamps of a live stream are made in two layers. `get_video_data_info` takes the tick of the
first packet as a base and hands on the ticks relative to it, until one is so large that 90 kHz would
soon run over; then the next packet is a first one again. `rtp_build_video_data` and
`rtp_build_audio_data` take what they are handed, and do the same once more with `time_org` of their
handle. In both layers a base of zero stands for none.

The first packet is handed on with a relative tick of zero. So the layer below takes a base of zero
from it, which is none, and takes another one from the packet after it: these two have the same
timestamp, whatever their ticks are.

Sound and pictures of either quality each have a clock of their own; it is what this file is about.

## Main definitions

* `Stamp.take` — a branch of `get_video_data_info`
* `MediaClock.step` — the clock, with the part of the builders that it needs
* `KeepsTime` — what is asked of two timestamps
* `TimeKept` — when they do it

## Main results

* `InRange.step`, `Anchored.step` — what a step does to the bases
* `keepsTime_iff_timeKept` — two timestamps of a run
-/

namespace ReachEdukit

namespace Lives

open Rtp

/-! ### The first layer -/

/-- The base and the tick before. The fields of `video_enc_info_t` are `HD_video_timestamp_ex` and
`HD_video_timestamp_cache` for pictures, `HD_video_timestamp` and `HD_audio_timestamp_cache` for sound,
and the same with `BD`. -/
structure Stamp where
  /-- The base; zero until there is one. -/
  base : BitVec 32
  /-- The tick before. -/
  cache : BitVec 32
  deriving DecidableEq, Repr

/-- The largest relative tick that keeps the base. -/
def maxRelative : BitVec 32 := 0xFFFFFFFF / 90 - 10000

/-- A branch for H.264 of `get_video_data_info`. -/
def Stamp.take (s : Stamp) (timestamp : BitVec 32) : Stamp × BitVec 32 :=
  if s.base = 0 then (⟨timestamp, timestamp⟩, 0)
  else
    let notBelow := if timestamp < s.cache then s.cache + 1 else timestamp
    let above := if notBelow = s.cache then s.cache + 1 else notBelow
    (⟨if maxRelative < above - s.base then 0 else s.base, above⟩, above - s.base)

theorem Stamp.take_of_none {s : Stamp} (h : s.base = 0) (timestamp : BitVec 32) :
    s.take timestamp = (⟨timestamp, timestamp⟩, 0) := by
  rw [Stamp.take, if_pos h]

/-- A tick above the one before is taken as it is. -/
theorem Stamp.take_of_lt {s : Stamp} (h : s.base ≠ 0) {timestamp : BitVec 32}
    (hlt : s.cache < timestamp) : s.take timestamp =
      (⟨if maxRelative < timestamp - s.base then 0 else s.base, timestamp⟩, timestamp - s.base) := by
  have hnot : ¬ timestamp < s.cache := BitVec.not_lt.mpr (BitVec.le_of_lt hlt)
  have hne : timestamp ≠ s.cache := (BitVec.ne_of_lt hlt).symm
  rw [Stamp.take, if_neg h]
  simp only [if_neg hnot, if_neg hne]

/-! ### The second layer -/

/-- Pictures, or sound of a rate. -/
inductive Medium
  /-- Pictures. -/
  | video
  /-- Sound. -/
  | audio (samplerate : ℕ)
  deriving DecidableEq, Repr

/-- The timestamp of a tick. -/
def Medium.timestamp : Medium → BitVec 32 → BitVec 32
  | .video, timetick => timetick * 90
  | .audio samplerate, timetick => audioTimestamp samplerate timetick

/-- The base that a builder uses. -/
def orgFor (timeOrg nowtime : BitVec 32) : BitVec 32 :=
  if timeOrg = 0 ∨ nowtime < timeOrg then nowtime else timeOrg

theorem senderTick_eq (timeOrg nowtime : BitVec 32) :
    senderTick timeOrg nowtime = nowtime - orgFor timeOrg nowtime := rfl

/-- The base that a builder leaves. It forgets the base when a timestamp is the largest; that is looked
at once for each part of a frame. -/
def orgAfter (m : Medium) (parts : Bool) (timeOrg nowtime : BitVec 32) : BitVec 32 :=
  if 0xFFFFFFFF ≤ m.timestamp (senderTick timeOrg nowtime) ∧ parts = true then 0
  else orgFor timeOrg nowtime

/-! ### The clock -/

/-- The clock of a medium: both layers. -/
structure MediaClock where
  /-- The first layer. -/
  stamp : Stamp
  /-- `time_org` of the handle. -/
  timeOrg : BitVec 32
  deriving DecidableEq, Repr

/-- A clock that has not been used. -/
def MediaClock.init : MediaClock := ⟨⟨0, 0⟩, 0⟩

/-- What happens to a clock. -/
inductive ClockEvent
  /-- The stream is reset. -/
  | reset
  /-- A packet that nobody wants. -/
  | skip (tick : BitVec 32)
  /-- A packet that is sent, in parts or in none. -/
  | build (m : Medium) (parts : Bool) (tick : BitVec 32)
  deriving DecidableEq, Repr

/-- The tick of the packet. -/
def ClockEvent.tick? : ClockEvent → Option (BitVec 32)
  | .reset => none
  | .skip tick => some tick
  | .build _ _ tick => some tick

/-- A step of a clock; a packet that is sent has a timestamp. -/
def MediaClock.step (c : MediaClock) : ClockEvent → MediaClock × Option (BitVec 32)
  | .reset => (.init, none)
  | .skip tick => (⟨(c.stamp.take tick).1, c.timeOrg⟩, none)
  | .build m parts tick =>
    (⟨(c.stamp.take tick).1, orgAfter m parts c.timeOrg (c.stamp.take tick).2⟩,
      some (m.timestamp (senderTick c.timeOrg (c.stamp.take tick).2)))

/-! ### Source ticks -/

/-- The tick that may follow: it is above the one before, by less than ten seconds. -/
def NextTick (t t' : BitVec 32) : Prop := t < t' ∧ t'.toNat < t.toNat + 10000

instance (t t' : BitVec 32) : Decidable (NextTick t t') := inferInstanceAs (Decidable (_ ∧ _))

/-- The ticks of a source: none is zero, and each may follow the one before. -/
def SourceTicks (ticks : List (BitVec 32)) : Prop := 0 ∉ ticks ∧ ticks.IsChain NextTick

instance (ticks : List (BitVec 32)) : Decidable (SourceTicks ticks) :=
  inferInstanceAs (Decidable (_ ∧ _))

/-- The tick of the event may be the next one. -/
def Follows (c : MediaClock) (e : ClockEvent) : Prop :=
  ∀ t ∈ e.tick?, t ≠ 0 ∧ (c.stamp.base ≠ 0 → NextTick c.stamp.cache t)

/-- The event takes no base. -/
def KeepsBase (c : MediaClock) (e : ClockEvent) : Prop := e.tick?.isSome → c.stamp.base ≠ 0

instance (c : MediaClock) (e : ClockEvent) : Decidable (KeepsBase c e) :=
  inferInstanceAs (Decidable (_ → _))

/-- The base and the tick before are as far apart as the first layer lets them be. -/
def InRange (c : MediaClock) : Prop :=
  c.stamp.base ≠ 0 → c.stamp.base.toNat ≤ c.stamp.cache.toNat ∧
    c.stamp.cache.toNat ≤ c.stamp.base.toNat + 47711858

variable {c c' : MediaClock} {e : ClockEvent} {m : Medium} {t t' : BitVec 32}

theorem inRange_init : InRange .init := fun hbase => absurd rfl hbase

/-- A packet after the first is handed on with the time since the base. -/
theorem relative_toNat (hrange : InRange c) (hbase : c.stamp.base ≠ 0) (hnext : NextTick c.stamp.cache t) :
    (t - c.stamp.base).toNat = t.toNat - c.stamp.base.toNat ∧
      c.stamp.cache.toNat < t.toNat ∧ t.toNat < c.stamp.base.toNat + 47721858 := by
  obtain ⟨hle, hmax⟩ := hrange hbase
  obtain ⟨hlt, hgap⟩ := hnext
  have hlt : c.stamp.cache.toNat < t.toNat := hlt
  refine ⟨BitVec.toNat_sub_of_le ?_, hlt, by omega⟩
  exact (BitVec.le_def ..).mpr (by omega)

/-- What becomes of a stamp. -/
theorem take_of_follows (hnext : c.stamp.base ≠ 0 → NextTick c.stamp.cache t) :
    c.stamp.take t = if c.stamp.base = 0 then (⟨t, t⟩, 0)
      else (⟨if maxRelative < t - c.stamp.base then 0 else c.stamp.base, t⟩, t - c.stamp.base) := by
  by_cases hbase : c.stamp.base = 0
  · rw [if_pos hbase, Stamp.take_of_none hbase]
  · rw [if_neg hbase, Stamp.take_of_lt hbase (hnext hbase).1]

/-- The tick is kept for the next packet. -/
theorem cache_take (hnext : c.stamp.base ≠ 0 → NextTick c.stamp.cache t) :
    (c.stamp.take t).1.cache = t := by
  rw [take_of_follows hnext]
  split_ifs <;> rfl

/-- A base is the tick of the packet, the base before, or none. -/
theorem inRange_take (hrange : InRange c) (hnext : c.stamp.base ≠ 0 → NextTick c.stamp.cache t)
    (timeOrg : BitVec 32) : InRange ⟨(c.stamp.take t).1, timeOrg⟩ := by
  rw [take_of_follows hnext]
  by_cases hbase : c.stamp.base = 0
  · rw [if_pos hbase]
    exact fun _ => ⟨le_rfl, Nat.le_add_right ..⟩
  · rw [if_neg hbase]
    obtain ⟨hrel, hlt, -⟩ := relative_toNat hrange hbase (hnext hbase)
    obtain ⟨hle, -⟩ := hrange hbase
    by_cases hfar : maxRelative < t - c.stamp.base
    · intro hne
      simp only [if_pos hfar] at hne
      exact absurd rfl hne
    · intro _
      simp only [if_neg hfar]
      have hnear : (t - c.stamp.base).toNat ≤ 47711858 := BitVec.not_lt.mp hfar
      omega

/-- **A step** keeps the range. -/
theorem InRange.step (hrange : InRange c) (hfollows : Follows c e) : InRange (c.step e).1 := by
  cases e with
  | reset => exact inRange_init
  | skip tick => exact inRange_take hrange (hfollows tick rfl).2 _
  | build m parts tick => exact inRange_take hrange (hfollows tick rfl).2 _

/-- The ticks of a source may follow each other all along a run. -/
theorem along_follows {es : List ClockEvent} (hticks : SourceTicks (es.filterMap ClockEvent.tick?))
    (hhead : c.stamp.base ≠ 0 → ∀ t ∈ (es.filterMap ClockEvent.tick?).head?, NextTick c.stamp.cache t) :
    Run.Along MediaClock.step Follows c es := by
  induction es generalizing c with
  | nil => trivial
  | cons e es ih =>
    obtain ⟨hpos, hchain⟩ := hticks
    cases htick : e.tick? with
    | none =>
      rw [List.filterMap_cons_none htick] at hpos hchain
      refine ⟨fun t ht => absurd (htick.symm.trans ht) (by simp), ih ⟨hpos, hchain⟩ ?_⟩
      cases e with
      | reset => exact fun hbase => absurd rfl hbase
      | skip tick => exact absurd htick (by simp [ClockEvent.tick?])
      | build m parts tick => exact absurd htick (by simp [ClockEvent.tick?])
    | some t =>
      rw [List.filterMap_cons_some htick] at hpos hchain hhead
      have hnext : c.stamp.base ≠ 0 → NextTick c.stamp.cache t := fun hbase => hhead hbase t rfl
      have hfollows : Follows c e := by
        intro u hu
        obtain rfl : t = u := Option.some.inj (htick.symm.trans hu)
        exact ⟨Ne.symm (List.ne_of_not_mem_cons hpos), hnext⟩
      have hcache : (c.step e).1.stamp.cache = t := by
        cases e with
        | reset => exact absurd htick (by simp [ClockEvent.tick?])
        | skip tick =>
          obtain rfl : tick = t := Option.some.inj htick
          exact cache_take hnext
        | build m parts tick =>
          obtain rfl : tick = t := Option.some.inj htick
          exact cache_take hnext
      refine ⟨hfollows, ih ⟨List.not_mem_of_not_mem_cons hpos, hchain.tail⟩ ?_⟩
      intro _ u hu
      rw [hcache]
      obtain ⟨rest, hrest⟩ := List.head?_eq_some_iff.mp hu
      rw [hrest] at hchain
      exact hchain.rel

/-- **A run** keeps the range. -/
theorem InRange.final {es : List ClockEvent} (hrange : InRange c)
    (hfollows : Run.Along MediaClock.step Follows c es) :
    InRange (Run.final MediaClock.step c es) := by
  induction es generalizing c with
  | nil => exact hrange
  | cons e es ih => exact ih (hrange.step hfollows.1) hfollows.2

/-! ### Timestamps of ticks -/

/-- Pictures, and sound of a rate that is supported. -/
def Medium.Supported : Medium → Prop
  | .video => True
  | .audio samplerate => samplerate ∈ sampleRates

instance (m : Medium) : Decidable m.Supported := by
  cases m <;> unfold Medium.Supported <;> infer_instance

/-- The units in so many milliseconds, of which a timestamp has 32 bits. -/
def Medium.units : Medium → ℕ → ℕ
  | .video, n => n * 90
  | .audio samplerate, n => if samplerate = 44100 then n * 44 + n / 10 else n * (samplerate / 1000)

/-- The timestamp of a tick that 90 kHz can hold: only 96 kHz runs over. -/
theorem toNat_timestamp (hm : m.Supported) {tick : BitVec 32} (htick : tick.toNat < 47721858) :
    (m.timestamp tick).toNat =
      if m = .audio 96000 then tick.toNat * 96 % 2 ^ 32 else m.units tick.toNat := by
  cases m with
  | video =>
    change (tick * 90).toNat = tick.toNat * 90
    simp only [BitVec.toNat_mul, BitVec.reduceToNat]
    omega
  | audio samplerate =>
    have hrate : samplerate ∈ sampleRates := hm
    simp only [sampleRates, List.mem_cons, List.not_mem_nil, or_false] at hrate
    obtain rfl | rfl | rfl | rfl | rfl := hrate
    · change (tick * 16).toNat = tick.toNat * 16
      simp only [BitVec.toNat_mul, BitVec.reduceToNat]
      omega
    · change (tick * 32).toNat = tick.toNat * 32
      simp only [BitVec.toNat_mul, BitVec.reduceToNat]
      omega
    · change (tick * 44 + tick / 10).toNat = tick.toNat * 44 + tick.toNat / 10
      simp only [BitVec.toNat_add, BitVec.toNat_mul, BitVec.toNat_udiv, BitVec.reduceToNat]
      omega
    · change (tick * 48).toNat = tick.toNat * 48
      simp only [BitVec.toNat_mul, BitVec.reduceToNat]
      omega
    · rw [if_pos rfl]
      change (tick * 96).toNat = _
      simp only [BitVec.toNat_mul, BitVec.reduceToNat]

/-- No such timestamp is the largest, whatever the rate. -/
theorem timestamp_lt_max (m : Medium) {tick : BitVec 32} (htick : tick.toNat < 47721858) :
    ¬ 0xFFFFFFFF ≤ m.timestamp tick := by
  have heven : ∀ factor : BitVec 32, factor.toNat % 2 = 0 → ¬ 0xFFFFFFFF ≤ tick * factor := by
    intro factor hfactor hmax
    have hmax : 4294967295 ≤ tick.toNat * factor.toNat % 2 ^ 32 := by
      rw [← BitVec.toNat_mul]
      exact hmax
    have hprod : tick.toNat * factor.toNat % 2 = 0 := by
      rw [Nat.mul_mod, hfactor, Nat.mul_zero, Nat.zero_mod]
    omega
  cases m with
  | video => exact heven 90 rfl
  | audio samplerate =>
    rw [Medium.timestamp, audioTimestamp]
    split_ifs
    · exact heven 16 rfl
    · exact heven 32 rfl
    · intro hmax
      have hmax : 4294967295 ≤ (tick * 44 + tick / 10).toNat := hmax
      simp only [BitVec.toNat_add, BitVec.toNat_mul, BitVec.toNat_udiv, BitVec.reduceToNat] at hmax
      rw [Nat.mod_eq_of_lt (by omega : tick.toNat * 44 < 2 ^ 32),
        Nat.mod_eq_of_lt (by omega : tick.toNat * 44 + tick.toNat / 10 < 2 ^ 32)] at hmax
      omega
    · exact heven 96 rfl
    · exact heven 48 rfl

/-- Two timestamps differ by what has passed between them; at 44.1 kHz up to a millisecond. -/
def KeepsTime : Medium → BitVec 32 → BitVec 32 → ℕ → Prop
  | .video, ts, ts', elapsed => (ts'.toNat : ℤ) - ts.toNat = 90 * elapsed
  | .audio samplerate, ts, ts', elapsed =>
    if samplerate = 44100 then |10 * ((ts'.toNat : ℤ) - ts.toNat) - 441 * elapsed| ≤ 441
    else 1000 * ((ts'.toNat : ℤ) - ts.toNat) = samplerate * elapsed

/-- Timestamps of ticks that are as far apart as they should be: 96 kHz may run over between them. -/
theorem keepsTime_of_exact (hm : m.Supported) {tick tick' : BitVec 32} {elapsed : ℕ}
    (htick' : tick'.toNat < 47721858) (helapsed : tick'.toNat = tick.toNat + elapsed) :
    KeepsTime m (m.timestamp tick) (m.timestamp tick') elapsed ↔
      (m = .audio 96000 → tick.toNat * 96 / 2 ^ 32 = tick'.toNat * 96 / 2 ^ 32) := by
  have hts := toNat_timestamp hm (by omega : tick.toNat < 47721858)
  have hts' := toNat_timestamp hm htick'
  cases m with
  | video =>
    refine iff_of_true ?_ (by simp)
    rw [KeepsTime, hts, hts', if_neg (by simp), if_neg (by simp), Medium.units, Medium.units]
    omega
  | audio samplerate =>
    have hrate : samplerate ∈ sampleRates := hm
    rw [KeepsTime, hts, hts']
    simp only [sampleRates, List.mem_cons, List.not_mem_nil, or_false] at hrate
    obtain rfl | rfl | rfl | rfl | rfl := hrate
    · refine iff_of_true ?_ (by simp)
      norm_num [Medium.units]
      omega
    · refine iff_of_true ?_ (by simp)
      norm_num [Medium.units]
      omega
    · refine iff_of_true ?_ (by simp)
      norm_num [Medium.units]
      rw [abs_le]
      omega
    · refine iff_of_true ?_ (by simp)
      norm_num [Medium.units]
      omega
    · rw [if_pos rfl, if_pos rfl, if_neg (by decide), forall_prop_of_true rfl]
      omega

/-- The timestamp of the first packet is zero; one of a tick that is too small can be close enough at
44.1 kHz only. -/
theorem keepsTime_of_less (hm : m.Supported) {tick' : BitVec 32} {elapsed : ℕ}
    (htick' : tick'.toNat < 47721858) (helapsed : tick'.toNat < elapsed) :
    KeepsTime m (m.timestamp 0) (m.timestamp tick') elapsed ↔
      m = .audio 44100 ∧ elapsed = tick'.toNat + 1 ∧ 10 ∣ tick'.toNat := by
  have hts := toNat_timestamp hm (by decide : (0 : BitVec 32).toNat < 47721858)
  have hts' := toNat_timestamp hm htick'
  cases m with
  | video =>
    refine iff_of_false ?_ (by simp)
    rw [KeepsTime, hts, hts', if_neg (by simp), if_neg (by simp), Medium.units, Medium.units]
    norm_num
    omega
  | audio samplerate =>
    have hrate : samplerate ∈ sampleRates := hm
    rw [KeepsTime, hts, hts']
    simp only [sampleRates, List.mem_cons, List.not_mem_nil, or_false] at hrate
    obtain rfl | rfl | rfl | rfl | rfl := hrate
    · refine iff_of_false ?_ (by simp)
      norm_num [Medium.units]
      omega
    · refine iff_of_false ?_ (by simp)
      norm_num [Medium.units]
      omega
    · norm_num [Medium.units]
      rw [abs_le]
      omega
    · refine iff_of_false ?_ (by simp)
      norm_num [Medium.units]
      omega
    · refine iff_of_false ?_ (by simp)
      rw [if_pos rfl, if_pos rfl, if_neg (by decide)]
      have hle := Nat.mod_le (tick'.toNat * 96) (2 ^ 32)
      -- how far it runs over does not matter
      generalize tick'.toNat * 96 % 2 ^ 32 = rest at hle ⊢
      simp only [BitVec.reduceToNat]
      omega

/-! ### Between two packets -/

/-- A base that is gone is not back before a packet that takes none. -/
theorem not_along_keepsBase {es : List ClockEvent} (hnone : c.stamp.base = 0)
    (htick : e.tick?.isSome) : ¬ Run.Along MediaClock.step KeepsBase c (es ++ [e]) := by
  induction es generalizing c with
  | nil => exact fun h => h.1 htick hnone
  | cons d es ih =>
    rintro ⟨hkeeps, hrest⟩
    cases d with
    | reset => exact ih rfl hrest
    | skip tick => exact hkeeps rfl hnone
    | build m parts tick => exact hkeeps rfl hnone

/-- Both layers have a base, and the bases are not above the tick of a packet before. -/
structure Anchored (base timeOrg last : BitVec 32) (c : MediaClock) : Prop where
  /-- The base of the first layer. -/
  base_eq : c.stamp.base = base
  /-- There is one. -/
  base_ne : base ≠ 0
  /-- The base of the second layer. -/
  timeOrg_eq : c.timeOrg = timeOrg
  /-- There is one. -/
  timeOrg_ne : timeOrg ≠ 0
  /-- A packet that is handed on with so much or more. -/
  le_last : base.toNat + timeOrg.toNat ≤ last.toNat
  /-- It has been there. -/
  last_le : last.toNat ≤ c.stamp.cache.toNat

variable {base timeOrg last : BitVec 32}

/-- The base of the second layer is used for a later packet. -/
theorem Anchored.orgFor_eq (h : Anchored base timeOrg last c) (hrange : InRange c)
    (hnext : NextTick c.stamp.cache t) :
    orgFor c.timeOrg (t - c.stamp.base) = timeOrg ∧
      (senderTick c.timeOrg (t - c.stamp.base)).toNat + timeOrg.toNat + base.toNat = t.toNat := by
  have hbase : c.stamp.base ≠ 0 := by
    rw [h.base_eq]
    exact h.base_ne
  obtain ⟨hrel, hlt, -⟩ := relative_toNat hrange hbase hnext
  have hle := h.le_last.trans h.last_le
  rw [h.base_eq] at hrel
  have hnot : ¬ (c.timeOrg = 0 ∨ t - c.stamp.base < c.timeOrg) := by
    rw [h.timeOrg_eq, h.base_eq, not_or, BitVec.not_lt, BitVec.le_def]
    refine ⟨h.timeOrg_ne, ?_⟩
    omega
  have horg : orgFor c.timeOrg (t - c.stamp.base) = timeOrg := by
    rw [orgFor, if_neg hnot, h.timeOrg_eq]
  refine ⟨horg, ?_⟩
  rw [senderTick_eq, horg, h.base_eq, BitVec.toNat_sub_of_le ((BitVec.le_def ..).mpr (by omega))]
  omega

/-- A packet keeps the base of the first layer, or clears it. -/
theorem base_take (hbase : c.stamp.base ≠ 0) (hnext : NextTick c.stamp.cache t) :
    (c.stamp.take t).1.base = c.stamp.base ∨ (c.stamp.take t).1.base = 0 := by
  rw [take_of_follows fun _ => hnext, if_neg hbase]
  split_ifs
  · exact Or.inr rfl
  · exact Or.inl rfl

/-- **A step** keeps both bases, or clears the first. -/
theorem Anchored.step (h : Anchored base timeOrg last c) (hrange : InRange c) (hfollows : Follows c e) :
    Anchored base timeOrg last (c.step e).1 ∨ (c.step e).1.stamp.base = 0 := by
  have hbase : c.stamp.base ≠ 0 := by
    rw [h.base_eq]
    exact h.base_ne
  have hle := h.last_le
  cases e with
  | reset => exact Or.inr rfl
  | skip tick =>
    have hnext := (hfollows tick rfl).2 hbase
    have hlt : c.stamp.cache.toNat < tick.toNat := hnext.1
    refine (base_take hbase hnext).imp_left fun hkept => ?_
    refine ⟨hkept.trans h.base_eq, h.base_ne, h.timeOrg_eq, h.timeOrg_ne, h.le_last, ?_⟩
    change _ ≤ (c.stamp.take tick).1.cache.toNat
    rw [cache_take fun _ => hnext]
    omega
  | build m parts tick =>
    have hnext := (hfollows tick rfl).2 hbase
    have hlt : c.stamp.cache.toNat < tick.toNat := hnext.1
    obtain ⟨horg, hsum⟩ := h.orgFor_eq hrange hnext
    obtain ⟨-, -, hmax⟩ := relative_toNat hrange hbase hnext
    rw [h.base_eq] at hmax
    have hnever := timestamp_lt_max m
      (by omega : (senderTick c.timeOrg (tick - c.stamp.base)).toNat < 47721858)
    refine (base_take hbase hnext).imp_left fun hkept => ?_
    refine ⟨hkept.trans h.base_eq, h.base_ne, ?_, h.timeOrg_ne, h.le_last, ?_⟩
    · change orgAfter m parts c.timeOrg (c.stamp.take tick).2 = timeOrg
      rw [take_of_follows fun _ => hnext, if_neg hbase, orgAfter,
        if_neg fun hforgets => hnever hforgets.1, horg]
    · change _ ≤ (c.stamp.take tick).1.cache.toNat
      rw [cache_take fun _ => hnext]
      omega

/-- **A run** to a packet keeps both bases, if no packet takes a base. -/
theorem Anchored.final {es : List ClockEvent} (h : Anchored base timeOrg last c) (hrange : InRange c)
    (hfollows : Run.Along MediaClock.step Follows c (es ++ [e]))
    (hkeeps : Run.Along MediaClock.step KeepsBase c (es ++ [e])) (htick : e.tick?.isSome) :
    Anchored base timeOrg last (Run.final MediaClock.step c es) ∧
      InRange (Run.final MediaClock.step c es) ∧ Follows (Run.final MediaClock.step c es) e := by
  induction es generalizing c with
  | nil => exact ⟨h, hrange, hfollows.1⟩
  | cons d es ih =>
    obtain hstep | hnone := h.step hrange hfollows.1
    · exact ih hstep (hrange.step hfollows.1) hfollows.2 hkeeps.2
    · exact absurd hkeeps.2 (not_along_keepsBase hnone htick)

/-- The base of the first layer alone. -/
theorem base_final {es : List ClockEvent} (h : c.stamp.base = base) (hne : base ≠ 0)
    (hrange : InRange c) (hfollows : Run.Along MediaClock.step Follows c (es ++ [e]))
    (hkeeps : Run.Along MediaClock.step KeepsBase c (es ++ [e])) (htick : e.tick?.isSome) :
    (Run.final MediaClock.step c es).stamp.base = base ∧
      InRange (Run.final MediaClock.step c es) ∧ Follows (Run.final MediaClock.step c es) e := by
  induction es generalizing c with
  | nil => exact ⟨h, hrange, hfollows.1⟩
  | cons d es ih =>
    have hkept : (c.step d).1.stamp.base = base ∨ (c.step d).1.stamp.base = 0 := by
      rw [← h] at hne ⊢
      cases d with
      | reset => exact Or.inr rfl
      | skip tick => exact base_take hne ((hfollows.1 tick rfl).2 hne)
      | build m parts tick => exact base_take hne ((hfollows.1 tick rfl).2 hne)
    obtain hstep | hnone := hkept
    · exact ih hstep (hrange.step hfollows.1) hfollows.2 hkeeps.2
    · exact absurd hkeeps.2 (not_along_keepsBase hnone htick)

/-! ### Two timestamps -/

/-- The tick that a builder makes of the tick of a packet. -/
def MediaClock.tickOf (c : MediaClock) (t : BitVec 32) : BitVec 32 :=
  senderTick c.timeOrg (t - c.stamp.base)

/-- When two timestamps keep time: the clock before the first packet has a base, and 96 kHz does not
run over between the packets. At 44.1 kHz it may have none, if what the builder leaves out is a
millisecond and nothing is lost by dividing. -/
def TimeKept (m : Medium) (c c' : MediaClock) (t t' : BitVec 32) : Prop :=
  if c.stamp.base = 0 then
    m = .audio 44100 ∧ t'.toNat = t.toNat + (c'.tickOf t').toNat + 1 ∧ 10 ∣ (c'.tickOf t').toNat
  else m = .audio 96000 → (c.tickOf t).toNat * 96 / 2 ^ 32 = (c'.tickOf t').toNat * 96 / 2 ^ 32

instance (m : Medium) (c c' : MediaClock) (t t' : BitVec 32) : Decidable (TimeKept m c c' t t') := by
  unfold TimeKept
  infer_instance

/-- A first packet is handed on with zero, and has the timestamp of zero. -/
theorem senderTick_zero (timeOrg : BitVec 32) : senderTick timeOrg 0 = 0 ∧ orgFor timeOrg 0 = 0 := by
  have horg : orgFor timeOrg 0 = 0 := by
    by_cases hnone : timeOrg = 0
    · rw [orgFor, if_pos (Or.inl hnone)]
    · have hpos : (0 : BitVec 32) < timeOrg :=
        Nat.pos_of_ne_zero fun h => hnone (BitVec.eq_of_toNat_eq h)
      rw [orgFor, if_pos (Or.inr hpos)]
  refine ⟨?_, horg⟩
  rw [senderTick_eq, horg]
  rfl

/-- Whatever its base is, a builder takes something off a tick that is not zero. -/
theorem senderTick_lt {timeOrg nowtime : BitVec 32} (hpos : 0 < nowtime.toNat) :
    (senderTick timeOrg nowtime).toNat < nowtime.toNat := by
  rw [senderTick_eq, orgFor]
  split_ifs with hfresh
  · rw [BitVec.sub_self]
    exact hpos
  · obtain ⟨hne, hle⟩ := not_or.mp hfresh
    have hle : timeOrg.toNat ≤ nowtime.toNat := BitVec.not_lt.mp hle
    have hpos : timeOrg.toNat ≠ 0 := fun h => hne (BitVec.eq_of_toNat_eq h)
    rw [BitVec.toNat_sub_of_le ((BitVec.le_def ..).mpr hle)]
    omega

/-- The timestamp of a packet that takes no base. -/
theorem step_build_snd (hbase : c.stamp.base ≠ 0) (hnext : NextTick c.stamp.cache t) (parts : Bool) :
    (c.step (.build m parts t)).2 = some (m.timestamp (c.tickOf t)) := by
  rw [MediaClock.step, take_of_follows fun _ => hnext, if_neg hbase]
  rfl

/-- The packet that takes the base. -/
theorem step_build_first (hbase : c.stamp.base = 0) (parts : Bool) :
    c.step (.build m parts t) =
      (⟨⟨t, t⟩, orgAfter m parts c.timeOrg 0⟩, some (m.timestamp 0)) := by
  rw [MediaClock.step, Stamp.take_of_none hbase, (senderTick_zero _).1]

/-- After a packet that takes no base, but keeps the one there is, both layers have a base. -/
theorem anchored_step_build (hbase : c.stamp.base ≠ 0) (hrange : InRange c)
    (hnext : NextTick c.stamp.cache t) (parts : Bool)
    (hkept : (c.step (.build m parts t)).1.stamp.base ≠ 0) :
    ∃ timeOrg, Anchored c.stamp.base timeOrg t (c.step (.build m parts t)).1 ∧
      (c.tickOf t).toNat + timeOrg.toNat + c.stamp.base.toNat = t.toNat := by
  obtain ⟨hrel, hlt, hmax⟩ := relative_toNat hrange hbase hnext
  have hle := (hrange hbase).1
  have htake : (c.stamp.take t).2 = t - c.stamp.base := by
    rw [take_of_follows fun _ => hnext, if_neg hbase]
  have hle' : (orgFor c.timeOrg (t - c.stamp.base)).toNat ≤ (t - c.stamp.base).toNat := by
    rw [orgFor]
    split_ifs with hfresh
    · exact le_rfl
    · exact BitVec.not_lt.mp (not_or.mp hfresh).2
  have hne : orgFor c.timeOrg (t - c.stamp.base) ≠ 0 := by
    intro hzero
    rw [orgFor] at hzero
    split_ifs at hzero with hfresh
    · have hzero : (t - c.stamp.base).toNat = 0 := congrArg BitVec.toNat hzero
      omega
    · exact hfresh (Or.inl hzero)
  have htick : (c.tickOf t).toNat =
      (t - c.stamp.base).toNat - (orgFor c.timeOrg (t - c.stamp.base)).toNat :=
    BitVec.toNat_sub_of_le ((BitVec.le_def ..).mpr hle')
  have hnever := timestamp_lt_max m (by omega : (c.tickOf t).toNat < 47721858)
  refine ⟨orgFor c.timeOrg (t - c.stamp.base), ⟨?_, hbase, ?_, hne, by omega, ?_⟩, by omega⟩
  · exact (base_take hbase hnext).resolve_right hkept
  · change orgAfter m parts c.timeOrg (c.stamp.take t).2 = _
    rw [htake, orgAfter, if_neg fun hforgets => hnever hforgets.1]
  · change _ ≤ (c.stamp.take t).1.cache.toNat
    rw [cache_take fun _ => hnext]

variable {mid : List ClockEvent} {parts parts' : Bool} {ts ts' : BitVec 32}

/-- A packet and the one that took the base. -/
theorem keepsTime_first (hm : m.Supported) (hbase : c.stamp.base = 0)
    (hfollows : Run.Along MediaClock.step Follows c
      (.build m parts t :: (mid ++ [.build m parts' t'])))
    (hkeeps : Run.Along MediaClock.step KeepsBase (c.step (.build m parts t)).1
      (mid ++ [.build m parts' t']))
    (hc' : Run.final MediaClock.step (c.step (.build m parts t)).1 mid = c')
    (hts : (c.step (.build m parts t)).2 = some ts)
    (hts' : (c'.step (.build m parts' t')).2 = some ts') :
    KeepsTime m ts ts' (t'.toNat - t.toNat) ↔
      m = .audio 44100 ∧ t'.toNat = t.toNat + (c'.tickOf t').toNat + 1 ∧
        10 ∣ (c'.tickOf t').toNat := by
  obtain ⟨hfirst, hrest⟩ := hfollows
  have hpos : t ≠ 0 := (hfirst t rfl).1
  have hstep : c.step (.build m parts t) = _ := step_build_first hbase parts
  have hzero : (c.step (.build m parts t)).1.stamp.base = t := by rw [hstep]
  have hrange : InRange (c.step (.build m parts t)).1 := by
    rw [hstep]
    exact fun _ => ⟨le_rfl, Nat.le_add_right ..⟩
  obtain ⟨hkept, hrange', hfollows'⟩ := base_final hzero hpos hrange hrest hkeeps rfl
  rw [hc'] at hkept hrange' hfollows'
  have hbase' : c'.stamp.base ≠ 0 := hkept ▸ hpos
  have hnext := (hfollows' t' rfl).2 hbase'
  obtain ⟨hrel, hlt, hmax⟩ := relative_toNat hrange' hbase' hnext
  have hle := (hrange' hbase').1
  have hless : (c'.tickOf t').toNat < (t' - c'.stamp.base).toNat := senderTick_lt (by omega)
  rw [hstep] at hts
  obtain rfl := Option.some.inj hts
  obtain rfl := Option.some.inj ((step_build_snd hbase' hnext parts').symm.trans hts')
  have hsame : c'.stamp.base.toNat = t.toNat := congrArg BitVec.toNat hkept
  rw [keepsTime_of_less hm (by omega) (by omega)]
  refine and_congr_right fun _ => and_congr_left fun _ => ?_
  omega

/-- Two packets after the one that took the base. -/
theorem keepsTime_later (hm : m.Supported) (hrange : InRange c) (hbase : c.stamp.base ≠ 0)
    (hfollows : Run.Along MediaClock.step Follows c
      (.build m parts t :: (mid ++ [.build m parts' t'])))
    (hkeeps : Run.Along MediaClock.step KeepsBase (c.step (.build m parts t)).1
      (mid ++ [.build m parts' t']))
    (hc' : Run.final MediaClock.step (c.step (.build m parts t)).1 mid = c')
    (hts : (c.step (.build m parts t)).2 = some ts)
    (hts' : (c'.step (.build m parts' t')).2 = some ts') :
    KeepsTime m ts ts' (t'.toNat - t.toNat) ↔
      (m = .audio 96000 → (c.tickOf t).toNat * 96 / 2 ^ 32 = (c'.tickOf t').toNat * 96 / 2 ^ 32) := by
  obtain ⟨hfirst, hrest⟩ := hfollows
  have hnext := (hfirst t rfl).2 hbase
  have hkept : (c.step (.build m parts t)).1.stamp.base ≠ 0 := fun hnone =>
    not_along_keepsBase hnone rfl hkeeps
  obtain ⟨timeOrg, hanchored, hsum⟩ := anchored_step_build hbase hrange hnext parts hkept
  obtain ⟨hanchored', hrange', hfollows'⟩ :=
    hanchored.final (hrange.step hfirst) hrest hkeeps rfl
  rw [hc'] at hanchored' hrange' hfollows'
  have hbase' : c'.stamp.base ≠ 0 := hanchored'.base_eq ▸ hbase
  have hnext' := (hfollows' t' rfl).2 hbase'
  obtain ⟨-, hsum'⟩ := hanchored'.orgFor_eq hrange' hnext'
  obtain ⟨-, hlt', hmax'⟩ := relative_toNat hrange' hbase' hnext'
  have hsum' : (c'.tickOf t').toNat + timeOrg.toNat + c.stamp.base.toNat = t'.toNat := hsum'
  have hle := hanchored'.last_le
  obtain rfl := Option.some.inj ((step_build_snd hbase hnext parts).symm.trans hts)
  obtain rfl := Option.some.inj ((step_build_snd hbase' hnext' parts').symm.trans hts')
  rw [hanchored'.base_eq] at hmax'
  exact keepsTime_of_exact hm (by omega) (by omega)

/-- **Two timestamps of a run.** They differ by what has passed, exactly when `TimeKept`. -/
theorem keepsTime_iff_timeKept (hm : m.Supported) (hrange : InRange c)
    (hfollows : Run.Along MediaClock.step Follows c
      (.build m parts t :: (mid ++ [.build m parts' t'])))
    (hkeeps : Run.Along MediaClock.step KeepsBase (c.step (.build m parts t)).1
      (mid ++ [.build m parts' t']))
    (hc' : Run.final MediaClock.step (c.step (.build m parts t)).1 mid = c')
    (hts : (c.step (.build m parts t)).2 = some ts)
    (hts' : (c'.step (.build m parts' t')).2 = some ts') :
    KeepsTime m ts ts' (t'.toNat - t.toNat) ↔ TimeKept m c c' t t' := by
  rw [TimeKept]
  split_ifs with hbase
  · exact keepsTime_first hm hbase hfollows hkeeps hc' hts hts'
  · exact keepsTime_later hm hrange hbase hfollows hkeeps hc' hts hts'

end Lives

end ReachEdukit
