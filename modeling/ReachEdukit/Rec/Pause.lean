import ReachEdukit.Rec.Mp4Record

/-!
# Pauses of a recording

When a recording is paused and resumed, the time in between should not show up in the file: with
`T` the last pts before the pause and `t₀` the tick of the stream's first packet after it, a later
packet with tick `t` should come no later than `T + (t - t₀) + 1`.

Whether it does depends on the reference tick. The resume block refreshes the reference of *one*
stream, the one whose packet comes first. Video waits for a key frame and refreshes its own while
it waits. Audio waits for the same key frame; when that comes before any audio packet, the first
audio packet is written against the reference of before the pause, and the pause is counted.

## Main definitions

* `Cut` — a run cut at a pause and the resume after it
* `PauseNotRecorded` — the bound, for every cut of a run and both streams
* `FreshReferences` — no packet after a resume is measured against an older reference

## Main results

* `pauseNotRecorded_iff` — the bound holds of exactly the runs with fresh references
* `pause_is_recorded` — a run in which a pause of a minute is counted
-/

namespace ReachEdukit

namespace Mp4Record

/-! ### Cuts of a run -/

/-- The ticks of the packets of a stream, in order. -/
def ticks (σ : Stream) (ps : List ParseData) : List ℤ :=
  (ps.filter fun pd => pd.stream = σ).map ParseData.timeTick

/-- The ticks of the packets of a stream that a run handles. -/
def handledTicks (σ : Stream) (es : List Event) : List ℤ := ticks σ (es.filterMap Event.handled)

/-- A run cut around a pause: `pre` runs up to it, `mid` sees it and handles no packet, and `seg`
is the recording after the resume, up to the next pause at most. -/
structure Cut (es pre mid seg rest : List Event) : Prop where
  /-- The parts make up the run. -/
  split : es = pre ++ mid ++ seg ++ rest
  /-- No packet is handled in the middle. -/
  quiet : ∀ ev ∈ mid, ev.handled = none
  /-- The pause is seen there. -/
  paused : ∃ ev ∈ mid, ev.Pauses
  /-- After it, no pause is seen. -/
  on : ∀ ev ∈ seg, ¬ ev.Pauses

/-- The loop after a run from its start. -/
abbrev after (info : RecordInfo) (es : List Event) : Loop := Run.final (step info) init es

/-- Pause time is not recorded. -/
def PauseNotRecorded (info : RecordInfo) (es : List Event) : Prop :=
  ∀ pre mid seg rest, Cut es pre mid seg rest → ∀ (σ : Stream) (T t₀ : ℤ),
    T ∈ ((written info σ init pre).map Prod.snd).getLast? → t₀ ∈ (handledTicks σ seg).head? →
    ∀ w ∈ written info σ (after info (pre ++ mid)) seg, w.2 ≤ T + (w.1 - t₀) + 1

/-- The packet `.packet rs pd mux`, read in the state `s` after the part `seg` of a stretch, is
not measured against an older reference: neither the one its stream kept from before the pause,
unless that is but one tick away, nor the zero the start of the file sets, unless the stretch
itself starts there. -/
def Fresh (info : RecordInfo) (seg : List Event) (s : Loop) (pd : ParseData) (mux : Muxer) :
    Prop :=
  (handledTicks pd.stream seg = [] → s.KeepsReference pd →
      pd.timeTick - (s.clock pd.stream).reftime ≤ 1) ∧
    (s.StartsFile info pd mux →
      ∀ t₀ ∈ (handledTicks pd.stream seg ++ [pd.timeTick]).head?, t₀ ≤ 1)

/-- No packet after a resume is measured against an older reference, once its stream has been
written to. -/
def FreshReferences (info : RecordInfo) (es : List Event) : Prop :=
  ∀ pre mid seg rs pd mux rest, Cut es pre mid (seg ++ [.packet rs pd mux]) rest →
    written info pd.stream init pre ≠ [] → (after info (pre ++ mid ++ seg)).running = true →
    Fresh info seg (after info (pre ++ mid ++ seg)) pd mux

/-- The ticks of each stream are 32-bit and increase, whether or not the packets are handled. -/
structure TicksRise (es : List Event) : Prop where
  /-- They increase. -/
  rise : ∀ σ, (ticks σ (es.filterMap Event.data)).Pairwise (· < ·)
  /-- They are 32-bit. -/
  range : ∀ ev ∈ es, ∀ t ∈ ev.timeTick, 0 ≤ t ∧ t < 2 ^ 32

theorem handledTicks_append (σ : Stream) (es fs : List Event) :
    handledTicks σ (es ++ fs) = handledTicks σ es ++ handledTicks σ fs := by
  simp [handledTicks, ticks]

theorem handledTicks_singleton {ev : Event} {pd : ParseData} (h : ev.handled = some pd)
    (σ : Stream) : handledTicks σ [ev] = if pd.stream = σ then [pd.timeTick] else [] := by
  by_cases hσ : pd.stream = σ <;> simp [handledTicks, ticks, h, hσ]

theorem handledTicks_singleton_none {ev : Event} (h : ev.handled = none) (σ : Stream) :
    handledTicks σ [ev] = [] := by
  simp [handledTicks, ticks, h]

/-- The packets handled are among those that arrive. -/
theorem filterMap_handled_sublist (es : List Event) :
    (es.filterMap Event.handled).Sublist (es.filterMap Event.data) := by
  induction es with
  | nil => exact .slnil
  | cons ev es ih =>
    cases h : ev.handled with
    | none =>
      rw [List.filterMap_cons_none h]
      cases hd : ev.data with
      | none => rwa [List.filterMap_cons_none hd]
      | some pd =>
        rw [List.filterMap_cons_some hd]
        exact ih.cons _
    | some pd =>
      rw [List.filterMap_cons_some h, List.filterMap_cons_some (Event.data_of_handled h)]
      exact ih.cons_cons _

theorem handledTicks_pairwise {es : List Event} (h : TicksRise es) (σ : Stream) :
    (handledTicks σ es).Pairwise (· < ·) :=
  (h.rise σ).sublist (((filterMap_handled_sublist es).filter _).map _)

/-! ### Up to the resume -/

/-- Audio is written only into a file whose streams are added. -/
structure Loop.Started (s : Loop) : Prop where
  /-- The wait for a key frame ends no earlier. -/
  firstIframe : s.firstIframe = true → s.firststartRecord = false
  /-- The audio clock starts no earlier. -/
  audio : s.audio.flag = true → s.firststartRecord = false

theorem Clock.stamp_flag_of_flag {c : Clock} (hc : c.Sound) (hf : c.flag = true) (t : ℤ) :
    (c.stamp t).flag = true := by
  rw [stamp_of_flag hc hf]
  exact hf

variable {info : RecordInfo} {σ : Stream} {s : Loop} {pd : ParseData} {mux : Muxer}

/-- The audio clock starts on a packet that finds the wait for a key frame over. -/
theorem Loop.Started.handle (h : s.Started) : (s.handle info pd mux).1.Started := by
  have hiff := s.handle_firststartRecord info pd mux
  have hkeep : s.firststartRecord = false →
      (s.handle info pd mux).1.firststartRecord = false := by
    intro hs
    by_contra hne
    simp [hiff, hs] at hne
  refine ⟨fun hi => ?_, fun ha => ?_⟩
  · rcases Loop.handle_firstIframe hi with h' | h'
    · exact hkeep (h.firstIframe h')
    · exact h'
  · by_cases hst : s.StartsFile info pd mux
    · by_contra hne
      simp [hiff, hst] at hne
    · refine hkeep ?_
      change ((s.handle info pd mux).1.clock .audio).flag = true at ha
      by_cases hσ : pd.stream = .audio
      · have hda : pd.dataType = .audio := by
          by_contra hne
          simp [ParseData.stream, hne] at hσ
        rw [← hσ] at ha
        rcases s.handle_own info pd mux with ⟨hc, -⟩ | ⟨ref, hc, -, hr⟩
        · rw [hc, hσ] at ha
          exact h.audio ha
        · rcases hr with ⟨hs, -⟩ | ⟨-, ⟨hk, -⟩ | ⟨-, hne, -⟩⟩
          · exact absurd hs hst
          · exact h.firstIframe (hk.2 (.inl hda))
          · exact absurd hda hne
      · obtain ⟨hc | ⟨hs, -⟩, -⟩ := s.handle_of_ne info mux (Ne.symm hσ)
        · rw [hc] at ha
          exact h.audio ha
        · exact absurd hs hst

theorem started_after (info : RecordInfo) (es : List Event) : (after info es).Started := by
  refine Run.final_invariant (I := Loop.Started) (fun s hs ev _ => ?_)
    ⟨fun h => by simp [init] at h, fun h => by simp [init, Clock.init] at h⟩
  cases hrun : s.running
  · rwa [step_of_not_running hrun]
  cases hh : ev.handled with
  | none =>
    obtain ⟨-, ⟨ref, -, hc⟩, hf, hi, -⟩ := step_of_not_handled info .audio s hh
    refine ⟨fun h => hf.trans (hs.firstIframe (hi h)), fun h => hf.trans (hs.audio ?_)⟩
    change ((step info s ev).1.clock .audio).flag = true at h
    rwa [hc] at h
  | some pd =>
    obtain ⟨mux, hstep⟩ := step_of_handled info hrun hh
    rw [hstep]
    exact hs.handle

/-- The last pts written for a stream is the pts its clock stands on. -/
theorem written_getLast (info : RecordInfo) (σ : Stream) {s : Loop} (hs : (s.clock σ).Sound)
    (es : List Event) :
    ∀ T ∈ ((written info σ s es).map Prod.snd).getLast?,
      ((Run.final (step info) s es).clock σ).flag = true ∧
        ((Run.final (step info) s es).clock σ).pts = T := by
  induction es using List.reverseRecOn with
  | nil => simp [written]
  | append_singleton es ev ih =>
    intro T hT
    have hturn := step_turn info σ (Run.final (step info) s es) ev
    have hsound := sound_final info σ hs es
    rw [written_append, List.map_append] at hT
    rw [Run.final_append, Run.final_cons, Run.final_nil]
    have hone : written info σ (Run.final (step info) s es) [ev] =
        (track info σ (Run.final (step info) s es) ev).2 := by
      simp [written]
    rw [hone] at hT
    change ((track info σ (Run.final (step info) s es) ev).1.clock σ).flag = true ∧
      ((track info σ (Run.final (step info) s es) ev).1.clock σ).pts = T
    generalize (track info σ (Run.final (step info) s es) ev).1.clock σ = c' at hturn ⊢
    generalize (track info σ (Run.final (step info) s es) ev).2 = w at hturn hT
    cases hturn with
    | quiet ref base hr hb =>
      rw [List.map_nil, List.append_nil] at hT
      exact ih T hT
    | stamped ref base t hr hb ht =>
      have hr' := hsound.rebase hr hb
      rw [List.map_singleton, List.getLast?_append, List.getLast?_singleton] at hT
      obtain rfl : _ = T := by simpa using hT
      refine ⟨?_, rfl⟩
      cases hf : ((Run.final (step info) s es).clock σ).flag
      · rw [Clock.stamp_of_fresh hr' hf]
      · exact Clock.stamp_flag_of_flag hr' hf t

/-! ### After the resume -/

/-- A stream that has been written to, on a stretch after a resume: `T` is its last pts before
the pause, `seen` its ticks handled since. -/
structure Resumed (σ : Stream) (T : ℤ) (seen : List ℤ) (s : Loop) : Prop where
  /-- The clock is sound. -/
  sound : (s.clock σ).Sound
  /-- The stream has been written to. -/
  flag : (s.clock σ).flag = true
  /-- The streams are in the file if it is the audio stream. -/
  started : σ = .audio → s.firststartRecord = false
  /-- Before the resume block no packet has been handled. -/
  waiting : s.recordFlag = true → seen = []
  /-- Behind it the pause base is the last pts before the pause. -/
  base : s.recordFlag = false → (s.clock σ).pausePts = T
  /-- That is still the last pts while no packet has been handled. -/
  unseen : seen = [] → (s.clock σ).pts = T

theorem Resumed.pauseBase {T : ℤ} {seen : List ℤ} (h : Resumed σ T seen s) :
    s.pauseBase σ = T := by
  rw [Loop.pauseBase]
  cases hr : s.recordFlag
  · exact h.base hr
  · exact h.unseen (h.waiting hr)

/-- A turn of the stretch that handles no packet. -/
theorem step_of_idle (info : RecordInfo) (s : Loop) {ev : Event} (hh : ev.handled = none)
    (hp : ¬ ev.Pauses) : ∃ r, (step info s ev).1 = { s with running := r } := by
  cases hrun : s.running
  · exact ⟨s.running, by rw [step_of_not_running hrun]⟩
  cases ev with
  | empty first second =>
    have hp' : first ≠ .pause := hp
    by_cases hc : second = .close
    · exact ⟨false, by simp [step, hrun, hp', hc]⟩
    · have hs : step info s (.empty first second) = (s, []) := by simp [step, hrun, hp', hc]
      exact ⟨s.running, by rw [hs]⟩
  | packet rs pd mux =>
    have : rs = .pause := by simpa [Event.handled] using hh
    exact absurd this hp

theorem Resumed.idle {T : ℤ} {seen : List ℤ} (h : Resumed σ T seen s) (r : Bool) :
    Resumed σ T seen { s with running := r } := by
  have hc : ({ s with running := r } : Loop).clock σ = s.clock σ := by cases σ <;> rfl
  exact ⟨hc ▸ h.sound, hc ▸ h.flag, h.started, h.waiting, fun hr => hc ▸ h.base hr,
    fun hs => hc ▸ h.unseen hs⟩

/-- The packet that starts the file is video, so a stream that is in use has its reference reset
only if it is the packet's own. -/
theorem Resumed.not_startsFile {T : ℤ} {seen : List ℤ} (h : Resumed σ T seen s)
    (hσ : σ ≠ pd.stream) : ¬ s.StartsFile info pd mux := by
  rintro ⟨hs, hv, -⟩
  have hpd : pd.stream = .video := by simp [ParseData.stream, hv]
  cases σ with
  | audio => simp [h.started rfl] at hs
  | video => exact hσ hpd.symm

theorem Resumed.handle {T : ℤ} {seen : List ℤ} (h : Resumed σ T seen s) :
    Resumed σ T (seen ++ if pd.stream = σ then [pd.timeTick] else [])
      (s.handle info pd mux).1 := by
  have hr : (s.handle info pd mux).1.recordFlag = false := Loop.handle_recordFlag
  have hwait : (s.handle info pd mux).1.recordFlag = true →
      seen ++ (if pd.stream = σ then [pd.timeTick] else []) = [] := by simp [hr]
  have hstarted : σ = .audio → (s.handle info pd mux).1.firststartRecord = false := by
    intro hσ
    by_contra hne
    have := (s.handle_firststartRecord info pd mux).mp (Bool.not_eq_false _ ▸ hne)
    simp [h.started hσ] at this
  by_cases hσ : σ = pd.stream
  · subst hσ
    have hbase : s.pauseBase pd.stream = (s.clock pd.stream).pausePts ∨
        s.pauseBase pd.stream = (s.clock pd.stream).pts := s.pauseBase_eq _
    have hseen : seen ++ (if pd.stream = pd.stream then [pd.timeTick] else []) ≠ [] := by simp
    rcases s.handle_own info pd mux with ⟨hc, -⟩ | ⟨ref, hc, -, href⟩
    · have hs := h.sound.rebase (.inr (u32_nonneg pd.timeTick)) hbase
      refine ⟨by rw [hc]; exact hs, by rw [hc]; exact h.flag, hstarted, hwait, fun _ => ?_,
        fun h => absurd h hseen⟩
      rw [hc, Clock.rebase_pausePts, h.pauseBase]
    · have hr : ref = (s.clock pd.stream).reftime ∨ 0 ≤ ref := by
        rcases href with ⟨-, rfl⟩ | ⟨-, ⟨-, rfl⟩ | ⟨-, -, rfl⟩⟩
        · exact .inr le_rfl
        · exact .inl rfl
        · exact .inr (u32_nonneg _)
      have hs := h.sound.rebase hr hbase
      refine ⟨by rw [hc]; exact hs.stamp _, ?_, hstarted, hwait, fun _ => ?_,
        fun h => absurd h hseen⟩
      · rw [hc]
        exact Clock.stamp_flag_of_flag hs h.flag _
      · rw [hc, Clock.stamp_of_flag hs h.flag]
        exact h.pauseBase
  · rw [if_neg (Ne.symm hσ), List.append_nil] at hwait ⊢
    obtain ⟨hc | ⟨hs, -⟩, -⟩ := s.handle_of_ne info mux hσ
    · refine ⟨?_, by rw [hc]; exact h.flag, hstarted, hwait, fun _ => ?_, fun hs => ?_⟩
      · rw [hc]
        exact h.sound.rebase (.inl rfl) (s.pauseBase_eq σ)
      · rw [hc, Clock.rebase_pausePts, h.pauseBase]
      · rw [hc, Clock.rebase_pts, h.unseen hs]
    · exact absurd hs (h.not_startsFile hσ)

/-- The stretch keeps the facts of `Resumed` for as long as the thread is in its loop. -/
theorem resumed_run (info : RecordInfo) {T : ℤ} {seg : List Event} (hon : ∀ ev ∈ seg, ¬ ev.Pauses)
    (h : s.running = true → Resumed σ T [] s) :
    (Run.final (step info) s seg).running = true →
      Resumed σ T (handledTicks σ seg) (Run.final (step info) s seg) := by
  induction seg using List.reverseRecOn with
  | nil => exact h
  | append_singleton seg ev ih =>
    rw [Run.final_append, handledTicks_append, Run.final_cons, Run.final_nil]
    have hpr := ih fun e he => hon e (List.mem_append_left _ he)
    have hev := hon ev (by simp)
    generalize Run.final (step info) s seg = u at hpr ⊢
    intro hrun'
    cases hrun : u.running
    · rw [step_of_not_running hrun, hrun] at hrun'
      exact absurd hrun' (by simp)
    cases hh : ev.handled with
    | none =>
      obtain ⟨r, hr⟩ := step_of_idle info u hh hev
      rw [hr, handledTicks_singleton_none hh, List.append_nil]
      exact (hpr hrun).idle r
    | some pd =>
      obtain ⟨mux, hstep⟩ := step_of_handled info hrun hh
      rw [hstep, handledTicks_singleton hh]
      exact (hpr hrun).handle

/-! ### Through the pause -/

/-- While no packet is handled a stream's pts stands, and the first pause seen asks for a resume
block. -/
theorem quiet_run (info : RecordInfo) (s : Loop) {mid : List Event}
    (hq : ∀ ev ∈ mid, ev.handled = none) (σ : Stream) :
    ((Run.final (step info) s mid).clock σ).flag = (s.clock σ).flag ∧
      ((Run.final (step info) s mid).clock σ).pts = (s.clock σ).pts ∧
      (Run.final (step info) s mid).firststartRecord = s.firststartRecord ∧
      ((Run.final (step info) s mid).running = true → s.running = true ∧
        (s.recordFlag = true ∨ (∃ ev ∈ mid, ev.Pauses) →
          (Run.final (step info) s mid).recordFlag = true)) := by
  induction mid generalizing s with
  | nil => simp
  | cons ev mid ih =>
    have hone := step_of_not_handled info σ s (hq ev (List.mem_cons_self ..))
    have hrest := ih (step info s ev).1 fun e he => hq e (List.mem_cons_of_mem _ he)
    obtain ⟨-, ⟨ref, -, hc⟩, hf, -, hr⟩ := hone
    obtain ⟨hflag, hpts, hfirst, hrun⟩ := hrest
    rw [Run.final_cons]
    refine ⟨by rw [hflag, hc]; rfl, by rw [hpts, hc]; rfl, hfirst.trans hf, fun h => ?_⟩
    obtain ⟨h₁, hrec⟩ := hrun h
    obtain ⟨h₀, hrec₀⟩ := hr h₁
    refine ⟨h₀, ?_⟩
    rintro (hs | ⟨e, he, hp⟩)
    · exact hrec (.inl (hrec₀ (.inl hs)))
    · rcases List.mem_cons.mp he with rfl | he
      · exact hrec (.inl (hrec₀ (.inr hp)))
      · exact hrec (.inr ⟨e, he, hp⟩)

theorem Clock.sound_after (info : RecordInfo) (σ : Stream) (es : List Event) :
    ((after info es).clock σ).Sound :=
  sound_final info σ (by cases σ <;> exact Clock.sound_init) es

/-- The stretch starts well. -/
theorem Cut.resumed {es pre mid seg rest : List Event} (h : Cut es pre mid seg rest) {T : ℤ}
    (hT : T ∈ ((written info σ init pre).map Prod.snd).getLast?) :
    (after info (pre ++ mid)).running = true → Resumed σ T [] (after info (pre ++ mid)) := by
  have hinit : (init.clock σ).Sound := by cases σ <;> exact Clock.sound_init
  have hsound := Clock.sound_after info σ (pre ++ mid)
  have hstarted := started_after info pre
  obtain ⟨hflag, hpts⟩ := written_getLast info σ hinit pre T hT
  rw [after, Run.final_append] at hsound ⊢
  obtain ⟨hf, hp, hfirst, hrun⟩ := quiet_run info (after info pre) h.quiet σ
  intro hr
  have hrec := (hrun hr).2 (.inr h.paused)
  refine ⟨hsound, hf.trans hflag, fun hσ => ?_, fun _ => rfl, fun hne => ?_, fun _ => ?_⟩
  · subst hσ
    exact hfirst.trans (hstarted.audio hflag)
  · simp [hrec] at hne
  · exact hp.trans hpts

/-! ### The timeline of a stretch -/

/-- How far the timeline has come on a stretch: the reference is none from before it, and the
last pts is within the bound. -/
def Counted (σ : Stream) (T : ℤ) (seen : List ℤ) (s : Loop) : Prop :=
  ∀ t₀ ∈ seen.head?, ∀ t ∈ seen.getLast?,
    t₀ - 1 ≤ (s.clock σ).reftime ∧ (s.clock σ).pts ≤ T + (t - t₀) + 1

theorem counted_snoc {T t : ℤ} {seen : List ℤ} :
    Counted σ T (seen ++ [t]) s ↔ ∀ t₀ ∈ (seen ++ [t]).head?,
      t₀ - 1 ≤ (s.clock σ).reftime ∧ (s.clock σ).pts ≤ T + (t - t₀) + 1 := by
  simp [Counted]

/-- One handled packet of the stream keeps the timeline, and what it writes is within the bound. -/
theorem Resumed.counted_handle {T : ℤ} {seg : List Event}
    (h : Resumed pd.stream T (handledTicks pd.stream seg) s)
    (hc : Counted pd.stream T (handledTicks pd.stream seg) s) (hfresh : Fresh info seg s pd mux)
    (ht : 0 ≤ pd.timeTick ∧ pd.timeTick < 2 ^ 32)
    (hrise : ∀ t ∈ handledTicks pd.stream seg, t < pd.timeTick) :
    Counted pd.stream T (handledTicks pd.stream seg ++ [pd.timeTick]) (s.handle info pd mux).1 ∧
      ∀ w ∈ (s.handle info pd mux).2.filterMap (Out.written pd.stream),
        ∀ t₀ ∈ (handledTicks pd.stream seg ++ [pd.timeTick]).head?, w.2 ≤ T + (w.1 - t₀) + 1 := by
  have hu : u32 pd.timeTick = pd.timeTick := Int.emod_eq_of_lt ht.1 ht.2
  have hbase := h.pauseBase
  -- `t₀` is the first tick of the stretch, and the last pts leaves room for one more
  have hfirst : ∀ t₀ ∈ (handledTicks pd.stream seg ++ [pd.timeTick]).head?,
      t₀ ≤ pd.timeTick ∧ (s.clock pd.stream).pts + 1 ≤ T + (pd.timeTick - t₀) + 1 ∧
      (s.KeepsReference pd → t₀ - 1 ≤ (s.clock pd.stream).reftime) := by
    intro t₀ ht₀
    cases hseen : handledTicks pd.stream seg with
    | nil =>
      rw [hseen] at ht₀
      obtain rfl : pd.timeTick = t₀ := by simpa using ht₀
      refine ⟨le_rfl, by have := h.unseen hseen; omega, fun hk => ?_⟩
      have := hfresh.1 hseen hk
      omega
    | cons a l =>
      rw [hseen] at ht₀
      obtain rfl : a = t₀ := by simpa using ht₀
      have hlast : (a :: l).getLast (by simp) ∈ handledTicks pd.stream seg := by
        rw [hseen]
        exact List.getLast_mem _
      have hlt := hrise _ hlast
      obtain ⟨hle, hpts⟩ := hc a (by simp [hseen]) _ (by
        rw [hseen]; exact List.getLast?_eq_getLast_of_ne_nil (by simp))
      have ha := hrise a (by simp [hseen])
      exact ⟨by omega, by omega, fun _ => hle⟩
  have hkept : ∀ t₀ ∈ (handledTicks pd.stream seg ++ [pd.timeTick]).head?,
      t₀ - 1 ≤ ((s.handle info pd mux).1.clock pd.stream).reftime ∧
        ((s.handle info pd mux).1.clock pd.stream).pts ≤ T + (pd.timeTick - t₀) + 1 := by
    intro t₀ ht₀
    obtain ⟨hle, hroom, hkeep⟩ := hfirst t₀ ht₀
    rcases s.handle_own info pd mux with ⟨hcl, -⟩ | ⟨ref, hcl, -, href⟩
    · rw [hcl, Clock.rebase_reftime, Clock.rebase_pts, hu]
      omega
    · have hr : ref = (s.clock pd.stream).reftime ∨ 0 ≤ ref := by
        rcases href with ⟨-, rfl⟩ | ⟨-, ⟨-, rfl⟩ | ⟨-, -, rfl⟩⟩
        · exact .inr le_rfl
        · exact .inl rfl
        · exact .inr (u32_nonneg _)
      have href' : t₀ - 1 ≤ ref := by
        rcases href with ⟨hs, rfl⟩ | ⟨-, ⟨hk, rfl⟩ | ⟨-, -, rfl⟩⟩
        · have := hfresh.2 hs t₀ ht₀
          omega
        · exact hkeep hk
        · omega
      rw [hcl, Clock.stamp_of_flag (h.sound.rebase hr (s.pauseBase_eq _)) h.flag]
      simp only [Clock.rebase_reftime, Clock.rebase_pts, Clock.rebase_pausePts, hbase]
      omega
  refine ⟨counted_snoc.mpr hkept, fun w hmem t₀ ht₀ => ?_⟩
  rcases s.handle_own info pd mux with ⟨-, hw, -⟩ | ⟨-, -, hw, -⟩
  · rw [hw] at hmem
    exact absurd hmem (by simp)
  · rw [hw] at hmem
    obtain rfl := List.mem_singleton.mp hmem
    exact (hkept t₀ ht₀).2

/-- One turn of the stretch. -/
theorem Resumed.counted_step {T : ℤ} {seg : List Event} {ev : Event}
    (h : Resumed σ T (handledTicks σ seg) s) (hc : Counted σ T (handledTicks σ seg) s)
    (hrun : s.running = true) (hp : ¬ ev.Pauses)
    (hfresh : ∀ rs pd mux, ev = .packet rs pd mux → pd.stream = σ → Fresh info seg s pd mux)
    (hrise : (handledTicks σ (seg ++ [ev])).Pairwise (· < ·))
    (hrange : ∀ t ∈ ev.timeTick, 0 ≤ t ∧ t < 2 ^ 32) :
    Counted σ T (handledTicks σ (seg ++ [ev])) (step info s ev).1 ∧
      ∀ w ∈ (track info σ s ev).2,
        ∀ t₀ ∈ (handledTicks σ (seg ++ [ev])).head?, w.2 ≤ T + (w.1 - t₀) + 1 := by
  cases hh : ev.handled with
  | none =>
    obtain ⟨hw, -⟩ := step_of_not_handled info σ s hh
    obtain ⟨r, hr⟩ := step_of_idle info s hh hp
    have hcl : ({ s with running := r } : Loop).clock σ = s.clock σ := by cases σ <;> rfl
    rw [handledTicks_append, handledTicks_singleton_none hh, List.append_nil, hw, hr]
    exact ⟨fun t₀ ht₀ t ht => hcl ▸ hc t₀ ht₀ t ht, by simp⟩
  | some pd =>
    have hpd : ∃ rs mux, ev = .packet rs pd mux := by
      cases ev with
      | empty => simp [Event.handled] at hh
      | packet rs pd' mux =>
        simp only [Event.handled, Option.ite_none_left_eq_some, Option.some.injEq] at hh
        exact ⟨rs, mux, by rw [hh.2]⟩
    obtain ⟨rs, mux, rfl⟩ := hpd
    have hrs : rs ≠ .pause := hp
    have hstep : step info s (.packet rs pd mux) = s.handle info pd mux := by
      simp [step, hrun, hrs]
    rw [handledTicks_append, handledTicks_singleton hh] at hrise ⊢
    rw [track, hstep]
    by_cases hσ : pd.stream = σ
    · subst hσ
      rw [if_pos rfl] at hrise ⊢
      have hlt := (List.pairwise_append.mp hrise).2.2
      exact h.counted_handle hc (hfresh rs pd mux rfl rfl) (hrange _ rfl)
        fun t ht => hlt t ht _ (by simp)
    · rw [if_neg hσ, List.append_nil]
      obtain ⟨hcl | ⟨hs, -⟩, hw⟩ := s.handle_of_ne info mux (Ne.symm hσ)
      · rw [hw]
        refine ⟨fun t₀ ht₀ t ht => ?_, by simp⟩
        rw [hcl]
        exact hc t₀ ht₀ t ht
      · exact absurd hs (h.not_startsFile (Ne.symm hσ))

theorem written_singleton (ev : Event) : written info σ s [ev] = (track info σ s ev).2 := by
  simp [written]

/-- Nothing is written for a stream without a handled packet of it. -/
theorem written_eq_nil {seg : List Event} (h : handledTicks σ seg = []) :
    written info σ s seg = [] := by
  induction seg generalizing s with
  | nil => rfl
  | cons ev seg ih =>
    rw [← List.singleton_append, handledTicks_append, List.append_eq_nil_iff] at h
    rw [← List.singleton_append, written_append, ih h.2, List.append_nil, written_singleton]
    cases hrun : s.running
    · rw [track, step_of_not_running hrun, List.filterMap_nil]
    cases hh : ev.handled with
    | none => exact (step_of_not_handled info σ s hh).1
    | some pd =>
      have hσ : pd.stream ≠ σ := by
        rintro rfl
        simp [handledTicks_singleton hh] at h
      obtain ⟨mux, hstep⟩ := step_of_handled info hrun hh
      rw [track, hstep]
      exact (s.handle_of_ne info mux (Ne.symm hσ)).2

/-- The bound along a stretch whose packets all find fresh references. -/
theorem counted_run {T : ℤ} {seg : List Event} (hon : ∀ ev ∈ seg, ¬ ev.Pauses)
    (h : s.running = true → Resumed σ T [] s)
    (hfresh : ∀ a rs pd mux b, seg = a ++ .packet rs pd mux :: b → pd.stream = σ →
      (Run.final (step info) s a).running = true →
      Fresh info a (Run.final (step info) s a) pd mux)
    (hrise : (handledTicks σ seg).Pairwise (· < ·))
    (hrange : ∀ ev ∈ seg, ∀ t ∈ ev.timeTick, 0 ≤ t ∧ t < 2 ^ 32) :
    ((Run.final (step info) s seg).running = true →
        Counted σ T (handledTicks σ seg) (Run.final (step info) s seg)) ∧
      ∀ w ∈ written info σ s seg, ∀ t₀ ∈ (handledTicks σ seg).head?, w.2 ≤ T + (w.1 - t₀) + 1 := by
  induction seg using List.reverseRecOn with
  | nil => exact ⟨fun _ => by simp [Counted, handledTicks, ticks], by simp [written]⟩
  | append_singleton seg ev ih =>
    have hon' : ∀ e ∈ seg, ¬ e.Pauses := fun e he => hon e (List.mem_append_left _ he)
    have hrise' : (handledTicks σ seg).Pairwise (· < ·) := by
      rw [handledTicks_append] at hrise
      exact hrise.sublist (List.sublist_append_left _ _)
    obtain ⟨hrun, hwr⟩ := ih hon'
      (fun a rs pd mux b hab => hfresh a rs pd mux (b ++ [ev]) (by rw [hab]; simp)) hrise'
      (fun e he => hrange e (List.mem_append_left _ he))
    have hres := resumed_run info hon' h
    have hfr := fun rs pd mux (he : ev = .packet rs pd mux) =>
      hfresh seg rs pd mux [] (by rw [he])
    have hold : ∀ w ∈ written info σ s seg, ∀ t₀ ∈ (handledTicks σ (seg ++ [ev])).head?,
        w.2 ≤ T + (w.1 - t₀) + 1 := by
      intro w hw t₀ ht₀
      rw [handledTicks_append] at ht₀
      cases hseen : handledTicks σ seg with
      | nil => simp [written_eq_nil hseen] at hw
      | cons a l => exact hwr w hw t₀ (by simpa [hseen] using ht₀)
    rw [Run.final_append, Run.final_cons, Run.final_nil, written_append, written_singleton]
    generalize Run.final (step info) s seg = u at hrun hres hfr ⊢
    cases hu : u.running
    · rw [track, step_of_not_running hu, List.filterMap_nil, List.append_nil]
      exact ⟨fun h => absurd h (by simp [hu]), hold⟩
    · obtain ⟨hcount, hnew⟩ := (hres hu).counted_step (hrun hu) hu (hon ev (by simp))
        (fun rs pd mux he hσ => hfr rs pd mux he hσ hu) hrise (hrange ev (by simp))
      refine ⟨fun _ => hcount, fun w hw => ?_⟩
      exact (List.mem_append.mp hw).elim (hold w) (hnew w)

/-! ### The bound -/

theorem TicksRise.of_cut {es pre mid seg rest : List Event} (h : TicksRise es)
    (hc : Cut es pre mid seg rest) :
    (∀ σ, (handledTicks σ seg).Pairwise (· < ·)) ∧
      ∀ ev ∈ seg, ∀ t ∈ ev.timeTick, 0 ≤ t ∧ t < 2 ^ 32 := by
  refine ⟨fun σ => ?_, fun ev he => h.range ev (by rw [hc.split]; simp [he])⟩
  have hp := handledTicks_pairwise h σ
  rw [hc.split, handledTicks_append, handledTicks_append] at hp
  exact hp.sublist ((List.sublist_append_right _ _).trans (List.sublist_append_left _ _))

theorem pauseNotRecorded_of_fresh {es : List Event} (h : TicksRise es)
    (hf : FreshReferences info es) : PauseNotRecorded info es := by
  intro pre mid seg rest hcut σ T t₀ hT ht₀ w hw
  obtain ⟨hrise, hrange⟩ := h.of_cut hcut
  have hne : written info σ init pre ≠ [] := by
    rintro h0
    simp [h0] at hT
  refine (counted_run hcut.on (hcut.resumed hT) ?_ (hrise σ) hrange).2 w hw t₀ ht₀
  rintro a rs pd mux b rfl rfl hrun
  have hcut' : Cut es pre mid (a ++ [.packet rs pd mux]) (b ++ rest) :=
    ⟨by rw [hcut.split]; simp, hcut.quiet, hcut.paused,
      fun e he => hcut.on e (by simp only [List.mem_append, List.mem_singleton] at he; aesop)⟩
  have := hf pre mid a rs pd mux (b ++ rest) hcut' hne
  simp only [after, Run.final_append] at this hrun ⊢
  exact this hrun

/-- A packet that is measured against a reference `ref` gets at least the time since then. -/
theorem Resumed.le_written (info : RecordInfo) (mux : Muxer) {T : ℤ} {seen : List ℤ}
    (h : Resumed pd.stream T seen s)
    (hk : s.KeepsReference pd ∨ s.StartsFile info pd mux) :
    ∃ pts, (pd.timeTick, pts) ∈ (s.handle info pd mux).2.filterMap (Out.written pd.stream) ∧
      (s.StartsFile info pd mux → pd.timeTick + T ≤ pts) ∧
      (s.KeepsReference pd → pd.timeTick - (s.clock pd.stream).reftime + T ≤ pts) := by
  have hex : s.KeepsReference pd → ¬ s.StartsFile info pd mux := by
    rintro ⟨hr, hi⟩ ⟨-, hv, -, h | h, -⟩
    · simp [hr] at h
    · simp [hi (.inr hv)] at h
  rcases s.handle_own info pd mux with ⟨-, -, hnk, hns⟩ | ⟨ref, hc, hw, href⟩
  · exact absurd hk (by simp [hnk, hns])
  · rw [hw]
    have hr : ref = (s.clock pd.stream).reftime ∨ 0 ≤ ref := by
      rcases href with ⟨-, rfl⟩ | ⟨-, ⟨-, rfl⟩ | ⟨-, -, rfl⟩⟩
      · exact .inr le_rfl
      · exact .inl rfl
      · exact .inr (u32_nonneg _)
    have hle : pd.timeTick - ref + T ≤ ((s.handle info pd mux).1.clock pd.stream).pts := by
      rw [hc, Clock.stamp_of_flag (h.sound.rebase hr (s.pauseBase_eq _)) h.flag]
      simp only [Clock.rebase_reftime, Clock.rebase_pausePts, h.pauseBase]
      exact le_max_right _ _
    refine ⟨_, List.mem_singleton.mpr rfl, fun hs => ?_, fun hk => ?_⟩
    · rcases href with ⟨-, rfl⟩ | ⟨hns, -⟩
      · simpa using hle
      · exact absurd hs hns
    · rcases href with ⟨hs, -⟩ | ⟨-, ⟨-, rfl⟩ | ⟨hnk, -⟩⟩
      · exact absurd hs (hex hk)
      · exact hle
      · exact absurd hk hnk

theorem fresh_of_pauseNotRecorded {es : List Event} (h : PauseNotRecorded info es) :
    FreshReferences info es := by
  intro pre mid seg rs pd mux rest hcut hne hrun
  obtain ⟨T, hT⟩ : ∃ T, T ∈ ((written info pd.stream init pre).map Prod.snd).getLast? := by
    cases hl : ((written info pd.stream init pre).map Prod.snd).getLast? with
    | none => simp [hne] at hl
    | some T => exact ⟨T, rfl⟩
  have hon : ∀ ev ∈ seg, ¬ ev.Pauses := fun ev he => hcut.on ev (by simp [he])
  have hrs : rs ≠ .pause := hcut.on (.packet rs pd mux) (by simp)
  have hh : (Event.packet rs pd mux).handled = some pd := by simp [Event.handled, hrs]
  have hres : Resumed pd.stream T (handledTicks pd.stream seg)
      (after info (pre ++ mid ++ seg)) := by
    have := resumed_run info hon (hcut.resumed hT)
    rw [after, Run.final_append] at hrun ⊢
    exact this hrun
  -- what is written for the packet is written on the stretch
  have hmem : ∀ w ∈ ((after info (pre ++ mid ++ seg)).handle info pd mux).2.filterMap
        (Out.written pd.stream),
      w ∈ written info pd.stream (after info (pre ++ mid)) (seg ++ [.packet rs pd mux]) := by
    intro w hw
    rw [written_append, written_singleton]
    refine List.mem_append_right _ ?_
    have hstep : step info (after info (pre ++ mid ++ seg)) (.packet rs pd mux) =
        (after info (pre ++ mid ++ seg)).handle info pd mux := by
      simp only [step, hrun, if_true, if_neg hrs]
    rw [track, ← Run.final_append, hstep]
    exact hw
  have hticks : handledTicks pd.stream (seg ++ [.packet rs pd mux]) =
      handledTicks pd.stream seg ++ [pd.timeTick] := by
    rw [handledTicks_append, handledTicks_singleton hh, if_pos rfl]
  have hbound := h pre mid _ rest hcut pd.stream T
  rw [hticks] at hbound
  refine ⟨fun hseen hk => ?_, fun hs t₀ ht₀ => ?_⟩
  · obtain ⟨pts, hw, -, hle⟩ := hres.le_written info mux (.inl hk)
    have := hbound pd.timeTick hT (by simp [hseen]) _ (hmem _ hw)
    have := hle hk
    omega
  · obtain ⟨pts, hw, hle, -⟩ := hres.le_written info mux (.inr hs)
    have := hbound t₀ hT ht₀ _ (hmem _ hw)
    have := hle hs
    omega

/-- **Pause time is not recorded** in exactly the runs in which no packet after a resume is
measured against a reference from before it. -/
theorem pauseNotRecorded_iff (info : RecordInfo) {es : List Event} (h : TicksRise es) :
    PauseNotRecorded info es ↔ FreshReferences info es :=
  ⟨fresh_of_pauseNotRecorded, pauseNotRecorded_of_fresh h⟩

/-! ### A pause that is counted

Two audio packets, a pause of a minute, and a resume on which the key frame comes first. -/

/-- Audio at 44.1 kHz. -/
def sampleInfo : RecordInfo := ⟨44100, 128000⟩

/-- A muxer that adds and writes. -/
def sampleMux : Muxer := ⟨0, 1, 0⟩

/-- A handled packet. -/
def sample (c : Codec) (t : ℤ) : Event :=
  .packet .resume ⟨c, iFrame, t, 100, 1280, 720, 0⟩ sampleMux

/-- The recording up to the pause. -/
def beforePause : List Event := [sample .video 1000, sample .audio 1000, sample .audio 1020]

/-- The recording after it. -/
def afterPause : List Event := [sample .video 61000, sample .audio 61000]

theorem pause_is_recorded :
    TicksRise (beforePause ++ [.empty .pause .pause] ++ afterPause ++ []) ∧
      ¬ PauseNotRecorded sampleInfo
        (beforePause ++ [.empty .pause .pause] ++ afterPause ++ []) := by
  refine ⟨⟨fun σ => ?_, ?_⟩, fun h => ?_⟩
  · cases σ <;> decide
  · decide
  · have hcut : Cut (beforePause ++ [.empty .pause .pause] ++ afterPause ++ []) beforePause
        [.empty .pause .pause] afterPause [] :=
      ⟨rfl, by decide, by decide, by decide⟩
    have := h _ _ _ _ hcut .audio 20 61000 (by decide) (by decide) (61000, 60020) (by decide)
    omega

theorem pauseNotRecorded_iff_sample :
    PauseNotRecorded sampleInfo (beforePause ++ [.empty .pause .pause] ++ afterPause ++ []) ↔
      FreshReferences sampleInfo (beforePause ++ [.empty .pause .pause] ++ afterPause ++ []) :=
  pauseNotRecorded_iff sampleInfo
    ⟨fun σ => by cases σ <;> decide, by decide⟩

end Mp4Record

end ReachEdukit
