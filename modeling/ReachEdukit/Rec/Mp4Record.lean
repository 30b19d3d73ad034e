import ReachEdukit.Lib.Run

/-!
# The mp4 recorder

`mp4_record_process` is the thread that writes one course file. Each turn of its loop asks for a
packet, looks at the record status (recording, paused, closing) and, unless the packet is dropped,
hands it to the muxer with a presentation time (`pts`). The pts of a stream is built from a
reference tick (`Areftime`, `Vreftime`), the last pts written and the pts at which the recording
was paused, and it is these that the status and the packets of *both* streams move.

One turn is `step`; the packet callback, the status and the answers of the muxer are its input.
The audio and the video half keep the same five variables, so those are one `Clock` and the two
halves of the loop share `Clock.stamp`.

## What is left out

`audio_ok`, `video_ok` and `pause_ok` only gate log lines. The sends of the report to the course
thread may fail, which changes nothing here.

## On integers

`Areftime` and `Vreftime` are 32-bit and wrap (`u32`). The pts are `int64_t` and are integers
here: `written_pts_le` bounds them, and a run needs `2 ^ 31` turns before the bound reaches
`2 ^ 63`.

## Main results

* `step_turn` — what one turn does to the clock of a stream
* `written_pts_increase` — the pts written for a stream start at `0` and increase strictly
* `written_pts_le` — how large a pts can get in `n` turns
-/

namespace ReachEdukit

namespace Mp4Record

/-! ### Packets and status -/

/-- `record_status_t`. -/
inductive RecordStatus
  | resume
  | pause
  | close
  deriving DecidableEq, Repr

/-- `codec_t`, what a packet carries. -/
inductive Codec
  | video
  | audio
  | jpeg
  | xml
  deriving DecidableEq, Repr

/-- The two streams of a file: audio, and everything the loop writes as video. -/
inductive Stream
  | audio
  | video
  deriving DecidableEq, Repr

/-- The fields of `parse_data_t` the recorder reads. -/
structure ParseData where
  /-- What the packet carries. -/
  dataType : Codec
  /-- `I_FRAME` on a key frame. -/
  flags : ℤ
  /-- The source tick, in milliseconds. -/
  timeTick : ℤ
  /-- Bytes of the frame. -/
  dataLen : ℤ
  /-- Picture width. -/
  width : ℤ
  /-- Picture height. -/
  height : ℤ
  /-- Whether the encoder sees no signal. -/
  blueFlag : ℤ
  deriving DecidableEq, Repr

/-- `I_FRAME`. -/
def iFrame : ℤ := 0x10

/-- The stream a packet is written to: the loop tells audio from everything else. -/
def ParseData.stream (pd : ParseData) : Stream :=
  if pd.dataType = .audio then .audio else .video

/-- The fields of `record_info_t` the recorder reads. -/
structure RecordInfo where
  /-- Audio sample rate. -/
  audioSampleRate : ℤ
  /-- Audio bit rate. -/
  audioBitRate : ℤ
  deriving DecidableEq, Repr

/-- What the muxer answers to the calls one packet can make. -/
structure Muxer where
  /-- Result of `AudioStreamAdd`. -/
  audioStreamAdd : ℤ
  /-- Result of `VideoStreamAdd`. -/
  videoStreamAdd : ℤ
  /-- Result of `MediaWriteFrame`. -/
  mediaWriteFrame : ℤ
  deriving DecidableEq, Repr

/-- One turn of the loop: the callback has no packet, and the status is read twice; or it has one,
and the status is read once. -/
inductive Event
  | empty (first second : RecordStatus)
  | packet (rs : RecordStatus) (pd : ParseData) (mux : Muxer)
  deriving DecidableEq, Repr

/-- `record_report_info_t`, as filled for the course thread. -/
structure RecordReportInfo where
  /-- Picture width. -/
  width : ℤ
  /-- Picture height. -/
  height : ℤ
  /-- Seconds recorded, `0` when the frame was not written. -/
  totaltime : ℤ
  /-- Bytes written, both streams. -/
  totalsize : ℤ
  /-- Whether the encoder sees no signal. -/
  blueFlag : ℤ
  deriving DecidableEq, Repr

/-- What a turn does outside the thread. -/
inductive Out
  /-- `MediaWriteFrame` of a packet with a pts. -/
  | frame (pd : ParseData) (pts streamIdx : ℤ) (keyFrame audio : Bool)
  /-- A report to the course thread. -/
  | report (info : RecordReportInfo)
  /-- `MediaWriteTrailer`. -/
  | trailer
  deriving DecidableEq, Repr

/-! ### The clock of one stream -/

/-- Conversion to `uint32_t`. -/
def u32 (x : ℤ) : ℤ := x % 2 ^ 32

/-- Conversion to `int32_t`. -/
def i32 (x : ℤ) : ℤ := Int.bmod x (2 ^ 32)

/-- The variables `Xreftime`, `Xpts`, `preXpts`, `pause_Xpts` and `Xflag` of one stream. -/
structure Clock where
  /-- The reference tick. -/
  reftime : ℤ
  /-- The last pts computed. -/
  pts : ℤ
  /-- The last pts computed from a tick. -/
  prePts : ℤ
  /-- The pts at the last resume. -/
  pausePts : ℤ
  /-- Whether the stream has been written to. -/
  flag : Bool
  deriving DecidableEq, Repr

/-- The initial values. -/
def Clock.init : Clock := ⟨0, 0, 0, 0, false⟩

/-- The pts of a packet with tick `t`. -/
def Clock.stamp (c : Clock) (t : ℤ) : Clock :=
  let c :=
    if c.flag then
      let pts := t - c.reftime + c.pausePts
      let pts := if pts - c.prePts ≤ 0 then c.prePts + 1 else pts
      { c with pts := pts, prePts := pts }
    else c
  if c.pts = 0 then { c with reftime := u32 t, flag := true } else c

/-! ### The loop -/

/-- The variables of the loop. `running` is false once the thread has left it. -/
structure Loop where
  /-- The audio half. -/
  audio : Clock
  /-- The video half. -/
  video : Clock
  /-- A key frame has come since the last resume. -/
  firstIframe : Bool
  /-- The streams are not yet added to the file. -/
  firststartRecord : Bool
  /-- The next packet is the first one, or the first one after a pause. -/
  recordFlag : Bool
  /-- Index of the audio stream in the file. -/
  audioStreamIdx : ℤ
  /-- Index of the video stream in the file. -/
  videoStreamIdx : ℤ
  /-- Audio bytes written. -/
  atotalsize : ℤ
  /-- Video bytes written. -/
  vtotalsize : ℤ
  /-- The thread is in its loop. -/
  running : Bool
  deriving DecidableEq, Repr

/-- The initial values. -/
def init : Loop where
  audio := .init
  video := .init
  firstIframe := false
  firststartRecord := true
  recordFlag := true
  audioStreamIdx := -1
  videoStreamIdx := -1
  atotalsize := 0
  vtotalsize := 0
  running := true

/-- The clock of a stream. -/
def Loop.clock (s : Loop) : Stream → Clock
  | .audio => s.audio
  | .video => s.video

/-- `Areftime = pd.time_tick` or `Vreftime = pd.time_tick`, by the kind of packet. -/
def Loop.refresh (s : Loop) (pd : ParseData) : Loop :=
  if pd.dataType = .audio then { s with audio := { s.audio with reftime := u32 pd.timeTick } }
  else { s with video := { s.video with reftime := u32 pd.timeTick } }

/-- The `if(record_flag)` block: the first packet after a pause. -/
def Loop.resumeSync (s : Loop) (pd : ParseData) : Loop :=
  if s.recordFlag then
    let s := s.refresh pd
    { s with
      audio := { s.audio with pausePts := s.audio.pts }
      video := { s.video with pausePts := s.video.pts }
      firstIframe := false
      recordFlag := false }
  else s

/-- What the wait for a key frame does with a packet. -/
inductive Gate
  /-- The packet is dropped. -/
  | drop (s : Loop)
  /-- A stream could not be added and the thread returns. -/
  | leave (s : Loop)
  /-- The packet goes on. -/
  | pass (s : Loop)

/-- The `if((0 == firstIframe) && (R_VIDEO == pd.data_type))` block. -/
def Loop.iframeGate (info : RecordInfo) (s : Loop) (pd : ParseData) (mux : Muxer) :
    Gate :=
  if s.firstIframe = false ∧ pd.dataType = .video then
    if pd.flags ≠ iFrame then .drop (s.refresh pd)
    else
      let s := s.refresh pd
      if s.firststartRecord then
        if 0 < info.audioSampleRate ∧ 0 < info.audioBitRate ∧ mux.audioStreamAdd < 0 then .leave s
        else
          let s :=
            if 0 < info.audioSampleRate ∧ 0 < info.audioBitRate then
              { s with audioStreamIdx := mux.audioStreamAdd }
            else s
          if mux.videoStreamAdd < 0 then .leave s
          else
            .pass { s with
              videoStreamIdx := mux.videoStreamAdd
              video := { s.video with reftime := 0 }
              audio := { s.audio with reftime := 0 }
              firststartRecord := false
              firstIframe := true }
      else .pass { s with firstIframe := true }
  else .pass s

/-- The audio branch. -/
def Loop.writeAudio (s : Loop) (pd : ParseData) (mux : Muxer) : Loop × List Out :=
  if s.firstIframe then
    let c := s.audio.stamp pd.timeTick
    let len := if mux.mediaWriteFrame < 0 then 0 else pd.dataLen
    ({ s with audio := c, atotalsize := u32 (s.atotalsize + len) },
      [.frame pd c.pts s.audioStreamIdx true true])
  else (s.refresh pd, [])

/-- The video branch. -/
def Loop.writeVideo (s : Loop) (pd : ParseData) (mux : Muxer) : Loop × List Out :=
  let c := s.video.stamp pd.timeTick
  let len := if mux.mediaWriteFrame < 0 then 0 else pd.dataLen
  let vtotalsize := u32 (s.vtotalsize + len)
  ({ s with video := c, vtotalsize := vtotalsize },
    [.frame pd c.pts s.videoStreamIdx (decide (pd.flags = iFrame)) false,
      .report
        { width := pd.width
          height := pd.height
          totaltime := if len = 0 then 0 else i32 (c.pts.tdiv 1000)
          totalsize := u32 (vtotalsize + s.atotalsize)
          blueFlag := pd.blueFlag }])

/-- A packet that is not dropped for a pause. -/
def Loop.handle (info : RecordInfo) (s : Loop) (pd : ParseData) (mux : Muxer) :
    Loop × List Out :=
  match (s.resumeSync pd).iframeGate info pd mux with
  | .drop s => (s, [])
  | .leave s => ({ s with running := false }, [])
  | .pass s => if pd.dataType = .audio then s.writeAudio pd mux else s.writeVideo pd mux

/-- One turn of the loop of `mp4_record_process`. -/
def step (info : RecordInfo) (s : Loop) : Event → Loop × List Out
  | .empty first second =>
    if s.running then
      let s := if first = .pause then { s with recordFlag := true } else s
      if second = .close then ({ s with running := false }, [.trailer]) else (s, [])
    else (s, [])
  | .packet rs pd mux =>
    if s.running then
      if rs = .pause then ({ s.refresh pd with firstIframe := false, recordFlag := true }, [])
      else s.handle info pd mux
    else (s, [])

/-! ### What is written

A `MediaWriteFrame` for a stream is read back as the tick of the packet and its pts. -/

/-- The tick and the pts of a frame written for the stream `σ`. -/
def Out.written (σ : Stream) : Out → Option (ℤ × ℤ)
  | .frame pd pts _ _ audio =>
    if audio = decide (σ = .audio) then some (pd.timeTick, pts) else none
  | .report _ | .trailer => none

/-- One turn, seen from one stream: the frames it writes for it. -/
def track (info : RecordInfo) (σ : Stream) (s : Loop) (ev : Event) : Loop × List (ℤ × ℤ) :=
  ((step info s ev).1, (step info s ev).2.filterMap (Out.written σ))

/-- The ticks and pts written for a stream by a run from `s`, in order. -/
def written (info : RecordInfo) (σ : Stream) (s : Loop) (es : List Event) : List (ℤ × ℤ) :=
  (Run.outs (track info σ) s es).flatten

@[simp] theorem final_track (info : RecordInfo) (σ : Stream) (s : Loop) (es : List Event) :
    Run.final (track info σ) s es = Run.final (step info) s es :=
  Run.final_post (List.filterMap (Out.written σ)) s es

theorem written_append {info : RecordInfo} {σ : Stream} (s : Loop) (es fs : List Event) :
    written info σ s (es ++ fs) =
      written info σ s es ++ written info σ (Run.final (step info) s es) fs := by
  rw [written, Run.outs_append, List.flatten_append, final_track, written, written]

/-! ### One stream through one turn

A handled packet moves the clock of its own stream and, at a resume or at the start of the file,
that of the other. `Loop.reference` is the tick the packet is measured against, when it gets as
far as the muxer. -/

/-- Both streams can be added to the file. -/
def Muxer.AddsStreams (info : RecordInfo) (mux : Muxer) : Prop :=
  (0 < info.audioSampleRate ∧ 0 < info.audioBitRate → 0 ≤ mux.audioStreamAdd) ∧
    0 ≤ mux.videoStreamAdd

instance (info : RecordInfo) (mux : Muxer) : Decidable (mux.AddsStreams info) :=
  inferInstanceAs (Decidable (_ ∧ _))

/-- The packet is the key frame on which the streams are added to the file. -/
def Loop.StartsFile (info : RecordInfo) (s : Loop) (pd : ParseData) (mux : Muxer) : Prop :=
  s.firststartRecord = true ∧ pd.dataType = .video ∧ pd.flags = iFrame ∧
    (s.recordFlag = true ∨ s.firstIframe = false) ∧ mux.AddsStreams info

/-- The packet reaches the muxer on the reference its stream already has: the resume block is
done, and no wait for a key frame refreshes it. -/
def Loop.KeepsReference (s : Loop) (pd : ParseData) : Prop :=
  s.recordFlag = false ∧ (pd.dataType = .audio ∨ pd.dataType = .video → s.firstIframe = true)

/-- `pause_Apts` or `pause_Vpts` behind the resume block. -/
def Loop.pauseBase (s : Loop) (σ : Stream) : ℤ :=
  if s.recordFlag then (s.clock σ).pts else (s.clock σ).pausePts


variable {info : RecordInfo} {s : Loop} {pd : ParseData} {mux : Muxer} {σ : Stream}

/-- The clock with its reference and its pause base moved. -/
def Clock.rebase (c : Clock) (ref base : ℤ) : Clock := { c with reftime := ref, pausePts := base }

@[simp] theorem Clock.rebase_self (c : Clock) : c.rebase c.reftime c.pausePts = c := rfl

@[simp] theorem Clock.rebase_rebase (c : Clock) (r b r' b' : ℤ) :
    (c.rebase r b).rebase r' b' = c.rebase r' b' := rfl

@[simp] theorem Clock.rebase_reftime (c : Clock) (r b : ℤ) : (c.rebase r b).reftime = r := rfl

@[simp] theorem Clock.rebase_pausePts (c : Clock) (r b : ℤ) : (c.rebase r b).pausePts = b := rfl

@[simp] theorem Clock.rebase_pts (c : Clock) (r b : ℤ) : (c.rebase r b).pts = c.pts := rfl

@[simp] theorem Clock.rebase_flag (c : Clock) (r b : ℤ) : (c.rebase r b).flag = c.flag := rfl

theorem Loop.refresh_clock_own (s : Loop) (pd : ParseData) :
    (s.refresh pd).clock pd.stream =
      (s.clock pd.stream).rebase (u32 pd.timeTick) (s.clock pd.stream).pausePts := by
  by_cases h : pd.dataType = .audio <;>
    simp [Loop.refresh, ParseData.stream, Loop.clock, Clock.rebase, h]

theorem Loop.refresh_clock_of_ne (s : Loop) (h : σ ≠ pd.stream) :
    (s.refresh pd).clock σ = s.clock σ := by
  by_cases ha : pd.dataType = .audio <;> cases σ <;>
    simp_all [Loop.refresh, ParseData.stream, Loop.clock]

@[simp] theorem Loop.refresh_recordFlag : (s.refresh pd).recordFlag = s.recordFlag := by
  rw [Loop.refresh]; split <;> rfl

@[simp] theorem Loop.refresh_firstIframe : (s.refresh pd).firstIframe = s.firstIframe := by
  rw [Loop.refresh]; split <;> rfl

@[simp] theorem Loop.refresh_firststartRecord :
    (s.refresh pd).firststartRecord = s.firststartRecord := by
  rw [Loop.refresh]; split <;> rfl

/-- The clock of the packet's own stream behind the resume block. -/
theorem Loop.resumeSync_clock_own (s : Loop) (pd : ParseData) :
    (s.resumeSync pd).clock pd.stream =
      (s.clock pd.stream).rebase
        (if s.recordFlag then u32 pd.timeTick else (s.clock pd.stream).reftime)
        (s.pauseBase pd.stream) := by
  by_cases hr : s.recordFlag <;> by_cases h : pd.dataType = .audio <;>
    simp [Loop.resumeSync, Loop.refresh, ParseData.stream, Loop.clock, Loop.pauseBase, Clock.rebase,
      h, hr]

/-- The clock of the other stream behind the resume block. -/
theorem Loop.resumeSync_clock_of_ne (s : Loop) (h : σ ≠ pd.stream) :
    (s.resumeSync pd).clock σ = (s.clock σ).rebase (s.clock σ).reftime (s.pauseBase σ) := by
  by_cases hr : s.recordFlag <;> by_cases ha : pd.dataType = .audio <;> cases σ <;>
    simp_all [Loop.resumeSync, Loop.refresh, ParseData.stream, Loop.clock, Loop.pauseBase,
      Clock.rebase]

@[simp] theorem Loop.resumeSync_recordFlag : (s.resumeSync pd).recordFlag = false := by
  by_cases hr : s.recordFlag <;> simp [Loop.resumeSync, hr]

@[simp] theorem Loop.resumeSync_firstIframe (s : Loop) (pd : ParseData) :
    (s.resumeSync pd).firstIframe = (!s.recordFlag && s.firstIframe) := by
  by_cases hr : s.recordFlag <;> simp [Loop.resumeSync, hr]

@[simp] theorem Loop.resumeSync_firststartRecord (s : Loop) (pd : ParseData) :
    (s.resumeSync pd).firststartRecord = s.firststartRecord := by
  by_cases hr : s.recordFlag <;> by_cases h : pd.dataType = .audio <;>
    simp [Loop.resumeSync, Loop.refresh, hr, h]

/-- A packet that waits for nothing goes on as it is. -/
theorem Loop.iframeGate_of_open (h : pd.dataType = .video → s.firstIframe = true) :
    s.iframeGate info pd mux = .pass s := by
  rw [Loop.iframeGate, if_neg]
  rintro ⟨hf, hv⟩
  simp [h hv] at hf

/-- A packet that is no key frame is dropped while the loop waits for one. -/
theorem Loop.iframeGate_drop (hf : s.firstIframe = false) (hv : pd.dataType = .video)
    (hi : pd.flags ≠ iFrame) : s.iframeGate info pd mux = .drop (s.refresh pd) := by
  rw [Loop.iframeGate, if_pos ⟨hf, hv⟩, if_pos hi]

/-- The key frame ends the wait. -/
theorem Loop.iframeGate_restart (hf : s.firstIframe = false) (hv : pd.dataType = .video)
    (hi : pd.flags = iFrame) (hs : s.firststartRecord = false) :
    s.iframeGate info pd mux = .pass { s.refresh pd with firstIframe := true } := by
  rw [Loop.iframeGate, if_pos ⟨hf, hv⟩, if_neg (not_not.mpr hi)]
  simp [hs]

/-- The first key frame of all adds the streams, and forgets both references. -/
theorem Loop.iframeGate_start (hf : s.firstIframe = false) (hv : pd.dataType = .video)
    (hi : pd.flags = iFrame) (hs : s.firststartRecord = true) (hm : mux.AddsStreams info) :
    ∃ s', s.iframeGate info pd mux = .pass s' ∧ s'.firststartRecord = false ∧
      s'.recordFlag = s.recordFlag ∧
        ∀ σ, s'.clock σ = (s.clock σ).rebase 0 (s.clock σ).pausePts := by
  obtain ⟨ha, hv'⟩ := hm
  rw [Loop.iframeGate, if_pos ⟨hf, hv⟩, if_neg (not_not.mpr hi)]
  simp only [refresh_firststartRecord, hs, if_true]
  rw [if_neg (by rintro ⟨h₁, h₂, h₃⟩; exact absurd (ha ⟨h₁, h₂⟩) (not_le.mpr h₃)),
    if_neg (not_lt.mpr hv')]
  refine ⟨_, rfl, rfl, ?_, fun σ => ?_⟩
  · split <;> simp
  · cases σ <;> split <;> simp [Loop.refresh, Loop.clock, Clock.rebase, hv]

/-- It leaves the thread when a stream cannot be added. -/
theorem Loop.iframeGate_leave (hf : s.firstIframe = false) (hv : pd.dataType = .video)
    (hi : pd.flags = iFrame) (hs : s.firststartRecord = true) (hm : ¬ mux.AddsStreams info) :
    ∃ s', s.iframeGate info pd mux = .leave s' ∧ s'.firststartRecord = true ∧
      s'.recordFlag = s.recordFlag ∧ s'.firstIframe = s.firstIframe ∧
      ∀ σ, s'.clock σ = (s.refresh pd).clock σ := by
  rw [Loop.iframeGate, if_pos ⟨hf, hv⟩, if_neg (not_not.mpr hi)]
  simp only [refresh_firststartRecord, hs, if_true]
  by_cases ha : 0 < info.audioSampleRate ∧ 0 < info.audioBitRate ∧ mux.audioStreamAdd < 0
  · rw [if_pos ha]
    exact ⟨_, rfl, by simp [hs], by simp, by simp, fun _ => rfl⟩
  · have hneg : mux.videoStreamAdd < 0 := by
      by_contra hle
      refine hm ⟨fun h => not_lt.mp fun hlt => ha ⟨h.1, h.2, hlt⟩, not_lt.mp hle⟩
    rw [if_neg ha, if_pos hneg]
    refine ⟨_, rfl, ?_, ?_, ?_, fun σ => ?_⟩
    · split <;> simp [hs]
    · split <;> simp
    · split <;> simp
    · cases σ <;> split <;> rfl

/-- What a written packet does: its own clock is stamped, the rest of the loop's clocks stand. -/
theorem Loop.handle_of_pass {s' : Loop} (hp : (s.resumeSync pd).iframeGate info pd mux = .pass s')
    (hw : pd.dataType = .audio → s'.firstIframe = true) :
    (s.handle info pd mux).1.clock pd.stream = (s'.clock pd.stream).stamp pd.timeTick ∧
      (∀ τ, τ ≠ pd.stream → (s.handle info pd mux).1.clock τ = s'.clock τ) ∧
      (s.handle info pd mux).1.recordFlag = s'.recordFlag ∧
      (s.handle info pd mux).1.firststartRecord = s'.firststartRecord ∧
      (s.handle info pd mux).1.firstIframe = s'.firstIframe ∧
      ∀ τ, (s.handle info pd mux).2.filterMap (Out.written τ) =
        if τ = pd.stream then [(pd.timeTick, ((s'.clock pd.stream).stamp pd.timeTick).pts)]
        else [] := by
  by_cases ha : pd.dataType = .audio
  · have hs : pd.stream = .audio := by simp [ParseData.stream, ha]
    have hh : s.handle info pd mux = s'.writeAudio pd mux := by
      rw [Loop.handle, hp]
      exact if_pos ha
    rw [hh, hs, Loop.writeAudio, if_pos (hw ha)]
    refine ⟨rfl, fun τ hτ => ?_, rfl, rfl, rfl, fun τ => ?_⟩
    · cases τ
      · exact absurd rfl hτ
      · rfl
    · cases τ <;> simp [Out.written, Loop.clock]
  · have hs : pd.stream = .video := by simp [ParseData.stream, ha]
    have hh : s.handle info pd mux = s'.writeVideo pd mux := by
      rw [Loop.handle, hp]
      exact if_neg ha
    rw [hh, hs, Loop.writeVideo]
    refine ⟨rfl, fun τ hτ => ?_, rfl, rfl, rfl, fun τ => ?_⟩
    · cases τ
      · rfl
      · exact absurd rfl hτ
    · cases τ <;> simp [Out.written, Loop.clock]

/-- Behind the resume block a refresh of the packet's reference changes nothing more. -/
theorem Loop.resumeSync_refresh_clock (hr : s.recordFlag = true) (τ : Stream) :
    ((s.resumeSync pd).refresh pd).clock τ = (s.resumeSync pd).clock τ := by
  by_cases hτ : τ = pd.stream
  · subst hτ
    rw [Loop.refresh_clock_own, Loop.resumeSync_clock_own, if_pos hr]
    rfl
  · rw [Loop.refresh_clock_of_ne _ hτ]

/-- The ways of a handled packet: it waits, or it passes the wait for a key frame with the
references reset, kept or refreshed. -/
theorem Loop.gate_cases (info : RecordInfo) (s : Loop) (pd : ParseData) (mux : Muxer) :
    (¬ s.KeepsReference pd ∧ ¬ s.StartsFile info pd mux ∧ (s.handle info pd mux).2 = [] ∧
        (s.handle info pd mux).1.recordFlag = false ∧
        (s.handle info pd mux).1.firststartRecord = s.firststartRecord ∧
        ((s.handle info pd mux).1.firstIframe = true → s.firstIframe = true) ∧
        ∀ τ, (s.handle info pd mux).1.clock τ = ((s.resumeSync pd).refresh pd).clock τ) ∨
      ∃ s', (s.resumeSync pd).iframeGate info pd mux = .pass s' ∧
        (pd.dataType = .audio → s'.firstIframe = true) ∧ s'.recordFlag = false ∧
        (s.StartsFile info pd mux ∧ s'.firststartRecord = false ∧
            (∀ τ, s'.clock τ =
              ((s.resumeSync pd).clock τ).rebase 0 ((s.resumeSync pd).clock τ).pausePts) ∨
          ¬ s.StartsFile info pd mux ∧ s'.firststartRecord = s.firststartRecord ∧
            (s'.firstIframe = true → s.firstIframe = true ∨ s.firststartRecord = false) ∧
            (s.KeepsReference pd ∧ (∀ τ, s'.clock τ = (s.resumeSync pd).clock τ) ∨
              ¬ s.KeepsReference pd ∧ pd.dataType ≠ .audio ∧
                ∀ τ, s'.clock τ = ((s.resumeSync pd).refresh pd).clock τ)) := by
  have hf := s.resumeSync_firstIframe pd
  have hs := s.resumeSync_firststartRecord pd
  have hfi : (s.resumeSync pd).firstIframe = true → s.firstIframe = true := by
    rw [hf]
    simp
  by_cases hv : pd.dataType = .video
  · by_cases hw : s.recordFlag = false ∧ s.firstIframe = true
    · -- no wait
      refine .inr ⟨_, iframeGate_of_open fun _ => by simp [hw.1, hw.2], by simp [hv], by simp,
        .inr ⟨?_, hs, fun h => .inl (hfi h), .inl ⟨⟨hw.1, fun _ => hw.2⟩, fun _ => rfl⟩⟩⟩
      rintro ⟨-, -, -, h | h, -⟩ <;> simp [hw.1, hw.2] at h
    · have hk : ¬ s.KeepsReference pd := fun h => hw ⟨h.1, h.2 (.inr hv)⟩
      have hf' : (s.resumeSync pd).firstIframe = false := by
        rw [hf]
        simpa using hw
      have hw' : s.recordFlag = true ∨ s.firstIframe = false := by
        cases h : s.recordFlag <;> simp_all
      by_cases hi : pd.flags = iFrame
      · cases hst : s.firststartRecord
        · have hns : ¬ s.StartsFile info pd mux := fun h => absurd h.1 (by simp [hst])
          exact .inr ⟨_, iframeGate_restart hf' hv hi (hs.trans hst), by simp [hv], by simp,
            .inr ⟨hns, by simp [hst], fun _ => .inr rfl,
              .inr ⟨hk, by simp [hv], fun _ => rfl⟩⟩⟩
        · by_cases hm : mux.AddsStreams info
          · obtain ⟨s', hg, hst', hr', hc⟩ := iframeGate_start hf' hv hi (hs.trans hst) hm
            refine .inr ⟨s', hg, by simp [hv], by simpa using hr', .inl ⟨?_, hst', hc⟩⟩
            exact ⟨hst, hv, hi, hw', hm⟩
          · obtain ⟨s', hg, hst', hr', hi', hc⟩ := iframeGate_leave hf' hv hi (hs.trans hst) hm
            refine .inl ⟨hk, fun h => hm h.2.2.2.2, ?_⟩
            have hh : s.handle info pd mux = ({ s' with running := false }, []) := by
              rw [Loop.handle, hg]
            rw [hh]
            exact ⟨rfl, by simpa using hr', hst', fun h => hfi (hi'.symm.trans h), hc⟩
      · refine .inl ⟨hk, fun h => hi h.2.2.1, ?_⟩
        have hh : s.handle info pd mux = ((s.resumeSync pd).refresh pd, []) := by
          rw [Loop.handle, iframeGate_drop hf' hv hi]
        rw [hh]
        exact ⟨rfl, by simp, by simp, fun h => hfi (by simpa using h), fun _ => rfl⟩
  · have hns : ¬ s.StartsFile info pd mux := fun h => hv h.2.1
    have hg : (s.resumeSync pd).iframeGate info pd mux = .pass (s.resumeSync pd) :=
      iframeGate_of_open fun h => absurd h hv
    by_cases ha : pd.dataType = .audio
    · cases hw : (s.resumeSync pd).firstIframe
      · have hk : ¬ s.KeepsReference pd := fun h => by
          simp [h.1, h.2 (.inl ha)] at hw
        refine .inl ⟨hk, hns, ?_⟩
        have hh : s.handle info pd mux = ((s.resumeSync pd).refresh pd, []) := by
          rw [Loop.handle, hg]
          simp only [ha, if_true, Loop.writeAudio, hw, if_false, Bool.false_eq_true]
        rw [hh]
        exact ⟨rfl, by simp, by simp, fun h => hfi (by simpa using h), fun _ => rfl⟩
      · refine .inr ⟨_, hg, fun _ => hw, by simp,
          .inr ⟨hns, hs, fun h => .inl (hfi h), .inl ⟨?_, fun _ => rfl⟩⟩⟩
        simp only [hf, Bool.and_eq_true, Bool.not_eq_true'] at hw
        exact ⟨hw.1, fun _ => hw.2⟩
    · refine .inr ⟨_, hg, fun h => absurd h ha, by simp, .inr ⟨hns, hs, fun h => .inl (hfi h), ?_⟩⟩
      cases hr : s.recordFlag
      · exact .inl ⟨⟨hr, fun h => absurd h (by simp [ha, hv])⟩, fun _ => rfl⟩
      · exact .inr ⟨fun h => absurd h.1 (by simp [hr]), ha,
          fun τ => (resumeSync_refresh_clock hr τ).symm⟩

/-- A packet of the other stream: the clock takes part in a resume and in the start of the file,
and nothing is written. -/
theorem Loop.handle_of_ne (s : Loop) (info : RecordInfo) (mux : Muxer) (h : σ ≠ pd.stream) :
    ((s.handle info pd mux).1.clock σ = (s.clock σ).rebase (s.clock σ).reftime (s.pauseBase σ) ∨
        s.StartsFile info pd mux ∧
          (s.handle info pd mux).1.clock σ = (s.clock σ).rebase 0 (s.pauseBase σ)) ∧
      (s.handle info pd mux).2.filterMap (Out.written σ) = [] := by
  have hc := s.resumeSync_clock_of_ne h
  rcases gate_cases info s pd mux with ⟨-, -, hout, -, -, -, hw⟩ | ⟨s', hg, haud, -, hp⟩
  · exact ⟨.inl (by rw [hw σ, refresh_clock_of_ne _ h, hc]), by simp [hout]⟩
  · obtain ⟨-, hne, -, -, -, hwr⟩ := handle_of_pass hg haud
    refine ⟨?_, by rw [hwr σ, if_neg h]⟩
    rw [hne σ h]
    rcases hp with ⟨hs, -, hp⟩ | ⟨-, -, -, ⟨-, hp⟩ | ⟨-, -, hp⟩⟩
    · exact .inr ⟨hs, by simp [hp σ, hc]⟩
    · exact .inl (by rw [hp σ, hc])
    · exact .inl (by rw [hp σ, refresh_clock_of_ne _ h, hc])

/-- A packet of the own stream: it waits with its reference refreshed, or it is stamped and
written. -/
theorem Loop.handle_own (s : Loop) (info : RecordInfo) (pd : ParseData) (mux : Muxer) :
    ((s.handle info pd mux).1.clock pd.stream =
          (s.clock pd.stream).rebase (u32 pd.timeTick) (s.pauseBase pd.stream) ∧
        (s.handle info pd mux).2.filterMap (Out.written pd.stream) = [] ∧
        ¬ s.KeepsReference pd ∧ ¬ s.StartsFile info pd mux) ∨
      ∃ ref, (s.handle info pd mux).1.clock pd.stream =
          ((s.clock pd.stream).rebase ref (s.pauseBase pd.stream)).stamp pd.timeTick ∧
        (s.handle info pd mux).2.filterMap (Out.written pd.stream) =
          [(pd.timeTick, ((s.handle info pd mux).1.clock pd.stream).pts)] ∧
        (s.StartsFile info pd mux ∧ ref = 0 ∨ ¬ s.StartsFile info pd mux ∧
          (s.KeepsReference pd ∧ ref = (s.clock pd.stream).reftime ∨
            ¬ s.KeepsReference pd ∧ pd.dataType ≠ .audio ∧ ref = u32 pd.timeTick)) := by
  have hc := s.resumeSync_clock_own pd
  rcases gate_cases info s pd mux with ⟨hk, hs, hout, -, -, -, hw⟩ |
    ⟨s', hg, haud, -, hp⟩
  · exact .inl ⟨by simp [hw, refresh_clock_own, hc], by simp [hout], hk, hs⟩
  · obtain ⟨hown, -, -, -, -, hwr⟩ := handle_of_pass hg haud
    rw [hwr, if_pos rfl, hown]
    rcases hp with ⟨hs, -, hp⟩ | ⟨hs, -, -, ⟨hk, hp⟩ | ⟨hk, ha, hp⟩⟩
    · exact .inr ⟨0, by simp [hp, hc], rfl, .inl ⟨hs, rfl⟩⟩
    · refine .inr ⟨_, ?_, rfl, .inr ⟨hs, .inl ⟨hk, rfl⟩⟩⟩
      rw [hp, hc, if_neg (by simp [hk.1])]
    · exact .inr ⟨_, by rw [hp, refresh_clock_own, hc]; rfl, rfl,
        .inr ⟨hs, .inr ⟨hk, ha, rfl⟩⟩⟩

theorem Loop.handle_recordFlag : (s.handle info pd mux).1.recordFlag = false := by
  rcases gate_cases info s pd mux with ⟨-, -, -, hr, -⟩ | ⟨s', hg, haud, hr, -⟩
  · exact hr
  · obtain ⟨-, -, hr', -⟩ := handle_of_pass hg haud
    rw [hr', hr]

/-- The streams of a file are added once. -/
theorem Loop.handle_firststartRecord (info : RecordInfo) (s : Loop) (pd : ParseData)
    (mux : Muxer) :
    (s.handle info pd mux).1.firststartRecord = true ↔
      s.firststartRecord = true ∧ ¬ s.StartsFile info pd mux := by
  rcases gate_cases info s pd mux with ⟨-, hs, -, -, hf, -⟩ | ⟨s', hg, haud, -, hp⟩
  · simp [hf, hs]
  · obtain ⟨-, -, -, hf', -⟩ := handle_of_pass hg haud
    rcases hp with ⟨hs, hp, -⟩ | ⟨hs, hp, -⟩ <;> simp [hf', hp, hs]

/-- A key frame ends the wait only once the streams are added. -/
theorem Loop.handle_firstIframe (h : (s.handle info pd mux).1.firstIframe = true) :
    s.firstIframe = true ∨ (s.handle info pd mux).1.firststartRecord = false := by
  rcases gate_cases info s pd mux with ⟨-, -, -, -, -, hi, -⟩ | ⟨s', hg, haud, -, hp⟩
  · exact .inl (hi h)
  · obtain ⟨-, -, -, hf, hi, -⟩ := handle_of_pass hg haud
    rw [hi] at h
    rw [hf]
    rcases hp with ⟨-, hp, -⟩ | ⟨-, hp, hi', -⟩
    · exact .inr hp
    · exact (hi' h).imp_right hp.trans

/-! ### Every turn, for one stream -/

/-- The packet a turn reads. -/
def Event.data : Event → Option ParseData
  | .empty _ _ => none
  | .packet _ pd _ => some pd

/-- The tick of that packet. -/
def Event.timeTick (ev : Event) : Option ℤ := ev.data.map ParseData.timeTick

/-- What one turn does to the clock of a stream, and the tick and pts it writes. The reference
moves to some 32-bit tick or stays, the pause base to the last pts or stays. -/
inductive Clock.Turn (ev : Event) (c : Clock) : Clock → List (ℤ × ℤ) → Prop
  /-- Nothing is written; the last pts stands. -/
  | quiet (ref base : ℤ) (hr : ref = c.reftime ∨ 0 ≤ ref) (hb : base = c.pausePts ∨ base = c.pts) :
      Turn ev c (c.rebase ref base) []
  /-- The packet is stamped and written. -/
  | stamped (ref base t : ℤ) (hr : ref = c.reftime ∨ 0 ≤ ref)
      (hb : base = c.pausePts ∨ base = c.pts) (ht : ev.timeTick = some t) :
      Turn ev c ((c.rebase ref base).stamp t) [(t, ((c.rebase ref base).stamp t).pts)]

theorem u32_nonneg (x : ℤ) : 0 ≤ u32 x := Int.emod_nonneg _ (by decide)

theorem Loop.pauseBase_eq (s : Loop) (σ : Stream) :
    s.pauseBase σ = (s.clock σ).pausePts ∨ s.pauseBase σ = (s.clock σ).pts := by
  rw [Loop.pauseBase]
  split
  · exact .inr rfl
  · exact .inl rfl

/-- The packet a turn handles: the loop has one, and does not drop it for a pause. -/
def Event.handled : Event → Option ParseData
  | .empty _ _ => none
  | .packet rs pd _ => if rs = .pause then none else some pd

/-- The turn sees the status "paused". -/
def Event.Pauses : Event → Prop
  | .empty first _ => first = .pause
  | .packet rs _ _ => rs = .pause

instance : DecidablePred Event.Pauses
  | .empty first _ => inferInstanceAs (Decidable (first = .pause))
  | .packet rs _ _ => inferInstanceAs (Decidable (rs = .pause))

theorem Event.data_of_handled {ev : Event} (h : ev.handled = some pd) : ev.data = some pd := by
  cases ev with
  | empty => simp [Event.handled] at h
  | packet rs pd' mux =>
    simp only [Event.handled, Option.ite_none_left_eq_some, Option.some.injEq] at h
    rw [← h.2, Event.data]

theorem Event.timeTick_of_handled {ev : Event} (h : ev.handled = some pd) :
    ev.timeTick = some pd.timeTick := by
  rw [Event.timeTick, Event.data_of_handled h, Option.map_some]

/-- A thread that has left its loop stands still. -/
theorem step_of_not_running (h : s.running = false) (ev : Event) : step info s ev = (s, []) := by
  cases ev <;> simp [step, h]

theorem step_of_handled (info : RecordInfo) {ev : Event} (hrun : s.running = true)
    (h : ev.handled = some pd) : ∃ mux, step info s ev = s.handle info pd mux := by
  cases ev with
  | empty => simp [Event.handled] at h
  | packet rs pd' mux =>
    simp only [Event.handled, Option.ite_none_left_eq_some, Option.some.injEq] at h
    obtain ⟨hp, rfl⟩ := h
    exact ⟨mux, by simp [step, hrun, hp]⟩

/-- A turn that handles no packet writes nothing, and moves no more than the reference of the
packet it drops. A pause it sees asks for a resume block. -/
theorem step_of_not_handled (info : RecordInfo) (σ : Stream) (s : Loop) {ev : Event}
    (h : ev.handled = none) :
    (track info σ s ev).2 = [] ∧
      (∃ ref, (ref = (s.clock σ).reftime ∨ 0 ≤ ref) ∧
        (step info s ev).1.clock σ = (s.clock σ).rebase ref (s.clock σ).pausePts) ∧
      (step info s ev).1.firststartRecord = s.firststartRecord ∧
      ((step info s ev).1.firstIframe = true → s.firstIframe = true) ∧
      ((step info s ev).1.running = true →
        s.running = true ∧ (s.recordFlag = true ∨ ev.Pauses →
          (step info s ev).1.recordFlag = true)) := by
  cases hrun : s.running
  · rw [track, step_of_not_running hrun]
    exact ⟨rfl, ⟨_, .inl rfl, rfl⟩, rfl, id, fun h' => by simp [hrun] at h'⟩
  cases ev with
  | empty first second =>
    have hs : ∃ b r, (step info s (.empty first second)).1 =
        { s with recordFlag := b, running := r } ∧
        (b = true ↔ s.recordFlag = true ∨ first = .pause) := by
      by_cases hp : first = .pause <;> by_cases hc : second = .close
      · exact ⟨true, false, by simp [step, hrun, hp, hc], by simp [hp]⟩
      · exact ⟨true, true, by simp [step, hrun, hp, hc], by simp [hp]⟩
      · exact ⟨s.recordFlag, false, by simp [step, hrun, hp, hc], by simp [hp]⟩
      · exact ⟨s.recordFlag, true, by simp [step, hp, hc, ← hrun], by simp [hp]⟩
    have hw : (track info σ s (.empty first second)).2 = [] := by
      simp only [track, step, hrun, if_true]
      split <;> simp [Out.written]
    obtain ⟨b, r, hs, hb⟩ := hs
    rw [hs, hw]
    exact ⟨rfl, ⟨_, .inl rfl, by cases σ <;> rfl⟩, rfl, id, fun _ => ⟨rfl, hb.2⟩⟩
  | packet rs pd mux =>
    have hp : rs = .pause := by simpa [Event.handled] using h
    simp only [track, step, hrun, hp, if_true, Event.Pauses]
    refine ⟨rfl, ?_, by simp, by simp, fun _ => ⟨trivial, fun _ => trivial⟩⟩
    change ∃ ref, _ ∧ (s.refresh pd).clock σ = _
    by_cases hσ : σ = pd.stream
    · subst hσ
      exact ⟨_, .inr (u32_nonneg _), s.refresh_clock_own pd⟩
    · exact ⟨_, .inl rfl, s.refresh_clock_of_ne hσ⟩

theorem step_turn (info : RecordInfo) (σ : Stream) (s : Loop) (ev : Event) :
    (s.clock σ).Turn ev ((track info σ s ev).1.clock σ) (track info σ s ev).2 := by
  cases hrun : s.running
  · rw [track, step_of_not_running hrun]
    exact .quiet _ _ (.inl rfl) (.inl rfl)
  cases hh : ev.handled with
  | none =>
    obtain ⟨hw, ⟨ref, hr, hc⟩, -⟩ := step_of_not_handled info σ s hh
    rw [hw]
    change (s.clock σ).Turn ev ((step info s ev).1.clock σ) []
    rw [hc]
    exact .quiet _ _ hr (.inl rfl)
  | some pd =>
    obtain ⟨mux, hstep⟩ := step_of_handled info hrun hh
    rw [track, hstep]
    by_cases hσ : σ = pd.stream
    · subst hσ
      rcases s.handle_own info pd mux with ⟨hc, hw, -⟩ | ⟨ref, hc, hw, hr⟩
      · rw [hc, hw]
        exact .quiet _ _ (.inr (u32_nonneg _)) (s.pauseBase_eq _)
      · rw [hw, hc]
        refine .stamped _ _ _ ?_ (s.pauseBase_eq _) (Event.timeTick_of_handled hh)
        rcases hr with ⟨-, rfl⟩ | ⟨-, ⟨-, rfl⟩ | ⟨-, -, rfl⟩⟩
        · exact .inr le_rfl
        · exact .inl rfl
        · exact .inr (u32_nonneg _)
    · obtain ⟨hc | ⟨-, hc⟩, hw⟩ := s.handle_of_ne info mux hσ
      · rw [hc, hw]
        exact .quiet _ _ (.inl rfl) (s.pauseBase_eq _)
      · rw [hc, hw]
        exact .quiet _ _ (.inr le_rfl) (s.pauseBase_eq _)

/-! ### Increasing pts -/

/-- What holds of a clock at every turn: before the first frame nothing is counted, and later the
last pts is the last one counted from a tick. -/
structure Clock.Sound (c : Clock) : Prop where
  /-- Before the first frame. -/
  fresh : c.flag = false → c.pts = 0
  /-- After it, and before it: the two pts agree. -/
  prePts_eq : c.prePts = c.pts
  /-- Nothing is written before time `0`. -/
  nonneg : 0 ≤ c.pts
  /-- The reference is a 32-bit tick. -/
  reftime_nonneg : 0 ≤ c.reftime
  /-- The pause base is an earlier pts. -/
  pausePts_le : c.pausePts ≤ c.pts

theorem Clock.sound_init : Clock.init.Sound := ⟨fun _ => rfl, rfl, le_rfl, le_rfl, le_rfl⟩

/-- The first frame of a stream gets the pts `0` and sets the reference. -/
theorem Clock.stamp_of_fresh {c : Clock} (hc : c.Sound) (hf : c.flag = false) (t : ℤ) :
    c.stamp t = { c with reftime := u32 t, flag := true } := by
  simp [Clock.stamp, hf, hc.fresh hf]

/-- Every later frame gets the time since the reference on top of the pause base, or the next
free pts when that is not ahead of the last one. -/
theorem Clock.stamp_of_flag {c : Clock} (hc : c.Sound) (hf : c.flag = true) (t : ℤ) :
    c.stamp t =
      { c with
        pts := max (c.pts + 1) (t - c.reftime + c.pausePts)
        prePts := max (c.pts + 1) (t - c.reftime + c.pausePts) } := by
  have hmax : (if t - c.reftime + c.pausePts - c.prePts ≤ 0 then c.prePts + 1
      else t - c.reftime + c.pausePts) = max (c.pts + 1) (t - c.reftime + c.pausePts) := by
    rw [hc.prePts_eq]
    split_ifs <;> omega
  have hpos : max (c.pts + 1) (t - c.reftime + c.pausePts) ≠ 0 := by
    have := hc.nonneg
    omega
  simp only [Clock.stamp, hf, if_true, hmax, if_neg hpos]

theorem Clock.Sound.stamp {c : Clock} (hc : c.Sound) (t : ℤ) : (c.stamp t).Sound := by
  cases hf : c.flag
  · rw [stamp_of_fresh hc hf]
    exact ⟨fun h => by simp at h, hc.prePts_eq, hc.nonneg, u32_nonneg t, hc.pausePts_le⟩
  · rw [stamp_of_flag hc hf]
    have hnn := hc.nonneg
    have hpl := hc.pausePts_le
    refine ⟨fun h => by simp [hf] at h, rfl, ?_, hc.reftime_nonneg, ?_⟩ <;> simp only <;> omega

theorem Clock.Sound.rebase {c : Clock} (hc : c.Sound) {ref base : ℤ}
    (hr : ref = c.reftime ∨ 0 ≤ ref) (hb : base = c.pausePts ∨ base = c.pts) :
    (c.rebase ref base).Sound := by
  refine ⟨hc.fresh, hc.prePts_eq, hc.nonneg, ?_, ?_⟩
  · exact hr.elim (fun h => h ▸ hc.reftime_nonneg) id
  · exact hb.elim (fun h => h ▸ hc.pausePts_le) (fun h => h ▸ le_rfl)

theorem Clock.Sound.turn {ev : Event} {c c' : Clock} {w : List (ℤ × ℤ)} (hc : c.Sound)
    (h : c.Turn ev c' w) : c'.Sound := by
  cases h with
  | quiet ref base hr hb => exact hc.rebase hr hb
  | stamped ref base t hr hb => exact (hc.rebase hr hb).stamp t

theorem sound_final (info : RecordInfo) (σ : Stream) {s : Loop} (hs : (s.clock σ).Sound)
    (es : List Event) : ((Run.final (step info) s es).clock σ).Sound := by
  rw [← final_track info σ]
  exact Run.final_invariant (I := fun s : Loop => (s.clock σ).Sound)
    (fun s hs ev _ => hs.turn (step_turn info σ s ev)) hs

/-- The rung a stream stands on: its last pts, and below `0` before the first frame. -/
def Clock.rung (c : Clock) : ℤ := if c.flag then c.pts else -1

/-- One turn of the loop climbs. -/
theorem climbs_step (info : RecordInfo) (σ : Stream) (s : Loop) (ev : Event)
    (hs : (s.clock σ).Sound) :
    Run.Climbs Prod.snd (track info σ) (fun s : Loop => (s.clock σ).rung) s ev := by
  have ht := step_turn info σ s ev
  generalize hc' : (track info σ s ev).1.clock σ = c' at ht
  generalize hw : (track info σ s ev).2 = w at ht
  have hclimb : (s.clock σ).rung ≤ c'.rung ∧
      (∀ x ∈ w, (s.clock σ).rung < x.2 ∧ x.2 ≤ c'.rung) ∧
      w.Pairwise fun x y => x.2 < y.2 := by
    cases ht with
    | quiet ref base => exact ⟨le_rfl, by simp, .nil⟩
    | stamped ref base t hr hb =>
      have hs' := hs.rebase hr hb
      have hnn := hs.nonneg
      cases hf : (s.clock σ).flag
      · rw [Clock.stamp_of_fresh hs' hf]
        simp [Clock.rung, hf, hs.fresh hf]
      · rw [Clock.stamp_of_flag hs' hf]
        simp only [Clock.rung, hf, if_true, List.mem_singleton, List.pairwise_singleton,
          forall_eq, and_true, Clock.rebase_pts, Clock.rebase_flag]
        omega
  obtain ⟨h₁, h₂, h₃⟩ := hclimb
  exact ⟨by rw [hc']; exact h₁, by rw [hc', hw]; exact h₂, by rw [hw]; exact h₃⟩

/-- The first pts written for a stream that has not been written to is `0`. -/
theorem written_head (info : RecordInfo) (σ : Stream) {s : Loop} (hs : (s.clock σ).Sound)
    (hf : (s.clock σ).flag = false) (es : List Event) :
    ∀ w ∈ (written info σ s es).head?, w.2 = 0 := by
  induction es generalizing s with
  | nil => simp [written]
  | cons ev es ih =>
    have ht := step_turn info σ s ev
    have hs' := hs.turn ht
    rw [written, Run.outs_cons, List.flatten_cons]
    generalize hc' : (track info σ s ev).1.clock σ = c' at ht hs'
    generalize hw : (track info σ s ev).2 = w at ht
    cases ht with
    | quiet ref base =>
      exact ih (by rw [hc']; exact hs') (by rw [hc']; exact hf)
    | stamped ref base t hr hb =>
      rw [Clock.stamp_of_fresh (hs.rebase hr hb) hf]
      simp [hs.fresh hf]

theorem Clock.stamp_pts_le {c : Clock} (hc : c.Sound) {t : ℤ} (ht : t < 2 ^ 32) :
    c.pts ≤ (c.stamp t).pts ∧ (c.stamp t).pts ≤ c.pts + 2 ^ 32 := by
  have hr := hc.reftime_nonneg
  have hp := hc.pausePts_le
  cases hf : c.flag
  · rw [stamp_of_fresh hc hf]
    simp
  · rw [stamp_of_flag hc hf]
    simp only
    omega

/-- A turn adds at most `2 ^ 32` to a pts, so the `int64_t` of the source holds every pts of a run
of fewer than `2 ^ 31` turns. -/
theorem written_pts_le (info : RecordInfo) (σ : Stream) {s : Loop} (hs : (s.clock σ).Sound)
    {es : List Event} (ht : ∀ ev ∈ es, ∀ t ∈ ev.timeTick, t < 2 ^ 32) :
    ∀ w ∈ written info σ s es, w.2 ≤ (s.clock σ).pts + 2 ^ 32 * es.length := by
  induction es generalizing s with
  | nil => simp [written]
  | cons ev es ih =>
    intro w hw
    have hturn := step_turn info σ s ev
    have hs' := hs.turn hturn
    have hmem := ih hs' (fun ev h => ht ev (List.mem_cons_of_mem _ h)) w
    have hnow := ht ev (List.mem_cons_self ..)
    rw [written, Run.outs_cons, List.flatten_cons, List.mem_append] at hw
    generalize (track info σ s ev).1.clock σ = c' at hturn hs' hmem
    generalize (track info σ s ev).2 = ws at hturn hw
    rw [List.length_cons]
    push_cast
    cases hturn with
    | quiet ref base hr hb =>
      have hle := hmem (hw.resolve_left (by simp))
      rw [Clock.rebase_pts] at hle
      omega
    | stamped ref base t hr hb hev =>
      obtain ⟨-, hle⟩ := Clock.stamp_pts_le (hs.rebase hr hb) (hnow t hev)
      rw [Clock.rebase_pts] at hle
      rcases hw with hw | hw
      · obtain rfl := List.mem_singleton.mp hw
        simp only
        omega
      · have := hmem hw
        omega

/-- **Recorded timestamps strictly increase.** In every run, whatever the packets, their ticks,
the pauses and the answers of the muxer, the pts written for a stream start at `0` and increase. -/
theorem written_pts_increase (info : RecordInfo) (σ : Stream) (es : List Event) :
    ((written info σ init es).map Prod.snd).Pairwise (· < ·) ∧
      ∀ p ∈ ((written info σ init es).map Prod.snd).head?, p = 0 := by
  have hinit : (init.clock σ).Sound := by cases σ <;> exact Clock.sound_init
  refine ⟨?_, ?_⟩
  · rw [List.pairwise_map]
    exact Run.flatten_outs_pairwise (I := fun s : Loop => (s.clock σ).Sound)
      (fun s ev hs => hs.turn (step_turn info σ s ev)) (climbs_step info σ) hinit es
  · intro p hp
    rw [List.head?_map, Option.mem_map] at hp
    obtain ⟨w, hw, rfl⟩ := hp
    exact written_head info σ hinit (by cases σ <;> rfl) es w hw

end Mp4Record

end ReachEdukit
