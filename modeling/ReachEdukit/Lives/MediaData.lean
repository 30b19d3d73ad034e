import ReachEdukit.Lives.Datagram
import ReachEdukit.Lives.MediaBuffer
import ReachEdukit.Lives.MediaClock

/-!
# The times of a live room

The thread of a live room looks up, for each packet from the queue, which encoder and quality it is
of, makes its tick a relative one, and gives it to the builder with the handle of the stream. Each
encoder has four clocks: pictures and sound, of either quality. A packet moves one of them, and the
others stay as they are; a request for a stream resets the four of an encoder. So a run of the room is
for each H.264 stream a run of its clock, and what is known of the clock is known of the stream.

`getVideoDataInfo` has the loop of `get_video_data_info`; what its branches do to the time stamps is
here. Packets that come while there is no user are not looked at, so they are none of the packets of a
stream. The encoders are those of one configuration. The users may be anybody at any time.

A frame of sound with too many sync patterns is written and read behind `offset`; a run ends there.

## Main definitions

* `takeTimestamp`, `localMediaDataPkgSent`, `resetEncTimeInfo` — the functions
* `streamOf`, `clockOf` — the stream of a packet, and the clock of a stream

## Main results

* `clockOf_mediaStep`, `clockOf_mediaRun` — a stream is a clock
* `keepsMediaTime_iff` — when the timestamps of two packets of a stream keep the time
-/

namespace ReachEdukit

namespace Lives

open Rtp

/-! ### Packets -/

/-- `parse_data_t`, with the type of the message it comes in. -/
structure ParseData where
  /-- `msgtype`, the stream. -/
  msgType : ℤ
  /-- What it is. -/
  dataType : PacketType
  /-- The tick of the source. -/
  timeTick : BitVec 32
  /-- The sample rate, or the frame rate of pictures. -/
  sampleRate : ℕ
  /-- Picture width. -/
  width : BitVec 16
  /-- Picture height. -/
  height : BitVec 16
  /-- Not zero on a key frame. -/
  flags : ℤ
  /-- The frame. -/
  data : List Rtp.Byte
  deriving DecidableEq, Repr

/-- The packet is one of sound. -/
def ParseData.sound (pd : ParseData) : Bool := decide (pd.dataType = .rAudio)

/-- `set_hdb_freame_head`; `switch_audio_sample_rate` is the same function here as at the sender. -/
def setHdbFreameHead (pd : ParseData) : FrameHead where
  codec := match pd.dataType with
    | .rVideo => 0
    | .rJpeg => 2
    | .rAudio => 1
  samplerate := if pd.sound then udpSendSwitchAudioSampleRate pd.sampleRate else 0
  framerate := if pd.sound then 0 else BitVec.ofNat 8 pd.sampleRate
  width := pd.width
  height := pd.height
  iframe := if pd.flags ≠ 0 then 1 else 0
  reserve := 0
  framelength := BitVec.ofNat 32 pd.data.length

/-! ### The times of an encoder -/

/-- The times of `video_enc_info_t`. -/
structure EncTimes where
  /-- `HD_video_timestamp_ex` and `HD_video_timestamp_cache`. -/
  hdVideoStamp : Stamp
  /-- `BD_video_timestamp_ex` and `BD_video_timestamp_cache`. -/
  bdVideoStamp : Stamp
  /-- `HD_video_timestamp` and `HD_audio_timestamp_cache`. -/
  hdAudioStamp : Stamp
  /-- `BD_video_timestamp` and `BD_audio_timestamp_cache`. -/
  bdAudioStamp : Stamp
  /-- `HD_video_rpt_hand`. -/
  hdVideoRptHand : RtpBuildInfo
  /-- `BD_video_rpt_hand`. -/
  bdVideoRptHand : RtpBuildInfo
  /-- `HD_audio_rpt_hand`. -/
  hdAudioRptHand : AudioBuildInfo
  /-- `BD_audio_rpt_hand`. -/
  bdAudioRptHand : AudioBuildInfo
  deriving DecidableEq, Repr

namespace EncTimes

/-- The stamp of a quality, of sound or of pictures. -/
def stamp (e : EncTimes) (hd sound : Bool) : Stamp :=
  if hd then if sound then e.hdAudioStamp else e.hdVideoStamp
  else if sound then e.bdAudioStamp else e.bdVideoStamp

/-- It gets another value. -/
def setStamp (e : EncTimes) (hd sound : Bool) (s : Stamp) : EncTimes :=
  if hd then if sound then { e with hdAudioStamp := s } else { e with hdVideoStamp := s }
  else if sound then { e with bdAudioStamp := s } else { e with bdVideoStamp := s }

/-- The handle of pictures. -/
def videoHand (e : EncTimes) (hd : Bool) : RtpBuildInfo :=
  if hd then e.hdVideoRptHand else e.bdVideoRptHand

/-- What a builder leaves of it. -/
def setVideoHand (e : EncTimes) (hd : Bool) (h : RtpBuildInfo) : EncTimes :=
  if hd then { e with hdVideoRptHand := h } else { e with bdVideoRptHand := h }

/-- The handle of sound. -/
def audioHand (e : EncTimes) (hd : Bool) : AudioBuildInfo :=
  if hd then e.hdAudioRptHand else e.bdAudioRptHand

/-- What a builder leaves of it. -/
def setAudioHand (e : EncTimes) (hd : Bool) (h : AudioBuildInfo) : EncTimes :=
  if hd then { e with hdAudioRptHand := h } else { e with bdAudioRptHand := h }

/-- No times. `rtp_build_reset` clears a handle. -/
def init : EncTimes where
  hdVideoStamp := ⟨0, 0⟩
  bdVideoStamp := ⟨0, 0⟩
  hdAudioStamp := ⟨0, 0⟩
  bdAudioStamp := ⟨0, 0⟩
  hdVideoRptHand := ⟨0, 0⟩
  bdVideoRptHand := ⟨0, 0⟩
  hdAudioRptHand := ⟨0, 0, 0⟩
  bdAudioRptHand := ⟨0, 0, 0⟩

/-- The clock of a quality, of sound or of pictures. -/
def clock (e : EncTimes) (hd sound : Bool) : MediaClock :=
  ⟨e.stamp hd sound, if sound then (e.audioHand hd).timeOrg else (e.videoHand hd).timeOrg⟩

@[simp] theorem clock_init (hd sound : Bool) : init.clock hd sound = .init := by
  cases hd <;> cases sound <;> rfl

/-- A stamp belongs to one clock. -/
theorem clock_setStamp (e : EncTimes) (hd sound hd' sound' : Bool) (s : Stamp) :
    (e.setStamp hd sound s).clock hd' sound' =
      if hd' = hd ∧ sound' = sound then ⟨s, (e.clock hd sound).timeOrg⟩ else e.clock hd' sound' := by
  cases hd <;> cases sound <;> cases hd' <;> cases sound' <;> rfl

/-- So does a handle of pictures. -/
theorem clock_setVideoHand (e : EncTimes) (hd hd' sound' : Bool) (h : RtpBuildInfo) :
    (e.setVideoHand hd h).clock hd' sound' =
      if hd' = hd ∧ sound' = false then ⟨(e.clock hd false).stamp, h.timeOrg⟩
      else e.clock hd' sound' := by
  cases hd <;> cases hd' <;> cases sound' <;> rfl

/-- So does a handle of sound. -/
theorem clock_setAudioHand (e : EncTimes) (hd hd' sound' : Bool) (h : AudioBuildInfo) :
    (e.setAudioHand hd h).clock hd' sound' =
      if hd' = hd ∧ sound' = true then ⟨(e.clock hd true).stamp, h.timeOrg⟩
      else e.clock hd' sound' := by
  cases hd <;> cases hd' <;> cases sound' <;> rfl

end EncTimes

/-! ### The functions -/

/-- The definition is the high one. -/
def VideoDataType.hd (d : VideoDataType) : Bool := decide (d.dataQuqlity = videoDataTypeHd)

/-- The part of `get_video_data_info` for JPEG. It uses the base of sound, and looks at no tick
before. -/
def Stamp.takeJpeg (s : Stamp) (timestamp : BitVec 32) : Stamp × BitVec 32 :=
  if s.base = 0 then (⟨timestamp, s.cache⟩, 0)
  else (⟨if maxRelative < timestamp - s.base then 0 else s.base, s.cache⟩, timestamp - s.base)

/-- What `get_video_data_info` does with the times of the encoder that it finds; the relative tick is
`video_timestamp`. -/
def takeTimestamp (e : EncTimes) (d : VideoDataType) (pd : ParseData) : EncTimes × BitVec 32 :=
  if d.dataType = videoH264 then
    let taken := (e.stamp d.hd pd.sound).take pd.timeTick
    (e.setStamp d.hd pd.sound taken.1, taken.2)
  else
    let taken := e.hdAudioStamp.takeJpeg pd.timeTick
    ({ e with hdAudioStamp := taken.1 }, taken.2)

/-- `MAX_VOD_MEDIA_PACK_LEN - 20`, the `rtp_mtu` of the builders. -/
def livesMtu : ℕ := 1280

/-- What `send_video_data_pdg` sends, with the handle that `local_media_data_pkg` chooses. -/
def sendVideoDataPdgSent (e : EncTimes) (d : VideoDataType) (pd : ParseData)
    (videoTimestamp : BitVec 32) : Option (EncTimes × List (List Rtp.Byte)) :=
  match pd.dataType with
  | .rVideo =>
    let r := rtpBuildVideoData (e.videoHand d.hd) pd.data livesMtu videoTimestamp
      (setHdbFreameHead pd)
    some (e.setVideoHand d.hd r.1, r.2)
  | .rJpeg =>
    let r := rtpBuildJpegData e.hdVideoRptHand pd.data videoTimestamp livesMtu (setHdbFreameHead pd)
    some (e.setVideoHand true r.1, r.2)
  | .rAudio =>
    (rtpBuildAudioData (e.audioHand d.hd) pd.data pd.sampleRate livesMtu videoTimestamp
      (setHdbFreameHead pd)).map fun r => (e.setAudioHand d.hd r.1, r.2)

/-- The times of the encoders. -/
abbrev LiveTimes := ℕ → EncTimes

/-- The part of `local_media_data_pkg` for the times and for what is sent. -/
def localMediaDataPkgSent (enc : VideoSindexInfo) (times : LiveTimes) (users : Users)
    (pd : ParseData) : Option (LiveTimes × List (List Rtp.Byte)) :=
  if users.userNum = 0 then some (times, [])
  else
    match getVideoDataInfo pd.msgType enc with
    | none => some (times, [])
    | some d =>
      let taken := takeTimestamp (times d.videoSindex) d pd
      if getSendUserinfo d users = [] then some (Function.update times d.videoSindex taken.1, [])
      else (sendVideoDataPdgSent taken.1 d pd taken.2).map fun r =>
        (Function.update times d.videoSindex r.1, r.2)

/-- `reset_enc_time_info`; `reset_live_mode_enc_time` does it to each encoder, one after the other. -/
def resetEncTimeInfo (times : LiveTimes) (sindex : ℕ) : LiveTimes :=
  Function.update times sindex .init

/-- What happens to the times. -/
inductive MediaEvent
  /-- A packet from the queue, and the users that there are. -/
  | data (users : Users) (pd : ParseData)
  /-- An encoder is reset. -/
  | reset (sindex : ℕ)

/-- A step of a live room. -/
def mediaStep (enc : VideoSindexInfo) (times : LiveTimes) :
    MediaEvent → Option (LiveTimes × List (List Rtp.Byte))
  | .data users pd => localMediaDataPkgSent enc times users pd
  | .reset sindex => some (resetEncTimeInfo times sindex, [])

/-- The times after it. -/
def mediaNext (enc : VideoSindexInfo) (times : LiveTimes) (ev : MediaEvent) : Option LiveTimes :=
  (mediaStep enc times ev).map Prod.fst

/-- The times after a run. -/
def mediaRun (enc : VideoSindexInfo) (times : LiveTimes) (evs : List MediaEvent) : Option LiveTimes :=
  evs.foldlM (mediaNext enc) times

/-! ### Streams -/

/-- A stream of H.264: pictures or sound of an encoder. -/
structure Stream where
  /-- The encoder. -/
  index : ℕ
  /-- The definition is the high one. -/
  hd : Bool
  /-- It is sound. -/
  sound : Bool
  deriving DecidableEq, Repr

/-- The stream of H.264 that a packet is of. -/
def streamOf (enc : VideoSindexInfo) (pd : ParseData) : Option Stream :=
  (getVideoDataInfo pd.msgType enc).bind fun d =>
    if d.dataType = videoH264 then some ⟨d.videoSindex, d.hd, pd.sound⟩ else none

/-- The clock of a stream. -/
def clockOf (times : LiveTimes) (x : Stream) : MediaClock := (times x.index).clock x.hd x.sound

/-- The tick of a packet of the stream, if the packet is looked at. -/
def sourceTick (enc : VideoSindexInfo) (x : Stream) : MediaEvent → Option (BitVec 32)
  | .data users pd =>
    if users.userNum ≠ 0 ∧ streamOf enc pd = some x then some pd.timeTick else none
  | .reset _ => none

/-- No packet of the stream takes a base. -/
def FindsBase (enc : VideoSindexInfo) (x : Stream) (times : LiveTimes) (ev : MediaEvent) : Prop :=
  (sourceTick enc x ev).isSome → (clockOf times x).stamp.base ≠ 0

instance (enc : VideoSindexInfo) (x : Stream) (times : LiveTimes) (ev : MediaEvent) :
    Decidable (FindsBase enc x times ev) := inferInstanceAs (Decidable (_ → _))

/-- Pictures, or sound of the rate of the packet. -/
def ParseData.medium (pd : ParseData) : Medium :=
  if pd.sound then .audio pd.sampleRate else .video

/-! ### A stream is a clock -/

/-- A frame of sound has a part. -/
def soundParts (pData : List Rtp.Byte) (rtpMtu : ℕ) : Bool :=
  decide (0 < (((List.range (soundCount pData)).map
    (audioPayload pData (syncOffsets pData) (soundCount pData))).map fun p =>
      (audioParts (rtpMtu - 14) p.length p).length).sum)

/-- What a packet is for the clock of a stream. -/
def clockEvent (enc : VideoSindexInfo) (x : Stream) : MediaEvent → Option ClockEvent
  | .data users pd =>
    if users.userNum ≠ 0 ∧ streamOf enc pd = some x then
      if pd.dataType = .rJpeg ∨
          ∀ d ∈ getVideoDataInfo pd.msgType enc, getSendUserinfo d users = [] then
        some (.skip pd.timeTick)
      else some (.build pd.medium (!pd.sound || soundParts pd.data livesMtu) pd.timeTick)
    else none
  | .reset sindex => if sindex = x.index then some .reset else none

variable {enc : VideoSindexInfo} {x : Stream} {pd : ParseData} {times times' : LiveTimes}
  {ev : MediaEvent} {pkts : List (List Rtp.Byte)}

/-- Both have the same tick. -/
theorem tick?_clockEvent (enc : VideoSindexInfo) (x : Stream) (ev : MediaEvent) :
    (clockEvent enc x ev).bind ClockEvent.tick? = sourceTick enc x ev := by
  cases ev with
  | data users pd =>
    rw [clockEvent, sourceTick]
    split_ifs <;> rfl
  | reset sindex =>
    rw [clockEvent, sourceTick]
    split_ifs <;> rfl

/-- The stream of a packet, and what is said of the packet. -/
theorem streamOf_eq_some (hx : streamOf enc pd = some x) : ∃ d,
    getVideoDataInfo pd.msgType enc = some d ∧ d.dataType = videoH264 ∧ d.videoSindex = x.index ∧
      d.hd = x.hd ∧ pd.sound = x.sound := by
  obtain ⟨d, hd, hstream⟩ := Option.bind_eq_some_iff.mp hx
  split_ifs at hstream with htype
  obtain rfl := Option.some.inj hstream
  exact ⟨d, hd, htype, rfl, rfl, rfl⟩

/-- A builder for pictures leaves the base that the clock has. -/
theorem timeOrg_rtpBuildVideoData (h : RtpBuildInfo) (pData : List Rtp.Byte) {rtpMtu : ℕ}
    (hmtu : 228 ≤ rtpMtu) (nowtime : BitVec 32) (head : FrameHead) :
    (rtpBuildVideoData h pData rtpMtu nowtime head).1.timeOrg =
      orgAfter .video true h.timeOrg nowtime := by
  rw [rtpBuildVideoData, if_neg (by omega), orgAfter]
  simp only [and_true]
  rfl

/-- So does the builder for sound. -/
theorem timeOrg_rtpBuildAudioData {h h' : AudioBuildInfo} {pData : List Rtp.Byte}
    {samplerate rtpMtu : ℕ} {nowtime : BitVec 32} {head : FrameHead}
    (hsent : rtpBuildAudioData h pData samplerate rtpMtu nowtime head = some (h', pkts)) :
    h'.timeOrg = orgAfter (.audio samplerate) (soundParts pData rtpMtu) h.timeOrg nowtime := by
  rw [rtpBuildAudioData, buildAudioData] at hsent
  change (if 5 < (syncOffsets pData).length ∨ soundCount pData = 5 then none else some (_, _)) = _
    at hsent
  by_cases hfull : 5 < (syncOffsets pData).length ∨ soundCount pData = 5
  · rw [if_pos hfull] at hsent
    exact absurd hsent (by simp)
  · rw [if_neg hfull] at hsent
    obtain ⟨rfl, -⟩ := Prod.mk.inj (Option.some.inj hsent)
    rw [orgAfter, soundParts]
    simp only [decide_eq_true_eq]
    rfl

/-- The clock of a packet's stream after `get_video_data_info`. -/
theorem clock_takeTimestamp (e : EncTimes) {d : VideoDataType} (hd : d.dataType = videoH264)
    (pd : ParseData) (hd' sound' : Bool) :
    (takeTimestamp e d pd).1.clock hd' sound' =
      if hd' = d.hd ∧ sound' = pd.sound then
        ⟨((e.clock d.hd pd.sound).stamp.take pd.timeTick).1, (e.clock d.hd pd.sound).timeOrg⟩
      else e.clock hd' sound' := by
  rw [takeTimestamp, if_pos hd]
  exact EncTimes.clock_setStamp ..

/-- What is sent of a packet moves the clock of its stream only. -/
theorem clock_sendVideoDataPdgSent {e e' : EncTimes} {d : VideoDataType} {videoTimestamp : BitVec 32}
    (hsent : sendVideoDataPdgSent e d pd videoTimestamp = some (e', pkts)) (hd' sound' : Bool) :
    e'.clock hd' sound' =
      if pd.dataType ≠ .rJpeg ∧ hd' = d.hd ∧ sound' = pd.sound then
        ⟨(e.clock d.hd pd.sound).stamp, orgAfter pd.medium (!pd.sound || soundParts pd.data livesMtu)
          (e.clock d.hd pd.sound).timeOrg videoTimestamp⟩
      else e.clock hd' sound' := by
  cases htype : pd.dataType with
  | rVideo =>
    have hsound : pd.sound = false := by
      rw [ParseData.sound, htype]
      rfl
    rw [sendVideoDataPdgSent, htype] at hsent
    obtain ⟨rfl, -⟩ := Prod.mk.inj (Option.some.inj hsent)
    rw [EncTimes.clock_setVideoHand, timeOrg_rtpBuildVideoData _ _ (by decide), ParseData.medium,
      hsound]
    simp only [ne_eq, reduceCtorEq, not_false_eq_true, true_and]
    rfl
  | rJpeg =>
    rw [sendVideoDataPdgSent, htype] at hsent
    obtain ⟨rfl, -⟩ := Prod.mk.inj (Option.some.inj hsent)
    rw [EncTimes.clock_setVideoHand]
    -- the handle keeps its base
    split_ifs with hsame hother hother
    · exact absurd rfl hother.1
    · obtain ⟨rfl, rfl⟩ := hsame
      rfl
    · exact absurd rfl hother.1
    · rfl
  | rAudio =>
    have hsound : pd.sound = true := by
      rw [ParseData.sound, htype]
      rfl
    rw [sendVideoDataPdgSent, htype] at hsent
    obtain ⟨⟨h', pkts'⟩, hbuild, heq⟩ := Option.map_eq_some_iff.mp hsent
    obtain ⟨rfl, -⟩ := Prod.mk.inj heq
    rw [EncTimes.clock_setAudioHand, timeOrg_rtpBuildAudioData hbuild, ParseData.medium, hsound]
    simp only [ne_eq, reduceCtorEq, not_false_eq_true, true_and]
    rfl

/-- The encoder that is found is of the type that is said. -/
theorem encType_of_videoDataInfoFrom {msgType : ℤ} {index : ℕ} {encs : List VideoEncInfo}
    {d : VideoDataType} (hd : videoDataInfoFrom msgType index encs = some d) :
    ∃ i e, encs[i]? = some e ∧ d.videoSindex = index + i ∧ e.encType = d.dataType := by
  induction encs generalizing index with
  | nil => exact absurd hd (by simp [videoDataInfoFrom])
  | cons e encs ih =>
    have hrest : videoDataInfoFrom msgType (index + 1) encs = some d → ∃ i e', (e :: encs)[i]? = some e' ∧
        d.videoSindex = index + i ∧ e'.encType = d.dataType := by
      intro hfound
      obtain ⟨i, e', he', hindex, htype⟩ := ih hfound
      exact ⟨i + 1, e', he', by omega, htype⟩
    rw [videoDataInfoFrom] at hd
    split_ifs at hd with hnone htype hhigh hlow htype hhigh
    · exact hrest hd
    · obtain rfl := Option.some.inj hd
      exact ⟨0, e, rfl, rfl, htype⟩
    · obtain rfl := Option.some.inj hd
      exact ⟨0, e, rfl, rfl, htype⟩
    · exact hrest hd
    · obtain rfl := Option.some.inj hd
      exact ⟨0, e, rfl, rfl, htype⟩
    · exact hrest hd

/-- Two packets of one encoder are of streams of one type. -/
theorem dataType_eq {msgType msgType' : ℤ} {d d' : VideoDataType}
    (hd : getVideoDataInfo msgType enc = some d) (hd' : getVideoDataInfo msgType' enc = some d')
    (hindex : d.videoSindex = d'.videoSindex) : d.dataType = d'.dataType := by
  obtain ⟨i, e, he, hi, htype⟩ := encType_of_videoDataInfoFrom hd
  obtain ⟨i', e', he', hi', htype'⟩ := encType_of_videoDataInfoFrom hd'
  obtain rfl : i = i' := by omega
  obtain rfl := Option.some.inj (he.symm.trans he')
  exact htype.symm.trans htype'

theorem clockOf_update (times : LiveTimes) (i : ℕ) (e : EncTimes) (x : Stream) :
    clockOf (Function.update times i e) x =
      if x.index = i then e.clock x.hd x.sound else clockOf times x := by
  rw [clockOf, Function.update_apply]
  split_ifs <;> rfl

/-- A packet changes the times of its encoder only. -/
theorem exists_update {users : Users} {d : VideoDataType}
    (hd : getVideoDataInfo pd.msgType enc = some d)
    (hstep : mediaStep enc times (.data users pd) = some (times', pkts)) :
    ∃ e, times' = Function.update times d.videoSindex e := by
  simp only [mediaStep, localMediaDataPkgSent, hd] at hstep
  split_ifs at hstep with huser hnobody
  · obtain ⟨rfl, -⟩ := Prod.mk.inj (Option.some.inj hstep)
    exact ⟨_, (Function.update_eq_self ..).symm⟩
  · obtain ⟨rfl, -⟩ := Prod.mk.inj (Option.some.inj hstep)
    exact ⟨_, rfl⟩
  · obtain ⟨⟨e, sent⟩, -, heq⟩ := Option.map_eq_some_iff.mp hstep
    obtain ⟨rfl, -⟩ := Prod.mk.inj heq
    exact ⟨e, rfl⟩

/-- A packet of a stream of H.264: the clock of the encoder that it leaves. -/
theorem clock_of_h264 {users : Users} {d : VideoDataType} (huser : users.userNum ≠ 0)
    (hd : getVideoDataInfo pd.msgType enc = some d) (htype : d.dataType = videoH264)
    (hstep : mediaStep enc times (.data users pd) = some (times', pkts)) :
    ∃ e, times' = Function.update times d.videoSindex e ∧ ∀ hd' sound',
      e.clock hd' sound' = if hd' = d.hd ∧ sound' = pd.sound then
        ((((times d.videoSindex).clock d.hd pd.sound)).step
          (if pd.dataType = .rJpeg ∨ getSendUserinfo d users = [] then .skip pd.timeTick
            else .build pd.medium (!pd.sound || soundParts pd.data livesMtu) pd.timeTick)).1
        else (times d.videoSindex).clock hd' sound' := by
  have htick : (takeTimestamp (times d.videoSindex) d pd).2 =
      (((times d.videoSindex).clock d.hd pd.sound).stamp.take pd.timeTick).2 := by
    rw [takeTimestamp, if_pos htype]
    rfl
  have htaken : (takeTimestamp (times d.videoSindex) d pd).1.clock d.hd pd.sound =
      ⟨(((times d.videoSindex).clock d.hd pd.sound).stamp.take pd.timeTick).1,
        ((times d.videoSindex).clock d.hd pd.sound).timeOrg⟩ := by
    rw [clock_takeTimestamp _ htype, if_pos ⟨rfl, rfl⟩]
  simp only [mediaStep, localMediaDataPkgSent, if_neg huser, hd] at hstep
  by_cases hnobody : getSendUserinfo d users = []
  · rw [if_pos hnobody] at hstep
    obtain ⟨rfl, -⟩ := Prod.mk.inj (Option.some.inj hstep)
    refine ⟨_, rfl, fun hd' sound' => ?_⟩
    rw [clock_takeTimestamp _ htype, if_pos (Or.inr hnobody)]
    rfl
  · rw [if_neg hnobody] at hstep
    obtain ⟨⟨e, sent⟩, hsent, heq⟩ := Option.map_eq_some_iff.mp hstep
    obtain ⟨rfl, -⟩ := Prod.mk.inj heq
    refine ⟨e, rfl, fun hd' sound' => ?_⟩
    rw [clock_sendVideoDataPdgSent hsent, htaken, htick]
    by_cases hsame : hd' = d.hd ∧ sound' = pd.sound
    · rw [if_pos hsame]
      by_cases hjpeg : pd.dataType = .rJpeg
      · have hnot : ¬ (pd.dataType ≠ .rJpeg ∧ hd' = d.hd ∧ sound' = pd.sound) := fun h => h.1 hjpeg
        rw [if_neg hnot, clock_takeTimestamp _ htype, if_pos hsame, if_pos (Or.inl hjpeg)]
        rfl
      · rw [if_pos ⟨hjpeg, hsame⟩, if_neg (not_or.mpr ⟨hjpeg, hnobody⟩)]
        rfl
    · rw [if_neg fun h : _ ∧ _ => hsame h.2, clock_takeTimestamp _ htype, if_neg hsame, if_neg hsame]

/-- A packet of H.264, and the clock of a stream. -/
theorem clockOf_of_h264 {users : Users} {d : VideoDataType} (huser : users.userNum ≠ 0)
    (hd : getVideoDataInfo pd.msgType enc = some d) (htype : d.dataType = videoH264)
    (hstep : mediaStep enc times (.data users pd) = some (times', pkts)) :
    clockOf times' x = (clockEvent enc x (.data users pd)).elim (clockOf times x)
      fun ce => ((clockOf times x).step ce).1 := by
  obtain ⟨e, rfl, hclock⟩ := clock_of_h264 huser hd htype hstep
  have hstream : streamOf enc pd = some ⟨d.videoSindex, d.hd, pd.sound⟩ := by
    rw [streamOf, hd, Option.bind_some, if_pos htype]
  rw [clockEvent]
  by_cases hsame : (⟨d.videoSindex, d.hd, pd.sound⟩ : Stream) = x
  · obtain rfl := hsame
    rw [if_pos ⟨huser, hstream⟩, clockOf_update, if_pos rfl, hclock, if_pos ⟨rfl, rfl⟩, hd]
    by_cases hskip : pd.dataType = .rJpeg ∨ getSendUserinfo d users = []
    · have hskip' : pd.dataType = .rJpeg ∨
          ∀ d' ∈ some d, getSendUserinfo d' users = [] := by simpa using hskip
      rw [if_pos hskip, if_pos hskip']
      rfl
    · have hskip' : ¬ (pd.dataType = .rJpeg ∨
          ∀ d' ∈ some d, getSendUserinfo d' users = []) := by simpa using hskip
      rw [if_neg hskip, if_neg hskip']
      rfl
  · have hother : ¬ (users.userNum ≠ 0 ∧ streamOf enc pd = some x) := by
      rintro ⟨-, hx⟩
      exact hsame (Option.some.inj (hstream.symm.trans hx))
    rw [if_neg hother, clockOf_update]
    split_ifs with hindex
    · have hclock' : ¬ (x.hd = d.hd ∧ x.sound = pd.sound) := by
        rintro ⟨hhd, hsound⟩
        refine hsame ?_
        rw [← hindex, ← hhd, ← hsound]
      rw [hclock, if_neg hclock', ← hindex]
      rfl
    · rfl

/-- Another type of encoder is another encoder, and its packets leave the clock. -/
theorem clockOf_of_not_h264 {users : Users} {d : VideoDataType} (hx : ∃ pd, streamOf enc pd = some x)
    (hd : getVideoDataInfo pd.msgType enc = some d) (htype : d.dataType ≠ videoH264)
    (hstep : mediaStep enc times (.data users pd) = some (times', pkts)) :
    clockOf times' x = (clockEvent enc x (.data users pd)).elim (clockOf times x)
      fun ce => ((clockOf times x).step ce).1 := by
  obtain ⟨pd₀, hpd₀⟩ := hx
  obtain ⟨d₀, hd₀, htype₀, hindex₀, -⟩ := streamOf_eq_some hpd₀
  have hindex : x.index ≠ d.videoSindex := by
    intro hindex
    exact htype ((dataType_eq hd hd₀ (hindex.symm.trans hindex₀.symm)).trans htype₀)
  have hother : ¬ (users.userNum ≠ 0 ∧ streamOf enc pd = some x) := by
    rintro ⟨-, hx⟩
    obtain ⟨d', hd', htype', -⟩ := streamOf_eq_some hx
    obtain rfl := Option.some.inj (hd.symm.trans hd')
    exact htype htype'
  obtain ⟨e, rfl⟩ := exists_update hd hstep
  rw [clockEvent, if_neg hother, clockOf_update, if_neg hindex]
  rfl

/-- **A step of the room** is a step of the clock of a stream, or none. -/
theorem clockOf_mediaStep (hx : ∃ pd, streamOf enc pd = some x)
    (hstep : mediaStep enc times ev = some (times', pkts)) :
    clockOf times' x = (clockEvent enc x ev).elim (clockOf times x)
      fun ce => ((clockOf times x).step ce).1 := by
  cases ev with
  | reset sindex =>
    obtain ⟨rfl, -⟩ := Prod.mk.inj (Option.some.inj hstep)
    rw [clockEvent, resetEncTimeInfo, clockOf_update]
    by_cases hindex : sindex = x.index
    · rw [if_pos hindex, if_pos hindex.symm, EncTimes.clock_init]
      rfl
    · rw [if_neg hindex, if_neg (Ne.symm hindex)]
      rfl
  | data users pd =>
    by_cases huser : users.userNum = 0
    · rw [mediaStep, localMediaDataPkgSent, if_pos huser] at hstep
      obtain ⟨rfl, -⟩ := Prod.mk.inj (Option.some.inj hstep)
      rw [clockEvent, if_neg fun h => h.1 huser]
      rfl
    · rcases hd : getVideoDataInfo pd.msgType enc with _ | d
      · simp only [mediaStep, localMediaDataPkgSent, if_neg huser, hd] at hstep
        obtain ⟨rfl, -⟩ := Prod.mk.inj (Option.some.inj hstep)
        have hnone : streamOf enc pd ≠ some x := by
          rw [streamOf, hd]
          simp
        rw [clockEvent, if_neg fun h => hnone h.2]
        rfl
      · by_cases htype : d.dataType = videoH264
        · exact clockOf_of_h264 huser hd htype hstep
        · exact clockOf_of_not_h264 hx hd htype hstep

/-- **A run of the room** is a run of the clock of each stream. -/
theorem clockOf_mediaRun {evs : List MediaEvent} (hx : ∃ pd, streamOf enc pd = some x)
    (hrun : mediaRun enc times evs = some times') :
    clockOf times' x =
      Run.final MediaClock.step (clockOf times x) (evs.filterMap (clockEvent enc x)) := by
  induction evs generalizing times with
  | nil =>
    obtain rfl := Option.some.inj hrun
    rfl
  | cons ev evs ih =>
    rw [mediaRun, List.foldlM_cons] at hrun
    obtain ⟨times₁, hnext, hrest⟩ := Option.bind_eq_some_iff.mp hrun
    obtain ⟨⟨times₁, pkts⟩, hstep, rfl⟩ := Option.map_eq_some_iff.mp hnext
    rw [ih hrest, clockOf_mediaStep hx hstep]
    cases hevent : clockEvent enc x ev with
    | none => rw [List.filterMap_cons_none hevent, Option.elim_none]
    | some ce => rw [List.filterMap_cons_some hevent, Option.elim_some, Run.final_cons]

/-- If no packet of the stream takes a base, no event of its clock does. -/
theorem along_keepsBase {mid : List MediaEvent} {ce : ClockEvent}
    (hx : ∃ pd, streamOf enc pd = some x) (hce : clockEvent enc x ev = some ce)
    (hmid : mediaRun enc times mid = some times')
    (hbase : Run.AlongSome (mediaNext enc) (FindsBase enc x) times (mid ++ [ev])) :
    Run.Along MediaClock.step KeepsBase (clockOf times x)
      (mid.filterMap (clockEvent enc x) ++ [ce]) := by
  have hone : ∀ {ev ce} {times : LiveTimes}, clockEvent enc x ev = some ce →
      FindsBase enc x times ev → KeepsBase (clockOf times x) ce := by
    intro ev ce times hce hfinds htick
    refine hfinds ?_
    rwa [← tick?_clockEvent, hce, Option.bind_some]
  induction mid generalizing times with
  | nil => exact ⟨hone hce hbase.1, trivial⟩
  | cons d mid ih =>
    rw [mediaRun, List.foldlM_cons] at hmid
    obtain ⟨times₁, hnext, hrest⟩ := Option.bind_eq_some_iff.mp hmid
    have ih := ih hrest (hbase.2 times₁ hnext)
    obtain ⟨⟨times₁, pkts⟩, hstep, rfl⟩ := Option.map_eq_some_iff.mp hnext
    rw [clockOf_mediaStep hx hstep] at ih
    cases hevent : clockEvent enc x d with
    | none =>
      rw [List.filterMap_cons_none hevent]
      rwa [hevent] at ih
    | some ce' =>
      rw [List.filterMap_cons_some hevent]
      rw [hevent] at ih
      exact ⟨hone hevent hbase.1, ih⟩

/-! ### Packets -/

theorem timestampOf_audioPacket (last : Bool) (seq : BitVec 16) (ts ssrc : BitVec 32) (head : FrameHead)
    (payload : List Rtp.Byte) :
    timestampOf (packet (audioRtpHead last seq ts ssrc) head payload) = ts := by
  rw [timestampOf, rtpHeadAt_packet]
  rfl

/-- Each packet of a frame has the timestamp of the clock. -/
theorem timestampOf_sent {e e' : EncTimes} {d : VideoDataType} {videoTimestamp : BitVec 32}
    (hjpeg : pd.dataType ≠ .rJpeg)
    (hsent : sendVideoDataPdgSent e d pd videoTimestamp = some (e', pkts)) :
    ∀ pkt ∈ pkts, timestampOf pkt =
      pd.medium.timestamp (senderTick (e.clock d.hd pd.sound).timeOrg videoTimestamp) := by
  intro pkt hpkt
  cases htype : pd.dataType with
  | rVideo =>
    have hsound : pd.sound = false := by
      rw [ParseData.sound, htype]
      rfl
    rw [sendVideoDataPdgSent, htype] at hsent
    obtain ⟨-, rfl⟩ := Prod.mk.inj (Option.some.inj hsent)
    rw [rtpBuildVideoData, if_neg (by decide)] at hpkt
    rw [((packets_nalus _ _ (by decide) _ _).1 pkt hpkt).1, ParseData.medium, hsound]
    rfl
  | rJpeg => exact absurd htype hjpeg
  | rAudio =>
    have hsound : pd.sound = true := by
      rw [ParseData.sound, htype]
      rfl
    rw [sendVideoDataPdgSent, htype] at hsent
    obtain ⟨⟨h', pkts'⟩, hbuild, heq⟩ := Option.map_eq_some_iff.mp hsent
    obtain ⟨-, rfl⟩ := Prod.mk.inj heq
    obtain ⟨head', hpkts⟩ := rtpBuildAudioData_sent hbuild
    rw [hpkts] at hpkt
    split_ifs at hpkt
    · obtain ⟨⟨part, t⟩, -, rfl⟩ := List.mem_map.mp hpkt
      rw [timestampOf_audioPacket, ParseData.medium, hsound]
      rfl
    · exact absurd hpkt List.not_mem_nil

/-- A packet of a stream that is sent in some packets is an event of its clock, and they have the
timestamp of the clock. -/
theorem timestampOf_mediaStep {users : Users} (hx : streamOf enc pd = some x)
    (hjpeg : pd.dataType ≠ .rJpeg)
    (hstep : mediaStep enc times (.data users pd) = some (times', pkts)) {pkt : List Rtp.Byte}
    (hpkt : pkt ∈ pkts) :
    ∃ parts, clockEvent enc x (.data users pd) = some (.build pd.medium parts pd.timeTick) ∧
      ((clockOf times x).step (.build pd.medium parts pd.timeTick)).2 = some (timestampOf pkt) := by
  obtain ⟨d, hd, htype, hindex, hhd, hsound⟩ := streamOf_eq_some hx
  simp only [mediaStep, localMediaDataPkgSent, hd] at hstep
  split_ifs at hstep with huser hnobody
  · obtain ⟨-, rfl⟩ := Prod.mk.inj (Option.some.inj hstep)
    exact absurd hpkt List.not_mem_nil
  · obtain ⟨-, rfl⟩ := Prod.mk.inj (Option.some.inj hstep)
    exact absurd hpkt List.not_mem_nil
  · obtain ⟨⟨e, sent⟩, hsent, heq⟩ := Option.map_eq_some_iff.mp hstep
    obtain ⟨-, rfl⟩ := Prod.mk.inj heq
    have hskip : ¬ (pd.dataType = .rJpeg ∨ ∀ d' ∈ getVideoDataInfo pd.msgType enc,
        getSendUserinfo d' users = []) := not_or.mpr ⟨hjpeg, fun h => hnobody (h d hd)⟩
    refine ⟨_, by rw [clockEvent, if_pos ⟨huser, hx⟩, if_neg hskip], ?_⟩
    rw [timestampOf_sent hjpeg hsent pkt hpkt, clock_takeTimestamp _ htype, if_pos ⟨rfl, rfl⟩,
      takeTimestamp, if_pos htype, clockOf, ← hindex, ← hhd, ← hsound]
    rfl

/-- **The media time.** The timestamps of two packets of a stream of H.264, sent after the same base was
taken, differ by what has passed between them exactly when `TimeKept`. -/
theorem keepsMediaTime_iff {times₁ times₂ times₃ times₄ : LiveTimes} {pre mid : List MediaEvent}
    {users users' : Users} {pd' : ParseData} {pkts' : List (List Rtp.Byte)}
    (hx : streamOf enc pd = some x) (hx' : streamOf enc pd' = some x)
    (hjpeg : pd.dataType ≠ .rJpeg) (hjpeg' : pd'.dataType ≠ .rJpeg)
    (hm : pd.medium.Supported) (hrate : pd'.medium = pd.medium)
    (hticks : SourceTicks ((pre ++ MediaEvent.data users pd ::
      (mid ++ [MediaEvent.data users' pd'])).filterMap (sourceTick enc x)))
    (hpre : mediaRun enc (fun _ => .init) pre = some times₁)
    (hsent : mediaStep enc times₁ (.data users pd) = some (times₂, pkts))
    (hmid : mediaRun enc times₂ mid = some times₃)
    (hsent' : mediaStep enc times₃ (.data users' pd') = some (times₄, pkts'))
    (hbase : Run.AlongSome (mediaNext enc) (FindsBase enc x) times₂ (mid ++ [.data users' pd'])) :
    ∀ pkt ∈ pkts, ∀ pkt' ∈ pkts',
      (KeepsTime pd.medium (timestampOf pkt) (timestampOf pkt')
          (pd'.timeTick.toNat - pd.timeTick.toNat) ↔
        TimeKept pd.medium (clockOf times₁ x) (clockOf times₃ x) pd.timeTick pd'.timeTick) := by
  intro pkt hpkt pkt' hpkt'
  obtain ⟨parts, hevent, hts⟩ := timestampOf_mediaStep hx hjpeg hsent hpkt
  obtain ⟨parts', hevent', hts'⟩ := timestampOf_mediaStep hx' hjpeg' hsent' hpkt'
  rw [hrate] at hevent' hts'
  have hstream : ∃ pd, streamOf enc pd = some x := ⟨pd, hx⟩
  have hstep := clockOf_mediaStep hstream hsent
  rw [hevent, Option.elim_some] at hstep
  have hfinal := clockOf_mediaRun hstream hmid
  rw [hstep] at hfinal
  have hkeeps := along_keepsBase hstream hevent' hmid hbase
  rw [hstep] at hkeeps
  have hstart := clockOf_mediaRun hstream hpre
  have hinit : clockOf (fun _ => .init) x = .init := EncTimes.clock_init ..
  rw [hinit] at hstart
  have hevents : (pre ++ MediaEvent.data users pd :: (mid ++ [MediaEvent.data users' pd'])).filterMap
      (sourceTick enc x) = (pre.filterMap (clockEvent enc x) ++ ClockEvent.build pd.medium parts pd.timeTick ::
        (mid.filterMap (clockEvent enc x) ++ [ClockEvent.build pd.medium parts' pd'.timeTick])).filterMap
          ClockEvent.tick? := by
    have hcomp : sourceTick enc x = fun ev => (clockEvent enc x ev).bind ClockEvent.tick? := by
      funext ev
      exact (tick?_clockEvent enc x ev).symm
    rw [hcomp, ← List.filterMap_filterMap, List.filterMap_append (f := clockEvent enc x),
      List.filterMap_cons_some hevent, List.filterMap_append (f := clockEvent enc x),
      List.filterMap_cons_some hevent', List.filterMap_nil]
  rw [hevents] at hticks
  have hfollows : Run.Along MediaClock.step Follows .init _ :=
    along_follows hticks fun hne => absurd rfl hne
  rw [Run.along_append, ← hstart] at hfollows
  have hrange : InRange (clockOf times₁ x) := by
    rw [hstart]
    exact inRange_init.final hfollows.1
  exact keepsTime_iff_timeKept hm hrange hfollows.2 hkeeps hfinal.symm hts hts'

/-- One encoder, with streams `1` and `2`. -/
def oneEncoder : VideoSindexInfo := ⟨1, [⟨1, 2, videoH264⟩]⟩

/-- A picture of the first stream. -/
def pictureAt (timeTick : BitVec 32) : ParseData :=
  ⟨1, .rVideo, timeTick, 25, 1280, 720, 0, [0, 0, 0, 1, 0x41, 0x9a]⟩

/-- It comes while there is one user. -/
def pictureEvent (timeTick : BitVec 32) : MediaEvent := .data oneUser (pictureAt timeTick)

/-- The base after the first of two pictures, and the timestamps of both. -/
def twoPictures (t t' : BitVec 32) : Option (BitVec 32 × List (BitVec 32) × List (BitVec 32)) :=
  (mediaStep oneEncoder (fun _ => .init) (pictureEvent t)).bind fun r =>
    (mediaStep oneEncoder r.1 (pictureEvent t')).map fun r' =>
      ((clockOf r.1 ⟨0, true, false⟩).stamp.base, r.2.map timestampOf, r'.2.map timestampOf)

/-- The first two pictures of a stream have the same timestamp. -/
theorem exists_twoPictures : ∃ r r',
    mediaStep oneEncoder (fun _ => .init) (pictureEvent 1000) = some r ∧
      mediaStep oneEncoder r.1 (pictureEvent 1040) = some r' ∧
      (clockOf r.1 ⟨0, true, false⟩).stamp.base = 1000 ∧
      r.2.map timestampOf = [0] ∧ r'.2.map timestampOf = [0] := by
  have htwo : twoPictures 1000 1040 = some (1000, [0], [0]) := by decide +kernel
  obtain ⟨r, hr, hrest⟩ := Option.bind_eq_some_iff.mp htwo
  obtain ⟨r', hr', heq⟩ := Option.map_eq_some_iff.mp hrest
  obtain ⟨hbase, hpkts⟩ := Prod.mk.inj heq
  obtain ⟨hts, hts'⟩ := Prod.mk.inj hpkts
  exact ⟨r, r', hr, hr', hbase, hts, hts'⟩

/-- The first two pictures. -/
theorem keepsMediaTime_iff_sample : ∃ r r',
    mediaStep oneEncoder (fun _ => .init) (pictureEvent 1000) = some r ∧
      mediaStep oneEncoder r.1 (pictureEvent 1040) = some r' ∧
      ∀ pkt ∈ r.2, ∀ pkt' ∈ r'.2,
        (KeepsTime .video (timestampOf pkt) (timestampOf pkt')
            ((1040 : BitVec 32).toNat - (1000 : BitVec 32).toNat) ↔
          TimeKept .video (clockOf (fun _ => .init) ⟨0, true, false⟩) (clockOf r.1 ⟨0, true, false⟩)
            1000 1040) := by
  obtain ⟨r, r', hr, hr', hbase, -⟩ := exists_twoPictures
  have hfinds : FindsBase oneEncoder ⟨0, true, false⟩ r.1 (pictureEvent 1040) := by
    intro _
    rw [hbase]
    decide
  have hx : streamOf oneEncoder (pictureAt 1000) = some ⟨0, true, false⟩ := by decide +kernel
  have hx' : streamOf oneEncoder (pictureAt 1040) = some ⟨0, true, false⟩ := by decide +kernel
  have hticks : SourceTicks (([] ++ pictureEvent 1000 :: ([] ++ [pictureEvent 1040])).filterMap
      (sourceTick oneEncoder ⟨0, true, false⟩)) := by decide +kernel
  have hiff := keepsMediaTime_iff hx hx' (by decide) (by decide) (by decide) rfl hticks rfl hr rfl hr'
    ⟨hfinds, fun _ _ => trivial⟩
  exact ⟨r, r', hr, hr', hiff⟩

/-- **The first two pictures of a stream do not keep the time**: they are 40 ms apart, and have the same
timestamp. -/
theorem not_keepsTime_first : ∃ r r',
    mediaStep oneEncoder (fun _ => .init) (pictureEvent 1000) = some r ∧
      mediaStep oneEncoder r.1 (pictureEvent 1040) = some r' ∧
      FindsBase oneEncoder ⟨0, true, false⟩ r.1 (pictureEvent 1040) ∧ SourceTicks [1000, 1040] ∧
      ∃ pkt ∈ r.2, ∃ pkt' ∈ r'.2, ¬ KeepsTime .video (timestampOf pkt) (timestampOf pkt') 40 := by
  obtain ⟨r, r', hr, hr', hbase, hts, hts'⟩ := exists_twoPictures
  have hzero : ∀ {pkts : List (List Rtp.Byte)}, pkts.map timestampOf = [0] →
      ∃ pkt ∈ pkts, timestampOf pkt = 0 := by
    intro pkts hpkts
    refine List.mem_map.mp ?_
    rw [hpkts]
    exact List.mem_singleton_self 0
  obtain ⟨pkt, hpkt, hpkt0⟩ := hzero hts
  obtain ⟨pkt', hpkt', hpkt0'⟩ := hzero hts'
  refine ⟨r, r', hr, hr', ?_, by decide, pkt, hpkt, pkt', hpkt', ?_⟩
  · intro _
    rw [hbase]
    decide
  · rw [hpkt0, hpkt0', KeepsTime]
    norm_num

end Lives

end ReachEdukit
