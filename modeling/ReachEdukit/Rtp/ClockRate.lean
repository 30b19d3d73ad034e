import ReachEdukit.Rtp.Audio

/-!
# The clock rates of the two ends

The sender multiplies the milliseconds since its base by the clock rate, and the receiver divides by it.
It divides by 90 for pictures, by 48 for 48 kHz and for 96 kHz, and by 44.1 for 44.1 kHz, where it
multiplies by ten first, in 32 bits. There is no division for the other rates: the receiver takes the
tick that the packet before has left.

So the two agree on pictures and at 48 kHz; at 44.1 kHz until the product with ten wraps; and at the other
rates by chance.

## Main definitions

* `senderTick` — the milliseconds since the base
* `udpSendSwitchAudioSampleRate`, `aacFrameHead` — what is sent with the sound
* `TickAgrees` — the tick of the receiver is close to the one of the sender
* `RateAgrees` — when it is

## Main results

* `mem_buildAudioData`, `mem_buildVideoData` — the packets of a frame
* `rateAgrees_iff` — the arithmetic of the rates
* `clock_rate_iff` — which packets of the sender get the right tick
-/

namespace ReachEdukit

namespace Rtp

open Memory

/-- The tick of a frame, in milliseconds, by the base that is kept or taken. -/
def senderTick (timeOrg nowtime : BitVec 32) : BitVec 32 :=
  nowtime - if timeOrg = 0 ∨ nowtime < timeOrg then nowtime else timeOrg

/-- `UdpSend_switch_audio_sample_rate`. -/
def udpSendSwitchAudioSampleRate (sampleRate : ℕ) : BitVec 4 :=
  if sampleRate = 16000 then 0
  else if sampleRate = 32000 then 1
  else if sampleRate = 44100 then 2
  else if sampleRate = 48000 then 3
  else if sampleRate = 96000 then 4
  else 3

/-- `UdpSend_set_hdb_freame_head` for sound; the sample rate is in the field for the height. -/
def aacFrameHead (sampleRate : ℕ) (frameLength : BitVec 32) (dwFlags : ℕ) : FrameHead where
  codec := 1
  samplerate := udpSendSwitchAudioSampleRate sampleRate
  framerate := 0
  width := 0
  height := 0
  iframe := if dwFlags ≠ 0 then 1 else 0
  reserve := 0
  framelength := frameLength

/-- The rates that the two ends know. -/
def sampleRates : List ℕ := [16000, 32000, 44100, 48000, 96000]

/-! ### The packets of a frame -/

theorem length_of_mem_audioParts {mtu fuel : ℕ} {rest part : List Byte}
    (h : part ∈ audioParts mtu fuel rest) : part.length ≤ mtu := by
  induction fuel generalizing rest with
  | zero => exact absurd h List.not_mem_nil
  | succ fuel ih =>
    rw [audioParts] at h
    split_ifs at h with hrest
    · exact absurd h List.not_mem_nil
    · obtain rfl | hmem := List.mem_cons.mp h
      · exact List.length_take_le ..
      · exact ih hmem

/-- A packet of sound has the timestamp of its frame, and a part that is not too long. -/
theorem mem_buildAudioData {h h' : AudioBuildInfo} {pData : List Byte} {samplerate : ℕ}
    {now : BitVec 32} {head : FrameHead} {pkts : List (List Byte)}
    (hsent : buildAudioData h pData samplerate 1380 now head = some (h', pkts)) :
    ∀ pkt ∈ pkts, ∃ last seq n part,
      pkt = packet (audioRtpHead last seq (audioTimestamp samplerate (senderTick h.timeOrg now))
        h.ssrc) head (auHeader n ++ part) ∧ part.length ≤ 1366 := by
  intro pkt hpkt
  obtain ⟨j, hj⟩ : ∃ j, (if (senderFramelen pData).toNat = pData.length ∧
      1 ≤ (syncOffsets pData).length then 1 else (syncOffsets pData).length) = j := ⟨_, rfl⟩
  simp only [buildAudioData, hj] at hsent
  by_cases hfull : 5 < (syncOffsets pData).length ∨ j = 5
  · rw [if_pos hfull] at hsent
    exact absurd hsent (by simp)
  · rw [if_neg hfull] at hsent
    obtain ⟨-, rfl⟩ := Prod.mk.inj (Option.some.inj hsent)
    by_cases hone : j = 1
    · rw [if_pos hone] at hpkt
      obtain ⟨payload, -, hmem⟩ := List.mem_flatMap.mp hpkt
      rw [audioPackets, List.mem_map] at hmem
      obtain ⟨⟨part, t⟩, hpart, rfl⟩ := hmem
      exact ⟨_, _, _, part, rfl, length_of_mem_audioParts (List.fst_mem_of_mem_zipIdx hpart)⟩
    · rw [if_neg hone] at hpkt
      exact absurd hpkt List.not_mem_nil

/-- A packet of a NAL unit has the timestamp of its frame, and a payload that is not too long. -/
theorem mem_udpSendRtpNalu {nalu : Nalu} {seq : BitVec 16} {ts : BitVec 32} {head : FrameHead} :
    ∀ pkt ∈ udpSendRtpNalu nalu seq ts 1366 head, ∃ m seq' payload,
      pkt = packet (rtpHead m seq' ts) head payload ∧ payload.length ≤ 1368 := by
  intro pkt hpkt
  rw [udpSendRtpNalu] at hpkt
  split_ifs at hpkt with hshort
  · exact ⟨1, seq, nalu.buf, List.mem_singleton.mp hpkt, by omega⟩
  · obtain ⟨p, hp, rfl⟩ := List.mem_map.mp hpkt
    have hpart : p.part.length ≤ 1366 :=
      split_part_le (by decide) (by rw [List.length_drop]; omega) p hp
    refine ⟨_, _, _, rfl, ?_⟩
    rw [List.length_append, List.length_cons, List.length_singleton]
    omega

/-- A packet of a picture has the timestamp of its frame, and a payload that is not too long. -/
theorem mem_buildVideoData {h : BuildInfo} {pData : List Byte} {now : BitVec 32} {head : FrameHead} :
    ∀ pkt ∈ (buildVideoData h pData 1380 now head).2, ∃ m seq payload,
      pkt = packet (rtpHead m seq (senderTick h.timeOrg now * 90)) head payload ∧
        payload.length ≤ 1368 := by
  have hunits : ∀ (bufs : List (List Byte)) (seq : BitVec 16),
      ∀ pkt ∈ sendNalus (senderTick h.timeOrg now * 90) 1366 head seq bufs, ∃ m seq' payload,
        pkt = packet (rtpHead m seq' (senderTick h.timeOrg now * 90)) head payload ∧
          payload.length ≤ 1368 := by
    intro bufs
    induction bufs with
    | nil => exact fun _ _ hpkt => absurd hpkt List.not_mem_nil
    | cons buf bufs ih =>
      intro seq pkt hpkt
      obtain hpkt | hpkt := List.mem_append.mp hpkt
      · exact mem_udpSendRtpNalu pkt hpkt
      · exact ih _ pkt hpkt
  rw [buildVideoData, if_neg (by decide)]
  exact hunits _ _

/-! ### The tick of a packet -/

/-- The tick that the receiver computes for the packet is at most one millisecond away from the one of
the sender, and at 44.1 kHz by a thousandth of it more. -/
def Near (samplerate : ℕ) (tick timetick : BitVec 32) : Prop :=
  if samplerate = 44100 then 1000 * |(tick.toNat : ℤ) - timetick.toNat| ≤ timetick.toNat + 1000
  else |(tick.toNat : ℤ) - timetick.toNat| ≤ 1

/-- The receiver, with `temp_time` as the packets before have left it, computes such a tick. -/
def TickAgrees (samplerate : ℕ) (tempTime timetick : BitVec 32) (pkt : List Byte) : Prop :=
  ∃ fh body len t', unpack tempTime (recvBuf pkt) pkt.length = some (fh, body, len, t') ∧
    Near samplerate fh.mTimeTick timetick

/-- When it does: at 44.1 kHz ten times the timestamp must not wrap; the timestamps of 96 kHz are
divided by 48; and at 16 and 32 kHz the tick is the one that was left. -/
def RateAgrees (samplerate : ℕ) (tempTime timetick : BitVec 32) : Prop :=
  if samplerate = 44100 then (timetick.toNat * 44 + timetick.toNat / 10) * 10 < 2 ^ 32
  else if samplerate = 48000 then True
  else if samplerate = 96000 then timetick.toNat ≤ 1
  else |(tempTime.toNat : ℤ) - timetick.toNat| ≤ 1

instance (samplerate : ℕ) (tempTime timetick : BitVec 32) :
    Decidable (RateAgrees samplerate tempTime timetick) :=
  inferInstanceAs (Decidable (
    if samplerate = 44100 then (timetick.toNat * 44 + timetick.toNat / 10) * 10 < 2 ^ 32
    else if samplerate = 48000 then True
    else if samplerate = 96000 then timetick.toNat ≤ 1
    else |(tempTime.toNat : ℤ) - timetick.toNat| ≤ 1))

variable {timetick tempTime : BitVec 32}

/-- The tick that the receiver makes of a timestamp of sound. -/
def soundTick (samplerate : ℕ) (tempTime timestamp : BitVec 32) : BitVec 32 :=
  if samplerate = 48000 ∨ samplerate = 96000 then timestamp / 48
  else if samplerate = 44100 then timestamp * 10 / 441
  else tempTime

theorem aacHead_tick {samplerate : ℕ} {frameLength : BitVec 32} {dwFlags : ℕ}
    (hrate : samplerate ∈ sampleRates) (rtp : RtpHead) (tempTime : BitVec 32) :
    (aacHead (aacFrameHead samplerate frameLength dwFlags) rtp tempTime).mTimeTick =
      soundTick samplerate tempTime rtp.timestamp := by
  simp only [sampleRates, List.mem_cons, List.not_mem_nil, or_false] at hrate
  obtain rfl | rfl | rfl | rfl | rfl := hrate <;> rfl

/-- At 44.1 kHz the product with ten may wrap. -/
theorem soundTick_44100 (tempTime timetick : BitVec 32) :
    (soundTick 44100 tempTime (audioTimestamp 44100 timetick)).toNat =
      (timetick.toNat * 44 + timetick.toNat / 10) * 10 % 2 ^ 32 / 441 := by
  change ((timetick * 44 + timetick / 10) * 10 / 441).toNat = _
  simp only [BitVec.toNat_udiv, BitVec.toNat_mul, BitVec.toNat_add, BitVec.reduceToNat]
  omega

theorem soundTick_48000 (h : timetick.toNat * 48000 < 1000 * 2 ^ 32) :
    (soundTick 48000 tempTime (audioTimestamp 48000 timetick)).toNat = timetick.toNat := by
  change (timetick * 48 / 48).toNat = _
  simp only [BitVec.toNat_udiv, BitVec.toNat_mul, BitVec.reduceToNat]
  omega

/-- At 96 kHz twice the tick comes out. -/
theorem soundTick_96000 (h : timetick.toNat * 96000 < 1000 * 2 ^ 32) :
    (soundTick 96000 tempTime (audioTimestamp 96000 timetick)).toNat = 2 * timetick.toNat := by
  change (timetick * 96 / 48).toNat = _
  simp only [BitVec.toNat_udiv, BitVec.toNat_mul, BitVec.reduceToNat]
  omega

/-- **The rates.** Multiplied and divided, the tick of the sender comes out as the one it was, or close
to it, exactly when the rates agree. -/
theorem rateAgrees_iff {samplerate : ℕ} (hrate : samplerate ∈ sampleRates)
    (hbound : timetick.toNat * samplerate < 1000 * 2 ^ 32) :
    Near samplerate (soundTick samplerate tempTime (audioTimestamp samplerate timetick)) timetick ↔
      RateAgrees samplerate tempTime timetick := by
  simp only [sampleRates, List.mem_cons, List.not_mem_nil, or_false] at hrate
  obtain rfl | rfl | rfl | rfl | rfl := hrate
  · exact Iff.rfl
  · exact Iff.rfl
  · -- what is lost by a wrap is more than a thousandth
    rw [Near, if_pos rfl, RateAgrees, if_pos rfl, soundTick_44100]
    constructor
    · intro hnear
      by_contra hwraps
      have hmod : (timetick.toNat * 44 + timetick.toNat / 10) * 10 % 2 ^ 32 + 2 ^ 32 ≤
          (timetick.toNat * 44 + timetick.toNat / 10) * 10 := by
        omega
      have hlost : (timetick.toNat * 44 + timetick.toNat / 10) * 10 % 2 ^ 32 / 441 + 9739155 ≤
          timetick.toNat := by
        omega
      have hlow := neg_abs_le (((timetick.toNat * 44 + timetick.toNat / 10) * 10 % 2 ^ 32 / 441 : ℕ) -
        (timetick.toNat : ℤ))
      omega
    · intro hsmall
      rw [Nat.mod_eq_of_lt hsmall]
      have habs : |(((timetick.toNat * 44 + timetick.toNat / 10) * 10 / 441 : ℕ) : ℤ) -
          timetick.toNat| ≤ 1 := by
        rw [abs_le]
        omega
      omega
  · rw [Near, if_neg (by decide), soundTick_48000 hbound]
    simp [RateAgrees]
  · rw [Near, if_neg (by decide), soundTick_96000 hbound]
    change _ ↔ timetick.toNat ≤ 1
    rw [abs_le]
    omega

/-! ### The packets -/

/-- A packet of sound unpacks, and its tick is the one of its timestamp. -/
theorem tickAgrees_audio {samplerate : ℕ} {frameLength : BitVec 32} {dwFlags : ℕ}
    (hrate : samplerate ∈ sampleRates) (hbound : timetick.toNat * samplerate < 1000 * 2 ^ 32)
    (last : Bool) (seq : BitVec 16) (ssrc : BitVec 32) (n : ℕ) {part : List Byte}
    (hpart : part.length ≤ 1366) :
    TickAgrees samplerate tempTime timetick
        (packet (audioRtpHead last seq (audioTimestamp samplerate timetick) ssrc)
          (aacFrameHead samplerate frameLength dwFlags) (auHeader n ++ part)) ↔
      RateAgrees samplerate tempTime timetick := by
  have hcodec : (aacFrameHead samplerate frameLength dwFlags).codec = 1 := rfl
  obtain ⟨body, hunpack, -⟩ := unpack_audio
    (audioRtpHead last seq (audioTimestamp samplerate timetick) ssrc) hcodec (length_auHeader n)
    (by omega : part.length ≤ 1437) tempTime
  rw [aacHead_tick hrate] at hunpack
  rw [← rateAgrees_iff hrate hbound, TickAgrees]
  constructor
  · rintro ⟨fh, body', len, t', heq, hnear⟩
    have hfh := congrArg (Option.map fun r => r.1.mTimeTick) (hunpack.symm.trans heq)
    rw [Option.map_some, Option.map_some, Option.some.injEq, aacHead_tick hrate] at hfh
    rwa [← hfh] at hnear
  · intro hnear
    refine ⟨_, _, _, _, hunpack, ?_⟩
    rwa [aacHead_tick hrate]

/-- The tick of a picture comes out as it was. -/
theorem videoTick_eq (hbound : timetick.toNat * 90 < 2 ^ 32) : timetick * 90 / 90 = timetick := by
  apply BitVec.eq_of_toNat_eq
  simp only [BitVec.toNat_udiv, BitVec.toNat_mul, BitVec.reduceToNat]
  omega

/-- A packet that is a fragment by its first byte has its FU header. -/
def HasFuHeader (pkt : List Byte) : Prop :=
  (fuIndicatorAt (recvBuf pkt)).type = 28 → 30 ≤ pkt.length

instance (pkt : List Byte) : Decidable (HasFuHeader pkt) := inferInstanceAs (Decidable (_ → _))

/-- That is all that a packet of a picture needs. -/
theorem room_of_video {pkt : List Byte} (hmin : 28 ≤ pkt.length) (hmax : pkt.length ≤ 1396)
    (hcodec : (frameHeadAt (recvBuf pkt)).codec = 0) :
    ∃ c, cutAt (recvBuf pkt) = some c ∧ (c.Room pkt.length ↔ HasFuHeader pkt) := by
  have hset : setDataCodec (frameHeadAt (recvBuf pkt)) = .h264 := by
    rw [setDataCodec, if_pos hcodec]
  have hroom : bodyRoom = 1444 := rfl
  simp only [cutAt, hset]
  by_cases htype : (fuIndicatorAt (recvBuf pkt)).type = 28
  · have hheader : HasFuHeader pkt ↔ 30 ≤ pkt.length := forall_prop_of_true htype
    rw [if_pos htype, hheader]
    by_cases hfirst : (fuHeaderAt (recvBuf pkt)).s = 1
    · rw [if_pos hfirst]
      refine ⟨_, rfl, ?_⟩
      simp only [Cut.Room, Cut.len]
      omega
    · rw [if_neg hfirst]
      refine ⟨_, rfl, ?_⟩
      simp only [Cut.Room, Cut.len]
      omega
  · rw [if_neg htype]
    refine ⟨_, rfl, ?_⟩
    simp only [Cut.Room, Cut.len]
    exact iff_of_true ⟨hmin, by omega⟩ fun htype' => absurd htype' htype

/-- What is unpacked of a packet of a picture has the tick of the timestamp. -/
theorem unpack_video_tick {recv : Buffer} {n : ℕ} (hcodec : (frameHeadAt recv).codec = 0)
    {fh : FreameHead} {body : Buffer} {len : ℕ} {t' : BitVec 32}
    (h : unpack tempTime recv n = some (fh, body, len, t')) :
    fh.mTimeTick = (rtpHeadAt recv).timestamp / 90 := by
  have hset : setDataCodec (frameHeadAt recv) = .h264 := by rw [setDataCodec, if_pos hcodec]
  simp only [unpack, hset, Option.bind_eq_bind, Option.bind_eq_some_iff, Option.pure_def,
    Option.some.injEq, Prod.mk.injEq] at h
  obtain ⟨-, -, rfl, -⟩ := h
  rfl

/-- The clock rate of pictures. -/
def videoRate : ℕ := 90000

/-- A packet of a picture that has its FU header gets the tick of the sender. -/
theorem tickAgrees_video {head : FrameHead} (hcodec : head.codec = 0)
    (hbound : timetick.toNat * 90 < 2 ^ 32) (tempTime : BitVec 32) (m : BitVec 1) (seq : BitVec 16)
    {payload : List Byte} (hlen : payload.length ≤ 1368) :
    TickAgrees videoRate tempTime timetick
        (packet (rtpHead m seq (timetick * 90)) head payload) ↔
      HasFuHeader (packet (rtpHead m seq (timetick * 90)) head payload) := by
  obtain ⟨pkt, hpkt⟩ : ∃ pkt, packet (rtpHead m seq (timetick * 90)) head payload = pkt := ⟨_, rfl⟩
  have hsize : pkt.length = 28 + payload.length := by rw [← hpkt, length_packet]
  have hhead : (frameHeadAt (recvBuf pkt)).codec = 0 := by rw [← hpkt, frameHeadAt_packet, hcodec]
  have hts : (rtpHeadAt (recvBuf pkt)).timestamp = timetick * 90 := by
    rw [← hpkt, rtpHeadAt_packet]
    rfl
  have hmax : pkt.length ≤ maxUdpLen := by
    rw [maxUdpLen]
    omega
  obtain ⟨c, hc, hroom⟩ := room_of_video (by omega) (by omega) hhead
  rw [hpkt, ← hroom]
  obtain ⟨hnone, hnot⟩ | ⟨fh, body, len, t', hsome, hyes, -⟩ := unpack_of_cut hmax hc tempTime
  · refine iff_of_false ?_ hnot
    rintro ⟨fh, body, len, t', hsome, -⟩
    exact absurd (hnone.symm.trans hsome) (by simp)
  · refine iff_of_true ⟨fh, body, len, t', hsome, ?_⟩ hyes
    rw [unpack_video_tick hhead hsome, hts, videoTick_eq hbound, Near, if_neg (by decide), sub_self]
    decide

/-- **The ticks of the two ends.** Whatever the packets before have left, a packet of sound gets the tick
of the sender, or one close to it, exactly when the rates agree; and a packet of a picture exactly when
it is no fragment without its header. -/
theorem clock_rate_iff (tempTime now : BitVec 32) :
    (∀ (h h' : AudioBuildInfo) (pData : List Byte) (samplerate : ℕ) (frameLength : BitVec 32)
      (dwFlags : ℕ) (pkts : List (List Byte)), samplerate ∈ sampleRates →
      buildAudioData h pData samplerate 1380 now (aacFrameHead samplerate frameLength dwFlags) =
        some (h', pkts) →
      (senderTick h.timeOrg now).toNat * samplerate < 1000 * 2 ^ 32 →
      ∀ pkt ∈ pkts, (TickAgrees samplerate tempTime (senderTick h.timeOrg now) pkt ↔
        RateAgrees samplerate tempTime (senderTick h.timeOrg now))) ∧
    ∀ (h : BuildInfo) (pData : List Byte) (head : FrameHead), head.codec = 0 →
      (senderTick h.timeOrg now).toNat * 90 < 2 ^ 32 →
      ∀ pkt ∈ (buildVideoData h pData 1380 now head).2,
        (TickAgrees videoRate tempTime (senderTick h.timeOrg now) pkt ↔ HasFuHeader pkt) := by
  constructor
  · intro h h' pData samplerate frameLength dwFlags pkts hrate hsent hbound pkt hpkt
    obtain ⟨last, seq, n, part, rfl, hpart⟩ := mem_buildAudioData hsent pkt hpkt
    exact tickAgrees_audio hrate hbound last seq h.ssrc n hpart
  · intro h pData head hcodec hbound pkt hpkt
    obtain ⟨m, seq, payload, rfl, hlen⟩ := mem_buildVideoData pkt hpkt
    exact tickAgrees_video hcodec hbound tempTime m seq hlen

/-- The packets of a frame of nine bytes, a second after the base. -/
def soundPackets (samplerate : ℕ) : List (List Byte) :=
  ((buildAudioData ⟨1, 0, 0⟩ (sampleAdts 0x50 (by decide)).bytes samplerate 1380 1001
    (aacFrameHead samplerate 9 0)).map Prod.snd).getD []

/-- A frame of 48 kHz, a second after the base. -/
theorem clock_rate_iff_sample :
    (∀ pkt ∈ soundPackets 48000, (TickAgrees 48000 7 1000 pkt ↔ RateAgrees 48000 7 1000)) ∧
      ∀ pkt ∈ (buildVideoData ⟨1, 0, 0⟩ [0, 0, 0, 1, 0x41, 0x9a] 1380 1001 ⟨0, 0, 25, 0, 0, 0, 0, 6⟩).2,
        (TickAgrees videoRate 7 1000 pkt ↔ HasFuHeader pkt) := by
  obtain ⟨r, hr⟩ := Option.isSome_iff_exists.mp (show (buildAudioData ⟨1, 0, 0⟩
    (sampleAdts 0x50 (by decide)).bytes 48000 1380 1001 (aacFrameHead 48000 9 0)).isSome by decide)
  have hpkts : soundPackets 48000 = r.2 := by
    rw [soundPackets, hr]
    rfl
  rw [hpkts]
  exact ⟨(clock_rate_iff 7 1001).1 ⟨1, 0, 0⟩ r.1 _ 48000 9 0 r.2 (by decide) hr (by decide),
    (clock_rate_iff 7 1001).2 ⟨1, 0, 0⟩ _ _ rfl (by decide)⟩

/-- No packet of a rate at which a second does not agree gets the right tick. -/
theorem not_tickAgrees_soundPackets {samplerate : ℕ} (hrate : samplerate ∈ sampleRates)
    (hnot : ¬ RateAgrees samplerate tempTime 1000) :
    ∀ pkt ∈ soundPackets samplerate, ¬ TickAgrees samplerate tempTime 1000 pkt := by
  intro pkt hpkt
  rw [soundPackets] at hpkt
  obtain hnone | ⟨r, hr⟩ := Option.eq_none_or_eq_some (buildAudioData ⟨1, 0, 0⟩
    (sampleAdts 0x50 (by decide)).bytes samplerate 1380 1001 (aacFrameHead samplerate 9 0))
  · rw [hnone] at hpkt
    exact absurd hpkt List.not_mem_nil
  · rw [hr] at hpkt
    obtain ⟨last, seq, n, part, rfl, hpart⟩ := mem_buildAudioData hr pkt hpkt
    have hbound : (1000 : BitVec 32).toNat * samplerate < 1000 * 2 ^ 32 := by
      have hmax : ∀ rate ∈ sampleRates, rate ≤ 96000 := by decide
      have hle := hmax samplerate hrate
      change 1000 * samplerate < _
      omega
    exact fun hagrees => hnot ((tickAgrees_audio hrate hbound last seq _ n hpart).mp hagrees)

/-- A second at 96 kHz is two seconds at the receiver, and one at 16 kHz is none. -/
theorem second_is_doubled :
    (∃ pkt ∈ soundPackets 96000, ¬ TickAgrees 96000 0 1000 pkt) ∧
      ∃ pkt ∈ soundPackets 16000, ¬ TickAgrees 16000 0 1000 pkt := by
  obtain ⟨pkt, hpkt⟩ : ∃ pkt, pkt ∈ soundPackets 96000 :=
    List.exists_mem_of_ne_nil _ (by decide)
  obtain ⟨pkt', hpkt'⟩ : ∃ pkt, pkt ∈ soundPackets 16000 :=
    List.exists_mem_of_ne_nil _ (by decide)
  exact ⟨⟨pkt, hpkt, not_tickAgrees_soundPackets (by decide) (by decide) pkt hpkt⟩,
    pkt', hpkt', not_tickAgrees_soundPackets (by decide) (by decide) pkt' hpkt'⟩

end Rtp

end ReachEdukit
