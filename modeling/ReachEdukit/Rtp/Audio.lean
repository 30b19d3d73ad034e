import ReachEdukit.Rtp.Bounds
import ReachEdukit.Rtp.Train

/-!
# Audio frames between the two ends

`UdpSend_rtp_build_audio_data` takes one ADTS frame, drops its header and sends the payload in
parts behind an access-unit header; `udp_recv_deal` takes every audio packet for a whole frame and
puts an ADTS header of its own in front of it.

The two do not agree on much. The receiver's header always names 44.1 kHz; a payload of more than
one part comes out as several frames, or as none; an empty one is not sent at all. The sender counts
the sync patterns of the frame, the payload included, into an array of five. What is left is the
exact set of frames that come through.

## Main definitions

* `buildAudioData` — `UdpSend_rtp_build_audio_data`
* `AdtsFrame` — a buffer that is one ADTS frame
* `AudioReceived`, `AdtsFrame.ComesThrough` — what is asked of the two ends, and when they do it

## Main results

* `step_audio` — a turn of the receiver on a packet of the sender
* `audioReceived_iff` — which frames come through
-/

namespace ReachEdukit

namespace Rtp

open Memory

/-! ### The sender -/

/-- The audio fields of `US_RTP_BUILD_INFO`. -/
structure AudioBuildInfo where
  /-- The time of the first frame. -/
  timeOrg : BitVec 32
  /-- The next audio sequence number. -/
  audioSeqNum : BitVec 32
  /-- The source. -/
  ssrc : BitVec 32
  deriving DecidableEq, Repr

/-- `US_RTP_FIXED_HEADER_AUDIO`: its second byte is `0xe1` on the last part of a frame and `0x61` on
any other. -/
def audioRtpHead (last : Bool) (seqNo : BitVec 16) (timestamp ssrc : BitVec 32) : RtpHead where
  csrcLen := 0
  extension := 1
  padding := 0
  version := 2
  payload := 0x61
  marker := if last then 1 else 0
  seqNo := seqNo
  timestamp := timestamp
  ssrc := ssrc

/-- The third bytes of an ADTS header that the sender knows. -/
def knownThird : List Byte := [0x58, 0x5c, 0x6c, 0x60, 0x4c, 0x50]

/-- The sender sees a sync pattern at `i`. -/
def syncAt (pData : List Byte) (i : ℕ) : Bool :=
  pData.getD i 0 == 0xff && pData.getD (i + 1) 0 == 0xf1 &&
    knownThird.contains (pData.getD (i + 2) 0)

/-- The entries of `offset`. -/
def syncOffsets (pData : List Byte) : List ℕ :=
  (List.range (pData.length - 4)).filter (syncAt pData)

/-- `framelen`: the two high bits of the length field are moved by nine places. -/
def senderFramelen (pData : List Byte) : BitVec 32 :=
  ((pData.getD 3 0 &&& 0x03).setWidth 32 <<< 9) ||| ((pData.getD 4 0).setWidth 32 <<< 3) |||
    ((pData.getD 5 0 &&& 0xe0).setWidth 32 >>> 5)

/-- The loop over `temp_len`: the payload in parts of `mtu` bytes. -/
def audioParts (mtu : ℕ) : ℕ → List Byte → List (List Byte)
  | 0, _ => []
  | fuel + 1, rest =>
    if rest = [] then [] else rest.take mtu :: audioParts mtu fuel (rest.drop mtu)

/-- The timestamp of a frame. -/
def audioTimestamp (samplerate : ℕ) (mytime : BitVec 32) : BitVec 32 :=
  if samplerate = 16000 then mytime * 16
  else if samplerate = 32000 then mytime * 32
  else if samplerate = 44100 then mytime * 44 + mytime / 10
  else if samplerate = 96000 then mytime * 96
  else mytime * 48

/-- The access-unit header, `audio_puiNalBuf[0..3]`. -/
def auHeader (audioFrameLen : ℕ) : List Byte :=
  [0, 0x10, BitVec.ofNat 8 (audioFrameLen / 32), BitVec.ofNat 8 (audioFrameLen % 32 * 8)]

/-- The payload between the `i`-th sync pattern and the next, or the end. -/
def audioPayload (pData : List Byte) (offset : List ℕ) (j i : ℕ) : List Byte :=
  let stop := if i + 1 = j then pData.length else offset.getD (i + 1) 0
  (pData.take stop).drop (offset.getD i 0 + 7)

/-- The packets of the parts of a frame. -/
def audioPackets (h : AudioBuildInfo) (ts : BitVec 32) (head : FrameHead) (audioFrameLen : ℕ)
    (parts : List (List Byte)) : List (List Byte) :=
  parts.zipIdx.map fun (part, t) =>
    packet
      (audioRtpHead (t + 1 == parts.length) ((h.audioSeqNum + BitVec.ofNat 32 t).setWidth 16) ts
        h.ssrc)
      head (auHeader audioFrameLen ++ part)

/-- `UdpSend_rtp_build_audio_data`. The array `offset` has five entries: a sixth sync pattern is
written behind it, and the entry behind the fifth is read when five are left. Nothing is sent unless
one is left. -/
def buildAudioData (h : AudioBuildInfo) (pData : List Byte) (samplerate rtpMtu : ℕ)
    (nowtime : BitVec 32) (head : FrameHead) : Option (AudioBuildInfo × List (List Byte)) :=
  let mtu := rtpMtu - 14
  let timeOrg := if h.timeOrg = 0 ∨ nowtime < h.timeOrg then nowtime else h.timeOrg
  let ts := audioTimestamp samplerate (nowtime - timeOrg)
  let offset := syncOffsets pData
  let j :=
    if (senderFramelen pData).toNat = pData.length ∧ 1 ≤ offset.length then 1 else offset.length
  if 5 < offset.length ∨ j = 5 then none
  else
    let payloads := (List.range j).map (audioPayload pData offset j)
    let count := (payloads.map fun p => (audioParts mtu p.length p).length).sum
    let pkts := payloads.flatMap fun p => audioPackets h ts head p.length (audioParts mtu p.length p)
    some ({ h with
        timeOrg := if 0xFFFFFFFF ≤ ts ∧ 0 < count then 0 else timeOrg
        audioSeqNum := h.audioSeqNum + BitVec.ofNat 32 count },
      if j = 1 then pkts else [])

/-! ### What the receiver makes of a packet -/

theorem length_onAudioAacFrame (rate n : ℕ) : (onAudioAacFrame rate n).length = 7 := rfl

/-- An audio packet unpacks to a header of the receiver's own and the part. -/
theorem unpack_audio (rtp : RtpHead) {head : FrameHead} {au part : List Byte}
    (hcodec : head.codec = 1) (hau : au.length = 4) (hpart : part.length ≤ 1437) (t : BitVec 32) :
    ∃ body, unpack t (recvBuf (packet rtp head (au ++ part)))
        (packet rtp head (au ++ part)).length =
          some (aacHead head rtp t, body, 7 + part.length, (aacHead head rtp t).mTimeTick) ∧
      window body 0 (7 + part.length) = onAudioAacFrame 4 (7 + part.length) ++ part := by
  have hroom : bodyRoom = 1444 := rfl
  have hset : setDataCodec head = .aac := by
    rw [setDataCodec, hcodec]
    rfl
  have hlen : (packet rtp head (au ++ part)).length = 32 + part.length := by
    rw [length_packet, List.length_append, hau]
    omega
  have hsize : ((packet rtp head (au ++ part)).length : ℤ) - 32 = (part.length : ℕ) := by
    rw [hlen]
    omega
  have hrest : (packet rtp head (au ++ part)).length - 32 = part.length := by omega
  have hcopy : memcpy emptyBody bodyRoom 7 (recvBuf (packet rtp head (au ++ part))) maxUdpLen 32
      part.length = some (blit emptyBody 7 part) := by
    have hread := window_packet rtp head au part
    rw [hau] at hread
    rw [memcpy_natCast (by omega) (by rw [maxUdpLen]; omega), hread]
  refine ⟨blit (blit emptyBody 7 part) 0 (onAudioAacFrame 4 (7 + part.length)), ?_, ?_⟩
  · simp only [unpack, frameHeadAt_packet, rtpHeadAt_packet, hset, getAudioFrameData, hsize, hcopy,
      hrest]
    rfl
  · have hhead : window (blit (blit emptyBody 7 part) 0 (onAudioAacFrame 4 (7 + part.length))) 0 7 =
        onAudioAacFrame 4 (7 + part.length) :=
      window_blit_self _ 0 (onAudioAacFrame 4 (7 + part.length))
    rw [window_add, hhead, Nat.zero_add, window_blit_of_ge (by rfl), window_blit_self]

/-- **A turn on an audio packet** takes it for a whole frame: it hands out as many bytes as the frame
header names, or leaves its buffers. -/
theorem step_audio {s : Receiver} (hs : s.status = .running) {rtp : RtpHead} {head : FrameHead}
    {au part : List Byte} (hcodec : head.codec = 1) (hau : au.length = 4)
    (hpart : part.length ≤ 1437) {dg : Datagram} (hdg : dg.bytes = packet rtp head (au ++ part)) :
    if head.framelength.toNat ≤ bodyRoom then
      (step s dg).1.status = .running ∧ ∃ d, (step s dg).2 = some d ∧ d.info.type = .aac ∧
        (head.framelength.toNat = 7 + part.length →
          d.frame = onAudioAacFrame 4 (7 + part.length) ++ part)
    else (step s dg).1.status = .faulty ∧ (step s dg).2 = none := by
  obtain ⟨body, hun, hbody⟩ := unpack_audio rtp hcodec hau hpart s.tempTime
  have hlen : (packet rtp head (au ++ part)).length = 32 + part.length := by
    rw [length_packet, List.length_append, hau]
    omega
  have htake : dg.bytes.take maxUdpLen = packet rtp head (au ++ part) := by
    rw [hdg, List.take_of_length_le (by rw [hlen, maxUdpLen]; omega)]
  have hroom : bodyRoom ≤ maxFrameLen := by decide
  have hplace : placeSegment maxAudioLen s.handle.audio (aacHead head rtp s.tempTime) body
      (7 + part.length) =
        (memcpy s.handle.audio.data maxFrameLen 0 body bodyRoom 0 head.framelength.toNat).bind
          fun data => some ⟨⟨data, s.handle.audio.offset⟩, .continue, false⟩ := rfl
  simp only [step, hs, ne_eq, not_true_eq_false, if_false, htake,
    if_neg (by omega : ¬ (packet rtp head (au ++ part)).length < 28), hun]
  have hmedia : udpRecvMediaFrameData s.handle (aacHead head rtp s.tempTime) body
      (7 + part.length) dg.now =
        (pkgPlacedInFrameAudio s.handle (aacHead head rtp s.tempTime) body (7 + part.length)
          dg.now).bind fun r => some (r.1, decide (r.2 = .continue)) := rfl
  rw [hmedia, pkgPlacedInFrameAudio, hplace]
  split
  · rename_i hfits
    rw [memcpy_natCast (by omega) (by omega)]
    refine ⟨rfl, _, rfl, rfl, fun htotal => ?_⟩
    have hframe := window_blit_self s.handle.audio.data 0 (window body 0 head.framelength.toNat)
    rw [length_window] at hframe
    rw [← hbody, ← htotal]
    exact hframe
  · rename_i hlong
    rw [memcpy_eq_none_iff.mpr (by omega)]
    exact ⟨rfl, rfl⟩

/-! ### One ADTS frame -/

/-- The 13-bit frame length of an ADTS header. -/
def adtsFrameLength (bs : List Byte) : ℕ :=
  (bs.getD 3 0 &&& 3).toNat * 2048 + (bs.getD 4 0).toNat * 8 + (bs.getD 5 0).toNat / 32

/-- The 4-bit index of the sampling frequency. -/
def adtsRateIndex (bs : List Byte) : ℕ := (bs.getD 2 0).toNat / 4 % 16

/-- A buffer that is one ADTS frame: a header the sender recognises, and the payload. -/
structure AdtsFrame where
  /-- The third byte, with the index of the sampling frequency. -/
  third : Byte
  /-- The fourth byte, with the two high bits of the frame length. -/
  fourth : Byte
  /-- The eight bits below. -/
  fifth : Byte
  /-- The sixth byte, with the three low bits. -/
  sixth : Byte
  /-- The last byte. -/
  seventh : Byte
  /-- The payload. -/
  payload : List Byte
  /-- The sender knows the third byte. -/
  known : third ∈ knownThird
  /-- The frame length is that of the buffer. -/
  length : (fourth &&& 3).toNat * 2048 + fifth.toNat * 8 + sixth.toNat / 32 = 7 + payload.length

/-- The bytes of the frame. -/
def AdtsFrame.bytes (f : AdtsFrame) : List Byte :=
  [0xff, 0xf1, f.third, f.fourth, f.fifth, f.sixth, f.seventh] ++ f.payload

/-- The packets of the frame are handed out as one audio frame, with its sampling-frequency index,
its frame length and its payload. -/
def AudioReceived (f : AdtsFrame) (h : AudioBuildInfo) (samplerate : ℕ) (now : BitVec 32)
    (head : FrameHead) (s : Receiver) : Prop :=
  ∃ h' pkts, buildAudioData h f.bytes samplerate 1380 now head = some (h', pkts) ∧
    ∀ dgs : List Datagram, dgs.map Datagram.bytes = pkts →
      ∃ d, (Run.outs step s dgs).filterMap id = [d] ∧ d.info.type = .aac ∧
        adtsRateIndex d.frame = adtsRateIndex f.bytes ∧
        adtsFrameLength d.frame = adtsFrameLength f.bytes ∧ d.frame.drop 7 = f.payload

/-- The frame is of 44.1 kHz, its payload is one part, and it holds no more than five sync
patterns. -/
structure AdtsFrame.ComesThrough (f : AdtsFrame) : Prop where
  /-- The index is the one the receiver writes. -/
  rate : f.third = 0x50
  /-- There is a part. -/
  nonempty : f.payload ≠ []
  /-- There is no other. -/
  one : f.payload.length ≤ 1366
  /-- The patterns fit the sender's array. -/
  patterns : (syncOffsets f.bytes).length ≤ 5

/-! ### The parts of the payload -/

@[simp] theorem audioParts_nil (mtu fuel : ℕ) : audioParts mtu fuel [] = [] := by
  cases fuel <;> simp [audioParts]

theorem audioParts_one {mtu : ℕ} {rest : List Byte} (hne : rest ≠ []) (h : rest.length ≤ mtu) :
    audioParts mtu rest.length rest = [rest] := by
  cases rest with
  | nil => exact absurd rfl hne
  | cons b bs =>
    rw [List.length_cons, audioParts, if_neg hne, List.take_of_length_le h,
      List.drop_of_length_le h, audioParts_nil]

/-- A payload that is too long has a first part and a second one. -/
theorem audioParts_long {mtu : ℕ} {rest : List Byte} (h0 : 0 < mtu) (h : mtu < rest.length) :
    ∃ p q ps, audioParts mtu rest.length rest = p :: q :: ps ∧ p.length ≤ mtu ∧
      q.length ≤ mtu := by
  obtain ⟨n, hn⟩ : ∃ n, rest.length = n + 2 := ⟨rest.length - 2, by omega⟩
  have hne : rest ≠ [] := by
    rintro rfl
    simp at hn
  have hrest : rest.drop mtu ≠ [] := by
    rw [← List.length_pos_iff, List.length_drop]
    omega
  rw [hn, audioParts, if_neg hne, audioParts, if_neg hrest]
  exact ⟨_, _, _, rfl, List.length_take_le .., List.length_take_le ..⟩

/-! ### The sync patterns of a frame -/

/-- The first pattern is the header. -/
theorem AdtsFrame.syncOffsets_eq (f : AdtsFrame) :
    ∃ offset, syncOffsets f.bytes = 0 :: offset := by
  obtain ⟨n, hn⟩ : ∃ n, f.bytes.length - 4 = n + 1 := ⟨f.bytes.length - 5, by simp [bytes]⟩
  have hsync : syncAt f.bytes 0 = true := by
    simpa [syncAt, bytes] using f.known
  rw [syncOffsets, hn, List.range_succ_eq_map, List.filter_cons_of_pos hsync]
  exact ⟨_, rfl⟩

/-- The sender reads the length of a frame of fewer than 2048 bytes. -/
theorem AdtsFrame.senderFramelen_eq (f : AdtsFrame) (h : 7 + f.payload.length < 2048) :
    (senderFramelen f.bytes).toNat = f.bytes.length := by
  have hlen := f.length
  have hhigh : f.fourth &&& 3 = 0 := by
    refine BitVec.eq_of_toNat_eq ?_
    show (f.fourth &&& 3).toNat = 0
    omega
  have hlow : ∀ b : Byte, ((b &&& 0xe0).setWidth 32 >>> 5).toNat = b.toNat / 32 := by decide
  have hmid : ∀ b : Byte, (b.setWidth 32 <<< 3).toNat = b.toNat <<< 3 := by decide
  have hbytes : f.bytes.length = f.fifth.toNat <<< 3 + f.sixth.toNat / 32 := by
    rw [Nat.shiftLeft_eq]
    simp only [bytes, List.length_append, List.length_cons, List.length_nil]
    rw [hhigh] at hlen
    simpa using hlen.symm
  have hread : senderFramelen f.bytes =
      (f.fifth.setWidth 32 <<< 3) ||| ((f.sixth &&& 0xe0).setWidth 32 >>> 5) := by
    have hzero : (f.fourth &&& 3).setWidth 32 <<< 9 = 0#32 := by
      rw [hhigh]
      rfl
    show (f.fourth &&& 3).setWidth 32 <<< 9 ||| _ ||| _ = _
    rw [hzero, BitVec.zero_or]
    rfl
  rw [hread, BitVec.toNat_or, hlow, hmid, hbytes,
    Nat.shiftLeft_add_eq_or_of_lt (by have := f.sixth.isLt; omega)]

/-! ### What is sent -/

variable {f : AdtsFrame} {h : AudioBuildInfo} {samplerate : ℕ} {now : BitVec 32} {head : FrameHead}

/-- One pattern is left: the frame is the whole buffer, or the buffer has no other. -/
def AdtsFrame.Single (f : AdtsFrame) : Prop :=
  (senderFramelen f.bytes).toNat = f.bytes.length ∨ (syncOffsets f.bytes).length = 1

/-- Then the payload is sent. -/
theorem AdtsFrame.Single.sent (hone : f.Single) (hfit : (syncOffsets f.bytes).length ≤ 5)
    (h : AudioBuildInfo) (samplerate : ℕ) (now : BitVec 32) (head : FrameHead) :
    ∃ h' ts, buildAudioData h f.bytes samplerate 1380 now head =
      some (h', audioPackets h ts head f.payload.length
        (audioParts 1366 f.payload.length f.payload)) := by
  obtain ⟨offset, hoffset⟩ := f.syncOffsets_eq
  have hj : (if (senderFramelen f.bytes).toNat = f.bytes.length ∧ 1 ≤ (syncOffsets f.bytes).length
      then 1 else (syncOffsets f.bytes).length) = 1 := by
    rcases hone with h | h
    · rw [if_pos ⟨h, by simp [hoffset]⟩]
    · rw [h]
      split <;> rfl
  have hpayload : audioPayload f.bytes (syncOffsets f.bytes) 1 0 = f.payload := by
    rw [hoffset, audioPayload]
    simp [bytes]
  have hroom : ¬ (5 < (syncOffsets f.bytes).length ∨ 1 = 5) := by omega
  simp only [buildAudioData, hj, if_neg hroom, List.range_one, List.map_singleton, hpayload,
    List.flatMap_singleton, if_true]
  exact ⟨_, _, rfl⟩

/-- Otherwise nothing is. -/
theorem AdtsFrame.not_sent (hone : ¬ f.Single) {h' : AudioBuildInfo} {pkts : List (List Byte)}
    (hsent : buildAudioData h f.bytes samplerate 1380 now head = some (h', pkts)) : pkts = [] := by
  rw [Single, not_or] at hone
  have hj : ¬ ((senderFramelen f.bytes).toNat = f.bytes.length ∧
      1 ≤ (syncOffsets f.bytes).length) := fun h => hone.1 h.1
  simp only [buildAudioData, if_neg hj, if_neg hone.2] at hsent
  split at hsent
  · exact absurd hsent (by simp)
  · exact (Prod.mk.inj (Option.some.inj hsent)).2.symm

/-! ### What is received -/

/-- The header of the receiver names 44.1 kHz. -/
theorem adtsRateIndex_header (n : ℕ) (payload : List Byte) :
    adtsRateIndex (onAudioAacFrame 4 n ++ payload) = 4 := by
  simp [adtsRateIndex, onAudioAacFrame]

/-- The header of the receiver names the length it is given. -/
theorem adtsFrameLength_header {n : ℕ} (hn : n < 8192) (payload : List Byte) :
    adtsFrameLength (onAudioAacFrame 4 n ++ payload) = n := by
  have hhigh : (n &&& 0x1800) / 2 ^ 11 = n / 2048 % 4 := by
    rw [← Nat.shiftRight_eq_div_pow, Nat.shiftRight_and_distrib, Nat.shiftRight_eq_div_pow]
    exact Nat.and_two_pow_sub_one_eq_mod (n / 2048) 2
  have hmid : (n &&& 0x1FF8) / 2 ^ 3 = n / 8 % 1024 := by
    rw [← Nat.shiftRight_eq_div_pow, Nat.shiftRight_and_distrib, Nat.shiftRight_eq_div_pow]
    exact Nat.and_two_pow_sub_one_eq_mod (n / 8) 10
  have hlow : n &&& 0x7 = n % 8 := Nat.and_two_pow_sub_one_eq_mod n 3
  have hfourth : (BitVec.ofNat 8 (2 * 64 + n / 2048 % 4) &&& 3).toNat = n / 2048 % 4 := by
    have hk : n / 2048 % 4 < 4 := Nat.mod_lt _ (by omega)
    interval_cases n / 2048 % 4 <;> rfl
  have htwo : (2 &&& 3) = 2 := rfl
  simp only [adtsFrameLength, onAudioAacFrame, List.cons_append, List.getD_cons_succ,
    List.getD_cons_zero, htwo]
  rw [hhigh, hmid, hlow, hfourth, BitVec.toNat_ofNat, BitVec.toNat_ofNat]
  omega

theorem length_auHeader (n : ℕ) : (auHeader n).length = 4 := rfl

theorem AdtsFrame.length_bytes (f : AdtsFrame) : f.bytes.length = 7 + f.payload.length := by
  simp [bytes]
  omega

/-- A payload of one part comes out behind the header of the receiver. -/
theorem outs_audio_one {s : Receiver} (hs : s.status = .running) (hcodec : head.codec = 1)
    (hlen : head.framelength.toNat = f.bytes.length) (hne : f.payload ≠ [])
    (hone : f.payload.length ≤ 1366) {ts : BitVec 32} {dgs : List Datagram}
    (hd : dgs.map Datagram.bytes = audioPackets h ts head f.payload.length
      (audioParts 1366 f.payload.length f.payload)) :
    ∃ d, (Run.outs step s dgs).filterMap id = [d] ∧ d.info.type = .aac ∧
      d.frame = onAudioAacFrame 4 f.bytes.length ++ f.payload := by
  rw [audioParts_one hne hone, audioPackets, List.zipIdx_singleton, List.map_singleton] at hd
  obtain ⟨dg, rfl, hdg⟩ := List.map_eq_singleton_iff.mp hd
  have hroom : head.framelength.toNat ≤ bodyRoom := by
    rw [hlen, f.length_bytes]
    show _ ≤ 1444
    omega
  have hstep := step_audio hs hcodec (length_auHeader _) (by omega) hdg
  rw [if_pos hroom] at hstep
  obtain ⟨-, d, hout, htype, hframe⟩ := hstep
  refine ⟨d, by simp [hout], htype, ?_⟩
  rw [hframe (hlen.trans f.length_bytes), f.length_bytes]

/-- A payload of several parts comes out several times, or not at all. -/
theorem outs_audio_long {s : Receiver} (hs : s.status = .running) (hcodec : head.codec = 1)
    (hlong : 1366 < f.payload.length) {ts : BitVec 32} {dgs : List Datagram}
    (hd : dgs.map Datagram.bytes = audioPackets h ts head f.payload.length
      (audioParts 1366 f.payload.length f.payload)) (d : Delivered) :
    (Run.outs step s dgs).filterMap id ≠ [d] := by
  obtain ⟨p, q, ps, hparts, hp, hq⟩ := audioParts_long (by omega) hlong
  rw [hparts, audioPackets, List.zipIdx_cons, List.zipIdx_cons, List.map_cons, List.map_cons] at hd
  obtain ⟨dg, dgs, rfl, hdg, hd⟩ := List.map_eq_cons_iff.mp hd
  obtain ⟨dg', dgs, rfl, hdg', -⟩ := List.map_eq_cons_iff.mp hd
  have hfirst := step_audio hs hcodec (length_auHeader _) (by omega) hdg
  by_cases hroom : head.framelength.toNat ≤ bodyRoom
  · rw [if_pos hroom] at hfirst
    obtain ⟨hrun, d₁, hout₁, -⟩ := hfirst
    have hsecond := step_audio hrun hcodec (length_auHeader _) (by omega) hdg'
    rw [if_pos hroom] at hsecond
    obtain ⟨-, d₂, hout₂, -⟩ := hsecond
    simp [hout₁, hout₂]
  · rw [if_neg hroom] at hfirst
    obtain ⟨hfaulty, hout₁⟩ := hfirst
    have hstopped : ∀ o ∈ Run.outs step (step s dg).1 (dg' :: dgs), o = none := by
      refine Run.outs_forall (I := fun s => s.status = .faulty) (fun s hs dg _ => ?_) hfaulty
      rw [step_of_stopped (by simp [hs])]
      exact ⟨hs, rfl⟩
    have hnone : (Run.outs step s (dg :: dg' :: dgs)).filterMap id = [] := by
      rw [List.filterMap_eq_nil_iff, Run.outs_cons]
      intro o ho
      rcases List.mem_cons.mp ho with rfl | ho
      · exact hout₁
      · exact hstopped o ho
    rw [hnone]
    exact List.cons_ne_nil _ _ ∘ Eq.symm

/-- **The frames that come through** are those of 44.1 kHz with a payload of one part and at most
five sync patterns. -/
theorem audioReceived_iff (f : AdtsFrame) (h : AudioBuildInfo) (samplerate : ℕ) (now : BitVec 32)
    {head : FrameHead} (hcodec : head.codec = 1)
    (hlen : head.framelength.toNat = f.bytes.length) {s : Receiver} (hs : s.status = .running) :
    AudioReceived f h samplerate now head s ↔ f.ComesThrough := by
  constructor
  · rintro ⟨h', pkts, hsent, hreceived⟩
    obtain ⟨d, hout, -, hrate, -⟩ := hreceived (pkts.map (⟨·, 0⟩)) (by simp [Function.comp_def])
    have hfit : (syncOffsets f.bytes).length ≤ 5 := by
      by_contra hmany
      rw [buildAudioData, if_pos (.inl (by omega))] at hsent
      exact absurd hsent (by simp)
    have hsingle : f.Single := by
      by_contra hmore
      obtain rfl := f.not_sent hmore hsent
      simp at hout
    obtain ⟨h'', ts, hparts⟩ := hsingle.sent hfit h samplerate now head
    obtain rfl : pkts = _ := (Prod.mk.inj (Option.some.inj (hsent.symm.trans hparts))).2
    have hd : ((audioPackets h ts head f.payload.length
        (audioParts 1366 f.payload.length f.payload)).map (Datagram.mk · 0)).map Datagram.bytes =
          _ := (List.map_map ..).trans (List.map_id _)
    have hone : f.payload.length ≤ 1366 := by
      by_contra hlong
      exact outs_audio_long hs hcodec (Nat.lt_of_not_le hlong) hd d hout
    have hne : f.payload ≠ [] := by
      intro hnil
      simp [hnil, audioPackets] at hout
    refine ⟨?_, hne, hone, hfit⟩
    obtain ⟨d', hout', -, hframe⟩ := outs_audio_one hs hcodec hlen hne hone hd
    obtain rfl : d' = d := List.singleton_inj.mp (hout'.symm.trans hout)
    rw [hframe, adtsRateIndex_header] at hrate
    have hknown : ∀ b ∈ knownThird, 4 = b.toNat / 4 % 16 → b = 0x50 := by decide
    exact hknown f.third f.known hrate
  · rintro ⟨hrate, hne, hone, hfit⟩
    have hsingle : f.Single := .inl (f.senderFramelen_eq (by omega))
    obtain ⟨h', ts, hparts⟩ := hsingle.sent hfit h samplerate now head
    refine ⟨h', _, hparts, fun dgs hd => ?_⟩
    obtain ⟨d, hout, htype, hframe⟩ := outs_audio_one hs hcodec hlen hne hone hd
    have hsize := f.length_bytes
    refine ⟨d, hout, htype, ?_, ?_, ?_⟩
    · rw [hframe, adtsRateIndex_header, adtsRateIndex]
      show 4 = f.third.toNat / 4 % 16
      rw [hrate]
      rfl
    · rw [hframe, adtsFrameLength_header (by omega), hsize]
      exact f.length.symm
    · rw [hframe, List.drop_left' (length_onAudioAacFrame ..)]

/-! ### Samples -/

/-- An ADTS frame of 9 bytes, of the rate with the given third byte. -/
def sampleAdts (third : Byte) (hknown : third ∈ knownThird) : AdtsFrame where
  third := third
  fourth := 0x80
  fifth := 1
  sixth := 0x3f
  seventh := 0xfc
  payload := [0x21, 0x10]
  known := hknown
  length := by decide

/-- Its head. -/
def sampleAudioHead : FrameHead := ⟨1, 3, 0, 0, 0, 0, 0, 9⟩

theorem audioReceived_iff_sample :
    AudioReceived (sampleAdts 0x50 (by decide)) ⟨0, 0, 0⟩ 44100 40 sampleAudioHead .init ↔
      (sampleAdts 0x50 (by decide)).ComesThrough :=
  audioReceived_iff (sampleAdts 0x50 (by decide)) ⟨0, 0, 0⟩ 44100 40 rfl (by decide) rfl

/-- **A frame of 48 kHz comes out as one of 44.1 kHz.** -/
theorem audio_rate_changed :
    ¬ AudioReceived (sampleAdts 0x4c (by decide)) ⟨0, 0, 0⟩ 48000 40 sampleAudioHead .init := by
  rintro ⟨h', pkts, hsent, hreceived⟩
  have hpkts : pkts = [packet (audioRtpHead true 0 0 0) sampleAudioHead
      (auHeader 2 ++ [0x21, 0x10])] := by
    have hbuild : (buildAudioData ⟨0, 0, 0⟩ (sampleAdts 0x4c (by decide)).bytes 48000 1380 40
        sampleAudioHead).map Prod.snd = some [packet (audioRtpHead true 0 0 0) sampleAudioHead
          (auHeader 2 ++ [0x21, 0x10])] := by decide
    rw [hsent] at hbuild
    exact Option.some.inj hbuild
  obtain ⟨d, hout, -, hrate, -⟩ := hreceived (pkts.map (⟨·, 0⟩)) (by simp [Function.comp_def])
  have hframes : (Run.outs step .init (pkts.map (⟨·, 0⟩))).map (Option.map Delivered.frame) =
      [some [0xff, 0xf1, 0x50, 0x80, 0x01, 0x21, 0x8c, 0x21, 0x10]] := by
    rw [hpkts]
    decide
  have hframe : ((Run.outs step .init (pkts.map (⟨·, 0⟩))).filterMap id).map Delivered.frame =
      [[0xff, 0xf1, 0x50, 0x80, 0x01, 0x21, 0x8c, 0x21, 0x10]] := by
    rw [List.map_filterMap]
    simpa [List.filterMap_map] using congrArg (List.filterMap id) hframes
  rw [hout, List.map_singleton, List.singleton_inj] at hframe
  rw [hframe] at hrate
  exact absurd hrate (by decide)

end Rtp

end ReachEdukit
