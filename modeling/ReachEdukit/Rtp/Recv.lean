import ReachEdukit.Lib.Reassembly
import ReachEdukit.Rtp.Packet

/-!
# The media receiver

`udp_recv_deal` is the thread that receives the datagrams of a media stream and puts the frames
together. One turn of its loop is `step`: it unpacks the datagram by its codec into a frame header
and a part of a frame, places the part in the video or the audio buffer, and hands the buffer to
the user's callback when the frame is complete.

Every `memcpy` of the source is a checked copy here, with the sizes of the two buffers it is made
between. A copy that leaves one of them has no meaning in C; the receiver is then `faulty` and the
model says nothing more about it. A datagram shorter than the headers makes the thread leave its
loop (`exited`).

## What is left out

The packet-loss statistics, which only print; the socket, and its time-outs; a missing callback.
`m_id` of the frame header is never set. The two frame buffers are allocated on the first datagram
and are there from the start.
-/

namespace ReachEdukit

namespace Rtp

open Memory

/-! ### Sizes -/

/-- `UdpRecv_MAX_UDP_LEN`, the size of `recv_buf` and of `in_data`. -/
def maxUdpLen : ℕ := 1500

/-- `UdpRecv_MAX_FRAME_LEN`, the size of both frame buffers. -/
def maxFrameLen : ℕ := 2 * 1024 * 1024

/-- `UdpRecv_MAX_AUDIO_LEN`. -/
def maxAudioLen : ℕ := 512 * 1024

/-- What `in_data` has left behind `Ur_MsgLen` and `UdpRecv_FH_LEN`. -/
def bodyRoom : ℕ := maxUdpLen - 8 - 48

/-- `UdpRecv_EXAMIN_TIME`, in milliseconds. -/
def examinTime : BitVec 32 := 800

/-! ### The frame header handed on -/

/-- The values of `m_data_codec`. -/
inductive DataCodec
  /-- `UdpRecv_H264_CODEC_TYPE`. -/
  | h264
  /-- `UdpRecv_AAC_CODEC_TYPE`. -/
  | aac
  /-- `UdpRecv_JPEG_CODEC_TYPE`. -/
  | jpeg
  /-- `-1`. -/
  | unknown
  deriving DecidableEq, Repr

/-- `udp_recv_freame_head_t`. -/
structure FreameHead where
  /-- Time, in milliseconds. -/
  mTimeTick : BitVec 32 := 0
  /-- Bytes of the whole frame. -/
  mFrameLength : BitVec 32 := 0
  /-- The codec. -/
  mDataCodec : DataCodec := .unknown
  /-- Frame rate or sample rate. -/
  mFrameRate : ℕ := 0
  /-- Picture width. -/
  mWidth : BitVec 16 := 0
  /-- Picture height. -/
  mHight : BitVec 16 := 0
  /-- Colours, or the audio bit rate. -/
  mColors : ℕ := 0
  /-- The segment: middle, last, start, independent. -/
  mDwSegment : ℕ := 0
  /-- `16` on a key frame. -/
  mDwFlags : ℕ := 0
  /-- The sequence number. -/
  mDwPacketNumber : BitVec 16 := 0
  /-- `1` on a blue screen. -/
  mOthers : ℕ := 0
  deriving DecidableEq, Repr

/-- `set_data_codec`. -/
def setDataCodec (head : FrameHead) : DataCodec :=
  if head.codec = 0 then .h264
  else if head.codec = 1 then .aac
  else if head.codec = 2 then .jpeg
  else .unknown

/-- `switch_audio_sample_rate`. -/
def switchAudioSampleRate : ℕ → ℕ
  | 0 => 16000
  | 1 => 32000
  | 2 => 44100
  | 3 => 48000
  | 4 => 96000
  | _ => 3

/-- `get_jpeg_frame_data_head`. -/
def getJpegFrameDataHead (fh : FreameHead) (head : FrameHead) (rtp : RtpHead) : FreameHead :=
  { fh with
    mFrameRate := head.framerate.toNat
    mColors := 0
    mOthers := 0
    mTimeTick := rtp.timestamp
    mFrameLength := head.framelength
    mWidth := head.width
    mHight := head.height
    mDwPacketNumber := rtp.seqNo
    mDwSegment := head.samplerate.toNat }

/-- `get_audio_frame_data_head`. -/
def getAudioFrameDataHead (fh : FreameHead) (head : FrameHead) (rtp : RtpHead) : FreameHead :=
  let rate := switchAudioSampleRate head.samplerate.toNat
  { fh with
    mDwSegment := 3
    mColors := 0
    mOthers := 0
    mTimeTick := rtp.timestamp
    mFrameLength := head.framelength
    mWidth := head.width
    mHight := head.height
    mDwPacketNumber := rtp.seqNo
    mDwFlags := if head.iframe ≠ 0 then 16 else 0
    mFrameRate := if head.reserve = 1 then rate * 2 else rate }

/-- `get_video_frame_data_head`. -/
def getVideoFrameDataHead (fh : FreameHead) (head : FrameHead) (rtp : RtpHead) : FreameHead :=
  { fh with
    mFrameRate := head.framerate.toNat
    mColors := 0
    mTimeTick := rtp.timestamp
    mFrameLength := head.framelength
    mWidth := head.width
    mHight := head.height
    mDwPacketNumber := rtp.seqNo
    mOthers := if head.samplerate = 12 then 1 else 0
    mDwFlags := if head.iframe ≠ 0 then 16 else 0 }

/-! ### Unpacking a datagram

`recv` is `recv_buf` and `n` is `recv_bytes`. The functions fill `frame_buf`, the part of `in_data`
behind its headers, which is zero before. -/

/-- The start code of a NAL unit. -/
def startCode : List Byte := [0, 0, 0, 1]

/-- `frame_buf` before it is filled. -/
def emptyBody : Buffer := fun _ => 0

/-- `get_jpeg_frame_data`. -/
def getJpegFrameData (recv : Buffer) (n : ℕ) : Option (Buffer × ℕ) := do
  let body ← memcpy emptyBody bodyRoom 0 recv maxUdpLen 28 ((n : ℤ) - 28)
  return (body, n - 28)

/-- `OnAudioAacFrame`: the seven bytes of an ADTS header. -/
def onAudioAacFrame (samplerate frameLength : ℕ) : List Byte :=
  [0xFF, 0xF1, BitVec.ofNat 8 (1 * 64 + samplerate * 4 + (2 &&& 4) / 4),
    BitVec.ofNat 8 ((2 &&& 3) * 64 + (frameLength &&& 0x1800) / 2 ^ 11),
    BitVec.ofNat 8 ((frameLength &&& 0x1FF8) / 2 ^ 3),
    BitVec.ofNat 8 ((frameLength &&& 0x7) * 32 + 1),
    BitVec.ofNat 8 (0x8c ||| (frameLength / 1024 &&& 3))]

/-- `get_audio_frame_data`, with its `aac_payload_demux`. -/
def getAudioFrameData (recv : Buffer) (n : ℕ) : Option (Buffer × ℕ) := do
  let body ← memcpy emptyBody bodyRoom 7 recv maxUdpLen 32 ((n : ℤ) - 32)
  let len := 7 + (n - 32)
  return (blit body 0 (onAudioAacFrame 4 len), len)

/-- The frame flag of a packet with a whole NAL unit, by the `Iframe` field and the NAL header. -/
def singleFlag (iframe nalHeader : Byte) : ℤ :=
  if iframe = 1 then
    if nalHeader = 0x67 ∨ nalHeader = 0x47 ∨ nalHeader = 0x27 then 2
    else if nalHeader = 0x68 ∨ nalHeader = 0x48 ∨ nalHeader = 0x28 then 0
    else if nalHeader = 0x65 ∨ nalHeader = 0x45 ∨ nalHeader = 0x25 then 1
    else -1
  else 3

/-- `get_video_frame_data`: the frame flag, `frame_buf` and its length. -/
def getVideoFrameData (recv : Buffer) (n : ℕ) : Option (ℤ × Buffer × ℕ) :=
  let head := frameHeadAt recv
  let fuInd := fuIndicatorAt recv
  let fuHdr := fuHeaderAt recv
  if fuInd.type = 28 then
    if fuHdr.s = 1 then do
      let flag := if head.iframe = 1 then 0 else 2
      let nal : Byte := fuInd.f ++ fuInd.nri ++ fuHdr.type
      let body ← memcpy (blit emptyBody 0 (startCode ++ [nal])) bodyRoom 5 recv maxUdpLen 30
        ((n : ℤ) - 30)
      return (flag, body, 5 + (n - 30))
    else do
      let body ← memcpy emptyBody bodyRoom 0 recv maxUdpLen 30 ((n : ℤ) - 30)
      return (if fuHdr.e = 1 then 1 else 0, body, n - 30)
  else do
    let body ← memcpy (blit emptyBody 0 startCode) bodyRoom 4 recv maxUdpLen 28 ((n : ℤ) - 28)
    return (singleFlag head.iframe (body 4), body, 4 + (n - 28))

/-! ### Time -/

/-- `udp_recv_time`, one of its two halves: the video and the audio fields have the same names. -/
structure RecvTime where
  /-- `…_init_time`. -/
  initTime : BitVec 32
  /-- `init_…_flag`. -/
  initFlag : Bool
  /-- `time_…_tick`. -/
  timeTick : BitVec 32
  /-- `…_cal_time`. -/
  calTime : BitVec 32
  /-- `prev_…_time`. -/
  prevTime : BitVec 32
  /-- `prev_…_time_tick`. -/
  prevTimeTick : BitVec 32
  deriving DecidableEq, Repr

/-- The initial values. -/
def RecvTime.init : RecvTime := ⟨0, false, 0, 0, 0, 0⟩

/-- `udp_recv_getIntervalTime` and `udp_recv_getJpgIntervalTime`. -/
def getIntervalTime (prevTime curTime : BitVec 32) : BitVec 32 :=
  let cal := if curTime < prevTime then prevTime - curTime else curTime - prevTime
  if cal = 0 then cal + 1 else cal

/-- The time of a part with tick `tick` that arrives at `now`: a jump of the source is bridged by
the receiver's own clock. `jumps` says what counts as a jump after the tick before. -/
def RecvTime.advance (t : RecvTime) (jumps : BitVec 32 → Bool) (tick now : BitVec 32) : RecvTime :=
  let t :=
    if t.initFlag then t
    else { t with initTime := tick, initFlag := true, calTime := 0, prevTimeTick := tick }
  let cal := if t.initTime < tick then tick - t.initTime else t.initTime - tick
  let t :=
    if jumps t.prevTimeTick then
      let timeTick := t.timeTick + getIntervalTime t.prevTime now
      { t with timeTick := timeTick, initTime := tick, calTime := timeTick }
    else { t with timeTick := cal + t.calTime }
  { t with prevTimeTick := tick, prevTime := now }

/-- A jump of H.264 and audio: back, or ahead by more than `UdpRecv_EXAMIN_TIME`. -/
def jumpsFar (tick prev : BitVec 32) : Bool :=
  decide (tick < prev) || (decide (prev < tick) && decide (examinTime < tick - prev))

/-- A jump of JPEG: back. -/
def jumpsBack (tick prev : BitVec 32) : Bool := decide (tick < prev)

/-! ### Placing a part -/

/-- A frame buffer and its running offset. -/
structure FrameBuf where
  /-- `video_data` or `audio_data`. -/
  data : Buffer
  /-- `video_offset` or `audio_offset`. -/
  offset : ℕ

/-- `UdpRecv_OPERATION_ERR`, `…_SUCC` and `…_CONTINUE`. -/
inductive Code
  | err
  | succ
  | continue
  deriving DecidableEq, Repr

/-- What placing a part does. -/
structure Placed where
  /-- The buffer behind it. -/
  buf : FrameBuf
  /-- The return code. -/
  code : Code
  /-- The part was refused because it would take the frame past its length. -/
  lost : Bool

/-- The `switch(fh->m_dw_segment)` of `pkg_placed_in_frame` and `pkg_placed_in_frame_audio`, with
the limit each has for the length of a frame. -/
def placeSegment (limit : ℕ) (b : FrameBuf) (fh : FreameHead) (body : Buffer) (part : ℕ) :
    Option Placed :=
  let total := fh.mFrameLength.toNat
  match fh.mDwSegment with
  | 2 =>
    if limit < total then some ⟨b, .err, false⟩
    else do
      let data ← memcpy b.data maxFrameLen 0 body bodyRoom 0 part
      return ⟨⟨data, part % 2 ^ 32⟩, .succ, false⟩
  | 0 =>
    if total < (b.offset + part) % 2 ^ 32 then some ⟨{ b with offset := 0 }, .succ, true⟩
    else do
      let data ← memcpy b.data maxFrameLen b.offset body bodyRoom 0 part
      return ⟨⟨data, (b.offset + part) % 2 ^ 32⟩, .succ, false⟩
  | 1 =>
    if total < (b.offset + part) % 2 ^ 32 then some ⟨{ b with offset := 0 }, .succ, true⟩
    else do
      let data ← memcpy b.data maxFrameLen b.offset body bodyRoom 0 part
      return ⟨⟨data, 0⟩, .continue, false⟩
  | 3 => do
    let data ← memcpy b.data maxFrameLen 0 body bodyRoom 0 total
    return ⟨⟨data, b.offset⟩, .continue, false⟩
  | _ => some ⟨b, .succ, false⟩

/-- The fields of `udp_recv_stream_info_t` the receiver sets. -/
structure StreamInfo where
  /-- The codec. -/
  type : DataCodec
  /-- Picture height. -/
  height : BitVec 16
  /-- Picture width. -/
  width : BitVec 16
  /-- `16` on a key frame. -/
  idrFlag : ℕ
  /-- Whether there is a picture. -/
  isBlue : Bool
  /-- Colours, or the audio bit rate. -/
  mColors : ℕ
  /-- Time, in milliseconds. -/
  timestamp : BitVec 32
  /-- Frame rate. -/
  frameRate : ℕ
  /-- Sample rate. -/
  samplerate : ℕ
  /-- Frames handed out. -/
  videoToalNum : ℕ
  /-- Parts refused. -/
  videoLostNum : ℕ
  deriving DecidableEq, Repr

/-- `udp_recv_handle`. -/
structure Handle where
  /-- The video buffer. -/
  video : FrameBuf
  /-- The audio buffer. -/
  audio : FrameBuf
  /-- The video times. -/
  videoTime : RecvTime
  /-- The audio times. -/
  audioTime : RecvTime
  /-- The stream. -/
  streamInfo : StreamInfo

/-- The handle `udp_recv_init` makes. -/
def Handle.init : Handle where
  video := ⟨emptyBody, 0⟩
  audio := ⟨emptyBody, 0⟩
  videoTime := .init
  audioTime := .init
  streamInfo := ⟨.unknown, 0, 0, 0, false, 0, 0, 0, 0, 0, 0⟩

/-- `pkg_placed_in_frame`. -/
def pkgPlacedInFrame (h : Handle) (fh : FreameHead) (body : Buffer) (part : ℕ) (now : BitVec 32) :
    Option (Handle × Code) := do
  let jumps := if fh.mDataCodec = .h264 then jumpsFar fh.mTimeTick else jumpsBack fh.mTimeTick
  let p ← placeSegment maxFrameLen h.video fh body part
  let lost := if p.lost then h.streamInfo.videoLostNum + 1 else h.streamInfo.videoLostNum
  return ({ h with
      videoTime := h.videoTime.advance jumps fh.mTimeTick now
      video := p.buf
      streamInfo := { h.streamInfo with videoLostNum := lost } }, p.code)

/-- `pkg_placed_in_frame_audio`. -/
def pkgPlacedInFrameAudio (h : Handle) (fh : FreameHead) (body : Buffer) (part : ℕ)
    (now : BitVec 32) : Option (Handle × Code) := do
  let p ← placeSegment maxAudioLen h.audio fh body part
  return ({ h with
      audioTime := h.audioTime.advance (jumpsFar fh.mTimeTick) fh.mTimeTick now
      audio := p.buf }, p.code)

/-- `udp_recv_media_frame_data`; the flag is `UdpRecv_FRAME_OK`. -/
def udpRecvMediaFrameData (h : Handle) (fh : FreameHead) (body : Buffer) (part : ℕ)
    (now : BitVec 32) : Option (Handle × Bool) :=
  match fh.mDataCodec with
  | .h264 | .jpeg => do
    let (h, code) ← pkgPlacedInFrame h fh body part now
    return (h, code = .continue)
  | .aac => do
    let (h, code) ← pkgPlacedInFrameAudio h fh body part now
    return (h, code = .continue)
  | .unknown => some (h, false)

/-- `udp_recv_set_stream_info`. -/
def StreamInfo.set (info : StreamInfo) (fh : FreameHead) (timestamp : BitVec 32) : StreamInfo :=
  { info with
    type := fh.mDataCodec
    height := fh.mHight
    width := fh.mWidth
    idrFlag := fh.mDwFlags
    isBlue := fh.mOthers = 0
    mColors := fh.mColors
    timestamp := timestamp
    frameRate := fh.mFrameRate
    samplerate := if fh.mDataCodec = .aac then fh.mFrameRate else info.samplerate }

/-! ### The loop -/

/-- Where the thread is. -/
inductive Status
  /-- In its loop. -/
  | running
  /-- It has left its loop. -/
  | exited
  /-- A copy has left its buffers. -/
  | faulty
  deriving DecidableEq, Repr

/-- The state of `udp_recv_deal`. -/
structure Receiver where
  /-- The handle. -/
  handle : Handle
  /-- `temp_time`, which an audio packet of unknown rate finds as the packet before left it. -/
  tempTime : BitVec 32
  /-- Where the thread is. -/
  status : Status

/-- A receiver before its first datagram. -/
def Receiver.init : Receiver := ⟨.init, 0, .running⟩

/-- A datagram, and the receiver's clock when it comes. -/
structure Datagram where
  /-- The bytes. -/
  bytes : List Byte
  /-- The time, in milliseconds. -/
  now : BitVec 32
  deriving DecidableEq, Repr

/-- What the callback gets: the buffer, and how much of it is the frame. -/
structure Delivered where
  /-- The stream. -/
  info : StreamInfo
  /-- The buffer. -/
  data : Buffer
  /-- The length. -/
  len : ℕ

/-- The frame. -/
def Delivered.frame (d : Delivered) : List Byte := window d.data 0 d.len

/-- The frame header of an H.264 packet, as the loop completes it. -/
def h264Head (head : FrameHead) (rtp : RtpHead) (flag : ℤ) : FreameHead :=
  let fh := getVideoFrameDataHead { mDataCodec := .h264 } head rtp
  { fh with
    mDwSegment := (if flag = -1 then 0 else flag).toNat
    mFrameRate := if fh.mFrameRate = 0 then 25 else fh.mFrameRate
    mTimeTick := fh.mTimeTick / 90 }

/-- The frame header of an audio packet, as the loop completes it. -/
def aacHead (head : FrameHead) (rtp : RtpHead) (tempTime : BitVec 32) : FreameHead :=
  let fh := getAudioFrameDataHead { mDataCodec := .aac } head rtp
  { fh with
    mTimeTick :=
      if fh.mFrameRate = 48000 ∨ fh.mFrameRate = 96000 then fh.mTimeTick / 48
      else if fh.mFrameRate = 44100 ∨ fh.mFrameRate = 88200 then fh.mTimeTick * 10 / 441
      else tempTime
    mColors := 128000 }

/-- A datagram by its codec: the frame header, the part and its length, and `temp_time`. -/
def unpack (tempTime : BitVec 32) (recv : Buffer) (n : ℕ) :
    Option (FreameHead × Buffer × ℕ × BitVec 32) :=
  let head := frameHeadAt recv
  let rtp := rtpHeadAt recv
  match setDataCodec head with
  | .aac => do
    let (body, len) ← getAudioFrameData recv n
    let fh := aacHead head rtp tempTime
    return (fh, body, len, fh.mTimeTick)
  | .h264 => do
    let (flag, body, len) ← getVideoFrameData recv n
    let fh := h264Head head rtp flag
    return (fh, body, len, fh.mTimeTick)
  | .jpeg => do
    let (body, len) ← getJpegFrameData recv n
    return (getJpegFrameDataHead { mDataCodec := .jpeg } head rtp, body, len, tempTime)
  | .unknown => some ({ mDataCodec := .unknown }, emptyBody, 0, tempTime)

/-- The callback of a complete frame. -/
def Handle.handOut (h : Handle) (fh : FreameHead) : Handle × Option Delivered :=
  let info := { h.streamInfo with videoToalNum := h.streamInfo.videoToalNum + 1 }
  match fh.mDataCodec with
  | .h264 | .jpeg =>
    let info := info.set fh h.videoTime.timeTick
    ({ h with streamInfo := info }, some ⟨info, h.video.data, fh.mFrameLength.toNat⟩)
  | .aac =>
    let info := info.set fh h.audioTime.timeTick
    ({ h with streamInfo := info }, some ⟨info, h.audio.data, fh.mFrameLength.toNat⟩)
  | .unknown => ({ h with streamInfo := info }, none)

/-- One turn of the loop of `udp_recv_deal`. -/
def step (s : Receiver) (dg : Datagram) : Receiver × Option Delivered :=
  if s.status ≠ .running then (s, none)
  else
    let bytes := dg.bytes.take maxUdpLen
    if bytes.length < 28 then ({ s with status := .exited }, none)
    else
      match unpack s.tempTime (recvBuf bytes) bytes.length with
      | none => ({ s with status := .faulty }, none)
      | some (fh, body, len, tempTime) =>
        match udpRecvMediaFrameData s.handle fh body len dg.now with
        | none => ({ s with status := .faulty }, none)
        | some (h, true) =>
          let (h, out) := h.handOut fh
          (⟨h, tempTime, .running⟩, out)
        | some (h, false) => (⟨h, tempTime, .running⟩, none)

end Rtp

end ReachEdukit
