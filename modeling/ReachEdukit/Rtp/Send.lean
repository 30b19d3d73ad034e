import ReachEdukit.Rtp.Packet

/-!
# The media sender

`UdpSend_rtp_build_video_data` cuts an H.264 buffer into NAL units and `UdpSendRtpNalu` sends each
in one packet or, when it is too long, in FU-A fragments; `UdpSend_rtp_build_jpeg_data` sends a JPEG
picture in parts of its own. Here each gives the list of packets it sends.

The source walks an H.264 buffer with a pointer. What is behind the pointer is a suffix of the
buffer, and it is the suffix that is walked here: `pos < ptail` says that it has more than four
bytes.

## What is left out

The socket: `udp_send_rtp_data` answers `OPERATION_SUCC` whatever becomes of the packet. The
checks for null pointers. A buffer of fewer than five bytes, which the source reads past its end.
-/

namespace ReachEdukit

namespace Rtp

/-- `US_RTP_BUILD_INFO`. The sequence numbers are used through pointers to 16 bits. -/
structure BuildInfo where
  /-- The time of the first frame. -/
  timeOrg : BitVec 32
  /-- The next video sequence number. -/
  videoSeqNum : BitVec 16
  /-- The next JPEG sequence number. -/
  jpgSeqNum : BitVec 16
  deriving DecidableEq, Repr

/-- The header both senders start from. -/
def rtpHead (marker : BitVec 1) (seqNo : BitVec 16) (timestamp : BitVec 32) : RtpHead where
  csrcLen := 0
  extension := 1
  padding := 0
  version := 2
  payload := 96
  marker := marker
  seqNo := seqNo
  timestamp := timestamp
  ssrc := 10

/-! ### Splitting -/

/-- The place of a part. -/
inductive Place
  | first
  | middle
  | last
  deriving DecidableEq, Repr

/-- A part of a split payload. -/
structure Piece where
  /-- Its place. -/
  place : Place
  /-- Its number, the `t` of the loop. -/
  index : ℕ
  /-- Its bytes. -/
  part : List Byte
  deriving DecidableEq, Repr

/-- The loop of both senders over a payload of more than `mtu` bytes: `t` counts to `k`, and the
last part has `l` bytes. -/
def split (mtu : ℕ) (payload : List Byte) : List Piece :=
  let l := if payload.length % mtu = 0 then mtu else payload.length % mtu
  let k := if payload.length % mtu = 0 then payload.length / mtu - 1 else payload.length / mtu
  (List.range (k + 1)).map fun t =>
    if t = 0 then ⟨.first, t, payload.take mtu⟩
    else if k = t then ⟨.last, t, (payload.drop (t * mtu)).take l⟩
    else ⟨.middle, t, (payload.drop (t * mtu)).take mtu⟩

/-! ### NAL units -/

/-- `US_NALU_t`. -/
structure Nalu where
  /-- The bytes, from the NAL header on. -/
  buf : List Byte
  /-- `buf[0] & 0x80`. -/
  forbiddenBit : Byte
  /-- `buf[0] & 0x60`. -/
  nalReferenceIdc : Byte
  /-- `buf[0] & 0x1f`. -/
  nalUnitType : Byte
  deriving DecidableEq, Repr

/-- The NAL unit of some bytes, as `UdpSend_rtp_build_video_data` fills it. -/
def Nalu.ofBytes (buf : List Byte) : Nalu where
  buf := buf
  forbiddenBit := buf.headD 0 &&& 0x80
  nalReferenceIdc := buf.headD 0 &&& 0x60
  nalUnitType := buf.headD 0 &&& 0x1f

/-- The FU indicator of its fragments. -/
def Nalu.fuInd (nalu : Nalu) : FuIndicator where
  f := nalu.forbiddenBit.setWidth 1
  nri := (nalu.nalReferenceIdc >>> 5).setWidth 2
  type := 28

/-- The FU header of a fragment. -/
def Nalu.fuHdr (nalu : Nalu) (place : Place) : FuHeader where
  s := if place = .first then 1 else 0
  e := if place = .last then 1 else 0
  r := 0
  type := nalu.nalUnitType.setWidth 5

/-- `UdpSendRtpNalu`: the packets of a NAL unit, from sequence number `seq` on. -/
def udpSendRtpNalu (nalu : Nalu) (seq : BitVec 16) (ts : BitVec 32) (mtu : ℕ) (head : FrameHead) :
    List (List Byte) :=
  if nalu.buf.length - 1 ≤ mtu then [packet (rtpHead 1 seq ts) head nalu.buf]
  else
    (split mtu (nalu.buf.drop 1)).map fun p =>
      packet (rtpHead (if p.place = .last then 1 else 0) (seq + BitVec.ofNat 16 p.index) ts) head
        ([nalu.fuInd.byte, (nalu.fuHdr p.place).byte] ++ p.part)

/-! ### H.264 buffers -/

/-- A start code stands at the pointer. -/
def startsWithCode (rest : List Byte) : Bool := rest.take 4 == [0, 0, 0, 1]

/-- The `do … while` behind a parameter set: on to the next start code, or to `ptail`. -/
def seekStartCode : List Byte → List Byte
  | [] => []
  | b :: rest =>
    if !startsWithCode (b :: rest) && decide (4 < (b :: rest).length) then seekStartCode rest
    else b :: rest

/-- The loop over a buffer: the bytes of its NAL units. Behind a unit that is not a parameter set
the pointer goes to the end at once. -/
def nalus : ℕ → List Byte → List (List Byte)
  | 0, _ => []
  | fuel + 1, rest =>
    let naluValue := if startsWithCode rest then rest.getD 4 0 else 0
    let pos :=
      if naluValue &&& 0x1f = 7 ∨ naluValue &&& 0x1f = 8 then seekStartCode (rest.drop 1)
      else rest.drop (rest.length - 4)
    if pos.length ≤ 4 then [rest.drop 4]
    else (rest.drop 4).take (rest.length - pos.length - 4) :: nalus fuel pos

/-- The packets of NAL units, in order. -/
def sendNalus (ts : BitVec 32) (mtu : ℕ) (head : FrameHead) :
    BitVec 16 → List (List Byte) → List (List Byte)
  | _, [] => []
  | seq, buf :: bufs =>
    let pkts := udpSendRtpNalu (.ofBytes buf) seq ts mtu head
    pkts ++ sendNalus ts mtu head (seq + BitVec.ofNat 16 pkts.length) bufs

/-- `UdpSend_rtp_build_video_data`. -/
def buildVideoData (h : BuildInfo) (pData : List Byte) (rtpMtu : ℕ) (nowtime : BitVec 32)
    (head : FrameHead) : BuildInfo × List (List Byte) :=
  if rtpMtu < 228 then (h, [])
  else
    let timeOrg := if h.timeOrg = 0 ∨ nowtime < h.timeOrg then nowtime else h.timeOrg
    let ts := (nowtime - timeOrg) * 90
    let pkts := sendNalus ts (rtpMtu - 14) head h.videoSeqNum (nalus pData.length pData)
    ({ h with
        timeOrg := if 0xFFFFFFFF ≤ ts then 0 else timeOrg
        videoSeqNum := h.videoSeqNum + BitVec.ofNat 16 pkts.length }, pkts)

/-! ### JPEG pictures -/

/-- The segment the receiver is told, in the field for the sample rate. -/
def jpegSegment : Place → BitVec 4
  | .first => 2
  | .middle => 0
  | .last => 1

/-- `UdpSend_rtp_build_jpeg_data`. -/
def buildJpegData (h : BuildInfo) (pData : List Byte) (rtpMtu : ℕ) (ts : BitVec 32)
    (head : FrameHead) : BuildInfo × List (List Byte) :=
  let pkts :=
    if pData.length ≤ rtpMtu - 28 then
      [packet (rtpHead 1 h.jpgSeqNum ts) { head with samplerate := 3 } pData]
    else
      (split (rtpMtu - 28) pData).map fun p =>
        packet
          (rtpHead (if p.place = .last then 1 else 0) (h.jpgSeqNum + BitVec.ofNat 16 p.index) ts)
          { head with samplerate := jpegSegment p.place } p.part
  ({ h with jpgSeqNum := h.jpgSeqNum + BitVec.ofNat 16 pkts.length }, pkts)

end Rtp

end ReachEdukit
