import ReachEdukit.Lib.Memory

/-!
# RTP packets

A media packet is a 12-byte RTP header, a 4-byte extension header, a 12-byte frame header private
to this system, and a payload. The C code lays the headers out as bit-field structures over a byte
buffer; here each has its fields at their widths, `bytes` writes it and a `…At` function reads it
back from a buffer.

The bit-fields are those of a little-endian compiler: the first field of a byte is its low end.
Fields of more than a byte go through `htons` and `htonl`, so they are big-endian.

## Main results

* `rtpHeadAt_packet`, `frameHeadAt_packet` — the headers of a packet are read back as written
-/

namespace ReachEdukit

namespace Rtp

open Memory

/-- A byte. -/
abbrev Byte := BitVec 8

/-- A byte buffer. -/
abbrev Buffer := ℕ → Byte

/-! ### Byte order -/

/-- A 16-bit value in network order. -/
def be16 (w : BitVec 16) : List Byte := [w.extractLsb' 8 8, w.extractLsb' 0 8]

/-- A 32-bit value in network order. -/
def be32 (w : BitVec 32) : List Byte :=
  [w.extractLsb' 24 8, w.extractLsb' 16 8, w.extractLsb' 8 8, w.extractLsb' 0 8]

/-- `ntohs` of the two bytes at `i`. -/
def be16At (m : Buffer) (i : ℕ) : BitVec 16 := m i ++ m (i + 1)

/-- `ntohl` of the four bytes at `i`. -/
def be32At (m : Buffer) (i : ℕ) : BitVec 32 := m i ++ m (i + 1) ++ m (i + 2) ++ m (i + 3)

theorem be16_append (w : BitVec 16) : w.extractLsb' 8 8 ++ w.extractLsb' 0 8 = w := by
  refine BitVec.eq_of_getLsbD_eq fun i hi => ?_
  simp only [BitVec.getLsbD_append, BitVec.getLsbD_extractLsb']
  grind

theorem be32_append (w : BitVec 32) :
    w.extractLsb' 24 8 ++ w.extractLsb' 16 8 ++ w.extractLsb' 8 8 ++ w.extractLsb' 0 8 = w := by
  refine BitVec.eq_of_getLsbD_eq fun i hi => ?_
  simp only [BitVec.getLsbD_append, BitVec.getLsbD_extractLsb']
  grind

/-! ### The headers -/

/-- `RTP_FIXED_HEADER`. -/
structure RtpHead where
  /-- Number of contributing sources. -/
  csrcLen : BitVec 4
  /-- An extension header follows. -/
  extension : BitVec 1
  /-- Padding at the end. -/
  padding : BitVec 1
  /-- The RTP version. -/
  version : BitVec 2
  /-- The payload type. -/
  payload : BitVec 7
  /-- The last packet of a unit. -/
  marker : BitVec 1
  /-- The sequence number. -/
  seqNo : BitVec 16
  /-- The timestamp. -/
  timestamp : BitVec 32
  /-- The source. -/
  ssrc : BitVec 32
  deriving DecidableEq, Repr

/-- Its 12 bytes. -/
def RtpHead.bytes (h : RtpHead) : List Byte :=
  [h.version ++ h.padding ++ h.extension ++ h.csrcLen, h.marker ++ h.payload] ++
    be16 h.seqNo ++ be32 h.timestamp ++ be32 h.ssrc

/-- `FRAMEHEAD`. -/
structure FrameHead where
  /-- `0` for H.264, `1` for ADTS, `2` for JPEG. -/
  codec : BitVec 4
  /-- Sample rate, blue-screen flag or segment, by codec. -/
  samplerate : BitVec 4
  /-- Frame rate. -/
  framerate : Byte
  /-- Picture width. -/
  width : BitVec 16
  /-- Picture height. -/
  height : BitVec 16
  /-- `1` on a key frame. -/
  iframe : Byte
  /-- Spare. -/
  reserve : Byte
  /-- Bytes of the whole frame. -/
  framelength : BitVec 32
  deriving DecidableEq, Repr

/-- Its 12 bytes. -/
def FrameHead.bytes (h : FrameHead) : List Byte :=
  [h.samplerate ++ h.codec, h.framerate] ++ be16 h.width ++ be16 h.height ++
    [h.iframe, h.reserve] ++ be32 h.framelength

/-- `debug_head_t`: profile `0`, three words of extension. -/
def debugHead : List Byte := be16 0 ++ be16 3

/-- `FU_INDICATOR`. -/
structure FuIndicator where
  /-- The forbidden bit. -/
  f : BitVec 1
  /-- The reference idc of the NAL unit. -/
  nri : BitVec 2
  /-- `28` for a fragment. -/
  type : BitVec 5
  deriving DecidableEq, Repr

/-- Its byte. -/
def FuIndicator.byte (h : FuIndicator) : Byte := h.f ++ h.nri ++ h.type

/-- `FU_HEADER`. -/
structure FuHeader where
  /-- The first fragment. -/
  s : BitVec 1
  /-- The last fragment. -/
  e : BitVec 1
  /-- Spare. -/
  r : BitVec 1
  /-- The type of the NAL unit. -/
  type : BitVec 5
  deriving DecidableEq, Repr

/-- Its byte. -/
def FuHeader.byte (h : FuHeader) : Byte := h.s ++ h.e ++ h.r ++ h.type

/-- A media packet. -/
def packet (rtp : RtpHead) (head : FrameHead) (payload : List Byte) : List Byte :=
  rtp.bytes ++ debugHead ++ head.bytes ++ payload

@[simp] theorem length_packet (rtp : RtpHead) (head : FrameHead) (payload : List Byte) :
    (packet rtp head payload).length = 28 + payload.length := by
  simp only [packet, RtpHead.bytes, debugHead, FrameHead.bytes, be16, be32, List.length_append,
    List.length_cons, List.length_nil]

/-! ### Reading the headers back -/

/-- The RTP header at the start of a buffer. -/
def rtpHeadAt (m : Buffer) : RtpHead where
  csrcLen := (m 0).extractLsb' 0 4
  extension := (m 0).extractLsb' 4 1
  padding := (m 0).extractLsb' 5 1
  version := (m 0).extractLsb' 6 2
  payload := (m 1).extractLsb' 0 7
  marker := (m 1).extractLsb' 7 1
  seqNo := be16At m 2
  timestamp := be32At m 4
  ssrc := be32At m 8

/-- The frame header, at byte 16. -/
def frameHeadAt (m : Buffer) : FrameHead where
  codec := (m 16).extractLsb' 0 4
  samplerate := (m 16).extractLsb' 4 4
  framerate := m 17
  width := be16At m 18
  height := be16At m 20
  iframe := m 22
  reserve := m 23
  framelength := be32At m 24

/-- The FU indicator, at byte 28. -/
def fuIndicatorAt (m : Buffer) : FuIndicator where
  f := (m 28).extractLsb' 7 1
  nri := (m 28).extractLsb' 5 2
  type := (m 28).extractLsb' 0 5

/-- The FU header, at byte 29. -/
def fuHeaderAt (m : Buffer) : FuHeader where
  s := (m 29).extractLsb' 7 1
  e := (m 29).extractLsb' 6 1
  r := (m 29).extractLsb' 5 1
  type := (m 29).extractLsb' 0 5

/-- A received datagram: the bytes, and zeros behind them. -/
def recvBuf (dg : List Byte) : Buffer := ofList 0 dg

/-- A field above `b` is read as in what stands above `b`. -/
theorem extract_above {m n i j k : ℕ} (a : BitVec m) (b : BitVec n) (h : j = n + i) :
    (a ++ b).extractLsb' j k = a.extractLsb' i k := by
  subst h
  refine BitVec.eq_of_getLsbD_eq fun l hl => ?_
  simp only [BitVec.getLsbD_append, BitVec.getLsbD_extractLsb']
  grind

/-- A field inside `b` is not moved by what stands above it. -/
theorem extract_below {m n i k : ℕ} (a : BitVec m) (b : BitVec n) (h : i + k ≤ n) :
    (a ++ b).extractLsb' i k = b.extractLsb' i k := by
  refine BitVec.eq_of_getLsbD_eq fun l hl => ?_
  simp only [BitVec.getLsbD_append, BitVec.getLsbD_extractLsb']
  grind

/-- Two fields side by side. -/
theorem extract_two {m n : ℕ} (a : BitVec m) (b : BitVec n) :
    (a ++ b).extractLsb' n m = a ∧ (a ++ b).extractLsb' 0 n = b :=
  ⟨(extract_above a b (i := 0) rfl).trans (by simp),
    (extract_below a b (by omega)).trans (by simp)⟩

theorem FuIndicator.read_byte (h : FuIndicator) :
    h.byte.extractLsb' 7 1 = h.f ∧ h.byte.extractLsb' 5 2 = h.nri ∧
      h.byte.extractLsb' 0 5 = h.type := by
  obtain ⟨hf, hnri⟩ := extract_two h.f h.nri
  refine ⟨?_, ?_, (extract_two (h.f ++ h.nri) h.type).2⟩
  · exact (extract_above (h.f ++ h.nri) h.type (i := 2) rfl).trans hf
  · exact (extract_above (h.f ++ h.nri) h.type (i := 0) rfl).trans hnri

theorem FuHeader.read_byte (h : FuHeader) :
    h.byte.extractLsb' 7 1 = h.s ∧ h.byte.extractLsb' 6 1 = h.e ∧ h.byte.extractLsb' 5 1 = h.r ∧
      h.byte.extractLsb' 0 5 = h.type := by
  obtain ⟨hs, he⟩ := extract_two h.s h.e
  have hup : ∀ {i j k : ℕ}, j = 5 + (1 + i) → h.byte.extractLsb' j k =
      (h.s ++ h.e).extractLsb' i k := fun hj =>
    (extract_above (h.s ++ h.e ++ h.r) h.type hj).trans (extract_above (h.s ++ h.e) h.r rfl)
  refine ⟨(hup rfl).trans hs, (hup rfl).trans he, ?_, (extract_two (h.s ++ h.e ++ h.r) h.type).2⟩
  exact (extract_above (h.s ++ h.e ++ h.r) h.type (i := 0) rfl).trans
    (extract_two (h.s ++ h.e) h.r).2

/-- The RTP header of a packet is read back. -/
theorem rtpHeadAt_packet (rtp : RtpHead) (head : FrameHead) (payload : List Byte) :
    rtpHeadAt (recvBuf (packet rtp head payload)) = rtp := by
  obtain ⟨csrcLen, extension, padding, version, payloadType, marker, seqNo, timestamp, ssrc⟩ := rtp
  obtain ⟨hver, hpad⟩ := extract_two version padding
  have hup : ∀ {i j k : ℕ}, j = 4 + (1 + i) →
      (version ++ padding ++ extension ++ csrcLen).extractLsb' j k =
        (version ++ padding).extractLsb' i k := fun hj =>
    (extract_above (version ++ padding ++ extension) csrcLen hj).trans
      (extract_above (version ++ padding) extension rfl)
  have hext : (version ++ padding ++ extension ++ csrcLen).extractLsb' 4 1 = extension :=
    (extract_above (version ++ padding ++ extension) csrcLen (i := 0) rfl).trans
      (extract_two (version ++ padding) extension).2
  have hcsrc : (version ++ padding ++ extension ++ csrcLen).extractLsb' 0 4 = csrcLen :=
    (extract_two (version ++ padding ++ extension) csrcLen).2
  obtain ⟨hmarker, hpayload⟩ := extract_two marker payloadType
  simp only [rtpHeadAt, recvBuf, ofList, packet, RtpHead.bytes, be16At, be32At, be16, be32,
    List.cons_append, List.nil_append]
  simp only [List.getElem?_cons_zero, List.getElem?_cons_succ, Option.getD_some, be16_append,
    be32_append, hmarker, hpayload, hext, hcsrc, (hup rfl).trans hver, (hup rfl).trans hpad]

/-- The frame header of a packet is read back. -/
theorem frameHeadAt_packet (rtp : RtpHead) (head : FrameHead) (payload : List Byte) :
    frameHeadAt (recvBuf (packet rtp head payload)) = head := by
  obtain ⟨codec, samplerate, framerate, width, height, iframe, reserve, framelength⟩ := head
  obtain ⟨hsamplerate, hcodec⟩ := extract_two samplerate codec
  simp only [frameHeadAt, recvBuf, ofList, packet, RtpHead.bytes, debugHead, FrameHead.bytes,
    be16At, be32At, be16, be32, List.cons_append, List.nil_append]
  simp only [List.getElem?_cons_zero, List.getElem?_cons_succ, Option.getD_some, be16_append,
    be32_append, hsamplerate, hcodec]

/-- The payload of a packet starts at byte 28. -/
theorem window_packet (rtp : RtpHead) (head : FrameHead) (pre part : List Byte) :
    window (recvBuf (packet rtp head (pre ++ part))) (28 + pre.length) part.length = part := by
  have h := window_ofList_append 0 (rtp.bytes ++ debugHead ++ head.bytes ++ pre) part []
  have hlen : (rtp.bytes ++ debugHead ++ head.bytes ++ pre).length = 28 + pre.length := by
    simpa [packet] using length_packet rtp head pre
  rw [hlen] at h
  simpa [recvBuf, packet] using h

/-- The bytes of the payload of a packet. -/
theorem recvBuf_packet (rtp : RtpHead) (head : FrameHead) (payload : List Byte) (i : ℕ) :
    recvBuf (packet rtp head payload) (28 + i) = (payload[i]?).getD 0 := by
  have hlen : (rtp.bytes ++ debugHead ++ head.bytes).length = 28 := by
    simpa [packet] using length_packet rtp head []
  rw [recvBuf, ofList, packet, List.getElem?_append_right (by omega)]
  congr 3
  omega

end Rtp

end ReachEdukit
