import ReachEdukit.Lib.NalPayload
import ReachEdukit.Rtp.RoundTrip

/-!
# The packets of live H.264

`room/lives/rtp_build.c` is a second copy of the sender of the encoder boxes: `SendRtpNalu` and the
loop of `rtp_build_video_data` are the same code as `UdpSendRtpNalu` and
`UdpSend_rtp_build_video_data`. Only the handle differs, which has one sequence number. Here the
packets are read as any RTP receiver reads them, behind the extension header, and their payloads as
a receiver of H.264 does.

A packet is built in `sendbuf` of 1500 bytes. The one caller sends with an `rtp_mtu` of 1280; the
results are about every `rtp_mtu` that is not refused and leaves the packets in that buffer.

## Main definitions

* `sendRtpNalu`, `rtpBuildVideoData` — the functions
* `LiveFrame` — a slice, or parameter sets and an IDR slice, of any length
* `payloadOf` — the payload of an RTP packet

## Main results

* `conveys_nalu` — the packets of a NAL unit convey it
* `rtpBuildVideoData_conformant` — the packets of a frame decode to its NAL units
-/

namespace ReachEdukit

namespace Lives

open Rtp Memory NalPayload

/-! ### The sender -/

/-- `RTP_BUILD_INFO`. The sequence number is used through a pointer to 16 bits. -/
structure RtpBuildInfo where
  /-- The time of the first frame. -/
  timeOrg : BitVec 32
  /-- The next sequence number. -/
  seqNum : BitVec 16
  deriving DecidableEq, Repr

/-- The size of `sendbuf`. -/
def sendbufLen : ℕ := 1500

/-- `SendRtpNalu`. -/
def sendRtpNalu (nalu : Nalu) (seq : BitVec 16) (ts : BitVec 32) (mtu : ℕ) (head : FrameHead) :
    List (List Rtp.Byte) :=
  udpSendRtpNalu nalu seq ts mtu head

/-- The loop of `rtp_build_video_data` over the NAL units. -/
def sendRtpNalus (ts : BitVec 32) (mtu : ℕ) (head : FrameHead) :
    BitVec 16 → List (List Rtp.Byte) → List (List Rtp.Byte)
  | _, [] => []
  | seq, buf :: bufs =>
    let pkts := sendRtpNalu (.ofBytes buf) seq ts mtu head
    pkts ++ sendRtpNalus ts mtu head (seq + BitVec.ofNat 16 pkts.length) bufs

/-- `rtp_build_video_data`: the handle it leaves and what it gives to `send_rtp_video`. -/
def rtpBuildVideoData (h : RtpBuildInfo) (pData : List Rtp.Byte) (rtpMtu : ℕ) (nowtime : BitVec 32)
    (head : FrameHead) : RtpBuildInfo × List (List Rtp.Byte) :=
  if rtpMtu < 228 then (h, [])
  else
    let timeOrg := if h.timeOrg = 0 ∨ nowtime < h.timeOrg then nowtime else h.timeOrg
    let ts := (nowtime - timeOrg) * 90
    let pkts := sendRtpNalus ts (rtpMtu - 14) head h.seqNum (nalus pData.length pData)
    ({ timeOrg := if 0xFFFFFFFF ≤ ts then 0 else timeOrg
       seqNum := h.seqNum + BitVec.ofNat 16 pkts.length }, pkts)

/-! ### Frames -/

/-- A frame of the encoder, of any length. -/
inductive LiveFrame
  /-- One slice. -/
  | slice (f : Slice)
  /-- Parameter sets and an IDR slice. -/
  | key (sps pps idr : Nal) (hsps : sps.type = 7) (hpps : pps.type = 8) (hidr : idr.type = 5)

/-- Its NAL units. -/
def LiveFrame.nals : LiveFrame → List Nal
  | .slice f => [f.nal]
  | .key sps pps idr _ _ _ => [sps, pps, idr]

/-- Its bytes: each NAL unit behind a start code. -/
def LiveFrame.bytes (f : LiveFrame) : List Rtp.Byte :=
  (f.nals.map fun n => startCode ++ n.bytes).flatten

/-! ### Reading a packet -/

/-- The payload of an RTP packet: behind the contributing sources and the extension header, and
without the padding. -/
def payloadOf (dg : List Rtp.Byte) : List Rtp.Byte :=
  let h := rtpHeadAt (recvBuf dg)
  let sources := 12 + 4 * h.csrcLen.toNat
  let ext := if h.extension = 1 then 4 + 4 * (be16At (recvBuf dg) (sources + 2)).toNat else 0
  let pad := if h.padding = 1 then (dg.getLastD 0).toNat else 0
  (dg.drop (sources + ext)).take (dg.length - (sources + ext) - pad)

/-- Its sequence number. -/
def seqOf (dg : List Rtp.Byte) : BitVec 16 := (rtpHeadAt (recvBuf dg)).seqNo

/-- Its timestamp. -/
def timestampOf (dg : List Rtp.Byte) : BitVec 32 := (rtpHeadAt (recvBuf dg)).timestamp

/-! ### The packets of a NAL unit -/

/-- The payload behind a header with an extension, and without sources and padding. -/
theorem payloadOf_packet_of {rtp : RtpHead} (hsources : rtp.csrcLen = 0) (hext : rtp.extension = 1)
    (hpad : rtp.padding = 0) (head : FrameHead) (payload : List Rtp.Byte) :
    payloadOf (packet rtp head payload) = payload := by
  have hlen : (be16At (recvBuf (packet rtp head payload)) 14) = 3 := by
    simp only [be16At, recvBuf, ofList, packet, RtpHead.bytes, debugHead, be16, be32,
      List.cons_append, List.nil_append, List.getElem?_cons_zero, List.getElem?_cons_succ,
      Option.getD_some]
    decide
  have hdrop : (packet rtp head payload).drop 28 = payload := by
    refine List.drop_left' ?_
    simpa [packet] using length_packet rtp head []
  have htwelve : 12 + 4 * (0 : BitVec 4).toNat = 12 := rfl
  have hnopad : (0 : BitVec 1) ≠ 1 := by decide
  have hbody : 12 + (4 + 4 * (3 : BitVec 16).toNat) = 28 := rfl
  rw [payloadOf, rtpHeadAt_packet]
  simp only [hsources, htwelve, if_pos hext, hpad, if_neg hnopad, hlen, hbody]
  rw [hdrop, length_packet]
  exact List.take_of_length_le (by omega)

theorem payloadOf_packet (marker : BitVec 1) (seq : BitVec 16) (ts : BitVec 32) (head : FrameHead)
    (payload : List Rtp.Byte) :
    payloadOf (packet (rtpHead marker seq ts) head payload) = payload :=
  payloadOf_packet_of rfl rfl rfl head payload

theorem seqOf_packet (marker : BitVec 1) (seq : BitVec 16) (ts : BitVec 32) (head : FrameHead)
    (payload : List Rtp.Byte) : seqOf (packet (rtpHead marker seq ts) head payload) = seq := by
  rw [seqOf, rtpHeadAt_packet]
  rfl

theorem timestampOf_packet (marker : BitVec 1) (seq : BitVec 16) (ts : BitVec 32) (head : FrameHead)
    (payload : List Rtp.Byte) : timestampOf (packet (rtpHead marker seq ts) head payload) = ts := by
  rw [timestampOf, rtpHeadAt_packet]
  rfl

/-- The indicator and the header of a fragment, as a receiver of H.264 reads them. -/
theorem fragment_bits (b : Rtp.Byte) (nal : List Rtp.Byte) (place : Place) (hb : b &&& 0x80 = 0) :
    unitType (Nalu.ofBytes (b :: nal)).fuInd.byte = 28 ∧
      ((Nalu.ofBytes (b :: nal)).fuHdr place).byte &&& 0x20 = 0 ∧
      (((Nalu.ofBytes (b :: nal)).fuHdr place).byte &&& 0x80 ≠ 0 ↔ place = .first) ∧
      (((Nalu.ofBytes (b :: nal)).fuHdr place).byte &&& 0x40 ≠ 0 ↔ place = .last) ∧
      ((Nalu.ofBytes (b :: nal)).fuInd.byte &&& 0xe0 |||
        unitType ((Nalu.ofBytes (b :: nal)).fuHdr place).byte) = b := by
  have hall : ∀ b : BitVec 8, b &&& 0x80 = 0 →
      unitType (Nalu.ofBytes [b]).fuInd.byte = 28 ∧
      ((Nalu.ofBytes [b]).fuHdr place).byte &&& 0x20 = 0 ∧
      (((Nalu.ofBytes [b]).fuHdr place).byte &&& 0x80 ≠ 0 ↔ place = .first) ∧
      (((Nalu.ofBytes [b]).fuHdr place).byte &&& 0x40 ≠ 0 ↔ place = .last) ∧
      ((Nalu.ofBytes [b]).fuInd.byte &&& 0xe0 |||
        unitType ((Nalu.ofBytes [b]).fuHdr place).byte) = b := by
    cases place <;> decide +kernel
  exact hall b hb

/-- **The packets of a NAL unit** convey it. -/
theorem conveys_nalu {n : Nal} (hn : 1 ≤ n.type ∧ n.type ≤ 23) {mtu : ℕ} (hmtu : 0 < mtu)
    (seq : BitVec 16) (ts : BitVec 32) (head : FrameHead) :
    Conveys n.bytes ((sendRtpNalu (.ofBytes n.bytes) seq ts mtu head).map payloadOf) := by
  have hsize : (Nalu.ofBytes n.bytes).buf.length - 1 = n.rest.length := rfl
  have hrest : (Nalu.ofBytes n.bytes).buf.drop 1 = n.rest := rfl
  rw [sendRtpNalu, udpSendRtpNalu, hsize, hrest]
  by_cases hfit : n.rest.length ≤ mtu
  · left
    rw [if_pos hfit, List.map_singleton, List.map_singleton, payloadOf_packet]
    exact congrArg (fun x => [x]) (Payload.ofBytes_single n.rest hn)
  · right
    obtain ⟨first, last, mids, k, hsplit, hmids, hparts, -⟩ :=
      split_eq hmtu (Nat.lt_of_not_le hfit)
    have hread : ∀ p : Piece, Payload.ofBytes (payloadOf (packet
        (rtpHead (if p.place = .last then 1 else 0) (seq + BitVec.ofNat 16 p.index) ts) head
        ([(Nalu.ofBytes n.bytes).fuInd.byte, ((Nalu.ofBytes n.bytes).fuHdr p.place).byte] ++
          p.part))) =
        some (.fragment (decide (p.place = .first)) (decide (p.place = .last)) n.head p.part) := by
      intro p
      obtain ⟨htype, hres, hs, he, hhead⟩ := fragment_bits n.head n.rest p.place n.forbidden
      rw [payloadOf_packet, List.cons_append, List.singleton_append]
      refine (Payload.ofBytes_fragment p.part htype hres).trans ?_
      simp only [hs, he, hhead]
    refine ⟨n.head, first, last, mids.map Piece.part, ?_, ?_⟩
    · rw [hparts, Nal.bytes]
    · rw [if_neg hfit, List.map_map, List.map_map, List.map_map, hsplit, List.map_cons,
        List.map_append, List.map_singleton]
      refine congrArg₂ List.cons (hread _) (congrArg₂ List.append ?_ ?_)
      · refine List.map_congr_left fun m hm => ?_
        show Payload.ofBytes (payloadOf _) = _
        rw [hread m, hmids m hm]
        rfl
      · exact congrArg (fun x => [x]) (hread _)

/-! ### The packets of a frame -/

/-- Each packet has the next sequence number. -/
theorem map_seqOf_nalu (nalu : Nalu) (seq : BitVec 16) (ts : BitVec 32) (mtu : ℕ)
    (head : FrameHead) :
    (sendRtpNalu nalu seq ts mtu head).map seqOf =
      (List.range (sendRtpNalu nalu seq ts mtu head).length).map
        fun i => seq + BitVec.ofNat 16 i := by
  rw [sendRtpNalu, udpSendRtpNalu]
  split
  · show [seqOf _] = [seq + BitVec.ofNat 16 0]
    rw [seqOf_packet]
    simp
  · have hindex : (split mtu (nalu.buf.drop 1)).map Piece.index =
        List.range (split mtu (nalu.buf.drop 1)).length := by
      rw [split]
      simp only [List.map_map, List.length_map, List.length_range]
      refine (List.map_congr_left fun t _ => ?_).trans (List.map_id _)
      simp only [Function.comp]
      split_ifs <;> rfl
    rw [List.length_map, ← hindex, List.map_map, List.map_map]
    refine List.map_congr_left fun p _ => ?_
    exact seqOf_packet ..

/-- What the packets of a NAL unit share. -/
theorem packets_nalu {nalu : Nalu} {seq : BitVec 16} {ts : BitVec 32} {mtu : ℕ} {head : FrameHead}
    (hmtu : 0 < mtu) : ∀ p ∈ sendRtpNalu nalu seq ts mtu head,
      timestampOf p = ts ∧ p.length ≤ mtu + 30 := by
  intro p hp
  rw [sendRtpNalu, udpSendRtpNalu] at hp
  split at hp
  · obtain rfl := List.mem_singleton.mp hp
    refine ⟨timestampOf_packet .., ?_⟩
    rw [length_packet]
    omega
  · obtain ⟨q, hq, rfl⟩ := List.mem_map.mp hp
    have hpart : q.part.length ≤ mtu := split_part_le hmtu (by rw [List.length_drop]; omega) q hq
    refine ⟨timestampOf_packet .., ?_⟩
    rw [length_packet, List.length_append]
    simp only [List.length_cons, List.length_nil]
    omega

/-- The loop over the NAL units keeps this. -/
theorem packets_nalus (ts : BitVec 32) {mtu : ℕ} (head : FrameHead) (hmtu : 0 < mtu)
    (bufs : List (List Rtp.Byte)) (seq : BitVec 16) :
    (∀ p ∈ sendRtpNalus ts mtu head seq bufs, timestampOf p = ts ∧ p.length ≤ mtu + 30) ∧
      (sendRtpNalus ts mtu head seq bufs).map seqOf =
        (List.range (sendRtpNalus ts mtu head seq bufs).length).map
          fun i => seq + BitVec.ofNat 16 i := by
  induction bufs generalizing seq with
  | nil => exact ⟨by simp [sendRtpNalus], rfl⟩
  | cons buf bufs ih =>
    obtain ⟨hshared, hseqs⟩ := ih (seq + BitVec.ofNat 16
      (sendRtpNalu (.ofBytes buf) seq ts mtu head).length)
    rw [sendRtpNalus]
    constructor
    · intro p hp
      rcases List.mem_append.mp hp with hp | hp
      · exact packets_nalu hmtu p hp
      · exact hshared p hp
    · rw [List.map_append, map_seqOf_nalu, hseqs, List.length_append, List.range_add,
        List.map_append, List.map_map]
      refine congrArg₂ List.append rfl (List.map_congr_left fun i _ => ?_)
      rw [Function.comp, BitVec.ofNat_add, BitVec.add_assoc]

/-- The packets of NAL units fall into groups that convey them. -/
theorem conveys_nalus (ts : BitVec 32) {mtu : ℕ} (head : FrameHead) (hmtu : 0 < mtu)
    {ns : List Nal} (hns : ∀ n ∈ ns, 1 ≤ n.type ∧ n.type ≤ 23) (seq : BitVec 16) :
    ∃ groups : List (List (List Rtp.Byte)), (sendRtpNalus ts mtu head seq (ns.map Nal.bytes)).map payloadOf = groups.flatten ∧
      List.Forall₂ Conveys (ns.map Nal.bytes) groups := by
  induction ns generalizing seq with
  | nil => exact ⟨[], rfl, .nil⟩
  | cons n ns ih =>
    obtain ⟨groups, hgroups, hconveys⟩ := ih (fun m hm => hns m (List.mem_cons_of_mem _ hm))
      (seq + BitVec.ofNat 16 (sendRtpNalu (.ofBytes n.bytes) seq ts mtu head).length)
    refine ⟨_ :: groups, ?_, .cons (conveys_nalu (hns n (List.mem_cons_self ..)) hmtu seq ts head)
      hconveys⟩
    rw [List.map_cons, sendRtpNalus, List.map_append, hgroups, List.flatten_cons]

/-- The sender finds the NAL units of a frame. -/
theorem nalus_liveFrame (f : LiveFrame) :
    nalus f.bytes.length f.bytes = f.nals.map Nal.bytes := by
  cases f with
  | slice f =>
    have hbytes : (LiveFrame.slice f).bytes = f.bytes := by
      simp [LiveFrame.bytes, LiveFrame.nals, Slice.bytes]
    rw [hbytes]
    exact nalus_slice f
  | key sps pps idr hsps hpps hidr =>
    refine nalus_units hsps hpps hidr ?_
    simp [LiveFrame.bytes, LiveFrame.nals]

/-- They are of types that a payload of their own may have. -/
theorem LiveFrame.type_of_mem (f : LiveFrame) : ∀ n ∈ f.nals, 1 ≤ n.type ∧ n.type ≤ 23 := by
  intro n hn
  cases f with
  | slice f =>
    obtain rfl := List.mem_singleton.mp hn
    exact ⟨f.type.1, BitVec.le_trans f.type.2 (by decide)⟩
  | key sps pps idr hsps hpps hidr =>
    have hmem : n = sps ∨ n = pps ∨ n = idr := by simpa [LiveFrame.nals] using hn
    rcases hmem with rfl | rfl | rfl
    · rw [hsps]
      decide
    · rw [hpps]
      decide
    · rw [hidr]
      decide

/-- **The packets of a frame** decode to its NAL units. They fall into groups, one for each unit,
that are the unit itself or a train with the start bit on its first fragment and the end bit on its
last. They are numbered one after the other, from the number of the handle on, they have one
timestamp, and each fits `sendbuf`. -/
theorem rtpBuildVideoData_conformant (h : RtpBuildInfo) (f : LiveFrame) {rtpMtu : ℕ}
    (hmtu : 228 ≤ rtpMtu) (hbuf : rtpMtu + 16 ≤ sendbufLen) (nowtime : BitVec 32)
    (head : FrameHead) {h' : RtpBuildInfo} {pkts : List (List Rtp.Byte)}
    (hsent : rtpBuildVideoData h f.bytes rtpMtu nowtime head = (h', pkts)) :
    decode none (pkts.map payloadOf) = some (f.nals.map Nal.bytes) ∧
      (∃ groups : List (List (List Rtp.Byte)), pkts.map payloadOf = groups.flatten ∧
        List.Forall₂ Conveys (f.nals.map Nal.bytes) groups) ∧
      pkts.map seqOf = ((List.range pkts.length).map fun i => h.seqNum + BitVec.ofNat 16 i) ∧
      h'.seqNum = h.seqNum + BitVec.ofNat 16 pkts.length ∧
      (∃ ts, ∀ p ∈ pkts, timestampOf p = ts) ∧ ∀ p ∈ pkts, p.length ≤ sendbufLen := by
  have hpos : 0 < rtpMtu - 14 := by omega
  obtain ⟨ts, rfl, hseq⟩ : ∃ ts,
      sendRtpNalus ts (rtpMtu - 14) head h.seqNum (f.nals.map Nal.bytes) = pkts ∧
        h'.seqNum = h.seqNum + BitVec.ofNat 16 pkts.length := by
    rw [rtpBuildVideoData, if_neg (by omega), nalus_liveFrame] at hsent
    obtain ⟨rfl, rfl⟩ := Prod.ext_iff.mp hsent
    exact ⟨_, rfl, rfl⟩
  obtain ⟨hshared, hseqs⟩ := packets_nalus ts head hpos (f.nals.map Nal.bytes) h.seqNum
  obtain ⟨groups, hgroups, hconveys⟩ := conveys_nalus ts head hpos f.type_of_mem h.seqNum
  refine ⟨?_, ⟨groups, hgroups, hconveys⟩, hseqs, hseq, ⟨ts, fun p hp => (hshared p hp).1⟩, ?_⟩
  · rw [hgroups]
    exact decode_of_conveys hconveys
  · intro p hp
    have hlen := (hshared p hp).2
    omega

/-- A slice of three bytes at 1280, the `rtp_mtu` of the caller. -/
theorem rtpBuildVideoData_conformant_sample :
    let nal : Nal := ⟨0x41, [0x9a, 0x02], by decide, by decide⟩
    let sent := rtpBuildVideoData ⟨0, 0xffff⟩ (LiveFrame.slice ⟨nal, by decide⟩).bytes 1280 7
      ⟨0, 0, 25, 1280, 720, 0, 0, 7⟩
    decode none (sent.2.map payloadOf) = some [nal.bytes] ∧ sent.1.seqNum = 0 := by
  have h := rtpBuildVideoData_conformant ⟨0, 0xffff⟩
    (.slice ⟨⟨0x41, [0x9a, 0x02], by decide, by decide⟩, by decide⟩) (by decide : 228 ≤ 1280)
    (by decide) 7 ⟨0, 0, 25, 1280, 720, 0, 0, 7⟩ rfl
  exact ⟨h.1, h.2.2.2.1.trans (by decide)⟩

end Lives

end ReachEdukit
