import ReachEdukit.Rtp.Fragment
import ReachEdukit.Rtp.Send

/-!
# What the sender's packets are to the receiver

The two ends agree through the frame header and the FU headers only. This file reads each kind of
packet the sender emits with the receiver's own unpacking, and gets the fragment it carries: a NAL
unit alone, an FU-A fragment by its place, a part of a JPEG picture. A payload that is split into
packets is put together by the parts of these fragments.

## Main results

* `split_eq` — a split payload is a first part, middle ones and a last one
* `fragmentOf_single`, `fragmentOf_fu`, `fragmentOf_jpeg` — the fragments of the packets
-/

namespace ReachEdukit

namespace Rtp

open Memory Reassembly

/-! ### Splitting a payload -/

/-- `j` parts of `mtu` bytes behind the first one, read in order. -/
theorem take_append_parts (mtu : ℕ) (payload : List Byte) (j : ℕ) :
    payload.take mtu ++
        ((List.range j).map fun i => (payload.drop ((i + 1) * mtu)).take mtu).flatten =
      payload.take ((j + 1) * mtu) := by
  induction j with
  | zero => simp
  | succ j ih =>
    rw [List.range_succ, List.map_append, List.flatten_append, ← List.append_assoc, ih]
    simp only [List.map_singleton, List.flatten_singleton]
    rw [Nat.succ_mul (j + 1) mtu, List.take_add]

/-- The number of the last part and its length make up the length of the payload. -/
theorem last_part {mtu n : ℕ} (h0 : 0 < mtu) (h : mtu < n) :
    ∃ k l, (if n % mtu = 0 then mtu else n % mtu) = l ∧
      (if n % mtu = 0 then n / mtu - 1 else n / mtu) = k + 1 ∧ (k + 1) * mtu + l = n ∧
      0 < l ∧ l ≤ mtu := by
  have hdiv : mtu * (n / mtu) + n % mtu = n := Nat.div_add_mod n mtu
  have hq : 1 ≤ n / mtu := (Nat.one_le_div_iff h0).mpr h.le
  by_cases hr : n % mtu = 0
  · have hq2 : 2 ≤ n / mtu := by
      by_contra hlt
      have h1 : n / mtu = 1 := by omega
      rw [hr, h1] at hdiv
      omega
    refine ⟨n / mtu - 2, mtu, by rw [if_pos hr], by rw [if_pos hr]; omega, ?_, h0, le_rfl⟩
    rw [← Nat.succ_mul, show (n / mtu - 2 + 1).succ = n / mtu by omega, Nat.mul_comm]
    omega
  · refine ⟨n / mtu - 1, n % mtu, by rw [if_neg hr], by rw [if_neg hr]; omega, ?_,
      Nat.pos_of_ne_zero hr, (Nat.mod_lt n h0).le⟩
    rw [Nat.sub_add_cancel hq, Nat.mul_comm]
    exact hdiv

/-- **A split payload** is a first part, middle ones and a last one, which make it up. -/
theorem split_eq {mtu : ℕ} {payload : List Byte} (h0 : 0 < mtu) (h : mtu < payload.length) :
    ∃ (p₀ pₗ : List Byte) (mids : List Piece) (k : ℕ),
      split mtu payload = ⟨.first, 0, p₀⟩ :: (mids ++ [⟨.last, k, pₗ⟩]) ∧
      (∀ m ∈ mids, m.place = .middle) ∧
      p₀ ++ (mids.map Piece.part).flatten ++ pₗ = payload ∧
      ∀ p ∈ split mtu payload, p.part.length ≤ mtu := by
  obtain ⟨k, l, hl, hk, hlen, hl0, hlm⟩ := last_part h0 h
  let mids := (List.range k).map fun i : ℕ =>
    (⟨.middle, i + 1, (payload.drop ((i + 1) * mtu)).take mtu⟩ : Piece)
  have hsplit : split mtu payload = ⟨.first, 0, payload.take mtu⟩ ::
      (mids ++ [⟨.last, k + 1, (payload.drop ((k + 1) * mtu)).take l⟩]) := by
    rw [split]
    simp only [hl, hk]
    rw [List.range_succ_eq_map, List.map_cons, if_pos rfl, List.map_map, List.range_succ,
      List.map_append]
    simp only [mids, List.cons.injEq, true_and]
    congr 1
    · refine List.map_congr_left fun i hi => ?_
      have hik : i < k := List.mem_range.mp hi
      simp only [Function.comp]
      rw [if_neg (by omega), if_neg (by omega)]
    · simp
  refine ⟨_, _, mids, k + 1, hsplit, ?_, ?_, ?_⟩
  · intro m hm
    obtain ⟨i, -, rfl⟩ := List.mem_map.mp hm
    rfl
  · have hparts : mids.map Piece.part =
        (List.range k).map fun i => (payload.drop ((i + 1) * mtu)).take mtu := by
      simp [mids]
    have hlast : (payload.drop ((k + 1) * mtu)).take l = payload.drop ((k + 1) * mtu) :=
      List.take_of_length_le (by rw [List.length_drop]; omega)
    rw [hparts, take_append_parts, hlast, List.take_append_drop]
  · intro p hp
    rw [hsplit] at hp
    simp only [List.mem_cons, List.mem_append, List.not_mem_nil, or_false, mids, List.mem_map] at hp
    rcases hp with rfl | ⟨i, -, rfl⟩ | rfl
    · exact List.length_take_le ..
    · exact List.length_take_le ..
    · exact (List.length_take_le ..).trans hlm

theorem split_part_le {mtu : ℕ} {payload : List Byte} (h0 : 0 < mtu) (h : mtu < payload.length) :
    ∀ p ∈ split mtu payload, p.part.length ≤ mtu := by
  obtain ⟨-, -, -, -, -, -, -, hle⟩ := split_eq h0 h
  exact hle

/-! ### The fragment of a packet -/

/-- What is left of a payload once `in_data` has its first bytes. -/
theorem memcpy_packet (rtp : RtpHead) (head : FrameHead) (pre part start : List Byte)
    (h : start.length + part.length ≤ bodyRoom) (hp : 28 + pre.length + part.length ≤ maxUdpLen) :
    ∃ body, memcpy (blit emptyBody 0 start) bodyRoom start.length
        (recvBuf (packet rtp head (pre ++ part))) maxUdpLen (28 + pre.length) part.length =
          some body ∧
      window body 0 (start.length + part.length) = start ++ part := by
  refine ⟨_, memcpy_natCast h hp, ?_⟩
  rw [window_packet]
  exact window_blit_append (window_blit_self emptyBody 0 start)

theorem isVideo_packet {rtp : RtpHead} {head : FrameHead} {payload : List Byte}
    (hcodec : head.codec = 0 ∨ head.codec = 2) (hlen : payload.length ≤ 1472) :
    IsVideo (packet rtp head payload) where
  headed := by
    rw [length_packet]
    omega
  fits := by
    rw [length_packet, maxUdpLen]
    omega
  codec := by
    rw [codecOf, frameHeadAt_packet, setDataCodec]
    rcases hcodec with h | h <;> rw [h] <;> decide

/-- The flag of a segment number. -/
theorem fragmentOf_of_unpack {dg : List Byte} {fh : FreameHead} {body : Buffer} {len : ℕ}
    {t : BitVec 32} {flag : Flag} {part : List Byte} (h : unpack 0 (recvBuf dg) dg.length =
      some (fh, body, len, t)) (hseg : fh.mDwSegment = segment flag)
    (hpart : window body 0 len = part)
    (hw : flag = .whole → fh.mFrameLength.toNat = len ∧ len ≤ bodyRoom) :
    fragmentOf dg = some ⟨flag, part, fh.mFrameLength.toNat⟩ := by
  rw [fragmentOf, h]
  cases flag with
  | middle => simp [hseg, segment, hpart]
  | last => simp [hseg, segment, hpart]
  | start => simp [hseg, segment, hpart]
  | whole =>
    obtain ⟨htotal, hroom⟩ := hw rfl
    simp [hseg, segment, htotal, hroom, hpart]

/-- The H.264 unpacking of a packet, from what `get_video_frame_data` makes of it. -/
theorem unpack_h264 {rtp : RtpHead} {head : FrameHead} {payload : List Byte} {flag : ℤ}
    {body : Buffer} {len : ℕ} (hcodec : head.codec = 0)
    (h : getVideoFrameData (recvBuf (packet rtp head payload)) (packet rtp head payload).length =
      some (flag, body, len)) :
    unpack 0 (recvBuf (packet rtp head payload)) (packet rtp head payload).length =
      some (h264Head head rtp flag, body, len, (h264Head head rtp flag).mTimeTick) := by
  have hset : setDataCodec head = .h264 := by rw [setDataCodec, if_pos hcodec]
  simp only [unpack, frameHeadAt_packet, rtpHeadAt_packet, hset, h]
  rfl

/-- The number of a flag that came out of a packet with a whole NAL unit. -/
def singleSegment (head : FrameHead) (nalHeader : Byte) : Flag :=
  if head.iframe = 1 then
    if nalHeader = 0x67 ∨ nalHeader = 0x47 ∨ nalHeader = 0x27 then .start
    else if nalHeader = 0x68 ∨ nalHeader = 0x48 ∨ nalHeader = 0x28 then .middle
    else if nalHeader = 0x65 ∨ nalHeader = 0x45 ∨ nalHeader = 0x25 then .last
    else .middle
  else .whole

theorem segment_singleSegment (head : FrameHead) (nalHeader : Byte) :
    (if singleFlag head.iframe nalHeader = -1 then 0 else singleFlag head.iframe nalHeader).toNat =
      segment (singleSegment head nalHeader) := by
  simp only [singleFlag, singleSegment]
  split_ifs <;> simp_all [segment]

/-- **A packet with a whole NAL unit** carries its start code and its bytes. -/
theorem fragmentOf_single {rtp : RtpHead} {head : FrameHead} {b : Byte} {nal : List Byte}
    (hcodec : head.codec = 0) (htype : b.extractLsb' 0 5 ≠ 28) (hlen : nal.length ≤ 1366)
    (hw : head.iframe ≠ 1 → head.framelength.toNat = 5 + nal.length) :
    fragmentOf (packet rtp head (b :: nal)) =
      some ⟨singleSegment head b, startCode ++ b :: nal, head.framelength.toNat⟩ := by
  have hroom : bodyRoom = 1444 := rfl
  obtain ⟨body, hcopy, hbody⟩ := memcpy_packet rtp head [] (b :: nal) startCode
    (by simp [startCode, hroom]; omega) (by simp [maxUdpLen]; omega)
  have hfirst : body 4 = b := by
    have h := congrArg (fun l => l[4]?) hbody
    simpa [window, startCode] using h
  have hlen' : (4 : ℕ) + ((packet rtp head (b :: nal)).length - 28) =
      startCode.length + (b :: nal).length := by
    simp [startCode]
  have hdata : getVideoFrameData (recvBuf (packet rtp head (b :: nal)))
      (packet rtp head (b :: nal)).length =
        some (singleFlag head.iframe b, body, startCode.length + (b :: nal).length) := by
    have hind : (fuIndicatorAt (recvBuf (packet rtp head (b :: nal)))).type ≠ 28 := by
      have h := recvBuf_packet rtp head (b :: nal) 0
      simp only [fuIndicatorAt]
      rw [h]
      exact htype
    have hsize : ((packet rtp head (b :: nal)).length : ℤ) - 28 = ((b :: nal).length : ℕ) := by
      rw [length_packet]
      omega
    have hcopy' : memcpy (blit emptyBody 0 startCode) bodyRoom 4
        (recvBuf (packet rtp head (b :: nal))) maxUdpLen 28
        (((packet rtp head (b :: nal)).length : ℤ) - 28) = some body := by
      rw [hsize]
      exact hcopy
    rw [getVideoFrameData]
    simp only [if_neg hind, hcopy', frameHeadAt_packet, hlen']
    rw [← hfirst]
    rfl
  refine fragmentOf_of_unpack (unpack_h264 hcodec hdata) (segment_singleSegment head b) hbody ?_
  intro hflag
  have hiframe : head.iframe ≠ 1 := by
    intro h
    rw [singleSegment, if_pos h] at hflag
    split_ifs at hflag
  refine ⟨(hw hiframe).trans ?_, ?_⟩
  · simp [startCode]
    omega
  · simp [startCode, hroom]
    omega

/-- The flag that comes out of an FU-A fragment. -/
def fuFlag (head : FrameHead) : Place → Flag
  | .first => if head.iframe = 1 then .middle else .start
  | .middle => .middle
  | .last => .last

/-- The part that comes out of an FU-A fragment: the first one gets the start code and the NAL
header back. -/
def fuPart (nalHeader : Byte) (place : Place) (part : List Byte) : List Byte :=
  if place = .first then startCode ++ nalHeader :: part else part

/-- The NAL header is put together again from the indicator and the FU header. -/
theorem nalHeader_eq {b : Byte} (hb : b &&& 0x80 = 0) (nal : List Byte) (place : Place) :
    (Nalu.ofBytes (b :: nal)).fuInd.f ++ (Nalu.ofBytes (b :: nal)).fuInd.nri ++
      ((Nalu.ofBytes (b :: nal)).fuHdr place).type = b := by
  have h7 : b[7] = false := by
    have h := congrArg (fun x : Byte => x.getLsbD 7) hb
    simpa using h
  refine BitVec.eq_of_getLsbD_eq fun i hi => ?_
  simp only [Nalu.ofBytes, Nalu.fuInd, Nalu.fuHdr, List.headD_cons, BitVec.getLsbD_append,
    BitVec.getLsbD_setWidth, BitVec.getLsbD_and, BitVec.getLsbD_ushiftRight]
  interval_cases i <;> simp [h7]

theorem fuIndicatorAt_packet (rtp : RtpHead) (head : FrameHead) (ind : FuIndicator) (hdr : FuHeader)
    (part : List Byte) :
    fuIndicatorAt (recvBuf (packet rtp head ([ind.byte, hdr.byte] ++ part))) = ind := by
  have hbyte : recvBuf (packet rtp head ([ind.byte, hdr.byte] ++ part)) 28 = ind.byte := by
    simpa using recvBuf_packet rtp head ([ind.byte, hdr.byte] ++ part) 0
  obtain ⟨hf, hnri, htype⟩ := ind.read_byte
  rw [fuIndicatorAt, hbyte, hf, hnri, htype]

theorem fuHeaderAt_packet (rtp : RtpHead) (head : FrameHead) (ind : FuIndicator) (hdr : FuHeader)
    (part : List Byte) :
    fuHeaderAt (recvBuf (packet rtp head ([ind.byte, hdr.byte] ++ part))) = hdr := by
  have hbyte : recvBuf (packet rtp head ([ind.byte, hdr.byte] ++ part)) 29 = hdr.byte := by
    simpa using recvBuf_packet rtp head ([ind.byte, hdr.byte] ++ part) 1
  obtain ⟨hs, he, hr, htype⟩ := hdr.read_byte
  rw [fuHeaderAt, hbyte, hs, he, hr, htype]

/-- What is measured of a packet with the two bytes of an FU-A fragment. -/
theorem length_fuPacket (rtp : RtpHead) (head : FrameHead) (ind : FuIndicator) (hdr : FuHeader)
    (part : List Byte) :
    (((packet rtp head ([ind.byte, hdr.byte] ++ part)).length : ℤ) - 30 = (part.length : ℕ)) ∧
      (packet rtp head ([ind.byte, hdr.byte] ++ part)).length - 30 = part.length := by
  have hsize : ((packet rtp head ([ind.byte, hdr.byte] ++ part)).length : ℤ) - 30 =
      (part.length : ℕ) := by
    rw [length_packet, List.length_append]
    simp only [List.length_cons, List.length_nil]
    omega
  exact ⟨hsize, by omega⟩

/-- The first fragment: the start code and the header of the NAL come in front. -/
theorem fragmentOf_fu_first {rtp : RtpHead} {head : FrameHead} {b : Byte} {nal part : List Byte}
    (hcodec : head.codec = 0) (hb : b &&& 0x80 = 0) (hlen : part.length ≤ 1366) :
    fragmentOf (packet rtp head ([(Nalu.ofBytes (b :: nal)).fuInd.byte,
        ((Nalu.ofBytes (b :: nal)).fuHdr .first).byte] ++ part)) =
      some ⟨fuFlag head .first, fuPart b .first part, head.framelength.toNat⟩ := by
  generalize hind : (Nalu.ofBytes (b :: nal)).fuInd = ind
  generalize hhdr : (Nalu.ofBytes (b :: nal)).fuHdr .first = hdr
  have htype : ind.type = 28 := by rw [← hind]; rfl
  have hnal : ind.f ++ ind.nri ++ hdr.type = b := by
    rw [← hind, ← hhdr]
    exact nalHeader_eq hb nal .first
  have hroom : bodyRoom = 1444 := rfl
  obtain ⟨hsize, hlen'⟩ := length_fuPacket rtp head ind hdr part
  have hs : hdr.s = 1 := by rw [← hhdr]; rfl
  obtain ⟨body, hcopy, hbody⟩ := memcpy_packet rtp head [ind.byte, hdr.byte] part
    (startCode ++ [b]) (by simp [startCode, hroom]; omega) (by simp [maxUdpLen]; omega)
  have hdata : getVideoFrameData (recvBuf (packet rtp head ([ind.byte, hdr.byte] ++ part)))
      (packet rtp head ([ind.byte, hdr.byte] ++ part)).length =
        some (if head.iframe = 1 then 0 else 2, body, 5 + part.length) := by
    have hcopy' : memcpy (blit emptyBody 0 (startCode ++ [b])) bodyRoom 5
        (recvBuf (packet rtp head ([ind.byte, hdr.byte] ++ part))) maxUdpLen 30 part.length =
          some body := hcopy
    rw [getVideoFrameData]
    simp only [fuIndicatorAt_packet, fuHeaderAt_packet, frameHeadAt_packet, htype, hs, hnal,
      if_true, hsize, hcopy', hlen']
    rfl
  refine fragmentOf_of_unpack (unpack_h264 hcodec hdata) ?_ ?_ ?_
  · rw [h264Head, fuFlag]
    by_cases hi : head.iframe = 1
    · rw [if_pos hi, if_pos hi]
      rfl
    · rw [if_neg hi, if_neg hi]
      rfl
  · have hb5 : window body 0 (5 + part.length) = startCode ++ [b] ++ part := hbody
    rw [hb5, fuPart, if_pos rfl]
    simp
  · rw [fuFlag]
    split_ifs <;> simp

/-- The other fragments are their part. -/
theorem fragmentOf_fu_later {rtp : RtpHead} {head : FrameHead} {b : Byte} {nal part : List Byte}
    {place : Place} (hplace : place ≠ .first) (hcodec : head.codec = 0) (hlen : part.length ≤ 1366) :
    fragmentOf (packet rtp head ([(Nalu.ofBytes (b :: nal)).fuInd.byte,
        ((Nalu.ofBytes (b :: nal)).fuHdr place).byte] ++ part)) =
      some ⟨fuFlag head place, fuPart b place part, head.framelength.toNat⟩ := by
  generalize hind : (Nalu.ofBytes (b :: nal)).fuInd = ind
  generalize hhdr : (Nalu.ofBytes (b :: nal)).fuHdr place = hdr
  have htype : ind.type = 28 := by rw [← hind]; rfl
  have hroom : bodyRoom = 1444 := rfl
  obtain ⟨hsize, hlen'⟩ := length_fuPacket rtp head ind hdr part
  have hs : hdr.s ≠ 1 := by
    rw [← hhdr]
    simp [Nalu.fuHdr, hplace]
  obtain ⟨body, hcopy, hbody⟩ := memcpy_packet rtp head [ind.byte, hdr.byte] part
    [] (by simp [hroom]; omega) (by simp [maxUdpLen]; omega)
  have hdata : getVideoFrameData (recvBuf (packet rtp head ([ind.byte, hdr.byte] ++ part)))
      (packet rtp head ([ind.byte, hdr.byte] ++ part)).length =
        some (if hdr.e = 1 then 1 else 0, body, part.length) := by
    have hcopy' : memcpy emptyBody bodyRoom 0
        (recvBuf (packet rtp head ([ind.byte, hdr.byte] ++ part))) maxUdpLen 30 part.length =
          some body := by
      rw [← blit_nil emptyBody 0]
      exact hcopy
    rw [getVideoFrameData]
    simp only [fuIndicatorAt_packet, fuHeaderAt_packet, htype, if_neg hs, if_true, hsize,
      hcopy', hlen']
    rfl
  have hpart : window body 0 part.length = fuPart b place part := by
    rw [fuPart, if_neg hplace]
    simpa using hbody
  refine fragmentOf_of_unpack (unpack_h264 hcodec hdata) ?_ hpart ?_
  · rw [h264Head, ← hhdr, Nalu.fuHdr]
    cases place with
    | first => exact absurd rfl hplace
    | middle => simp [fuFlag, segment]
    | last => simp [fuFlag, segment]
  · cases place with
    | first => exact absurd rfl hplace
    | middle => simp [fuFlag]
    | last => simp [fuFlag]

/-- **An FU-A fragment** carries its part. -/
theorem fragmentOf_fu {rtp : RtpHead} {head : FrameHead} {b : Byte} {nal part : List Byte}
    (place : Place) (hcodec : head.codec = 0) (hb : b &&& 0x80 = 0) (hlen : part.length ≤ 1366) :
    fragmentOf (packet rtp head ([(Nalu.ofBytes (b :: nal)).fuInd.byte,
        ((Nalu.ofBytes (b :: nal)).fuHdr place).byte] ++ part)) =
      some ⟨fuFlag head place, fuPart b place part, head.framelength.toNat⟩ := by
  by_cases hplace : place = .first
  · subst hplace
    exact fragmentOf_fu_first hcodec hb hlen
  · exact fragmentOf_fu_later hplace hcodec hlen

/-- **A part of a JPEG picture** carries its bytes. -/
theorem fragmentOf_jpeg {rtp : RtpHead} {head : FrameHead} {part : List Byte} {flag : Flag}
    (hcodec : head.codec = 2) (hseg : head.samplerate.toNat = segment flag)
    (hlen : part.length ≤ bodyRoom) (hw : flag = .whole → head.framelength.toNat = part.length) :
    fragmentOf (packet rtp head part) = some ⟨flag, part, head.framelength.toNat⟩ := by
  have hroom : bodyRoom = 1444 := rfl
  obtain ⟨body, hcopy, hbody⟩ := memcpy_packet rtp head [] part [] (by simpa using hlen)
    (by simp [maxUdpLen]; omega)
  have hset : setDataCodec head = .jpeg := by
    rw [setDataCodec, hcodec]
    rfl
  have hdata : getJpegFrameData (recvBuf (packet rtp head part)) (packet rtp head part).length =
      some (body, part.length) := by
    have hsize : ((packet rtp head part).length : ℤ) - 28 = (part.length : ℕ) := by
      rw [length_packet]
      omega
    have hlen' : (packet rtp head part).length - 28 = part.length := by
      rw [length_packet]
      omega
    have hcopy' : memcpy emptyBody bodyRoom 0 (recvBuf (packet rtp head part)) maxUdpLen 28
        part.length = some body := by
      rw [← blit_nil emptyBody 0]
      exact hcopy
    rw [getJpegFrameData, hsize, hlen', hcopy']
    rfl
  have hun : unpack 0 (recvBuf (packet rtp head part)) (packet rtp head part).length =
      some (getJpegFrameDataHead { mDataCodec := .jpeg } head rtp, body, part.length, 0) := by
    simp only [unpack, frameHeadAt_packet, rtpHeadAt_packet, hset, hdata]
    rfl
  exact fragmentOf_of_unpack hun hseg (by simpa using hbody) fun h => ⟨hw h, hlen⟩

/-- The flag of a part of a JPEG picture. -/
def jpegFlag : Place → Flag
  | .first => .start
  | .middle => .middle
  | .last => .last

/-! ### The size of a packet -/

theorem isVideo_nalu {nalu : Nalu} {seq : BitVec 16} {ts : BitVec 32} {mtu : ℕ} {head : FrameHead}
    (hcodec : head.codec = 0) (h0 : 0 < mtu) (hmtu : mtu ≤ 1470) :
    ∀ p ∈ udpSendRtpNalu nalu seq ts mtu head, IsVideo p := by
  intro p hp
  rw [udpSendRtpNalu] at hp
  split at hp
  · obtain rfl := List.mem_singleton.mp hp
    exact isVideo_packet (.inl hcodec) (by omega)
  · obtain ⟨q, hq, rfl⟩ := List.mem_map.mp hp
    have hpart : q.part.length ≤ mtu := split_part_le h0 (by rw [List.length_drop]; omega) q hq
    refine isVideo_packet (.inl hcodec) ?_
    rw [List.length_append]
    simp only [List.length_cons, List.length_nil]
    omega

/-- What `UdpSend_rtp_build_video_data` sends is video. -/
theorem isVideo_buildVideoData {h : BuildInfo} {pData : List Byte} {now : BitVec 32}
    {head : FrameHead} (hcodec : head.codec = 0) :
    ∀ p ∈ (buildVideoData h pData 1380 now head).2, IsVideo p := by
  have hunits : ∀ (ts : BitVec 32) (bufs : List (List Byte)) (seq : BitVec 16),
      ∀ p ∈ sendNalus ts 1366 head seq bufs, IsVideo p := by
    intro ts bufs
    induction bufs with
    | nil => simp [sendNalus]
    | cons buf bufs ih =>
      intro seq p hp
      rcases List.mem_append.mp hp with hp | hp
      · exact isVideo_nalu hcodec (by omega) (by omega) p hp
      · exact ih _ p hp
  rw [buildVideoData, if_neg (by omega)]
  exact hunits _ _ _

/-- So is what `UdpSend_rtp_build_jpeg_data` sends. -/
theorem isVideo_buildJpegData {h : BuildInfo} {pData : List Byte} {ts : BitVec 32}
    {head : FrameHead} (hcodec : head.codec = 2) :
    ∀ p ∈ (buildJpegData h pData 1380 ts head).2, IsVideo p := by
  intro p hp
  simp only [buildJpegData] at hp
  split at hp
  · obtain rfl := List.mem_singleton.mp hp
    exact isVideo_packet (.inr hcodec) (by omega)
  · obtain ⟨q, hq, rfl⟩ := List.mem_map.mp hp
    have hpart : q.part.length ≤ 1380 - 28 := split_part_le (by omega) (by omega) q hq
    exact isVideo_packet (.inr hcodec) (by omega)

end Rtp

end ReachEdukit
