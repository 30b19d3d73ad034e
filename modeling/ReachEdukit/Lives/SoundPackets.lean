import ReachEdukit.Lives.Datagram

/-!
# The packets of live sound

`rtp_build_audio_data` sends the payload of an ADTS frame behind an access-unit header, in parts if it
is long. A receiver of access units puts the parts together up to the marker bit and checks the length.

What the builder makes of a frame depends on its payload. It looks for sync patterns in the whole buffer,
writes their places into an array of five, and sends nothing unless one is left. One is left if the
length in the header is that of the buffer; but the two high bits of that length are moved by nine places
and not by eleven, so a frame of 2048 bytes or more never passes this check.

## Main definitions

* `accessUnits` — the receiver
* `Packetised` — the receiver gets the payload, and nothing on the way leaves its array
* `Packetisable` — the frames for which the builder does that

## Main results

* `accessUnits_audioPackets` — the parts of a payload come out as the payload
* `packetised_iff` — which frames come out
-/

namespace ReachEdukit

namespace Lives

open Rtp Memory

/-! ### A receiver -/

/-- The length of the access-unit headers, in bits. -/
def auHeadersLength (payload : List Rtp.Byte) : BitVec 16 := be16At (recvBuf payload) 0

/-- The size of the access unit: the 13 bits above its index. -/
def auSize (payload : List Rtp.Byte) : ℕ := (be16At (recvBuf payload) 2).toNat / 8

/-- The marker bit. -/
def markerOf (dg : List Rtp.Byte) : BitVec 1 := (rtpHeadAt (recvBuf dg)).marker

/-- The access units of the packets, of which `acc` has come already: there is one header in each
packet, and a unit ends with the marker. There is none if a unit has another size than the header says,
or is not complete. -/
def accessUnits (acc : List Rtp.Byte) : List (List Rtp.Byte) → Option (List (List Rtp.Byte))
  | [] => if acc = [] then some [] else none
  | dg :: dgs =>
    let unit := acc ++ (payloadOf dg).drop 4
    if auHeadersLength (payloadOf dg) ≠ 16 then none
    else if markerOf dg = 1 then
      if unit.length = auSize (payloadOf dg) then (accessUnits [] dgs).map (unit :: ·) else none
    else accessUnits unit dgs

/-- The builder does not leave its arrays, its packets fit `sendbuf`, and a receiver gets the payload
of the frame from them. -/
def Packetised (f : AdtsFrame) (h : AudioBuildInfo) (samplerate rtpMtu : ℕ) (nowtime : BitVec 32)
    (head : FrameHead) : Prop :=
  ∃ h' pkts, rtpBuildAudioData h f.bytes samplerate rtpMtu nowtime head = some (h', pkts) ∧
    accessUnits [] pkts = some [f.payload] ∧ ∀ pkt ∈ pkts, pkt.length ≤ sendbufLen

/-! ### A packet -/

variable {n : ℕ} {last : Bool} {seq : BitVec 16} {ts ssrc : BitVec 32} {head : FrameHead}
  {part : List Rtp.Byte}

theorem payloadOf_audio (last : Bool) (seq : BitVec 16) (ts ssrc : BitVec 32) (head : FrameHead)
    (payload : List Rtp.Byte) :
    payloadOf (packet (audioRtpHead last seq ts ssrc) head payload) = payload :=
  payloadOf_packet_of rfl rfl rfl head payload

theorem markerOf_audio (last : Bool) (seq : BitVec 16) (ts ssrc : BitVec 32) (head : FrameHead)
    (payload : List Rtp.Byte) :
    markerOf (packet (audioRtpHead last seq ts ssrc) head payload) = 1 ↔ last = true := by
  rw [markerOf, rtpHeadAt_packet]
  cases last
  · refine iff_of_false ?_ Bool.false_ne_true
    change (0 : BitVec 1) ≠ 1
    decide
  · exact iff_of_true rfl rfl

theorem auHeadersLength_auHeader (n : ℕ) (part : List Rtp.Byte) :
    auHeadersLength (auHeader n ++ part) = 16 := by
  change (0 : Rtp.Byte) ++ (0x10 : Rtp.Byte) = (16 : BitVec 16)
  decide

/-- The size of an access unit has 13 bits. -/
theorem auSize_auHeader (hn : n < 8192) (part : List Rtp.Byte) : auSize (auHeader n ++ part) = n := by
  have hword : be16At (recvBuf (auHeader n ++ part)) 2 =
      BitVec.ofNat 8 (n / 32) ++ BitVec.ofNat 8 (n % 32 * 8) := rfl
  rw [auSize, hword, BitVec.toNat_append, BitVec.toNat_ofNat, BitVec.toNat_ofNat,
    ← Nat.shiftLeft_add_eq_or_of_lt (Nat.mod_lt _ (by decide)), Nat.shiftLeft_eq]
  omega

/-! ### The parts -/

/-- The parts are the payload. -/
theorem flatten_audioParts {mtu fuel : ℕ} (hmtu : 0 < mtu) {rest : List Rtp.Byte}
    (hfuel : rest.length ≤ fuel) : (audioParts mtu fuel rest).flatten = rest := by
  induction fuel generalizing rest with
  | zero =>
    rw [List.length_eq_zero_iff.mp (Nat.le_zero.mp hfuel)]
    rfl
  | succ fuel ih =>
    rw [audioParts]
    split_ifs with hnil
    · rw [hnil]
      rfl
    · rw [List.flatten_cons, ih ?_, List.take_append_drop]
      have hpos := List.length_pos_iff.mpr hnil
      rw [List.length_drop]
      omega

theorem audioParts_ne_nil {mtu : ℕ} {rest : List Rtp.Byte} (hrest : rest ≠ []) :
    audioParts mtu rest.length rest ≠ [] := by
  obtain ⟨fuel, hfuel⟩ := Nat.exists_eq_add_one.mpr (List.length_pos_iff.mpr hrest)
  rw [hfuel, audioParts, if_neg hrest]
  exact List.cons_ne_nil _ _

/-- The rest of the parts completes what has come. -/
theorem accessUnits_parts (hn : n < 8192) (seqNum ts ssrc : BitVec 32) (head : FrameHead) (total : ℕ) :
    ∀ (parts : List (List Rtp.Byte)) (t : ℕ) (acc : List Rtp.Byte), parts ≠ [] →
      t + parts.length = total → (acc ++ parts.flatten).length = n →
      accessUnits acc ((parts.zipIdx t).map fun (part, t) =>
        packet (audioRtpHead (t + 1 == total) ((seqNum + BitVec.ofNat 32 t).setWidth 16) ts ssrc)
          head (auHeader n ++ part)) = some [acc ++ parts.flatten] := by
  intro parts
  induction parts with
  | nil => exact fun t acc hne => absurd rfl hne
  | cons part parts ih =>
    intro t acc _ htotal hlen
    have hpart : (auHeader n ++ part).drop 4 = part := rfl
    rw [List.zipIdx_cons, List.map_cons, accessUnits]
    simp only [payloadOf_audio, markerOf_audio, auHeadersLength_auHeader, auSize_auHeader hn, hpart,
      ne_eq, not_true_eq_false, if_false, beq_iff_eq]
    by_cases hlast : parts = []
    · -- The last part: the marker is set, and the unit is complete.
      subst hlast
      rw [List.length_singleton] at htotal
      rw [List.flatten_singleton] at hlen ⊢
      rw [if_pos htotal, if_pos hlen]
      rfl
    · have hmore := List.length_pos_iff.mpr hlast
      rw [List.length_cons] at htotal
      rw [List.flatten_cons, ← List.append_assoc] at hlen ⊢
      rw [if_neg (by omega)]
      exact ih (t + 1) (acc ++ part) hlast (by omega) hlen

/-- **The parts of a payload** come out as the payload. -/
theorem accessUnits_audioPackets {mtu : ℕ} (hmtu : 0 < mtu) {payload : List Rtp.Byte}
    (hne : payload ≠ []) (hlen : payload.length < 8192) (h : AudioBuildInfo) (ts : BitVec 32)
    (head : FrameHead) :
    accessUnits [] (audioPackets h ts head payload.length (audioParts mtu payload.length payload)) =
      some [payload] := by
  have hflat : ([] ++ (audioParts mtu payload.length payload).flatten : List Rtp.Byte) = payload := by
    rw [List.nil_append, flatten_audioParts hmtu le_rfl]
  have hunits := accessUnits_parts hlen h.audioSeqNum ts h.ssrc head
    (audioParts mtu payload.length payload).length (audioParts mtu payload.length payload) 0 []
    (audioParts_ne_nil hne) (Nat.zero_add _) (congrArg List.length hflat)
  rw [hflat] at hunits
  exact hunits

theorem length_audioPackets {mtu : ℕ} {h : AudioBuildInfo} {payload : List Rtp.Byte} :
    ∀ pkt ∈ audioPackets h ts head n (audioParts mtu payload.length payload),
      pkt.length ≤ mtu + 32 := by
  intro pkt hpkt
  rw [audioPackets, List.mem_map] at hpkt
  obtain ⟨⟨part, t⟩, hmem, rfl⟩ := hpkt
  have hpart : part.length ≤ mtu := length_of_mem_audioParts (List.fst_mem_of_mem_zipIdx hmem)
  rw [length_packet, List.length_append, length_auHeader]
  omega

/-! ### The patterns -/

/-- The places of the sync patterns that do not begin in the last four bytes. -/
def patterns (pData : List Rtp.Byte) : Finset ℕ :=
  {i ∈ Finset.range (pData.length - 4) | syncAt pData i}

/-- The frame has at most five sync patterns, that of its header among them. It is shorter than 2048
bytes, or it has no other. -/
structure Packetisable (f : AdtsFrame) : Prop where
  /-- The patterns fit the array. -/
  few : (patterns f.bytes).card ≤ 5
  /-- One of them is left. -/
  single : f.bytes.length < 2048 ∨ (patterns f.bytes).card = 1

theorem length_syncOffsets (pData : List Rtp.Byte) :
    (syncOffsets pData).length = (patterns pData).card := by
  have hset : patterns pData = (syncOffsets pData).toFinset := by
    ext i
    rw [patterns, syncOffsets, Finset.mem_filter, List.mem_toFinset, List.mem_filter,
      Finset.mem_range, List.mem_range]
  have hnodup : (syncOffsets pData).Nodup := List.nodup_range.filter _
  rw [hset, List.toFinset_card_of_nodup hnodup]

/-- The length that the builder reads has eleven bits. -/
theorem senderFramelen_lt (pData : List Rtp.Byte) : (senderFramelen pData).toNat < 2048 := by
  have hhigh : ∀ b : Rtp.Byte, ((b &&& 0x03).setWidth 32 <<< 9).toNat < 2 ^ 11 := by decide +kernel
  have hmid : ∀ b : Rtp.Byte, (b.setWidth 32 <<< 3).toNat < 2 ^ 11 := by decide +kernel
  have hlow : ∀ b : Rtp.Byte, ((b &&& 0xe0).setWidth 32 >>> 5).toNat < 2 ^ 11 := by decide +kernel
  rw [senderFramelen, BitVec.toNat_or, BitVec.toNat_or]
  exact Nat.or_lt_two_pow (Nat.or_lt_two_pow (hhigh _) (hmid _)) (hlow _)

/-- One pattern is left if the frame is short, or if it has no other. -/
theorem single_iff (f : AdtsFrame) :
    f.Single ↔ f.bytes.length < 2048 ∨ (patterns f.bytes).card = 1 := by
  rw [AdtsFrame.Single, length_syncOffsets]
  refine or_congr ⟨fun h => ?_, fun h => ?_⟩ Iff.rfl
  · rw [← h]
    exact senderFramelen_lt f.bytes
  · rw [f.length_bytes] at h
    exact f.senderFramelen_eq h

theorem soundPayload_bytes (f : AdtsFrame) : soundPayload f.bytes = f.payload := by
  obtain ⟨offset, hoffset⟩ := f.syncOffsets_eq
  rw [soundPayload, hoffset, audioPayload]
  simp [AdtsFrame.bytes]

theorem soundCount_eq_one_iff (f : AdtsFrame) : soundCount f.bytes = 1 ↔ f.Single := by
  obtain ⟨offset, hoffset⟩ := f.syncOffsets_eq
  have hpos : 1 ≤ (syncOffsets f.bytes).length := by
    rw [hoffset, List.length_cons]
    omega
  rw [soundCount, AdtsFrame.Single]
  split_ifs with hlen
  · exact iff_of_true rfl (Or.inl hlen.1)
  · refine ⟨Or.inr, fun h => h.resolve_left fun hlen' => hlen ⟨hlen', hpos⟩⟩

/-- The builder leaves its arrays if there are more than five patterns, or if five are left. -/
theorem rtpBuildAudioData_eq_none_iff {h : AudioBuildInfo} {pData : List Rtp.Byte}
    {samplerate rtpMtu : ℕ} {nowtime : BitVec 32} :
    rtpBuildAudioData h pData samplerate rtpMtu nowtime head = none ↔
      5 < (patterns pData).card ∨ soundCount pData = 5 := by
  rw [rtpBuildAudioData, buildAudioData, ← length_syncOffsets]
  change (if 5 < (syncOffsets pData).length ∨ soundCount pData = 5 then none else some (_, _)) =
    none ↔ _
  by_cases hfull : 5 < (syncOffsets pData).length ∨ soundCount pData = 5
  · rw [if_pos hfull]
    exact iff_of_true rfl hfull
  · rw [if_neg hfull]
    exact iff_of_false (Option.some_ne_none _) hfull

/-- **The frames that are packetised** are those with at most five sync patterns that are shorter than
2048 bytes or have no pattern but that of their header. -/
theorem packetised_iff (f : AdtsFrame) (hne : f.payload ≠ []) (h : AudioBuildInfo) (samplerate : ℕ)
    {rtpMtu : ℕ} (hmtu : 14 < rtpMtu) (hbuf : rtpMtu + 18 ≤ sendbufLen) (nowtime : BitVec 32)
    (head : FrameHead) :
    Packetised f h samplerate rtpMtu nowtime head ↔ Packetisable f := by
  have hpos : 0 < rtpMtu - 14 := by omega
  have hlen : f.payload.length < 8192 := by
    have hlength := f.length
    have hhigh : (f.fourth &&& 3).toNat < 4 := by
      have hall : ∀ b : Rtp.Byte, (b &&& 3).toNat < 4 := by decide +kernel
      exact hall f.fourth
    have hmid := f.fifth.isLt
    have hlow := f.sixth.isLt
    omega
  constructor
  · rintro ⟨h', pkts, hsent, hunits, -⟩
    have hfit : ¬ (5 < (patterns f.bytes).card ∨ soundCount f.bytes = 5) := by
      intro hfull
      rw [rtpBuildAudioData_eq_none_iff.mpr hfull] at hsent
      exact absurd hsent.symm (Option.some_ne_none _)
    obtain ⟨head', rfl⟩ := rtpBuildAudioData_sent hsent
    refine ⟨Nat.le_of_not_lt fun h => hfit (Or.inl h), (single_iff f).mp ?_⟩
    rw [← soundCount_eq_one_iff]
    by_contra hmore
    rw [if_neg hmore] at hunits
    exact absurd (Option.some.inj hunits) (List.cons_ne_nil _ _).symm
  · rintro ⟨hfew, hsingle⟩
    have hone : soundCount f.bytes = 1 := (soundCount_eq_one_iff f).mpr ((single_iff f).mpr hsingle)
    obtain ⟨⟨h', pkts⟩, hsent⟩ : ∃ r,
        rtpBuildAudioData h f.bytes samplerate rtpMtu nowtime head = some r := by
      rw [← Option.ne_none_iff_exists', ne_eq, rtpBuildAudioData_eq_none_iff, hone]
      omega
    refine ⟨h', pkts, hsent, ?_⟩
    obtain ⟨head', rfl⟩ := rtpBuildAudioData_sent hsent
    rw [if_pos hone, soundPayload_bytes]
    refine ⟨accessUnits_audioPackets hpos hne hlen h _ head', fun pkt hpkt => ?_⟩
    have hpart := length_audioPackets pkt hpkt
    omega

/-- A frame of nine bytes at 1280, the `rtp_mtu` of the caller. -/
theorem packetised_iff_sample :
    Packetised (sampleAdts 0x50 (by decide)) ⟨0, 0, 0⟩ 44100 1280 40 sampleAudioHead ↔
      Packetisable (sampleAdts 0x50 (by decide)) :=
  packetised_iff (sampleAdts 0x50 (by decide)) (List.cons_ne_nil _ _) ⟨0, 0, 0⟩ 44100 (by decide)
    (by decide) 40 sampleAudioHead

theorem mem_knownThird : 0x50 ∈ knownThird := by decide

/-- A frame of 2053 bytes with a second sync pattern at the start of its payload. -/
def longAdts : AdtsFrame where
  third := 0x50
  fourth := 1
  fifth := 0
  sixth := 0xbf
  seventh := 0xfc
  payload := [0xff, 0xf1, 0x50] ++ List.replicate 2043 0
  known := mem_knownThird
  length := by
    rw [List.length_append, List.length_replicate]
    rfl

theorem length_longAdts : longAdts.bytes.length = 2053 := by
  rw [AdtsFrame.length_bytes, longAdts, List.length_append, List.length_replicate]
  rfl

/-- **A long frame with a pattern in its payload** is not sent. -/
theorem not_packetised_long :
    ¬ Packetised longAdts ⟨0, 0, 0⟩ 44100 1280 40 sampleAudioHead := by
  have hne : longAdts.payload ≠ [] := List.cons_ne_nil _ _
  rw [packetised_iff longAdts hne ⟨0, 0, 0⟩ 44100 (by decide) (by decide) 40 sampleAudioHead]
  rintro ⟨-, hsingle⟩
  have hlen := length_longAdts
  -- The header and the start of the payload.
  have hmem : ∀ i, i < 2049 → syncAt longAdts.bytes i = true → i ∈ patterns longAdts.bytes := by
    intro i hi hsync
    rw [patterns, Finset.mem_filter, Finset.mem_range, hlen]
    exact ⟨hi, hsync⟩
  have htwo := Finset.one_lt_card.mpr
    ⟨0, hmem 0 (by omega) rfl, 7, hmem 7 (by omega) rfl, by omega⟩
  omega

end Lives

end ReachEdukit
