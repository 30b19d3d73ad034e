import ReachEdukit.Lives.RtpBuild
import ReachEdukit.Rtp.ClockRate

/-!
# The size of live datagrams

The three builders of `room/lives/rtp_build.c` are given an `rtp_mtu`. A packet starts with 28 bytes of
headers: the RTP header, an extension header and the frame header in it. `rtp_build_jpeg_data` leaves
room for them. The other two leave room for 14 bytes, which is the RTP header alone and two more; so a
fragment of a NAL unit is longer than `rtp_mtu` by 16 bytes, and a part of a sound frame by up to 18.

`send_rtp_video` never fails here: its argument and the buffer are there.

## What is left out

A frame of sound with more than five sync patterns, or with five of which none is dropped: the code writes
or reads behind `offset[5]`, and the builder here gives nothing.

## Main definitions

* `rtpBuildJpegData`, `rtpBuildAudioData` — the builders for pictures and sound
* `WithinMtu` — no datagram is longer than `rtp_mtu`

## Main results

* `withinMtu_nalus_iff`, `withinMtu_jpeg`, `withinMtu_parts_iff` — one builder each
* `withinMtu_iff` — when the datagrams are within the bound
-/

namespace ReachEdukit

namespace Lives

open Rtp Memory

/-! ### The builders -/

/-- `rtp_build_jpeg_data`; the handle has one sequence number. -/
def rtpBuildJpegData (h : RtpBuildInfo) (pData : List Rtp.Byte) (tsCurrent : BitVec 32) (rtpMtu : ℕ)
    (head : FrameHead) : RtpBuildInfo × List (List Rtp.Byte) :=
  let r := buildJpegData ⟨h.timeOrg, 0, h.seqNum⟩ pData rtpMtu tsCurrent head
  ({ h with seqNum := r.1.jpgSeqNum }, r.2)

/-- `rtp_build_audio_data`; it puts the sample rate in the place of the height, and one in the spare
byte. -/
def rtpBuildAudioData (h : AudioBuildInfo) (pData : List Rtp.Byte) (samplerate rtpMtu : ℕ)
    (nowtime : BitVec 32) (head : FrameHead) : Option (AudioBuildInfo × List (List Rtp.Byte)) :=
  buildAudioData h pData samplerate rtpMtu nowtime
    { head with height := BitVec.ofNat 16 samplerate, reserve := 1 }

/-- No datagram is longer than `rtp_mtu`. -/
def WithinMtu (rtpMtu : ℕ) (pkts : List (List Rtp.Byte)) : Prop := ∀ pkt ∈ pkts, pkt.length ≤ rtpMtu

theorem withinMtu_append {rtpMtu : ℕ} {pkts pkts' : List (List Rtp.Byte)} :
    WithinMtu rtpMtu (pkts ++ pkts') ↔ WithinMtu rtpMtu pkts ∧ WithinMtu rtpMtu pkts' :=
  List.forall_mem_append

variable {rtpMtu : ℕ} {head : FrameHead}

/-! ### Pictures -/

/-- The first part of a payload that is split has the full length. -/
theorem exists_first_part {mtu : ℕ} {payload : List Rtp.Byte} (h : mtu < payload.length) :
    ∃ p ∈ split mtu payload, p.part.length = mtu := by
  refine ⟨⟨.first, 0, payload.take mtu⟩, ?_, List.length_take_of_le h.le⟩
  rw [split, List.range_succ_eq_map]
  exact List.mem_cons_self ..

/-- The packets of a NAL unit are within the bound exactly when it is sent in one packet that is. -/
theorem withinMtu_nalu_iff (hmtu : 228 ≤ rtpMtu) (buf : List Rtp.Byte) (seq : BitVec 16)
    (ts : BitVec 32) :
    WithinMtu rtpMtu (sendRtpNalu (.ofBytes buf) seq ts (rtpMtu - 14) head) ↔
      buf.length + 28 ≤ rtpMtu := by
  rw [sendRtpNalu, udpSendRtpNalu]
  change WithinMtu rtpMtu (if buf.length - 1 ≤ rtpMtu - 14 then _ else _) ↔ _
  by_cases hshort : buf.length - 1 ≤ rtpMtu - 14
  · rw [if_pos hshort, WithinMtu, List.forall_mem_singleton, length_packet]
    change 28 + buf.length ≤ rtpMtu ↔ _
    rw [Nat.add_comm]
  · rw [if_neg hshort]
    refine iff_of_false (fun hwithin => ?_) (by omega)
    have hlong : rtpMtu - 14 < (buf.drop 1).length := by
      rw [List.length_drop]
      omega
    obtain ⟨p, hp, hpart⟩ := exists_first_part hlong
    have hle := hwithin _ (List.mem_map_of_mem hp)
    rw [length_packet, List.length_append, List.length_cons, List.length_singleton, hpart] at hle
    omega

/-- The packets of NAL units. -/
theorem withinMtu_nalus_iff (hmtu : 228 ≤ rtpMtu) (ts : BitVec 32) (bufs : List (List Rtp.Byte))
    (seq : BitVec 16) :
    WithinMtu rtpMtu (sendRtpNalus ts (rtpMtu - 14) head seq bufs) ↔
      ∀ buf ∈ bufs, buf.length + 28 ≤ rtpMtu := by
  induction bufs generalizing seq with
  | nil => exact iff_of_true (fun pkt hpkt => absurd hpkt List.not_mem_nil) (by simp)
  | cons buf bufs ih =>
    rw [sendRtpNalus, withinMtu_append, withinMtu_nalu_iff hmtu, ih, List.forall_mem_cons]

/-- The packets of a JPEG picture are within the bound. -/
theorem withinMtu_jpeg (hmtu : 228 ≤ rtpMtu) (h : RtpBuildInfo) (pData : List Rtp.Byte)
    (ts : BitVec 32) : WithinMtu rtpMtu (rtpBuildJpegData h pData ts rtpMtu head).2 := by
  intro pkt hpkt
  simp only [rtpBuildJpegData, buildJpegData] at hpkt
  split_ifs at hpkt with hshort
  · rw [List.mem_singleton.mp hpkt, length_packet]
    omega
  · obtain ⟨p, hp, rfl⟩ := List.mem_map.mp hpkt
    have hpart := split_part_le (by omega) (Nat.lt_of_not_le hshort) p hp
    rw [length_packet]
    omega

/-! ### Sound -/

/-- The number of sync patterns that are left. -/
def soundCount (pData : List Rtp.Byte) : ℕ :=
  if (senderFramelen pData).toNat = pData.length ∧ 1 ≤ (syncOffsets pData).length then 1
  else (syncOffsets pData).length

/-- The payload behind the first pattern. -/
def soundPayload (pData : List Rtp.Byte) : List Rtp.Byte :=
  audioPayload pData (syncOffsets pData) 1 0

/-- What is sent of a sound frame: the parts of its payload, if one pattern is left. -/
theorem rtpBuildAudioData_sent {h h' : AudioBuildInfo} {pData : List Rtp.Byte} {samplerate : ℕ}
    {nowtime : BitVec 32} {pkts : List (List Rtp.Byte)}
    (hsent : rtpBuildAudioData h pData samplerate rtpMtu nowtime head = some (h', pkts)) :
    ∃ head', pkts = if soundCount pData = 1
      then audioPackets h (audioTimestamp samplerate (senderTick h.timeOrg nowtime)) head'
        (soundPayload pData).length
        (audioParts (rtpMtu - 14) (soundPayload pData).length (soundPayload pData)) else [] := by
  obtain ⟨j, hj⟩ : ∃ j, (if (senderFramelen pData).toNat = pData.length ∧
      1 ≤ (syncOffsets pData).length then 1 else (syncOffsets pData).length) = j := ⟨_, rfl⟩
  simp only [rtpBuildAudioData, buildAudioData, hj] at hsent
  by_cases hfull : 5 < (syncOffsets pData).length ∨ j = 5
  · rw [if_pos hfull] at hsent
    exact absurd hsent (by simp)
  · rw [if_neg hfull] at hsent
    obtain ⟨-, rfl⟩ := Prod.mk.inj (Option.some.inj hsent)
    refine ⟨{ head with height := BitVec.ofNat 16 samplerate, reserve := 1 }, ?_⟩
    rw [soundCount, hj]
    by_cases hone : j = 1
    · rw [if_pos hone, if_pos hone, hone, List.range_one, List.map_singleton,
        List.flatMap_singleton]
      rfl
    · rw [if_neg hone, if_neg hone]

theorem mem_audioParts_length {mtu fuel : ℕ} {rest part : List Rtp.Byte}
    (h : part ∈ audioParts mtu fuel rest) : part.length ≤ rest.length := by
  induction fuel generalizing rest with
  | zero => exact absurd h List.not_mem_nil
  | succ fuel ih =>
    rw [audioParts] at h
    split_ifs at h with hrest
    · exact absurd h List.not_mem_nil
    · obtain rfl | hmem := List.mem_cons.mp h
      · exact List.length_take_le' ..
      · refine (ih hmem).trans ?_
        rw [List.length_drop]
        exact Nat.sub_le _ _

/-- The packets of a payload are within the bound exactly when it is sent in one packet that is. -/
theorem withinMtu_parts_iff (hmtu : 228 ≤ rtpMtu) (h : AudioBuildInfo) (ts : BitVec 32) (n : ℕ)
    (payload : List Rtp.Byte) :
    WithinMtu rtpMtu (audioPackets h ts head n
        (audioParts (rtpMtu - 14) payload.length payload)) ↔ payload.length + 32 ≤ rtpMtu := by
  have hsize : WithinMtu rtpMtu (audioPackets h ts head n
      (audioParts (rtpMtu - 14) payload.length payload)) ↔
      ∀ part ∈ audioParts (rtpMtu - 14) payload.length payload, part.length + 32 ≤ rtpMtu := by
    have hlength : (audioPackets h ts head n (audioParts (rtpMtu - 14) payload.length payload)).map
        List.length = (audioParts (rtpMtu - 14) payload.length payload).map
          fun part => part.length + 32 := by
      rw [← List.zipIdx_map_fst 0 (audioParts (rtpMtu - 14) payload.length payload), audioPackets,
        List.map_map, List.map_map, List.zipIdx_map_fst]
      refine List.map_congr_left fun part _ => ?_
      change (packet _ _ _).length = part.1.length + 32
      rw [length_packet, List.length_append, length_auHeader]
      omega
    have hiff := congrArg (fun lengths : List ℕ => ∀ len ∈ lengths, len ≤ rtpMtu) hlength
    rw [WithinMtu]
    simpa only [List.forall_mem_map] using iff_of_eq hiff
  rw [hsize]
  constructor
  · intro hparts
    by_cases hnil : payload = []
    · rw [hnil, List.length_nil]
      omega
    · obtain ⟨fuel, hfuel⟩ : ∃ fuel, payload.length = fuel + 1 :=
        Nat.exists_eq_add_one.mpr (List.length_pos_iff.mpr hnil)
      rw [hfuel, audioParts, if_neg hnil, List.forall_mem_cons, List.length_take] at hparts
      have hfirst := hparts.1
      omega
  · intro hlen part hpart
    have hle := mem_audioParts_length hpart
    omega

/-! ### The three builders -/

/-- The NAL units of a picture are short enough. -/
def UnitsFit (rtpMtu : ℕ) (pData : List Rtp.Byte) : Prop :=
  ∀ buf ∈ nalus pData.length pData, buf.length + 28 ≤ rtpMtu

instance (rtpMtu : ℕ) (pData : List Rtp.Byte) : Decidable (UnitsFit rtpMtu pData) :=
  inferInstanceAs (Decidable (∀ buf ∈ _, _))

/-- The payload of a sound frame is short enough, if it is sent. -/
def SoundFits (rtpMtu : ℕ) (pData : List Rtp.Byte) : Prop :=
  soundCount pData = 1 → (soundPayload pData).length + 32 ≤ rtpMtu

instance (rtpMtu : ℕ) (pData : List Rtp.Byte) : Decidable (SoundFits rtpMtu pData) :=
  inferInstanceAs (Decidable (_ → _))

/-- **The size of the datagrams.** What the builders give to `send_rtp_video` is not longer than
`rtp_mtu`: for JPEG always; for H.264 exactly when every NAL unit, and for sound exactly when the
payload, leaves room for the headers in it; sound with too many sync patterns for `offset` aside. -/
theorem withinMtu_iff (hmtu : 228 ≤ rtpMtu) (head : FrameHead) (nowtime : BitVec 32)
    (pData : List Rtp.Byte) :
    (∀ h : RtpBuildInfo, WithinMtu rtpMtu (rtpBuildVideoData h pData rtpMtu nowtime head).2 ↔
        UnitsFit rtpMtu pData) ∧
      (∀ h : RtpBuildInfo, WithinMtu rtpMtu (rtpBuildJpegData h pData nowtime rtpMtu head).2) ∧
      ∀ (h h' : AudioBuildInfo) (samplerate : ℕ) (pkts : List (List Rtp.Byte)),
        rtpBuildAudioData h pData samplerate rtpMtu nowtime head = some (h', pkts) →
        (WithinMtu rtpMtu pkts ↔ SoundFits rtpMtu pData) := by
  refine ⟨fun h => ?_, fun h => withinMtu_jpeg hmtu h pData nowtime,
    fun h h' samplerate pkts hsent => ?_⟩
  · rw [rtpBuildVideoData, if_neg (by omega)]
    exact withinMtu_nalus_iff hmtu _ _ _
  · obtain ⟨head', rfl⟩ := rtpBuildAudioData_sent hsent
    rw [SoundFits]
    by_cases hone : soundCount pData = 1
    · rw [if_pos hone, forall_prop_of_true hone]
      exact withinMtu_parts_iff hmtu h _ _ _
    · rw [if_neg hone]
      exact iff_of_true (fun pkt hpkt => absurd hpkt List.not_mem_nil) fun hone' => absurd hone' hone

/-- Short frames, at the `rtp_mtu` of the caller. -/
theorem withinMtu_iff_sample :
    (WithinMtu 1280 (rtpBuildVideoData ⟨0, 0⟩ [0, 0, 0, 1, 0x41, 0x9a] 1280 1001
          ⟨0, 0, 25, 0, 0, 0, 0, 6⟩).2 ↔ UnitsFit 1280 [0, 0, 0, 1, 0x41, 0x9a]) ∧
      ∃ r, rtpBuildAudioData ⟨0, 0, 0⟩ (sampleAdts 0x50 (by decide)).bytes 44100 1280 1001
        (aacFrameHead 44100 9 0) = some r ∧
        (WithinMtu 1280 r.2 ↔ SoundFits 1280 (sampleAdts 0x50 (by decide)).bytes) := by
  obtain ⟨r, hr⟩ := Option.isSome_iff_exists.mp (show (rtpBuildAudioData ⟨0, 0, 0⟩
    (sampleAdts 0x50 (by decide)).bytes 44100 1280 1001 (aacFrameHead 44100 9 0)).isSome by decide)
  exact ⟨(withinMtu_iff (by decide) _ 1001 _).1 ⟨0, 0⟩, r, hr,
    (withinMtu_iff (by decide) (aacFrameHead 44100 9 0) 1001 _).2.2 ⟨0, 0, 0⟩ r.1 44100 r.2 hr⟩

/-- A slice of 1253 bytes. -/
def longSlice : Slice where
  nal := {
    head := 0x41
    rest := List.replicate 1252 0x9a
    forbidden := by decide
    noCode := by
      rintro ⟨front, back, hcode⟩
      have hmem : (0 : Rtp.Byte) ∈ front ++ startCode ++ back := by simp [startCode]
      rw [hcode, List.mem_cons, List.mem_replicate] at hmem
      obtain hhead | ⟨-, hrest⟩ := hmem
      · exact absurd hhead (by decide)
      · exact absurd hrest (by decide) }
  type := by decide

/-- **A slice of 1253 bytes is sent in a datagram of 1281.** -/
theorem not_withinMtu : ¬ WithinMtu 1280 (rtpBuildVideoData ⟨0, 0⟩ longSlice.bytes 1280 1001
    ⟨0, 0, 25, 0, 0, 0, 0, 1257⟩).2 := by
  intro hwithin
  rw [rtpBuildVideoData, if_neg (by decide), nalus_slice] at hwithin
  have hfit := (withinMtu_nalus_iff (by decide) _ _ _).mp hwithin longSlice.nal.bytes
    (List.mem_singleton_self _)
  rw [Nal.bytes, List.length_cons] at hfit
  change (List.replicate 1252 _).length + 1 + 28 ≤ 1280 at hfit
  rw [List.length_replicate] at hfit
  omega

end Lives

end ReachEdukit
