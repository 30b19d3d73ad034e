import ReachEdukit.Rtp.Packet

/-!
# Frames over TCP

The encoder sends a frame in messages of at most 64 KB. Each has a frame header of 48 bytes, with the
length of the whole frame and the place of the part in it, and `pkg_placed_in_frame` puts the parts
together in the buffer of the stream; `pkg_placed_in_frame_audio` does the same for sound, in a
smaller one. `send_media_frame_data` chooses between them and hands out what is complete.

The numbers of the header are those of the wire. The length of the part is the length of the message
less 48, a signed number; it is compared as an unsigned one and copied as one.

Of the frame header, what decides about copies is kept; the clock of the stream is not.

## Main definitions

* `FrameHead.read` — the frame header
* `pkgPlacedInFrame`, `pkgPlacedInFrameAudio` — one part
* `sendMediaFrameData` — one message

## Main results

* `placed_cases` — a part is placed exactly when it fits
* `sendMediaFrameData_isSome_iff` — no copy goes wrong exactly when the message fits
-/

namespace ReachEdukit

namespace Receive

open Memory

open Rtp (Byte Buffer)

/-- `FH_LEN`. -/
def fhLen : ℕ := 48

/-- `MAX_FRAME_LEN`. -/
def maxFrameLen : ℕ := 2 * 1024 * 1024

/-- `MAX_AUDIO_LEN`. -/
def maxAudioLen : ℕ := 10 * 1024

/-- `H264_CODEC_TYPE`. -/
def h264CodecType : BitVec 32 := 0x34363248

/-- `AAC_CODEC_TYPE`. -/
def aacCodecType : BitVec 32 := 0x53544441

/-- `JPEG_CODEC_TYPE`. -/
def jpegCodecType : BitVec 32 := 0x4745504A

/-- `I_FRAME`. -/
def iFrame : BitVec 32 := 0x10

/-- The four bytes at `i`, the low one first. -/
def le32At (m : Buffer) (i : ℕ) : BitVec 32 := m (i + 3) ++ m (i + 2) ++ m (i + 1) ++ m i

/-- `hdb_freame_head_t`. -/
structure FrameHead where
  /-- `m_frame_length`. -/
  frameLength : BitVec 32
  /-- `m_data_codec`. -/
  dataCodec : BitVec 32
  /-- `m_dw_segment`. -/
  dwSegment : BitVec 32
  /-- `m_dw_flags`. -/
  dwFlags : BitVec 32
  deriving DecidableEq, Repr

/-- The header at the front of a message. -/
def FrameHead.read (m : Buffer) : FrameHead where
  frameLength := le32At m 8
  dataCodec := le32At m 12
  dwSegment := le32At m 32
  dwFlags := le32At m 36

/-- The codes that placing a part returns. -/
inductive Code
  /-- `OPERATION_ERR`. -/
  | err
  /-- `OPERATION_SUCC`. -/
  | succ
  /-- `OPERATION_CONTINUE`: the frame is complete. -/
  | cont
  deriving DecidableEq, Repr

/-- A frame that is being put together. -/
structure Assembly where
  /-- The buffer. -/
  data : Buffer
  /-- Where the next part goes. -/
  offset : ℕ

/-- A signed number as an unsigned one of 32 bits. -/
def unsigned (z : ℤ) : ℕ := (z % 2 ^ 32).toNat

/-- One part, of a message of `inLen` bytes, into a buffer of `limit`: `none` when a copy leaves the
message or the buffer. -/
def placed (limit : ℕ) (fh : FrameHead) (inData : Buffer) (inLen : ℕ) (partLen : ℤ)
    (a : Assembly) : Option (Assembly × Code) :=
  if fh.dwSegment = 2 then
    if limit < fh.frameLength.toNat then some (a, .err)
    else if fh.frameLength.toNat < unsigned (a.offset + partLen) then
      some ({ a with offset := 0 }, .err)
    else
      (memcpy a.data limit 0 inData inLen fhLen partLen).map fun m => (⟨m, partLen.toNat⟩, .succ)
  else if fh.dwSegment = 0 then
    if fh.frameLength.toNat < unsigned (a.offset + partLen) then
      some ({ a with offset := 0 }, .succ)
    else
      (memcpy a.data limit a.offset inData inLen fhLen partLen).map fun m =>
        (⟨m, a.offset + partLen.toNat⟩, .succ)
  else if fh.dwSegment = 1 then
    if fh.frameLength.toNat < unsigned (a.offset + partLen) then
      some ({ a with offset := 0 }, .succ)
    else (memcpy a.data limit a.offset inData inLen fhLen partLen).map fun m => (⟨m, 0⟩, .cont)
  else if fh.dwSegment = 3 then
    (memcpy a.data limit 0 inData inLen fhLen fh.frameLength.toNat).map fun m =>
      ({ a with data := m }, .cont)
  else some (a, .succ)

/-- `stream_handle`. -/
structure StreamHandle where
  /-- `frame_data` and `offset`. -/
  frame : Assembly
  /-- `audio_data` and `audio_offset`. -/
  audio : Assembly
  /-- `rec_audio_falg` is `RECODE_AUDIO_ON`. -/
  recAudio : Bool
  /-- `RECV_VIDEO_I_FRAME_DATA` of `log_flag`. -/
  iFrameSeen : Bool

/-- What `room_receive_deal` does with it when a connection is opened: `log_flag` and the offsets are
set to 0, and the buffers stay as they are. -/
def StreamHandle.connect (M : StreamHandle) : StreamHandle :=
  { M with
    frame := { M.frame with offset := 0 }
    audio := { M.audio with offset := 0 }
    iFrameSeen := false }

/-- `pkg_placed_in_frame`. -/
def pkgPlacedInFrame (inData : Buffer) (inLen : ℕ) (partLen : ℤ) (M : StreamHandle) :
    Option (StreamHandle × Code) :=
  (placed maxFrameLen (.read inData) inData inLen partLen M.frame).map fun r =>
    ({ M with frame := r.1 }, r.2)

/-- `pkg_placed_in_frame_audio`. -/
def pkgPlacedInFrameAudio (inData : Buffer) (inLen : ℕ) (partLen : ℤ) (M : StreamHandle) :
    Option (StreamHandle × Code) :=
  (placed maxAudioLen (.read inData) inData inLen partLen M.audio).map fun r =>
    ({ M with audio := r.1 }, r.2)

/-- The handing out of a complete frame. Whoever takes it, the recorders, the live module or the
sender, copies as many bytes as the header says out of the buffer. -/
def handedOut (limit : ℕ) (taken : Bool) (fh : FrameHead) (M : StreamHandle) :
    Option StreamHandle :=
  if taken ∧ limit < fh.frameLength.toNat then none else some M

/-- `send_media_frame_data`. -/
def sendMediaFrameData (taken : Bool) (inData : Buffer) (dataLen : ℕ) (M : StreamHandle) :
    Option StreamHandle :=
  let fh := FrameHead.read inData
  let frameDataLen : ℤ := dataLen - fhLen
  if fh.dataCodec = aacCodecType ∧ ¬ M.recAudio then some M
  else if fh.dataCodec = h264CodecType ∨ fh.dataCodec = jpegCodecType then
    (pkgPlacedInFrame inData dataLen frameDataLen M).bind fun r =>
      if r.2 = .cont then
        let M := if fh.dwFlags = iFrame then { r.1 with iFrameSeen := true } else r.1
        if M.iFrameSeen ∨ fh.dataCodec = jpegCodecType then handedOut maxFrameLen taken fh M
        else some M
      else some r.1
  else if fh.dataCodec = aacCodecType then
    (pkgPlacedInFrameAudio inData dataLen frameDataLen M).bind fun r =>
      if r.2 = .cont then handedOut maxAudioLen taken fh r.1 else some r.1
  else some M

/-! ### When a part fits -/

/-- The running offset takes the part. -/
def Taken (fh : FrameHead) (partLen : ℤ) (a : Assembly) : Prop :=
  unsigned (a.offset + partLen) ≤ fh.frameLength.toNat

instance (fh : FrameHead) (partLen : ℤ) (a : Assembly) : Decidable (Taken fh partLen a) :=
  inferInstanceAs (Decidable (_ ≤ _))

/-- The part does no harm: one that is copied has a length that is not negative, and ends in the
buffer; a frame of one part ends in the message and in the buffer. -/
structure PartFits (limit : ℕ) (fh : FrameHead) (inLen : ℕ) (partLen : ℤ) (a : Assembly) :
    Prop where
  /-- The first part. -/
  start : fh.dwSegment = 2 → fh.frameLength.toNat ≤ limit → Taken fh partLen a →
    0 ≤ partLen ∧ partLen ≤ limit
  /-- A later one. -/
  later : fh.dwSegment = 0 ∨ fh.dwSegment = 1 → Taken fh partLen a →
    0 ≤ partLen ∧ a.offset + partLen ≤ limit
  /-- The only one. -/
  whole : fh.dwSegment = 3 → fhLen + fh.frameLength.toNat ≤ inLen ∧ fh.frameLength.toNat ≤ limit

/-- The part completes a frame. -/
def Completes (fh : FrameHead) (partLen : ℤ) (a : Assembly) : Prop :=
  fh.dwSegment = 3 ∨ fh.dwSegment = 1 ∧ Taken fh partLen a

variable {limit inLen : ℕ} {fh : FrameHead} {inData : Buffer} {partLen : ℤ} {a : Assembly}

theorem completes_last (h : fh.dwSegment = 1) :
    Completes fh partLen a ↔ Taken fh partLen a := by
  rw [Completes, or_iff_right (by rw [h]; decide), and_iff_right h]

theorem partFits_start (h : fh.dwSegment = 2) :
    PartFits limit fh inLen partLen a ↔
      (fh.frameLength.toNat ≤ limit → Taken fh partLen a → 0 ≤ partLen ∧ partLen ≤ limit) := by
  refine ⟨fun hfits => hfits.start h, fun hstart => ⟨fun _ => hstart, ?_, ?_⟩⟩
  · rintro (h' | h') <;> exact absurd (h.symm.trans h') (by decide)
  · exact fun h' => absurd (h.symm.trans h') (by decide)

theorem partFits_later (h : fh.dwSegment = 0 ∨ fh.dwSegment = 1) :
    PartFits limit fh inLen partLen a ↔
      (Taken fh partLen a → 0 ≤ partLen ∧ a.offset + partLen ≤ limit) := by
  refine ⟨fun hfits => hfits.later h, fun hlater => ⟨fun h' => ?_, fun _ => hlater, fun h' => ?_⟩⟩
  · rcases h with h | h <;> exact absurd (h.symm.trans h') (by decide)
  · rcases h with h | h <;> exact absurd (h.symm.trans h') (by decide)

theorem partFits_whole (h : fh.dwSegment = 3) :
    PartFits limit fh inLen partLen a ↔
      fhLen + fh.frameLength.toNat ≤ inLen ∧ fh.frameLength.toNat ≤ limit := by
  refine ⟨fun hfits => hfits.whole h, fun hwhole => ⟨fun h' => ?_, ?_, fun _ => hwhole⟩⟩
  · exact absurd (h.symm.trans h') (by decide)
  · rintro (h' | h') <;> exact absurd (h.symm.trans h') (by decide)

/-- A later part, whatever becomes of the offset. -/
theorem placed_later (limit : ℕ) (inData : Buffer) (a : Assembly)
    (hpart : partLen = inLen - fhLen) (h : fh.dwSegment = 0 ∨ fh.dwSegment = 1) (next : ℕ)
    (code : Code) :
    let r := if fh.frameLength.toNat < unsigned (a.offset + partLen) then
        some ({ a with offset := 0 }, Code.succ)
      else (memcpy a.data limit a.offset inData inLen fhLen partLen).map fun m =>
        ((⟨m, next⟩ : Assembly), code)
    (r = none ∧ ¬ PartFits limit fh inLen partLen a) ∨
      (∃ x, r = some x ∧ PartFits limit fh inLen partLen a ∧
        (x.2 = if Taken fh partLen a then code else .succ)) := by
  rw [partFits_later h]
  dsimp only
  split
  · next hover =>
    have hnot : ¬ Taken fh partLen a := Nat.not_le.mpr hover
    exact .inr ⟨_, rfl, fun ht => absurd ht hnot, by rw [if_neg hnot]⟩
  · next hover =>
    have htaken : Taken fh partLen a := Nat.not_lt.mp hover
    rcases hcopy : memcpy a.data limit a.offset inData inLen fhLen partLen with _ | m
    · refine .inl ⟨rfl, fun hfits => ?_⟩
      obtain ⟨hpos, hroom⟩ := hfits htaken
      exact memcpy_eq_none_iff.mp hcopy ⟨hpos, hroom, by omega⟩
    · obtain ⟨⟨hpos, hroom, -⟩, -⟩ := memcpy_eq_some hcopy
      exact .inr ⟨_, rfl, fun _ => ⟨hpos, hroom⟩, by rw [if_pos htaken]⟩

/-- A part is placed, with `OPERATION_CONTINUE` when it completes a frame, unless it does not fit. -/
theorem placed_cases (limit : ℕ) (fh : FrameHead) (inData : Buffer) (a : Assembly)
    (hpart : partLen = inLen - fhLen) :
    (placed limit fh inData inLen partLen a = none ∧ ¬ PartFits limit fh inLen partLen a) ∨
    (∃ r, placed limit fh inData inLen partLen a = some r ∧ PartFits limit fh inLen partLen a ∧
      (r.2 = .cont ↔ Completes fh partLen a)) := by
  rw [placed]
  split
  · next hstart =>
    have hnot : ¬ Completes fh partLen a := by
      rintro (h | ⟨h, -⟩) <;> exact absurd (hstart.symm.trans h) (by decide)
    rw [partFits_start hstart]
    split
    · next hlong =>
      exact .inr ⟨_, rfl, fun hle => absurd hle (Nat.not_le.mpr hlong), iff_of_false (by simp) hnot⟩
    · split
      · next hover =>
        exact .inr ⟨_, rfl, fun _ ht => absurd ht (Nat.not_le.mpr hover),
          iff_of_false (by simp) hnot⟩
      · next hlong hover =>
        rcases hcopy : memcpy a.data limit 0 inData inLen fhLen partLen with _ | m
        · refine .inl ⟨rfl, fun hfits => ?_⟩
          obtain ⟨hpos, hroom⟩ := hfits (Nat.not_lt.mp hlong) (Nat.not_lt.mp hover)
          exact memcpy_eq_none_iff.mp hcopy ⟨hpos, by omega, by omega⟩
        · obtain ⟨⟨hpos, hroom, -⟩, -⟩ := memcpy_eq_some hcopy
          exact .inr ⟨_, rfl, fun _ _ => ⟨hpos, by omega⟩, iff_of_false (by simp) hnot⟩
  · next hstart =>
    split
    · next hmiddle =>
      have hnot : ¬ Completes fh partLen a := by
        rintro (h | ⟨h, -⟩) <;> exact absurd (hmiddle.symm.trans h) (by decide)
      rcases placed_later limit inData a hpart (.inl hmiddle) (a.offset + partLen.toNat) .succ with
        h | ⟨x, hx, hfits, hcode⟩
      · exact .inl h
      · refine .inr ⟨x, hx, hfits, iff_of_false ?_ hnot⟩
        rw [hcode]
        split <;> simp
    · next hmiddle =>
      split
      · next hlast =>
        rcases placed_later limit inData a hpart (.inr hlast) 0 .cont with
          h | ⟨x, hx, hfits, hcode⟩
        · exact .inl h
        · refine .inr ⟨x, hx, hfits, ?_⟩
          rw [hcode, completes_last hlast]
          split
          · next htaken => exact iff_of_true rfl htaken
          · next htaken => exact iff_of_false (by simp) htaken
      · next hlast =>
        split
        · next hwhole =>
          rw [partFits_whole hwhole]
          rcases hcopy : memcpy a.data limit 0 inData inLen fhLen fh.frameLength.toNat with _ | m
          · refine .inl ⟨rfl, fun hfits => ?_⟩
            exact memcpy_eq_none_iff.mp hcopy ⟨by omega, by omega, by omega⟩
          · obtain ⟨⟨-, hroom, hpart⟩, -⟩ := memcpy_eq_some hcopy
            exact .inr ⟨_, rfl, ⟨by omega, by omega⟩, iff_of_true rfl (.inl hwhole)⟩
        · next hwhole =>
          refine .inr ⟨_, rfl, ⟨?_, ?_, ?_⟩, iff_of_false (by simp) ?_⟩
          · exact fun h => absurd h hstart
          · exact fun h => absurd h (not_or.mpr ⟨hmiddle, hlast⟩)
          · exact fun h => absurd h hwhole
          · exact fun h => h.elim hwhole fun h => hlast h.1

/-! ### When a message fits -/

/-- The part fits, and so does the frame it completes when that is handed out. -/
structure StreamFits (limit : ℕ) (handed : Prop) (fh : FrameHead) (inLen : ℕ) (partLen : ℤ)
    (a : Assembly) : Prop where
  /-- The part. -/
  part : PartFits limit fh inLen partLen a
  /-- The frame. -/
  frame : Completes fh partLen a → handed → fh.frameLength.toNat ≤ limit

/-- A message of `dataLen` bytes does no harm: it is read as pictures or as sound, by its codec. A
frame of pictures is handed out from the first key frame of the connection on. -/
structure MessageFits (taken : Bool) (fh : FrameHead) (dataLen : ℕ) (M : StreamHandle) : Prop where
  /-- Pictures. -/
  video : fh.dataCodec = h264CodecType ∨ fh.dataCodec = jpegCodecType →
    StreamFits maxFrameLen
      (taken ∧ (M.iFrameSeen ∨ fh.dwFlags = iFrame ∨ fh.dataCodec = jpegCodecType)) fh dataLen
      (dataLen - fhLen) M.frame
  /-- Sound. -/
  audio : fh.dataCodec = aacCodecType → M.recAudio →
    StreamFits maxAudioLen taken fh dataLen (dataLen - fhLen) M.audio

theorem handedOut_isSome_iff {taken : Bool} {M : StreamHandle} :
    (handedOut limit taken fh M).isSome ↔ (taken → fh.frameLength.toNat ≤ limit) := by
  rw [handedOut]
  split
  · next h => simpa using h
  · next h => simpa using h

theorem messageFits_video {taken : Bool} {dataLen : ℕ} {M : StreamHandle}
    (h : fh.dataCodec = h264CodecType ∨ fh.dataCodec = jpegCodecType) :
    MessageFits taken fh dataLen M ↔
      StreamFits maxFrameLen
        (taken ∧ (M.iFrameSeen ∨ fh.dwFlags = iFrame ∨ fh.dataCodec = jpegCodecType)) fh dataLen
        (dataLen - fhLen) M.frame := by
  refine ⟨fun hfits => hfits.video h, fun hfits => ⟨fun _ => hfits, fun haac => ?_⟩⟩
  rcases h with h | h <;> exact absurd (h.symm.trans haac) (by decide)

theorem messageFits_audio {taken : Bool} {dataLen : ℕ} {M : StreamHandle}
    (h : fh.dataCodec = aacCodecType) (hon : M.recAudio) :
    MessageFits taken fh dataLen M ↔
      StreamFits maxAudioLen taken fh dataLen (dataLen - fhLen) M.audio := by
  refine ⟨fun hfits => hfits.audio h hon, fun hfits => ⟨?_, fun _ _ => hfits⟩⟩
  rintro (h' | h') <;> exact absurd (h.symm.trans h') (by decide)

theorem handedOutIf_isSome_iff {taken : Bool} {shown : Prop} [Decidable shown]
    {M : StreamHandle} :
    (if shown then handedOut limit taken fh M else some M).isSome ↔
      (taken ∧ shown → fh.frameLength.toNat ≤ limit) := by
  split
  · next hshown => rw [handedOut_isSome_iff, and_iff_left hshown]
  · next hshown => exact iff_of_true rfl fun h => absurd h.2 hshown

/-- Placing a part and handing out what it completes. -/
theorem place_isSome_iff {handed : Prop} (put : Assembly → StreamHandle)
    (hand : StreamHandle → Option StreamHandle) (hpart : partLen = inLen - fhLen)
    (hhand : ∀ a', (hand (put a')).isSome ↔ (handed → fh.frameLength.toNat ≤ limit)) :
    (((placed limit fh inData inLen partLen a).map fun r => (put r.1, r.2)).bind fun r =>
        if r.2 = .cont then hand r.1 else some r.1).isSome ↔
      StreamFits limit handed fh inLen partLen a := by
  rcases placed_cases limit fh inData a hpart with ⟨hnone, hnot⟩ | ⟨r, hsome, hfits, hcode⟩
  · rw [hnone]
    exact iff_of_false (by simp) fun h => hnot h.part
  · rw [hsome, Option.map_some, Option.bind_some]
    dsimp only
    split
    · next hcont =>
      rw [hhand]
      exact ⟨fun h => ⟨hfits, fun _ => h⟩, fun h => h.frame (hcode.mp hcont)⟩
    · next hcont =>
      exact iff_of_true rfl ⟨hfits, fun h => absurd (hcode.mpr h) hcont⟩

theorem sendMediaFrameData_isSome_iff (taken : Bool) (dataLen : ℕ) (M : StreamHandle) :
    (sendMediaFrameData taken inData dataLen M).isSome ↔
      MessageFits taken (.read inData) dataLen M := by
  simp only [sendMediaFrameData, pkgPlacedInFrame, pkgPlacedInFrameAudio]
  generalize FrameHead.read inData = fh
  split
  · next hoff =>
    refine iff_of_true rfl ⟨fun h => ?_, fun _ hon => absurd hon hoff.2⟩
    rw [hoff.1] at h
    exact absurd h (by decide)
  · next hon =>
    split
    · next hvideo =>
      rw [messageFits_video hvideo]
      refine place_isSome_iff (fun a => { M with frame := a }) (fun M =>
        let M := if fh.dwFlags = iFrame then { M with iFrameSeen := true } else M
        if M.iFrameSeen ∨ fh.dataCodec = jpegCodecType then handedOut maxFrameLen taken fh M
        else some M) rfl fun a => ?_
      dsimp only
      have hseen : ((if fh.dwFlags = iFrame then { M with frame := a, iFrameSeen := true }
          else { M with frame := a }).iFrameSeen : Prop) ↔ M.iFrameSeen ∨ fh.dwFlags = iFrame := by
        split <;> simp_all
      rw [handedOutIf_isSome_iff, hseen, or_assoc]
    · next hvideo =>
      split
      · next haudio =>
        rw [messageFits_audio haudio (by simpa [haudio] using hon)]
        exact place_isSome_iff (fun a => { M with audio := a }) (handedOut maxAudioLen taken fh) rfl
          fun a => handedOut_isSome_iff
      · next haudio =>
        exact iff_of_true rfl ⟨fun h => absurd h hvideo, fun h => absurd h haudio⟩

end Receive

end ReachEdukit
