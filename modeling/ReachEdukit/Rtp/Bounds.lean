import ReachEdukit.Rtp.Fragment

/-!
# When the receiver stays within its buffers

The receiver takes three numbers from the network without a check: the size of the datagram, from
which it subtracts its headers; the length of the frame, by which it copies an independent part; and
the same length again, which is all that bounds the running offset. Only a part that opens a frame
is compared with the size of the frame buffer.

`Fits` says in these numbers when one datagram does no harm in a given state. The thread is still in
its loop after a run if and only if every datagram of it fits.

## Main definitions

* `Cut`, `cutAt` — how a datagram is cut, read off its headers
* `Fits` — the datagram does no harm

## Main results

* `step_running_iff` — the thread stays in its loop exactly when the datagram fits
* `running_iff_fits` — so it does through a run
-/

namespace ReachEdukit

namespace Rtp

open Memory

/-! ### How a datagram is cut -/

/-- How a datagram is cut. -/
structure Cut where
  /-- What is put in front of the part. -/
  lead : ℕ
  /-- Where the part starts in the datagram. -/
  start : ℕ
  /-- The segment it is placed as. -/
  segment : ℕ
  deriving DecidableEq, Repr

/-- How the datagram in `recv_buf` is cut; one of an unknown codec is not. -/
def cutAt (recv : Buffer) : Option Cut :=
  let head := frameHeadAt recv
  let fuHdr := fuHeaderAt recv
  match setDataCodec head with
  | .h264 =>
    if (fuIndicatorAt recv).type = 28 then
      if fuHdr.s = 1 then some ⟨5, 30, if head.iframe = 1 then 0 else 2⟩
      else some ⟨0, 30, if fuHdr.e = 1 then 1 else 0⟩
    else
      let flag := singleFlag head.iframe (recv 28)
      some ⟨4, 28, (if flag = -1 then 0 else flag).toNat⟩
  | .aac => some ⟨7, 32, 3⟩
  | .jpeg => some ⟨0, 28, head.samplerate.toNat⟩
  | .unknown => none

/-- The length of the part of a datagram of `n` bytes. -/
def Cut.len (c : Cut) (n : ℕ) : ℕ := c.lead + (n - c.start)

/-- The part is behind its headers and within `frame_buf`. -/
def Cut.Room (c : Cut) (n : ℕ) : Prop := c.start ≤ n ∧ c.len n ≤ bodyRoom

/-- The part of a frame of `total` bytes stays within the frame buffer at the offset `off`. A middle
or a last part is copied when it does not take the frame past its length, whatever that is; an
independent part is copied by the length of the frame. -/
def Cut.Stays (c : Cut) (n off total : ℕ) : Prop :=
  match c.segment with
  | 0 | 1 => off + c.len n ≤ total → off + c.len n ≤ maxFrameLen
  | 3 => total ≤ bodyRoom
  | _ => True

/-- The datagram does no harm: it has its headers, and its part has room in `frame_buf` and stays
within the frame buffer. -/
structure Fits (s : Receiver) (dg : Datagram) : Prop where
  /-- It has the headers every datagram has. -/
  headed : 28 ≤ dg.bytes.length
  /-- Its part has room in `frame_buf`. -/
  room : ∀ c, cutAt (recvBuf dg.bytes) = some c → c.Room dg.bytes.length
  /-- Its part stays within the frame buffer. -/
  stays : ∀ c, cutAt (recvBuf dg.bytes) = some c →
    c.Stays dg.bytes.length s.handle.video.offset
      (frameHeadAt (recvBuf dg.bytes)).framelength.toNat

/-! ### Unpacking -/

/-- What a datagram that is cut unpacks to. -/
structure Unpacked (dg : List Byte) (c : Cut) (fh : FreameHead) (len : ℕ) : Prop where
  codec : fh.mDataCodec = setDataCodec (frameHeadAt (recvBuf dg))
  total : fh.mFrameLength = (frameHeadAt (recvBuf dg)).framelength
  segment : fh.mDwSegment = c.segment
  len : len = c.len dg.length

/-- The copy into `frame_buf` is made exactly when the part has room. -/
theorem memcpy_room {c : Cut} {dg : List Byte} (hn : dg.length ≤ maxUdpLen) (dst : Buffer) :
    memcpy dst bodyRoom c.lead (recvBuf dg) maxUdpLen c.start ((dg.length : ℤ) - c.start) = none ↔
      ¬ c.Room dg.length := by
  rw [memcpy_eq_none_iff, Cut.Room, Cut.len]
  constructor
  · intro h hroom
    exact h ⟨by omega, by omega, by omega⟩
  · intro h hcopy
    exact h ⟨by omega, by omega⟩

/-- The NAL header the receiver finds in `frame_buf` is the one in the datagram. -/
theorem nalHeader_copied {dg : List Byte} {body : Buffer}
    (h : memcpy (blit emptyBody 0 startCode) bodyRoom 4 (recvBuf dg) maxUdpLen 28
      ((dg.length : ℤ) - 28) = some body) : body 4 = recvBuf dg 28 := by
  obtain ⟨⟨hpos, -, -⟩, rfl⟩ := memcpy_eq_some h
  by_cases hlen : dg.length = 28
  · -- nothing was copied, and there is nothing behind the datagram
    have hend : recvBuf dg 28 = 0 := by simp [recvBuf, ofList, hlen]
    rw [hend, hlen]
    rfl
  · obtain ⟨k, hk⟩ : ∃ k, ((dg.length : ℤ) - 28).toNat = 1 + k :=
      ⟨((dg.length : ℤ) - 28).toNat - 1, by omega⟩
    rw [hk, window_add]
    exact blit_cons_self ..

theorem unpacked_of_memcpy {dg : List Byte} (hn : dg.length ≤ maxUdpLen) {c : Cut} {t : BitVec 32}
    (dst : Buffer) (f : Buffer → FreameHead × Buffer × ℕ × BitVec 32)
    (hun : unpack t (recvBuf dg) dg.length = (memcpy dst bodyRoom c.lead (recvBuf dg) maxUdpLen
      c.start ((dg.length : ℤ) - c.start)).map f)
    (hf : ∀ body, memcpy dst bodyRoom c.lead (recvBuf dg) maxUdpLen c.start
      ((dg.length : ℤ) - c.start) = some body → Unpacked dg c (f body).1 (f body).2.2.1) :
    (unpack t (recvBuf dg) dg.length = none ∧ ¬ c.Room dg.length) ∨
      ∃ fh body len t', unpack t (recvBuf dg) dg.length = some (fh, body, len, t') ∧
        c.Room dg.length ∧ Unpacked dg c fh len := by
  have hroom := memcpy_room (c := c) hn dst
  rw [hun]
  cases hm : memcpy dst bodyRoom c.lead (recvBuf dg) maxUdpLen c.start
      ((dg.length : ℤ) - c.start) with
  | none => exact .inl ⟨rfl, hroom.mp hm⟩
  | some body =>
    refine .inr ⟨(f body).1, (f body).2.1, (f body).2.2.1, (f body).2.2.2, rfl, ?_, hf body hm⟩
    by_contra h
    rw [hroom.mpr h] at hm
    exact absurd hm (by simp)

/-- **Unpacking** copies exactly when the part has room. -/
theorem unpack_of_cut {dg : List Byte} (hn : dg.length ≤ maxUdpLen) {c : Cut}
    (hc : cutAt (recvBuf dg) = some c) (t : BitVec 32) :
    (unpack t (recvBuf dg) dg.length = none ∧ ¬ c.Room dg.length) ∨
      ∃ fh body len t', unpack t (recvBuf dg) dg.length = some (fh, body, len, t') ∧
        c.Room dg.length ∧ Unpacked dg c fh len := by
  let head := frameHeadAt (recvBuf dg)
  let rtp := rtpHeadAt (recvBuf dg)
  let fuInd := fuIndicatorAt (recvBuf dg)
  let fuHdr := fuHeaderAt (recvBuf dg)
  simp only [cutAt] at hc
  split at hc <;> rename_i hcodec
  · split at hc <;> rename_i htype
    · split at hc <;> rename_i hs
      · obtain rfl := Option.some.inj hc
        let flag : ℤ := if head.iframe = 1 then 0 else 2
        refine unpacked_of_memcpy hn
          (blit emptyBody 0 (startCode ++ [fuInd.f ++ fuInd.nri ++ fuHdr.type]))
          (fun body => (h264Head head rtp flag, body, 5 + (dg.length - 30),
            (h264Head head rtp flag).mTimeTick)) ?_ fun body _ => ?_
        · simp only [unpack, hcodec, getVideoFrameData, htype, hs, if_true]
          cases memcpy _ _ _ _ _ _ _ <;> rfl
        · refine ⟨hcodec.symm, rfl, ?_, rfl⟩
          simp only [h264Head, flag, head]
          split <;> rfl
      · obtain rfl := Option.some.inj hc
        let flag : ℤ := if fuHdr.e = 1 then 1 else 0
        refine unpacked_of_memcpy hn emptyBody
          (fun body => (h264Head head rtp flag, body, dg.length - 30,
            (h264Head head rtp flag).mTimeTick)) ?_ fun body _ => ?_
        · simp only [unpack, hcodec, getVideoFrameData, htype, hs, if_true, if_false]
          cases memcpy _ _ _ _ _ _ _ <;> rfl
        · refine ⟨hcodec.symm, rfl, ?_, (Nat.zero_add _).symm⟩
          simp only [h264Head, flag, fuHdr]
          split <;> rfl
    · obtain rfl := Option.some.inj hc
      let flag := fun body : Buffer => singleFlag head.iframe (body 4)
      refine unpacked_of_memcpy hn (blit emptyBody 0 startCode)
        (fun body => (h264Head head rtp (flag body), body, 4 + (dg.length - 28),
          (h264Head head rtp (flag body)).mTimeTick)) ?_ fun body hbody => ?_
      · simp only [unpack, hcodec, getVideoFrameData, htype, if_false]
        cases memcpy _ _ _ _ _ _ _ <;> rfl
      · refine ⟨hcodec.symm, rfl, ?_, rfl⟩
        simp only [h264Head, flag, head]
        rw [nalHeader_copied hbody]
  · obtain rfl := Option.some.inj hc
    refine unpacked_of_memcpy hn emptyBody
      (fun body => (aacHead head rtp t, blit body 0 (onAudioAacFrame 4 (7 + (dg.length - 32))),
        7 + (dg.length - 32), (aacHead head rtp t).mTimeTick)) ?_ fun body _ => ?_
    · simp only [unpack, hcodec, getAudioFrameData]
      cases memcpy _ _ _ _ _ _ _ <;> rfl
    · exact ⟨hcodec.symm, rfl, rfl, rfl⟩
  · obtain rfl := Option.some.inj hc
    refine unpacked_of_memcpy hn emptyBody
      (fun body => (getJpegFrameDataHead { mDataCodec := .jpeg } head rtp, body, dg.length - 28, t))
      ?_ fun body _ => ?_
    · simp only [unpack, hcodec, getJpegFrameData]
      cases memcpy _ _ _ _ _ _ _ <;> rfl
    · exact ⟨hcodec.symm, rfl, rfl, (Nat.zero_add _).symm⟩
  · exact absurd hc (by simp)

/-! ### Placing -/

/-- A part is placed exactly when it stays within the frame buffer. -/
theorem placeSegment_eq_none_iff (limit : ℕ) {dg : List Byte} {c : Cut} {fh : FreameHead} {len : ℕ}
    {b : FrameBuf} (hb : b.offset ≤ maxFrameLen) (hu : Unpacked dg c fh len)
    (hroom : c.Room dg.length) (body : Buffer) :
    placeSegment limit b fh body len = none ↔
      ¬ c.Stays dg.length b.offset (frameHeadAt (recvBuf dg)).framelength.toNat := by
  obtain ⟨-, hlen⟩ := hroom
  have hmax : bodyRoom ≤ maxFrameLen := by decide
  have hword : maxFrameLen + bodyRoom < 2 ^ 32 := by decide
  have hsum : (b.offset + len) % 2 ^ 32 = b.offset + len := Nat.mod_eq_of_lt (by
    rw [hu.len]
    omega)
  rw [placeSegment, Cut.Stays, hu.segment, hu.total, ← hu.len, hsum]
  rw [← hu.len] at hlen
  have hcopied : ∀ {off n : ℕ} {g : Buffer → Placed},
      ((memcpy b.data maxFrameLen off body bodyRoom 0 n).bind fun m => some (g m)) = none ↔
        ¬ (off + n ≤ maxFrameLen ∧ n ≤ bodyRoom) := by
    intro off n g
    rw [memcpy_bind_eq_none_iff]
    omega
  rcases c.segment with _ | _ | _ | _ | n
  · by_cases h : (frameHeadAt (recvBuf dg)).framelength.toNat < b.offset + len
    · simp [h]
    · simp only [if_neg h]
      exact hcopied.trans (by omega)
  · by_cases h : (frameHeadAt (recvBuf dg)).framelength.toNat < b.offset + len
    · simp [h]
    · simp only [if_neg h]
      exact hcopied.trans (by omega)
  · by_cases h : limit < (frameHeadAt (recvBuf dg)).framelength.toNat
    · simp [h]
    · simp only [if_neg h]
      exact hcopied.trans (not_congr (iff_of_true ⟨by omega, hlen⟩ trivial))
  · refine hcopied.trans (not_congr ⟨fun h => h.2, fun h => ⟨?_, h⟩⟩)
    rw [Nat.zero_add]
    exact Nat.le_trans h hmax
  · simp

/-- What `udp_recv_media_frame_data` does with a part that was cut from a datagram: an audio part is
always independent, so only the video offset counts. -/
theorem udpRecvMediaFrameData_eq_none_iff {h : Handle} (hw : h.Within) {dg : List Byte} {c : Cut}
    (hc : cutAt (recvBuf dg) = some c) {fh : FreameHead} {len : ℕ} (hu : Unpacked dg c fh len)
    (hroom : c.Room dg.length) (body : Buffer) (now : BitVec 32) :
    udpRecvMediaFrameData h fh body len now = none ↔
      ¬ c.Stays dg.length h.video.offset (frameHeadAt (recvBuf dg)).framelength.toNat := by
  have hvideo := placeSegment_eq_none_iff maxFrameLen hw.video hu hroom body
  have haudio := placeSegment_eq_none_iff maxAudioLen hw.audio hu hroom body
  rw [udpRecvMediaFrameData]
  split <;> rename_i hcodec
  · rw [← hvideo, pkgPlacedInFrame]
    cases placeSegment maxFrameLen h.video fh body len <;> simp
  · rw [← hvideo, pkgPlacedInFrame]
    cases placeSegment maxFrameLen h.video fh body len <;> simp
  · have hseg : c.segment = 3 := by
      rw [hu.codec] at hcodec
      simp only [cutAt, hcodec] at hc
      rw [← Option.some.inj hc]
    have hstays : ∀ off, c.Stays dg.length off
        (frameHeadAt (recvBuf dg)).framelength.toNat ↔
          (frameHeadAt (recvBuf dg)).framelength.toNat ≤ bodyRoom := by
      intro off
      rw [Cut.Stays, hseg]
      exact Iff.rfl
    rw [hstays, ← hstays h.audio.offset, ← haudio, pkgPlacedInFrameAudio]
    cases placeSegment maxAudioLen h.audio fh body len <;> simp
  · rw [hu.codec] at hcodec
    simp only [cutAt, hcodec] at hc
    exact absurd hc (by simp)

/-! ### The loop -/

theorem step_of_stopped {s : Receiver} (hs : s.status ≠ .running) (dg : Datagram) :
    step s dg = (s, none) := by
  rw [step, if_pos hs]

/-- **One datagram** leaves the thread in its loop exactly when it fits. -/
theorem step_running_iff {s : Receiver} (hs : s.status = .running) (hw : s.handle.Within)
    {dg : Datagram} (hn : dg.bytes.length ≤ maxUdpLen) :
    (step s dg).1.status = .running ↔ Fits s dg := by
  have htake : dg.bytes.take maxUdpLen = dg.bytes := List.take_of_length_le hn
  simp only [step, hs, ne_eq, not_true_eq_false, if_false, htake]
  by_cases hshort : dg.bytes.length < 28
  · rw [if_pos hshort]
    refine iff_of_false (by simp) fun h => ?_
    exact absurd h.headed (Nat.not_le.mpr hshort)
  · rw [if_neg hshort]
    have hheaded : 28 ≤ dg.bytes.length := Nat.le_of_not_lt hshort
    cases hc : cutAt (recvBuf dg.bytes) with
    | none =>
      -- a datagram of an unknown codec is not copied anywhere
      have hcodec : setDataCodec (frameHeadAt (recvBuf dg.bytes)) = .unknown := by
        simp only [cutAt] at hc
        split at hc <;> rename_i hcodec
        · split at hc
          · split at hc <;> exact absurd hc (by simp)
          · exact absurd hc (by simp)
        · exact absurd hc (by simp)
        · exact absurd hc (by simp)
        · exact hcodec
      have hfits : Fits s dg := ⟨hheaded, by simp [hc], by simp [hc]⟩
      simp only [unpack, hcodec, udpRecvMediaFrameData]
      exact iff_of_true trivial hfits
    | some c =>
      have hfits : Fits s dg ↔ c.Room dg.bytes.length ∧ c.Stays dg.bytes.length
          s.handle.video.offset (frameHeadAt (recvBuf dg.bytes)).framelength.toNat := by
        constructor
        · intro h
          exact ⟨h.room c hc, h.stays c hc⟩
        · rintro ⟨hroom, hstays⟩
          refine ⟨hheaded, fun c' hc' => ?_, fun c' hc' => ?_⟩
          · obtain rfl := Option.some.inj (hc.symm.trans hc')
            exact hroom
          · obtain rfl := Option.some.inj (hc.symm.trans hc')
            exact hstays
      rw [hfits]
      rcases unpack_of_cut hn hc s.tempTime with ⟨hun, hroom⟩ | ⟨fh, body, len, t, hun, hroom, hu⟩
      · rw [hun]
        exact iff_of_false (by simp) fun h => hroom h.1
      · have hmedia := udpRecvMediaFrameData_eq_none_iff hw hc hu hroom body dg.now
        rw [hun]
        cases hm : udpRecvMediaFrameData s.handle fh body len dg.now with
        | none =>
          simp only [hm]
          exact iff_of_false (by simp) fun h => hmedia.mp hm h.2
        | some r =>
          have hstays : c.Stays dg.bytes.length s.handle.video.offset
              (frameHeadAt (recvBuf dg.bytes)).framelength.toNat := by
            by_contra h
            rw [hmedia.mpr h] at hm
            exact absurd hm (by simp)
          obtain ⟨h, ok⟩ := r
          simp only [hm]
          cases ok <;> exact iff_of_true rfl ⟨hroom, hstays⟩

theorem final_of_stopped {s : Receiver} (hs : s.status ≠ .running) (dgs : List Datagram) :
    Run.final step s dgs = s := by
  induction dgs with
  | nil => rfl
  | cons dg dgs ih => rw [Run.final_cons, step_of_stopped hs, ih]

/-- **The thread stays in its loop**, and every copy within its buffers, exactly when every datagram
fits in the state it meets. -/
theorem running_iff_fits {s : Receiver} (hs : s.status = .running) (hw : s.handle.Within)
    {dgs : List Datagram}
    (hn : ∀ dg ∈ dgs, 1 ≤ dg.bytes.length ∧ dg.bytes.length ≤ maxUdpLen) :
    (Run.final step s dgs).status = .running ↔ Run.Along step Fits s dgs := by
  induction dgs generalizing s with
  | nil => exact iff_of_true hs trivial
  | cons dg dgs ih =>
    have hstep := step_running_iff hs hw (hn dg (List.mem_cons_self ..)).2
    rw [Run.final_cons, Run.Along, ← hstep]
    constructor
    · intro h
      have hs' : (step s dg).1.status = .running := by
        by_contra hstop
        rw [final_of_stopped hstop] at h
        exact hstop h
      exact ⟨hs', (ih hs' (hw.step dg) fun d hd => hn d (List.mem_cons_of_mem _ hd)).mp h⟩
    · rintro ⟨hs', h⟩
      exact (ih hs' (hw.step dg) fun d hd => hn d (List.mem_cons_of_mem _ hd)).mpr h

/-- A datagram of an H.264 frame of length `0` that is cut off after `n` bytes, with `b` at the
place of the FU indicator. -/
def shortDatagram (b : Byte) (n : ℕ) : Datagram := ⟨(List.replicate 28 0 ++ [b, 0]).take n, 0⟩

theorem running_iff_fits_sample :
    (Run.final step .init [shortDatagram 0x41 30, shortDatagram 28 30]).status = .running ↔
      Run.Along step Fits .init [shortDatagram 0x41 30, shortDatagram 28 30] :=
  running_iff_fits rfl within_init (by decide)

/-- **Short datagrams do harm.** A fragment without its FU header is copied by a length of `-1`, and
a datagram without its frame header ends the thread. -/
theorem short_datagrams_harm :
    (step .init (shortDatagram 28 29)).1.status = .faulty ∧
      (step .init (shortDatagram 28 1)).1.status = .exited := by
  decide

end Rtp

end ReachEdukit
