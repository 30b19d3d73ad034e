import ReachEdukit.Rtp.Recv

/-!
# The video half of the receiver reassembles fragments

Seen from its video buffer, the receiver is the reassembler of `Reassembly`: a video datagram that
unpacks is a fragment, and a turn of the loop accepts it. What the receiver knows beyond that — the
frame header, the times, the audio half — does not touch the buffer.

## Main definitions

* `Receiver.store` — the video buffer of a receiver, broken once the thread is out of its loop
* `Carries` — a datagram carries a fragment

## Main results

* `step_of_carries` — a turn that reads a fragment accepts it
* `run_of_carries` — so does a run, fragment by fragment
-/

namespace ReachEdukit

namespace Rtp

open Memory Reassembly

/-- The video buffer of a receiver. -/
def Receiver.store (s : Receiver) : Store Byte :=
  ⟨s.handle.video.data, s.handle.video.offset, decide (s.status ≠ .running)⟩

/-- `udp_recv_segment_t`, the number of a flag. -/
def segment : Flag → ℕ
  | .middle => 0
  | .last => 1
  | .start => 2
  | .whole => 3

/-- The frame header `fh` and the part in `body` say what the fragment `f` says. An independent
part is copied by the length of its frame, any other by its own. -/
structure FreameHead.Describes (fh : FreameHead) (body : Buffer) (len : ℕ) (f : Fragment Byte) :
    Prop where
  /-- The codec is a video codec. -/
  codec : fh.mDataCodec = .h264 ∨ fh.mDataCodec = .jpeg
  /-- The segment is the flag. -/
  segment : fh.mDwSegment = segment f.flag
  /-- The length of the frame. -/
  total : fh.mFrameLength.toNat = f.total
  /-- The part is within `frame_buf`. -/
  room : f.part.length ≤ bodyRoom
  /-- It is there. -/
  part : window body 0 f.part.length = f.part
  /-- Its length is known, unless it is independent. -/
  len : f.flag ≠ .whole → len = f.part.length
  /-- An independent part is the frame. -/
  whole : f.flag = .whole → f.part.length = f.total

/-- A datagram that unpacks to the fragment `f`, whatever `temp_time` is. -/
structure Carries (dg : List Byte) (f : Fragment Byte) : Prop where
  /-- The datagram has its headers. -/
  headed : 28 ≤ dg.length
  /-- It fits `recv_buf`. -/
  fits : dg.length ≤ maxUdpLen
  /-- It unpacks to the fragment. -/
  unpacks : ∀ tempTime, ∃ fh body len tempTime',
    unpack tempTime (recvBuf dg) dg.length = some (fh, body, len, tempTime') ∧
      fh.Describes body len f

/-- A copy into the video buffer is a `put`. -/
theorem memcpy_put {b : FrameBuf} {body : Buffer} {off next : ℕ} {bs : List Byte}
    (hroom : bs.length ≤ bodyRoom) (hpart : window body 0 bs.length = bs) :
    (memcpy b.data maxFrameLen off body bodyRoom 0 bs.length).elim
        (Store.mk b.data b.offset true) (fun data => ⟨data, next, false⟩) =
      Store.put maxFrameLen ⟨b.data, b.offset, false⟩ off bs next := by
  rw [Store.put, memcpy]
  by_cases h : off + bs.length ≤ maxFrameLen
  · rw [if_pos h, if_pos ⟨by omega, by omega, by omega⟩, Int.toNat_natCast, hpart]
    rfl
  · rw [if_neg h, if_neg (by omega)]
    rfl

/-- Placing a part is accepting its fragment. -/
theorem placeSegment_eq {b : FrameBuf} {fh : FreameHead} {body : Buffer} {len : ℕ}
    {f : Fragment Byte} (hb : b.offset ≤ maxFrameLen) (hd : fh.Describes body len f) :
    accept maxFrameLen ⟨b.data, b.offset, false⟩ f =
      (placeSegment maxFrameLen b fh body len).elim (⟨b.data, b.offset, true⟩, none) fun p =>
        (⟨p.buf.data, p.buf.offset, false⟩,
          if p.code = .continue then some (window p.buf.data 0 f.total) else none) := by
  obtain ⟨flag, part, total⟩ := f
  obtain ⟨-, hseg, htot, hroom, hpart, hlen, hwhole⟩ := hd
  simp only at hseg htot hroom hpart hlen hwhole
  have hsmall : part.length < 2 ^ 32 ∧ b.offset + part.length < 2 ^ 32 := by
    simp only [bodyRoom, maxUdpLen, maxFrameLen] at hroom hb
    omega
  have hput : ∀ off next : ℕ, Store.put maxFrameLen ⟨b.data, b.offset, false⟩ off part next =
      (memcpy b.data maxFrameLen off body bodyRoom 0 part.length).elim
        (Store.mk b.data b.offset true) fun data => ⟨data, next, false⟩ :=
    fun off next => (memcpy_put hroom hpart).symm
  cases flag with
  | middle =>
    obtain rfl := hlen (by simp)
    simp only [placeSegment, hseg, segment, htot, accept, Bool.false_eq_true, if_false, hput,
      Nat.mod_eq_of_lt hsmall.2]
    split
    · simp
    · cases memcpy b.data maxFrameLen b.offset body bodyRoom 0 part.length <;> simp
  | last =>
    obtain rfl := hlen (by simp)
    simp only [placeSegment, hseg, segment, htot, accept, Bool.false_eq_true, if_false, hput,
      Nat.mod_eq_of_lt hsmall.2]
    split
    · simp
    · cases memcpy b.data maxFrameLen b.offset body bodyRoom 0 part.length <;>
        simp [Store.handOut]
  | start =>
    obtain rfl := hlen (by simp)
    simp only [placeSegment, hseg, segment, htot, accept, Bool.false_eq_true, if_false, hput,
      Nat.mod_eq_of_lt hsmall.1]
    split
    · simp
    · cases memcpy b.data maxFrameLen 0 body bodyRoom 0 part.length <;> simp
  | whole =>
    have hw := hwhole rfl
    simp only [placeSegment, hseg, segment, htot, accept, Bool.false_eq_true, if_false, hput, ← hw]
    cases memcpy b.data maxFrameLen 0 body bodyRoom 0 part.length <;> simp [Store.handOut]

/-- What `udp_recv_media_frame_data` does with a part of a video frame. -/
theorem udpRecvMediaFrameData_video (h : Handle) {fh : FreameHead}
    (hv : fh.mDataCodec = .h264 ∨ fh.mDataCodec = .jpeg) (body : Buffer) (len : ℕ)
    (now : BitVec 32) :
    ∃ g : Placed → Handle, (∀ p, (g p).video = p.buf) ∧
      udpRecvMediaFrameData h fh body len now =
        (placeSegment maxFrameLen h.video fh body len).map fun p =>
          (g p, decide (p.code = .continue)) := by
  refine ⟨fun p => { h with
    videoTime := h.videoTime.advance
      (if fh.mDataCodec = .h264 then jumpsFar fh.mTimeTick else jumpsBack fh.mTimeTick)
      fh.mTimeTick now
    video := p.buf
    streamInfo := { h.streamInfo with
      videoLostNum :=
        if p.lost then h.streamInfo.videoLostNum + 1 else h.streamInfo.videoLostNum } },
    fun _ => rfl, ?_⟩
  rcases hv with hv | hv <;> simp only [udpRecvMediaFrameData, hv, pkgPlacedInFrame] <;>
    cases placeSegment maxFrameLen h.video fh body len <;> rfl

/-- A turn leaves both buffers as they are, or places a part. -/
theorem step_cases (s : Receiver) (dg : Datagram) :
    (step s dg).1.handle = s.handle ∨
      ∃ fh body len h ok, udpRecvMediaFrameData s.handle fh body len dg.now = some (h, ok) ∧
        (step s dg).1.handle.video = h.video ∧ (step s dg).1.handle.audio = h.audio := by
  rw [step]
  split
  · exact .inl rfl
  · simp only
    split
    · exact .inl rfl
    · cases unpack s.tempTime (recvBuf (dg.bytes.take maxUdpLen))
          (dg.bytes.take maxUdpLen).length with
      | none => exact .inl rfl
      | some r =>
        obtain ⟨fh, body, len, tempTime⟩ := r
        simp only
        cases hm : udpRecvMediaFrameData s.handle fh body len dg.now with
        | none => exact .inl rfl
        | some p =>
          obtain ⟨h, ok⟩ := p
          refine .inr ⟨fh, body, len, h, ok, hm, ?_⟩
          cases ok with
          | false => exact ⟨rfl, rfl⟩
          | true =>
            have hout : (h.handOut fh).1.video = h.video ∧ (h.handOut fh).1.audio = h.audio := by
              rw [Handle.handOut]
              cases fh.mDataCodec <;> exact ⟨rfl, rfl⟩
            exact hout

/-- The running offset of a frame buffer never leaves it. -/
theorem placeSegment_offset_le {limit : ℕ} {b : FrameBuf} {fh : FreameHead} {body : Buffer}
    {part : ℕ} {p : Placed} (hb : b.offset ≤ maxFrameLen)
    (h : placeSegment limit b fh body part = some p) : p.buf.offset ≤ maxFrameLen := by
  simp only [placeSegment] at h
  have hmod : ∀ n, n % 2 ^ 32 ≤ n := fun n => Nat.mod_le n (2 ^ 32)
  split at h
  · split at h
    · obtain rfl := Option.some.inj h
      exact hb
    · obtain ⟨m, hm, h⟩ := Option.bind_eq_some_iff.mp h
      obtain ⟨⟨-, hle, -⟩, -⟩ := memcpy_eq_some hm
      obtain rfl := Option.some.inj h
      exact (hmod part).trans (by omega)
  · split at h
    · obtain rfl := Option.some.inj h
      exact Nat.zero_le _
    · obtain ⟨m, hm, h⟩ := Option.bind_eq_some_iff.mp h
      obtain ⟨⟨-, hle, -⟩, -⟩ := memcpy_eq_some hm
      obtain rfl := Option.some.inj h
      exact (hmod (b.offset + part)).trans (by omega)
  · split at h
    · obtain rfl := Option.some.inj h
      exact Nat.zero_le _
    · obtain ⟨m, -, h⟩ := Option.bind_eq_some_iff.mp h
      obtain rfl := Option.some.inj h
      exact Nat.zero_le _
  · obtain ⟨m, -, h⟩ := Option.bind_eq_some_iff.mp h
    obtain rfl := Option.some.inj h
    exact hb
  · obtain rfl := Option.some.inj h
    exact hb

/-- Both running offsets are within their buffers. -/
structure Handle.Within (h : Handle) : Prop where
  /-- The video offset. -/
  video : h.video.offset ≤ maxFrameLen
  /-- The audio offset. -/
  audio : h.audio.offset ≤ maxFrameLen

theorem Handle.Within.media {h h' : Handle} {fh : FreameHead} {body : Buffer} {len : ℕ}
    {now : BitVec 32} {ok : Bool} (hw : h.Within)
    (hm : udpRecvMediaFrameData h fh body len now = some (h', ok)) : h'.Within := by
  have hvideo : ∀ r, pkgPlacedInFrame h fh body len now = some r → r.1.Within := by
    intro r hr
    obtain ⟨p, hp, hr⟩ := Option.bind_eq_some_iff.mp hr
    obtain rfl := Option.some.inj hr
    exact ⟨placeSegment_offset_le hw.video hp, hw.audio⟩
  have haudio : ∀ r, pkgPlacedInFrameAudio h fh body len now = some r → r.1.Within := by
    intro r hr
    obtain ⟨p, hp, hr⟩ := Option.bind_eq_some_iff.mp hr
    obtain rfl := Option.some.inj hr
    exact ⟨hw.video, placeSegment_offset_le hw.audio hp⟩
  rw [udpRecvMediaFrameData] at hm
  split at hm
  · obtain ⟨r, hr, hm⟩ := Option.bind_eq_some_iff.mp hm
    obtain ⟨rfl, -⟩ := Prod.mk.inj (Option.some.inj hm)
    exact hvideo r hr
  · obtain ⟨r, hr, hm⟩ := Option.bind_eq_some_iff.mp hm
    obtain ⟨rfl, -⟩ := Prod.mk.inj (Option.some.inj hm)
    exact hvideo r hr
  · obtain ⟨r, hr, hm⟩ := Option.bind_eq_some_iff.mp hm
    obtain ⟨rfl, -⟩ := Prod.mk.inj (Option.some.inj hm)
    exact haudio r hr
  · obtain ⟨rfl, -⟩ := Prod.mk.inj (Option.some.inj hm)
    exact hw

/-- So they are after every datagram. -/
theorem Handle.Within.step {s : Receiver} (hs : s.handle.Within) (dg : Datagram) :
    (step s dg).1.handle.Within := by
  rcases step_cases s dg with h | ⟨fh, body, len, h, ok, hm, hv, ha⟩
  · rw [h]
    exact hs
  · have hw := hs.media hm
    exact ⟨by rw [hv]; exact hw.video, by rw [ha]; exact hw.audio⟩

theorem within_init : Handle.init.Within := ⟨Nat.zero_le _, Nat.zero_le _⟩

/-- **A turn that reads a fragment accepts it.** -/
theorem step_of_carries {s : Receiver} {dg : Datagram} {f : Fragment Byte}
    (hs : s.handle.video.offset ≤ maxFrameLen) (hc : Carries dg.bytes f) :
    (step s dg).1.store = (accept maxFrameLen s.store f).1 ∧
      (step s dg).2.map Delivered.frame = (accept maxFrameLen s.store f).2 := by
  by_cases hrun : s.status = .running
  · obtain ⟨fh, body, len, tempTime', hun, hd⟩ := hc.unpacks s.tempTime
    have hstore : s.store = ⟨s.handle.video.data, s.handle.video.offset, false⟩ := by
      simp [Receiver.store, hrun]
    have htake : dg.bytes.take maxUdpLen = dg.bytes := List.take_of_length_le hc.fits
    have hacc := placeSegment_eq hs hd
    rw [hstore, hacc]
    simp only [step, hrun, ne_eq, not_true_eq_false, if_false, htake,
      if_neg (Nat.not_lt.mpr hc.headed), hun]
    obtain ⟨g, hg, hmedia⟩ := udpRecvMediaFrameData_video s.handle hd.codec body len dg.now
    have hout : ∀ h : Handle, (h.handOut fh).1.video = h.video ∧
        (h.handOut fh).2.map Delivered.frame =
          some (window h.video.data 0 fh.mFrameLength.toNat) := by
      intro h
      rcases hd.codec with hcod | hcod <;> simp [Handle.handOut, hcod, Delivered.frame]
    rw [hmedia]
    cases hp : placeSegment maxFrameLen s.handle.video fh body len with
    | none => simp [Receiver.store]
    | some p =>
      by_cases hcode : p.code = .continue
      · simp only [Option.map_some, hcode, decide_true, Option.elim_some, if_true]
        refine ⟨?_, ?_⟩
        · simp only [Receiver.store, (hout _).1, hg]
          simp
        · simp only [(hout _).2, hd.total, hg]
      · simp only [Option.map_some, hcode, decide_false, Option.elim_some, if_false]
        simp [Receiver.store, hg]
  · have hbroken : s.store.broken = true := by simp [Receiver.store, hrun]
    simp only [step, hrun, ne_eq, not_false_eq_true, if_true, accept, hbroken]
    simp

/-- **So does a run**, fragment by fragment. -/
theorem run_of_carries {s : Receiver} {dgs : List Datagram} {fs : List (Fragment Byte)}
    (hs : s.handle.video.offset ≤ maxFrameLen)
    (hc : List.Forall₂ (fun dg f => Carries dg.bytes f) dgs fs) :
    (Run.final step s dgs).store = Run.final (accept maxFrameLen) s.store fs ∧
      (Run.outs step s dgs).map (Option.map Delivered.frame) =
        Run.outs (accept maxFrameLen) s.store fs := by
  induction hc generalizing s with
  | nil => exact ⟨rfl, rfl⟩
  | @cons dg f dgs fs hdg _ ih =>
    obtain ⟨hstore, hout⟩ := step_of_carries hs hdg
    have hs' : (step s dg).1.store.offset ≤ maxFrameLen := by
      rw [hstore]
      exact accept_offset_le hs f
    obtain ⟨hfinal, houts⟩ := ih hs'
    rw [hstore] at hfinal houts
    exact ⟨hfinal, by rw [Run.outs_cons, Run.outs_cons, List.map_cons, hout, houts]⟩

/-! ### The fragment of a datagram -/

/-- The fragment a video datagram carries: what it unpacks to. There is none when a copy leaves
its buffers or the segment is not one of the four. -/
def fragmentOf (dg : List Byte) : Option (Fragment Byte) :=
  match unpack 0 (recvBuf dg) dg.length with
  | none => none
  | some (fh, body, len, _) =>
    let total := fh.mFrameLength.toNat
    match fh.mDwSegment with
    | 0 => some ⟨.middle, window body 0 len, total⟩
    | 1 => some ⟨.last, window body 0 len, total⟩
    | 2 => some ⟨.start, window body 0 len, total⟩
    | 3 => if total ≤ bodyRoom then some ⟨.whole, window body 0 total, total⟩ else none
    | _ => none

/-- The codec a datagram names. -/
def codecOf (dg : List Byte) : DataCodec := setDataCodec (frameHeadAt (recvBuf dg))

/-- A datagram of the size and the codec of a video packet. -/
structure IsVideo (dg : List Byte) : Prop where
  /-- It has its headers. -/
  headed : 28 ≤ dg.length
  /-- It fits `recv_buf`. -/
  fits : dg.length ≤ maxUdpLen
  /-- It names a video codec. -/
  codec : codecOf dg = .h264 ∨ codecOf dg = .jpeg

/-- A part that unpacks is within `frame_buf`. -/
theorem getVideoFrameData_len {recv body : Buffer} {n len : ℕ} {flag : ℤ}
    (h : getVideoFrameData recv n = some (flag, body, len)) : len ≤ bodyRoom := by
  rw [getVideoFrameData] at h
  split at h
  · split at h
    · obtain ⟨m, hm, h⟩ := Option.bind_eq_some_iff.mp h
      obtain ⟨⟨hpos, hle, -⟩, -⟩ := memcpy_eq_some hm
      simp only [Option.pure_def, Option.some.injEq, Prod.mk.injEq] at h
      omega
    · obtain ⟨m, hm, h⟩ := Option.bind_eq_some_iff.mp h
      obtain ⟨⟨hpos, hle, -⟩, -⟩ := memcpy_eq_some hm
      simp only [Option.pure_def, Option.some.injEq, Prod.mk.injEq] at h
      omega
  · obtain ⟨m, hm, h⟩ := Option.bind_eq_some_iff.mp h
    obtain ⟨⟨hpos, hle, -⟩, -⟩ := memcpy_eq_some hm
    simp only [Option.pure_def, Option.some.injEq, Prod.mk.injEq] at h
    omega

theorem getJpegFrameData_len {recv body : Buffer} {n len : ℕ}
    (h : getJpegFrameData recv n = some (body, len)) : len ≤ bodyRoom := by
  obtain ⟨m, hm, h⟩ := Option.bind_eq_some_iff.mp h
  obtain ⟨⟨hpos, hle, -⟩, -⟩ := memcpy_eq_some hm
  simp only [Option.pure_def, Option.some.injEq, Prod.mk.injEq] at h
  omega

/-- What a video datagram unpacks to does not depend on `temp_time`. -/
theorem unpack_video {recv : Buffer}
    (hv : setDataCodec (frameHeadAt recv) = .h264 ∨ setDataCodec (frameHeadAt recv) = .jpeg)
    (n : ℕ) :
    (∀ t, unpack t recv n = none) ∨
      ∃ fh body len, (∀ t, ∃ t', unpack t recv n = some (fh, body, len, t')) ∧
        (fh.mDataCodec = .h264 ∨ fh.mDataCodec = .jpeg) ∧ len ≤ bodyRoom := by
  rcases hv with hv | hv
  · cases hd : getVideoFrameData recv n with
    | none => exact .inl fun t => by simp [unpack, hv, hd]
    | some r =>
      refine .inr ⟨h264Head (frameHeadAt recv) (rtpHeadAt recv) r.1, r.2.1, r.2.2,
        fun t => ⟨(h264Head (frameHeadAt recv) (rtpHeadAt recv) r.1).mTimeTick, ?_⟩, .inl rfl,
        getVideoFrameData_len hd⟩
      simp only [unpack, hv, hd]
      rfl
  · cases hd : getJpegFrameData recv n with
    | none => exact .inl fun t => by simp [unpack, hv, hd]
    | some r =>
      refine .inr ⟨getJpegFrameDataHead { mDataCodec := .jpeg } (frameHeadAt recv)
        (rtpHeadAt recv), r.1, r.2, fun t => ⟨t, ?_⟩, .inr rfl, getJpegFrameData_len hd⟩
      simp only [unpack, hv, hd]
      rfl

/-- A video datagram carries its fragment. -/
theorem carries_of_fragmentOf {dg : List Byte} {f : Fragment Byte} (hdg : IsVideo dg)
    (h : fragmentOf dg = some f) : Carries dg f := by
  refine ⟨hdg.headed, hdg.fits, ?_⟩
  rcases unpack_video hdg.codec dg.length with hn | ⟨fh, body, len, hun, hcodec, hlen⟩
  · simp [fragmentOf, hn] at h
  · intro t
    obtain ⟨t', ht⟩ := hun t
    obtain ⟨t₀, h₀⟩ := hun 0
    refine ⟨fh, body, len, t', ht, ?_⟩
    simp only [fragmentOf, h₀] at h
    split at h <;> rename_i hseg
    · obtain rfl := Option.some.inj h
      exact ⟨hcodec, hseg, rfl, by simpa using hlen, by simp, by simp, by simp⟩
    · obtain rfl := Option.some.inj h
      exact ⟨hcodec, hseg, rfl, by simpa using hlen, by simp, by simp, by simp⟩
    · obtain rfl := Option.some.inj h
      exact ⟨hcodec, hseg, rfl, by simpa using hlen, by simp, by simp, by simp⟩
    · split at h
      · rename_i htot
        obtain rfl := Option.some.inj h
        exact ⟨hcodec, hseg, rfl, by simpa using htot, by simp, by simp, by simp⟩
      · exact absurd h (by simp)
    · exact absurd h (by simp)

/-- Video datagrams carry their fragments. -/
theorem carries_of_map {dgs : List Datagram} {fs : List (Fragment Byte)}
    (hdgs : ∀ dg ∈ dgs, IsVideo dg.bytes)
    (h : (dgs.map Datagram.bytes).map fragmentOf = fs.map some) :
    List.Forall₂ (fun dg f => Carries dg.bytes f) dgs fs := by
  induction dgs generalizing fs with
  | nil =>
    cases fs with
    | nil => exact .nil
    | cons f fs => simp at h
  | cons dg dgs ih =>
    cases fs with
    | nil => simp at h
    | cons f fs =>
      simp only [List.map_cons, List.cons.injEq] at h
      obtain ⟨hf, hfs⟩ := h
      have hdg : Carries dg.bytes f := carries_of_fragmentOf (hdgs dg (List.mem_cons_self ..)) hf
      exact .cons hdg (ih (fun d hd => hdgs d (List.mem_cons_of_mem _ hd)) hfs)

/-- A video datagram without a fragment makes the receiver hand out nothing. -/
theorem step_of_no_fragment {s : Receiver} {dg : Datagram} (hdg : IsVideo dg.bytes)
    (h : fragmentOf dg.bytes = none) : (step s dg).2 = none := by
  have htake : dg.bytes.take maxUdpLen = dg.bytes := List.take_of_length_le hdg.fits
  rw [step]
  split
  · rfl
  · simp only [htake]
    split
    · rfl
    · rcases unpack_video hdg.codec dg.bytes.length with hn | ⟨fh, body, len, hun, hcodec, hlen⟩
      · rw [hn]
      · obtain ⟨t', ht⟩ := hun s.tempTime
        obtain ⟨t₀, h₀⟩ := hun 0
        rw [ht]
        obtain ⟨g, -, hmedia⟩ := udpRecvMediaFrameData_video s.handle hcodec body len dg.now
        have hplace : ∀ p ∈ placeSegment maxFrameLen s.handle.video fh body len,
            p.code ≠ .continue := by
          intro p hp
          simp only [fragmentOf, h₀] at h
          split at h <;> rename_i hseg
          · exact absurd h (by simp)
          · exact absurd h (by simp)
          · exact absurd h (by simp)
          · split at h
            · exact absurd h (by simp)
            · rename_i htot
              simp only [placeSegment, hseg] at hp
              have hnone : memcpy s.handle.video.data maxFrameLen 0 body bodyRoom 0
                  fh.mFrameLength.toNat = none := memcpy_eq_none_iff.mpr (by omega)
              simp [hnone] at hp
          · -- a segment that is none of the four
            simp only [placeSegment] at hp
            obtain rfl := Option.some.inj hp
            simp
        simp only [hmedia]
        cases hp : placeSegment maxFrameLen s.handle.video fh body len with
        | none => rfl
        | some p => simp [hplace p hp]

end Rtp

end ReachEdukit
