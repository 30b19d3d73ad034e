import ReachEdukit.Rtp.RoundTrip

/-!
# Lost packets

Pictures are sent one after the other and some of their packets are lost. The receiver keeps an
offset and compares it with the length of the frame, but only for an excess: a last part is accepted
when the frame is not longer than it should be, and nothing is said of a frame that is shorter. So a
frame with a hole in it is handed out, with bytes of an older one at its end.

What can be said is what saves a frame with a hole: its last part does not arrive, or it is refused
because the offset is too far on already.

## Main definitions

* `Picture`, `send` — what is sent
* `Arrival` — a picture, its packets and those that arrive
* `Arrival.Safe` — the picture arrives whole, or the receiver cannot complete it

## Main results

* `delivered_was_sent` — if all arrivals are safe, every frame handed out was sent
* `complete_jpeg`, `complete_h264` — a picture whose packets all arrive is whole
-/

namespace ReachEdukit

namespace Rtp

open Memory Reassembly

/-! ### What is sent -/

/-- A picture, with the head its caller gives it. -/
structure Picture where
  /-- It is a JPEG picture, not an H.264 frame. -/
  jpeg : Bool
  /-- Its bytes. -/
  bytes : List Byte
  /-- Its head. -/
  head : FrameHead
  /-- The time given with it. -/
  time : BitVec 32
  /-- The head names the codec. -/
  codec : head.codec = if jpeg then 2 else 0
  /-- The head has the length. -/
  length : head.framelength.toNat = bytes.length
  /-- An H.264 frame has a start code and a NAL unit. -/
  coded : jpeg = false → 5 ≤ bytes.length

/-- One picture sent. -/
def send (h : BuildInfo) (p : Picture) : BuildInfo × List (List Byte) :=
  if p.jpeg then buildJpegData h p.bytes 1380 p.time p.head
  else buildVideoData h p.bytes 1380 p.time p.head

theorem isVideo_send (h : BuildInfo) (p : Picture) : ∀ dg ∈ (send h p).2, IsVideo dg := by
  have hcodec := p.codec
  rw [send]
  cases hj : p.jpeg with
  | true =>
    rw [hj, if_pos rfl] at hcodec
    exact isVideo_buildJpegData hcodec
  | false =>
    rw [hj, if_neg (by simp)] at hcodec
    exact isVideo_buildVideoData hcodec

/-- A picture on the network. -/
structure Arrival where
  /-- The picture. -/
  picture : Picture
  /-- Its packets. -/
  packets : List (List Byte)
  /-- The datagrams that arrive. -/
  kept : List Datagram
  /-- They are some of the packets, in order. -/
  sub : (kept.map Datagram.bytes).Sublist packets

/-- The packets are those a sender makes that starts with `h`. -/
def SentFrom (h : BuildInfo) (arrivals : List Arrival) : Prop :=
  arrivals.map Arrival.packets = Run.outs send h (arrivals.map Arrival.picture)

theorem SentFrom.isVideo {h : BuildInfo} {arrivals : List Arrival} (hsent : SentFrom h arrivals) :
    ∀ a ∈ arrivals, ∀ dg ∈ a.kept, IsVideo dg.bytes := by
  have hall : ∀ ps ∈ Run.outs send h (arrivals.map Arrival.picture), ∀ p ∈ ps, IsVideo p :=
    Run.outs_forall (I := fun _ => True) (fun h _ p _ => ⟨trivial, isVideo_send h p⟩) trivial
  intro a ha dg hdg
  have hpackets : a.packets ∈ Run.outs send h (arrivals.map Arrival.picture) := by
    rw [← hsent]
    exact List.mem_map_of_mem ha
  exact hall a.packets hpackets dg.bytes (a.sub.subset (List.mem_map_of_mem hdg))

/-! ### What is safe -/

/-- All packets of the picture arrive, and they are a train of it. -/
structure Arrival.Complete (a : Arrival) (s : Receiver) : Prop where
  /-- No packet is lost. -/
  all : a.kept.map Datagram.bytes = a.packets
  /-- The picture fits the buffer. -/
  fits : a.picture.bytes.length ≤ maxFrameLen
  /-- The packets make it up. -/
  train : ∃ fs, a.packets.map fragmentOf = fs.map some ∧
    (IsTrain a.picture.bytes fs ∨ s.store.offset = 0 ∧ IsTail [] a.picture.bytes fs)

/-- The datagram does not complete a frame: it is not an independent part, and if it is a last one
the offset is too far on for it. -/
def Refused (s : Receiver) (dg : Datagram) : Prop :=
  s.store.broken = true ∨ ∀ f, fragmentOf dg.bytes = some f →
    f.flag ≠ .whole ∧ (f.flag = .last → f.total < s.store.offset + f.part.length)

/-- The picture arrives whole, or nothing that arrives of it completes a frame. -/
def Arrival.Safe (s : Receiver) (a : Arrival) : Prop :=
  a.Complete s ∨ Run.Along step Refused s a.kept

/-- The receiver, picture by picture. -/
def receive (s : Receiver) (a : Arrival) : Receiver × List (Option Delivered) :=
  Run.batch step s a.kept

theorem step_of_refused {s : Receiver} {dg : Datagram} (hs : s.handle.Within)
    (hv : IsVideo dg.bytes) (hr : Refused s dg) : (step s dg).2 = none := by
  cases hf : fragmentOf dg.bytes with
  | none => exact step_of_no_fragment hv hf
  | some f =>
    obtain ⟨-, hout⟩ := step_of_carries hs.video (carries_of_fragmentOf hv hf)
    have hnone : (accept maxFrameLen s.store f).2 = none := by
      rcases hr with hb | hr
      · rw [accept, if_pos hb]
      · obtain ⟨hw, hl⟩ := hr f hf
        exact accept_out_of_refused hw hl
    rw [hnone] at hout
    exact Option.map_eq_none_iff.mp hout

/-- Refused datagrams hand out nothing. -/
theorem outs_of_refused {s : Receiver} {dgs : List Datagram} (hs : s.handle.Within)
    (hv : ∀ dg ∈ dgs, IsVideo dg.bytes) (hr : Run.Along step Refused s dgs) :
    ∀ o ∈ Run.outs step s dgs, o = none := by
  induction dgs generalizing s with
  | nil => simp
  | cons dg dgs ih =>
    intro o ho
    rcases List.mem_cons.mp ho with rfl | ho
    · exact step_of_refused hs (hv dg (List.mem_cons_self ..)) hr.1
    · exact ih (hs.step dg) (fun d hd => hv d (List.mem_cons_of_mem _ hd)) hr.2 o ho

/-- A picture that arrives whole hands out itself, and only itself. -/
theorem outs_of_complete {s : Receiver} {a : Arrival} (hs : s.handle.Within)
    (hv : ∀ dg ∈ a.kept, IsVideo dg.bytes) (hc : a.Complete s) :
    ∀ d, some d ∈ Run.outs step s a.kept → d.frame = a.picture.bytes := by
  obtain ⟨fs, hfs, htrain⟩ := hc.train
  have hcarries : List.Forall₂ (fun dg f => Carries dg.bytes f) a.kept fs :=
    carries_of_map hv (by rw [hc.all, hfs])
  obtain ⟨-, houts⟩ := run_of_carries hs.video hcarries
  intro d hd
  have hmem : some d.frame ∈ Run.outs (accept maxFrameLen) s.store fs := by
    rw [← houts]
    exact List.mem_map_of_mem hd
  cases hb : s.store.broken with
  | true =>
    -- a thread that has left its loop hands out nothing
    have hnone : ∀ o ∈ Run.outs (accept maxFrameLen) s.store fs, o = none :=
      Run.outs_forall (I := fun t => t.broken = true)
        (fun t ht f _ => by simp only [accept, ht, if_true, and_self]) hb
    exact absurd (hnone _ hmem) (by simp)
  | false =>
    have hout : Run.outs (accept maxFrameLen) s.store fs =
        List.replicate (fs.length - 1) none ++ [some a.picture.bytes] := by
      rcases htrain with ht | ⟨hoff, ht⟩
      · exact (outs_train hb ht hc.fits).1
      · exact (outs_tail (holds_nil hb hoff) ht hc.fits).1
    rw [hout] at hmem
    simpa using hmem

/-! ### The run -/

/-- What one picture leaves behind and hands out. -/
theorem receive_of_safe {s : Receiver} {a : Arrival} (hs : s.handle.Within)
    (hv : ∀ dg ∈ a.kept, IsVideo dg.bytes) (hsafe : a.Safe s) :
    (receive s a).1.handle.Within ∧
      ∀ d, some d ∈ (receive s a).2 → d.frame = a.picture.bytes := by
  constructor
  · exact Run.final_invariant (I := fun s : Receiver => s.handle.Within)
      (fun s hs dg _ => hs.step dg) hs
  · intro d hd
    rcases hsafe with hc | hr
    · exact outs_of_complete hs hv hc d hd
    · exact absurd (outs_of_refused hs hv hr _ hd) (by simp)

/-- **Every frame handed out was sent**, if every arrival is safe in the state it meets. -/
theorem delivered_was_sent {h : BuildInfo} {arrivals : List Arrival}
    (hsent : SentFrom h arrivals) {s : Receiver} (hs : s.handle.Within)
    (hsafe : Run.Along receive Arrival.Safe s arrivals) :
    ∀ d, some d ∈ Run.outs step s (arrivals.flatMap Arrival.kept) →
      ∃ a ∈ arrivals, d.frame = a.picture.bytes := by
  have hvideo := hsent.isVideo
  have hpicture : ∀ os ∈ Run.outs receive s arrivals,
      ∃ a ∈ arrivals, ∀ d, some d ∈ os → d.frame = a.picture.bytes :=
    Run.exists_of_mem_outs (I := fun s : Receiver => s.handle.Within)
      (fun s hs a ha hsafe => receive_of_safe hs (hvideo a ha) hsafe) hs hsafe
  intro d hd
  rw [← Run.flatten_outs_batch Arrival.kept] at hd
  obtain ⟨os, hos, hd⟩ := List.mem_flatten.mp hd
  obtain ⟨a, ha, hout⟩ := hpicture os hos
  exact ⟨a, ha, hout d hd⟩

/-! ### Pictures that arrive whole -/

/-- A JPEG picture all of whose packets arrive is whole. -/
theorem complete_jpeg {a : Arrival} (h : BuildInfo) (s : Receiver) (hj : a.picture.jpeg = true)
    (hsent : a.packets = (send h a.picture).2) (hall : a.kept.map Datagram.bytes = a.packets)
    (hfits : a.picture.bytes.length ≤ maxFrameLen) : a.Complete s := by
  have hcodec := a.picture.codec
  rw [hj, if_pos rfl] at hcodec
  obtain ⟨fs, hfs, htrain⟩ := buildJpegData_train hcodec a.picture.length h a.picture.time
  refine ⟨hall, hfits, fs, ?_, .inl htrain⟩
  rw [hsent, send, if_pos hj, hfs]

/-- So is an H.264 frame of the encoder. -/
theorem complete_h264 {a : Arrival} {f : EncFrame} (h : BuildInfo) {s : Receiver}
    (hj : a.picture.jpeg = false) (hbytes : a.picture.bytes = f.bytes)
    (hhead : a.picture.head.Of f) (hrec : f.Recognised) (hopens : f.Opens ∨ s.store.offset = 0)
    (hsent : a.packets = (send h a.picture).2) (hall : a.kept.map Datagram.bytes = a.packets)
    (hfits : a.picture.bytes.length ≤ maxFrameLen) : a.Complete s := by
  obtain ⟨fs, hfs, htrain⟩ := buildVideoData_train hhead hrec h a.picture.time
  refine ⟨hall, hfits, fs, ?_, ?_⟩
  · rw [hsent, send, if_neg (by simp [hj]), hbytes, hfs]
  · rw [hbytes]
    rcases htrain with ht | ⟨hclosed, ht⟩
    · exact .inl ht
    · exact .inr ⟨hopens.resolve_left hclosed, ht⟩

/-! ### Samples -/

/-- A small key frame. -/
def samplePicture : Picture where
  jpeg := false
  bytes := (sampleKey 0x65 (by decide) (by decide) (by decide)).bytes
  head := sampleHead
  time := 40
  codec := by decide
  length := by decide
  coded := fun _ => by decide

/-- Its arrival from a sender in state `h` without its packet number `i`. -/
def sampleArrival (h : BuildInfo) (i : ℕ) : Arrival where
  picture := samplePicture
  packets := (send h samplePicture).2
  kept := ((send h samplePicture).2.eraseIdx i).map (⟨·, 0⟩)
  sub := by
    rw [List.map_map]
    exact (List.map_id _).symm ▸ List.eraseIdx_sublist ..

/-- A key frame that arrives, and one whose last packet is lost. -/
theorem delivered_was_sent_sample :
    (Run.outs step .init ([sampleArrival ⟨0, 0, 0⟩ 3, sampleArrival ⟨40, 3, 0⟩ 2].flatMap
        Arrival.kept)).map (Option.map Delivered.frame) =
      [none, none, some samplePicture.bytes, none, none] ∧
    ∀ d, some d ∈ Run.outs step .init
        ([sampleArrival ⟨0, 0, 0⟩ 3, sampleArrival ⟨40, 3, 0⟩ 2].flatMap Arrival.kept) →
      ∃ a ∈ [sampleArrival ⟨0, 0, 0⟩ 3, sampleArrival ⟨40, 3, 0⟩ 2],
        d.frame = a.picture.bytes := by
  have hsent : SentFrom ⟨0, 0, 0⟩ [sampleArrival ⟨0, 0, 0⟩ 3, sampleArrival ⟨40, 3, 0⟩ 2] := by
    rfl
  have hfirst : (sampleArrival ⟨0, 0, 0⟩ 3).Complete .init := by
    let f := sampleKey 0x65 (by decide) (by decide) (by decide)
    have hbytes : (sampleArrival ⟨0, 0, 0⟩ 3).picture.bytes = f.bytes := rfl
    have hhead : (sampleArrival ⟨0, 0, 0⟩ 3).picture.head.Of f :=
      ⟨by decide, by decide, by decide⟩
    have hrec : f.Recognised := fun _ => by decide
    exact complete_h264 ⟨0, 0, 0⟩ rfl hbytes hhead hrec (.inr rfl) rfl (by decide) (by decide)
  have hsecond : ∀ s, Run.Along step Refused s (sampleArrival ⟨40, 3, 0⟩ 2).kept := by
    have hflags : (sampleArrival ⟨40, 3, 0⟩ 2).kept.map
        (fun dg => (fragmentOf dg.bytes).map Fragment.flag) = [some .start, some .middle] := by
      decide
    have hrefused : ∀ dg ∈ (sampleArrival ⟨40, 3, 0⟩ 2).kept, ∀ s, Refused s dg := by
      intro dg hdg s
      have hmem := List.mem_map_of_mem
        (f := fun dg : Datagram => (fragmentOf dg.bytes).map Fragment.flag) hdg
      rw [hflags] at hmem
      refine .inr fun f hf => ?_
      simp only [hf, Option.map_some] at hmem
      rcases List.mem_cons.mp hmem with h | h
      · simp [Option.some.inj h]
      · simp [Option.some.inj (List.mem_singleton.mp h)]
    intro s
    exact Run.along_of_forall hrefused s
  refine ⟨by decide, ?_⟩
  exact delivered_was_sent hsent within_init ⟨.inl hfirst, .inr (hsecond _), trivial⟩

/-- **A hole is not noticed.** Without the picture parameter set the receiver still hands a frame
out, and it is not the one that was sent. -/
theorem lost_part_delivered :
    SentFrom ⟨0, 0, 0⟩ [sampleArrival ⟨0, 0, 0⟩ 1] ∧
      (Run.outs step .init (sampleArrival ⟨0, 0, 0⟩ 1).kept).map (Option.map Delivered.frame) =
        [none, some (startCode ++ [0x67, 0x42] ++ startCode ++ [0x65, 0x88, 0, 0, 0, 0, 0, 0])] ∧
      startCode ++ [0x67, 0x42] ++ startCode ++ [0x65, 0x88, 0, 0, 0, 0, 0, 0] ≠
        samplePicture.bytes :=
  ⟨rfl, by decide, by decide⟩

end Rtp

end ReachEdukit
