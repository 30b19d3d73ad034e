import ReachEdukit.Rtp.Train

/-!
# Frames of the encoder come through whole

The encoder gives the sender two shapes of frame: a slice behind a start code, and a key frame of a
sequence parameter set, a picture parameter set and an IDR slice, each behind a start code. Here is
what the sender makes of each and what the receiver makes of that.

The receiver knows the NAL units of a key frame by the whole header byte, not by its type. The
parameter sets may be mistaken without harm as long as the receiver is between frames: they are then
middle parts. An IDR slice that fits one packet may not: with a reference idc of `0` it is a middle
part too, and the frame has no last one.

## Main definitions

* `Nal`, `Slice`, `KeyFrame`, `EncFrame` — the frames of the encoder
* `EncFrame.Recognised` — the receiver knows the end of the frame

## Main results

* `nalus_slice`, `nalus_key` — the sender finds the NAL units
* `buildVideoData_train` — its packets are a train of the frame
* `sent_frame_received` — a frame comes through
* `buildJpegData_train`, `sent_picture_received` — so does a JPEG picture, of any bytes
-/

namespace ReachEdukit

namespace Rtp

open Memory Reassembly

/-! ### The frames of the encoder -/

/-- A NAL unit: not empty, with a forbidden bit of `0` and no start code inside. -/
structure Nal where
  /-- The NAL header. -/
  head : Byte
  /-- What follows it. -/
  rest : List Byte
  /-- The forbidden bit is `0`. -/
  forbidden : head &&& 0x80 = 0
  /-- There is no start code inside. -/
  noCode : ¬ startCode <:+: head :: rest

/-- The bytes of a NAL unit. -/
def Nal.bytes (n : Nal) : List Byte := n.head :: n.rest

/-- The type of a NAL unit. -/
def Nal.type (n : Nal) : Byte := n.head &&& 0x1f

/-- A frame that is not a key frame: one slice. -/
structure Slice where
  /-- The slice. -/
  nal : Nal
  /-- Its type is that of a slice. -/
  type : 1 ≤ nal.type ∧ nal.type ≤ 5

/-- A key frame. -/
structure KeyFrame where
  /-- The sequence parameter set. -/
  sps : Nal
  /-- The picture parameter set. -/
  pps : Nal
  /-- The slice. -/
  idr : Nal
  sps_type : sps.type = 7
  pps_type : pps.type = 8
  idr_type : idr.type = 5
  /-- The sequence parameter set fits one packet. -/
  sps_fits : sps.rest.length ≤ 1366
  /-- So does the picture parameter set. -/
  pps_fits : pps.rest.length ≤ 1366

/-- A frame of the encoder. -/
inductive EncFrame
  /-- Not a key frame. -/
  | slice (f : Slice)
  /-- A key frame. -/
  | key (f : KeyFrame)

/-- The bytes of a slice frame. -/
def Slice.bytes (f : Slice) : List Byte := startCode ++ f.nal.bytes

/-- The bytes of a key frame. -/
def KeyFrame.bytes (f : KeyFrame) : List Byte :=
  startCode ++ f.sps.bytes ++ (startCode ++ f.pps.bytes) ++ (startCode ++ f.idr.bytes)

/-- The bytes of a frame. -/
def EncFrame.bytes : EncFrame → List Byte
  | .slice f => f.bytes
  | .key f => f.bytes

/-- Its `Iframe` field. -/
def EncFrame.iframe : EncFrame → Byte
  | .slice _ => 0
  | .key _ => 1

/-- The receiver knows the end of the frame: the slice of a key frame either takes several packets
or has a reference idc that is not `0`. -/
def EncFrame.Recognised : EncFrame → Prop
  | .slice _ => True
  | .key f => f.idr.rest.length ≤ 1366 → f.idr.head &&& 0x60 ≠ 0

/-- The receiver knows the start of the frame: the sequence parameter set of a key frame has a
reference idc that is not `0`. -/
def EncFrame.Opens : EncFrame → Prop
  | .slice _ => True
  | .key f => f.sps.head &&& 0x60 ≠ 0

/-- The head the caller sends with a frame. -/
structure FrameHead.Of (head : FrameHead) (f : EncFrame) : Prop where
  /-- The codec is H.264. -/
  codec : head.codec = 0
  /-- The key-frame flag. -/
  iframe : head.iframe = f.iframe
  /-- The length of the frame. -/
  length : head.framelength.toNat = f.bytes.length

/-! ### The NAL units of a buffer -/

/-- No start code begins inside `xs` when `xs` has none: what follows starts with three zeros. -/
theorem startsWithCode_append {xs tail : List Byte} (hne : xs ≠ [])
    (h : ¬ startCode <:+: xs) : startsWithCode (xs ++ (startCode ++ tail)) = false := by
  match xs, hne with
  | [a], _ => simp [startsWithCode, startCode]
  | [a, b], _ => simp [startsWithCode, startCode]
  | [a, b, c], _ => simp [startsWithCode, startCode]
  | a :: b :: c :: d :: rest, _ =>
    rw [startsWithCode, beq_eq_false_iff_ne]
    intro heq
    refine h (List.IsPrefix.isInfix ⟨rest, ?_⟩)
    simp only [List.cons_append, List.take_succ_cons, List.take_zero] at heq
    rw [startCode, ← heq]
    rfl

/-- Behind a parameter set the pointer stops at the next start code. -/
theorem seekStartCode_append {xs tail : List Byte} (h : ¬ startCode <:+: xs) (ht : tail ≠ []) :
    seekStartCode (xs ++ (startCode ++ tail)) = startCode ++ tail := by
  have hlong : 4 < (startCode ++ tail).length := by
    have := List.length_pos_iff.mpr ht
    simp only [startCode, List.length_append, List.length_cons, List.length_nil]
    omega
  induction xs with
  | nil => simp [startCode, seekStartCode, startsWithCode]
  | cons x xs ih =>
    have hno : ¬ startCode <:+: xs := fun hi => h (hi.trans (List.suffix_cons x xs).isInfix)
    have hhere : startsWithCode (x :: (xs ++ (startCode ++ tail))) = false :=
      startsWithCode_append (List.cons_ne_nil x xs) h
    rw [List.cons_append, seekStartCode, hhere, if_pos, ih hno]
    simp only [Bool.not_false, Bool.true_and, decide_eq_true_eq, List.length_cons,
      List.length_append] at hlong ⊢
    omega

/-- One turn of the loop that is not the last: a parameter set with a start code behind it. -/
theorem nalus_parameter (fuel : ℕ) (n : Nal) (hn : n.type = 7 ∨ n.type = 8) {tail : List Byte}
    (ht : tail ≠ []) :
    nalus (fuel + 1) (startCode ++ n.bytes ++ (startCode ++ tail)) =
      n.bytes :: nalus fuel (startCode ++ tail) := by
  have hcode : startsWithCode (startCode ++ n.bytes ++ (startCode ++ tail)) = true := by
    simp [startsWithCode, startCode]
  have hvalue : (startCode ++ n.bytes ++ (startCode ++ tail)).getD 4 0 = n.head := by
    simp [startCode, Nal.bytes]
  have hno : ¬ startCode <:+: [0, 0, 1] ++ n.bytes := by
    simpa [startCode, List.infix_cons_iff, List.cons_prefix_cons, Nal.bytes] using n.noCode
  have hdrop : (startCode ++ n.bytes ++ (startCode ++ tail)).drop 1 =
      [0, 0, 1] ++ n.bytes ++ (startCode ++ tail) := by
    simp [startCode]
  have hlong : ¬ (startCode ++ tail).length ≤ 4 := by
    have := List.length_pos_iff.mpr ht
    simp only [startCode, List.length_append, List.length_cons, List.length_nil]
    omega
  have hunit : ((startCode ++ n.bytes ++ (startCode ++ tail)).drop 4).take
      ((startCode ++ n.bytes ++ (startCode ++ tail)).length - (startCode ++ tail).length - 4) =
        n.bytes := by
    rw [List.append_assoc, List.drop_left' (by rfl)]
    refine List.take_left' ?_
    simp only [startCode, List.length_append, List.length_cons, List.length_nil]
    omega
  have hset : n.head &&& 0x1f = 7 ∨ n.head &&& 0x1f = 8 := hn
  rw [nalus, hcode, if_pos rfl, hvalue, if_pos hset, hdrop, seekStartCode_append hno ht]
  simp only [if_neg hlong, hunit]

/-- The last turn: a unit that is not a parameter set takes the rest of the buffer. -/
theorem nalus_last (fuel : ℕ) (n : Nal) (hn : ¬ (n.type = 7 ∨ n.type = 8)) :
    nalus (fuel + 1) (startCode ++ n.bytes) = [n.bytes] := by
  have hcode : startsWithCode (startCode ++ n.bytes) = true := by
    simp [startsWithCode, startCode]
  have hvalue : (startCode ++ n.bytes).getD 4 0 = n.head := by
    simp [startCode, Nal.bytes]
  have hend : ((startCode ++ n.bytes).drop ((startCode ++ n.bytes).length - 4)).length ≤ 4 := by
    rw [List.length_drop]
    omega
  have hset : ¬ (n.head &&& 0x1f = 7 ∨ n.head &&& 0x1f = 8) := hn
  rw [nalus, hcode, if_pos rfl, hvalue, if_neg hset]
  simp only [if_pos hend]
  rw [List.drop_left' (by rfl)]

/-- The sender finds the unit of a slice frame. -/
theorem nalus_slice (f : Slice) : nalus f.bytes.length f.bytes = [f.nal.bytes] := by
  have hn : ¬ (f.nal.type = 7 ∨ f.nal.type = 8) := by
    obtain ⟨-, h⟩ := f.type
    rintro (h' | h') <;> rw [h'] at h <;> exact absurd h (by decide)
  exact nalus_last _ f.nal hn

/-- The sender finds parameter sets and the slice behind them. -/
theorem nalus_units {sps pps idr : Nal} (hsps : sps.type = 7) (hpps : pps.type = 8)
    (hidr : idr.type = 5) {bytes : List Byte}
    (hbytes : bytes = startCode ++ sps.bytes ++ (startCode ++ pps.bytes) ++
      (startCode ++ idr.bytes)) :
    nalus bytes.length bytes = [sps.bytes, pps.bytes, idr.bytes] := by
  obtain ⟨k, hk⟩ : ∃ k, bytes.length = k + 3 :=
    ⟨bytes.length - 3, by simp [hbytes, startCode]⟩
  have hlast : ¬ (idr.type = 7 ∨ idr.type = 8) := by
    rw [hidr]
    decide
  have htail : startCode ++ pps.bytes ++ (startCode ++ idr.bytes) =
      startCode ++ (pps.bytes ++ (startCode ++ idr.bytes)) := List.append_assoc ..
  have hall : bytes = startCode ++ sps.bytes ++
      (startCode ++ (pps.bytes ++ (startCode ++ idr.bytes))) := by
    rw [hbytes, List.append_assoc, htail]
  rw [hk, hall, nalus_parameter _ sps (.inl hsps) (by simp [Nal.bytes]), ← htail,
    nalus_parameter _ pps (.inr hpps) (by simp [Nal.bytes]), nalus_last _ idr hlast]

/-- The sender finds the units of a key frame. -/
theorem nalus_key (f : KeyFrame) :
    nalus f.bytes.length f.bytes = [f.sps.bytes, f.pps.bytes, f.idr.bytes] :=
  nalus_units f.sps_type f.pps_type f.idr_type rfl

/-! ### The fragments of a NAL unit -/

/-- What the receiver makes of the packets of a NAL unit, in a frame of length `total`. -/
def naluFragments (head : FrameHead) (n : Nal) (total : ℕ) : List (Fragment Byte) :=
  if n.rest.length ≤ 1366 then [⟨singleSegment head n.head, startCode ++ n.bytes, total⟩]
  else
    (split 1366 n.rest).map fun p => ⟨fuFlag head p.place, fuPart n.head p.place p.part, total⟩

theorem setWidth_extract (b : Byte) : (b.extractLsb' 0 5).setWidth 8 = b &&& 0x1f := by
  refine BitVec.eq_of_getLsbD_eq fun i hi => ?_
  simp only [BitVec.getLsbD_setWidth, BitVec.getLsbD_extractLsb', BitVec.getLsbD_and]
  interval_cases i <;> simp

theorem map_fragmentOf_nalu {head : FrameHead} {n : Nal} (seq : BitVec 16) (ts : BitVec 32)
    (hcodec : head.codec = 0) (htype : n.type ≠ 28)
    (hw : head.iframe ≠ 1 → head.framelength.toNat = 5 + n.rest.length) :
    (udpSendRtpNalu (.ofBytes n.bytes) seq ts 1366 head).map fragmentOf =
      (naluFragments head n head.framelength.toNat).map some := by
  have hlow : n.head.extractLsb' 0 5 ≠ 28 := by
    intro h
    refine htype ?_
    rw [Nal.type, ← setWidth_extract, h]
    rfl
  have hsize : (Nalu.ofBytes n.bytes).buf.length - 1 = n.rest.length := rfl
  rw [udpSendRtpNalu, naluFragments, hsize]
  by_cases h : n.rest.length ≤ 1366
  · rw [if_pos h, if_pos h, List.map_singleton, List.map_singleton, Nal.bytes]
    exact congrArg (fun f => [f]) (fragmentOf_single hcodec hlow h hw)
  · rw [if_neg h, if_neg h, List.map_map, List.map_map]
    refine List.map_congr_left fun p hp => ?_
    have hpart : p.part.length ≤ 1366 := split_part_le (by omega) (Nat.lt_of_not_le h) p hp
    exact fragmentOf_fu p.place hcodec n.forbidden hpart

/-- The fragments of a unit that takes several packets: its first one, and a tail. -/
theorem naluFragments_tail (head : FrameHead) {n : Nal} {pre frame : List Byte}
    (hlen : 1366 < n.rest.length) (hframe : pre ++ (startCode ++ n.bytes) = frame) :
    ∃ p fs, naluFragments head n frame.length = ⟨fuFlag head .first, p, frame.length⟩ :: fs ∧
      IsTail (pre ++ p) frame fs := by
  obtain ⟨p₀, pₗ, mids, k, hsplit, hmids, hparts, -⟩ :=
    split_eq (by omega : 0 < 1366) hlen
  refine ⟨startCode ++ n.head :: p₀, (mids.map Piece.part).map (⟨.middle, ·, frame.length⟩) ++
    [⟨.last, pₗ, frame.length⟩], ?_, mids.map Piece.part, pₗ, ?_, rfl⟩
  · rw [naluFragments, if_neg (by omega), hsplit, List.map_cons, List.map_append, List.map_map]
    refine congrArg₂ List.cons rfl (congrArg₂ List.append ?_ rfl)
    refine List.map_congr_left fun m hm => ?_
    simp [hmids m hm, fuFlag, fuPart]
  · rw [← hframe, Nal.bytes, ← hparts]
    simp

/-- The packets of several units, one unit after the other. -/
theorem map_fragmentOf_sendNalus {ts : BitVec 32} {mtu : ℕ} {head : FrameHead}
    {g : Nal → List (Fragment Byte)} {ns : List Nal} (h : ∀ n ∈ ns, ∀ seq,
      (udpSendRtpNalu (.ofBytes n.bytes) seq ts mtu head).map fragmentOf = (g n).map some)
    (seq : BitVec 16) :
    (sendNalus ts mtu head seq (ns.map Nal.bytes)).map fragmentOf = (ns.flatMap g).map some := by
  induction ns generalizing seq with
  | nil => rfl
  | cons n ns ih =>
    rw [List.map_cons, sendNalus, List.map_append, h n (List.mem_cons_self ..), List.flatMap_cons,
      List.map_append, ih fun m hm => h m (List.mem_cons_of_mem _ hm)]

/-! ### The train of a frame -/

theorem Slice.train (f : Slice) {head : FrameHead} (hi : head.iframe ≠ 1) :
    IsTrain f.bytes (naluFragments head f.nal f.bytes.length) := by
  by_cases hlen : f.nal.rest.length ≤ 1366
  · left
    rw [naluFragments, if_pos hlen, singleSegment, if_neg hi]
    rfl
  · right
    obtain ⟨p, fs, hfs, htail⟩ := naluFragments_tail head (Nat.lt_of_not_le hlen)
      (List.nil_append f.bytes)
    refine ⟨p, fs, ?_, htail⟩
    rw [hfs, fuFlag, if_neg hi]

/-- The slice of a key frame ends the frame. -/
theorem KeyFrame.idr_tail (f : KeyFrame) {head : FrameHead} (hi : head.iframe = 1)
    (hrec : (EncFrame.key f).Recognised) :
    IsTail (startCode ++ f.sps.bytes ++ (startCode ++ f.pps.bytes)) f.bytes
      (naluFragments head f.idr f.bytes.length) := by
  by_cases hlen : f.idr.rest.length ≤ 1366
  · have hhead : f.idr.head = 0x65 ∨ f.idr.head = 0x45 ∨ f.idr.head = 0x25 := by
      have hforbidden := f.idr.forbidden
      have htype := f.idr_type
      have hidc := hrec hlen
      rw [Nal.type] at htype
      revert hforbidden htype hidc
      generalize f.idr.head = b
      revert b
      decide
    have hflag : singleSegment head f.idr.head = .last := by
      rw [singleSegment, if_pos hi]
      rcases hhead with h | h | h <;> rw [h] <;> rfl
    rw [naluFragments, if_pos hlen, hflag]
    exact ⟨[], startCode ++ f.idr.bytes, by simp [KeyFrame.bytes], rfl⟩
  · have hbytes : startCode ++ f.sps.bytes ++ (startCode ++ f.pps.bytes) ++
        (startCode ++ f.idr.bytes) = f.bytes := rfl
    obtain ⟨p, fs, hfs, htail⟩ := naluFragments_tail head (Nat.lt_of_not_le hlen) hbytes
    rw [hfs, fuFlag, if_pos hi]
    exact htail.cons

/-- A picture parameter set is a middle part. -/
theorem KeyFrame.pps_fragments (f : KeyFrame) {head : FrameHead} (hi : head.iframe = 1)
    (total : ℕ) :
    naluFragments head f.pps total = [⟨.middle, startCode ++ f.pps.bytes, total⟩] := by
  have hflag : singleSegment head f.pps.head = .middle := by
    have htype := f.pps_type
    rw [Nal.type] at htype
    rw [singleSegment, if_pos hi]
    revert htype
    generalize f.pps.head = b
    revert b
    decide
  rw [naluFragments, if_pos f.pps_fits, hflag]

/-- A sequence parameter set opens the frame, or is a middle part. -/
theorem KeyFrame.sps_fragments (f : KeyFrame) {head : FrameHead} (hi : head.iframe = 1)
    (total : ℕ) :
    naluFragments head f.sps total =
      [⟨if f.sps.head &&& 0x60 = 0 then .middle else .start, startCode ++ f.sps.bytes, total⟩] := by
  have hflag : singleSegment head f.sps.head =
      if f.sps.head &&& 0x60 = 0 then .middle else .start := by
    have hforbidden := f.sps.forbidden
    have htype := f.sps_type
    rw [Nal.type] at htype
    rw [singleSegment, if_pos hi]
    revert hforbidden htype
    generalize f.sps.head = b
    revert b
    decide
  rw [naluFragments, if_pos f.sps_fits, hflag]

theorem KeyFrame.train (f : KeyFrame) {head : FrameHead} (hi : head.iframe = 1)
    (hrec : (EncFrame.key f).Recognised) :
    ∃ fs, fs = naluFragments head f.sps f.bytes.length ++
        (naluFragments head f.pps f.bytes.length ++ naluFragments head f.idr f.bytes.length) ∧
      (IsTrain f.bytes fs ∨ ¬ (EncFrame.key f).Opens ∧ IsTail [] f.bytes fs) := by
  have htail : IsTail (startCode ++ f.sps.bytes) f.bytes
      (naluFragments head f.pps f.bytes.length ++ naluFragments head f.idr f.bytes.length) := by
    rw [f.pps_fragments hi]
    exact (f.idr_tail hi hrec).cons
  refine ⟨_, rfl, ?_⟩
  rw [f.sps_fragments hi]
  by_cases h : f.sps.head &&& 0x60 = 0
  · rw [if_pos h]
    exact .inr ⟨fun hopens => hopens h, IsTail.cons htail⟩
  · rw [if_neg h]
    exact .inl (.inr ⟨_, _, rfl, htail⟩)

/-- **The packets of a frame are its train**, which may lack an opening fragment. -/
theorem buildVideoData_train {f : EncFrame} {head : FrameHead} (hhead : head.Of f)
    (hrec : f.Recognised) (h : BuildInfo) (now : BitVec 32) :
    ∃ fs, (buildVideoData h f.bytes 1380 now head).2.map fragmentOf = fs.map some ∧
      (IsTrain f.bytes fs ∨ ¬ f.Opens ∧ IsTail [] f.bytes fs) := by
  cases f with
  | slice f =>
    have hi : head.iframe ≠ 1 := by
      rw [hhead.iframe, EncFrame.iframe]
      decide
    have htype : f.nal.type ≠ 28 := by
      obtain ⟨-, h⟩ := f.type
      intro h'
      rw [h'] at h
      exact absurd h (by decide)
    have hlen : head.framelength.toNat = f.bytes.length := hhead.length
    have hunits : nalus f.bytes.length f.bytes = [f.nal].map Nal.bytes := nalus_slice f
    refine ⟨[f.nal].flatMap fun n => naluFragments head n f.bytes.length, ?_, .inl ?_⟩
    · simp only [buildVideoData, EncFrame.bytes]
      rw [if_neg (by omega), hunits]
      refine map_fragmentOf_sendNalus (fun n hn seq => ?_) _
      obtain rfl := List.mem_singleton.mp hn
      rw [← hlen]
      refine map_fragmentOf_nalu seq _ hhead.codec htype fun _ => ?_
      rw [hlen]
      simp [Slice.bytes, startCode, Nal.bytes]
      omega
    · rw [List.flatMap_singleton]
      exact f.train hi
  | key f =>
    have hi : head.iframe = 1 := hhead.iframe
    have hlen : head.framelength.toNat = f.bytes.length := hhead.length
    have hunits : nalus f.bytes.length f.bytes = [f.sps, f.pps, f.idr].map Nal.bytes :=
      nalus_key f
    obtain ⟨fs, hfs, htrain⟩ := f.train hi hrec
    refine ⟨fs, ?_, htrain⟩
    have hflat : fs = [f.sps, f.pps, f.idr].flatMap fun n =>
        naluFragments head n f.bytes.length := by
      simp [hfs]
    rw [hflat]
    simp only [buildVideoData, EncFrame.bytes]
    rw [if_neg (by omega), hunits]
    refine map_fragmentOf_sendNalus (fun n hn seq => ?_) _
    have htype : n.type ≠ 28 := by
      simp only [List.mem_cons, List.not_mem_nil, or_false] at hn
      rcases hn with rfl | rfl | rfl
      · rw [f.sps_type]
        decide
      · rw [f.pps_type]
        decide
      · rw [f.idr_type]
        decide
    rw [← hlen]
    exact map_fragmentOf_nalu seq _ hhead.codec htype fun hi' => absurd hi hi'

/-- **A frame comes through.** From a receiver between frames, the packets of a frame of the encoder
hand out the frame, once, on the last packet, and the receiver is between frames again. -/
theorem sent_frame_received {f : EncFrame} {head : FrameHead} (hhead : head.Of f)
    (hfits : f.bytes.length ≤ maxFrameLen) (hrec : f.Recognised) (h : BuildInfo) (now : BitVec 32)
    {s : Receiver} (hs : s.status = .running) (hoff : s.handle.video.offset = 0)
    {dgs : List Datagram}
    (hd : dgs.map Datagram.bytes = (buildVideoData h f.bytes 1380 now head).2) :
    (Run.outs step s dgs).map (Option.map Delivered.frame) =
        List.replicate (dgs.length - 1) none ++ [some f.bytes] ∧
      (Run.final step s dgs).store.offset = 0 ∧ (Run.final step s dgs).store.broken = false := by
  obtain ⟨fs, hfs, htrain⟩ := buildVideoData_train hhead hrec h now
  have hvideo : ∀ dg ∈ dgs, IsVideo dg.bytes := by
    intro dg hdg
    have hmem : dg.bytes ∈ (buildVideoData h f.bytes 1380 now head).2 := by
      rw [← hd]
      exact List.mem_map_of_mem hdg
    exact isVideo_buildVideoData hhead.codec dg.bytes hmem
  have hcarries : List.Forall₂ (fun dg f => Carries dg.bytes f) dgs fs :=
    carries_of_map hvideo (by rw [hd, hfs])
  have hle : s.handle.video.offset ≤ maxFrameLen := by omega
  have hsane : s.store.broken = false := by simp [Receiver.store, hs]
  obtain ⟨hfinal, houts⟩ := run_of_carries hle hcarries
  rw [houts, hfinal, hcarries.length_eq]
  rcases htrain with ht | ⟨-, ht⟩
  · obtain ⟨hout, hzero, hb⟩ := outs_train hsane ht hfits
    exact ⟨hout, hzero hoff, hb⟩
  · exact outs_tail (holds_nil hsane hoff) ht hfits

/-! ### JPEG pictures -/

/-- The packets of a JPEG picture are a train of it. -/
theorem buildJpegData_train {bytes : List Byte} {head : FrameHead} (hcodec : head.codec = 2)
    (hlen : head.framelength.toNat = bytes.length) (h : BuildInfo) (ts : BitVec 32) :
    ∃ fs, (buildJpegData h bytes 1380 ts head).2.map fragmentOf = fs.map some ∧
      IsTrain bytes fs := by
  have hroom : bodyRoom = 1444 := rfl
  have hmtu : 1380 - 28 = 1352 := rfl
  simp only [buildJpegData, hmtu]
  by_cases hfit : bytes.length ≤ 1352
  · rw [if_pos hfit]
    refine ⟨[⟨.whole, bytes, bytes.length⟩], ?_, .inl rfl⟩
    rw [List.map_singleton, List.map_singleton, ← hlen]
    refine congrArg (fun f => [f]) (fragmentOf_jpeg ?_ ?_ (by omega) fun _ => hlen)
    · exact hcodec
    · rfl
  · rw [if_neg hfit]
    obtain ⟨p₀, pₗ, mids, k, hsplit, hmids, hparts, hle⟩ :=
      split_eq (by omega : 0 < 1352) (Nat.lt_of_not_le hfit)
    have hflag : ∀ place, (jpegSegment place).toNat = segment (jpegFlag place) := by
      intro place
      cases place <;> rfl
    have hwhole : ∀ place, jpegFlag place ≠ .whole := by
      intro place
      cases place <;> simp [jpegFlag]
    refine ⟨(split 1352 bytes).map fun p => ⟨jpegFlag p.place, p.part, bytes.length⟩, ?_, .inr ?_⟩
    · rw [List.map_map, List.map_map]
      refine List.map_congr_left fun p hp => ?_
      have hpart : p.part.length ≤ 1352 := hle p hp
      have hfragment : ∀ rtp : RtpHead,
          fragmentOf (packet rtp { head with samplerate := jpegSegment p.place } p.part) =
            some ⟨jpegFlag p.place, p.part, head.framelength.toNat⟩ := fun rtp =>
        fragmentOf_jpeg hcodec (hflag p.place) (by omega) fun h => absurd h (hwhole p.place)
      simp only [Function.comp, hfragment, hlen]
    · refine ⟨p₀, (mids.map Piece.part).map (⟨.middle, ·, bytes.length⟩) ++
        [⟨.last, pₗ, bytes.length⟩], ?_, mids.map Piece.part, pₗ, hparts, rfl⟩
      rw [hsplit, List.map_cons, List.map_append, List.map_map]
      refine congrArg₂ List.cons rfl (congrArg₂ List.append ?_ rfl)
      refine List.map_congr_left fun m hm => ?_
      simp [hmids m hm, jpegFlag]

/-- **A picture comes through.** From a receiver between frames, or inside one, the packets of a
JPEG picture hand out the picture, once, on the last packet. -/
theorem sent_picture_received {bytes : List Byte} (hfits : bytes.length ≤ maxFrameLen)
    {head : FrameHead} (hcodec : head.codec = 2) (hlen : head.framelength.toNat = bytes.length)
    (h : BuildInfo) (ts : BitVec 32) {s : Receiver} (hs : s.status = .running)
    (hoff : s.handle.video.offset ≤ maxFrameLen) {dgs : List Datagram}
    (hd : dgs.map Datagram.bytes = (buildJpegData h bytes 1380 ts head).2) :
    (Run.outs step s dgs).map (Option.map Delivered.frame) =
      List.replicate (dgs.length - 1) none ++ [some bytes] := by
  obtain ⟨fs, hfs, htrain⟩ := buildJpegData_train hcodec hlen h ts
  have hvideo : ∀ dg ∈ dgs, IsVideo dg.bytes := by
    intro dg hdg
    have hmem : dg.bytes ∈ (buildJpegData h bytes 1380 ts head).2 := by
      rw [← hd]
      exact List.mem_map_of_mem hdg
    exact isVideo_buildJpegData hcodec dg.bytes hmem
  have hcarries : List.Forall₂ (fun dg f => Carries dg.bytes f) dgs fs :=
    carries_of_map hvideo (by rw [hd, hfs])
  have hsane : s.store.broken = false := by simp [Receiver.store, hs]
  rw [(run_of_carries hoff hcarries).2, hcarries.length_eq]
  exact (outs_train hsane htrain hfits).1

/-- The head the caller sends with a picture of `n` bytes. -/
def pictureHead (n : ℕ) : FrameHead := ⟨2, 0, 25, 640, 480, 0, 0, BitVec.ofNat 32 n⟩

/-- A picture of one byte more than a fragment takes two packets. -/
theorem sent_picture_received_sample :
    let bytes : List Byte := List.replicate 1353 0xD8
    let dgs : List Datagram :=
      (buildJpegData ⟨0, 0, 0⟩ bytes 1380 40 (pictureHead 1353)).2.map (⟨·, 0⟩)
    (Run.outs step .init dgs).map (Option.map Delivered.frame) = [none, some bytes] := by
  intro bytes dgs
  have hbytes : bytes.length = 1353 := List.length_replicate
  have hlen : dgs.length = 2 := by
    simp only [dgs, List.length_map]
    clear_value bytes
    simp [buildJpegData, split, hbytes]
  have hd : dgs.map Datagram.bytes =
      (buildJpegData ⟨0, 0, 0⟩ bytes 1380 40 (pictureHead 1353)).2 := by
    rw [List.map_map]
    exact List.map_id _
  have hfits : bytes.length ≤ maxFrameLen := by
    rw [hbytes]
    decide
  have hframe : (pictureHead 1353).framelength.toNat = bytes.length := by
    rw [hbytes]
    decide
  have h := sent_picture_received hfits rfl hframe ⟨0, 0, 0⟩ 40 (s := .init) rfl
    (Nat.zero_le _) hd
  rw [h, hlen]
  rfl

/-! ### Samples -/

/-- A small key frame, with a given header of its slice. -/
def sampleKey (idrHead : Byte) (h₁ : idrHead &&& 0x80 = 0)
    (h₂ : ¬ startCode <:+: [idrHead, 0x88]) (h₃ : idrHead &&& 0x1f = 5) : EncFrame :=
  .key {
    sps := ⟨0x67, [0x42], by decide, by decide⟩
    pps := ⟨0x68, [0xce], by decide, by decide⟩
    idr := ⟨idrHead, [0x88], h₁, h₂⟩
    sps_type := by decide
    pps_type := by decide
    idr_type := h₃
    sps_fits := by decide
    pps_fits := by decide }

/-- Its head. -/
def sampleHead : FrameHead := ⟨0, 0, 25, 1920, 1080, 1, 0, 18⟩

/-- The datagrams of a frame, that come at time `0`. -/
def sampleDatagrams (f : EncFrame) : List Datagram :=
  (buildVideoData ⟨0, 0, 0⟩ f.bytes 1380 40 sampleHead).2.map (⟨·, 0⟩)

theorem sent_frame_received_sample :
    let f := sampleKey 0x65 (by decide) (by decide) (by decide)
    (Run.outs step .init (sampleDatagrams f)).map (Option.map Delivered.frame) =
        List.replicate ((sampleDatagrams f).length - 1) none ++ [some f.bytes] ∧
      (Run.final step .init (sampleDatagrams f)).store.offset = 0 ∧
      (Run.final step .init (sampleDatagrams f)).store.broken = false := by
  intro f
  have hd : (sampleDatagrams f).map Datagram.bytes =
      (buildVideoData ⟨0, 0, 0⟩ f.bytes 1380 40 sampleHead).2 := by
    rw [sampleDatagrams, List.map_map]
    exact List.map_id _
  have hhead : sampleHead.Of f := ⟨by decide, by decide, by decide⟩
  exact sent_frame_received hhead (by decide) (fun _ => by decide) ⟨0, 0, 0⟩ 40 rfl rfl hd

/-- **A key frame that is not recognised** is lost: its slice has a reference idc of `0` and fits
one packet, so no packet of the frame is its last. -/
theorem unrecognised_frame_lost :
    let f := sampleKey 0x05 (by decide) (by decide) (by decide)
    sampleHead.Of f ∧ f.bytes.length ≤ maxFrameLen ∧
      (Run.outs step .init (sampleDatagrams f)).map (Option.map Delivered.frame) =
        [none, none, none] := by
  intro f
  have hhead : sampleHead.Of f := ⟨by decide, by decide, by decide⟩
  exact ⟨hhead, by decide, by decide⟩

end Rtp

end ReachEdukit
