import ReachEdukit.Lib.Reassembly
import ReachEdukit.Receive.MediaFrame

/-!
# Joining the stream of an encoder

An encoder sends the frames of two kinds, pictures and sound, each cut into packets, and a receiver
may join or reconnect between any two packets; what is sent while it is away is lost, and the offsets
start at 0 again. Nothing in the receiver says whether it has the beginning of a frame: a part for
the middle goes to the offset, and a last part completes whatever is in the buffer. So a receiver
that joins in the middle of a frame hands out its end, with old bytes behind; and so does one that
refuses a frame for its length, because it only refuses the first part.

As long as no such frame completes, the receiver hands out the frames that come in whole, and
nothing else.

## Main definitions

* `watch` — one event, and what is handed out on it
* `Sent` — the packets are those of an encoder
* `Orderly`, `Delivers` — what keeps the receiver right, and that it is right

## Main results

* `placed_eq_accept` — placing a packet is accepting its fragment
* `delivers_of_orderly` — over any orderly run the receiver delivers
-/

namespace ReachEdukit

namespace Receive

open Memory Reassembly

open Rtp (Byte Buffer)

/-- `m_dw_segment`. -/
def segment : Flag → BitVec 32
  | .middle => 0
  | .last => 1
  | .start => 2
  | .whole => 3

/-- The frame header and the part in a message say what the fragment says. -/
structure Describes (inData : Buffer) (f : Fragment Byte) : Prop where
  /-- The segment is the flag. -/
  segment : (FrameHead.read inData).dwSegment = segment f.flag
  /-- The length of the frame. -/
  total : (FrameHead.read inData).frameLength.toNat = f.total
  /-- The part is behind the header. -/
  part : window inData fhLen f.part.length = f.part

/-- A copy of the part is a `put`. -/
theorem memcpy_put {inData : Buffer} {bs : List Byte} (hpart : window inData fhLen bs.length = bs)
    (a : Assembly) (limit off next : ℕ) :
    (memcpy a.data limit off inData (fhLen + bs.length) fhLen bs.length).elim
        (Store.mk a.data a.offset true) (fun data => ⟨data, next, false⟩) =
      Store.put limit ⟨a.data, a.offset, false⟩ off bs next := by
  rw [Store.put, memcpy]
  by_cases h : off + bs.length ≤ limit
  · rw [if_pos h, if_pos ⟨by omega, by omega, by omega⟩, Int.toNat_natCast, hpart]
    rfl
  · rw [if_neg h, if_neg (by omega)]
    rfl

/-- Placing a part is accepting its fragment, unless it begins a frame and is refused because of the
offset. -/
theorem placed_eq_accept {limit : ℕ} {inData : Buffer} {f : Fragment Byte} {a : Assembly}
    (hd : Describes inData f) (hsmall : a.offset + f.part.length < 2 ^ 32)
    (hstart : f.flag = .start → a.offset + f.part.length ≤ f.total)
    (hwhole : f.flag = .whole → f.part.length = f.total) :
    accept limit ⟨a.data, a.offset, false⟩ f =
      (placed limit (.read inData) inData (fhLen + f.part.length) f.part.length a).elim
        (⟨a.data, a.offset, true⟩, none) fun p =>
          (⟨p.1.data, p.1.offset, false⟩,
            if p.2 = .cont then some (window p.1.data 0 f.total) else none) := by
  obtain ⟨flag, part, total⟩ := f
  obtain ⟨hseg, htotal, hpart⟩ := hd
  simp only at hseg htotal hpart hsmall hstart hwhole
  have hput := fun off next : ℕ => (memcpy_put hpart a limit off next).symm
  have hsum : unsigned (a.offset + part.length) = a.offset + part.length := by
    rw [unsigned]
    omega
  rcases flag with _ | _ | _ | _
  · simp only [placed, hseg, segment, htotal, accept, Bool.false_eq_true, if_false,
      hput, hsum]
    split
    · simp
    · rcases memcpy a.data limit a.offset inData (fhLen + part.length) fhLen part.length <;> simp
  · simp only [placed, hseg, segment, htotal, accept, Bool.false_eq_true, if_false,
      hput, hsum]
    split
    · simp
    · rcases memcpy a.data limit a.offset inData (fhLen + part.length) fhLen part.length <;>
        simp [Store.handOut]
  · have hfits : ¬ total < a.offset + part.length := Nat.not_lt.mpr (hstart rfl)
    simp only [placed, hseg, segment, htotal, accept, Bool.false_eq_true, if_false,
      hput, hsum, if_neg hfits]
    split
    · simp
    · rcases memcpy a.data limit 0 inData (fhLen + part.length) fhLen part.length <;> simp
  · have hw := hwhole rfl
    simp only [placed, hseg, segment, htotal, accept, Bool.false_eq_true, if_false,
      hput, ← hw]
    rcases memcpy a.data limit 0 inData (fhLen + part.length) fhLen part.length <;>
      simp [Store.handOut]

/-! ### Two kinds of frames -/

/-- What a frame is of. -/
inductive Kind
  /-- Pictures. -/
  | video
  /-- Sound. -/
  | audio
  deriving DecidableEq, Repr

/-- The size of the buffer. -/
def Kind.limit : Kind → ℕ
  | .video => maxFrameLen
  | .audio => maxAudioLen

/-- The frame of a kind that is being put together. -/
def StreamHandle.assembly (M : StreamHandle) : Kind → Assembly
  | .video => M.frame
  | .audio => M.audio

/-- The stream with another one. -/
def StreamHandle.setAssembly (M : StreamHandle) (a : Assembly) : Kind → StreamHandle
  | .video => { M with frame := a }
  | .audio => { M with audio := a }

@[simp] theorem assembly_setAssembly_self (M : StreamHandle) (a : Assembly) (k : Kind) :
    (M.setAssembly a k).assembly k = a := by
  rcases k with _ | _ <;> rfl

theorem assembly_setAssembly_of_ne (M : StreamHandle) (a : Assembly) {k j : Kind} (h : j ≠ k) :
    (M.setAssembly a k).assembly j = M.assembly j := by
  rcases k with _ | _ <;> rcases j with _ | _
  · exact absurd rfl h
  · rfl
  · rfl
  · exact absurd rfl h

/-- A packet. -/
structure Packet where
  /-- What its frame is of. -/
  kind : Kind
  /-- The piece of the frame. -/
  piece : Piece Byte
  /-- The message, as it is in `in_data`. -/
  inData : Buffer

/-- Its part is placed. -/
def Packet.place (p : Packet) (M : StreamHandle) : Option (StreamHandle × Code) :=
  match p.kind with
  | .video => pkgPlacedInFrame p.inData (fhLen + p.piece.part.length) p.piece.part.length M
  | .audio => pkgPlacedInFrameAudio p.inData (fhLen + p.piece.part.length) p.piece.part.length M

theorem Packet.place_eq (p : Packet) (M : StreamHandle) :
    p.place M =
      (placed p.kind.limit (.read p.inData) p.inData (fhLen + p.piece.part.length)
        p.piece.part.length (M.assembly p.kind)).map fun r => (M.setAssembly r.1 p.kind, r.2) := by
  obtain ⟨kind, piece, inData⟩ := p
  rcases kind with _ | _ <;> rfl

/-! ### Receiving -/

/-- What happens on the way from the encoder. -/
inductive StreamEvent
  /-- A packet is sent and received. -/
  | packet (p : Packet)
  /-- Packets are sent while the receiver is not connected, and then it connects. -/
  | interrupt (lost : List Packet)

/-- The packets that are sent. -/
def StreamEvent.sent : StreamEvent → List Packet
  | .packet p => [p]
  | .interrupt lost => lost

/-- A receiver, and for which kinds it has the beginning of the current frame. -/
structure Watch where
  /-- The stream, unless a copy has left a buffer. -/
  handle : Option StreamHandle
  /-- The first part has been received since the last connection. -/
  begun : Kind → Bool

/-- One event, and the contents that are handed out with `OPERATION_CONTINUE`. -/
def watch (W : Watch) : StreamEvent → Watch × Option (List Byte)
  | .packet p =>
    (W.handle.bind p.place).elim (⟨none, W.begun⟩, none) fun r =>
      (⟨some r.1, Function.update W.begun p.kind (begunAfter p.piece (W.begun p.kind))⟩,
        if r.2 = .cont then
          some (window (r.1.assembly p.kind).data 0 (FrameHead.read p.inData).frameLength.toNat)
        else none)
  | .interrupt _ => (⟨W.handle.map .connect, fun _ => false⟩, none)

/-- A receiver that has just connected. -/
def Watch.start (M : StreamHandle) : Watch := ⟨some M.connect, fun _ => false⟩

/-- The pieces of a kind. -/
def piecesOf (k : Kind) (ps : List Packet) : List (Piece Byte) :=
  (ps.filter (·.kind = k)).map Packet.piece

/-- What is sent is what an encoder sends: the frames of each kind one after the other, each cut in
order, and every packet says what it is. -/
structure Sent (es : List StreamEvent) : Prop where
  /-- The frames of each kind, as far as they have been sent. -/
  encodes : ∀ k, Encodes (piecesOf k (es.flatMap StreamEvent.sent))
  /-- The messages. -/
  describes : ∀ p ∈ es.flatMap StreamEvent.sent, Describes p.inData p.piece.fragment

/-- A packet that the receiver can deal with: no last part without the first one, none that
completes a frame past the buffer, and none for the middle that goes past it. -/
def Orderly (W : Watch) : StreamEvent → Prop
  | .packet p => ∀ M, W.handle = some M →
    Reassembly.Orderly p.kind.limit (M.assembly p.kind).offset (W.begun p.kind) p.piece
  | .interrupt _ => True

/-- The receiver is right about a packet. -/
structure DeliversPacket (W : Watch) (p : Packet) : Prop where
  /-- What is handed out is the frame. -/
  intact : ∀ contents, (watch W (.packet p)).2 = some contents → contents = p.piece.frame
  /-- A frame that comes in completely is handed out, -/
  complete : p.piece.flag = .whole ∨ p.piece.flag = .last ∧ W.begun p.kind →
    p.piece.frame.length ≤ p.kind.limit → (watch W (.packet p)).2 = some p.piece.frame
  /-- and not more than once. -/
  once : p.piece.flag = .start ∨ p.piece.flag = .middle → (watch W (.packet p)).2 = none

/-- The receiver is right about an event. -/
def Delivers (W : Watch) : StreamEvent → Prop
  | .packet p => DeliversPacket W p
  | .interrupt _ => True

/-! ### The receiver stays in step -/

/-- The assembly of a kind, as a store. -/
def StreamHandle.store (M : StreamHandle) (k : Kind) : Store Byte :=
  ⟨(M.assembly k).data, (M.assembly k).offset, false⟩

/-- The receiver is in step with the encoder, for both kinds. -/
def Watch.InStep (W : Watch) (pos : Kind → Position Byte) : Prop :=
  ∃ M, W.handle = some M ∧ ∀ k, Reassembly.InStep k.limit (M.store k) (W.begun k) (pos k)

theorem placed_fragment {M : StreamHandle} {begun : Bool} {pos : Position Byte} {p : Packet}
    (h : Reassembly.InStep p.kind.limit (M.store p.kind) begun pos) (hx : pos.Next p.piece)
    (hd : Describes p.inData p.piece.fragment) :
    accept p.kind.limit (M.store p.kind) p.piece.fragment =
      (placed p.kind.limit (.read p.inData) p.inData (fhLen + p.piece.part.length)
        p.piece.part.length (M.assembly p.kind)).elim
        (⟨(M.assembly p.kind).data, (M.assembly p.kind).offset, true⟩, none) fun r =>
          (⟨r.1.data, r.1.offset, false⟩,
            if r.2 = .cont then some (window r.1.data 0 p.piece.frame.length) else none) := by
  have hle : (M.assembly p.kind).offset + p.piece.part.length ≤ p.piece.frame.length :=
    h.offset_add_le hx
  refine placed_eq_accept hd ?_ (fun _ => hle) fun hwhole => ?_
  · have hframe : (FrameHead.read p.inData).frameLength.toNat = p.piece.frame.length := hd.total
    exact hle.trans_lt (hframe ▸ (FrameHead.read p.inData).frameLength.isLt)
  · change p.piece.flag = .whole at hwhole
    rw [Position.Next, hwhole] at hx
    exact congrArg List.length hx.2

/-- One packet. -/
theorem Watch.InStep.packet {W : Watch} {pos : Kind → Position Byte} {p : Packet}
    (h : W.InStep pos) (hx : (pos p.kind).Next p.piece) (hd : Describes p.inData p.piece.fragment)
    (ho : Orderly W (.packet p)) :
    (watch W (.packet p)).1.InStep
        (Function.update pos p.kind ((pos p.kind).after p.piece)) ∧
      (watch W (.packet p)).2 = Reassembly.handedOut (W.begun p.kind) p.piece := by
  obtain ⟨M, hM, hstep⟩ := h
  obtain ⟨hnext, hout⟩ := (hstep p.kind).accept hx (ho M hM)
  have htotal : (FrameHead.read p.inData).frameLength.toNat = p.piece.frame.length := hd.total
  have hplace := p.place_eq M
  rw [placed_fragment (hstep p.kind) hx hd] at hnext hout
  rcases hplaced : placed p.kind.limit (.read p.inData) p.inData (fhLen + p.piece.part.length)
    p.piece.part.length (M.assembly p.kind) with _ | r
  · rw [hplaced] at hnext
    exact absurd hnext.sane (by simp)
  · rw [hplaced] at hnext hout hplace
    simp only [Option.elim_some] at hnext hout
    simp only [Option.map_some] at hplace
    have hwatch : watch W (.packet p) =
        (⟨some (M.setAssembly r.1 p.kind),
          Function.update W.begun p.kind (begunAfter p.piece (W.begun p.kind))⟩,
          if r.2 = .cont then some (window r.1.data 0 p.piece.frame.length) else none) := by
      simp only [watch, hM, Option.bind_some, hplace, Option.elim_some, htotal,
        assembly_setAssembly_self]
    rw [hwatch]
    refine ⟨⟨_, rfl, fun k => ?_⟩, hout⟩
    by_cases hk : k = p.kind
    · subst hk
      simpa [StreamHandle.store] using hnext
    · simpa [StreamHandle.store, assembly_setAssembly_of_ne, hk] using hstep k

/-- An interruption. -/
theorem Watch.InStep.interrupt {W : Watch} {pos : Kind → Position Byte} (h : W.InStep pos)
    (lost : List Packet) (pos' : Kind → Position Byte) :
    (watch W (.interrupt lost)).1.InStep pos' := by
  obtain ⟨M, hM, -⟩ := h
  refine ⟨M.connect, ?_, fun k => ?_⟩
  · show W.handle.map _ = _
    rw [hM, Option.map_some]
  · rcases k with _ | _ <;> exact inStep_join rfl rfl rfl

/-- A packet on which the right thing is handed out. -/
theorem deliversPacket_of_handedOut {W : Watch} {p : Packet}
    (h : (watch W (.packet p)).2 = Reassembly.handedOut (W.begun p.kind) p.piece) :
    DeliversPacket W p := by
  constructor
  · intro contents hc
    rw [h, Reassembly.handedOut] at hc
    split at hc
    · exact absurd hc (by simp)
    · exact absurd hc (by simp)
    · split at hc
      · exact (Option.some.inj hc).symm
      · exact absurd hc (by simp)
    · exact (Option.some.inj hc).symm
  · rintro (hflag | ⟨hflag, hbegun⟩) -
    · rw [h, Reassembly.handedOut, hflag]
    · rw [h, Reassembly.handedOut, hflag]
      exact if_pos hbegun
  · rintro (hflag | hflag) <;> rw [h, Reassembly.handedOut, hflag]

theorem piecesOf_append (k : Kind) (ps qs : List Packet) :
    piecesOf k (ps ++ qs) = piecesOf k ps ++ piecesOf k qs := by
  simp [piecesOf]

theorem piecesOf_singleton_self (p : Packet) : piecesOf p.kind [p] = [p.piece] := by
  simp [piecesOf]

theorem piecesOf_singleton_of_ne {k : Kind} {p : Packet} (h : k ≠ p.kind) :
    piecesOf k [p] = [] := by
  simp [piecesOf, h.symm]

/-- From a receiver that is in step, with what is still sent in order. -/
theorem along_delivers {es : List StreamEvent} {W : Watch} (pos : Kind → Position Byte)
    (h : W.InStep pos) (hin : ∀ k, InOrder (pos k) (piecesOf k (es.flatMap StreamEvent.sent)))
    (hd : ∀ p ∈ es.flatMap StreamEvent.sent, Describes p.inData p.piece.fragment)
    (ho : Run.Along watch Orderly W es) : Run.Along watch Delivers W es := by
  induction es generalizing W pos with
  | nil => trivial
  | cons e es ih =>
    obtain ⟨ho, hos⟩ := ho
    simp only [List.flatMap_cons, piecesOf_append] at hin
    rw [List.flatMap_cons] at hd
    have hds := fun p hp => hd p (List.mem_append_right _ hp)
    rcases e with p | lost
    · simp only [StreamEvent.sent] at hin hd
      have hx := hin p.kind
      rw [piecesOf_singleton_self] at hx
      obtain ⟨hstep, hout⟩ := h.packet hx.1 (hd p (List.mem_cons_self ..)) ho
      refine ⟨deliversPacket_of_handedOut hout, ih _ hstep (fun k => ?_) hds hos⟩
      by_cases hk : k = p.kind
      · subst hk
        rw [Function.update_self]
        exact hx.2
      · have hother := hin k
        rw [piecesOf_singleton_of_ne hk] at hother
        rw [Function.update_of_ne hk]
        exact hother
    · exact ⟨trivial, ih _ (h.interrupt lost fun k =>
        (piecesOf k lost).foldl Position.after (pos k)) (fun k => (hin k).drop) hds hos⟩

/-- **A receiver delivers in every orderly run.** Whatever an encoder sends, and wherever the
receiver is interrupted, if no last part comes in without its first one, no frame is completed that
is longer than its buffer and no part for the middle goes past it, then what is handed out is always
the frame that was sent, and every frame that comes in completely is handed out once. -/
theorem delivers_of_orderly {M : StreamHandle} {es : List StreamEvent} (hsent : Sent es)
    (ho : Run.Along watch Orderly (.start M) es) : Run.Along watch Delivers (.start M) es := by
  refine along_delivers (fun _ => none) ⟨M.connect, rfl, fun k => ?_⟩
    (fun k => (hsent.encodes k).inOrder) hsent.describes ho
  rcases k with _ | _ <;> exact inStep_join rfl rfl rfl

/-- A picture of two bytes in two packets. -/
def twoParts (a b : Byte) : List Packet :=
  let message (seg part : Byte) : Buffer :=
    ofList 0 (List.replicate 8 0 ++ [2, 0, 0, 0, 0x48, 0x32, 0x36, 0x34] ++ List.replicate 16 0 ++
      [seg] ++ List.replicate 15 0 ++ [part])
  [⟨.video, ⟨.start, [a], [a, b]⟩, message 2 a⟩, ⟨.video, ⟨.last, [b], [a, b]⟩, message 1 b⟩]

theorem isTrain_twoParts (a b : Byte) :
    IsTrain [a, b] ((twoParts a b).map fun p => p.piece.fragment) :=
  .inr ⟨[a], [⟨.last, [b], 2⟩], rfl, [], [b], rfl, rfl⟩

/-- A stream that has just been set up. -/
def StreamHandle.init : StreamHandle := ⟨⟨fun _ => 0, 0⟩, ⟨fun _ => 0, 0⟩, true, false⟩

theorem encodes_twoParts (k : Kind) (a b c d : Byte) :
    Encodes (piecesOf k (twoParts a b ++ twoParts c d)) := by
  rcases k with _ | _
  · refine ⟨[([a, b], (twoParts a b).map fun p => p.piece.fragment),
      ([c, d], (twoParts c d).map fun p => p.piece.fragment)], ?_, List.prefix_rfl⟩
    intro t ht
    rcases List.mem_pair.mp ht with rfl | rfl
    · exact isTrain_twoParts a b
    · exact isTrain_twoParts c d
  · exact ⟨[], fun t ht => absurd ht List.not_mem_nil, List.prefix_rfl⟩

theorem describes_twoParts {a b : Byte} {p : Packet} (h : p ∈ twoParts a b) :
    Describes p.inData p.piece.fragment := by
  rcases List.mem_pair.mp h with rfl | rfl
  · constructor <;> simp [FrameHead.read, le32At, ofList, segment, Piece.fragment, window, fhLen]
  · constructor <;> simp [FrameHead.read, le32At, ofList, segment, Piece.fragment, window, fhLen]

/-- A picture that is lost, and one that is received. -/
theorem delivers_of_orderly_sample :
    Run.Along watch Delivers (.start .init)
      (.interrupt (twoParts 1 2) :: (twoParts 3 4).map .packet) := by
  refine delivers_of_orderly ⟨fun k => encodes_twoParts k 1 2 3 4, fun p hp => ?_⟩ ⟨trivial, ?_⟩
  · rcases List.mem_append.mp hp with hp | hp
    · exact describes_twoParts hp
    · exact describes_twoParts hp
  · refine ⟨fun M _ => ⟨?_, ?_, ?_⟩, fun M _ => ⟨?_, ?_, ?_⟩, trivial⟩
    · exact fun h => absurd h (by decide)
    · exact fun h => absurd h (by decide)
    · exact fun h => absurd h (by decide)
    · exact fun h => absurd h (by decide)
    · exact fun _ => ⟨by decide, by decide⟩
    · exact fun h => absurd h (by decide)

/-- A receiver that joins behind the first half of a picture hands out its second half. -/
theorem joined_behind_start :
    let es := [.interrupt ((twoParts 1 2).take 1)] ++ ((twoParts 1 2).drop 1).map .packet
    Sent es ∧ ¬ Run.Along watch Delivers (.start .init) es := by
  refine ⟨⟨fun k => ?_, fun p hp => describes_twoParts hp⟩, fun h => ?_⟩
  · obtain ⟨trains, htrains, hle⟩ := encodes_twoParts k 1 2 1 2
    rw [piecesOf_append] at hle
    exact ⟨trains, htrains, (List.prefix_append ..).trans hle⟩
  · have hlast : DeliversPacket _ _ := h.2.1
    exact absurd (hlast.intact [2, 0] (by decide)) (by decide)

end Receive

end ReachEdukit
