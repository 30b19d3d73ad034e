import ReachEdukit.Receive.MediaFrame
import ReachEdukit.Lib.Run

/-!
# When the TCP receiver stays within its buffers

`room_receive_deal` takes what an encoder sends apart into messages: a header of eight bytes with a
length and a type, then the body, which goes to the front of `in_data`. A body that does not come
ends the connection. One of a stream is given to `send_media_frame_data`, which believes what stands
in its first 48 bytes, whether the body has as many or not: `in_data` has 64 KB, and behind a short
body there are zeros or the end of a message of another version, which is passed over without them.

The length of a body is all right whatever the header says; the rest is right exactly when every
message fits.

## What is left out

The copies of an `XML_TYPE` message, which have a buffer of their own that is made for them, and the
frames that come in over UDP.

## Main definitions

* `messages` — how a byte stream is taken apart
* `deal` — one message, or a connection that is opened
* `Fits` — the message does no harm

## Main results

* `received_of_mem_messages` — the length of a body is never too large
* `inBounds_iff_fits` — a receiver stays in bounds exactly when all its messages fit
-/

namespace ReachEdukit

namespace Receive

open Memory

open Rtp (Byte Buffer be16At)

/-! ### Taking a byte stream apart -/

/-- `MAX_TCP_PACKAGE`. -/
def maxTcpPackage : ℕ := 64 * 1024

/-- `MsgLen`. -/
def msgLen : ℕ := 8

/-- `ENC_VER`. -/
def encVer : ℕ := 2012

/-- `XML_MSG_LEN`. -/
def xmlMsgLen : ℕ := 4096

/-- `XML_TYPE`. -/
def xmlType : Byte := 0x1

/-- `AUDIO_STREAM`. -/
def audioStream : Byte := 0x6

/-- `HIGH_STREAM`. -/
def highStream : Byte := 0x7

/-- `LOW_STREAM`. -/
def lowStream : Byte := 0x95

/-- `LOW_STREAM_T`. -/
def lowStreamT : Byte := 0x96

/-- `JPG_STREAM`. -/
def jpgStream : Byte := 0x94

/-- `MSGHEAD`. -/
structure MsgHead where
  /-- `nLen`, in host order. -/
  nLen : ℕ
  /-- `nVer`, in host order. -/
  nVer : ℕ
  /-- `nMsg`. -/
  nMsg : Byte
  deriving DecidableEq, Repr

/-- The header in `msg`. -/
def MsgHead.read (m : Buffer) : MsgHead where
  nLen := (be16At m 0).toNat
  nVer := (be16At m 2).toNat
  nMsg := m 4

/-- What `recv_enc_tcp_data` leaves behind. -/
structure Recv where
  /-- The bytes that are stored. -/
  stored : List Byte
  /-- `nRet`. -/
  nRet : ℤ
  /-- The bytes that are still to come. -/
  rest : List Byte
  deriving DecidableEq, Repr

/-- `recv_enc_tcp_data`. The connection ends behind the bytes. -/
def recvEncTcpData (bytes : List Byte) (buflen : ℤ) : Recv :=
  if bytes.length < buflen then ⟨bytes, 0, []⟩
  else ⟨bytes.take buflen.toNat, buflen.toNat, bytes.drop buflen.toNat⟩

/-- A message, as the loop reads it. -/
structure Message where
  /-- The header. -/
  msg : MsgHead
  /-- `data_len`. -/
  dataLen : ℤ
  /-- The second `recv_enc_tcp_data`. -/
  body : Recv
  deriving DecidableEq, Repr

/-- One turn of the loop, as far as it reads; `none` when it leaves the loop at the header. -/
def readMessage (bytes : List Byte) : Option Message :=
  let head := recvEncTcpData bytes msgLen
  let msg := MsgHead.read (ofList 0 head.stored)
  if head.nRet ≤ 0 ∨ msg.nLen = 0 then none
  else
    let dataLen : ℤ := msg.nLen - msgLen
    some ⟨msg, dataLen, recvEncTcpData head.rest dataLen⟩

/-- The messages in a byte stream, `fuel` of them at most. -/
def messagesUpTo : ℕ → List Byte → List Message
  | 0, _ => []
  | fuel + 1, bytes => (readMessage bytes).elim [] fun m => m :: messagesUpTo fuel m.body.rest

/-- The messages in a byte stream. -/
def messages (bytes : List Byte) : List Message := messagesUpTo bytes.length bytes

theorem length_rest_recvEncTcpData_le (bytes : List Byte) (buflen : ℤ) :
    (recvEncTcpData bytes buflen).rest.length ≤ bytes.length := by
  rw [recvEncTcpData]
  split
  · exact Nat.zero_le _
  · exact (List.length_drop ..).trans_le (Nat.sub_le ..)

theorem stored_recvEncTcpData_of_neg (bytes : List Byte) {buflen : ℤ} (h : buflen < 0) :
    (recvEncTcpData bytes buflen).stored = [] := by
  rw [recvEncTcpData, if_neg (by omega), Int.toNat_of_nonpos h.le, List.take_zero]

/-- A message is longer than nothing. -/
theorem length_rest_lt_of_readMessage {bytes : List Byte} {m : Message}
    (h : readMessage bytes = some m) : m.body.rest.length < bytes.length := by
  rw [readMessage] at h
  dsimp only at h
  split at h
  · exact absurd h (by simp)
  · next hgo =>
    obtain rfl := Option.some.inj h
    refine (length_rest_recvEncTcpData_le ..).trans_lt ?_
    rw [recvEncTcpData] at hgo ⊢
    split
    · next hshort => exact absurd (Or.inl (by simp [hshort])) hgo
    · next hlong =>
      rw [List.length_drop]
      simp only [msgLen] at hlong ⊢
      omega

theorem messagesUpTo_of_none {fuel : ℕ} {bytes : List Byte} (h : readMessage bytes = none) :
    messagesUpTo (fuel + 1) bytes = [] := by
  rw [messagesUpTo, h, Option.elim_none]

theorem messagesUpTo_of_some {fuel : ℕ} {bytes : List Byte} {m : Message}
    (h : readMessage bytes = some m) :
    messagesUpTo (fuel + 1) bytes = m :: messagesUpTo fuel m.body.rest := by
  rw [messagesUpTo, h, Option.elim_some]

/-- A stream has no more messages than bytes. -/
theorem messagesUpTo_eq {fuel : ℕ} {bytes : List Byte} (h : bytes.length ≤ fuel) :
    messagesUpTo fuel bytes = messages bytes := by
  have hmore : ∀ n bytes, bytes.length ≤ n → ∀ fuel, bytes.length ≤ fuel →
      messagesUpTo fuel bytes = messagesUpTo n bytes := by
    intro n
    induction n with
    | zero =>
      intro bytes hn fuel _
      obtain rfl := List.length_eq_zero_iff.mp (Nat.le_zero.mp hn)
      rcases fuel with _ | fuel
      · rfl
      · rfl
    | succ n ih =>
      intro bytes hn fuel hfuel
      rcases fuel with _ | fuel
      · obtain rfl := List.length_eq_zero_iff.mp (Nat.le_zero.mp hfuel)
        rfl
      · rcases hm : readMessage bytes with _ | m
        · rw [messagesUpTo_of_none hm, messagesUpTo_of_none hm]
        · have hless := length_rest_lt_of_readMessage hm
          rw [messagesUpTo_of_some hm, messagesUpTo_of_some hm,
            ih m.body.rest (by omega) fuel (by omega)]
  exact hmore bytes.length bytes le_rfl fuel h

/-- The length with which a body is received: none of a negative one, and never more than
`MAX_TCP_PACKAGE`. -/
def Message.Received (m : Message) : Prop :=
  m.body.stored ≠ [] → 0 ≤ m.dataLen ∧ m.dataLen ≤ maxTcpPackage

theorem received_of_readMessage {bytes : List Byte} {m : Message} (h : readMessage bytes = some m) :
    m.Received := by
  rw [readMessage] at h
  dsimp only at h
  split at h
  · exact absurd h (by simp)
  · obtain rfl := Option.some.inj h
    intro hstored
    have hlen := (be16At (ofList 0 (recvEncTcpData bytes msgLen).stored) 0).isLt
    refine ⟨Int.not_lt.mp fun hneg => hstored ?_, ?_⟩
    · exact stored_recvEncTcpData_of_neg _ hneg
    · simp only [MsgHead.read, maxTcpPackage, msgLen] at hlen ⊢
      omega

/-- The loop, one message at a time: the fuel does not matter. -/
theorem messages_of_some {bytes : List Byte} {m : Message} (h : readMessage bytes = some m) :
    messages bytes = m :: messages m.body.rest := by
  have hless := length_rest_lt_of_readMessage h
  rw [← messagesUpTo_eq (Nat.le_succ bytes.length), messagesUpTo_of_some h,
    messagesUpTo_eq hless.le]

/-- The length of a body lies between 0 and `MAX_TCP_PACKAGE` whenever bytes are received. -/
theorem received_of_mem_messages {bytes : List Byte} : ∀ m ∈ messages bytes, m.Received := by
  have hall : ∀ fuel bytes, ∀ m ∈ messagesUpTo fuel bytes, m.Received := by
    intro fuel
    induction fuel with
    | zero => exact fun bytes m hm => absurd hm List.not_mem_nil
    | succ fuel ih =>
      intro bytes m hm
      rcases hread : readMessage bytes with _ | m'
      · rw [messagesUpTo_of_none hread] at hm
        exact absurd hm List.not_mem_nil
      · rw [messagesUpTo_of_some hread] at hm
        rcases List.mem_cons.mp hm with rfl | hm
        · exact received_of_readMessage hread
        · exact ih m'.body.rest m hm
  exact hall bytes.length bytes

/-! ### The receiver -/

/-- The messages that `receive_parse_stream` takes for a stream. -/
def IsStream (nMsg : Byte) : Prop :=
  nMsg = highStream ∨ nMsg = lowStream ∨ nMsg = jpgStream ∨ nMsg = audioStream ∨ nMsg = lowStreamT

instance (nMsg : Byte) : Decidable (IsStream nMsg) := inferInstanceAs (Decidable (_ ∨ _))

/-- What the surroundings do with a message. -/
structure Answer where
  /-- Somebody takes the frame that it completes. -/
  taken : Bool
  /-- The login that it answers is accepted. -/
  accepted : Bool
  deriving DecidableEq, Repr

/-- `receive_parse_stream`, and whether it returns `OPERATION_SUCC`. -/
def receiveParseStream (ans : Answer) (nMsg : Byte) (inData : Buffer) (inDataLen : ℕ)
    (M : StreamHandle) : Option (StreamHandle × Bool) :=
  if IsStream nMsg then
    (sendMediaFrameData ans.taken inData inDataLen M).map fun M => (M, true)
  else if nMsg = xmlType ∧ inDataLen ≤ xmlMsgLen then some (M, ans.accepted)
  else some (M, true)

/-- The thread of `room_receive_deal`. -/
structure Receiver where
  /-- `M_handle`. -/
  handle : StreamHandle
  /-- `in_data`. -/
  inData : Buffer
  /-- It is in its inner loop. -/
  connected : Bool

/-- What happens to the receiver. -/
inductive Event
  /-- A connection is opened. -/
  | connect
  /-- A message is read. -/
  | message (m : Message) (ans : Answer)

/-- The `EXIT` behind a connection. -/
def Receiver.exit (R : Receiver) : Receiver := { R with inData := fun _ => 0, connected := false }

/-- A new connection, behind the end of the one before. -/
def Receiver.connect (R : Receiver) : Receiver :=
  { R.exit with handle := R.handle.connect, connected := true }

/-- `in_data` with what is received of a message. -/
def Receiver.stored (R : Receiver) (m : Message) : Buffer := blit R.inData 0 m.body.stored

/-- One turn of the loop, behind its reading: `none` when a copy leaves its buffer, or when bytes are
received with a length that is none. -/
def Receiver.message (R : Receiver) (m : Message) (ans : Answer) : Option Receiver :=
  if m.body.stored ≠ [] ∧ ¬ (0 ≤ m.dataLen ∧ m.dataLen ≤ maxTcpPackage) then none
  else if m.body.nRet < m.dataLen ∨ m.dataLen < 0 then some R.exit
  else if m.msg.nVer ≠ encVer then some { R with inData := R.stored m }
  else
    (receiveParseStream ans m.msg.nMsg (R.stored m) m.dataLen.toNat R.handle).map fun r =>
      -- `in_data` is zeroed behind the message, or behind `EXIT`
      ⟨r.1, fun _ => 0, r.2⟩

/-- One event. Behind the end of a connection nothing is read from it. -/
def deal (R : Receiver) : Event → Option Receiver
  | .connect => some R.connect
  | .message m ans => if R.connected then R.message m ans else some R

/-- The message is given to `send_media_frame_data`. -/
structure Message.Parsed (m : Message) : Prop where
  /-- All of the body has come. -/
  complete : m.dataLen ≤ m.body.nRet
  /-- Its length is one. -/
  nonneg : 0 ≤ m.dataLen
  /-- The version is `ENC_VER`. -/
  version : m.msg.nVer = encVer
  /-- It belongs to a stream. -/
  stream : IsStream m.msg.nMsg

/-- The event does no harm: a message that is parsed fits. -/
def Fits (R : Receiver) : Event → Prop
  | .connect => True
  | .message m ans =>
    R.connected → m.Parsed →
      MessageFits ans.taken (.read (R.stored m)) m.dataLen.toNat R.handle

theorem receiveParseStream_isSome_iff {ans : Answer} {nMsg : Byte} {inData : Buffer}
    {inDataLen : ℕ} {M : StreamHandle} :
    (receiveParseStream ans nMsg inData inDataLen M).isSome ↔
      (IsStream nMsg → MessageFits ans.taken (.read inData) inDataLen M) := by
  rw [receiveParseStream]
  split
  · next hstream =>
    rw [Option.isSome_map, sendMediaFrameData_isSome_iff, imp_iff_right hstream]
  · next hstream =>
    refine iff_of_true ?_ fun h => absurd h hstream
    split <;> rfl

/-- One event leaves the receiver in bounds exactly when it fits. -/
theorem deal_isSome_iff (R : Receiver) {e : Event}
    (he : ∀ m ans, e = .message m ans → m.Received) : (deal R e).isSome ↔ Fits R e := by
  rcases e with _ | ⟨m, ans⟩
  · exact iff_of_true rfl trivial
  · rw [deal, Fits]
    split
    · next hon =>
      rw [imp_iff_right hon, Receiver.message,
        if_neg fun h => h.2 (he m ans rfl h.1)]
      split
      · next hshort =>
        refine iff_of_true rfl fun hparsed => ?_
        have hcomplete := hparsed.complete
        have hnonneg := hparsed.nonneg
        omega
      · next hlong =>
        split
        · next hver => exact iff_of_true rfl fun hparsed => absurd hparsed.version hver
        · next hver =>
          rw [Option.isSome_map, receiveParseStream_isSome_iff]
          refine ⟨fun h hparsed => h hparsed.stream, fun h hstream => h ⟨?_, ?_, ?_, hstream⟩⟩
          · omega
          · omega
          · exact not_not.mp hver
    · next hoff => exact iff_of_true rfl fun hon => absurd hon hoff

/-! ### Runs -/

/-- A connection: what comes over it, and what the surroundings do with each message. -/
structure Connection where
  /-- The bytes. -/
  bytes : List Byte
  /-- The answers, in order. -/
  answers : ℕ → Answer

/-- What happens over a connection. -/
def Connection.events (c : Connection) : List Event :=
  .connect :: (messages c.bytes).mapIdx fun i m => .message m (c.answers i)

theorem received_of_mem_events {c : Connection} {m : Message} {ans : Answer}
    (h : .message m ans ∈ c.events) : m.Received := by
  rcases List.mem_cons.mp h with h | h
  · exact absurd h (by simp)
  · obtain ⟨i, hi, hm⟩ := List.mem_mapIdx.mp h
    obtain ⟨rfl, -⟩ := Event.message.inj hm
    exact received_of_mem_messages _ (List.getElem_mem hi)

/-- **The receiver stays in bounds exactly when its messages fit.** Over any connections and any
bytes that come over them, no body is received with a length that is none, no part that is copied
has a negative length or leaves the message or its buffer, and no frame is handed out that is longer
than its buffer, if and only if every message fits in the state it is read in. -/
theorem inBounds_iff_fits (R : Receiver) (cs : List Connection) :
    ((cs.flatMap Connection.events).foldlM deal R).isSome ↔
      Run.AlongSome deal Fits R (cs.flatMap Connection.events) := by
  refine Run.foldlM_isSome_iff (fun R e he => deal_isSome_iff R ?_) R
  rintro m ans rfl
  obtain ⟨c, -, hc⟩ := List.mem_flatMap.mp he
  exact received_of_mem_events hc

/-- A stream that has just been set up. -/
def Receiver.init (recAudio : Bool) : Receiver where
  handle := ⟨⟨fun _ => 0, 0⟩, ⟨fun _ => 0, 0⟩, recAudio, false⟩
  inData := fun _ => 0
  connected := false

/-- A message that is shorter than the frame header has a part of negative length. The comparison
with the length of the frame, which is an unsigned one, lets it through. -/
theorem short_message_copied :
    let header : List Byte := [0, 24, 0x07, 0xdc, 0x07, 0, 0, 0]
    let body : List Byte :=
      [0, 0, 0, 0, 0, 0, 0, 0, 0xff, 0xff, 0xff, 0xff, 0x48, 0x32, 0x36, 0x34]
    let c : Connection := ⟨header ++ body, fun _ => ⟨false, false⟩⟩
    ¬ (([c].flatMap Connection.events).foldlM deal (.init true)).isSome := by
  decide

end Receive

end ReachEdukit
