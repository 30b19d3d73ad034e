import ReachEdukit.Lib.Run
import ReachEdukit.Room.Encoders
import ReachEdukit.Room.Response

/-!
# Forwarding a request

The upper thread forwards a request to the encoders stream by stream: it sets the bit of the stream
in a mask, sends, and goes on; only behind the loop the request is put into the queue. The lower
thread meanwhile handles the answers. Nothing keeps the two apart but the mutex of the queue, so
each is modelled as a program of single steps, and a run is any schedule of the two and of the
encoders.

Three handlers forward in this way. Remote control picks one open stream of each encoder that is
listed, and refuses the request itself when it finds the mask as it was. The request for an I-frame
sets the bits of all streams of the selected encoders, open or not. Director mode sets bits in the
mask of another request, and its answers are passed on one by one.

## What is left out

What is sent, except for what comes back with an answer; a send that fails; the platform, which
stays the same. The time-out is another part (`queStep`).

## Main definitions

* `Request`, `program` — a request, and the steps of the upper thread for it
* `Lower`, `lowerStep` — where the lower thread is, and one step of it
* `State`, `step` — both threads and the encoders

## Main results

* `respXmlDeal_steps` — left alone, the lower thread does what `respXmlDeal` does
* `exists_quiet` — the threads come to rest
-/

namespace ReachEdukit

namespace Room

/-- `MSG_IFRAMEREQ_CTRL`. -/
def msgIframereqCtrl : MsgCode := 30014

/-- `MSG_ECN_DIRECTOR_MODE`. -/
def msgEcnDirectorMode : MsgCode := 30060

/-! ### Requests -/

/-- The kinds of requests that are forwarded in a loop. -/
inductive Kind
  /-- Remote control, of the encoders the request lists. -/
  | remoteCtrl (listed : ℕ → Bool)
  /-- An I-frame, of the encoders in the index. -/
  | iFrameReq (encodeIndex : Text)
  /-- Director mode, of the encoders in the index. -/
  | directorMode (encodeIndex : Text)

/-- A request to be forwarded. -/
structure Request where
  /-- The kind. -/
  kind : Kind
  /-- The encoders of the room. -/
  encoders : EncTable
  /-- The pass key. -/
  passKey : Text
  /-- The user id. -/
  userId : Text
  /-- The header. -/
  head : MsgHeader
  /-- When it is queued. -/
  now : Timeval

/-- The message code. -/
def Request.code (req : Request) : MsgCode :=
  match req.kind with
  | .remoteCtrl _ => msgRemoteCtrl
  | .iFrameReq _ => msgIframereqCtrl
  | .directorMode _ => msgEcnDirectorMode

/-- The request is one of director mode. -/
def Request.IsDirector (req : Request) : Prop := ∃ encodeIndex, req.kind = .directorMode encodeIndex

/-- `enc_id[i]`: an index names its encoders by their digits. -/
def encId (encodeIndex : Text) (i : ℕ) : ℕ :=
  if ['1', '2', '3', '4', '5', '6', '7', '8', '9'].getD i '0' ∈ encodeIndex then i + 1 else 0

/-- The encoders the loop over an index comes to. -/
def selected (t : EncTable) (encodeIndex : Text) : List EncInfo :=
  (List.range roomEncNum).filterMap fun i =>
    t.encs[i]?.bind fun e =>
      if e.id = 0 ∨ encId encodeIndex i = 0 then none
      else t.getEncInfoById (encId encodeIndex i)

/-! ### The upper thread -/

/-- A step of the upper thread. -/
inductive UpperOp
  /-- `mask = MSG_QUEUE_REC_CLR`. -/
  | clear
  /-- `mask |= MSG_QUEUE_REC_FLG`. -/
  | flag
  /-- `mask |= 1 << stream_id`. -/
  | set (stream : ℕ)
  /-- The same in `adjustMask`. -/
  | setAdjust (stream : ℕ)
  /-- The request is sent to the encoder of the stream. -/
  | send (stream : ℕ)
  /-- The mask is compared with `MSG_QUEUE_REC_FLG`. -/
  | check
  /-- The request is answered with `0`. -/
  | refuse
  /-- `upper_msg_time_que_add_node`. -/
  | addNode
  deriving DecidableEq, Repr

/-- The stream a step sends to. -/
def UpperOp.target : UpperOp → Option ℕ
  | .send stream => some stream
  | _ => none

/-- Send to a stream, if it is open. -/
def sendTo (q : QualityInfo) : List UpperOp := if 0 < q.socket then [.send q.msgQueType] else []

/-- The stream of an encoder for remote control. -/
def remoteCtrlStream (listed : ℕ → Bool) (e : EncInfo) : Option QualityInfo :=
  if e.id = 0 then none
  else if 0 < e.hdQuaInfo.socket then if listed e.id then some e.hdQuaInfo else none
  else if 0 < e.sdQuaInfo.socket then if listed e.id then some e.sdQuaInfo else none
  else none

/-- The streams of an encoder for an I-frame. -/
def iFrameReqStreams (e : EncInfo) : List QualityInfo :=
  match e.encodeType with
  | .jpeg => [e.hdQuaInfo]
  | .h264 => [e.hdQuaInfo, e.sdQuaInfo]

/-- The streams the loop of a request comes to. -/
def Request.streams (req : Request) : List QualityInfo :=
  match req.kind with
  | .remoteCtrl listed => req.encoders.encs.filterMap (remoteCtrlStream listed)
  | .iFrameReq encodeIndex => (selected req.encoders encodeIndex).flatMap iFrameReqStreams
  | .directorMode encodeIndex => (selected req.encoders encodeIndex).map EncInfo.hdQuaInfo

/-- What the loop does for a stream. -/
def Request.streamOps (req : Request) (q : QualityInfo) : List UpperOp :=
  match req.kind with
  | .directorMode _ => .setAdjust q.msgQueType :: sendTo q
  | _ => .set q.msgQueType :: sendTo q

/-- What is behind the loop. -/
def Request.tail (req : Request) : List UpperOp :=
  match req.kind with
  | .remoteCtrl _ => [.check]
  | _ => [.addNode]

/-- `upper_msg_remote_ctrl_deal`, `upper_msg_iFrame_req_deal`, `upper_msg_director_mode_ctrl_deal`:
the steps of the upper thread. -/
def program (req : Request) : List UpperOp :=
  .clear :: .flag :: (req.streams.flatMap req.streamOps ++ req.tail)

/-- The streams to which the request is sent. -/
def addressed (req : Request) : Finset ℕ :=
  ((program req).filterMap UpperOp.target).toFinset

/-! ### The lower thread -/

/-- Where the lower thread is. -/
inductive Lower
  /-- Between two answers. -/
  | idle
  /-- Before `*mask &= ~(1 << msgq->msgtype)`. -/
  | clear (a : Answer)
  /-- Before the flag is looked at. -/
  | flag (a : Answer)
  /-- Before it is cleared. -/
  | unflag (a : Answer)
  /-- Before `upper_msg_is_all_enc_resp`. -/
  | test (a : Answer)
  /-- Before the flag is read for the return code. -/
  | value (a : Answer)
  /-- Before the queue is searched; the mask was `mask`. -/
  | search (a : Answer) (mask : Mask)
  /-- Before the response is sent. -/
  | respond (a : Answer) (r : Response)
  /-- Before `*mask = MSG_QUEUE_REC_ALL`. -/
  | close (a : Answer)
  /-- Director mode, before the answer is passed on. -/
  | forward (a : Answer)
  /-- Before the bit in `setRemoteModeMask` is cleared. -/
  | clearMode (a : Answer)
  /-- Before `roomInfoMask` is looked at. -/
  | testInfo (a : Answer)
  /-- Before `upper_msg_time_que_del_node`. -/
  | delete (a : Answer)
  deriving DecidableEq

/-- What goes to the upper side. -/
inductive Upward
  /-- A response. -/
  | response (r : Response)
  /-- An answer as it came. -/
  | forwarded (a : Answer)
  deriving DecidableEq

/-- The two threads and the encoders while a request is forwarded. -/
structure State where
  /-- The room. -/
  room : RoomMsgEnv
  /-- `remoteCtrlMask`, `iframeMask` or `setRemoteModeMask` at the platform. -/
  mask : Mask
  /-- `adjustMask` at the platform. -/
  adjustMask : Mask
  /-- `roomInfoMask` at the platform. -/
  roomInfoMask : Mask
  /-- What the upper thread has yet to do. -/
  ops : List UpperOp
  /-- Where the lower thread is. -/
  lower : Lower
  /-- The answers in its message queue. -/
  inbox : List Answer
  /-- The streams to which the request has been sent. -/
  sent : Finset ℕ
  /-- The streams that have answered. -/
  answered : Finset ℕ

/-- One step of the upper thread. -/
def upperStep (req : Request) (s : State) : State × Option Upward :=
  match s.ops with
  | [] => (s, none)
  | .clear :: ops => ({ s with ops := ops, mask := msgQueueRecClr }, none)
  | .flag :: ops => ({ s with ops := ops, mask := s.mask ||| msgQueueRecFlg }, none)
  | .set stream :: ops => ({ s with ops := ops, mask := setMaskBitVal s.mask stream true }, none)
  | .setAdjust stream :: ops =>
    ({ s with ops := ops, adjustMask := setMaskBitVal s.adjustMask stream true }, none)
  | .send stream :: ops => ({ s with ops := ops, sent := insert stream s.sent }, none)
  | .check :: ops =>
    if s.mask = msgQueueRecFlg then ({ s with ops := .refuse :: ops }, none)
    else ({ s with ops := .addNode :: ops }, none)
  | .refuse :: ops =>
    ({ s with ops := ops },
      some (.response ⟨req.head, msgRemoteCtrl, 0, req.passKey, req.userId, s.room.roomId⟩))
  | .addNode :: ops =>
    ({ s with
        ops := ops
        room := { s.room with
          msgTimeQue := (addNode s.room.msgTimeQue req.code req.passKey req.userId req.head true
            req.now).1 } }, none)

/-- Where the lower thread begins with an answer. -/
def Request.entry (req : Request) (a : Answer) : Lower :=
  match req.kind with
  | .directorMode _ => .forward a
  | _ => .clear a

/-- One step of the lower thread: `lower_msg_resp_xml_deal`, and for director mode
`lower_msg_director_mode_ctrl_deal`. -/
def lowerStep (req : Request) (s : State) : State × Option Upward :=
  match s.lower with
  | .idle =>
    match s.inbox with
    | [] => (s, none)
    | a :: inbox => ({ s with inbox := inbox, lower := req.entry a }, none)
  | .clear a =>
    ({ s with mask := s.mask &&& ~~~((1 : Mask) <<< a.msgtype), lower := .flag a }, none)
  | .flag a =>
    if getMaskBitVal s.mask msgQueueRecFlgBit ≠ 0 ∧ a.returnCode = 0 then
      ({ s with lower := .unflag a }, none)
    else ({ s with lower := .test a }, none)
  | .unflag a =>
    ({ s with mask := setMaskBitVal s.mask msgQueueRecFlgBit false, lower := .test a }, none)
  | .test a =>
    if isAllEncResp s.mask then ({ s with lower := .value a }, none)
    else ({ s with lower := .idle }, none)
  | .value a => ({ s with lower := .search a s.mask }, none)
  | .search a mask => ({ s with lower := .respond a (response s.room a mask req.code) }, none)
  | .respond a r => ({ s with lower := .close a }, some (.response r))
  | .close a => ({ s with mask := msgQueueRecAll, lower := .delete a }, none)
  | .forward a => ({ s with lower := .clearMode a }, some (.forwarded a))
  | .clearMode a =>
    ({ s with mask := s.mask &&& ~~~((1 : Mask) <<< a.msgtype), lower := .testInfo a }, none)
  | .testInfo a =>
    if s.roomInfoMask = msgQueueRecClr then ({ s with lower := .delete a }, none)
    else ({ s with lower := .idle }, none)
  | .delete a =>
    ({ s with
        room := { s.room with
          msgTimeQue := delNode s.room.msgTimeQue a.msgCode a.passKey (a.userId.getD []) }
        lower := .idle }, none)

/-! ### Runs -/

/-- What can happen. -/
inductive Act
  /-- The upper thread takes a step. -/
  | upper
  /-- The lower thread takes a step. -/
  | lower
  /-- An encoder answers. -/
  | answer (a : Answer)
  deriving DecidableEq

/-- The answer is one to the request: it carries its code, pass key and user id. -/
def Request.IsAnswer (req : Request) (a : Answer) : Prop :=
  a.msgCode = req.code ∧ a.passKey = some req.passKey ∧ a.userId.getD [] = req.userId

instance (req : Request) : DecidablePred req.IsAnswer :=
  fun _ => inferInstanceAs (Decidable (_ ∧ _))

/-- One step of a run. An encoder answers once at most, and only what it has been sent. -/
def step (req : Request) (s : State) : Act → State × Option Upward
  | .upper => upperStep req s
  | .lower => lowerStep req s
  | .answer a =>
    if req.IsAnswer a ∧ a.msgtype ∈ s.sent ∧ a.msgtype ∉ s.answered then
      ({ s with inbox := s.inbox ++ [a], answered := insert a.msgtype s.answered }, none)
    else (s, none)

/-- The state in which the request arrives. -/
def initial (req : Request) (room : RoomMsgEnv) (mask adjustMask roomInfoMask : Mask) : State where
  room := room
  mask := mask
  adjustMask := adjustMask
  roomInfoMask := roomInfoMask
  ops := program req
  lower := .idle
  inbox := []
  sent := ∅
  answered := ∅

/-- Both threads are at rest. -/
def Quiet (s : State) : Prop := s.ops = [] ∧ s.lower = .idle ∧ s.inbox = []

/-! ### The lower thread alone -/

/-- What has gone to the upper side in a run. -/
def upward (out : List (Option Upward)) : List Upward := out.reduceOption

/-- Its first steps work out the mask. -/
theorem answerMask_steps (req : Request) {s : State} {a : Answer} (ha : s.lower = .clear a) :
    ∃ k, Run.final (step req) s (List.replicate k .lower) =
        { s with lower := .test a, mask := answerMask s.mask a } ∧
      upward (Run.outs (step req) s (List.replicate k .lower)) = [] := by
  obtain ⟨room, mask, adjustMask, roomInfoMask, ops, lower, inbox, sent, answered⟩ := s
  obtain rfl : lower = .clear a := ha
  obtain ⟨m, hm⟩ : ∃ m, m = mask &&& ~~~((1 : Mask) <<< a.msgtype) := ⟨_, rfl⟩
  by_cases hflag : getMaskBitVal m msgQueueRecFlgBit ≠ 0 ∧ a.returnCode = 0
  · refine ⟨3, ?_, ?_⟩
    · simp only [List.replicate, Run.final_cons, Run.final_nil, step, lowerStep, answerMask, ← hm,
        if_pos hflag, if_pos hflag.1, if_pos hflag.2]
    · simp only [List.replicate, Run.outs_cons, Run.outs_nil, step, lowerStep, ← hm, if_pos hflag]
      rfl
  · have hmask : answerMask mask a = m := by
      rw [answerMask, ← hm]
      split
      · rw [if_neg fun hcode => hflag ⟨‹_›, hcode⟩]
      · rfl
    refine ⟨2, ?_, ?_⟩
    · simp only [List.replicate, Run.final_cons, Run.final_nil, step, lowerStep, hmask, ← hm,
        if_neg hflag]
    · simp only [List.replicate, Run.outs_cons, Run.outs_nil, step, lowerStep, ← hm, if_neg hflag]
      rfl

/-- **Left alone** from the first step on, the lower thread does what `respXmlDeal` does. -/
theorem respXmlDeal_steps (req : Request) {s : State} {a : Answer} (ha : s.lower = .clear a) :
    ∃ k, Run.final (step req) s (List.replicate k .lower) =
        { s with
          lower := .idle
          mask := (respXmlDeal s.room a s.mask req.code).2.1
          room := (respXmlDeal s.room a s.mask req.code).1 } ∧
      upward (Run.outs (step req) s (List.replicate k .lower)) =
        ((respXmlDeal s.room a s.mask req.code).2.2.map Upward.response).toList := by
  obtain ⟨k, hfinal, houts⟩ := answerMask_steps req ha
  rw [respXmlDeal]
  by_cases hall : isAllEncResp (answerMask s.mask a) = true
  · refine ⟨k + 6, ?_, ?_⟩
    · rw [List.replicate_add, Run.final_append, hfinal]
      simp [List.replicate, step, lowerStep, hall]
    · rw [List.replicate_add, Run.outs_append, hfinal, upward, List.reduceOption_append]
      rw [upward] at houts
      simp [List.replicate, step, lowerStep, hall, houts]
  · refine ⟨k + 1, ?_, ?_⟩
    · rw [List.replicate_add, Run.final_append, hfinal]
      simp [List.replicate, step, lowerStep, hall]
    · rw [List.replicate_add, Run.outs_append, hfinal, upward, List.reduceOption_append]
      rw [upward] at houts
      simp [List.replicate, step, lowerStep, hall, houts]

/-! ### Both threads come to rest -/

/-- The steps the upper thread has left. -/
def UpperOp.work : UpperOp → ℕ
  | .check => 2
  | _ => 1

/-- The steps the lower thread has left with an answer. -/
def Lower.work : Lower → ℕ
  | .idle => 0
  | .clear _ => 9
  | .flag _ => 8
  | .unflag _ => 7
  | .test _ => 6
  | .value _ => 5
  | .search .. => 4
  | .respond .. => 3
  | .close _ => 2
  | .forward _ => 4
  | .clearMode _ => 3
  | .testInfo _ => 2
  | .delete _ => 1

/-- The steps both threads have left. -/
def work (s : State) : ℕ := (s.ops.map UpperOp.work).sum + s.lower.work + 10 * s.inbox.length

theorem entry_work (req : Request) (a : Answer) : (req.entry a).work < 10 := by
  rw [Request.entry]
  split <;> simp [Lower.work]

/-- **Each step** that finds something to do leaves less. -/
theorem work_lt (req : Request) (s : State) :
    (s.ops ≠ [] → work (step req s .upper).1 < work s) ∧
      (s.lower ≠ .idle ∨ s.inbox ≠ [] → work (step req s .lower).1 < work s) := by
  obtain ⟨room, mask, adjustMask, roomInfoMask, ops, lower, inbox, sent, answered⟩ := s
  constructor
  · intro hops
    cases ops with
    | nil => exact absurd rfl hops
    | cons op ops =>
      cases op with
      | check =>
        simp only [step, upperStep]
        split <;> simp [work, UpperOp.work]
      | _ => simp [step, upperStep, work, UpperOp.work]
  · intro hbusy
    cases lower with
    | idle =>
      cases inbox with
      | nil => simp at hbusy
      | cons a inbox =>
        have hentry := entry_work req a
        have hidle : Lower.idle.work = 0 := rfl
        simp only [step, lowerStep, work, List.length_cons, hidle]
        omega
    | flag a | test a | testInfo a =>
      simp only [step, lowerStep]
      split <;> simp [work, Lower.work]
    | _ => simp [step, lowerStep, work, Lower.work]

/-- **The threads come to rest** from every state, if they are let. -/
theorem exists_quiet (req : Request) (s : State) :
    ∃ acts, (∀ act ∈ acts, act = .upper ∨ act = .lower) ∧ Quiet (Run.final (step req) s acts) := by
  induction hn : work s using Nat.strong_induction_on generalizing s with
  | _ n ih =>
    by_cases hq : Quiet s
    · exact ⟨[], by simp, hq⟩
    · obtain ⟨act, hact, hlt⟩ : ∃ act, (act = .upper ∨ act = .lower) ∧
          work (step req s act).1 < work s := by
        obtain ⟨hupper, hlower⟩ := work_lt req s
        by_cases hops : s.ops = []
        · refine ⟨.lower, .inr rfl, hlower ?_⟩
          by_contra hidle
          rw [not_or, not_not, not_not] at hidle
          exact hq ⟨hops, hidle⟩
        · exact ⟨.upper, .inl rfl, hupper hops⟩
      obtain ⟨acts, hacts, hquiet⟩ := ih _ (hn ▸ hlt) (step req s act).1 rfl
      refine ⟨act :: acts, ?_, hquiet⟩
      intro act' hmem
      rcases List.mem_cons.mp hmem with rfl | hmem
      · exact hact
      · exact hacts act' hmem

end Room

end ReachEdukit
