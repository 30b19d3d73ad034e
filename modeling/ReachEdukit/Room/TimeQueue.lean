import ReachEdukit.Lib.Run
import ReachEdukit.Lib.Slots

/-!
# The queue of pending requests

A request that is forwarded to the encoders is put into `msgTimeQue`, a table of fifty slots, until
it is answered or its time is over. A slot with message code `0` is idle. Every operation scans the
table under a mutex and breaks at the first slot it is looking for.

Requests of one platform are told apart by message code and pass key; those of the live nodes, which
share a pass key, by the user id as well. But adding and deleting look for code and pass key only,
and break there: with two users pending, the slot of the one hides that of the other. `Hidden` is
that situation, and it is the only one in which the queue goes wrong.

## What is left out

The mutex; the texts are within `ROOM_MSG_VAL_LEN`; the status report that follows the time-out of a
connect or a record request. `time_out_process_fun` is kept as whether there is one.

## Main definitions

* `TimeQue`, `addNode`, `delNode`, `monitorTimeQueue`
* `Unique`, `Pending` — no two requests alike; a request is in the table
* `Hidden` — its slot is behind one of another user

## Main results

* `unique_addNode_iff`, `unique_delNode`, `unique_monitor` — what each operation does to `Unique`
* `pending_delNode_iff` — a request is still there after its deletion exactly when it was hidden
* `orderly_iff` — a run is orderly exactly when no step meets a hidden request
-/

namespace ReachEdukit

namespace Room

open Slots

/-! ### Slots -/

/-- A text, without its terminating zero. -/
abbrev Text := List Char

/-- A message code. It is compared as an unsigned 32-bit value. -/
abbrev MsgCode := BitVec 32

/-- `MSG_REMOTE_CTRL`. -/
def msgRemoteCtrl : MsgCode := 30013

/-- `MSG_CONNECT_ROOM_REQ`. -/
def msgConnectRoomReq : MsgCode := 30015

/-- `MSG_VOLUME_REQ`. -/
def msgVolumeReq : MsgCode := 30019

/-- `MSG_ENC_LOGIN`. -/
def msgEncLogin : MsgCode := 31001

/-- `MSG_LIVENODE_PASSKEY`. -/
def msgLivenodePasskey : Text := ['L', 'i', 'v', 'e', 'N', 'o', 'd', 'e']

/-- `ROOM_MSG_TIME_QUE_NUM`. -/
def roomMsgTimeQueNum : ℕ := 50

/-- `struct timeval`. -/
structure Timeval where
  /-- Seconds. -/
  tvSec : ℤ
  /-- Microseconds. -/
  tvUsec : ℤ
  deriving DecidableEq, Repr

/-- `MsgHeader`. -/
structure MsgHeader where
  /-- The length of the message. -/
  sLen : BitVec 16
  /-- The version. -/
  sVer : BitVec 16
  /-- The kind of message. -/
  sMsgType : BitVec 16
  /-- What the sender tells its messages by. -/
  sData : BitVec 16
  deriving DecidableEq, Repr

/-- `MsgTimeQueue`, a slot. -/
structure MsgTimeQueue where
  /-- The message code; `0` in an idle slot. -/
  msgCode : MsgCode
  /-- The pass key. -/
  passKey : Text
  /-- The user id. -/
  userId : Text
  /-- The header of the request. -/
  head : MsgHeader
  /-- When it was added. -/
  time : Timeval
  /-- There is a `time_out_process_fun`. -/
  timeOutProcessFun : Bool
  deriving DecidableEq, Repr

/-- A slot after `r_bzero`. -/
def MsgTimeQueue.zero : MsgTimeQueue := ⟨0, [], [], ⟨0, 0, 0, 0⟩, ⟨0, 0⟩, false⟩

/-- `msgTimeQue`. -/
structure TimeQue where
  /-- The slots. -/
  slots : List MsgTimeQueue
  /-- There are fifty. -/
  length_slots : slots.length = roomMsgTimeQueNum

/-- The table of a new room. -/
def TimeQue.empty : TimeQue := ⟨List.replicate roomMsgTimeQueNum .zero, List.length_replicate⟩

/-! ### Adding -/

/-- `upper_msg_have_same_msgcode`. -/
def haveSameMsgcode (slots : List MsgTimeQueue) (code : MsgCode) (passKey userId : Text) : Bool :=
  match slots.find? fun e => e.msgCode ≠ 0 &&
      ((code = e.msgCode && code = msgConnectRoomReq) ||
        (passKey = e.passKey && code = e.msgCode)) with
  | none => false
  | some e =>
    if code = msgConnectRoomReq then true
    else if passKey = msgLivenodePasskey then userId = e.userId
    else true

/-- A slot is idle. -/
def idle (e : MsgTimeQueue) : Bool := e.msgCode = 0

/-- `upper_msg_time_que_add_node` at the time `now`: the new table, and whether it was added. -/
def addNode (q : TimeQue) (code : MsgCode) (passKey userId : Text) (head : MsgHeader)
    (timeOutProcessFun : Bool) (now : Timeval) : TimeQue × Bool :=
  if haveSameMsgcode q.slots code passKey userId then (q, false)
  else if q.slots.find? idle = none then (q, false)
  else
    (⟨setFirst idle (fun _ => ⟨code, passKey, userId, head, now, timeOutProcessFun⟩) q.slots,
      (length_setFirst ..).trans q.length_slots⟩, true)

/-! ### Deleting -/

/-- The slot at which `upper_msg_time_que_del_node` breaks. -/
def delHit (code : MsgCode) (passKey : Text) (e : MsgTimeQueue) : Bool :=
  e.msgCode ≠ 0 && ((passKey = e.passKey && code = e.msgCode) ||
    (code = msgEncLogin && e.msgCode = msgConnectRoomReq))

/-- What it leaves there. -/
def delSlot (code : MsgCode) (passKey userId : Text) (e : MsgTimeQueue) : MsgTimeQueue :=
  if passKey = e.passKey ∧ code = e.msgCode then
    if passKey = msgLivenodePasskey then if userId = e.userId then .zero else e
    else .zero
  else .zero

/-- `upper_msg_time_que_del_node`, for the code, the pass key and the user id it finds in a message.
Without a code or a pass key it returns at once. -/
def delNode (q : TimeQue) (code : MsgCode) (passKey : Option Text) (userId : Text) : TimeQue :=
  match passKey with
  | none => q
  | some passKey =>
    if code = 0 then q
    else ⟨setFirst (delHit code passKey) (delSlot code passKey userId) q.slots,
      (length_setFirst ..).trans q.length_slots⟩

/-! ### Time-outs -/

/-- `upper_msg_tim_subtract`: from `x` to `y`, unless `x` is later. -/
def timSubtract (x y : Timeval) : Option Timeval :=
  if y.tvSec < x.tvSec then none
  else if x.tvSec = y.tvSec ∧ y.tvUsec < x.tvUsec then none
  else if y.tvUsec - x.tvUsec < 0 then some ⟨y.tvSec - x.tvSec - 1, y.tvUsec - x.tvUsec + 1000000⟩
  else some ⟨y.tvSec - x.tvSec, y.tvUsec - x.tvUsec⟩

/-- The time a request has, in seconds. -/
def timeOut (code : MsgCode) : ℤ :=
  if code = msgEncLogin then 10 else if code = msgVolumeReq then 2 else 5

/-- `upper_msg_monitor_time_out_status`: the time is over; `none` when the clock has gone back. -/
def monitorTimeOutStatus (time now : Timeval) (timeOut : ℤ) : Option Bool :=
  (timSubtract time now).map fun delta => timeOut < delta.tvSec

/-- A time-out response. -/
structure TimeOut where
  /-- The message code of the request. -/
  msgCode : MsgCode
  /-- Its pass key. -/
  passKey : Text
  /-- Its user id. -/
  userId : Text
  /-- Its header. -/
  head : MsgHeader
  deriving DecidableEq, Repr

/-- One slot in `upper_msg_monitor_time_queue`. -/
def monitorSlot (now : Timeval) (e : MsgTimeQueue) : MsgTimeQueue × Option TimeOut :=
  if e.msgCode = 0 then (e, none)
  else
    match monitorTimeOutStatus e.time now (timeOut e.msgCode) with
    | some true =>
      (.zero, if e.timeOutProcessFun then some ⟨e.msgCode, e.passKey, e.userId, e.head⟩ else none)
    | some false => (e, none)
    | none => ({ e with time := now }, none)

/-- `upper_msg_monitor_time_queue`: the new table, and the responses. -/
def monitorTimeQueue (q : TimeQue) (now : Timeval) : TimeQue × List TimeOut :=
  (⟨q.slots.map fun e => (monitorSlot now e).1, (List.length_map ..).trans q.length_slots⟩,
    q.slots.filterMap fun e => (monitorSlot now e).2)

/-! ### Runs -/

/-- A call. -/
inductive Event
  /-- A request is queued. -/
  | add (code : MsgCode) (passKey userId : Text) (head : MsgHeader) (timeOutProcessFun : Bool)
      (now : Timeval)
  /-- A request is answered. -/
  | del (code : MsgCode) (passKey : Option Text) (userId : Text)
  /-- The queue is looked through. -/
  | monitor (now : Timeval)
  deriving DecidableEq, Repr

/-- One call, and the time-out responses it sends. -/
def queStep (q : TimeQue) : Event → TimeQue × List TimeOut
  | .add code passKey userId head fn now => ((addNode q code passKey userId head fn now).1, [])
  | .del code passKey userId => (delNode q code passKey userId, [])
  | .monitor now => monitorTimeQueue q now

/-! ### What the queue should do -/

/-- The slot holds a request with this code and pass key. -/
def IsFor (code : MsgCode) (passKey : Text) (e : MsgTimeQueue) : Prop :=
  e.msgCode ≠ 0 ∧ passKey = e.passKey ∧ code = e.msgCode

instance (code : MsgCode) (passKey : Text) : DecidablePred (IsFor code passKey) := fun _ =>
  inferInstanceAs (Decidable (_ ∧ _))

/-- It is the request of this user, where users are told apart. -/
def IsRequest (code : MsgCode) (passKey userId : Text) (e : MsgTimeQueue) : Prop :=
  IsFor code passKey e ∧ (passKey = msgLivenodePasskey → userId = e.userId)

instance (code : MsgCode) (passKey userId : Text) : DecidablePred (IsRequest code passKey userId) :=
  fun _ => inferInstanceAs (Decidable (_ ∧ _))

/-- The request is in the table. -/
def Pending (code : MsgCode) (passKey userId : Text) (slots : List MsgTimeQueue) : Prop :=
  ∃ e ∈ slots, IsRequest code passKey userId e

/-- No two slots hold the same request. -/
def Unique (slots : List MsgTimeQueue) : Prop :=
  slots.Pairwise fun a b => ¬ IsRequest a.msgCode a.passKey a.userId b

/-- No two slots hold this request. -/
def Single (code : MsgCode) (passKey userId : Text) (slots : List MsgTimeQueue) : Prop :=
  slots.Pairwise fun a b =>
    ¬ (IsRequest code passKey userId a ∧ IsRequest code passKey userId b)

/-- The request of a live node is in the table, but the first slot with its code and pass key is
that of another user. -/
def Hidden (code : MsgCode) (passKey userId : Text) (slots : List MsgTimeQueue) : Prop :=
  passKey = msgLivenodePasskey ∧ Pending code passKey userId slots ∧
    ∀ e, slots.find? (IsFor code passKey) = some e → userId ≠ e.userId

instance (code : MsgCode) (passKey userId : Text) (slots : List MsgTimeQueue) :
    Decidable (Pending code passKey userId slots) := inferInstanceAs (Decidable (∃ e ∈ slots, _))

instance (code : MsgCode) (passKey userId : Text) (slots : List MsgTimeQueue) :
    Decidable (Hidden code passKey userId slots) :=
  decidable_of_iff (passKey = msgLivenodePasskey ∧ Pending code passKey userId slots ∧
    (slots.find? (IsFor code passKey)).all fun e => userId ≠ e.userId) (by
      simp [Hidden, Option.all_eq_true])

variable {code : MsgCode} {passKey userId : Text} {slots : List MsgTimeQueue}

theorem IsRequest.isFor {e : MsgTimeQueue} (h : IsRequest code passKey userId e) :
    IsFor code passKey e := h.1

theorem not_isFor_zero : ¬ IsFor code passKey .zero := fun h => h.1 rfl

/-- Two slots with the same request, the other way round. -/
theorem isRequest_symm {a b : MsgTimeQueue}
    (h : ¬ IsRequest a.msgCode a.passKey a.userId b) :
    ¬ IsRequest b.msgCode b.passKey b.userId a := by
  rintro ⟨⟨hne, hkey, hcode⟩, huser⟩
  refine h ⟨⟨?_, hkey.symm, hcode.symm⟩, fun hlive => (huser (hkey.trans hlive)).symm⟩
  rw [hcode]
  exact hne

/-- A request of the table is the one of its slot. -/
theorem IsRequest.eq_of {a b : MsgTimeQueue} (ha : IsRequest code passKey userId a)
    (hb : IsRequest code passKey userId b) : IsRequest a.msgCode a.passKey a.userId b := by
  obtain ⟨⟨-, hkey, hcode⟩, huser⟩ := ha
  obtain ⟨⟨hne, hkey', hcode'⟩, huser'⟩ := hb
  refine ⟨⟨hne, hkey.symm.trans hkey', hcode.symm.trans hcode'⟩, fun hlive => ?_⟩
  exact (huser (hkey.trans hlive)).symm.trans (huser' (hkey.trans hlive))

theorem Unique.single (h : Unique slots) : Single code passKey userId slots :=
  h.imp fun hab hr => hab (hr.1.eq_of hr.2)

/-- A request that is not in the table is not there twice. -/
theorem single_of_not_pending (h : ¬ Pending code passKey userId slots) :
    Single code passKey userId slots := by
  exact List.pairwise_of_forall_mem_list fun a ha _ _ hr => h ⟨a, ha, hr.1⟩

/-- The first slot with the code and the pass key of a pending request. -/
theorem Pending.exists_first (h : Pending code passKey userId slots) :
    ∃ e, slots.find? (IsFor code passKey) = some e ∧ IsFor code passKey e := by
  obtain ⟨e, he, hr⟩ := h
  cases hf : slots.find? (IsFor code passKey) with
  | none => exact absurd hr.isFor (by simpa using List.find?_eq_none.mp hf e he)
  | some e' => exact ⟨e', rfl, by simpa using List.find?_some hf⟩

/-- A pending request that is not hidden is in the first slot with its code and pass key. -/
theorem Pending.first (h : Pending code passKey userId slots)
    (hh : ¬ Hidden code passKey userId slots) :
    ∃ e, slots.find? (IsFor code passKey) = some e ∧ IsRequest code passKey userId e := by
  obtain ⟨e, hf, hfor⟩ := h.exists_first
  refine ⟨e, hf, hfor, fun hlive => ?_⟩
  by_contra huser
  refine hh ⟨hlive, h, fun e' he' => ?_⟩
  obtain rfl := Option.some.inj (hf.symm.trans he')
  exact huser

/-! ### Adding keeps requests apart, unless one is hidden -/

/-- `upper_msg_have_same_msgcode` finds a request unless it is hidden. -/
theorem haveSameMsgcode_iff (hc : code ≠ msgConnectRoomReq) :
    haveSameMsgcode slots code passKey userId = true ↔
      Pending code passKey userId slots ∧ ¬ Hidden code passKey userId slots := by
  have hscan : (fun e : MsgTimeQueue => e.msgCode ≠ 0 &&
      ((code = e.msgCode && code = msgConnectRoomReq) ||
        (passKey = e.passKey && code = e.msgCode)) : MsgTimeQueue → Bool) =
      fun e => decide (IsFor code passKey e) := by
    funext e
    rw [Bool.eq_iff_iff, decide_eq_true_iff]
    simp [IsFor, hc]
  rw [haveSameMsgcode, hscan]
  constructor
  · intro h
    cases hf : slots.find? (IsFor code passKey) with
    | none => simp [hf] at h
    | some e =>
      simp only [hf, if_neg hc] at h
      have hfor : IsFor code passKey e := by simpa using List.find?_some hf
      have huser : passKey = msgLivenodePasskey → userId = e.userId := by
        intro hlive
        rw [if_pos hlive] at h
        simpa using h
      refine ⟨⟨e, List.mem_of_find?_eq_some hf, hfor, huser⟩, ?_⟩
      rintro ⟨hlive, -, hother⟩
      exact hother e hf (huser hlive)
  · rintro ⟨hp, hh⟩
    obtain ⟨e, hf, -, huser⟩ := hp.first hh
    simp only [hf, if_neg hc]
    split
    · exact decide_eq_true (huser ‹_›)
    · rfl

/-- **Adding** keeps the requests apart unless it does not see the one it repeats. -/
theorem unique_addNode_iff {q : TimeQue} (hq : Unique q.slots) (hc : code ≠ msgConnectRoomReq)
    (head : MsgHeader) (fn : Bool) (now : Timeval) :
    Unique (addNode q code passKey userId head fn now).1.slots ↔
      (Hidden code passKey userId q.slots → q.slots.find? idle = none) := by
  have hsame : haveSameMsgcode q.slots code passKey userId = true ↔
      Pending code passKey userId q.slots ∧ ¬ Hidden code passKey userId q.slots :=
    haveSameMsgcode_iff hc
  rw [addNode]
  by_cases h : haveSameMsgcode q.slots code passKey userId = true
  · rw [if_pos h]
    exact iff_of_true hq fun hh => absurd hh (hsame.mp h).2
  · rw [if_neg h]
    by_cases hi : q.slots.find? idle = none
    · rw [if_pos hi]
      exact iff_of_true hq fun _ => hi
    · rw [if_neg hi]
      obtain ⟨a, ha⟩ := Option.ne_none_iff_exists'.mp hi
      have hidle : a.msgCode = 0 := by simpa [idle] using List.find?_some ha
      constructor
      · -- the new slot and the hidden one are the same request
        rintro hu ⟨-, ⟨e, he, hr⟩, -⟩
        exfalso
        obtain ⟨l₁, l₂, hl, -, hset⟩ := setFirst_split (p := idle)
          (f := fun _ => ⟨code, passKey, userId, head, now, fn⟩) ha
        have hpair : (l₁ ++ ⟨code, passKey, userId, head, now, fn⟩ :: l₂).Pairwise
            fun a b => ¬ IsRequest a.msgCode a.passKey a.userId b := by
          rw [← hset]
          exact hu
        rw [List.pairwise_middle isRequest_symm, List.pairwise_cons] at hpair
        refine hpair.1 e ?_ hr
        rw [hl] at he
        rcases List.mem_append.mp he with he | he
        · exact List.mem_append_left _ he
        · rcases List.mem_cons.mp he with rfl | he
          · exact absurd hidle hr.isFor.1
          · exact List.mem_append_right _ he
      · intro hh
        have hnot : ¬ Pending code passKey userId q.slots := fun hp =>
          h (hsame.mpr ⟨hp, fun hhid => hi (hh hhid)⟩)
        exact pairwise_setFirst isRequest_symm hq fun _ _ => .inr fun b hb hr => hnot ⟨b, hb, hr⟩

/-! ### Deleting removes a request unless it is hidden -/

theorem delSlot_eq (e : MsgTimeQueue) :
    delSlot code passKey userId e = .zero ∨ delSlot code passKey userId e = e := by
  rw [delSlot]
  split
  · split
    · split
      · exact .inl rfl
      · exact .inr rfl
    · exact .inl rfl
  · exact .inl rfl

theorem delHit_eq (hc : code ≠ msgEncLogin) :
    delHit code passKey = fun e => decide (IsFor code passKey e) := by
  funext e
  rw [Bool.eq_iff_iff, decide_eq_true_iff]
  simp [delHit, IsFor, hc]

/-- Deleting keeps the requests apart. -/
theorem unique_delNode {q : TimeQue} (hq : Unique q.slots) (passKey : Option Text) :
    Unique (delNode q code passKey userId).slots := by
  cases passKey with
  | none => exact hq
  | some passKey =>
    rw [delNode]
    split
    · exact hq
    · refine pairwise_setFirst isRequest_symm hq fun a _ => ?_
      rcases delSlot_eq a with h | h
      · right
        rw [h]
        rintro b - hr
        exact hr.isFor.1 hr.isFor.2.2.symm
      · exact .inl h

/-- **Deleting** leaves a pending request in the table exactly when it is hidden. -/
theorem pending_delNode_iff {q : TimeQue} (hq : Single code passKey userId q.slots)
    (hc : code ≠ msgEncLogin) (hp : Pending code passKey userId q.slots) :
    Pending code passKey userId (delNode q code (some passKey) userId).slots ↔
      Hidden code passKey userId q.slots := by
  obtain ⟨e, hfind, hfor⟩ := hp.exists_first
  have hcode : code ≠ 0 := by
    rw [hfor.2.2]
    exact hfor.1
  rw [← delHit_eq hc] at hfind
  obtain ⟨l₁, l₂, hl, -, hset⟩ :=
    setFirst_split (f := delSlot code passKey userId) hfind
  have hslots : (delNode q code (some passKey) userId).slots =
      l₁ ++ delSlot code passKey userId e :: l₂ := by
    rw [← hset, delNode]
    simp only [if_neg hcode]
  rw [delHit_eq hc] at hfind
  rw [hslots]
  by_cases hr : IsRequest code passKey userId e
  · -- the slot is emptied, and it was the only one with the request
    have hzero : delSlot code passKey userId e = .zero := by
      rw [delSlot, if_pos hr.isFor.2]
      split
      · rw [if_pos (hr.2 ‹_›)]
      · rfl
    have hpair := hq
    rw [hl, Single, List.pairwise_middle fun h hr => h hr.symm, List.pairwise_cons] at hpair
    rw [hzero]
    refine iff_of_false ?_ ?_
    · rintro ⟨b, hb, hrb⟩
      rcases List.mem_append.mp hb with hb | hb
      · exact hpair.1 b (List.mem_append_left _ hb) ⟨hr, hrb⟩
      · rcases List.mem_cons.mp hb with rfl | hb
        · exact not_isFor_zero hrb.isFor
        · exact hpair.1 b (List.mem_append_right _ hb) ⟨hr, hrb⟩
    · rintro ⟨hlive, -, hother⟩
      exact hother e hfind (hr.2 hlive)
  · -- the slot of another user stays as it is
    have hother : passKey = msgLivenodePasskey ∧ userId ≠ e.userId := by
      by_contra h
      refine hr ⟨hfor, fun hlive => ?_⟩
      by_contra huser
      exact h ⟨hlive, huser⟩
    have hsame : delSlot code passKey userId e = e := by
      rw [delSlot, if_pos hfor.2, if_pos hother.1, if_neg hother.2]
    rw [hsame, ← hl]
    refine iff_of_true hp ⟨hother.1, hp, fun e' he' => ?_⟩
    obtain rfl := Option.some.inj (hfind.symm.trans he')
    exact hother.2

/-! ### Looking through -/

theorem monitorSlot_cases (now : Timeval) (e : MsgTimeQueue) :
    (monitorSlot now e).1 = .zero ∨ ∃ time, (monitorSlot now e).1 = { e with time := time } := by
  rw [monitorSlot]
  split
  · exact .inr ⟨e.time, rfl⟩
  · split
    · exact .inl rfl
    · exact .inr ⟨e.time, rfl⟩
    · exact .inr ⟨now, rfl⟩

/-- A slot that still holds a request held it before. -/
theorem isRequest_monitorSlot {now : Timeval} {e : MsgTimeQueue}
    (h : IsRequest code passKey userId (monitorSlot now e).1) :
    IsRequest code passKey userId e := by
  rcases monitorSlot_cases now e with hz | ⟨time, hz⟩
  · rw [hz] at h
    exact absurd h.isFor not_isFor_zero
  · rw [hz] at h
    exact h

/-- Looking through keeps the requests apart. -/
theorem unique_monitor {q : TimeQue} (hq : Unique q.slots) (now : Timeval) :
    Unique (monitorTimeQueue q now).1.slots := by
  refine List.Pairwise.map _ (fun a b hab hr => hab ?_) hq
  have hb := isRequest_monitorSlot hr
  rcases monitorSlot_cases now a with hz | ⟨time, hz⟩
  · rw [hz] at hr
    exact absurd hr.isFor.2.2.symm hr.isFor.1
  · rw [hz] at hb
    exact hb

/-- A time-out response is that of a slot. -/
theorem pending_of_timeOut {q : TimeQue} {now : Timeval} {t : TimeOut}
    (h : t ∈ (monitorTimeQueue q now).2) : Pending t.msgCode t.passKey t.userId q.slots := by
  obtain ⟨e, he, ht⟩ := List.mem_filterMap.mp h
  refine ⟨e, he, ?_⟩
  rw [monitorSlot] at ht
  split at ht
  · exact absurd ht (by simp)
  · split at ht
    · split at ht
      · obtain rfl := Option.some.inj ht
        exact ⟨⟨‹_›, rfl, rfl⟩, fun _ => rfl⟩
      · exact absurd ht (by simp)
    · exact absurd ht (by simp)
    · exact absurd ht (by simp)

/-! ### Runs -/

/-- The call is for a message other than a connect request and an encoder login, which have keys of
their own. -/
def Event.Ordinary : Event → Prop
  | .add code .. => code ≠ msgConnectRoomReq ∧ code ≠ msgEncLogin
  | .del code .. => code ≠ msgConnectRoomReq ∧ code ≠ msgEncLogin
  | .monitor _ => True

/-- The call adds the request. -/
def Event.Adds (code : MsgCode) (passKey userId : Text) : Event → Prop
  | .add code' passKey' userId' .. => code = code' ∧ passKey = passKey' ∧
      (passKey = msgLivenodePasskey → userId = userId')
  | _ => False

/-- The time-out response is for the request. -/
def TimeOut.IsFor (code : MsgCode) (passKey userId : Text) (t : TimeOut) : Prop :=
  code = t.msgCode ∧ passKey = t.passKey ∧ (passKey = msgLivenodePasskey → userId = t.userId)

/-- A step is orderly: it keeps the requests apart, and a pending request that is deleted is
gone. -/
structure Orderly (q : TimeQue) (ev : Event) : Prop where
  /-- The requests are kept apart. -/
  unique : Unique (queStep q ev).1.slots
  /-- What is deleted is gone. -/
  gone : ∀ code passKey userId, ev = .del code (some passKey) userId →
    Pending code passKey userId q.slots → ¬ Pending code passKey userId (queStep q ev).1.slots

/-- The step does not meet a hidden request. -/
def Clear (q : TimeQue) : Event → Prop
  | .add code passKey userId .. => Hidden code passKey userId q.slots → q.slots.find? idle = none
  | .del code (some passKey) userId => ¬ Hidden code passKey userId q.slots
  | .del _ none _ => True
  | .monitor _ => True

/-- **One step** is orderly exactly when it does not meet a hidden request. -/
theorem orderly_step_iff {q : TimeQue} (hq : Unique q.slots) {ev : Event} (hev : ev.Ordinary) :
    Orderly q ev ↔ Clear q ev := by
  cases ev with
  | add code passKey userId head fn now =>
    have hadd : Unique (addNode q code passKey userId head fn now).1.slots ↔
        (Hidden code passKey userId q.slots → q.slots.find? idle = none) :=
      unique_addNode_iff hq hev.1 head fn now
    constructor
    · intro h
      exact hadd.mp h.unique
    · intro h
      exact ⟨hadd.mpr h, fun _ _ _ hdel => by cases hdel⟩
  | del code passKey userId =>
    cases passKey with
    | none => exact iff_of_true ⟨hq, fun _ _ _ hdel => by cases hdel⟩ trivial
    | some passKey =>
      constructor
      · intro h hh
        have hp : Pending code passKey userId q.slots := hh.2.1
        exact h.gone code passKey userId rfl hp ((pending_delNode_iff hq.single hev.2 hp).mpr hh)
      · intro h
        refine ⟨unique_delNode hq (some passKey), ?_⟩
        rintro _ _ _ ⟨⟩ hp hp'
        exact h ((pending_delNode_iff hq.single hev.2 hp).mp hp')
  | monitor now => exact iff_of_true ⟨unique_monitor hq now, fun _ _ _ hdel => by cases hdel⟩ trivial

/-- A request that is not pending and is not added is not pending afterwards. -/
theorem not_pending_step {q : TimeQue} {ev : Event} (h : ¬ Pending code passKey userId q.slots)
    (hev : ¬ ev.Adds code passKey userId) :
    ¬ Pending code passKey userId (queStep q ev).1.slots := by
  rintro ⟨b, hb, hr⟩
  cases ev with
  | add code' passKey' userId' head fn now =>
    simp only [queStep, addNode] at hb
    split at hb
    · exact h ⟨b, hb, hr⟩
    · split at hb
      · exact h ⟨b, hb, hr⟩
      · rcases mem_of_mem_setFirst hb with hb | ⟨-, -, rfl⟩
        · exact h ⟨b, hb, hr⟩
        · exact hev ⟨hr.1.2.2, hr.1.2.1, hr.2⟩
  | del code' passKey' userId' =>
    simp only [queStep, delNode] at hb
    split at hb
    · exact h ⟨b, hb, hr⟩
    · split at hb
      · exact h ⟨b, hb, hr⟩
      · rcases mem_of_mem_setFirst hb with hb | ⟨a, ha, rfl⟩
        · exact h ⟨b, hb, hr⟩
        · rcases delSlot_eq a with hz | hz
          · rw [hz] at hr
            exact not_isFor_zero hr.isFor
          · rw [hz] at hr
            exact h ⟨a, List.mem_of_find?_eq_some ha, hr⟩
  | monitor now =>
    obtain ⟨e, he, rfl⟩ := List.mem_map.mp hb
    exact h ⟨e, he, isRequest_monitorSlot hr⟩

/-- Nor is there a time-out response for it. -/
theorem no_timeOut_run {q : TimeQue} {evs : List Event}
    (h : ¬ Pending code passKey userId q.slots)
    (hevs : ∀ ev ∈ evs, ¬ ev.Adds code passKey userId) :
    ∀ t ∈ (Run.outs queStep q evs).flatten, ¬ t.IsFor code passKey userId := by
  induction evs generalizing q with
  | nil => simp
  | cons ev evs ih =>
    intro t ht hfor
    rw [Run.outs_cons, List.flatten_cons] at ht
    rcases List.mem_append.mp ht with ht | ht
    · cases ev with
      | add => simp [queStep] at ht
      | del => simp [queStep] at ht
      | monitor now =>
        obtain ⟨hcode, hkey, huser⟩ := hfor
        obtain ⟨e, he, hr⟩ := pending_of_timeOut ht
        refine h ⟨e, he, ⟨hr.1.1, hkey.trans hr.1.2.1, hcode.trans hr.1.2.2⟩, fun hlive => ?_⟩
        exact (huser hlive).trans (hr.2 (hkey.symm.trans hlive))
    · exact ih (not_pending_step h (hevs ev (List.mem_cons_self ..)))
        (fun ev hev => hevs ev (List.mem_cons_of_mem _ hev)) t ht hfor

/-- No time-out response follows a request that was answered while it was pending, unless it is
added again. -/
def NoLateTimeOut (q : TimeQue) (evs : List Event) : Prop :=
  ∀ pre mid post code passKey userId,
    evs = pre ++ .del code (some passKey) userId :: (mid ++ post) →
    Pending code passKey userId (Run.final queStep q pre).slots →
    (∀ ev ∈ mid, ¬ ev.Adds code passKey userId) →
    ∀ t ∈ (Run.outs queStep (queStep (Run.final queStep q pre)
      (.del code (some passKey) userId)).1 mid).flatten, ¬ t.IsFor code passKey userId

theorem noLateTimeOut_of_orderly {q : TimeQue} {evs : List Event}
    (h : Run.Along queStep Orderly q evs) : NoLateTimeOut q evs := by
  intro pre mid post code passKey userId hsplit hp hmid
  rw [hsplit, Run.along_append] at h
  exact no_timeOut_run (h.2.1.gone code passKey userId rfl hp) hmid

theorem orderly_run_iff {q : TimeQue} (hq : Unique q.slots) {evs : List Event}
    (hevs : ∀ ev ∈ evs, ev.Ordinary) :
    Run.Along queStep Orderly q evs ↔ Run.Along queStep Clear q evs := by
  induction evs generalizing q with
  | nil => exact Iff.rfl
  | cons ev evs ih =>
    have hstep := orderly_step_iff hq (hevs ev (List.mem_cons_self ..))
    have hrest := fun hu => ih (q := (queStep q ev).1) hu fun ev hev =>
      hevs ev (List.mem_cons_of_mem _ hev)
    constructor
    · rintro ⟨ho, h⟩
      exact ⟨hstep.mp ho, (hrest ho.unique).mp h⟩
    · rintro ⟨hc, h⟩
      have ho := hstep.mpr hc
      exact ⟨ho, (hrest ho.unique).mpr h⟩

theorem unique_empty : Unique TimeQue.empty.slots :=
  List.pairwise_replicate.mpr (.inr fun h => h.isFor.1 rfl)

/-- **A run is orderly**, and no request that was answered is timed out, exactly when no step meets
a hidden request. -/
theorem orderly_iff {evs : List Event} (hevs : ∀ ev ∈ evs, ev.Ordinary) :
    (Run.Along queStep Orderly .empty evs ∧ NoLateTimeOut .empty evs) ↔
      Run.Along queStep Clear .empty evs := by
  rw [← orderly_run_iff unique_empty hevs]
  exact ⟨fun h => h.1, fun h => ⟨h, noLateTimeOut_of_orderly h⟩⟩

/-- A live node asks for remote control at time `0`. -/
def sampleAdd (userId : Text) : Event :=
  .add msgRemoteCtrl msgLivenodePasskey userId ⟨0, 0, 0, 0⟩ true ⟨0, 0⟩

/-- Its request is answered. -/
def sampleDel (userId : Text) : Event := .del msgRemoteCtrl (some msgLivenodePasskey) userId

theorem orderly_iff_sample :
    (Run.Along queStep Orderly .empty [sampleAdd ['1'], sampleAdd ['2'], sampleDel ['1']] ∧
        NoLateTimeOut .empty [sampleAdd ['1'], sampleAdd ['2'], sampleDel ['1']]) ↔
      Run.Along queStep Clear .empty [sampleAdd ['1'], sampleAdd ['2'], sampleDel ['1']] := by
  refine orderly_iff fun ev hev => ?_
  simp only [List.mem_cons, List.not_mem_nil, or_false] at hev
  rcases hev with rfl | rfl | rfl <;> exact ⟨by decide, by decide⟩

/-- **A hidden request stays.** Of two live nodes the second one is answered: its request is still
there, and is timed out six seconds later. -/
theorem hidden_request_timed_out :
    let q := Run.final queStep .empty [sampleAdd ['1'], sampleAdd ['2']]
    Pending msgRemoteCtrl msgLivenodePasskey ['2'] q.slots ∧
      Pending msgRemoteCtrl msgLivenodePasskey ['2'] (queStep q (sampleDel ['2'])).1.slots ∧
      ⟨msgRemoteCtrl, msgLivenodePasskey, ['2'], ⟨0, 0, 0, 0⟩⟩ ∈
        (queStep (queStep q (sampleDel ['2'])).1 (.monitor ⟨6, 0⟩)).2 := by
  refine ⟨?_, ?_, ?_⟩
  · rw [Pending]
    decide
  · rw [Pending]
    decide
  · decide

end Room

end ReachEdukit
