import ReachEdukit.Lib.BitMask
import ReachEdukit.Room.TimeQueue

/-!
# Answers of the encoders

A request that goes to several encoders is answered once, when the last of them has answered. Who is
missing is kept in a mask: bit `i` for the encoder stream `i`, and bit 30 for whether all answers so
far were good. When no low bit is left the response is sent, and all low bits are set, so that late
answers are swallowed.

The mask holds no more than the set of the missing streams and the flag, and `Tracks` relates both
to the answers handled so far.

There is a mask for each platform, found by the pass key of the answer, but the user id of the
response is that of the first request in the queue with the message code, whatever its pass key.

## What is left out

The allocation of the response; the texts of the log.

## Main definitions

* `setMaskBitVal`, `getMaskBitVal`, `isAllEncResp` — the mask
* `respXmlDeal` — one answer
* `platformDeal` — the handlers that look the mask up by the pass key
* `requestMask` — the mask of a request
* `Foremost` — no request of another user is before it in the queue

## Main results

* `responded_once` — when the response is sent, and with which code
* `carries_iff_foremost` — whose user id and pass key it carries
-/

namespace ReachEdukit

namespace Room

open BitMask

/-! ### Masks -/

/-- A request mask. -/
abbrev Mask := BitVec 32

/-- `MSG_QUEUE_REC_CLR`. -/
def msgQueueRecClr : Mask := 0

/-- `MSG_QUEUE_REC_ALL`, the bits of all encoder streams. -/
def msgQueueRecAll : Mask := 0xFFFFFF

/-- `MSG_QUEUE_REC_FLG_BIT`. -/
def msgQueueRecFlgBit : ℕ := 30

/-- `MSG_QUEUE_REC_FLG`. -/
def msgQueueRecFlg : Mask := 1 <<< msgQueueRecFlgBit

/-- `upper_msg_set_mask_bit_val`. -/
def setMaskBitVal (mask : Mask) (bit : ℕ) (val : Bool) : Mask :=
  if val then mask ||| ((1 : Mask) <<< bit) else mask &&& ~~~((1 : Mask) <<< bit)

/-- `upper_msg_get_mask_bit_val`. -/
def getMaskBitVal (mask : Mask) (bit : ℕ) : Mask := (mask &&& ((1 : Mask) <<< bit)) >>> bit

/-- `upper_msg_is_all_enc_resp`. -/
def isAllEncResp (mask : Mask) : Bool := mask &&& msgQueueRecAll = 0

/-- The streams a mask waits for. -/
def waiting (mask : Mask) : Finset ℕ := low 24 mask

/-- All answers so far were good. -/
def good (mask : Mask) : Bool := mask.getLsbD msgQueueRecFlgBit

theorem getMaskBitVal_flg (mask : Mask) : getMaskBitVal mask msgQueueRecFlgBit ≠ 0 ↔
    good mask = true := by
  have hbit : ∀ i, (getMaskBitVal mask msgQueueRecFlgBit).getLsbD i =
      (mask.getLsbD (30 + i) && decide (i = 0)) := by
    intro i
    rw [getMaskBitVal, BitVec.getLsbD_ushiftRight, BitVec.getLsbD_and, msgQueueRecFlgBit,
      getLsbD_one_shiftLeft (by omega)]
    simp
  constructor
  · intro h
    by_contra hgood
    refine h (BitVec.eq_of_getLsbD_eq fun i _ => ?_)
    rw [hbit]
    by_cases hi : i = 0
    · subst hi
      simpa [good, msgQueueRecFlgBit] using hgood
    · simp [hi]
  · intro hgood h
    have hzero := hbit 0
    simp only [good, msgQueueRecFlgBit] at hgood
    rw [h, Nat.add_zero, hgood] at hzero
    exact absurd hzero (by decide)

theorem isAllEncResp_iff (mask : Mask) : isAllEncResp mask = true ↔ waiting mask = ∅ := by
  rw [isAllEncResp, decide_eq_true_iff]
  exact and_ones_eq_zero_iff (w := 32) (m := mask) (k := 24)

@[simp] theorem waiting_recAll : waiting msgQueueRecAll = Finset.range 24 := by
  decide

theorem waiting_setFlg (mask : Mask) (val : Bool) :
    waiting (setMaskBitVal mask msgQueueRecFlgBit val) = waiting mask := by
  ext i
  rw [waiting, waiting, mem_low, mem_low, setMaskBitVal, msgQueueRecFlgBit]
  cases val with
  | true =>
    rw [if_pos rfl, getLsbD_set (by omega)]
    simp
    omega
  | false =>
    rw [if_neg (by simp), getLsbD_clear (by omega)]
    simp
    omega

theorem waiting_set (mask : Mask) {bit : ℕ} (hbit : bit < 24) :
    waiting (setMaskBitVal mask bit true) = insert bit (waiting mask) := by
  rw [setMaskBitVal, if_pos rfl]
  exact low_set (by omega) hbit

theorem good_set (mask : Mask) {bit : ℕ} (hbit : bit < 24) :
    good (setMaskBitVal mask bit true) = good mask := by
  have hne : ¬ msgQueueRecFlgBit = bit := by
    rw [msgQueueRecFlgBit]
    omega
  rw [setMaskBitVal, if_pos rfl, good, getLsbD_set (by omega), decide_eq_false hne, Bool.or_false]
  rfl

theorem good_setFlg_false (mask : Mask) :
    good (setMaskBitVal mask msgQueueRecFlgBit false) = false := by
  rw [setMaskBitVal, if_neg (by simp), good, getLsbD_clear (by decide)]
  simp

theorem waiting_clear (mask : Mask) {bit : ℕ} (hbit : bit < 32) :
    waiting (mask &&& ~~~((1 : Mask) <<< bit)) = (waiting mask).erase bit :=
  low_clear hbit

theorem good_clear (mask : Mask) {bit : ℕ} (hbit : bit < 30) :
    good (mask &&& ~~~((1 : Mask) <<< bit)) = good mask := by
  have hne : msgQueueRecFlgBit ≠ bit := by
    rw [msgQueueRecFlgBit]
    omega
  rw [good, getLsbD_clear (by omega), decide_eq_true hne, Bool.and_true]
  rfl

@[simp] theorem waiting_recFlg : waiting msgQueueRecFlg = ∅ := by
  decide

@[simp] theorem good_recFlg : good msgQueueRecFlg = true := by
  decide

/-! ### One answer -/

/-- `MSG_RECORD_PASS`. -/
def msgRecordPass : Text := ['R', 'e', 'c', 'S', 'e', 'r', 'v', 'e', 'r']

/-- The parts of `RoomMsgEnv` an answer needs. -/
structure RoomMsgEnv where
  /-- The pending requests. -/
  msgTimeQue : TimeQue
  /-- `RoomInfo.RoomId`. -/
  roomId : ℤ

/-- An answer of an encoder: what is read off its message. -/
structure Answer where
  /-- `msgtype`, the encoder stream. -/
  msgtype : ℕ
  /-- The header. -/
  head : MsgHeader
  /-- The message code. -/
  msgCode : MsgCode
  /-- The pass key, if there is such a node; it may be empty. -/
  passKey : Option Text
  /-- The user id, if there is such a node. -/
  userId : Option Text
  /-- The return code, `0` if there is none. -/
  returnCode : ℤ
  deriving DecidableEq, Repr

/-- The response to the upper side. -/
structure Response where
  /-- The header. -/
  head : MsgHeader
  /-- The message code. -/
  msgCode : MsgCode
  /-- The return code. -/
  retCode : ℤ
  /-- The pass key. -/
  passKey : Text
  /-- The user id. -/
  userId : Text
  /-- The room. -/
  roomId : ℤ
  deriving DecidableEq, Repr

/-- `lower_msg_get_passkey_from_que`. -/
def getPasskeyFromQue (q : TimeQue) (code : MsgCode) : Option Text :=
  (q.slots.find? (·.msgCode = code)).map MsgTimeQueue.passKey

/-- `lower_msg_get_userid_from_que`. -/
def getUseridFromQue (q : TimeQue) (code : MsgCode) : Option Text :=
  (q.slots.find? (·.msgCode = code)).map MsgTimeQueue.userId

/-- The pass key node of an answer, when it can be read; an empty one cannot. -/
def Answer.passKeyNode (a : Answer) : Option Text := a.passKey.filter (· ≠ [])

/-- The mask behind an answer, before it is looked at. -/
def answerMask (mask : Mask) (a : Answer) : Mask :=
  let mask := mask &&& ~~~((1 : Mask) <<< a.msgtype)
  if getMaskBitVal mask msgQueueRecFlgBit ≠ 0 then
    if a.returnCode = 0 then setMaskBitVal mask msgQueueRecFlgBit false else mask
  else mask

/-- The response that is sent when all have answered. -/
def response (room : RoomMsgEnv) (a : Answer) (mask : Mask) (msgcode : MsgCode) : Response where
  head := a.head
  msgCode := msgcode
  retCode :=
    if msgcode = msgConnectRoomReq then 1
    else if getMaskBitVal mask msgQueueRecFlgBit ≠ 0 then 1 else 0
  passKey :=
    (if msgcode = msgConnectRoomReq then getPasskeyFromQue room.msgTimeQue msgcode
      else a.passKeyNode).getD msgRecordPass
  userId := (getUseridFromQue room.msgTimeQue msgcode).getD (a.userId.getD [])
  roomId := room.roomId

/-- `lower_msg_resp_xml_deal`. -/
def respXmlDeal (room : RoomMsgEnv) (a : Answer) (mask : Mask) (msgcode : MsgCode) :
    RoomMsgEnv × Mask × Option Response :=
  let mask := answerMask mask a
  if isAllEncResp mask then
    ({ room with
        msgTimeQue := delNode room.msgTimeQue a.msgCode a.passKey (a.userId.getD []) },
      msgQueueRecAll, some (response room a mask msgcode))
  else (room, mask, none)

/-- An answer takes its stream out of the mask. -/
theorem waiting_answerMask {a : Answer} (ha : a.msgtype < 32) (mask : Mask) :
    waiting (answerMask mask a) = (waiting mask).erase a.msgtype := by
  rw [← waiting_clear mask ha, answerMask]
  split
  · split
    · exact waiting_setFlg _ false
    · rfl
  · rfl

/-- It leaves the flag only if it is good. -/
theorem good_answerMask {a : Answer} (ha : a.msgtype < 30) (mask : Mask) :
    good (answerMask mask a) = (good mask && decide (a.returnCode ≠ 0)) := by
  have hclear := good_clear mask ha
  rw [answerMask]
  simp only [getMaskBitVal_flg, hclear]
  by_cases hg : good mask = true
  · rw [if_pos hg]
    by_cases hr : a.returnCode = 0
    · rw [if_pos hr, good_setFlg_false]
      simp [hr]
    · rw [if_neg hr, hclear, hg]
      simp [hr]
  · rw [if_neg hg, hclear]
    simp [hg]

/-! ### All answers to a request -/

/-- The mask of a request to the streams `ids`, as its sender sets it. -/
def requestMask (ids : List ℕ) : Mask :=
  ids.foldl (fun mask id => setMaskBitVal mask id true) msgQueueRecFlg

theorem requestMask_spec {ids : List ℕ} (h : ∀ id ∈ ids, id < 24) :
    waiting (requestMask ids) = ids.toFinset ∧ good (requestMask ids) = true := by
  have hfold : ∀ mask, waiting (ids.foldl (fun m id => setMaskBitVal m id true) mask) =
        waiting mask ∪ ids.toFinset ∧
      good (ids.foldl (fun m id => setMaskBitVal m id true) mask) = good mask := by
    induction ids with
    | nil => simp
    | cons id ids ih =>
      intro mask
      obtain ⟨hw, hg⟩ := ih (fun i hi => h i (List.mem_cons_of_mem _ hi))
        (setMaskBitVal mask id true)
      have hid : id < 24 := h id (List.mem_cons_self ..)
      rw [List.foldl_cons, hw, hg, waiting_set mask hid, good_set mask hid, List.toFinset_cons]
      exact ⟨by rw [Finset.insert_union, Finset.union_insert], rfl⟩
  obtain ⟨hw, hg⟩ := hfold msgQueueRecFlg
  rw [requestMask, hw, hg, waiting_recFlg, good_recFlg, Finset.empty_union]
  exact ⟨rfl, rfl⟩

/-- The room and the mask, answer by answer. -/
def answerStep (msgcode : MsgCode) (s : RoomMsgEnv × Mask) (a : Answer) :
    (RoomMsgEnv × Mask) × Option Response :=
  let r := respXmlDeal s.1 a s.2 msgcode
  ((r.1, r.2.1), r.2.2)

/-- The streams that have answered. -/
def answered (as : List Answer) : Finset ℕ := (as.map Answer.msgtype).toFinset

/-- All answers are good. -/
def AllGood (as : List Answer) : Prop := ∀ a ∈ as, a.returnCode ≠ 0

instance (as : List Answer) : Decidable (AllGood as) := inferInstanceAs (Decidable (∀ _ ∈ as, _))

/-- The mask of a request to `ids` after the answers `as`: until the last of the streams has
answered it holds those that have not, and the flag; then it holds at least those that have never
answered. -/
structure Tracks (ids : Finset ℕ) (as : List Answer) (mask : Mask) : Prop where
  /-- Before the last answer. -/
  open_ : ¬ ids ⊆ answered as → waiting mask = ids \ answered as ∧ good mask = decide (AllGood as)
  /-- After it. -/
  closed : ids ⊆ answered as → Finset.range 24 \ answered as ⊆ waiting mask

theorem answered_append (as : List Answer) (a : Answer) :
    answered (as ++ [a]) = insert a.msgtype (answered as) := by
  simp [answered, Finset.union_comm]

theorem allGood_append (as : List Answer) (a : Answer) :
    AllGood (as ++ [a]) ↔ AllGood as ∧ a.returnCode ≠ 0 := by
  simp only [AllGood, List.mem_append, List.mem_singleton]
  constructor
  · intro h
    exact ⟨fun b hb => h b (.inl hb), h a (.inr rfl)⟩
  · rintro ⟨h, ha⟩ b (hb | rfl)
    · exact h b hb
    · exact ha

variable {ids : Finset ℕ} {as : List Answer} {mask : Mask} {msgcode : MsgCode}

/-- One answer keeps track, and is responded to exactly when it is the last one missing. -/
theorem Tracks.step (h : Tracks ids as mask) {a : Answer} (ha : a.msgtype < 30)
    (hopen : ∃ m < 24, m ∉ answered (as ++ [a])) (hcode : msgcode ≠ msgConnectRoomReq)
    (room : RoomMsgEnv) :
    Tracks ids (as ++ [a]) (answerStep msgcode (room, mask) a).1.2 ∧
      (answerStep msgcode (room, mask) a).2.map Response.retCode =
        if ids ⊆ answered (as ++ [a]) ∧ ¬ ids ⊆ answered as then
          some (if AllGood (as ++ [a]) then 1 else 0)
        else none := by
  have hwait : waiting (answerMask mask a) = (waiting mask).erase a.msgtype :=
    waiting_answerMask (by omega) mask
  have hgood : good (answerMask mask a) = (good mask && decide (a.returnCode ≠ 0)) :=
    good_answerMask ha mask
  have hsub : answered as ⊆ answered (as ++ [a]) := by
    rw [answered_append]
    exact Finset.subset_insert ..
  have hsent := isAllEncResp_iff (answerMask mask a)
  by_cases hclosed : ids ⊆ answered as
  · -- the response has been sent: some stream that never answers is still in the mask
    obtain ⟨m, hm, hnever⟩ := hopen
    have hmem : m ∈ waiting (answerMask mask a) := by
      rw [hwait, Finset.mem_erase]
      rw [answered_append, Finset.mem_insert, not_or] at hnever
      exact ⟨hnever.1, h.closed hclosed
        (Finset.mem_sdiff.mpr ⟨Finset.mem_range.mpr hm, hnever.2⟩)⟩
    have hnot : ¬ isAllEncResp (answerMask mask a) = true := by
      rw [hsent]
      exact Finset.ne_empty_of_mem hmem
    rw [if_neg fun hc => hc.2 hclosed]
    simp only [answerStep, respXmlDeal, if_neg hnot]
    refine ⟨⟨fun hc => absurd (hclosed.trans hsub) hc, fun _ => ?_⟩, rfl⟩
    rw [hwait, answered_append]
    intro i hi
    rw [Finset.mem_sdiff, Finset.mem_insert, not_or] at hi
    exact Finset.mem_erase.mpr ⟨hi.2.1, h.closed hclosed (Finset.mem_sdiff.mpr ⟨hi.1, hi.2.2⟩)⟩
  · obtain ⟨hw, hg⟩ := h.open_ hclosed
    have hwait' : waiting (answerMask mask a) = ids \ answered (as ++ [a]) := by
      rw [hwait, hw, answered_append]
      ext i
      simp only [Finset.mem_erase, Finset.mem_sdiff, Finset.mem_insert, not_or]
      tauto
    have hgood' : good (answerMask mask a) = decide (AllGood (as ++ [a])) := by
      rw [hgood, hg, ← Bool.decide_and, decide_eq_decide, allGood_append]
    rw [hwait', Finset.sdiff_eq_empty_iff_subset] at hsent
    by_cases hlast : ids ⊆ answered (as ++ [a])
    · rw [if_pos ⟨hlast, hclosed⟩]
      simp only [answerStep, respXmlDeal, if_pos (hsent.mpr hlast)]
      refine ⟨⟨fun hc => absurd hlast hc, fun _ => ?_⟩, ?_⟩
      · rw [waiting_recAll]
        exact Finset.sdiff_subset
      · simp only [Option.map_some, response, if_neg hcode, getMaskBitVal_flg, hgood',
          decide_eq_true_eq]
    · rw [if_neg fun hc => hlast hc.1]
      simp only [answerStep, respXmlDeal, if_neg fun hc => hlast (hsent.mp hc)]
      exact ⟨⟨fun _ => ⟨hwait', hgood'⟩, fun hc => absurd hc hlast⟩, rfl⟩

/-- Through a run the mask keeps track of the answers. -/
theorem Tracks.run {room : RoomMsgEnv} (h : Tracks ids as mask) {bs : List Answer}
    (hbs : ∀ b ∈ bs, b.msgtype < 30) (hopen : ∃ m < 24, m ∉ answered (as ++ bs))
    (hcode : msgcode ≠ msgConnectRoomReq) :
    Tracks ids (as ++ bs) (Run.final (answerStep msgcode) (room, mask) bs).2 := by
  induction bs generalizing as mask room with
  | nil => simpa using h
  | cons b bs ih =>
    have hcons : as ++ b :: bs = as ++ [b] ++ bs := by simp
    rw [hcons] at hopen ⊢
    have hopen' : ∃ m < 24, m ∉ answered (as ++ [b]) := by
      obtain ⟨m, hm, hnever⟩ := hopen
      refine ⟨m, hm, fun hin => hnever ?_⟩
      simp only [answered, List.map_append, List.mem_toFinset, List.mem_append] at hin ⊢
      exact .inl hin
    obtain ⟨hstep, -⟩ := h.step (hbs b (List.mem_cons_self ..)) hopen' hcode room
    exact ih hstep (fun c hc => hbs c (List.mem_cons_of_mem _ hc)) hopen

theorem answered_mono {as bs : List Answer} (h : as.Sublist bs) : answered as ⊆ answered bs := by
  intro m hm
  rw [answered, List.mem_toFinset] at hm ⊢
  exact (h.map Answer.msgtype).subset hm

/-- The answer number `i` is the last one that was missing. -/
def IsLast (ids : List ℕ) (rs : List Answer) (i : ℕ) : Prop :=
  ids.toFinset ⊆ answered (rs.take (i + 1)) ∧ ¬ ids.toFinset ⊆ answered (rs.take i)

instance (ids : List ℕ) (rs : List Answer) (i : ℕ) : Decidable (IsLast ids rs i) :=
  inferInstanceAs (Decidable (_ ∧ _))

/-- There is one last answer at most. -/
theorem IsLast.unique {ids : List ℕ} {rs : List Answer} {i j : ℕ} (hi : IsLast ids rs i)
    (hj : IsLast ids rs j) : i = j := by
  have hle : ∀ {i j}, IsLast ids rs i → IsLast ids rs j → ¬ i < j := by
    intro i j hi hj hlt
    refine hj.2 (hi.1.trans (answered_mono ?_))
    exact (List.take_prefix_take_left hlt).sublist
  have h₁ := hle hi hj
  have h₂ := hle hj hi
  omega

/-- What is sent to the upper side for a request to the streams `ids`, answer by answer. -/
def responses (msgcode : MsgCode) (room : RoomMsgEnv) (ids : List ℕ) (rs : List Answer) :
    List (Option Response) :=
  Run.outs (answerStep msgcode) (room, requestMask ids) rs

/-- **A request is answered once**, when the last of its streams has answered; the response is good
if and only if all answers until then were. -/
theorem responded_once {ids : List ℕ} (hne : ids ≠ []) (hids : ∀ id ∈ ids, id < 24)
    (hcode : msgcode ≠ msgConnectRoomReq) {rs : List Answer} (hrs : ∀ a ∈ rs, a.msgtype < 30)
    (hopen : ∃ m < 24, m ∉ answered rs) (room : RoomMsgEnv) :
    (∀ i < rs.length, (responses msgcode room ids rs)[i]?.map (Option.map Response.retCode) =
      some (if IsLast ids rs i then some (if AllGood (rs.take (i + 1)) then 1 else 0) else none)) ∧
    ∀ (i j : ℕ) (r r' : Response), (responses msgcode room ids rs)[i]? = some (some r) →
      (responses msgcode room ids rs)[j]? = some (some r') → i = j := by
  obtain ⟨hwait, hgood⟩ := requestMask_spec hids
  have hinit : Tracks ids.toFinset [] (requestMask ids) := by
    refine ⟨fun _ => ⟨by simp [hwait, answered], by simp [hgood, AllGood]⟩, fun h => ?_⟩
    obtain ⟨id, hid⟩ := List.exists_mem_of_ne_nil ids hne
    exact absurd (h (List.mem_toFinset.mpr hid)) (by simp [answered])
  have hout : ∀ i < rs.length,
      (responses msgcode room ids rs)[i]?.map (Option.map Response.retCode) =
      some (if IsLast ids rs i then some (if AllGood (rs.take (i + 1)) then 1 else 0)
        else none) := by
    intro i hi
    have hnever : ∀ k, ∃ m < 24, m ∉ answered (rs.take k) := by
      obtain ⟨m, hm, hm'⟩ := hopen
      exact fun k => ⟨m, hm, fun h => hm' (answered_mono (List.take_sublist k rs) h)⟩
    have htake : rs.take (i + 1) = rs.take i ++ [rs[i]] := by simp
    have htracks : Tracks ids.toFinset (rs.take i)
        (Run.final (answerStep msgcode) (room, requestMask ids) (rs.take i)).2 :=
      hinit.run (fun b hb => hrs b (List.mem_of_mem_take hb)) (hnever i) hcode
    have hlast := hnever (i + 1)
    rw [htake] at hlast
    obtain ⟨-, hstep⟩ := htracks.step (hrs rs[i] (List.getElem_mem hi)) hlast hcode
      (Run.final (answerStep msgcode) (room, requestMask ids) (rs.take i)).1
    rw [← htake] at hstep
    rw [responses, Run.getElem?_outs, List.getElem?_eq_getElem hi]
    exact congrArg some hstep
  refine ⟨hout, fun i j r r' hi hj => ?_⟩
  have hlast : ∀ {i : ℕ} {r : Response},
      (responses msgcode room ids rs)[i]? = some (some r) → IsLast ids rs i := by
    intro i r hi
    have hlen : i < rs.length := by
      have h := (List.getElem?_eq_some_iff.mp hi).1
      rwa [responses, Run.length_outs] at h
    have h := hout i hlen
    rw [hi] at h
    by_contra hno
    rw [if_neg hno] at h
    exact absurd h (by simp)
  exact (hlast hi).unique (hlast hj)

/-- A request to two streams; the second answer is good, the first is not. -/
def sampleAnswers : List Answer :=
  [⟨1, ⟨0, 0, 0, 0⟩, msgRemoteCtrl, some ['W'], none, 1⟩,
    ⟨2, ⟨0, 0, 0, 0⟩, msgRemoteCtrl, some ['W'], none, 0⟩]

theorem responded_once_sample :
    (∀ i < sampleAnswers.length,
      (responses msgRemoteCtrl ⟨.empty, 1⟩ [1, 2] sampleAnswers)[i]?.map
          (Option.map Response.retCode) =
        some (if IsLast [1, 2] sampleAnswers i then
          some (if AllGood (sampleAnswers.take (i + 1)) then 1 else 0) else none)) ∧
      ∀ (i j : ℕ) (r r' : Response),
        (responses msgRemoteCtrl ⟨.empty, 1⟩ [1, 2] sampleAnswers)[i]? = some (some r) →
        (responses msgRemoteCtrl ⟨.empty, 1⟩ [1, 2] sampleAnswers)[j]? = some (some r') → i = j :=
  responded_once (by decide) (by decide) (by decide) (by decide) ⟨0, by decide, by decide⟩ _

/-! ### Whose response it is -/

/-- `platform_em`. -/
inductive Platform
  | mediaCenter | managePlatform | ipadUser | recServer | liveNode | comControl | mp4Repair
  | webCtrl | director | netControl | thirdControl | allPlatform
  deriving DecidableEq, Repr

/-- The pass keys of the platforms. -/
def platformKeys : List (Text × Platform) :=
  [("MediaCenter".toList, .mediaCenter), ("ManagePlatform".toList, .managePlatform),
    (msgRecordPass, .recServer), (msgLivenodePasskey, .liveNode),
    ("ComControl".toList, .comControl), ("NetControl".toList, .netControl),
    ("ThirdControl".toList, .thirdControl), ("AllPlatform".toList, .allPlatform),
    ("DirectorPlatform".toList, .director), ("WebCtrl".toList, .webCtrl)]

/-- `lower_msg_get_platfrom_key`; `none` for `-1`. -/
def getPlatfromKey (passKey : Option Text) : Option Platform :=
  passKey.bind fun key => (platformKeys.find? (·.1 = key)).map Prod.snd

/-- A handler that finds the mask of the request by the pass key of the answer. -/
def platformDeal (room : RoomMsgEnv) (masks : Platform → Mask) (a : Answer) (msgcode : MsgCode) :
    RoomMsgEnv × (Platform → Mask) × Option Response :=
  match getPlatfromKey a.passKey with
  | none => (room, masks, none)
  | some index =>
    let r := respXmlDeal room a (masks index) msgcode
    (r.1, Function.update masks index r.2.1, r.2.2)

/-- The answer is one to the request in the slot: it has its pass key, which is that of a platform.
A connect request is answered by logins, which have no key of their own. -/
def Answers (a : Answer) (e : MsgTimeQueue) : Prop :=
  e.msgCode ≠ msgConnectRoomReq → a.passKey = some e.passKey ∧ (getPlatfromKey a.passKey).isSome

/-- The first slot with the code of the request has its user id and, for a connect request, its pass
key. -/
def Foremost (q : TimeQue) (e : MsgTimeQueue) : Prop :=
  ∃ e', q.slots.find? (·.msgCode = e.msgCode) = some e' ∧ e'.userId = e.userId ∧
    (e.msgCode = msgConnectRoomReq → e'.passKey = e.passKey)

/-- No platform has an empty pass key. -/
theorem passKey_ne_nil {key : Text} (h : (getPlatfromKey (some key)).isSome) : key ≠ [] := by
  rintro rfl
  exact absurd h (by decide)

theorem passKeyNode_of_platform {a : Answer} {key : Text} (h : a.passKey = some key)
    (hplat : (getPlatfromKey a.passKey).isSome) : a.passKeyNode = some key := by
  rw [h] at hplat
  have hne : decide (key ≠ []) = true := decide_eq_true (passKey_ne_nil hplat)
  rw [Answer.passKeyNode, h, Option.filter_some, if_pos hne]

/-- What is sent is `response`. -/
theorem eq_response {room : RoomMsgEnv} {a : Answer} {r : Response}
    (h : (respXmlDeal room a mask msgcode).2.2 = some r) :
    r = response room a (answerMask mask a) msgcode := by
  rw [respXmlDeal] at h
  split at h
  · exact (Option.some.inj h).symm
  · exact absurd h (by simp)

/-- **A response carries the user id and the pass key of its request** exactly when the request is
foremost. -/
theorem carries_iff_foremost {room : RoomMsgEnv} {a : Answer} {e : MsgTimeQueue}
    (he : e ∈ room.msgTimeQue.slots) (ha : Answers a e) {r : Response}
    (hr : (respXmlDeal room a mask e.msgCode).2.2 = some r) :
    (r.userId = e.userId ∧ r.passKey = e.passKey) ↔ Foremost room.msgTimeQue e := by
  obtain ⟨e', hfind⟩ : ∃ e', room.msgTimeQue.slots.find? (·.msgCode = e.msgCode) = some e' := by
    cases hf : room.msgTimeQue.slots.find? (·.msgCode = e.msgCode) with
    | none => exact absurd (List.find?_eq_none.mp hf e he) (by simp)
    | some e' => exact ⟨e', rfl⟩
  obtain rfl := eq_response hr
  have huser : (response room a (answerMask mask a) e.msgCode).userId = e'.userId := by
    simp [response, getUseridFromQue, hfind]
  have hkey : (response room a (answerMask mask a) e.msgCode).passKey =
      if e.msgCode = msgConnectRoomReq then e'.passKey else e.passKey := by
    by_cases hc : e.msgCode = msgConnectRoomReq
    · rw [hc] at hfind
      simp [response, getPasskeyFromQue, hc, hfind]
    · obtain ⟨hpass, hplat⟩ := ha hc
      simp [response, hc, passKeyNode_of_platform hpass hplat]
  rw [huser, hkey]
  constructor
  · rintro ⟨hu, hk⟩
    refine ⟨e', hfind, hu, fun hc => ?_⟩
    rwa [if_pos hc] at hk
  · rintro ⟨e'', hfind', hu, hk⟩
    obtain rfl := Option.some.inj (hfind.symm.trans hfind')
    refine ⟨hu, ?_⟩
    split
    · exact hk ‹_›
    · rfl

/-- A handler sends a response with the pass key of the answer. -/
theorem passKey_platformDeal {room : RoomMsgEnv} {masks : Platform → Mask} {a : Answer}
    (hcode : msgcode ≠ msgConnectRoomReq) {r : Response}
    (hr : (platformDeal room masks a msgcode).2.2 = some r) : a.passKey = some r.passKey := by
  rw [platformDeal] at hr
  split at hr
  · exact absurd hr (by simp)
  · rename_i index hindex
    obtain rfl := eq_response hr
    cases hkey : a.passKey with
    | none => simp [hkey, getPlatfromKey] at hindex
    | some key =>
      have hnode := passKeyNode_of_platform hkey (by rw [hindex]; rfl)
      simp [response, hcode, hnode]

/-- Two requests for remote control, of the media center and of the managing platform. -/
def sampleQue : TimeQue :=
  let q := (addNode .empty msgRemoteCtrl "MediaCenter".toList ['1'] ⟨0, 0, 0, 0⟩ true ⟨0, 0⟩).1
  (addNode q msgRemoteCtrl "ManagePlatform".toList ['2'] ⟨0, 0, 0, 0⟩ true ⟨0, 0⟩).1

/-- One of them in its slot. -/
def sampleSlot (passKey userId : Text) : MsgTimeQueue :=
  ⟨msgRemoteCtrl, passKey, userId, ⟨0, 0, 0, 0⟩, ⟨0, 0⟩, true⟩

/-- The answer to one of them. -/
def sampleAnswer (passKey userId : Text) : Answer :=
  ⟨1, ⟨0, 0, 0, 0⟩, msgRemoteCtrl, some passKey, some userId, 1⟩

theorem carries_iff_foremost_sample :
    (['1'] = ['1'] ∧ "MediaCenter".toList = "MediaCenter".toList) ↔
      Foremost sampleQue (sampleSlot "MediaCenter".toList ['1']) := by
  have hsent : (respXmlDeal ⟨sampleQue, 1⟩ (sampleAnswer "MediaCenter".toList ['1'])
      (requestMask [1]) msgRemoteCtrl).2.2 =
        some ⟨⟨0, 0, 0, 0⟩, msgRemoteCtrl, 1, "MediaCenter".toList, ['1'], 1⟩ := by
    decide
  exact carries_iff_foremost (e := sampleSlot "MediaCenter".toList ['1']) (by decide)
    (fun _ => ⟨rfl, by decide⟩) hsent

/-- **A response in another's name.** The managing platform's request is answered with the user id
of the media center. -/
theorem answered_in_anothers_name :
    sampleSlot "ManagePlatform".toList ['2'] ∈ sampleQue.slots ∧
      Answers (sampleAnswer "ManagePlatform".toList ['2'])
        (sampleSlot "ManagePlatform".toList ['2']) ∧
      ∃ r, (respXmlDeal ⟨sampleQue, 1⟩ (sampleAnswer "ManagePlatform".toList ['2'])
        (requestMask [1]) msgRemoteCtrl).2.2 = some r ∧ r.userId = ['1'] := by
  refine ⟨by decide, fun _ => ⟨rfl, by decide⟩,
    ⟨⟨0, 0, 0, 0⟩, msgRemoteCtrl, 1, "ManagePlatform".toList, ['1'], 1⟩, by decide, rfl⟩

end Room

end ReachEdukit
