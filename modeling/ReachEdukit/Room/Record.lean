import ReachEdukit.Lib.Run
import ReachEdukit.Room.Encoders
import ReachEdukit.Room.Response

/-!
# Starting a recording

A recording is started when all encoders have locked their resolution. The request for that goes to
the open streams of the encoders, and their answers are collected twice: in a mask, as elsewhere,
and in a counter, which is set to the number of streams and goes down with every answer, wherever it
comes from. Only when the mask is empty at the moment the counter is zero, recording starts.

The two agree as long as each stream answers once. An answer that comes twice takes the counter past
zero, and the moment is missed until it has gone round all its values.

An answer with return code `0` is to clear the flag in the mask, but the mask is passed where its
address is wanted, and something else is written to. There the model stops.

## What is left out

The state report behind the response; the stop request to the encoders when recording could not be
started. `lower_msg_start_record` is kept as its return value.

## Main definitions

* `sendRecordMsgToEnc` — the request
* `recordCtrlDeal` — one answer
* `LockedOnce` — what both together should do

## Main results

* `outs_record` — when recording is started, in terms of the answers alone
* `lockedOnce_iff` — that is right exactly when no answer is bad and one moment fits
* `regular_iff_of_short` — what that means for the first answers
-/

namespace ReachEdukit

namespace Room

/-- `MSG_RECORD_CTRL_START`. -/
def msgRecordCtrlStart : ℤ := 1

/-- The parts of `RoomMsgEnv` for recording. -/
structure RecordEnv where
  /-- The room. -/
  room : RoomMsgEnv
  /-- `record_mask`. -/
  recordMask : Platform → Mask
  /-- `record_mask_sum`. -/
  recordMaskSum : Platform → BitVec 32

/-! ### The request -/

/-- The streams of an encoder that are to lock. -/
def lockStreams (e : EncInfo) : List ℕ :=
  if e.id = 0 ∨ e.id = 6 ∨ e.id = 7 ∨ e.id = 8 ∨ e.id = 9 then []
  else if e.encodeType = .jpeg then []
  else (if 0 < e.hdQuaInfo.socket then [e.hdQuaInfo.msgQueType] else []) ++
    (if 0 < e.sdQuaInfo.socket then [e.sdQuaInfo.msgQueType] else [])

/-- All such streams; the request is sent to them. -/
def lockIds (t : EncTable) : List ℕ := t.encs.flatMap lockStreams

/-- `upper_msg_send_record_msg_to_enc`: mask and counter are set before anything is sent. -/
def sendRecordMsgToEnc (t : EncTable) (index : Platform) (env : RecordEnv) : RecordEnv :=
  let r := (lockIds t).foldl (fun r id => (setMaskBitVal r.1 id true, r.2 + 1))
    (msgQueueRecClr ||| msgQueueRecFlg, (0 : BitVec 32))
  { env with
    recordMask := Function.update env.recordMask index r.1
    recordMaskSum := Function.update env.recordMaskSum index r.2 }

/-! ### One answer -/

/-- An answer to the request. -/
structure RecordAnswer where
  /-- What it has in common with other answers. -/
  answer : Answer
  /-- `Result`. -/
  result : ℤ
  deriving DecidableEq, Repr

/-- What is done when all have locked. -/
structure RecordResp where
  /-- `lower_msg_start_record` is called. -/
  started : Bool
  /-- The return code that is sent. -/
  retValue : ℤ
  deriving DecidableEq, Repr

/-- `lower_msg_record_ctrl_deal`, where `startRecord` is the return value of
`lower_msg_start_record`; `none` when it writes to the mask as an address. -/
def recordCtrlDeal (startRecord : RoomMsgEnv → ℤ) (env : RecordEnv) (a : RecordAnswer) :
    Option (RecordEnv × Option RecordResp) :=
  if a.result ≠ msgRecordCtrlStart then some (env, none)
  else
    match getPlatfromKey a.answer.passKey with
    | none => some (env, none)
    | some index =>
      let mask := env.recordMask index &&& ~~~((1 : Mask) <<< a.answer.msgtype)
      let sum := env.recordMaskSum index - 1
      if getMaskBitVal mask msgQueueRecFlgBit ≠ 0 ∧ a.answer.returnCode = 0 then none
      else if isAllEncResp mask ∧ sum = 0 then
        let mask := msgQueueRecFlg
        let retValue : ℤ := if getMaskBitVal mask msgQueueRecFlgBit ≠ 0 then 1 else 0
        let resp : RecordResp :=
          if retValue ≠ 0 then ⟨true, startRecord env.room⟩ else ⟨false, retValue⟩
        some
          ({ room := { env.room with
                msgTimeQue := delNode env.room.msgTimeQue a.answer.msgCode a.answer.passKey
                  (a.answer.userId.getD []) }
             recordMask := Function.update env.recordMask index mask
             recordMaskSum := Function.update env.recordMaskSum index sum }, some resp)
      else
        some
          ({ env with
              recordMask := Function.update env.recordMask index mask
              recordMaskSum := Function.update env.recordMaskSum index sum }, none)

/-- Answer by answer; after a wild write nothing is known. -/
def recordStep (startRecord : RoomMsgEnv → ℤ) (s : Option RecordEnv) (a : RecordAnswer) :
    Option RecordEnv × Option RecordResp :=
  match s.bind fun env => recordCtrlDeal startRecord env a with
  | none => (none, none)
  | some r => (some r.1, r.2)

/-! ### What they should do -/

/-- The answer is one to a start request of the platform, from one of the streams. -/
def RecordAnswer.IsStart (index : Platform) (a : RecordAnswer) : Prop :=
  a.result = msgRecordCtrlStart ∧ getPlatfromKey a.answer.passKey = some index ∧
    a.answer.msgtype < 30

instance (index : Platform) : DecidablePred (RecordAnswer.IsStart index) :=
  fun _ => inferInstanceAs (Decidable (_ ∧ _))

/-- The streams that have answered. -/
def locked (rs : List RecordAnswer) : Finset ℕ := answered (rs.map RecordAnswer.answer)

/-- What a request to the streams `ids` and the answers `rs` should lead to. -/
structure LockedOnce (ids : List ℕ) (rs : List RecordAnswer) (s : Option RecordEnv)
    (out : List (Option RecordResp)) : Prop where
  /-- Nothing is written to by mistake. -/
  known : s.isSome
  /-- Recording is started once at most, -/
  once : ∀ (i j : ℕ) (r r' : RecordResp), out[i]? = some (some r) → out[j]? = some (some r') →
    r.started → r'.started → i = j
  /-- when all have answered, -/
  late : ∀ (i : ℕ) (r : RecordResp), out[i]? = some (some r) → r.started →
    ids.toFinset ⊆ locked (rs.take (i + 1))
  /-- and exactly if all have answered well. -/
  started : (∃ (i : ℕ) (r : RecordResp), out[i]? = some (some r) ∧ r.started) ↔
    ∀ id ∈ ids, ∃ a ∈ rs, a.answer.msgtype = id ∧ a.answer.returnCode ≠ 0
  /-- A bad answer is reported. -/
  failed : (∃ a ∈ rs, a.answer.returnCode = 0) →
    ∀ (i : ℕ) (r : RecordResp), out[i]? = some (some r) → r.retValue = 0

/-- With answer `i` the counter of a request to `ids` is zero and all of them have answered. -/
def Moment (ids : List ℕ) (rs : List RecordAnswer) (i : ℕ) : Prop :=
  ids.toFinset ⊆ locked (rs.take (i + 1)) ∧ (i + 1) % 2 ^ 32 = ids.length % 2 ^ 32

instance (ids : List ℕ) (rs : List RecordAnswer) (i : ℕ) : Decidable (Moment ids rs i) :=
  inferInstanceAs (Decidable (_ ∧ _))

/-- No answer is bad, and if all answer there is one such moment. -/
structure Regular (ids : List ℕ) (rs : List RecordAnswer) : Prop where
  /-- No answer is bad. -/
  good : ∀ a ∈ rs, a.answer.returnCode ≠ 0
  /-- There is one moment. -/
  moment : ids.toFinset ⊆ locked rs → ∃! i, i < rs.length ∧ Moment ids rs i

/-! ### One answer, in terms of those before it -/

/-- The streams to lock are different, and each has its bit. -/
theorem lockIds_spec (t : EncTable) : (lockIds t).Nodup ∧ ∀ i ∈ lockIds t, i < 24 := by
  have hif : ∀ (p : Prop) [Decidable p] (i : ℕ), (if p then [i] else []).Sublist [i] := by
    intro p _ i
    split <;> simp
  have hsub : ∀ e, (lockStreams e).Sublist e.streams := by
    intro e
    rw [lockStreams, EncInfo.streams]
    split
    · exact List.nil_sublist _
    · split
      · exact List.nil_sublist _
      · exact (hif _ e.hdQuaInfo.msgQueType).append (hif _ e.sdQuaInfo.msgQueType)
  have hid : ∀ {e i}, i ∈ lockStreams e → e.id ≠ 0 := by
    rintro e i hi h
    rw [lockStreams, if_pos (.inl h)] at hi
    exact absurd hi List.not_mem_nil
  constructor
  · rw [lockIds, List.nodup_flatMap]
    constructor
    · intro e he
      by_cases h : e.id = 0
      · rw [lockStreams, if_pos (.inl h)]
        exact List.nodup_nil
      · exact (EncTable.streams_spec he h).2.sublist (hsub e)
    · refine t.disjoint.imp fun {a b} hab i hi hi' => ?_
      exact hab (hid hi) (hid hi') ((hsub a).subset hi) ((hsub b).subset hi')
  · intro i hi
    obtain ⟨e, he, hi⟩ := List.mem_flatMap.mp hi
    exact (EncTable.streams_spec he (hid hi)).1 i ((hsub e).subset hi)

/-- Mask and counter of a platform, after the answers `as` to a request to `ids`. -/
structure Counts (ids : List ℕ) (index : Platform) (as : List RecordAnswer) (env : RecordEnv) :
    Prop where
  /-- The mask holds those that have not answered, -/
  mask : waiting (env.recordMask index) = ids.toFinset \ locked as
  /-- and the flag. -/
  flag : good (env.recordMask index) = true
  /-- The counter has gone down with each answer. -/
  sum : env.recordMaskSum index = BitVec.ofNat 32 ids.length - BitVec.ofNat 32 as.length

/-- The request sets them up. -/
theorem counts_send (t : EncTable) (index : Platform) (env : RecordEnv) :
    Counts (lockIds t) index [] (sendRecordMsgToEnc t index env) := by
  have hfold : ∀ (ids : List ℕ) (r : Mask × BitVec 32),
      ids.foldl (fun r id => (setMaskBitVal r.1 id true, r.2 + 1)) r =
        (ids.foldl (fun mask id => setMaskBitVal mask id true) r.1,
          r.2 + BitVec.ofNat 32 ids.length) := by
    intro ids
    induction ids with
    | nil => simp
    | cons id ids ih =>
      intro r
      rw [List.foldl_cons, ih, List.foldl_cons, List.length_cons, Nat.add_comm, BitVec.ofNat_add,
        BitVec.add_assoc]
      rfl
  have hflg : msgQueueRecClr ||| msgQueueRecFlg = msgQueueRecFlg := by decide
  obtain ⟨hmask, hflag⟩ := requestMask_spec (lockIds_spec t).2
  refine ⟨?_, ?_, ?_⟩
  · simp only [sendRecordMsgToEnc, hfold, hflg, Function.update_self]
    rw [← requestMask, hmask]
    simp [locked, answered]
  · simp only [sendRecordMsgToEnc, hfold, hflg, Function.update_self]
    rw [← requestMask, hflag]
  · simp only [sendRecordMsgToEnc, hfold, Function.update_self]
    simp

/-- **A bad answer** is the end. -/
theorem recordCtrlDeal_bad (startRecord : RoomMsgEnv → ℤ) {ids : List ℕ} {index : Platform}
    {as : List RecordAnswer} {env : RecordEnv} (h : Counts ids index as env) {a : RecordAnswer}
    (ha : a.IsStart index) (hbad : a.answer.returnCode = 0) :
    recordCtrlDeal startRecord env a = none := by
  obtain ⟨hresult, hindex, hlt⟩ := ha
  have hflag : getMaskBitVal (env.recordMask index &&& ~~~((1 : Mask) <<< a.answer.msgtype))
      msgQueueRecFlgBit ≠ 0 := by
    rw [getMaskBitVal_flg, good_clear _ hlt]
    exact h.flag
  simp only [recordCtrlDeal, hresult, ne_eq, not_true_eq_false, if_false, hindex]
  rw [if_pos ⟨hflag, hbad⟩]

/-- The counter, one answer on. -/
theorem sum_eq_zero_iff (n k : ℕ) :
    BitVec.ofNat 32 n - BitVec.ofNat 32 k - 1 = 0 ↔ (k + 1) % 2 ^ 32 = n % 2 ^ 32 := by
  rw [sub_sub, sub_eq_zero, ← BitVec.toNat_inj]
  simp [BitVec.toNat_ofNat, BitVec.toNat_add, eq_comm]

/-- **A good answer** is counted, and recording is started when all have answered and the counter is
zero. -/
theorem recordCtrlDeal_good (startRecord : RoomMsgEnv → ℤ) {ids : List ℕ} {index : Platform}
    {as : List RecordAnswer} {env : RecordEnv} (h : Counts ids index as env) {a : RecordAnswer}
    (ha : a.IsStart index) (hgood : a.answer.returnCode ≠ 0) :
    ∃ env', recordCtrlDeal startRecord env a = some (env',
        if ids.toFinset ⊆ locked (as ++ [a]) ∧ (as.length + 1) % 2 ^ 32 = ids.length % 2 ^ 32 then
          some ⟨true, startRecord env.room⟩ else none) ∧
      Counts ids index (as ++ [a]) env' := by
  obtain ⟨hresult, hindex, hlt⟩ := ha
  have hlocked : locked (as ++ [a]) = insert a.answer.msgtype (locked as) := by
    rw [locked, List.map_append, List.map_singleton, answered_append]
    rfl
  obtain ⟨mask, hmask⟩ :
      ∃ mask, mask = env.recordMask index &&& ~~~((1 : Mask) <<< a.answer.msgtype) := ⟨_, rfl⟩
  have hwait : waiting mask = ids.toFinset \ locked (as ++ [a]) := by
    rw [hmask, waiting_clear _ (by omega), h.mask, hlocked]
    ext i
    simp only [Finset.mem_erase, Finset.mem_sdiff, Finset.mem_insert, not_or]
    tauto
  have hflag : good mask = true := by
    rw [hmask, good_clear _ hlt, h.flag]
  have hsum : env.recordMaskSum index - 1 =
      BitVec.ofNat 32 ids.length - BitVec.ofNat 32 (as ++ [a]).length := by
    rw [h.sum, List.length_append, List.length_singleton, BitVec.ofNat_add, sub_sub]
    rfl
  have hcond : (isAllEncResp mask = true ∧ env.recordMaskSum index - 1 = 0) ↔
      ids.toFinset ⊆ locked (as ++ [a]) ∧ (as.length + 1) % 2 ^ 32 = ids.length % 2 ^ 32 := by
    rw [isAllEncResp_iff, hwait, Finset.sdiff_eq_empty_iff_subset, h.sum, sum_eq_zero_iff]
  simp only [recordCtrlDeal, hresult, ne_eq, not_true_eq_false, if_false, hindex, ← hmask, hgood,
    and_false, hcond]
  by_cases hall : ids.toFinset ⊆ locked (as ++ [a]) ∧
      (as.length + 1) % 2 ^ 32 = ids.length % 2 ^ 32
  · have hone : (if ¬ getMaskBitVal msgQueueRecFlg msgQueueRecFlgBit = 0 then (1 : ℤ) else 0) = 1 :=
      by decide
    rw [if_pos hall, if_pos hall, hone]
    refine ⟨_, rfl, ?_, ?_, ?_⟩
    · simp only [Function.update_self, waiting_recFlg]
      exact (Finset.sdiff_eq_empty_iff_subset.mpr hall.1).symm
    · simp only [Function.update_self, good_recFlg]
    · simp only [Function.update_self, hsum]
  · rw [if_neg hall, if_neg hall]
    refine ⟨_, rfl, ?_, ?_, ?_⟩
    · simp only [Function.update_self, hwait]
    · simp only [Function.update_self, hflag]
    · simp only [Function.update_self, hsum]

/-! ### Every run -/

section Runs

variable (startRecord : RoomMsgEnv → ℤ) {ids : List ℕ} {index : Platform}
  {as rs : List RecordAnswer} {env : RecordEnv}

theorem final_of_none : Run.final (recordStep startRecord) none rs = none := by
  induction rs with
  | nil => rfl
  | cons a rs ih => exact ih

/-- A good answer leads on. -/
theorem recordStep_good (h : Counts ids index as env) {a : RecordAnswer} (ha : a.IsStart index)
    (hgood : a.answer.returnCode ≠ 0) :
    ∃ env', recordStep startRecord (some env) a = (some env',
        if ids.toFinset ⊆ locked (as ++ [a]) ∧ (as.length + 1) % 2 ^ 32 = ids.length % 2 ^ 32 then
          some ⟨true, startRecord env.room⟩ else none) ∧
      Counts ids index (as ++ [a]) env' := by
  obtain ⟨env', hdeal, hcounts⟩ := recordCtrlDeal_good startRecord h ha hgood
  refine ⟨env', ?_, hcounts⟩
  simp only [recordStep, Option.bind_some, hdeal]

/-- Good answers are counted. -/
theorem counts_run (h : Counts ids index as env) (hrs : ∀ a ∈ rs, a.IsStart index)
    (hgood : ∀ a ∈ rs, a.answer.returnCode ≠ 0) :
    ∃ env', Run.final (recordStep startRecord) (some env) rs = some env' ∧
      Counts ids index (as ++ rs) env' := by
  induction rs generalizing as env with
  | nil =>
    rw [List.append_nil]
    exact ⟨env, rfl, h⟩
  | cons a rs ih =>
    obtain ⟨env', hstep, hcounts⟩ := recordStep_good startRecord h
      (hrs a (List.mem_cons_self ..)) (hgood a (List.mem_cons_self ..))
    have hcons : as ++ a :: rs = as ++ [a] ++ rs := by simp
    rw [Run.final_cons, hstep, hcons]
    exact ih hcounts (fun b hb => hrs b (List.mem_cons_of_mem _ hb))
      fun b hb => hgood b (List.mem_cons_of_mem _ hb)

/-- The run goes on exactly when no answer is bad. -/
theorem isSome_final_iff (h : Counts ids index as env) (hrs : ∀ a ∈ rs, a.IsStart index) :
    (Run.final (recordStep startRecord) (some env) rs).isSome ↔
      ∀ a ∈ rs, a.answer.returnCode ≠ 0 := by
  induction rs generalizing as env with
  | nil => simp
  | cons a rs ih =>
    have ha := hrs a (List.mem_cons_self ..)
    rw [Run.final_cons, List.forall_mem_cons]
    by_cases hbad : a.answer.returnCode = 0
    · have hstep : recordStep startRecord (some env) a = (none, none) := by
        simp only [recordStep, Option.bind_some, recordCtrlDeal_bad startRecord h ha hbad]
      rw [hstep, final_of_none]
      simp [hbad]
    · obtain ⟨env', hstep, hcounts⟩ := recordStep_good startRecord h ha hbad
      rw [hstep, ih hcounts fun b hb => hrs b (List.mem_cons_of_mem _ hb)]
      simp [hbad]

/-- **Recording is started** with the answers at which the counter is zero and all have answered. -/
theorem outs_record (h : Counts ids index [] env) (hrs : ∀ a ∈ rs, a.IsStart index)
    (hgood : ∀ a ∈ rs, a.answer.returnCode ≠ 0) {i : ℕ} (hi : i < rs.length) :
    ∃ v, (Run.outs (recordStep startRecord) (some env) rs)[i]? =
      some (if Moment ids rs i then some ⟨true, v⟩ else none) := by
  obtain ⟨env', hfinal, hcounts⟩ := counts_run startRecord h
    (fun a ha => hrs a (List.mem_of_mem_take (i := i) ha))
    fun a ha => hgood a (List.mem_of_mem_take ha)
  rw [List.nil_append] at hcounts
  obtain ⟨env'', hstep, -⟩ := recordStep_good startRecord hcounts
    (hrs rs[i] (List.getElem_mem hi)) (hgood rs[i] (List.getElem_mem hi))
  have htake : rs.take i ++ [rs[i]] = rs.take (i + 1) := by simp
  have hlen : (rs.take i).length = i := by
    rw [List.length_take]
    omega
  refine ⟨startRecord env'.room, ?_⟩
  rw [Run.getElem?_outs, List.getElem?_eq_getElem hi, Option.map_some, hfinal, hstep, htake, hlen]
  rfl

/-- The same the other way round. -/
theorem out_iff_moment (h : Counts ids index [] env) (hrs : ∀ a ∈ rs, a.IsStart index)
    (hgood : ∀ a ∈ rs, a.answer.returnCode ≠ 0) (i : ℕ) :
    ((∃ r, (Run.outs (recordStep startRecord) (some env) rs)[i]? = some (some r) ∧
        r.started = true) ↔ i < rs.length ∧ Moment ids rs i) := by
  constructor
  · rintro ⟨r, hr, -⟩
    have hi : i < rs.length := by
      have hlt := (List.getElem?_eq_some_iff.mp hr).1
      rwa [Run.length_outs] at hlt
    refine ⟨hi, ?_⟩
    obtain ⟨v, hv⟩ := outs_record startRecord h hrs hgood hi
    by_contra hno
    rw [if_neg hno, hr] at hv
    exact absurd hv (by simp)
  · rintro ⟨hi, hmoment⟩
    obtain ⟨v, hv⟩ := outs_record startRecord h hrs hgood hi
    rw [if_pos hmoment] at hv
    exact ⟨_, hv, rfl⟩

theorem mem_locked {id : ℕ} : id ∈ locked rs ↔ ∃ a ∈ rs, a.answer.msgtype = id := by
  simp [locked, answered]

/-- All have answered well, when no answer is bad. -/
theorem subset_locked_iff (hgood : ∀ a ∈ rs, a.answer.returnCode ≠ 0) :
    ids.toFinset ⊆ locked rs ↔
      ∀ id ∈ ids, ∃ a ∈ rs, a.answer.msgtype = id ∧ a.answer.returnCode ≠ 0 := by
  constructor
  · intro h id hid
    obtain ⟨a, ha, heq⟩ := mem_locked.mp (h (List.mem_toFinset.mpr hid))
    exact ⟨a, ha, heq, hgood a ha⟩
  · intro h id hid
    obtain ⟨a, ha, heq, -⟩ := h id (List.mem_toFinset.mp hid)
    exact mem_locked.mpr ⟨a, ha, heq⟩

/-- Before `2 ^ 32` answers there is one moment at most, and it is there when the first answers, as
many as there are streams, come from all of them. -/
theorem moment_iff_of_short (hshort : rs.length < 2 ^ 32) (hids : ids.length < 2 ^ 32) {i : ℕ}
    (hi : i < rs.length) :
    Moment ids rs i ↔ i + 1 = ids.length ∧ ids.toFinset ⊆ locked (rs.take ids.length) := by
  rw [Moment, Nat.mod_eq_of_lt hids]
  constructor
  · rintro ⟨hall, hmod⟩
    rw [Nat.mod_eq_of_lt (by omega)] at hmod
    rw [← hmod]
    exact ⟨rfl, hall⟩
  · rintro ⟨hlen, hall⟩
    rw [← hlen] at hall ⊢
    exact ⟨hall, Nat.mod_eq_of_lt (by omega)⟩

/-- **Before `2 ^ 32` answers** the condition is plain: the first answers, as many as there are
streams, come from all of them. -/
theorem regular_iff_of_short (hshort : rs.length < 2 ^ 32) (hids : ids.length < 2 ^ 32)
    (hne : ids ≠ []) (hnodup : ids.Nodup) :
    Regular ids rs ↔ (∀ a ∈ rs, a.answer.returnCode ≠ 0) ∧
      (ids.toFinset ⊆ locked rs → ids.toFinset ⊆ locked (rs.take ids.length)) := by
  constructor
  · rintro ⟨hgood, hmoment⟩
    refine ⟨hgood, fun hall => ?_⟩
    obtain ⟨i, ⟨hi, him⟩, -⟩ := hmoment hall
    exact ((moment_iff_of_short hshort hids hi).mp him).2
  · rintro ⟨hgood, hfirst⟩
    refine ⟨hgood, fun hall => ?_⟩
    have hpos : 0 < ids.length := List.length_pos_iff.mpr hne
    have hlen : ids.length ≤ rs.length := by
      calc ids.length = ids.toFinset.card := (List.toFinset_card_of_nodup hnodup).symm
        _ ≤ (locked (rs.take ids.length)).card := Finset.card_le_card (hfirst hall)
        _ ≤ ((rs.take ids.length).map RecordAnswer.answer).length := by
          rw [locked, answered, ← List.length_map (f := Answer.msgtype)]
          exact List.toFinset_card_le _
        _ ≤ rs.length := by
          rw [List.length_map]
          exact List.length_take_le' ..
    have hlast : ids.length - 1 < rs.length := by omega
    refine ⟨ids.length - 1, ⟨hlast, ?_⟩, fun j hj => ?_⟩
    · exact (moment_iff_of_short hshort hids hlast).mpr ⟨by omega, hfirst hall⟩
    · have hj := ((moment_iff_of_short hshort hids hj.1).mp hj.2).1
      omega

end Runs

/-- **Recording is started rightly** exactly when no answer is bad and, if all answer, there is one
moment at which the counter is zero and all have answered. -/
theorem lockedOnce_iff (startRecord : RoomMsgEnv → ℤ) (t : EncTable) {index : Platform}
    {rs : List RecordAnswer} (hrs : ∀ a ∈ rs, a.IsStart index) (env : RecordEnv) :
    LockedOnce (lockIds t) rs
        (Run.final (recordStep startRecord) (some (sendRecordMsgToEnc t index env)) rs)
        (Run.outs (recordStep startRecord) (some (sendRecordMsgToEnc t index env)) rs) ↔
      Regular (lockIds t) rs := by
  have hcounts := counts_send t index env
  constructor
  · rintro ⟨hknown, honce, -, hstarted, -⟩
    have hgood := (isSome_final_iff startRecord hcounts hrs).mp hknown
    have hout := out_iff_moment startRecord hcounts hrs hgood
    refine ⟨hgood, fun hall => ?_⟩
    obtain ⟨i, r, hr, hs⟩ := hstarted.mpr ((subset_locked_iff hgood).mp hall)
    refine ⟨i, (hout i).mp ⟨r, hr, hs⟩, fun j hj => ?_⟩
    obtain ⟨r', hr', hs'⟩ := (hout j).mpr hj
    exact honce j i r' r hr' hr hs' hs
  · rintro ⟨hgood, hmoment⟩
    have hout := out_iff_moment startRecord hcounts hrs hgood
    have hall : ∀ i, i < rs.length ∧ Moment (lockIds t) rs i →
        (lockIds t).toFinset ⊆ locked rs := by
      rintro i ⟨-, hi, -⟩
      refine hi.trans fun id hid => ?_
      obtain ⟨a, ha, heq⟩ := mem_locked.mp hid
      exact mem_locked.mpr ⟨a, List.mem_of_mem_take ha, heq⟩
    refine ⟨(isSome_final_iff startRecord hcounts hrs).mpr hgood, ?_, ?_, ?_, ?_⟩
    · intro i j r r' hi hj hs hs'
      have hi := (hout i).mp ⟨r, hi, hs⟩
      have hj := (hout j).mp ⟨r', hj, hs'⟩
      exact (hmoment (hall i hi)).unique hi hj
    · intro i r hi hs
      exact ((hout i).mp ⟨r, hi, hs⟩).2.1
    · rw [← subset_locked_iff hgood]
      constructor
      · rintro ⟨i, r, hi, hs⟩
        exact hall i ((hout i).mp ⟨r, hi, hs⟩)
      · intro hsub
        obtain ⟨i, hi, -⟩ := hmoment hsub
        obtain ⟨r, hr, hs⟩ := (hout i).mpr hi
        exact ⟨i, r, hr, hs⟩
    · rintro ⟨a, ha, hbad⟩
      exact absurd hbad (hgood a ha)

/-- An encoder with both streams open. -/
def sampleLock : EncTable :=
  .connect (⟨1, ⟨0, 5⟩, ⟨0, 6⟩, .h264⟩ :: List.replicate 8 ⟨0, ⟨0, 0⟩, ⟨0, 0⟩, .h264⟩) (by decide)

/-- A good answer of a stream. -/
def sampleLocked (stream : ℕ) : RecordAnswer :=
  ⟨⟨stream, ⟨0, 0, 0, 0⟩, 0, some "WebCtrl".toList, none, 1⟩, msgRecordCtrlStart⟩

/-- A room that has not recorded. -/
def sampleRecordEnv : RecordEnv := ⟨⟨.empty, 1⟩, fun _ => 0, fun _ => 0⟩

theorem lockedOnce_iff_sample :
    LockedOnce (lockIds sampleLock) [sampleLocked 2, sampleLocked 1]
        (Run.final (recordStep fun _ => 1)
          (some (sendRecordMsgToEnc sampleLock .webCtrl sampleRecordEnv))
          [sampleLocked 2, sampleLocked 1])
        (Run.outs (recordStep fun _ => 1)
          (some (sendRecordMsgToEnc sampleLock .webCtrl sampleRecordEnv))
          [sampleLocked 2, sampleLocked 1]) ↔
      Regular (lockIds sampleLock) [sampleLocked 2, sampleLocked 1] :=
  lockedOnce_iff _ sampleLock (by decide) sampleRecordEnv

/-- **A stream that answers twice** keeps the recording from being started: all have answered well,
and nothing is sent. -/
theorem answered_twice :
    (∀ id ∈ lockIds sampleLock, ∃ a ∈ [sampleLocked 1, sampleLocked 1, sampleLocked 2],
        a.answer.msgtype = id ∧ a.answer.returnCode ≠ 0) ∧
      Run.outs (recordStep fun _ => 1)
        (some (sendRecordMsgToEnc sampleLock .webCtrl sampleRecordEnv))
        [sampleLocked 1, sampleLocked 1, sampleLocked 2] = [none, none, none] := by
  refine ⟨?_, ?_⟩
  · decide
  · decide

end Room

end ReachEdukit
