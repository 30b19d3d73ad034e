import ReachEdukit.Rtp.Packet

/-!
# Sound that several rooms get

A stream that carries sound has three tables of stream handles that get it too: those that record,
those that record to a USB disk, and those that are live. Three functions go through one table each,
and send every handle that is started a message with a copy of the frame.

A copy that is refused is freed, and then the function returns: the handles behind are not served,
whether their queues are full or not.

## What is left out

`r_msg_send` and `r_malloc` themselves: what they do for each handle is an argument. The logs.

## Main definitions

* `fanOut` — the loop
* `sendMsgToRecAudioRes`, `sendMsgToRecAudioMovie`, `sendMsgToLiveAudio`
* `Isolated` — who gets the frame, and what is freed

## Main results

* `fanOut_queued` — the messages that the loop sends
* `isolated_iff_noneBehind` — when nobody loses a frame because another one refuses it
-/

namespace ReachEdukit

namespace Receive

open Rtp (Byte Buffer)

/-- `OPERATION_SUCC`. -/
def operationSucc : ℤ := 0

/-- `RECEIVE_MALLOC_ERR`. -/
def receiveMallocErr : ℤ := -22

/-- `R_AUDIO`. -/
def rAudio : ℤ := 1

/-- `START_REC`, `START_USB_REC` and `START_LIVE`. -/
def start : ℕ := 1

/-- `RECORD_BIT`. -/
def recordBit : ℕ := 0

/-- `LIVE_BIT`. -/
def liveBit : ℕ := 1

/-- What is read of `hdb_freame_head_t` when sound is sent. -/
structure AudioHead where
  /-- `m_frame_length`. -/
  frameLength : ℕ
  /-- `m_frame_rate`. -/
  frameRate : ℕ
  /-- `m_width`. -/
  width : ℕ
  /-- `m_hight`. -/
  hight : ℕ
  /-- `m_colors`. -/
  colors : ℕ
  /-- `m_dw_flags`. -/
  dwFlags : ℕ
  /-- `m_others`. -/
  others : ℕ
  deriving DecidableEq, Repr

/-- What is read of a `stream_handle` that gets the sound. -/
structure Subscriber where
  /-- `stream_id`. -/
  streamId : ℤ
  /-- `rec_status`. -/
  recStatus : ℕ
  /-- `usb_rec_status`. -/
  usbRecStatus : ℕ
  /-- `live_status`. -/
  liveStatus : ℕ
  /-- `msg_recv_to_rec`. -/
  msgRecvToRec : ℤ
  /-- `msg_recv_to_usb_rec`. -/
  msgRecvToUsbRec : ℤ
  /-- `msg_recv_to_live`. -/
  msgRecvToLive : ℤ
  deriving DecidableEq, Repr

/-- `media_audio_info_t`. -/
structure MediaAudioInfo where
  /-- `audio_tran_movie_info`. -/
  audioTranMovieInfo : List Subscriber
  /-- `audio_tran_res_info`. -/
  audioTranResInfo : List Subscriber
  /-- `audio_tran_live_into`. -/
  audioTranLiveInto : List Subscriber
  deriving DecidableEq, Repr

/-- What is read and set of the `stream_handle` that carries the sound. -/
structure AudioStream where
  /-- `stream_id`. -/
  streamId : ℤ
  /-- `audio_data`. -/
  audioData : Buffer
  /-- `time_audio_tick`. -/
  timeAudioTick : ℕ
  /-- `live_status`. -/
  liveStatus : ℕ
  /-- `log_flag`. -/
  logFlag : BitVec 32
  /-- `recv_pri.to_rec`. -/
  toRec : ℕ
  /-- `recv_pri.to_live`. -/
  toLive : ℕ
  /-- `audio_info`. -/
  audioInfo : Option MediaAudioInfo

/-- A block of memory. -/
abbrev Block := ℕ

/-- `parse_data_t`. -/
structure ParseData where
  index : ℤ
  dataLen : ℤ
  /-- The block with the frame. -/
  data : Block
  /-- What stands in it. -/
  bytes : List Byte
  flags : ℤ
  sindex : ℤ
  audioSindex : ℤ
  dataType : ℤ
  height : ℤ
  width : ℤ
  sampleRate : ℤ
  timeTick : ℤ
  /-- `none` where it is not set. -/
  endFlag : Option ℤ
  blueFlag : ℤ
  codeRate : ℤ
  deriving DecidableEq, Repr

/-- A message that was queued. -/
structure QueuedMsg where
  /-- The place of the handle in the table. -/
  place : ℕ
  /-- The queue. -/
  msgid : ℤ
  /-- The type of the message. -/
  msgtype : ℤ
  /-- The block with the head. -/
  msgbuf : Block
  /-- The head. -/
  head : ParseData
  deriving DecidableEq, Repr

/-- The blocks that go with a message. -/
def QueuedMsg.blocks (m : QueuedMsg) : List Block := [m.head.data, m.msgbuf]

/-- What becomes of one handle: the memory for the frame or for the head is not there, or the message
is refused, or it is taken. -/
inductive Outcome
  | noData
  | noHead
  | refused
  | taken
  deriving DecidableEq, Repr

/-- What has been done so far. -/
structure Fan where
  /-- The stream that carries the sound. -/
  handle : AudioStream
  /-- The number of blocks. -/
  next : Block
  /-- The messages. -/
  queued : List QueuedMsg
  /-- The blocks that were freed, with the place of the handle. -/
  freed : List (ℕ × Block)

/-- How the loop ends. -/
inductive FanExit
  | noMemory
  | refused
  | done
  deriving DecidableEq, Repr

/-- In what the three functions differ. -/
structure FanSpec where
  /-- The handle gets the sound. -/
  started : Subscriber → Bool
  /-- Its queue. -/
  msgid : Subscriber → ℤ
  /-- The table. -/
  table : MediaAudioInfo → List Subscriber
  /-- The field with the sample rate. -/
  sampleRate : AudioHead → ℕ
  /-- The end flag. -/
  endFlag : AudioStream → Option ℤ
  /-- The frame is freed when there is no memory for the head. -/
  freesData : Bool
  /-- `to_rec` or `to_live` is set. -/
  setTo : ℕ → AudioStream → AudioStream
  /-- The bit of `log_flag`. -/
  logBit : ℕ
  /-- What is returned when a message is refused. -/
  refusedCode : ℤ
  /-- What is returned at the end, `none` without a `return`. -/
  doneCode : Option ℤ

/-- `SET_FLAG_BIT_TRUE` or `SET_FLAG_BIT_FALSE` on `log_flag`. -/
def AudioStream.setLog (M : AudioStream) (bit : ℕ) (on : Bool) : AudioStream :=
  { M with logFlag := if on then M.logFlag ||| 1#32 <<< bit else M.logFlag &&& ~~~(1#32 <<< bit) }

/-- The frame. -/
def AudioStream.frame (M : AudioStream) (fh : AudioHead) : List Byte :=
  (List.range fh.frameLength).map M.audioData

/-- The message for the handle `t` at the place `place`, in the blocks from `next` on. -/
def audioMessage (spec : FanSpec) (fh : AudioHead) (M : AudioStream) (t : Subscriber) (place : ℕ)
    (next : Block) : QueuedMsg where
  place := place
  msgid := spec.msgid t
  msgtype := t.streamId
  msgbuf := next + 1
  head :=
    { index := 0
      dataLen := fh.frameLength
      data := next
      bytes := M.frame fh
      flags := fh.dwFlags
      sindex := t.streamId
      audioSindex := M.streamId - 1
      dataType := rAudio
      height := fh.hight
      width := fh.width
      sampleRate := spec.sampleRate fh
      timeTick := M.timeAudioTick
      endFlag := spec.endFlag M
      blueFlag := if fh.others = 0 then 1 else 0
      codeRate := fh.colors }

/-- The loop over the table, of which each handle comes with its place. -/
def fanOut (spec : FanSpec) (fh : AudioHead) (M : AudioStream) (outcome : ℕ → Outcome) :
    List (Subscriber × ℕ) → Fan → Fan × FanExit
  | [], fan => ({ fan with handle := fan.handle.setLog spec.logBit false }, .done)
  | (t, place) :: rest, fan =>
    if spec.started t then
      match outcome place with
      | .noData => (fan, .noMemory)
      | .noHead =>
        ({ fan with
          next := fan.next + 1
          freed := if spec.freesData then fan.freed ++ [(place, fan.next)] else fan.freed },
          .noMemory)
      | .refused =>
        ({ fan with
          handle := spec.setTo 0 (fan.handle.setLog spec.logBit true)
          next := fan.next + 2
          freed := fan.freed ++ [(place, fan.next), (place, fan.next + 1)] }, .refused)
      | .taken =>
        fanOut spec fh M outcome rest
          { fan with
            handle := spec.setTo 1 fan.handle
            next := fan.next + 2
            queued := fan.queued ++ [audioMessage spec fh M t place fan.next] }
    else fanOut spec fh M outcome rest fan

/-- The table of the stream. -/
def AudioStream.table (spec : FanSpec) (M : AudioStream) : List Subscriber :=
  M.audioInfo.elim [] spec.table

/-- The function, and what it returns. -/
def sendAudio (spec : FanSpec) (fh : AudioHead) (M : AudioStream) (outcome : ℕ → Outcome) :
    Fan × Option ℤ :=
  match M.audioInfo with
  | none => (⟨M, 0, [], []⟩, some receiveMallocErr)
  | some info =>
    if spec.table info = [] then (⟨M, 0, [], []⟩, some operationSucc)
    else
      let r := fanOut spec fh M outcome (spec.table info).zipIdx ⟨M, 0, [], []⟩
      match r.2 with
      | .noMemory => (r.1, some receiveMallocErr)
      | .refused => (r.1, some spec.refusedCode)
      | .done => (r.1, spec.doneCode)

/-- For the handles that record. -/
def recAudioRes : FanSpec where
  started t := t.recStatus = start
  msgid t := t.msgRecvToRec
  table info := info.audioTranResInfo
  sampleRate fh := fh.hight
  endFlag _ := none
  freesData := true
  setTo n M := { M with toRec := n }
  logBit := recordBit
  refusedCode := operationSucc
  doneCode := none

/-- For the handles that record to a USB disk. -/
def recAudioMovie : FanSpec where
  started t := t.usbRecStatus = start
  msgid t := t.msgRecvToUsbRec
  table info := info.audioTranMovieInfo
  sampleRate fh := fh.hight
  endFlag _ := none
  freesData := true
  setTo n M := { M with toRec := n }
  logBit := recordBit
  refusedCode := operationSucc
  doneCode := none

/-- For the handles that are live; without memory for the head the frame is lost. -/
def liveAudio : FanSpec where
  started t := t.liveStatus = start
  msgid t := t.msgRecvToLive
  table info := info.audioTranLiveInto
  sampleRate fh := fh.frameRate
  endFlag M := some M.liveStatus
  freesData := false
  setTo n M := { M with toLive := n }
  logBit := liveBit
  refusedCode := -1
  doneCode := some 0

/-- `send_msg_to_rec_audio_res`. -/
def sendMsgToRecAudioRes := sendAudio recAudioRes

/-- `send_msg_to_rec_audio_movie`. -/
def sendMsgToRecAudioMovie := sendAudio recAudioMovie

/-- `send_msg_to_live_audio`. -/
def sendMsgToLiveAudio := sendAudio liveAudio

/-! ### Who gets the frame -/

/-- The handles of a table that are started, with their places. -/
def startedOf (spec : FanSpec) (subs : List Subscriber) : List (Subscriber × ℕ) :=
  subs.zipIdx.filter fun p => spec.started p.1

/-- Each handle that is started and whose queue takes the message gets one, with a copy of its own;
what was copied for the others is freed. -/
structure Isolated (spec : FanSpec) (fh : AudioHead) (M : AudioStream) (outcome : ℕ → Outcome)
    (subs : List Subscriber) (fan : Fan) : Prop where
  /-- One message for each of them, in the order of the table. -/
  sent : fan.queued.map QueuedMsg.place =
    ((startedOf spec subs).filter fun p => outcome p.2 = .taken).map Prod.snd
  /-- The message is one for the handle at its place, with the frame in it. -/
  message : ∀ m ∈ fan.queued, ∃ t, subs[m.place]? = some t ∧ m.msgid = spec.msgid t ∧
    m.msgtype = t.streamId ∧ m.head.bytes = M.frame fh
  /-- Every block is in one message, or was freed once. -/
  owned : (fan.queued.flatMap QueuedMsg.blocks ++ fan.freed.map Prod.snd).Perm (List.range fan.next)
  /-- Only what was refused is freed. -/
  freed : ∀ p ∈ fan.freed, ∃ t, subs[p.1]? = some t ∧ spec.started t = true ∧
    outcome p.1 = .refused

/-- Nobody whose queue would take the message comes behind one that refuses it. -/
def NoneBehind (spec : FanSpec) (outcome : ℕ → Outcome) (subs : List Subscriber) : Prop :=
  (startedOf spec subs).Pairwise fun p q => outcome p.2 = .refused → outcome q.2 ≠ .taken

instance (spec : FanSpec) (outcome : ℕ → Outcome) (subs : List Subscriber) :
    Decidable (NoneBehind spec outcome subs) :=
  inferInstanceAs (Decidable (List.Pairwise _ _))

variable {spec : FanSpec} {fh : AudioHead} {M : AudioStream} {outcome : ℕ → Outcome}
  {subs : List Subscriber}

/-- What is taken up to the first failure is all that has a property exactly when nothing that has it
comes behind something that has not. -/
theorem takeWhile_eq_filter_iff {α : Type*} {p : α → Bool} {l : List α} :
    l.takeWhile p = l.filter p ↔ l.Pairwise fun a b => p a = false → p b = false := by
  induction l with
  | nil => simp
  | cons a l ih =>
    rw [List.pairwise_cons]
    obtain ha | ha := Bool.eq_false_or_eq_true (p a)
    · rw [List.takeWhile_cons_of_pos ha, List.filter_cons_of_pos ha, List.cons_inj_right, ih]
      simp [ha]
    · rw [List.takeWhile_cons_of_neg (by simp [ha]), List.filter_cons_of_neg (by simp [ha]), eq_comm,
        List.filter_eq_nil_iff]
      constructor
      · intro h
        have hall : ∀ b ∈ l, p b = false := fun b hb => by simpa using h b hb
        refine ⟨fun b hb _ => hall b hb, ?_⟩
        exact List.pairwise_of_forall_mem_list fun _ _ b hb _ => hall b hb
      · intro h b hb
        simp [h.1 b hb ha]

theorem takeWhile_sublist_filter {α : Type*} (p : α → Bool) (l : List α) :
    (l.takeWhile p).Sublist (l.filter p) := by
  have hself : (l.takeWhile p).filter p = l.takeWhile p :=
    List.filter_eq_self.mpr fun _ ha => List.mem_takeWhile_imp ha
  rw [← hself]
  exact (List.takeWhile_sublist p).filter p

/-- What the loop keeps, in a table of which `all` are the handles with their places. -/
structure Fan.Sound (spec : FanSpec) (fh : AudioHead) (M : AudioStream) (outcome : ℕ → Outcome)
    (all : List (Subscriber × ℕ)) (fan : Fan) : Prop where
  message : ∀ m ∈ fan.queued, ∃ t, (t, m.place) ∈ all ∧ m.msgid = spec.msgid t ∧
    m.msgtype = t.streamId ∧ m.head.bytes = M.frame fh
  owned : (fan.queued.flatMap QueuedMsg.blocks ++ fan.freed.map Prod.snd).Perm (List.range fan.next)
  freed : ∀ p ∈ fan.freed, ∃ t, (t, p.1) ∈ all ∧ spec.started t = true ∧ outcome p.1 = .refused

variable {all rest : List (Subscriber × ℕ)} {fan : Fan}

/-- The loop sends to the handles that are started, up to the first one where something fails. -/
theorem fanOut_queued (spec : FanSpec) (fh : AudioHead) (M : AudioStream) (outcome : ℕ → Outcome)
    (rest : List (Subscriber × ℕ)) (fan : Fan) :
    (fanOut spec fh M outcome rest fan).1.queued.map QueuedMsg.place = fan.queued.map QueuedMsg.place ++
      ((rest.filter fun p => spec.started p.1).takeWhile fun p =>
        outcome p.2 = .taken).map Prod.snd := by
  induction rest generalizing fan with
  | nil => simp [fanOut]
  | cons p rest ih =>
    obtain ⟨t, place⟩ := p
    rw [fanOut]
    by_cases hstarted : spec.started t
    · rw [if_pos hstarted, List.filter_cons_of_pos (by exact hstarted), List.takeWhile_cons]
      cases houtcome : outcome place with
      | noData => simp
      | noHead => simp
      | refused => simp
      | taken =>
        refine (ih _).trans ?_
        rw [if_pos (by simp), List.map_append, List.append_assoc]
        rfl
    · rw [if_neg hstarted, List.filter_cons_of_neg (by simpa using hstarted), ih]

/-- A message is sent with two new blocks. -/
theorem Fan.Sound.send (h : fan.Sound spec fh M outcome all) {t : Subscriber} {place : ℕ}
    (hmem : (t, place) ∈ all) (handle : AudioStream) :
    Fan.Sound spec fh M outcome all { fan with
      handle := handle
      next := fan.next + 2
      queued := fan.queued ++ [audioMessage spec fh M t place fan.next] } where
  message m hm := by
    obtain hm | hm := List.mem_append.mp hm
    · exact h.message m hm
    · obtain rfl := List.mem_singleton.mp hm
      exact ⟨t, hmem, rfl, rfl, rfl⟩
  owned := by
    change ((fan.queued ++ _).flatMap QueuedMsg.blocks ++ fan.freed.map Prod.snd).Perm
      (List.range (fan.next + 1 + 1))
    rw [List.flatMap_append, List.range_succ, List.range_succ, List.append_assoc, List.append_assoc]
    refine (List.perm_append_comm.append_left _).trans ?_
    rw [← List.append_assoc]
    exact h.owned.append_right [fan.next, fan.next + 1]
  freed := h.freed

/-- A message is refused, and its two blocks are freed. -/
theorem Fan.Sound.refuse (h : fan.Sound spec fh M outcome all) {t : Subscriber} {place : ℕ}
    (hmem : (t, place) ∈ all) (hstarted : spec.started t = true) (houtcome : outcome place = .refused)
    (handle : AudioStream) :
    Fan.Sound spec fh M outcome all { fan with
      handle := handle
      next := fan.next + 2
      freed := fan.freed ++ [(place, fan.next), (place, fan.next + 1)] } where
  message := h.message
  owned := by
    change (fan.queued.flatMap QueuedMsg.blocks ++ (fan.freed ++ _).map Prod.snd).Perm
      (List.range (fan.next + 1 + 1))
    rw [List.map_append, List.range_succ, List.range_succ, List.append_assoc, ← List.append_assoc]
    exact h.owned.append_right [fan.next, fan.next + 1]
  freed p hp := by
    obtain hp | hp := List.mem_append.mp hp
    · exact h.freed p hp
    · have hplace : p.1 = place := by
        simp only [List.mem_cons, List.not_mem_nil, or_false] at hp
        obtain rfl | rfl := hp <;> rfl
      rw [hplace]
      exact ⟨t, hmem, hstarted, houtcome⟩

/-- **The loop**, while there is memory. -/
theorem Fan.Sound.fanOut (h : fan.Sound spec fh M outcome all) (hrest : ∀ p ∈ rest, p ∈ all)
    (hmemory : ∀ i, outcome i = .taken ∨ outcome i = .refused) :
    (fanOut spec fh M outcome rest fan).1.Sound spec fh M outcome all := by
  induction rest generalizing fan with
  | nil => exact ⟨h.message, h.owned, h.freed⟩
  | cons p rest ih =>
    obtain ⟨t, place⟩ := p
    have hmem := hrest (t, place) (List.mem_cons_self ..)
    have hrest : ∀ p ∈ rest, p ∈ all := fun p hp => hrest p (List.mem_cons_of_mem _ hp)
    rw [Receive.fanOut]
    by_cases hstarted : spec.started t
    · rw [if_pos hstarted]
      obtain houtcome | houtcome := hmemory place
      · rw [houtcome]
        exact ih (h.send hmem _) hrest
      · rw [houtcome]
        exact h.refuse hmem hstarted houtcome _
    · rw [if_neg hstarted]
      exact ih h hrest

/-- Without a table, or with one that is empty, nothing is done. -/
theorem sendAudio_fan (spec : FanSpec) (fh : AudioHead) (M : AudioStream) (outcome : ℕ → Outcome) :
    ∃ handle, (sendAudio spec fh M outcome).1 =
      { (fanOut spec fh M outcome (M.table spec).zipIdx ⟨M, 0, [], []⟩).1 with handle := handle } := by
  rw [sendAudio, AudioStream.table]
  obtain hinfo | ⟨info, hinfo⟩ := Option.eq_none_or_eq_some M.audioInfo
  · rw [hinfo]
    exact ⟨M, rfl⟩
  · rw [hinfo]
    change ∃ handle, (ite (spec.table info = []) _ _ : Fan × Option ℤ).1 = _
    by_cases hnil : spec.table info = []
    · rw [if_pos hnil, Option.elim_some, hnil]
      exact ⟨M, rfl⟩
    · rw [if_neg hnil, Option.elim_some]
      obtain ⟨r, hr⟩ : ∃ r, fanOut spec fh M outcome (spec.table info).zipIdx ⟨M, 0, [], []⟩ = r :=
        ⟨_, rfl⟩
      rw [hr]
      refine ⟨r.1.handle, ?_⟩
      obtain ⟨fan, exit⟩ := r
      cases exit <;> rfl

/-- **One of the functions**: everybody who is started and takes the message gets it, and nothing else
is freed or lost, exactly when nobody comes behind one who refuses it. -/
theorem sendAudio_isolated_iff (spec : FanSpec) (fh : AudioHead) (M : AudioStream)
    (hmemory : ∀ i, outcome i = .taken ∨ outcome i = .refused) :
    Isolated spec fh M outcome (M.table spec) (sendAudio spec fh M outcome).1 ↔
      NoneBehind spec outcome (M.table spec) := by
  have hsound : Fan.Sound spec fh M outcome (M.table spec).zipIdx ⟨M, 0, [], []⟩ :=
    ⟨fun _ hm => absurd hm List.not_mem_nil, List.Perm.refl _, fun _ hp => absurd hp List.not_mem_nil⟩
  have hloop := hsound.fanOut (fun _ hp => hp) hmemory
  have hqueued := fanOut_queued spec fh M outcome (M.table spec).zipIdx ⟨M, 0, [], []⟩
  obtain ⟨handle, hfan⟩ := sendAudio_fan spec fh M outcome
  rw [hfan]
  have hnone : NoneBehind spec outcome (M.table spec) ↔ ((startedOf spec (M.table spec)).takeWhile
      fun p => outcome p.2 = .taken) = (startedOf spec (M.table spec)).filter fun p =>
        outcome p.2 = .taken := by
    rw [takeWhile_eq_filter_iff, NoneBehind]
    refine iff_of_eq (congrArg (List.Pairwise · _) ?_)
    funext p q
    have hp : outcome p.2 = .refused ↔ ¬ outcome p.2 = .taken := by
      obtain h | h := hmemory p.2 <;> simp [h]
    simp [hp]
  rw [hnone]
  constructor
  · intro h
    have hsent := h.sent
    change (Receive.fanOut spec fh M outcome _ _).1.queued.map QueuedMsg.place = _ at hsent
    rw [hqueued] at hsent
    have hlen := congrArg List.length hsent
    rw [List.map_nil, List.nil_append, List.length_map, List.length_map] at hlen
    exact (takeWhile_sublist_filter _ _).eq_of_length hlen
  · intro h
    refine ⟨?_, fun m hm => ?_, hloop.owned, fun p hp => ?_⟩
    · rw [← h]
      exact hqueued
    · obtain ⟨t, hmem, hm⟩ := hloop.message m hm
      exact ⟨t, List.mk_mem_zipIdx_iff_getElem?.mp hmem, hm⟩
    · obtain ⟨t, hmem, hp⟩ := hloop.freed p hp
      exact ⟨t, List.mk_mem_zipIdx_iff_getElem?.mp hmem, hp⟩

/-- **Sound that several rooms get.** For each of the three functions, whatever the tables and
whichever queues are full: one handle that refuses the frame takes it from nobody else, and nothing is
freed but what was refused, exactly when nobody comes behind it who is started and would take it. -/
theorem isolated_iff_noneBehind (fh : AudioHead) (M : AudioStream)
    (hmemory : ∀ i, outcome i = .taken ∨ outcome i = .refused) :
    (Isolated recAudioRes fh M outcome (M.table recAudioRes) (sendMsgToRecAudioRes fh M outcome).1 ↔
        NoneBehind recAudioRes outcome (M.table recAudioRes)) ∧
      (Isolated recAudioMovie fh M outcome (M.table recAudioMovie)
          (sendMsgToRecAudioMovie fh M outcome).1 ↔
        NoneBehind recAudioMovie outcome (M.table recAudioMovie)) ∧
      (Isolated liveAudio fh M outcome (M.table liveAudio) (sendMsgToLiveAudio fh M outcome).1 ↔
        NoneBehind liveAudio outcome (M.table liveAudio)) :=
  ⟨sendAudio_isolated_iff recAudioRes fh M hmemory, sendAudio_isolated_iff recAudioMovie fh M hmemory,
    sendAudio_isolated_iff liveAudio fh M hmemory⟩

/-- Two handles that are started, in each of the tables. -/
def twoRooms : AudioStream where
  streamId := 1
  audioData _ := 7
  timeAudioTick := 40
  liveStatus := 1
  logFlag := 0
  toRec := 0
  toLive := 0
  audioInfo :=
    let subs := [⟨2, 1, 1, 1, 10, 11, 12⟩, ⟨3, 1, 1, 1, 20, 21, 22⟩]
    some ⟨subs, subs, subs⟩

/-- A frame of two bytes. -/
def twoBytes : AudioHead := ⟨2, 44100, 0, 44100, 0, 0, 0⟩

/-- The second handle refuses the frame. -/
theorem isolated_iff_noneBehind_sample :
    let outcome : ℕ → Outcome := fun i => if i = 1 then .refused else .taken
    (Isolated recAudioRes twoBytes twoRooms outcome (twoRooms.table recAudioRes)
        (sendMsgToRecAudioRes twoBytes twoRooms outcome).1 ↔
        NoneBehind recAudioRes outcome (twoRooms.table recAudioRes)) ∧
      (Isolated recAudioMovie twoBytes twoRooms outcome (twoRooms.table recAudioMovie)
          (sendMsgToRecAudioMovie twoBytes twoRooms outcome).1 ↔
        NoneBehind recAudioMovie outcome (twoRooms.table recAudioMovie)) ∧
      (Isolated liveAudio twoBytes twoRooms outcome (twoRooms.table liveAudio)
          (sendMsgToLiveAudio twoBytes twoRooms outcome).1 ↔
        NoneBehind liveAudio outcome (twoRooms.table liveAudio)) :=
  isolated_iff_noneBehind twoBytes twoRooms fun i => by
    by_cases h : i = 1 <;> simp [h]

/-- The first handle refuses the frame, and the second one gets none. -/
theorem second_room_loses :
    let outcome : ℕ → Outcome := fun i => if i = 0 then .refused else .taken
    (sendMsgToRecAudioRes twoBytes twoRooms outcome).1.queued = [] ∧
      (sendMsgToRecAudioMovie twoBytes twoRooms outcome).1.queued = [] ∧
      (sendMsgToLiveAudio twoBytes twoRooms outcome).1.queued = [] ∧
      ¬ Isolated recAudioRes twoBytes twoRooms outcome (twoRooms.table recAudioRes)
        (sendMsgToRecAudioRes twoBytes twoRooms outcome).1 := by
  refine ⟨by decide, by decide, by decide, fun h => ?_⟩
  exact absurd h.sent (by decide)

end Receive

end ReachEdukit
