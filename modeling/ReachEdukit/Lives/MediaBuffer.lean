import ReachEdukit.Lives.Users

/-!
# The buffers of a live room

The thread of a live room gets the packets of its encoders as buffers, which it has to free. A picture
is kept: it is the one that a user who comes later is sent first. Three functions decide about a
buffer. `local_media_data_pkg` keeps it when the packet is a picture, and frees it when nobody is sent
anything, unless it is one; `send_video_data_pdg` frees what it has sent, unless the stream is one of
pictures; and `reset_live_mode_enc` frees the picture that is kept, but does not forget it.

A buffer here is the number of the message that brought it: no two messages bring the same. The tables
of users and of encoders belong to other threads too, and may be anything at any time. One message type
stands for an interruption, whose message brings no buffer; a packet that came under it would be lost.

## What is left out

The time stamps, what is sent, and the counters for debugging.

## Main definitions

* `getVideoDataInfo`, `getSendUserinfo` — the stream of a packet, and who gets it
* `localMediaDataPkg`, `sendVideoDataPdg`, `resetLiveModeEnc` — who frees a buffer
* `LivesMode.Owned` — every buffer was freed once, or is the one that is kept

## Main results

* `owned_iff_typesAgree` — when the buffers are owned in a run
-/

namespace ReachEdukit

namespace Lives

/-- `VIDEO_H264`. -/
def videoH264 : ℤ := 0

/-- `VIDEO_JPEG`. -/
def videoJpeg : ℤ := 1

/-- `VIDEO_DATA_TYPE_HD`. -/
def videoDataTypeHd : ℤ := 0

/-- `VIDEO_DATA_TYPE_BD`. -/
def videoDataTypeBd : ℤ := 1

/-- `INTERRUPTION_MSG_ID`. -/
def interruptionMsgId : ℤ := 22

/-- The kinds of packet. -/
inductive PacketType
  | rVideo
  | rAudio
  | rJpeg
  deriving DecidableEq, Repr

/-- `video_enc_info_t`. -/
structure VideoEncInfo where
  /-- The message type of the high-definition stream. -/
  hdVideoSindex : ℤ
  /-- The message type of the standard-definition stream. -/
  bdVideoSindex : ℤ
  /-- `VIDEO_H264`, `VIDEO_JPEG`, or `-1`. -/
  encType : ℤ
  deriving DecidableEq, Repr

/-- `video_sindex_info_t`: the first `enc_num` encoders. -/
structure VideoSindexInfo where
  /-- `0` when the encoders are to be reset. -/
  vaildFlag : ℤ
  /-- The encoders. -/
  videoEnc : List VideoEncInfo
  deriving DecidableEq, Repr

/-- `video_data_type_t`. -/
structure VideoDataType where
  /-- The digit by which users ask for the stream. -/
  dataSindex : UInt8
  /-- The definition. -/
  dataQuqlity : ℤ
  /-- The type of the stream. -/
  dataType : ℤ
  /-- The number of the stream. -/
  videoSindex : ℕ
  deriving DecidableEq, Repr

/-- The `switch` over the number of a stream. -/
def dataSindexOf (index : ℕ) : UInt8 := if index ≤ 8 then 49 + index.toUInt8 else 48

/-- The loop of `get_video_data_info`, from the encoder with the number `index` on. -/
def videoDataInfoFrom (msgType : ℤ) : ℕ → List VideoEncInfo → Option VideoDataType
  | _, [] => none
  | index, enc :: rest =>
    if enc.encType = -1 then videoDataInfoFrom msgType (index + 1) rest
    else if enc.encType = videoH264 then
      if enc.hdVideoSindex = msgType then
        some ⟨dataSindexOf index, videoDataTypeHd, videoH264, index⟩
      else if enc.bdVideoSindex = msgType then
        some ⟨dataSindexOf index, videoDataTypeBd, videoH264, index⟩
      else videoDataInfoFrom msgType (index + 1) rest
    else if enc.encType = videoJpeg then
      if enc.hdVideoSindex = msgType then
        some ⟨dataSindexOf index, videoDataTypeHd, videoJpeg, index⟩
      else videoDataInfoFrom msgType (index + 1) rest
    else none

/-- `get_video_data_info`, `none` for its error. -/
def getVideoDataInfo (msgType : ℤ) (enc : VideoSindexInfo) : Option VideoDataType :=
  videoDataInfoFrom msgType 0 enc.videoEnc

/-- `get_video_sindex`, `none` for `-1`. -/
def getVideoSindex (videoType : ℤ) (enc : VideoSindexInfo) : Option ℕ :=
  enc.videoEnc.findIdx? fun e => e.encType = videoType

/-- `distinguish_send_flag`. -/
def distinguishSendFlag (dataType : VideoDataType) (user : LivesUserInfo) : Bool :=
  (dataType.dataType = videoJpeg ∨ user.videoQualityType = dataType.dataQuqlity) ∧
    ∃ i, user.videoEncodeIndex i = dataType.dataSindex

/-- `get_send_userinfo`: the slots of the users who get the stream. -/
def getSendUserinfo (dataType : VideoDataType) (u : Users) : List (Fin videoUserMaxNum) :=
  (List.finRange _).filter fun i =>
    (u.userInfo i).taken && distinguishSendFlag dataType (u.userInfo i)

/-- `get_send_userinfo_jpeg`: its pointer stops at the first slot that is free. -/
def getSendUserinfoJpeg (u : Users) : List (Fin videoUserMaxNum) :=
  ((List.finRange _).takeWhile fun i => (u.userInfo i).taken).filter fun i =>
    (u.userInfo i).videoJpegFlag = 0

/-- A buffer: the number of the message that brought it. -/
abbrev Buffer := ℕ

/-- `lives_mode_info_t`, with what became of the buffers. -/
structure LivesMode where
  /-- The thread has not been stopped. -/
  running : Bool
  /-- The users. -/
  users : Users
  /-- The encoders. -/
  videoSindex : VideoSindexInfo
  /-- `0` while a picture is kept, `-1` otherwise. -/
  jpegValidFlag : ℤ
  /-- The pointer to the picture that is kept. -/
  jpegMsgbuf : Option Buffer
  /-- How many buffers have been received. -/
  received : ℕ
  /-- The buffers that have been freed, one after another. -/
  freed : List Buffer

/-- `init_lives_mode_info`. -/
def LivesMode.init (users : Users) (videoSindex : VideoSindexInfo) : LivesMode :=
  ⟨true, users, videoSindex, -1, none, 0, []⟩

/-- `r_free`. -/
def LivesMode.free (s : LivesMode) (b : Buffer) : LivesMode := { s with freed := s.freed ++ [b] }

/-- `send_video_data_pdg`, to the users in these slots. -/
def sendVideoDataPdg (b : Buffer) (slots : List (Fin videoUserMaxNum)) (dataType : ℤ)
    (s : LivesMode) : LivesMode :=
  if dataType = videoJpeg then
    { s with users := { s.users with userInfo := fun i =>
      if i ∈ slots then { s.users.userInfo i with videoJpegFlag := 1 } else s.users.userInfo i } }
  else s.free b

/-- `deal_video_jpeg_data`: the users who have not got the picture are sent the one that is kept. -/
def dealVideoJpegData (s : LivesMode) : LivesMode :=
  if s.jpegValidFlag ≠ 0 then s
  else
    match getVideoSindex videoJpeg s.videoSindex, s.jpegMsgbuf with
    | some _, some b =>
      if getSendUserinfoJpeg s.users = [] then s
      else sendVideoDataPdg b (getSendUserinfoJpeg s.users) videoJpeg s
    | _, _ => s

/-- The part of `local_media_data_pkg` for a picture: it is kept, and the one before is freed. -/
def LivesMode.keep (s : LivesMode) (b : Buffer) : LivesMode :=
  let s := if s.jpegValidFlag = -1 then { s with jpegValidFlag := 0 }
    else s.jpegMsgbuf.elim s s.free
  { s with jpegMsgbuf := some b }

/-- What `local_media_data_pkg` does with a packet that nobody gets. -/
def LivesMode.drop (s : LivesMode) (b : Buffer) (packet : PacketType) : LivesMode :=
  if packet = .rJpeg then s else s.free b

/-- `local_media_data_pkg`. -/
def localMediaDataPkg (msgType : ℤ) (packet : PacketType) (b : Buffer) (s : LivesMode) :
    LivesMode :=
  let s := if packet = .rJpeg then s.keep b else s
  if s.users.userNum = 0 then s.drop b packet
  else
    match getVideoDataInfo msgType s.videoSindex with
    | none => s.drop b packet
    | some dataType =>
      if getSendUserinfo dataType s.users = [] then s.drop b packet
      else sendVideoDataPdg b (getSendUserinfo dataType s.users) dataType.dataType s

/-- `reset_live_mode_enc`. -/
def resetLiveModeEnc (s : LivesMode) : LivesMode :=
  if s.videoSindex.vaildFlag = 0 then
    let s := { s with videoSindex := ⟨-1, []⟩ }
    if s.jpegValidFlag = 0 then
      let s := { s with jpegValidFlag := -1 }
      s.jpegMsgbuf.elim s s.free
    else s
  else s

/-- The turn of an interruption. -/
def LivesMode.interrupt (s : LivesMode) : LivesMode :=
  let s := resetLiveModeEnc s
  { s with users := resetLiveModeUser s.users }

/-- The buffers of the next `n` messages are received and freed. -/
def LivesMode.drain (s : LivesMode) (n : ℕ) : LivesMode :=
  { s with received := s.received + n, freed := s.freed ++ List.range' s.received n }

/-- The end of `lives_mode_thread`, when so many packets are still in its queue, and the thread for
debugging has stopped or not. -/
def LivesMode.finish (s : LivesMode) (waiting : ℕ) (debugStopped : Bool) : LivesMode :=
  let s := { s.drain waiting with running := false }
  if debugStopped then { s.jpegMsgbuf.elim s s.free with jpegMsgbuf := none } else s

/-- What happens to a live room. -/
inductive LivesEvent
  /-- Other threads have set the tables. -/
  | tables (users : Users) (videoSindex : VideoSindexInfo)
  /-- The thread receives a packet. -/
  | message (msgType : ℤ) (packet : PacketType)
  /-- The thread receives an interruption. -/
  | interruption
  /-- The thread is stopped. -/
  | stop (waiting : ℕ) (debugStopped : Bool)

/-- One turn of `lives_mode_thread`, or a step of others. -/
def livesStep (s : LivesMode) (e : LivesEvent) : LivesMode :=
  if s.running then
    match e with
    | .tables users videoSindex => { s with users := users, videoSindex := videoSindex }
    | .message msgType packet =>
      let b := s.received
      let s := { s with received := s.received + 1 }
      if msgType = interruptionMsgId then s.interrupt
      else localMediaDataPkg msgType packet b (dealVideoJpegData s)
    | .interruption => s.interrupt
    | .stop waiting debugStopped => s.finish waiting debugStopped
  else s

/-! ### Who owns the buffers -/

/-- The picture that is kept. -/
def LivesMode.cached (s : LivesMode) : List Buffer :=
  if s.jpegValidFlag = 0 then s.jpegMsgbuf.toList else []

/-- Every buffer that was received has been freed, or is the picture that is kept; none twice, and
none both. -/
def LivesMode.Owned (s : LivesMode) : Prop := (List.range s.received).Perm (s.freed ++ s.cached)

instance (s : LivesMode) : Decidable s.Owned := inferInstanceAs (Decidable (List.Perm _ _))

/-- In other words. -/
theorem LivesMode.owned_iff {s : LivesMode} : s.Owned ↔
    (∀ b, b < s.received ↔ b ∈ s.freed ∨ b ∈ s.cached) ∧ s.freed.Nodup ∧
      ∀ b ∈ s.freed, b ∉ s.cached := by
  have hcached : s.cached.Nodup := by
    rw [LivesMode.cached]
    split_ifs
    · rcases s.jpegMsgbuf with _ | b
      · exact List.nodup_nil
      · exact List.nodup_singleton b
    · exact List.nodup_nil
  have happend : (s.freed ++ s.cached).Nodup ↔ s.freed.Nodup ∧ ∀ b ∈ s.freed, b ∉ s.cached := by
    rw [List.nodup_append, and_iff_right hcached]
    refine and_congr_right fun _ => ⟨fun h b hb hb' => h b hb b hb' rfl, fun h b hb c hc => ?_⟩
    rintro rfl
    exact h b hb hc
  rw [← happend]
  constructor
  · intro h
    refine ⟨fun b => ?_, h.nodup_iff.mp List.nodup_range⟩
    rw [← List.mem_range, h.mem_iff, List.mem_append]
  · rintro ⟨hmem, hnodup⟩
    refine (List.perm_ext_iff_of_nodup List.nodup_range hnodup).mpr fun b => ?_
    rw [List.mem_range, hmem, List.mem_append]

/-- A packet does not come as an interruption, and is a picture exactly when its stream is one of
pictures, if anybody is sent it; and at the end no picture is remembered that has been freed. -/
def TypesAgree (s : LivesMode) : LivesEvent → Prop
  | .message msgType packet => s.running → msgType ≠ interruptionMsgId ∧ (s.users.userNum ≠ 0 →
    ∀ dataType ∈ getVideoDataInfo msgType s.videoSindex, getSendUserinfo dataType s.users ≠ [] →
      (packet = .rJpeg ↔ dataType.dataType = videoJpeg))
  | .stop _ debugStopped => s.running → debugStopped → s.jpegMsgbuf ≠ none → s.jpegValidFlag = 0
  | _ => True

variable {s : LivesMode}

theorem dealVideoJpegData_cases (s : LivesMode) : dealVideoJpegData s = s ∨
    ∃ b slots, dealVideoJpegData s = sendVideoDataPdg b slots videoJpeg s := by
  rw [dealVideoJpegData]
  split
  · exact Or.inl rfl
  · split
    · split
      · exact Or.inl rfl
      · exact Or.inr ⟨_, _, rfl⟩
    · exact Or.inl rfl

/-- Sending the picture that is kept changes no buffer and nothing that is asked about a packet. -/
theorem dealVideoJpegData_spec (s : LivesMode) : ∃ u : Users,
    dealVideoJpegData s = { s with users := u } ∧ u.userNum = s.users.userNum ∧
      ∀ dataType, getSendUserinfo dataType u = getSendUserinfo dataType s.users := by
  rcases dealVideoJpegData_cases s with heq | ⟨b, slots, heq⟩
  · exact ⟨s.users, heq, rfl, fun _ => rfl⟩
  · rw [heq, sendVideoDataPdg, if_pos rfl]
    refine ⟨_, rfl, rfl, fun dataType => List.filter_congr fun i _ => ?_⟩
    change ((if i ∈ slots then _ else _ : LivesUserInfo).taken &&
      distinguishSendFlag dataType (if i ∈ slots then _ else _)) = _
    split_ifs <;> rfl

/-- Keeping a picture: the one that was kept before is freed. -/
theorem keep_eq (s : LivesMode) (b : Buffer) : s.keep b =
    { s with
      jpegValidFlag := if s.jpegValidFlag = -1 then 0 else s.jpegValidFlag
      jpegMsgbuf := some b
      freed := s.freed ++ if s.jpegValidFlag = -1 then [] else s.jpegMsgbuf.toList } := by
  rw [LivesMode.keep]
  split_ifs
  · simp
  · rcases s.jpegMsgbuf with _ | old
    · simp
    · rfl

/-- A packet is sent to somebody, or not: what becomes of its buffer. -/
theorem localMediaDataPkg_cases (msgType : ℤ) (packet : PacketType) (b : Buffer) (s : LivesMode) :
    (s.users.userNum ≠ 0 ∧ ∃ dataType ∈ getVideoDataInfo msgType s.videoSindex,
        getSendUserinfo dataType s.users ≠ [] ∧ localMediaDataPkg msgType packet b s =
          sendVideoDataPdg b (getSendUserinfo dataType s.users) dataType.dataType
            (if packet = .rJpeg then s.keep b else s)) ∨
      (s.users.userNum ≠ 0 → ∀ dataType ∈ getVideoDataInfo msgType s.videoSindex,
          getSendUserinfo dataType s.users = []) ∧
        localMediaDataPkg msgType packet b s = (if packet = .rJpeg then s.keep b else s.free b) := by
  obtain ⟨s₁, hs₁⟩ : ∃ s₁, (if packet = .rJpeg then s.keep b else s) = s₁ := ⟨_, rfl⟩
  have husers : s₁.users = s.users ∧ s₁.videoSindex = s.videoSindex := by
    rw [← hs₁]
    split_ifs
    · rw [keep_eq]
      exact ⟨rfl, rfl⟩
    · exact ⟨rfl, rfl⟩
  have hdrop : s₁.drop b packet = (if packet = .rJpeg then s.keep b else s.free b) := by
    rw [LivesMode.drop, ← hs₁]
    split_ifs <;> rfl
  rw [localMediaDataPkg, hs₁, hdrop, husers.1, husers.2]
  by_cases hnum : s.users.userNum = 0
  · exact Or.inr ⟨fun h => absurd hnum h, if_pos hnum⟩
  · rcases hinfo : getVideoDataInfo msgType s.videoSindex with _ | dataType
    · exact Or.inr ⟨fun _ _ h => absurd h (by simp), if_neg hnum⟩
    · by_cases hslots : getSendUserinfo dataType s.users = []
      · refine Or.inr ⟨fun _ _ h => ?_, ?_⟩
        · obtain rfl := Option.some.inj h
          exact hslots
        · exact (if_neg hnum).trans (if_pos hslots)
      · exact Or.inl ⟨hnum, dataType, rfl, hslots, (if_neg hnum).trans (if_neg hslots)⟩

/-- The flag is set exactly while a picture is kept; what was received is what was freed, and it. -/
structure LivesMode.Sound (s : LivesMode) : Prop where
  flag : s.jpegValidFlag = 0 ∨ s.jpegValidFlag = -1
  owned : s.Owned

/-- A buffer that is received and freed. -/
theorem LivesMode.Sound.free (h : s.Sound) :
    LivesMode.Sound { s with received := s.received + 1, freed := s.freed ++ [s.received] } where
  flag := h.flag
  owned := by
    change (List.range (s.received + 1)).Perm (s.freed ++ [s.received] ++ s.cached)
    rw [List.range_succ]
    refine (h.owned.append_right _).trans ?_
    rw [List.append_assoc, List.append_assoc]
    exact List.perm_append_comm.append_left _

/-- A picture that is received and kept. -/
theorem LivesMode.Sound.keep (h : s.Sound) :
    LivesMode.Sound (({ s with received := s.received + 1 } : LivesMode).keep s.received) := by
  rw [keep_eq]
  refine ⟨?_, ?_⟩
  · change (if s.jpegValidFlag = -1 then 0 else s.jpegValidFlag) = 0 ∨ _
    have hflag := h.flag
    split_ifs <;> omega
  · have hcached : (if s.jpegValidFlag = -1 then [] else s.jpegMsgbuf.toList) = s.cached := by
      rw [LivesMode.cached]
      rcases h.flag with hflag | hflag <;> rw [hflag] <;> rfl
    have hnew : (if (if s.jpegValidFlag = -1 then 0 else s.jpegValidFlag) = 0 then [s.received]
        else []) = [s.received] := by
      rcases h.flag with hflag | hflag <;> rw [hflag] <;> rfl
    change (List.range (s.received + 1)).Perm ((s.freed ++ if s.jpegValidFlag = -1 then [] else
      s.jpegMsgbuf.toList) ++ if (if s.jpegValidFlag = -1 then 0 else s.jpegValidFlag) = 0 then
        [s.received] else [])
    rw [hcached, hnew, List.range_succ]
    exact h.owned.append_right _

theorem LivesMode.Sound.users (h : s.Sound) (u : Users) :
    LivesMode.Sound { s with users := u } :=
  ⟨h.flag, h.owned⟩

theorem LivesMode.Owned.length (h : s.Owned) : s.freed.length + s.cached.length = s.received := by
  have hlen := h.length_eq
  rw [List.length_range, List.length_append] at hlen
  exact hlen.symm

/-- A packet and its stream are both about pictures, or both are not. -/
theorem LivesMode.Sound.sent (h : s.Sound) {packet : PacketType} {dataType : ℤ} (u : Users)
    (slots : List (Fin videoUserMaxNum)) :
    let s₀ : LivesMode := { s with received := s.received + 1, users := u }
    let s₁ := sendVideoDataPdg s.received slots dataType
      (if packet = .rJpeg then s₀.keep s.received else s₀)
    ((packet = .rJpeg ↔ dataType = videoJpeg) → s₁.Sound) ∧
      (¬ (packet = .rJpeg ↔ dataType = videoJpeg) → ¬ s₁.Owned) := by
  have hkeep := (h.users u).keep
  have hfree := (h.users u).free
  intro s₀ s₁
  by_cases hpacket : packet = .rJpeg
  · have hs₁ : s₁ = sendVideoDataPdg s.received slots dataType (s₀.keep s.received) := by
      change sendVideoDataPdg _ _ _ (if _ then _ else _) = _
      rw [if_pos hpacket]
    rw [iff_true_left hpacket, hs₁, sendVideoDataPdg]
    by_cases hjpeg : dataType = videoJpeg
    · rw [if_pos hjpeg]
      exact ⟨fun _ => hkeep.users _, fun hnot => absurd hjpeg hnot⟩
    · rw [if_neg hjpeg]
      refine ⟨fun hyes => absurd hyes hjpeg, fun _ howned => ?_⟩
      have hlen := howned.length
      have hlen' := hkeep.owned.length
      change ((s₀.keep s.received).freed ++ [s.received]).length +
        (s₀.keep s.received).cached.length = (s₀.keep s.received).received at hlen
      change (s₀.keep s.received).freed.length + (s₀.keep s.received).cached.length =
        (s₀.keep s.received).received at hlen'
      rw [List.length_append, List.length_singleton] at hlen
      omega
  · have hs₁ : s₁ = sendVideoDataPdg s.received slots dataType s₀ := by
      change sendVideoDataPdg _ _ _ (if _ then _ else _) = _
      rw [if_neg hpacket]
    rw [iff_false_left hpacket, hs₁, sendVideoDataPdg]
    by_cases hjpeg : dataType = videoJpeg
    · rw [if_pos hjpeg]
      refine ⟨fun hnot => absurd hjpeg hnot, fun _ howned => ?_⟩
      have hlen := howned.length
      have hlen' := h.owned.length
      change s.freed.length + s.cached.length = s.received + 1 at hlen
      omega
    · rw [if_neg hjpeg]
      exact ⟨fun _ => hfree, fun hyes => absurd hjpeg hyes⟩

/-- An interruption frees the picture that is kept, if the encoders are reset. -/
theorem resetLiveModeEnc_eq (s : LivesMode) : resetLiveModeEnc s =
    if s.videoSindex.vaildFlag = 0 then
      { s with
        videoSindex := ⟨-1, []⟩
        jpegValidFlag := if s.jpegValidFlag = 0 then -1 else s.jpegValidFlag
        freed := s.freed ++ s.cached }
    else s := by
  by_cases hvaild : s.videoSindex.vaildFlag = 0 <;> by_cases hflag : s.jpegValidFlag = 0 <;>
    rcases hbuf : s.jpegMsgbuf with _ | b <;>
    simp [resetLiveModeEnc, LivesMode.cached, LivesMode.free, hvaild, hflag, hbuf]

/-- **An interruption.** -/
theorem LivesMode.Sound.resetEnc (h : s.Sound) : (resetLiveModeEnc s).Sound := by
  rw [resetLiveModeEnc_eq]
  by_cases hvaild : s.videoSindex.vaildFlag = 0
  · rw [if_pos hvaild]
    have hflag : (if s.jpegValidFlag = 0 then -1 else s.jpegValidFlag) = -1 := by
      have hflag := h.flag
      split_ifs <;> omega
    refine ⟨Or.inr hflag, ?_⟩
    change (List.range s.received).Perm (s.freed ++ s.cached ++
      if (if s.jpegValidFlag = 0 then -1 else s.jpegValidFlag) = 0 then s.jpegMsgbuf.toList else [])
    rw [hflag, if_neg (by decide), List.append_nil]
    exact h.owned
  · rw [if_neg hvaild]
    exact h

theorem LivesMode.Sound.interrupt (h : s.Sound) : s.interrupt.Sound := h.resetEnc.users _

/-- An interruption receives nothing. -/
theorem received_interrupt (s : LivesMode) : s.interrupt.received = s.received := by
  rw [LivesMode.interrupt, resetLiveModeEnc_eq]
  split_ifs <;> rfl

theorem interrupt_receive (s : LivesMode) (n : ℕ) :
    LivesMode.interrupt { s with received := n } = { s.interrupt with received := n } := by
  rw [LivesMode.interrupt, LivesMode.interrupt, resetLiveModeEnc_eq, resetLiveModeEnc_eq]
  split_ifs <;> rfl

/-- A packet that comes as an interruption is lost. -/
theorem LivesMode.Sound.not_owned_interrupt (h : s.Sound) :
    ¬ (LivesMode.interrupt { s with received := s.received + 1 }).Owned := by
  intro howned
  rw [interrupt_receive] at howned
  have hlen := howned.length
  have hlen' := h.interrupt.owned.length
  change s.interrupt.freed.length + s.interrupt.cached.length = s.received + 1 at hlen
  rw [received_interrupt] at hlen'
  omega

/-- **A packet.** -/
theorem LivesMode.Sound.message (h : s.Sound) (hrun : s.running) (msgType : ℤ)
    (packet : PacketType) :
    (TypesAgree s (.message msgType packet) → (livesStep s (.message msgType packet)).Sound) ∧
      (¬ TypesAgree s (.message msgType packet) →
        ¬ (livesStep s (.message msgType packet)).Owned) := by
  by_cases hmsg : msgType = interruptionMsgId
  · have hstep : livesStep s (.message msgType packet) =
        LivesMode.interrupt { s with received := s.received + 1 } := by
      rw [livesStep, if_pos hrun]
      exact if_pos hmsg
    have hnot : ¬ TypesAgree s (.message msgType packet) := fun hagree => (hagree hrun).1 hmsg
    rw [hstep]
    exact ⟨fun hagree => absurd hagree hnot, fun _ => h.not_owned_interrupt⟩
  obtain ⟨u, hdeal, hnum, hslots⟩ := dealVideoJpegData_spec { s with received := s.received + 1 }
  have hstep : livesStep s (.message msgType packet) =
      localMediaDataPkg msgType packet s.received
        { s with received := s.received + 1, users := u } := by
    rw [livesStep, if_pos hrun]
    dsimp only
    rw [if_neg hmsg, hdeal]
  rw [hstep]
  rcases localMediaDataPkg_cases msgType packet s.received
    { s with received := s.received + 1, users := u } with
    ⟨hsome, dataType, hinfo, hto, heq⟩ | ⟨hnobody, heq⟩
  · have hagree : TypesAgree s (.message msgType packet) ↔
        (packet = .rJpeg ↔ dataType.dataType = videoJpeg) := by
      refine ⟨fun hagree => ?_, fun hagree _ => ⟨hmsg, fun _ other hother _ => ?_⟩⟩
      · refine (hagree hrun).2 (fun hzero => hsome (hnum.trans hzero)) dataType hinfo ?_
        exact fun hnil => hto ((hslots dataType).trans hnil)
      · obtain rfl := Option.some.inj (hinfo.symm.trans hother)
        exact hagree
    rw [heq, hagree]
    exact h.sent u _
  · have hagree : TypesAgree s (.message msgType packet) := by
      refine fun _ => ⟨hmsg, fun hsome dataType hinfo hto => ?_⟩
      refine absurd ?_ hto
      rw [← hslots dataType]
      exact hnobody (fun hzero => hsome (hnum.symm.trans hzero)) dataType hinfo
    rw [heq]
    refine ⟨fun _ => ?_, fun hnot => absurd hagree hnot⟩
    split_ifs
    · exact (h.users u).keep
    · exact (h.users u).free

theorem LivesMode.Sound.drain (h : s.Sound) (n : ℕ) : (s.drain n).Sound where
  flag := h.flag
  owned := by
    change (List.range (s.received + n)).Perm (s.freed ++ List.range' s.received n ++ s.cached)
    have hrange : List.range (s.received + n) = List.range s.received ++ List.range' s.received n := by
      rw [List.range_eq_range', List.range_eq_range', ← List.range'_append_1, Nat.zero_add]
    rw [hrange, List.append_assoc]
    refine (h.owned.append_right _).trans ?_
    rw [List.append_assoc]
    exact List.perm_append_comm.append_left _

theorem finish_eq (s : LivesMode) (waiting : ℕ) : s.finish waiting true =
    { s.drain waiting with
      running := false
      jpegMsgbuf := none
      freed := s.freed ++ List.range' s.received waiting ++ s.jpegMsgbuf.toList } := by
  rcases hbuf : s.jpegMsgbuf with _ | b <;> simp [LivesMode.finish, LivesMode.drain, hbuf,
    LivesMode.free]

/-- **The end of the thread.** -/
theorem LivesMode.Sound.finish (h : s.Sound) (waiting : ℕ) (debugStopped : Bool) :
    ((debugStopped → s.jpegMsgbuf ≠ none → s.jpegValidFlag = 0) →
        (s.finish waiting debugStopped).Sound) ∧
      (¬ (debugStopped → s.jpegMsgbuf ≠ none → s.jpegValidFlag = 0) →
        ¬ (s.finish waiting debugStopped).Owned) := by
  have hdrain := h.drain waiting
  rcases debugStopped with _ | _
  · refine ⟨fun _ => ⟨hdrain.flag, hdrain.owned⟩, fun hnot => absurd ?_ hnot⟩
    exact fun hfalse => absurd hfalse (by simp)
  · rw [finish_eq]
    have hcached : ∀ s' : LivesMode, s'.jpegMsgbuf = none → s'.cached = [] := by
      intro s' hnone
      rw [LivesMode.cached, hnone]
      split_ifs <;> rfl
    refine ⟨fun hagree => ⟨h.flag, ?_⟩, fun hnot howned => ?_⟩
    · rw [LivesMode.Owned, hcached _ rfl, List.append_nil]
      have hkept : s.cached = s.jpegMsgbuf.toList := by
        rw [LivesMode.cached]
        split_ifs with hflag
        · rfl
        · rcases hbuf : s.jpegMsgbuf with _ | b
          · rfl
          · exact absurd (hagree rfl (by rw [hbuf]; simp)) hflag
      rw [← hkept]
      exact hdrain.owned
    · have hlen := howned.length
      have hlen' := hdrain.owned.length
      rw [hcached _ rfl] at hlen
      rw [not_forall] at hnot
      obtain ⟨-, hnot⟩ := hnot
      rw [Classical.not_imp] at hnot
      obtain ⟨hbuf, hflag⟩ := hnot
      obtain ⟨b, hb⟩ := Option.ne_none_iff_exists'.mp hbuf
      have hnone : (s.drain waiting).cached = [] := if_neg hflag
      rw [hnone] at hlen'
      change (s.freed ++ List.range' s.received waiting ++ s.jpegMsgbuf.toList).length + 0 =
        s.received + waiting at hlen
      change (s.freed ++ List.range' s.received waiting).length + 0 = s.received + waiting at hlen'
      rw [hb, List.length_append, Option.toList_some, List.length_singleton] at hlen
      omega

/-- **One step.** -/
theorem LivesMode.Sound.step (h : s.Sound) (e : LivesEvent) :
    (TypesAgree s e → (livesStep s e).Sound) ∧ (¬ TypesAgree s e → ¬ (livesStep s e).Owned) := by
  by_cases hrun : s.running
  · rcases e with ⟨users, videoSindex⟩ | ⟨msgType, packet⟩ | _ | ⟨waiting, debugStopped⟩
    · have hstep : livesStep s (.tables users videoSindex) =
          { s with users := users, videoSindex := videoSindex } := if_pos hrun
      rw [hstep]
      exact ⟨fun _ => ⟨h.flag, h.owned⟩, fun hnot => absurd trivial hnot⟩
    · exact h.message hrun msgType packet
    · have hstep : livesStep s .interruption = s.interrupt := if_pos hrun
      rw [hstep]
      exact ⟨fun _ => h.interrupt, fun hnot => absurd trivial hnot⟩
    · have hstep : livesStep s (.stop waiting debugStopped) = s.finish waiting debugStopped :=
        if_pos hrun
      have hagree : TypesAgree s (.stop waiting debugStopped) ↔
          (debugStopped → s.jpegMsgbuf ≠ none → s.jpegValidFlag = 0) := by
        rw [TypesAgree, forall_prop_of_true hrun]
      rw [hstep, hagree]
      exact h.finish waiting debugStopped
  · have hstep : livesStep s e = s := if_neg hrun
    have hagree : TypesAgree s e := by
      rcases e with ⟨users, videoSindex⟩ | ⟨msgType, packet⟩ | _ | ⟨waiting, debugStopped⟩
      · trivial
      · exact fun hrunning => absurd hrunning hrun
      · trivial
      · exact fun hrunning => absurd hrunning hrun
    rw [hstep]
    exact ⟨fun _ => h, fun hnot => absurd hagree hnot⟩

/-- **The buffers of a live room.** After every step of a run each buffer was freed once or is the
picture that is kept exactly when no packet comes as an interruption, the type of every packet that is
sent is the one of its stream, and the thread does not end with a picture remembered that has been
freed. -/
theorem owned_iff_typesAgree (users : Users) (videoSindex : VideoSindexInfo)
    (es : List LivesEvent) :
    Run.Along (fun s e => (livesStep s e, ())) (fun s e => (livesStep s e).Owned)
        (.init users videoSindex) es ↔
      Run.Along (fun s e => (livesStep s e, ())) TypesAgree (.init users videoSindex) es := by
  have hinit : (LivesMode.init users videoSindex).Sound := ⟨Or.inr rfl, List.Perm.refl _⟩
  refine Run.along_iff_of_invariant (I := LivesMode.Sound) (fun s e hs => ?_) (fun s e hs hagree =>
    (hs.step e).1 hagree) hinit es
  refine ⟨fun howned => ?_, fun hagree => ((hs.step e).1 hagree).owned⟩
  by_contra hnot
  exact (hs.step e).2 hnot howned

/-- A user of the first stream, in the first slot. -/
def oneUser : Users where
  userInfo i := if i.val = 0 then
      { viewer 7 4000 with index := 0, vaildFlag := 1, videoEncodeIndex := fun _ => 49 }
    else initLivesModeInfoEx (viewer 7 4000)
  userNum := 1

/-- A picture that comes on a stream of H.264 and is sent: it is freed, and is kept too. -/
theorem picture_freed_and_kept :
    let s := livesStep (.init oneUser ⟨1, [⟨1, 2, videoH264⟩]⟩) (.message 1 .rJpeg)
    s.freed = [0] ∧ s.cached = [0] ∧
      ¬ Run.Along (fun s e => (livesStep s e, ())) (fun s e => (livesStep s e).Owned)
        (.init oneUser ⟨1, [⟨1, 2, videoH264⟩]⟩) [.message 1 .rJpeg] := by
  decide +kernel

end Lives

end ReachEdukit
