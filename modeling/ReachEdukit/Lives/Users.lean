import ReachEdukit.Lib.Run
import ReachEdukit.Lib.Slots

/-!
# The users of a live room

A live room sends its streams to ten users. A user is a slot of a table, and whether a slot is taken
is written down three times: in its `index`, in its `vaild_flag`, and in the number of users. A
request sets a user or stops one; stopping only marks the slot, and the thread of the room, which is
woken up for it, frees what is marked.

The requests look for a user by the addresses or by the id, in all slots, also in those that are
free. A free slot has an address list and an id too, those it was initialised with.

A request holds the mutex of the table, and so does the thread while it frees: each of them is one
step here.

## What is left out

The debug counters of a user, the binding of the socket, and the closing of the one of a slot that is
freed. Whether the socket was made and whether the thread could be woken up are arguments.

## Main definitions

* `setLivesUserInfo`, `stopLivesUserInfo`, `stopLivesUserInfoUnusual`, `stopLivesUserAllUnusual` — the
  requests
* `resetLiveModeUser` — what the thread frees
* `Users.Kept` — the three ways agree

## Main results

* `kept_iff_marksTaken` — a run keeps the table exactly when no request marks a free slot
-/

namespace ReachEdukit

namespace Lives

/-- `VIDEO_USER_MAX_NUM`. -/
def videoUserMaxNum : ℕ := 10

/-- `VIDEO_ENCODE_MAX_NUM`. -/
def videoEncodeMaxNum : ℕ := 9

/-- `VIDEO_ENCODE_INDEX_LEN`. -/
def videoEncodeIndexLen : ℕ := videoEncodeMaxNum + 1

/-- `OPERATION_SUCC`. -/
def operationSucc : ℤ := 0

/-- `OPERATION_ERR`. -/
def operationErr : ℤ := -1

/-- `lives_user_addr_t`; the address is a text, here without the zero behind it. -/
@[ext] structure LivesUserAddr where
  /-- The address. -/
  mUserIp : List UInt8
  /-- The port. -/
  mUserPort : ℤ
  deriving DecidableEq, Repr

/-- `lives_user_info_t`. -/
structure LivesUserInfo where
  /-- `1` in use, `0` marked, `-1` otherwise. -/
  vaildFlag : ℤ
  /-- The number of the slot, `-1` when it is free. -/
  index : ℤ
  /-- Where each stream is sent. -/
  livesUserAddr : Fin videoEncodeMaxNum → LivesUserAddr
  /-- The quality the user asked for. -/
  videoQualityType : ℤ
  /-- The streams the user asked for. -/
  videoEncodeIndex : Fin videoEncodeIndexLen → UInt8
  /-- Whether the user has got the picture. -/
  videoJpegFlag : ℤ
  /-- The socket. -/
  dataUdpFd : ℤ
  /-- The id of the user. -/
  userId : ℤ
  deriving DecidableEq

/-- The users of `lives_mode_info_t`. -/
structure Users where
  /-- The slots. -/
  userInfo : Fin videoUserMaxNum → LivesUserInfo
  /-- The number of users. -/
  userNum : ℤ

/-- The slot is taken. -/
def LivesUserInfo.taken (user : LivesUserInfo) : Bool := user.index ≠ -1

/-- No address list. -/
def noAddr : Fin videoEncodeMaxNum → LivesUserAddr := fun _ => ⟨[], 0⟩

/-- `init_lives_mode_info_ex`; the last one of the ten bytes of `video_encode_index` stays. -/
def initLivesModeInfoEx (user : LivesUserInfo) : LivesUserInfo where
  vaildFlag := -1
  index := -1
  livesUserAddr := noAddr
  videoQualityType := -1
  videoEncodeIndex i := if i.val < videoEncodeMaxNum then 0 else user.videoEncodeIndex i
  videoJpegFlag := -1
  dataUdpFd := -1
  userId := -1

/-- How `init_lives_mode_info` leaves the users. -/
def Users.init (memory : Fin videoUserMaxNum → LivesUserInfo) : Users :=
  ⟨fun i => initLivesModeInfoEx (memory i), 0⟩

/-- `compare_user_info`. -/
def compareUserInfo (localUser netUser : LivesUserInfo) : ℤ :=
  if ∃ i, (localUser.livesUserAddr i).mUserIp ≠ (netUser.livesUserAddr i).mUserIp ∨
      (localUser.livesUserAddr i).mUserPort ≠ (netUser.livesUserAddr i).mUserPort then -1
  else 0

/-- The first slot with a property. -/
def Users.first (u : Users) (p : LivesUserInfo → Bool) : Option (Fin videoUserMaxNum) :=
  (List.finRange _).find? fun i => p (u.userInfo i)

/-- The slot `i` is set. -/
def Users.put (u : Users) (i : Fin videoUserMaxNum) (user : LivesUserInfo) : Users :=
  { u with userInfo := Function.update u.userInfo i user }

/-- What a request returns when it has woken up the thread, or could not. -/
def woken (sent : Bool) : ℤ := if sent then operationSucc else operationErr

/-- The slot `i` for `user`, with the socket `fd`. -/
def LivesUserInfo.fill (user : LivesUserInfo) (i : Fin videoUserMaxNum) (fd : ℤ) : LivesUserInfo where
  vaildFlag := 1
  index := i.val
  livesUserAddr := user.livesUserAddr
  videoQualityType := user.videoQualityType
  videoEncodeIndex := user.videoEncodeIndex
  videoJpegFlag := 0
  dataUdpFd := fd
  userId := user.userId

/-- `set_lives_user_info`, where a socket that is made is `fd`. -/
def setLivesUserInfo (user : LivesUserInfo) (fd : ℤ) (sent : Bool) (u : Users) : Users × ℤ :=
  if u.userNum = videoUserMaxNum then (u, operationErr)
  else if ∃ i, compareUserInfo user (u.userInfo i) = 0 then (u, operationSucc)
  else
    match u.first fun slot => slot.index = -1 with
    | none => (u, woken sent)
    | some i =>
      if fd < 0 then (u.put i { u.userInfo i with dataUdpFd := fd }, operationErr)
      else ({ u.put i (user.fill i fd) with userNum := u.userNum + 1 }, woken sent)

/-- The request that marks the first slot with a property. -/
def stopFirst (p : LivesUserInfo → Bool) (sent : Bool) (u : Users) : Users × ℤ :=
  if u.userNum = 0 then (u, operationErr)
  else
    match u.first p with
    | none => (u, operationErr)
    | some i => (u.put i { u.userInfo i with vaildFlag := 0 }, woken sent)

/-- `stop_lives_user_info`. -/
def stopLivesUserInfo (user : LivesUserInfo) : Bool → Users → Users × ℤ :=
  stopFirst fun slot => compareUserInfo user slot = 0

/-- `stop_lives_user_info_unusual`. -/
def stopLivesUserInfoUnusual (userId : ℤ) : Bool → Users → Users × ℤ :=
  stopFirst fun slot => slot.userId = userId

/-- `stop_lives_user_all_unusual`. -/
def stopLivesUserAllUnusual (sent : Bool) (u : Users) : Users × ℤ :=
  if u.userNum = 0 then (u, operationErr)
  else
    ({ u with userInfo := fun i =>
        if (u.userInfo i).vaildFlag ≠ -1 then { u.userInfo i with vaildFlag := 0 }
        else u.userInfo i }, woken sent)

/-- The slot is marked. -/
def LivesUserInfo.marked (user : LivesUserInfo) : Bool := user.vaildFlag = 0

/-- `reset_live_mode_user`. -/
def resetLiveModeUser (u : Users) : Users where
  userInfo i := if (u.userInfo i).marked then initLivesModeInfoEx (u.userInfo i) else u.userInfo i
  userNum := u.userNum - Slots.count LivesUserInfo.marked u.userInfo

/-- What happens to the table. -/
inductive UserOp
  /-- `set_lives_user_info`, the socket, and whether the thread could be woken up. -/
  | set (user : LivesUserInfo) (fd : ℤ) (sent : Bool)
  /-- `stop_lives_user_info`. -/
  | stop (user : LivesUserInfo) (sent : Bool)
  /-- `stop_lives_user_info_unusual`. -/
  | stopUnusual (userId : ℤ) (sent : Bool)
  /-- `stop_lives_user_all_unusual`. -/
  | stopAll (sent : Bool)
  /-- `reset_live_mode_user`. -/
  | reset

/-- One of them, and what it returns. -/
def userStep (u : Users) : UserOp → Users × ℤ
  | .set user fd sent => setLivesUserInfo user fd sent u
  | .stop user sent => stopLivesUserInfo user sent u
  | .stopUnusual userId sent => stopLivesUserInfoUnusual userId sent u
  | .stopAll sent => stopLivesUserAllUnusual sent u
  | .reset => (resetLiveModeUser u, operationSucc)

/-! ### The three ways in which a slot is taken -/

/-- The number of users is the number of slots that are taken, and not above ten, and no free slot is
in use or marked. -/
structure Users.Kept (u : Users) : Prop where
  userNum_eq : u.userNum = Slots.count LivesUserInfo.taken u.userInfo
  le : 0 ≤ u.userNum ∧ u.userNum ≤ videoUserMaxNum
  free : ∀ i, (u.userInfo i).index = -1 →
    (u.userInfo i).vaildFlag ≠ 0 ∧ (u.userInfo i).vaildFlag ≠ 1

instance (u : Users) : Decidable u.Kept :=
  decidable_of_iff (u.userNum = Slots.count LivesUserInfo.taken u.userInfo ∧
      (0 ≤ u.userNum ∧ u.userNum ≤ videoUserMaxNum) ∧ ∀ i, (u.userInfo i).index = -1 →
        (u.userInfo i).vaildFlag ≠ 0 ∧ (u.userInfo i).vaildFlag ≠ 1)
    ⟨fun h => ⟨h.1, h.2.1, h.2.2⟩, fun h => ⟨h.1, h.2, h.3⟩⟩

/-- What a request to stop one user looks for. -/
def UserOp.stops : UserOp → LivesUserInfo → Bool
  | .stop user _, slot => compareUserInfo user slot = 0
  | .stopUnusual userId _, slot => slot.userId = userId
  | _, _ => false

/-- While there are users, the first slot that a request to stop one of them finds is taken. -/
def MarksTaken (u : Users) (op : UserOp) : Prop :=
  u.userNum ≠ 0 → ∀ i ∈ u.first op.stops, (u.userInfo i).taken

variable {u : Users}

theorem Users.first_spec {p : LivesUserInfo → Bool} {i : Fin videoUserMaxNum}
    (h : u.first p = some i) : p (u.userInfo i) := by
  simpa using List.find?_some h

theorem Users.first_eq_none {p : LivesUserInfo → Bool} (h : u.first p = none)
    (i : Fin videoUserMaxNum) : p (u.userInfo i) = false := by
  simpa using List.find?_eq_none.mp h i (List.mem_finRange i)

theorem LivesUserInfo.taken_iff {user : LivesUserInfo} : user.taken ↔ user.index ≠ -1 := by
  simp [LivesUserInfo.taken]

@[simp] theorem put_self (u : Users) (i : Fin videoUserMaxNum) (user : LivesUserInfo) :
    (u.put i user).userInfo i = user :=
  Function.update_self ..

theorem put_of_ne {i j : Fin videoUserMaxNum} (h : j ≠ i) (user : LivesUserInfo) :
    (u.put i user).userInfo j = u.userInfo j :=
  Function.update_of_ne h ..

/-- The table as the initialisation leaves it and the requests should: a free slot is nothing
else. -/
structure Users.Sound (u : Users) : Prop where
  userNum_eq : u.userNum = Slots.count LivesUserInfo.taken u.userInfo
  le : 0 ≤ u.userNum ∧ u.userNum ≤ videoUserMaxNum
  free : ∀ i, (u.userInfo i).index = -1 → (u.userInfo i).vaildFlag = -1

theorem Users.Sound.kept (h : u.Sound) : u.Kept where
  userNum_eq := h.userNum_eq
  le := h.le
  free i hi := by
    rw [h.free i hi]
    decide

theorem sound_init (memory : Fin videoUserMaxNum → LivesUserInfo) : (Users.init memory).Sound where
  userNum_eq := by
    have hcount : Slots.count LivesUserInfo.taken (Users.init memory).userInfo = 0 := by
      rw [Slots.count, List.countP_eq_zero]
      simp [LivesUserInfo.taken, Users.init, initLivesModeInfoEx]
    rw [hcount]
    rfl
  le := ⟨le_rfl, Int.natCast_nonneg _⟩
  free i _ := rfl

/-- What is free after a slot has been set is nothing else, if the slot is. -/
theorem Users.Sound.free_put {i : Fin videoUserMaxNum} {user : LivesUserInfo} (h : u.Sound)
    (hfree : user.index = -1 → user.vaildFlag = -1) :
    ∀ j, ((u.put i user).userInfo j).index = -1 → ((u.put i user).userInfo j).vaildFlag = -1 := by
  intro j
  rcases eq_or_ne j i with rfl | hj
  · rw [put_self]
    exact hfree
  · rw [put_of_ne hj]
    exact h.free j

/-- A slot that stays taken, or stays free. -/
theorem Users.Sound.put {i : Fin videoUserMaxNum} {user : LivesUserInfo} (h : u.Sound)
    (htaken : user.taken = (u.userInfo i).taken) (hfree : user.index = -1 → user.vaildFlag = -1) :
    (u.put i user).Sound := by
  refine ⟨?_, h.le, h.free_put hfree⟩
  have hcount := Slots.count_update LivesUserInfo.taken u.userInfo i user
  rw [htaken] at hcount
  have heq := h.userNum_eq
  change u.userNum = (Slots.count _ (Function.update u.userInfo i user) : ℕ)
  omega

/-- What a request to set a user can do. -/
theorem setLivesUserInfo_cases (user : LivesUserInfo) (fd : ℤ) (sent : Bool) (u : Users) :
    u.userNum = videoUserMaxNum ∧ setLivesUserInfo user fd sent u = (u, operationErr) ∨
    u.userNum ≠ videoUserMaxNum ∧
      ((∃ i, compareUserInfo user (u.userInfo i) = 0 ∧
          setLivesUserInfo user fd sent u = (u, operationSucc)) ∨
        (∀ i, compareUserInfo user (u.userInfo i) ≠ 0) ∧
          ((∀ i, (u.userInfo i).taken) ∧ setLivesUserInfo user fd sent u = (u, woken sent) ∨
            ∃ i, (u.userInfo i).index = -1 ∧
              (setLivesUserInfo user fd sent u =
                  (u.put i { u.userInfo i with dataUdpFd := fd }, operationErr) ∨
                setLivesUserInfo user fd sent u =
                  ({ u.put i (user.fill i fd) with userNum := u.userNum + 1 }, woken sent)))) := by
  rw [setLivesUserInfo]
  by_cases hfull : u.userNum = videoUserMaxNum
  · exact Or.inl ⟨hfull, if_pos hfull⟩
  · refine Or.inr ⟨hfull, ?_⟩
    rw [if_neg hfull]
    by_cases hthere : ∃ i, compareUserInfo user (u.userInfo i) = 0
    · obtain ⟨i, hi⟩ := id hthere
      exact Or.inl ⟨i, hi, if_pos hthere⟩
    · refine Or.inr ⟨fun i hi => hthere ⟨i, hi⟩, ?_⟩
      rw [if_neg hthere]
      rcases hfirst : u.first fun slot => slot.index = -1 with _ | i
      · refine Or.inl ⟨fun i => ?_, rfl⟩
        rw [LivesUserInfo.taken_iff]
        simpa using Users.first_eq_none hfirst i
      · refine Or.inr ⟨i, by simpa using Users.first_spec hfirst, ?_⟩
        by_cases hfd : fd < 0
        · exact Or.inl (if_pos hfd)
        · exact Or.inr (if_neg hfd)

/-- What a request to stop one user can do. -/
theorem stopFirst_cases (p : LivesUserInfo → Bool) (sent : Bool) (u : Users) :
    (u.userNum = 0 ∨ u.first p = none) ∧ stopFirst p sent u = (u, operationErr) ∨
    u.userNum ≠ 0 ∧ ∃ i, u.first p = some i ∧
      stopFirst p sent u = (u.put i { u.userInfo i with vaildFlag := 0 }, woken sent) := by
  rw [stopFirst]
  by_cases hnone : u.userNum = 0
  · exact Or.inl ⟨Or.inl hnone, if_pos hnone⟩
  · rw [if_neg hnone]
    rcases hfirst : u.first p with _ | i
    · exact Or.inl ⟨Or.inr rfl, rfl⟩
    · exact Or.inr ⟨hnone, i, rfl, rfl⟩

theorem Users.Sound.set (h : u.Sound) (user : LivesUserInfo) (fd : ℤ) (sent : Bool) :
    (setLivesUserInfo user fd sent u).1.Sound := by
  rcases setLivesUserInfo_cases user fd sent u with ⟨-, heq⟩ | ⟨hfull, ⟨i, -, heq⟩ | ⟨-, ⟨-, heq⟩ |
    ⟨i, hindex, heq | heq⟩⟩⟩
  · rwa [heq]
  · rwa [heq]
  · rwa [heq]
  · rw [heq]
    exact h.put rfl fun _ => h.free i hindex
  · rw [heq]
    have htaken : (user.fill i fd).taken := by
      rw [LivesUserInfo.taken_iff]
      change (i.val : ℤ) ≠ -1
      omega
    have hcount := Slots.count_update LivesUserInfo.taken u.userInfo i (user.fill i fd)
    have hold : (u.userInfo i).taken = false := by simp [LivesUserInfo.taken, hindex]
    rw [htaken, hold, Bool.toNat_true, Bool.toNat_false] at hcount
    have heq := h.userNum_eq
    obtain ⟨hnonneg, hle⟩ := h.le
    refine ⟨?_, ⟨?_, ?_⟩, h.free_put fun hindex => ?_⟩
    · change u.userNum + 1 = (Slots.count _ (Function.update u.userInfo i _) : ℕ)
      omega
    · change 0 ≤ u.userNum + 1
      omega
    · change u.userNum + 1 ≤ _
      omega
    · exact absurd hindex (LivesUserInfo.taken_iff.mp htaken)

/-- A request to stop one user keeps the table exactly when it marks a slot that is taken. -/
theorem Users.Sound.stopFirst (h : u.Sound) {p : LivesUserInfo → Bool} (sent : Bool)
    (hp : u.userNum ≠ 0 → ∀ i ∈ u.first p, (u.userInfo i).taken) :
    (Lives.stopFirst p sent u).1.Sound := by
  rcases stopFirst_cases p sent u with ⟨-, heq⟩ | ⟨hnum, i, hfirst, heq⟩
  · rwa [heq]
  · rw [heq]
    refine h.put rfl fun hindex => ?_
    exact absurd hindex (LivesUserInfo.taken_iff.mp (hp hnum i hfirst))

theorem taken_of_kept_stopFirst {p : LivesUserInfo → Bool} {sent : Bool}
    (h : (stopFirst p sent u).1.Kept) (hnum : u.userNum ≠ 0) :
    ∀ i ∈ u.first p, (u.userInfo i).taken := by
  intro i hi
  rcases stopFirst_cases p sent u with ⟨hnone | hnone, -⟩ | ⟨-, j, hfirst, heq⟩
  · exact absurd hnone hnum
  · exact absurd (hi.symm.trans hnone) (by simp)
  · obtain rfl := Option.some.inj (hi.symm.trans hfirst)
    rw [LivesUserInfo.taken_iff]
    intro hindex
    rw [heq] at h
    refine (h.free i ?_).1 ?_
    · rw [put_self]
      exact hindex
    · rw [put_self]

theorem Users.Sound.stopAll (h : u.Sound) (sent : Bool) :
    (stopLivesUserAllUnusual sent u).1.Sound := by
  rw [stopLivesUserAllUnusual]
  split_ifs with hnum
  · exact h
  · have hindex : ∀ i, (if (u.userInfo i).vaildFlag ≠ -1 then
        { u.userInfo i with vaildFlag := 0 } else u.userInfo i).index = (u.userInfo i).index := by
      intro i
      split_ifs <;> rfl
    refine ⟨h.userNum_eq.trans ?_, h.le, fun i hi => ?_⟩
    · refine congrArg _ (Slots.count_congr fun i => ?_).symm
      rw [LivesUserInfo.taken, LivesUserInfo.taken, hindex i]
    · have hflag := h.free i ((hindex i).symm.trans hi)
      change (if (u.userInfo i).vaildFlag ≠ -1 then _ else u.userInfo i : LivesUserInfo).vaildFlag
        = -1
      rw [if_neg (not_not.mpr hflag), hflag]

theorem Users.Sound.reset (h : u.Sound) : (resetLiveModeUser u).Sound := by
  have hcount : Slots.count LivesUserInfo.taken (resetLiveModeUser u).userInfo +
      Slots.count LivesUserInfo.marked u.userInfo = Slots.count LivesUserInfo.taken u.userInfo := by
    refine Slots.count_add_count fun i => ?_
    change (LivesUserInfo.taken (if (u.userInfo i).marked then _ else _)).toNat + _ = _
    by_cases hmarked : (u.userInfo i).marked
    · have htaken : (u.userInfo i).taken := by
        rw [LivesUserInfo.taken_iff]
        intro hindex
        simp [LivesUserInfo.marked, h.free i hindex] at hmarked
      rw [if_pos hmarked, hmarked, htaken]
      rfl
    · rw [if_neg hmarked, Bool.eq_false_of_not_eq_true hmarked]
      rfl
  have heq := h.userNum_eq
  have hle := h.le
  refine ⟨?_, ⟨?_, ?_⟩, fun i hi => ?_⟩
  · change u.userNum - _ = _
    omega
  · change 0 ≤ u.userNum - _
    omega
  · change u.userNum - _ ≤ _
    omega
  · change (if (u.userInfo i).marked then _ else _ : LivesUserInfo).index = -1 at hi
    change (if (u.userInfo i).marked then _ else _ : LivesUserInfo).vaildFlag = -1
    split_ifs at hi ⊢ with hmarked
    · rfl
    · exact h.free i hi

/-- **One step** keeps the table as it should be. -/
theorem Users.Sound.step (h : u.Sound) {op : UserOp} (hop : MarksTaken u op) :
    (userStep u op).1.Sound := by
  rcases op with ⟨user, fd, sent⟩ | ⟨user, sent⟩ | ⟨userId, sent⟩ | sent | _
  · exact h.set user fd sent
  · exact h.stopFirst sent hop
  · exact h.stopFirst sent hop
  · exact h.stopAll sent
  · exact h.reset

theorem kept_step_iff (h : u.Sound) (op : UserOp) : (userStep u op).1.Kept ↔ MarksTaken u op := by
  refine ⟨fun hkept hnum => ?_, fun hop => (h.step hop).kept⟩
  have hnothing : u.first (fun _ => false) = none := List.find?_eq_none.mpr fun i _ => by simp
  rcases op with ⟨user, fd, sent⟩ | ⟨user, sent⟩ | ⟨userId, sent⟩ | sent | _
  · exact fun i hi => absurd (hnothing.symm.trans hi) (by simp)
  · exact taken_of_kept_stopFirst hkept hnum
  · exact taken_of_kept_stopFirst hkept hnum
  · exact fun i hi => absurd (hnothing.symm.trans hi) (by simp)
  · exact fun i hi => absurd (hnothing.symm.trans hi) (by simp)

/-- **The table of the users.** In a run the number of users, the index and the flag of every slot
agree after every step exactly when no request to stop one user, while there are users, finds a free
slot first. -/
theorem kept_iff_marksTaken (memory : Fin videoUserMaxNum → LivesUserInfo) (ops : List UserOp) :
    Run.Along userStep (fun u op => (userStep u op).1.Kept) (.init memory) ops ↔
      Run.Along userStep MarksTaken (.init memory) ops :=
  Run.along_iff_of_invariant (I := Users.Sound) (fun _ op hu => kept_step_iff hu op)
    (fun _ _ hu hop => hu.step hop) (sound_init memory) ops

/-- A user of the first stream. -/
def viewer (userId port : ℤ) : LivesUserInfo where
  vaildFlag := 0
  index := 0
  livesUserAddr i := if i.val = 0 then ⟨[49], port⟩ else ⟨[], 0⟩
  videoQualityType := 0
  videoEncodeIndex _ := 0
  videoJpegFlag := 0
  dataUdpFd := 0
  userId := userId

/-- A user is set, and one with the id `-1` is stopped: a free slot is marked, and the thread counts
it. -/
theorem free_slot_marked :
    ¬ Run.Along userStep (fun u op => (userStep u op).1.Kept) (.init fun _ => viewer 7 4000)
        [.set (viewer 7 4000) 3 true, .stopUnusual (-1) true, .reset] ∧
      (Run.final userStep (.init fun _ => viewer 7 4000)
        [.set (viewer 7 4000) 3 true, .stopUnusual (-1) true, .reset]).userNum = 0 ∧
      ∃ i, ((Run.final userStep (.init fun _ => viewer 7 4000)
        [.set (viewer 7 4000) 3 true, .stopUnusual (-1) true, .reset]).userInfo i).index = 0 := by
  exact ⟨by decide +kernel, by decide +kernel, by decide +kernel⟩

end Lives

end ReachEdukit
