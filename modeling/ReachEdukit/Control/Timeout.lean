import ReachEdukit.Lib.Run
import ReachEdukit.Lib.Slots

/-!
# The requests that the control program waits for

A request that is forwarded takes one of twenty slots until it is answered. Whether a slot is taken is
written down twice, in `con_link` and in `enable`, and `usercnt` is how many are. The operations set
all three by hand.

Finding a slot and deleting it are two critical sections, and `timeout_que_del_user` does not look
whether the slot is taken: the second of two threads that delete one slot takes one off `usercnt` that
is not there any more. `timeout_que_cleanup` does not look either, but an idle slot has no platform, so
there only a cleanup for `InvalidPlatform` can go wrong.

## What is left out

The mutexes and the logs; `ipaddr`, which no operation here reads.

## Main definitions

* `TimeoutQue` — the table and the counter
* `timeoutStep` — one operation
* `TimeoutQue.Accounted` — the three agree

## Main results

* `TimeoutQue.Sound.free`, `TimeoutQue.Sound.take` — one slot is given back, or taken
* `accounted_iff_freesTaken` — when they agree after every operation
-/

namespace ReachEdukit

namespace Control

open Slots

/-- `TIMEOUT_QUE_LENGTH`. -/
def timeoutQueLength : ℕ := 20

/-- `MSGCODE_RECORD_CONTROL`. -/
def msgcodeRecordControl : ℤ := 30010

/-- `platform_em`. -/
inductive Platform
  | mediaCenter
  | managePlatform
  | ipadUser
  | recServer
  | liveNode
  | comControl
  | mp4Repair
  | webCtrl
  | director
  | netControl
  | thirdControl
  | allPlatform
  | invalidPlatform
  deriving DecidableEq, Repr

/-- `timeout_user`. -/
structure TimeoutUser where
  enable : Bool
  platform : Platform
  msgcode : ℤ
  roomid : ℤ
  userid : ℤ
  deriving DecidableEq, Repr

/-- A slot of the table. -/
abbrev UserIndex := Fin timeoutQueLength

/-- `timeout_que`. -/
structure TimeoutQue where
  /-- How many slots are taken. -/
  usercnt : BitVec 32
  /-- The slot is taken. -/
  conLink : UserIndex → Bool
  /-- The requests. -/
  user : UserIndex → TimeoutUser

/-- `timeout_que_init`. -/
def timeoutQueInit : TimeoutQue where
  usercnt := 0
  conLink _ := false
  user _ := ⟨false, .invalidPlatform, -1, -1, -1⟩

/-- `timeout_que_all_cleanup`. -/
def timeoutQueAllCleanup (q : TimeoutQue) : TimeoutQue where
  usercnt := 0
  conLink _ := false
  user i := { q.user i with platform := .invalidPlatform, msgcode := -1, enable := false, userid := -1 }

/-- The slot `i` is taken. -/
def TimeoutQue.take (q : TimeoutQue) (i : UserIndex) (user : TimeoutUser) : TimeoutQue where
  usercnt := q.usercnt + 1
  conLink := Function.update q.conLink i true
  user := Function.update q.user i user

/-- The slot `i` is given back. -/
def TimeoutQue.free (q : TimeoutQue) (i : UserIndex) (user : TimeoutUser) : TimeoutQue where
  usercnt := q.usercnt - 1
  conLink := Function.update q.conLink i false
  user := Function.update q.user i user

/-- The first slot that is not taken. -/
def TimeoutQue.firstIdle (q : TimeoutQue) : Option UserIndex :=
  (List.finRange _).find? fun i => !q.conLink i

/-- The loop of the two functions that add a request; a table that is full is emptied. -/
def timeoutQueAdd (q : TimeoutQue) (fill : TimeoutUser → TimeoutUser) : TimeoutQue × ℤ :=
  match q.firstIdle with
  | some i => (q.take i (fill (q.user i)), i.val)
  | none => (timeoutQueAllCleanup q, -1)

/-- `timeout_que_add_user`. -/
def timeoutQueAddUser (q : TimeoutQue) (platform : Platform) (msgcode userid : ℤ) :
    TimeoutQue × ℤ :=
  timeoutQueAdd q fun u =>
    { u with enable := true, platform := platform, msgcode := msgcode, userid := userid }

/-- `timeout_que_add_user2`. -/
def timeoutQueAddUser2 (q : TimeoutQue) (platform : Platform) (msgcode userid roomid : ℤ) :
    TimeoutQue × ℤ :=
  if msgcode ≠ msgcodeRecordControl then (q, -1)
  else timeoutQueAdd q fun _ => ⟨true, platform, msgcode, roomid, userid⟩

/-- `timeout_que_find_user`. -/
def timeoutQueFindUser (q : TimeoutQue) (platform : Platform) (msgcode userid : ℤ) :
    Option UserIndex :=
  (List.finRange _).find? fun i =>
    (q.user i).enable && (q.user i).platform = platform && (q.user i).msgcode = msgcode &&
      (platform ≠ .liveNode || (q.user i).userid = userid)

/-- `timeout_que_find_user2`: the slot, and the user id that it puts out. -/
def timeoutQueFindUser2 (q : TimeoutQue) (platform : Platform) (msgcode userid roomid : ℤ) :
    Option UserIndex × Option ℤ :=
  if msgcode ≠ msgcodeRecordControl then (none, none)
  else if platform ≠ .liveNode then
    let found := (List.finRange _).find? fun i =>
      (q.user i).enable && (q.user i).platform = platform && (q.user i).msgcode = msgcode &&
        (q.user i).roomid = roomid
    (found, found.map fun i => (q.user i).userid)
  else
    ((List.finRange _).find? fun i =>
      (q.user i).enable && (q.user i).platform = platform && (q.user i).msgcode = msgcode &&
        (q.user i).userid = userid, none)

/-- `timeout_que_del_user`: it does not look whether the slot is taken. -/
def timeoutQueDelUser (q : TimeoutQue) (userIndex : ℤ) : TimeoutQue × ℤ :=
  if h : 0 ≤ userIndex ∧ userIndex < timeoutQueLength then
    let i : UserIndex := ⟨userIndex.toNat, by omega⟩
    (q.free i { q.user i with
      platform := .invalidPlatform, msgcode := -1, enable := false, userid := -1 }, 0)
  else (q, -1)

/-- The slot at which `timeout_que_cleanup` stops. -/
def TimeoutQue.firstOf (q : TimeoutQue) (platform : Platform) (userid : ℤ) : Option UserIndex :=
  (List.finRange _).find? fun i =>
    (q.user i).platform = platform && (q.user i).userid = userid

/-- `timeout_que_cleanup`: the user id stays in the slot. -/
def timeoutQueCleanup (q : TimeoutQue) (platform : Platform) (userid : ℤ) : TimeoutQue :=
  match q.firstOf platform userid with
  | some i => q.free i { q.user i with platform := .invalidPlatform, msgcode := -1, enable := false }
  | none => q

/-- The operations. -/
inductive TimeoutOp
  | addUser (platform : Platform) (msgcode userid : ℤ)
  | addUser2 (platform : Platform) (msgcode userid roomid : ℤ)
  | findUser (platform : Platform) (msgcode userid : ℤ)
  | findUser2 (platform : Platform) (msgcode userid roomid : ℤ)
  | delUser (userIndex : ℤ)
  | cleanup (platform : Platform) (userid : ℤ)
  | allCleanup
  deriving DecidableEq, Repr

/-- What a function that looks for a slot returns. -/
def indexOf (found : Option UserIndex) : ℤ := found.elim (-1) fun i => i.val

/-- One operation, and what it returns. -/
def timeoutStep (q : TimeoutQue) (op : TimeoutOp) : TimeoutQue × ℤ :=
  match op with
  | .addUser platform msgcode userid => timeoutQueAddUser q platform msgcode userid
  | .addUser2 platform msgcode userid roomid => timeoutQueAddUser2 q platform msgcode userid roomid
  | .findUser platform msgcode userid => (q, indexOf (timeoutQueFindUser q platform msgcode userid))
  | .findUser2 platform msgcode userid roomid =>
    (q, indexOf (timeoutQueFindUser2 q platform msgcode userid roomid).1)
  | .delUser userIndex => timeoutQueDelUser q userIndex
  | .cleanup platform userid => (timeoutQueCleanup q platform userid, 0)
  | .allCleanup => (timeoutQueAllCleanup q, 0)

/-! ### The counter and the two flags -/

/-- The counter is the number of the slots that are taken, the two flags agree, and the counter is not
above the number of slots. -/
structure TimeoutQue.Accounted (q : TimeoutQue) : Prop where
  usercnt : q.usercnt.toNat = count id q.conLink
  enable : ∀ i, (q.user i).enable = q.conLink i
  le : q.usercnt.toNat ≤ timeoutQueLength

instance (q : TimeoutQue) : Decidable q.Accounted :=
  decidable_of_iff (q.usercnt.toNat = count id q.conLink ∧
    (∀ i, (q.user i).enable = q.conLink i) ∧ q.usercnt.toNat ≤ timeoutQueLength)
    ⟨fun h => ⟨h.1, h.2.1, h.2.2⟩, fun h => ⟨h.usercnt, h.enable, h.le⟩⟩

/-- A slot that is given back is taken. A cleanup for a platform that there is finds no other. -/
def FreesTaken (q : TimeoutQue) (op : TimeoutOp) : Prop :=
  match op with
  | .delUser userIndex => ∀ i : UserIndex, (i.val : ℤ) = userIndex → q.conLink i = true
  | .cleanup platform userid =>
    platform = .invalidPlatform → ∀ i ∈ q.firstOf platform userid, q.conLink i = true
  | _ => True

/-- What the operations keep. -/
structure TimeoutQue.Sound (q : TimeoutQue) : Prop where
  usercnt : q.usercnt.toNat = count id q.conLink
  enable : ∀ i, (q.user i).enable = q.conLink i
  /-- An idle slot has no platform. -/
  idle : ∀ i, q.conLink i = false → (q.user i).platform = .invalidPlatform

variable {q : TimeoutQue} {i : UserIndex} {user : TimeoutUser}

theorem TimeoutQue.Sound.accounted (h : q.Sound) : q.Accounted :=
  ⟨h.usercnt, h.enable, h.usercnt.trans_le (count_le _ _)⟩

theorem sound_init : timeoutQueInit.Sound where
  usercnt := (count_eq_zero fun _ => rfl).symm
  enable _ := rfl
  idle _ _ := rfl

theorem sound_allCleanup (q : TimeoutQue) : (timeoutQueAllCleanup q).Sound where
  usercnt := (count_eq_zero fun _ => rfl).symm
  enable _ := rfl
  idle _ _ := rfl

/-- The flags and the platforms after one slot has changed. -/
theorem TimeoutQue.Sound.enable_update (h : q.Sound) {taken : Bool} (huser : user.enable = taken)
    (j : UserIndex) :
    (Function.update q.user i user j).enable = Function.update q.conLink i taken j := by
  by_cases hji : j = i
  · rw [hji, Function.update_self, Function.update_self, huser]
  · rw [Function.update_of_ne hji, Function.update_of_ne hji, h.enable j]

/-- **An idle slot is taken.** -/
theorem TimeoutQue.Sound.take (h : q.Sound) (hi : q.conLink i = false) (huser : user.enable = true) :
    (q.take i user).Sound where
  usercnt := by
    have hcount := count_update id q.conLink i true
    have hle : count id (Function.update q.conLink i true) ≤ timeoutQueLength := count_le _ _
    rw [hi] at hcount
    change (q.usercnt + 1).toNat = count id (Function.update q.conLink i true)
    change _ + 0 = _ + 1 at hcount
    rw [BitVec.toNat_add, h.usercnt]
    change (_ + 1) % 2 ^ 32 = _
    rw [← hcount, add_zero]
    exact Nat.mod_eq_of_lt (hle.trans_lt (by decide))
  enable := h.enable_update huser
  idle j hj := by
    change Function.update q.conLink i true j = false at hj
    change (Function.update q.user i user j).platform = _
    by_cases hji : j = i
    · rw [hji, Function.update_self] at hj
      exact absurd hj (by decide)
    · rw [Function.update_of_ne hji] at hj ⊢
      exact h.idle j hj

/-- A slot that is given back: the counter is right exactly when the slot was taken. -/
theorem TimeoutQue.Sound.usercnt_free_iff (h : q.Sound) :
    (q.free i user).usercnt.toNat = count id (q.free i user).conLink ↔ q.conLink i = true := by
  have hcount := count_update id q.conLink i false
  have hle : count id q.conLink ≤ timeoutQueLength := count_le _ _
  have hsmall : timeoutQueLength < 2 ^ 32 - 1 := by decide
  change (q.usercnt - 1).toNat = count id (Function.update q.conLink i false) ↔ _
  change _ + (q.conLink i).toNat = _ + 0 at hcount
  rw [BitVec.toNat_sub, h.usercnt]
  change (2 ^ 32 - 1 + _) % 2 ^ 32 = _ ↔ _
  obtain hi | hi := Bool.eq_false_or_eq_true (q.conLink i)
  · rw [hi] at hcount ⊢
    change _ + 1 = _ at hcount
    exact iff_of_true (by omega) rfl
  · rw [hi] at hcount ⊢
    change _ + 0 = _ at hcount
    exact iff_of_false (by omega) (by decide)

/-- **A slot is given back**: it has to be one that was taken. -/
theorem TimeoutQue.Sound.free (h : q.Sound) (huser : user.enable = false)
    (hplatform : user.platform = .invalidPlatform) :
    (q.conLink i = true → (q.free i user).Sound) ∧
      (q.conLink i ≠ true → ¬ (q.free i user).Accounted) := by
  refine ⟨fun hi => ⟨h.usercnt_free_iff.mpr hi, h.enable_update huser, fun j hj => ?_⟩,
    fun hi hacc => hi (h.usercnt_free_iff.mp hacc.usercnt)⟩
  change Function.update q.conLink i false j = false at hj
  change (Function.update q.user i user j).platform = _
  by_cases hji : j = i
  · rw [hji, Function.update_self]
    exact hplatform
  · rw [Function.update_of_ne hji] at hj ⊢
    exact h.idle j hj

/-- A request is added, or the table is emptied. -/
theorem TimeoutQue.Sound.add (h : q.Sound) {fill : TimeoutUser → TimeoutUser}
    (hfill : ∀ u, (fill u).enable = true) : (timeoutQueAdd q fill).1.Sound := by
  rw [timeoutQueAdd]
  obtain hnone | ⟨i, hi⟩ := Option.eq_none_or_eq_some q.firstIdle
  · rw [hnone]
    exact sound_allCleanup q
  · rw [hi]
    exact h.take (by simpa using List.find?_some hi) (hfill _)

theorem TimeoutQue.Sound.delUser (h : q.Sound) (userIndex : ℤ) :
    (FreesTaken q (.delUser userIndex) → (timeoutQueDelUser q userIndex).1.Sound) ∧
      (¬ FreesTaken q (.delUser userIndex) → ¬ (timeoutQueDelUser q userIndex).1.Accounted) := by
  rw [timeoutQueDelUser]
  by_cases hrange : 0 ≤ userIndex ∧ userIndex < timeoutQueLength
  · rw [dif_pos hrange]
    obtain ⟨i, hi⟩ : ∃ i : UserIndex, i = ⟨userIndex.toNat, by omega⟩ := ⟨_, rfl⟩
    have hval : (i.val : ℤ) = userIndex := by
      rw [hi]
      exact Int.toNat_of_nonneg hrange.1
    have hiff : FreesTaken q (.delUser userIndex) ↔ q.conLink i = true := by
      refine ⟨fun hall => hall i hval, fun hlink j hj => ?_⟩
      obtain rfl : j = i := Fin.ext (by omega)
      exact hlink
    rw [hiff, ← hi]
    exact h.free rfl rfl
  · rw [dif_neg hrange]
    refine ⟨fun _ => h, fun hnot => absurd (fun i hi => ?_) hnot⟩
    have hlt := i.isLt
    exact absurd ⟨by omega, by omega⟩ hrange

theorem TimeoutQue.Sound.cleanup (h : q.Sound) (platform : Platform) (userid : ℤ) :
    (FreesTaken q (.cleanup platform userid) → (timeoutQueCleanup q platform userid).Sound) ∧
      (¬ FreesTaken q (.cleanup platform userid) →
        ¬ (timeoutQueCleanup q platform userid).Accounted) := by
  rw [timeoutQueCleanup]
  obtain hnone | ⟨i, hi⟩ := Option.eq_none_or_eq_some (q.firstOf platform userid)
  · rw [hnone]
    refine ⟨fun _ => h, fun hnot => absurd (fun _ i hi => ?_) hnot⟩
    rw [hnone] at hi
    exact absurd hi (by simp)
  · have hiff : FreesTaken q (.cleanup platform userid) ↔ q.conLink i = true := by
      refine ⟨fun hall => ?_, fun hlink _ j hj => ?_⟩
      · by_contra hidle
        have hinvalid := h.idle i (by simpa using hidle)
        have hplatform : (q.user i).platform = platform := by
          have hfound := List.find?_some hi
          simp only [Bool.and_eq_true, decide_eq_true_eq] at hfound
          exact hfound.1
        exact hidle (hall (hplatform.symm.trans hinvalid) i hi)
      · obtain rfl := Option.some.inj (hi.symm.trans hj)
        exact hlink
    rw [hiff, hi]
    exact h.free rfl rfl

/-- **One operation.** -/
theorem TimeoutQue.Sound.step (h : q.Sound) (op : TimeoutOp) :
    (FreesTaken q op → (timeoutStep q op).1.Sound) ∧
      (¬ FreesTaken q op → ¬ (timeoutStep q op).1.Accounted) := by
  cases op with
  | addUser platform msgcode userid =>
    exact ⟨fun _ => h.add fun _ => rfl, fun hnot => absurd trivial hnot⟩
  | addUser2 platform msgcode userid roomid =>
    refine ⟨fun _ => ?_, fun hnot => absurd trivial hnot⟩
    change (timeoutQueAddUser2 q platform msgcode userid roomid).1.Sound
    rw [timeoutQueAddUser2]
    split_ifs
    · exact h
    · exact h.add fun _ => rfl
  | findUser platform msgcode userid => exact ⟨fun _ => h, fun hnot => absurd trivial hnot⟩
  | findUser2 platform msgcode userid roomid => exact ⟨fun _ => h, fun hnot => absurd trivial hnot⟩
  | delUser userIndex => exact h.delUser userIndex
  | cleanup platform userid => exact h.cleanup platform userid
  | allCleanup => exact ⟨fun _ => sound_allCleanup q, fun hnot => absurd trivial hnot⟩

/-- **The slots of the requests.** After every operation of a run the counter and the flags agree
exactly when every slot that is given back was taken. -/
theorem accounted_iff_freesTaken (ops : List TimeoutOp) :
    Run.Along timeoutStep (fun q op => (timeoutStep q op).1.Accounted) timeoutQueInit ops ↔
      Run.Along timeoutStep FreesTaken timeoutQueInit ops := by
  refine Run.along_iff_of_invariant (I := TimeoutQue.Sound) (fun q op h => ?_)
    (fun q op h htaken => (h.step op).1 htaken) sound_init ops
  refine ⟨fun hacc => ?_, fun htaken => ((h.step op).1 htaken).accounted⟩
  by_contra hnot
  exact (h.step op).2 hnot hacc

/-- A request that two threads delete. -/
theorem deleted_twice :
    ¬ Run.Along timeoutStep (fun q op => (timeoutStep q op).1.Accounted) timeoutQueInit
        [.addUser .webCtrl 30010 7, .delUser 0, .delUser 0] ∧
      (Run.final timeoutStep timeoutQueInit
        [.addUser .webCtrl 30010 7, .delUser 0, .delUser 0]).usercnt = 0xffffffff := by
  decide +kernel

end Control

end ReachEdukit
