import ReachEdukit.Control.Timeout

/-!
# Requests that are looked up by their room

A recording request is added with its room (`timeout_que_add_user2`) and is looked up by it
(`timeout_que_find_user2`). The other requests have no room: `timeout_que_add_user` writes every field
of the slot except `roomid`, and no function that gives a slot back clears it. What stands there is the
room of the request that had the slot before, or the `-1` of `timeout_que_init`.

So a request of the other kind that has the code of a recording request can be found under a room that
it has nothing to do with. It is hidden as long as a slot in front of it looks the same.

## Main definitions

* `TimeoutHist` — the table, and which operation took each slot last
* `TimeoutHist.RoomQualified` — a lookup by room finds a request that was added with this room
* `StaysHidden` — the step leaves a slot in front of each slot with a room that is left over

## Main results

* `TimeoutHist.Sound.roomQualified_iff` — the lookups are right as long as those slots are hidden
* `roomQualified_iff_staysHidden` — when they are right after every operation
-/

namespace ReachEdukit

namespace Control

open Slots

/-- The table, with its history. -/
structure TimeoutHist where
  que : TimeoutQue
  /-- The operation that took the slot last. -/
  takenBy : UserIndex → Option TimeoutOp

def timeoutHistInit : TimeoutHist := ⟨timeoutQueInit, fun _ => none⟩

/-- The operation takes a slot, whose index it returns. -/
def TimeoutOp.adds : TimeoutOp → Bool
  | .addUser .. | .addUser2 .. => true
  | _ => false

/-- One operation, with what it returns. -/
def histStep (s : TimeoutHist) (op : TimeoutOp) : TimeoutHist × ℤ :=
  let r := timeoutStep s.que op
  ({ que := r.1, takenBy i := if op.adds ∧ r.2 = i.val then some op else s.takenBy i }, r.2)

/-- What `timeout_que_find_user2` finds under a room is taken, and it was taken last by a request that
`timeout_que_add_user2` added for this platform and this room. -/
def TimeoutHist.RoomQualified (s : TimeoutHist) : Prop :=
  ∀ platform msgcode userid roomid, platform ≠ .liveNode → 0 ≤ roomid →
    ∀ i ∈ (timeoutQueFindUser2 s.que platform msgcode userid roomid).1, s.que.conLink i = true ∧
      ∃ msgcode' userid', s.takenBy i = some (.addUser2 platform msgcode' userid' roomid)

/-- The lookup by room does not tell the two requests apart. -/
def TimeoutUser.LooksLike (u v : TimeoutUser) : Prop :=
  u.platform = v.platform ∧ u.msgcode = v.msgcode ∧ u.roomid = v.roomid

instance (u v : TimeoutUser) : Decidable (u.LooksLike v) :=
  inferInstanceAs (Decidable (_ ∧ _ ∧ _))

/-- The operation is `timeout_que_add_user`. -/
def TimeoutOp.roomless : TimeoutOp → Bool
  | .addUser .. => true
  | _ => false

/-- The slot was taken by `timeout_que_add_user`, and a lookup by the room that is left in it would
take it. -/
def TimeoutHist.LeftOver (s : TimeoutHist) (i : UserIndex) : Prop :=
  s.que.conLink i = true ∧ (s.que.user i).platform ≠ .liveNode ∧
    (s.que.user i).msgcode = msgcodeRecordControl ∧ 0 ≤ (s.que.user i).roomid ∧
    (s.takenBy i).any TimeoutOp.roomless = true

instance (s : TimeoutHist) (i : UserIndex) : Decidable (s.LeftOver i) :=
  inferInstanceAs (Decidable (_ ∧ _ ∧ _ ∧ _ ∧ _))

/-- A slot in front of `i` that is taken, and is not `k`, looks like `user`. -/
def TimeoutQue.Hides (q : TimeoutQue) (k : Option UserIndex) (i : UserIndex) (user : TimeoutUser) :
    Prop :=
  ∃ j < i, some j ≠ k ∧ q.conLink j = true ∧ (q.user j).LooksLike user

instance (q : TimeoutQue) (k : Option UserIndex) (i : UserIndex) (user : TimeoutUser) :
    Decidable (q.Hides k i user) :=
  inferInstanceAs (Decidable (∃ j < i, _))

/-- Without the slot `k` the slots with a room that is left over are still hidden. -/
def TimeoutHist.HiddenWithout (s : TimeoutHist) (k : UserIndex) : Prop :=
  ∀ i, i ≠ k → s.LeftOver i → s.que.Hides (some k) i (s.que.user i)

instance (s : TimeoutHist) (k : UserIndex) : Decidable (s.HiddenWithout k) :=
  inferInstanceAs (Decidable (∀ _, _))

/-- The step does not bring a room that is left over to the front. A request that
`timeout_que_add_user` adds with the code of a recording request does not take a slot with a room in
it, unless a slot in front looks the same; and such a slot in front is not given back. -/
def StaysHidden (s : TimeoutHist) (op : TimeoutOp) : Prop :=
  match op with
  | .addUser platform msgcode userid =>
    platform ≠ .liveNode → msgcode = msgcodeRecordControl → ∀ i ∈ s.que.firstIdle,
      0 ≤ (s.que.user i).roomid →
        s.que.Hides none i ⟨true, platform, msgcode, (s.que.user i).roomid, userid⟩
  | .delUser userIndex => ∀ k : UserIndex, (k.val : ℤ) = userIndex → s.HiddenWithout k
  | .cleanup platform userid => ∀ k ∈ s.que.firstOf platform userid, s.HiddenWithout k
  | _ => True

instance (s : TimeoutHist) (op : TimeoutOp) : Decidable (StaysHidden s op) := by
  cases op <;> unfold StaysHidden <;> infer_instance

/-! ### What the operations keep -/

/-- The slot holds what the operation wrote. -/
def TimeoutUser.FilledBy (u : TimeoutUser) : TimeoutOp → Prop
  | .addUser platform msgcode _ => u.platform = platform ∧ u.msgcode = msgcode
  | .addUser2 platform msgcode _ roomid =>
    u.platform = platform ∧ u.msgcode = msgcode ∧ u.roomid = roomid
  | _ => False

/-- The flags agree, and what is in a slot that is taken was written by the operation that took it. -/
structure TimeoutHist.Sound (s : TimeoutHist) : Prop where
  enable : ∀ i, (s.que.user i).enable = s.que.conLink i
  filled : ∀ i, s.que.conLink i = true →
    ∃ op, s.takenBy i = some op ∧ (s.que.user i).FilledBy op

/-- Every slot with a room that is left over is hidden. -/
def TimeoutHist.AllHidden (s : TimeoutHist) : Prop :=
  ∀ i, s.LeftOver i → s.que.Hides none i (s.que.user i)

variable {s : TimeoutHist} {i k : UserIndex} {user : TimeoutUser} {op : TimeoutOp}

/-- The lookup by room takes the first slot that is taken and has the platform, the code of a recording
request and the room. -/
theorem find2_eq_some_iff (henable : ∀ i, (s.que.user i).enable = s.que.conLink i)
    {platform : Platform} (hplatform : platform ≠ .liveNode) {msgcode userid roomid : ℤ} :
    (timeoutQueFindUser2 s.que platform msgcode userid roomid).1 = some i ↔
      msgcode = msgcodeRecordControl ∧
        (s.que.conLink i = true ∧
          (s.que.user i).LooksLike ⟨true, platform, msgcode, roomid, userid⟩) ∧
        ¬ s.que.Hides none i ⟨true, platform, msgcode, roomid, userid⟩ := by
  rw [timeoutQueFindUser2]
  by_cases hcode : msgcode = msgcodeRecordControl
  · rw [if_neg (not_not_intro hcode), if_pos hplatform, and_iff_right hcode]
    have hmatch : ∀ j, ((s.que.user j).enable && (s.que.user j).platform = platform &&
        (s.que.user j).msgcode = msgcode && (s.que.user j).roomid = roomid) = true ↔
        s.que.conLink j = true ∧
          (s.que.user j).LooksLike ⟨true, platform, msgcode, roomid, userid⟩ := by
      intro j
      simp only [Bool.and_eq_true, decide_eq_true_eq, henable, TimeoutUser.LooksLike, and_assoc]
    change List.find? _ _ = some i ↔ _
    rw [find?_finRange_eq_some, hmatch]
    refine and_congr_right fun _ => ?_
    constructor
    · rintro hno ⟨j, hji, -, hj⟩
      exact Bool.false_ne_true ((hno j hji).symm.trans ((hmatch j).mpr hj))
    · intro hno j hji
      rw [← Bool.not_eq_true, hmatch]
      exact fun hj => hno ⟨j, hji, by simp, hj⟩
  · rw [if_pos hcode]
    exact iff_of_false (by simp) fun h => hcode h.1

/-- **The lookups are right exactly when every room that is left over is hidden.** -/
theorem TimeoutHist.Sound.roomQualified_iff (h : s.Sound) : s.RoomQualified ↔ s.AllHidden := by
  constructor
  · intro hqualified i hleft
    obtain ⟨hlink, hplatform, hcode, hroom, hroomless⟩ := hleft
    by_contra hhidden
    have hfound : (timeoutQueFindUser2 s.que (s.que.user i).platform (s.que.user i).msgcode 0
        (s.que.user i).roomid).1 = some i :=
      (find2_eq_some_iff h.enable hplatform).mpr ⟨hcode, ⟨hlink, rfl, rfl, rfl⟩, hhidden⟩
    obtain ⟨-, msgcode', userid', htaken⟩ := hqualified _ _ _ _ hplatform hroom i hfound
    rw [htaken] at hroomless
    exact Bool.false_ne_true hroomless
  · intro hhidden platform msgcode userid roomid hplatform hroom i hi
    obtain ⟨hcode, ⟨hlink, rfl, rfl, rfl⟩, hfirst⟩ := (find2_eq_some_iff h.enable hplatform).mp hi
    refine ⟨hlink, ?_⟩
    obtain ⟨op, htaken, hfilled⟩ := h.filled i hlink
    cases op with
    | addUser platform msgcode userid' =>
      refine absurd (hhidden i ⟨hlink, hplatform, hcode, hroom, ?_⟩) hfirst
      rw [htaken]
      rfl
    | addUser2 platform msgcode userid' roomid =>
      obtain ⟨hp, -, hr⟩ := hfilled
      rw [hp, hr]
      exact ⟨msgcode, userid', htaken⟩
    | findUser _ _ _ => exact hfilled.elim
    | findUser2 _ _ _ _ => exact hfilled.elim
    | delUser _ => exact hfilled.elim
    | cleanup _ _ => exact hfilled.elim
    | allCleanup => exact hfilled.elim

/-! ### A slot is taken -/

/-- The slot `i` is taken by the operation `op`. -/
def TimeoutHist.take (s : TimeoutHist) (i : UserIndex) (user : TimeoutUser) (op : TimeoutOp) :
    TimeoutHist :=
  ⟨s.que.take i user, Function.update s.takenBy i (some op)⟩

theorem TimeoutHist.Sound.take (h : s.Sound) (henable : user.enable = true)
    (hfilled : user.FilledBy op) : (s.take i user op).Sound where
  enable j := by
    by_cases hj : j = i
    · subst hj
      simpa [TimeoutHist.take, TimeoutQue.take] using henable
    · simpa [TimeoutHist.take, TimeoutQue.take, hj] using h.enable j
  filled j := by
    by_cases hj : j = i
    · subst hj
      intro _
      exact ⟨op, by simp [TimeoutHist.take], by simpa [TimeoutHist.take, TimeoutQue.take] using hfilled⟩
    · simpa [TimeoutHist.take, TimeoutQue.take, hj] using h.filled j

/-- A slot in front of an idle one, before and after the idle one is taken. -/
theorem hides_take_iff {u : TimeoutUser} (hidle : s.que.conLink i = false) (k : UserIndex) :
    s.que.Hides none k u → (s.take i user op).que.Hides none k u := by
  rintro ⟨j, hjk, hne, hlink, hlike⟩
  have hji : j ≠ i := by
    rintro rfl
    exact Bool.false_ne_true (hidle.symm.trans hlink)
  refine ⟨j, hjk, hne, ?_, ?_⟩
  · simpa [TimeoutHist.take, TimeoutQue.take, hji] using hlink
  · simpa [TimeoutHist.take, TimeoutQue.take, hji] using hlike

/-- Behind the others nothing changes: only the slot that is taken has to be hidden. -/
theorem TimeoutHist.AllHidden.take_iff (h : s.AllHidden) (hidle : s.que.conLink i = false) :
    (s.take i user op).AllHidden ↔ (user.platform ≠ .liveNode → user.msgcode = msgcodeRecordControl →
      0 ≤ user.roomid → op.roomless = true → s.que.Hides none i user) := by
  have hself : ∀ {u}, (s.take i user op).que.Hides none i u ↔ s.que.Hides none i u := by
    intro u
    refine ⟨?_, hides_take_iff hidle i⟩
    rintro ⟨j, hji, hne, hlink, hlike⟩
    refine ⟨j, hji, hne, ?_, ?_⟩
    · simpa [TimeoutHist.take, TimeoutQue.take, hji.ne] using hlink
    · simpa [TimeoutHist.take, TimeoutQue.take, hji.ne] using hlike
  have huser : (s.take i user op).que.user i = user := by simp [TimeoutHist.take, TimeoutQue.take]
  have hleft : (s.take i user op).LeftOver i ↔ user.platform ≠ .liveNode ∧
      user.msgcode = msgcodeRecordControl ∧ 0 ≤ user.roomid ∧ op.roomless = true := by
    simp [TimeoutHist.LeftOver, TimeoutHist.take, TimeoutQue.take]
  constructor
  · intro hall hplatform hcode hroom hroomless
    have hhides := hall i (hleft.mpr ⟨hplatform, hcode, hroom, hroomless⟩)
    rw [huser] at hhides
    exact hself.mp hhides
  · intro hnew j hj
    by_cases hji : j = i
    · subst hji
      obtain ⟨hplatform, hcode, hroom, hroomless⟩ := hleft.mp hj
      rw [huser]
      exact hself.mpr (hnew hplatform hcode hroom hroomless)
    · have hsame : (s.take i user op).que.user j = s.que.user j := by
        simp [TimeoutHist.take, TimeoutQue.take, hji]
      have hold : s.LeftOver j := by
        simpa [TimeoutHist.LeftOver, TimeoutHist.take, TimeoutQue.take, hji] using hj
      rw [hsame]
      exact hides_take_iff hidle j (h j hold)

/-! ### A slot is given back -/

/-- The slot `k` is given back. -/
def TimeoutHist.free (s : TimeoutHist) (k : UserIndex) (user : TimeoutUser) : TimeoutHist :=
  { s with que := s.que.free k user }

theorem TimeoutHist.Sound.free (h : s.Sound) (henable : user.enable = false) :
    (s.free k user).Sound where
  enable j := by
    by_cases hj : j = k
    · subst hj
      simpa [TimeoutHist.free, TimeoutQue.free] using henable
    · simpa [TimeoutHist.free, TimeoutQue.free, hj] using h.enable j
  filled j := by
    by_cases hj : j = k
    · subst hj
      simp [TimeoutHist.free, TimeoutQue.free]
    · simpa [TimeoutHist.free, TimeoutQue.free, hj] using h.filled j

theorem allHidden_free_iff : (s.free k user).AllHidden ↔ s.HiddenWithout k := by
  have hhides : ∀ {j u}, (s.free k user).que.Hides none j u ↔ s.que.Hides (some k) j u := by
    intro j u
    refine exists_congr fun m => and_congr_right fun _ => ?_
    by_cases hm : m = k
    · subst hm
      simp [TimeoutHist.free, TimeoutQue.free]
    · simp [TimeoutHist.free, TimeoutQue.free, hm]
  have hgone : ¬ (s.free k user).LeftOver k := by
    simp [TimeoutHist.LeftOver, TimeoutHist.free, TimeoutQue.free]
  refine forall_congr' fun j => ?_
  by_cases hj : j = k
  · subst hj
    exact iff_of_true (fun h => absurd h hgone) fun h => absurd rfl h
  · have hsame : (s.free k user).que.user j = s.que.user j := by
      simp [TimeoutHist.free, TimeoutQue.free, hj]
    have hleft : (s.free k user).LeftOver j ↔ s.LeftOver j := by
      simp [TimeoutHist.LeftOver, TimeoutHist.free, TimeoutQue.free, hj]
    rw [hleft, hsame, hhides]
    exact ⟨fun h _ => h, fun h => h hj⟩

/-! ### The operations -/

theorem histStep_of_not_adds (h : op.adds = false) :
    (histStep s op).1 = { s with que := (timeoutStep s.que op).1 } := by
  simp [histStep, h]

/-- An operation that adds a request takes the first idle slot. -/
theorem histStep_add {fill : TimeoutUser → TimeoutUser} (hadds : op.adds = true)
    (hstep : timeoutStep s.que op = timeoutQueAdd s.que fill) (hi : s.que.firstIdle = some i) :
    (histStep s op).1 = s.take i (fill (s.que.user i)) op := by
  rw [histStep, hstep, timeoutQueAdd, hi, TimeoutHist.take]
  refine congrArg (TimeoutHist.mk _) (funext fun j => ?_)
  by_cases hj : j = i
  · subst hj
    simp [hadds]
  · have hne : (i.val : ℤ) ≠ j.val := fun h => hj (Fin.ext (by omega))
    simp [hadds, hne, hj]

/-- When there is none the table is emptied. -/
theorem histStep_add_of_full {fill : TimeoutUser → TimeoutUser}
    (hstep : timeoutStep s.que op = timeoutQueAdd s.que fill) (hnone : s.que.firstIdle = none) :
    (histStep s op).1 = ⟨timeoutQueAllCleanup s.que, s.takenBy⟩ := by
  rw [histStep, hstep, timeoutQueAdd, hnone]
  refine congrArg (TimeoutHist.mk _) (funext fun j => ?_)
  have hne : (-1 : ℤ) ≠ j.val := by omega
  simp [hne]

theorem TimeoutHist.Sound.allCleanup (s : TimeoutHist) :
    TimeoutHist.Sound ⟨timeoutQueAllCleanup s.que, s.takenBy⟩ where
  enable _ := rfl
  filled _ h := absurd h Bool.false_ne_true

theorem allHidden_allCleanup (s : TimeoutHist) :
    TimeoutHist.AllHidden ⟨timeoutQueAllCleanup s.que, s.takenBy⟩ :=
  fun _ h => absurd h.1 Bool.false_ne_true

theorem sound_histInit : timeoutHistInit.Sound where
  enable _ := rfl
  filled _ h := absurd h Bool.false_ne_true

theorem allHidden_histInit : timeoutHistInit.AllHidden := fun _ h => absurd h.1 Bool.false_ne_true

/-- What one operation does to the two invariants. -/
structure StepKeeps (s : TimeoutHist) (op : TimeoutOp) : Prop where
  sound : (histStep s op).1.Sound
  hidden : (histStep s op).1.AllHidden ↔ StaysHidden s op

/-- A request is added: the two functions differ in what they write into the slot. -/
theorem TimeoutHist.Sound.add (h : s.Sound) (hhidden : s.AllHidden)
    {fill : TimeoutUser → TimeoutUser} (hadds : op.adds = true)
    (hstep : timeoutStep s.que op = timeoutQueAdd s.que fill)
    (hfill : ∀ u, (fill u).enable = true ∧ (fill u).FilledBy op) :
    (histStep s op).1.Sound ∧
      ((histStep s op).1.AllHidden ↔ ∀ i ∈ s.que.firstIdle,
        (fill (s.que.user i)).platform ≠ .liveNode →
        (fill (s.que.user i)).msgcode = msgcodeRecordControl →
        0 ≤ (fill (s.que.user i)).roomid → op.roomless = true →
        s.que.Hides none i (fill (s.que.user i))) := by
  obtain hnone | ⟨i, hi⟩ := Option.eq_none_or_eq_some s.que.firstIdle
  · rw [histStep_add_of_full hstep hnone, hnone]
    exact ⟨.allCleanup s, iff_of_true (allHidden_allCleanup s) (by simp)⟩
  · have hidle : s.que.conLink i = false := by simpa using List.find?_some hi
    rw [histStep_add hadds hstep hi, hi, hhidden.take_iff hidle]
    exact ⟨h.take (hfill _).1 (hfill _).2, by simp⟩

theorem TimeoutHist.Sound.keeps_addUser2 (h : s.Sound) (hhidden : s.AllHidden) (platform : Platform)
    (msgcode userid roomid : ℤ) :
    StepKeeps s (.addUser2 platform msgcode userid roomid) := by
  by_cases hcode : msgcode = msgcodeRecordControl
  · have hadd : timeoutStep s.que (.addUser2 platform msgcode userid roomid) =
        timeoutQueAdd s.que fun _ => ⟨true, platform, msgcode, roomid, userid⟩ := by
      rw [timeoutStep, timeoutQueAddUser2, if_neg (not_not_intro hcode)]
    obtain ⟨hsound, hiff⟩ := h.add hhidden rfl hadd fun _ => ⟨rfl, rfl, rfl, rfl⟩
    refine ⟨hsound, hiff.trans (iff_of_true ?_ trivial)⟩
    exact fun _ _ _ _ _ hroomless => absurd hroomless Bool.false_ne_true
  · have hsame : (histStep s (.addUser2 platform msgcode userid roomid)).1 = s := by
      have hne : ∀ j : UserIndex, (-1 : ℤ) ≠ j.val := fun j => by omega
      rw [histStep, timeoutStep, timeoutQueAddUser2, if_pos hcode]
      simp [hne]
    rw [← hsame] at h hhidden
    exact ⟨h, iff_of_true hhidden trivial⟩

theorem TimeoutHist.Sound.keeps_delUser (h : s.Sound) (hhidden : s.AllHidden) (userIndex : ℤ) :
    StepKeeps s (.delUser userIndex) := by
  have hdel : (histStep s (.delUser userIndex)).1 =
      { s with que := (timeoutQueDelUser s.que userIndex).1 } := histStep_of_not_adds rfl
  rw [timeoutQueDelUser] at hdel
  by_cases hrange : 0 ≤ userIndex ∧ userIndex < timeoutQueLength
  · rw [dif_pos hrange] at hdel
    obtain ⟨k, hk⟩ : ∃ k : UserIndex, k = ⟨userIndex.toNat, by omega⟩ := ⟨_, rfl⟩
    rw [← hk] at hdel
    have hval : (k.val : ℤ) = userIndex := by
      rw [hk]
      exact Int.toNat_of_nonneg hrange.1
    constructor
    · rw [hdel]
      exact h.free rfl
    · rw [hdel]
      refine allHidden_free_iff.trans ⟨fun hk' j hj => ?_, fun hall => hall k hval⟩
      obtain rfl : j = k := Fin.ext (by omega)
      exact hk'
  · rw [dif_neg hrange] at hdel
    refine ⟨hdel ▸ h, hdel ▸ iff_of_true hhidden fun j hj => ?_⟩
    have hlt := j.isLt
    exact absurd ⟨by omega, by omega⟩ hrange

theorem TimeoutHist.Sound.keeps_cleanup (h : s.Sound) (hhidden : s.AllHidden) (platform : Platform)
    (userid : ℤ) : StepKeeps s (.cleanup platform userid) := by
  have hclean : (histStep s (.cleanup platform userid)).1 =
      { s with que := timeoutQueCleanup s.que platform userid } := histStep_of_not_adds rfl
  rw [timeoutQueCleanup] at hclean
  obtain hnone | ⟨k, hk⟩ := Option.eq_none_or_eq_some (s.que.firstOf platform userid)
  · rw [hnone] at hclean
    refine ⟨hclean ▸ h, hclean ▸ iff_of_true hhidden fun j hj => ?_⟩
    rw [hnone] at hj
    exact absurd hj (by simp)
  · rw [hk] at hclean
    constructor
    · rw [hclean]
      exact h.free rfl
    · rw [hclean]
      refine allHidden_free_iff.trans ?_
      change _ ↔ ∀ k ∈ s.que.firstOf platform userid, s.HiddenWithout k
      rw [hk]
      simp

theorem TimeoutHist.Sound.stepKeeps (h : s.Sound) (hhidden : s.AllHidden) (op : TimeoutOp) :
    StepKeeps s op := by
  cases op with
  | addUser platform msgcode userid =>
    have hadd : timeoutStep s.que (.addUser platform msgcode userid) = timeoutQueAdd s.que fun u =>
        { u with enable := true, platform := platform, msgcode := msgcode, userid := userid } := rfl
    obtain ⟨hsound, hiff⟩ := h.add hhidden rfl hadd fun _ => ⟨rfl, rfl, rfl⟩
    refine ⟨hsound, hiff.trans ?_⟩
    exact ⟨fun hall hp hm i hi hr => hall i hi hp hm hr rfl,
      fun hall i hi hp hm hr _ => hall hp hm i hi hr⟩
  | addUser2 platform msgcode userid roomid => exact h.keeps_addUser2 hhidden ..
  | findUser platform msgcode userid =>
    have hsame : (histStep s (.findUser platform msgcode userid)).1 = s := histStep_of_not_adds rfl
    exact ⟨hsame ▸ h, hsame ▸ iff_of_true hhidden trivial⟩
  | findUser2 platform msgcode userid roomid =>
    have hsame : (histStep s (.findUser2 platform msgcode userid roomid)).1 = s :=
      histStep_of_not_adds rfl
    exact ⟨hsame ▸ h, hsame ▸ iff_of_true hhidden trivial⟩
  | delUser userIndex => exact h.keeps_delUser hhidden userIndex
  | cleanup platform userid => exact h.keeps_cleanup hhidden platform userid
  | allCleanup =>
    have hall : (histStep s .allCleanup).1 = ⟨timeoutQueAllCleanup s.que, s.takenBy⟩ :=
      histStep_of_not_adds rfl
    exact ⟨hall ▸ .allCleanup s, hall ▸ iff_of_true (allHidden_allCleanup s) trivial⟩

/-- **Lookups by room.** After every operation of a run the lookups find only requests that were added
with their room exactly when no step brings a room that is left over to the front. -/
theorem roomQualified_iff_staysHidden (ops : List TimeoutOp) :
    Run.Along histStep (fun s op => (histStep s op).1.RoomQualified) timeoutHistInit ops ↔
      Run.Along histStep StaysHidden timeoutHistInit ops := by
  refine Run.along_iff_of_invariant (I := fun s => s.Sound ∧ s.AllHidden) ?_ ?_
    ⟨sound_histInit, allHidden_histInit⟩ ops
  · rintro s op ⟨h, hhidden⟩
    have hkeeps := h.stepKeeps hhidden op
    exact hkeeps.sound.roomQualified_iff.trans hkeeps.hidden
  · rintro s op ⟨h, hhidden⟩ hstays
    have hkeeps := h.stepKeeps hhidden op
    exact ⟨hkeeps.sound, hkeeps.hidden.mpr hstays⟩

/-- A request without a room takes the slot of one that had the room 5, and is found under it. -/
theorem found_under_room_left :
    ¬ ∀ ops, Run.Along histStep (fun s op => (histStep s op).1.RoomQualified) timeoutHistInit ops := by
  intro h
  obtain ⟨-, -, hqualified, -⟩ := h [.addUser2 .webCtrl 30010 7 5, .delUser 0, .addUser .webCtrl 30010 8]
  obtain ⟨-, msgcode, userid, htaken⟩ :=
    hqualified .webCtrl 30010 0 5 (by decide) (by decide) ⟨0, by decide⟩ (by decide)
  exact TimeoutOp.noConfusion (Option.some.inj htaken)

end Control

end ReachEdukit
