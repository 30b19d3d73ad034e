import ReachEdukit.Lives.Users

/-!
# How long a user stays

A user who was set should stay until he is stopped, and be gone after that. Two things come between:
a user is found by his addresses also in a slot that is marked, or that has another id, and is then
not set again; and a request with an id marks one slot only.

This file is about the requests that have an address list or an id; whether they come in the right
order is what the conditions are about.

## Main definitions

* `UserOp.Proper` — the requests have an address list, and no negative id
* `Users.Proper` — a user is in one slot
* `Heeded` — the request is not one of those above that is lost

## Main results

* `stays_until_stopped` — who is set stays until stopped, and whoever is stopped is gone
-/

namespace ReachEdukit

namespace Lives

variable {u : Users}

/-- The request has an address list, and an id that is not negative. The requests to stop all of
them are not considered. -/
def UserOp.Proper : UserOp → Prop
  | .set user _ _ => user.livesUserAddr ≠ noAddr ∧ 0 ≤ user.userId
  | .stop user _ => user.livesUserAddr ≠ noAddr
  | .stopUnusual userId _ => 0 ≤ userId
  | .stopAll _ => False
  | .reset => True

/-- The user who is set is not found in a slot that is marked, or that has another id; and all other
slots with the id that is stopped are marked. -/
def Heeded (u : Users) : UserOp → Prop
  | .set user _ _ => u.userNum ≠ videoUserMaxNum → ∀ i, compareUserInfo user (u.userInfo i) = 0 →
    ¬ (u.userInfo i).marked ∧ (u.userInfo i).userId = user.userId
  | .stopUnusual userId _ => u.userNum ≠ 0 → ∀ i ∈ u.first (fun slot => slot.userId = userId),
    ∀ j ≠ i, (u.userInfo j).userId = userId → (u.userInfo j).marked
  | _ => True

instance : (op : UserOp) → Decidable op.Proper
  | .set .. => inferInstanceAs (Decidable (_ ∧ _))
  | .stop .. => inferInstanceAs (Decidable (_ ≠ _))
  | .stopUnusual .. => inferInstanceAs (Decidable (_ ≤ _))
  | .stopAll _ => .isFalse id
  | .reset => .isTrue trivial

instance (u : Users) : (op : UserOp) → Decidable (Heeded u op)
  | .set .. => inferInstanceAs (Decidable (_ → _))
  | .stop .. => .isTrue trivial
  | .stopUnusual .. => inferInstanceAs (Decidable (_ → _))
  | .stopAll _ => .isTrue trivial
  | .reset => .isTrue trivial

theorem compareUserInfo_eq_zero_iff {a b : LivesUserInfo} :
    compareUserInfo a b = 0 ↔ a.livesUserAddr = b.livesUserAddr := by
  rw [compareUserInfo]
  split_ifs with h
  · refine iff_of_false (by decide) fun heq => ?_
    obtain ⟨i, hi⟩ := h
    rw [heq] at hi
    simp at hi
  · refine iff_of_true rfl ?_
    ext1 i
    simp only [not_exists, not_or, not_not] at h
    exact LivesUserAddr.ext (h i).1 (h i).2

/-- A free slot has no address list and no id, and a user is in one slot. -/
structure Users.Proper (u : Users) : Prop where
  sound : u.Sound
  free : ∀ i, (u.userInfo i).index = -1 →
    (u.userInfo i).livesUserAddr = noAddr ∧ (u.userInfo i).userId = -1
  taken : ∀ i, (u.userInfo i).index ≠ -1 →
    (u.userInfo i).livesUserAddr ≠ noAddr ∧ 0 ≤ (u.userInfo i).userId
  single : ∀ i j, (u.userInfo i).index ≠ -1 →
    (u.userInfo i).livesUserAddr = (u.userInfo j).livesUserAddr → i = j

theorem proper_init (memory : Fin videoUserMaxNum → LivesUserInfo) :
    (Users.init memory).Proper where
  sound := sound_init memory
  free _ _ := ⟨rfl, rfl⟩
  taken _ hi := absurd rfl hi
  single _ _ hi := absurd rfl hi

/-- The slot of a request is taken: a free one has neither its addresses nor its id. -/
theorem Users.Proper.index_ne (h : u.Proper) {op : UserOp} (hop : op.Proper)
    {i : Fin videoUserMaxNum} (hi : op.stops (u.userInfo i)) : (u.userInfo i).index ≠ -1 := by
  intro hfree
  obtain ⟨haddr, hid⟩ := h.free i hfree
  rcases op with ⟨user, fd, sent⟩ | ⟨user, sent⟩ | ⟨userId, sent⟩ | sent | _
  · exact absurd hi (by simp [UserOp.stops])
  · have heq := compareUserInfo_eq_zero_iff.mp (of_decide_eq_true hi)
    exact hop (heq.trans haddr)
  · have heq : (u.userInfo i).userId = userId := of_decide_eq_true hi
    change 0 ≤ userId at hop
    omega
  · exact absurd hi (by simp [UserOp.stops])
  · exact absurd hi (by simp [UserOp.stops])

/-- A slot in which the user and the index stay. -/
theorem Users.Proper.put {i : Fin videoUserMaxNum} {user : LivesUserInfo} (h : u.Proper)
    (hsound : (u.put i user).Sound) (hindex : user.index = (u.userInfo i).index)
    (haddr : user.livesUserAddr = (u.userInfo i).livesUserAddr)
    (hid : user.userId = (u.userInfo i).userId) : (u.put i user).Proper := by
  have hsame : ∀ j, ((u.put i user).userInfo j).index = (u.userInfo j).index ∧
      ((u.put i user).userInfo j).livesUserAddr = (u.userInfo j).livesUserAddr ∧
      ((u.put i user).userInfo j).userId = (u.userInfo j).userId := by
    intro j
    rcases eq_or_ne j i with rfl | hj
    · rw [put_self]
      exact ⟨hindex, haddr, hid⟩
    · rw [put_of_ne hj]
      exact ⟨rfl, rfl, rfl⟩
  refine ⟨hsound, fun j hj => ?_, fun j hj => ?_, fun j k hj heq => ?_⟩
  · rw [(hsame j).1] at hj
    rw [(hsame j).2.1, (hsame j).2.2]
    exact h.free j hj
  · rw [(hsame j).1] at hj
    rw [(hsame j).2.1, (hsame j).2.2]
    exact h.taken j hj
  · rw [(hsame j).1] at hj
    rw [(hsame j).2.1, (hsame k).2.1] at heq
    exact h.single j k hj heq

theorem Users.Proper.stopFirst (h : u.Proper) {op : UserOp} (hop : op.Proper) (sent : Bool) :
    (Lives.stopFirst op.stops sent u).1.Proper := by
  have hsound := h.sound.stopFirst (p := op.stops) sent fun _ i hi =>
    LivesUserInfo.taken_iff.mpr (h.index_ne hop (Users.first_spec hi))
  rcases stopFirst_cases op.stops sent u with ⟨-, heq⟩ | ⟨-, i, -, heq⟩
  · rwa [heq]
  · rw [heq] at hsound ⊢
    exact h.put hsound rfl rfl rfl

theorem Users.Proper.set (h : u.Proper) {user : LivesUserInfo} {fd : ℤ} {sent : Bool}
    (haddr : user.livesUserAddr ≠ noAddr) (hid : 0 ≤ user.userId) :
    (setLivesUserInfo user fd sent u).1.Proper := by
  have hsound := h.sound.set user fd sent
  rcases setLivesUserInfo_cases user fd sent u with ⟨-, heq⟩ | ⟨-, ⟨i, -, heq⟩ | ⟨hnew, ⟨-, heq⟩ |
    ⟨i, hindex, heq | heq⟩⟩⟩
  · rwa [heq]
  · rwa [heq]
  · rwa [heq]
  · rw [heq] at hsound ⊢
    exact h.put hsound rfl rfl rfl
  · rw [heq] at hsound ⊢
    have hnot : ∀ j, (u.userInfo j).livesUserAddr ≠ user.livesUserAddr := fun j hj =>
      hnew j (compareUserInfo_eq_zero_iff.mpr hj.symm)
    refine ⟨hsound, fun j hj => ?_, fun j hj => ?_, fun j k hj heq => ?_⟩
    · change ((u.put i _).userInfo j).index = -1 at hj
      change ((u.put i _).userInfo j).livesUserAddr = _ ∧ ((u.put i _).userInfo j).userId = _
      rcases eq_or_ne j i with rfl | hne
      · rw [put_self] at hj
        change (j.val : ℤ) = -1 at hj
        omega
      · rw [put_of_ne hne] at hj ⊢
        exact h.free j hj
    · change ((u.put i _).userInfo j).index ≠ -1 at hj
      change ((u.put i _).userInfo j).livesUserAddr ≠ _ ∧ 0 ≤ ((u.put i _).userInfo j).userId
      rcases eq_or_ne j i with rfl | hne
      · rw [put_self]
        exact ⟨haddr, hid⟩
      · rw [put_of_ne hne] at hj ⊢
        exact h.taken j hj
    · change ((u.put i _).userInfo j).index ≠ -1 at hj
      change ((u.put i _).userInfo j).livesUserAddr = ((u.put i _).userInfo k).livesUserAddr at heq
      rcases eq_or_ne j i with rfl | hji <;> rcases eq_or_ne k j with rfl | hkj
      · rfl
      · rw [put_self, put_of_ne hkj] at heq
        exact absurd heq.symm (hnot k)
      · rfl
      · rw [put_of_ne hji] at hj heq
        rcases eq_or_ne k i with rfl | hki
        · rw [put_self] at heq
          exact absurd heq (hnot j)
        · rw [put_of_ne hki] at heq
          exact h.single j k hj heq

theorem reset_userInfo (u : Users) (i : Fin videoUserMaxNum) :
    (u.userInfo i).marked ∧ ((resetLiveModeUser u).userInfo i).index = -1 ∧
        ((resetLiveModeUser u).userInfo i).livesUserAddr = noAddr ∧
        ((resetLiveModeUser u).userInfo i).userId = -1 ∨
      ¬ (u.userInfo i).marked ∧ (resetLiveModeUser u).userInfo i = u.userInfo i := by
  by_cases hmarked : (u.userInfo i).marked
  · have heq : (resetLiveModeUser u).userInfo i = initLivesModeInfoEx (u.userInfo i) :=
      if_pos hmarked
    rw [heq]
    exact Or.inl ⟨hmarked, rfl, rfl, rfl⟩
  · exact Or.inr ⟨hmarked, if_neg hmarked⟩

theorem Users.Proper.reset (h : u.Proper) : (resetLiveModeUser u).Proper := by
  refine ⟨h.sound.reset, fun i hi => ?_, fun i hi => ?_, fun i j hi heq => ?_⟩
  · rcases reset_userInfo u i with ⟨-, -, hfree⟩ | ⟨-, hsame⟩
    · exact hfree
    · rw [hsame] at hi ⊢
      exact h.free i hi
  · rcases reset_userInfo u i with ⟨-, hindex, -⟩ | ⟨-, hsame⟩
    · exact absurd hindex hi
    · rw [hsame] at hi ⊢
      exact h.taken i hi
  · rcases reset_userInfo u i with ⟨-, hindex, -⟩ | ⟨-, hsame⟩
    · exact absurd hindex hi
    · rw [hsame] at hi heq
      rcases reset_userInfo u j with ⟨-, -, haddr, -⟩ | ⟨-, hsame'⟩
      · exact absurd (heq.trans haddr) (h.taken i hi).1
      · rw [hsame'] at heq
        exact h.single i j hi heq

/-- **One step** keeps the users in order. -/
theorem Users.Proper.step (h : u.Proper) {op : UserOp} (hop : op.Proper) :
    (userStep u op).1.Proper := by
  rcases op with ⟨user, fd, sent⟩ | ⟨user, sent⟩ | ⟨userId, sent⟩ | sent | _
  · exact h.set hop.1 hop.2
  · exact h.stopFirst (show (UserOp.stop user sent).Proper from hop) sent
  · exact h.stopFirst (show (UserOp.stopUnusual userId sent).Proper from hop) sent
  · exact absurd hop id
  · exact h.reset

/-! ### Who stays -/

/-- The user is in a slot that is not marked. -/
def Stays (user : LivesUserInfo) (u : Users) : Prop :=
  ∃ i, (u.userInfo i).index ≠ -1 ∧ (u.userInfo i).livesUserAddr = user.livesUserAddr ∧
    (u.userInfo i).userId = user.userId ∧ ¬ (u.userInfo i).marked

/-- A request to stop looks at the addresses and the id only. -/
theorem stops_congr (op : UserOp) {a b : LivesUserInfo} (haddr : a.livesUserAddr = b.livesUserAddr)
    (hid : a.userId = b.userId) : op.stops a = op.stops b := by
  rcases op with ⟨user, fd, sent⟩ | ⟨user, sent⟩ | ⟨userId, sent⟩ | sent | _
  · rfl
  · simp only [UserOp.stops, compareUserInfo_eq_zero_iff, haddr]
  · simp only [UserOp.stops, hid]
  · rfl
  · rfl

variable {user : LivesUserInfo}

theorem Stays.stopFirst (h : Stays user u) {op : UserOp} (hop : op.stops user = false)
    (sent : Bool) : Stays user (Lives.stopFirst op.stops sent u).1 := by
  obtain ⟨i, hindex, haddr, hid, hmarked⟩ := h
  rcases stopFirst_cases op.stops sent u with ⟨-, heq⟩ | ⟨-, j, hfirst, heq⟩
  · rw [heq]
    exact ⟨i, hindex, haddr, hid, hmarked⟩
  · have hne : i ≠ j := by
      rintro rfl
      have hstops := Users.first_spec hfirst
      rw [stops_congr op haddr hid, hop] at hstops
      exact absurd hstops (by simp)
    rw [heq]
    refine ⟨i, ?_⟩
    rw [put_of_ne hne]
    exact ⟨hindex, haddr, hid, hmarked⟩

theorem Stays.set (h : Stays user u) (other : LivesUserInfo) (fd : ℤ) (sent : Bool) :
    Stays user (setLivesUserInfo other fd sent u).1 := by
  obtain ⟨i, hindex, hrest⟩ := h
  rcases setLivesUserInfo_cases other fd sent u with ⟨-, heq⟩ | ⟨-, ⟨j, -, heq⟩ | ⟨-, ⟨-, heq⟩ |
    ⟨j, hfree, heq | heq⟩⟩⟩
  · rw [heq]
    exact ⟨i, hindex, hrest⟩
  · rw [heq]
    exact ⟨i, hindex, hrest⟩
  · rw [heq]
    exact ⟨i, hindex, hrest⟩
  all_goals
    have hne : i ≠ j := by
      rintro rfl
      exact hindex hfree
    rw [heq]
    refine ⟨i, ?_⟩
    change ((u.put j _).userInfo i).index ≠ -1 ∧ ((u.put j _).userInfo i).livesUserAddr = _ ∧
      ((u.put j _).userInfo i).userId = _ ∧ ¬ ((u.put j _).userInfo i).marked
    rw [put_of_ne hne]
    exact ⟨hindex, hrest⟩

theorem Stays.reset (h : Stays user u) : Stays user (resetLiveModeUser u) := by
  obtain ⟨i, hindex, haddr, hid, hmarked⟩ := h
  refine ⟨i, ?_⟩
  rcases reset_userInfo u i with ⟨hmarked', -⟩ | ⟨-, hsame⟩
  · exact absurd hmarked' hmarked
  · rw [hsame]
    exact ⟨hindex, haddr, hid, hmarked⟩

/-- **A user stays** at every step that does not stop him. -/
theorem Stays.step (h : Stays user u) {op : UserOp} (hop : op.Proper)
    (hstops : op.stops user = false) : Stays user (userStep u op).1 := by
  rcases op with ⟨other, fd, sent⟩ | ⟨other, sent⟩ | ⟨userId, sent⟩ | sent | _
  · exact h.set other fd sent
  · exact h.stopFirst hstops sent
  · exact h.stopFirst hstops sent
  · exact absurd hop id
  · exact h.reset

/-- A user who is set is in a slot then. -/
theorem stays_of_set {fd : ℤ} {sent : Bool} (h : u.Proper) (haddr : user.livesUserAddr ≠ noAddr)
    (hheeded : Heeded u (.set user fd sent))
    (hsucc : (setLivesUserInfo user fd sent u).2 = operationSucc) :
    Stays user (setLivesUserInfo user fd sent u).1 := by
  have herr : operationErr ≠ operationSucc := by decide
  rcases setLivesUserInfo_cases user fd sent u with ⟨-, heq⟩ | ⟨hfull, ⟨i, hsame, heq⟩ | ⟨-,
    ⟨htaken, heq⟩ | ⟨i, -, heq | heq⟩⟩⟩
  · rw [heq] at hsucc
    exact absurd hsucc herr
  · obtain ⟨hmarked, hid⟩ := hheeded hfull i hsame
    have haddr' := compareUserInfo_eq_zero_iff.mp hsame
    rw [heq]
    refine ⟨i, fun hindex => ?_, haddr'.symm, hid, hmarked⟩
    exact haddr (haddr'.trans (h.free i hindex).1)
  · have hcount : Slots.count LivesUserInfo.taken u.userInfo = videoUserMaxNum := by
      rw [Slots.count, List.countP_eq_length.mpr fun i _ => htaken i, List.length_finRange]
    exact absurd (h.sound.userNum_eq.trans (congrArg _ hcount)) hfull
  · rw [heq] at hsucc
    exact absurd hsucc herr
  · rw [heq]
    refine ⟨i, ?_⟩
    change ((u.put i _).userInfo i).index ≠ -1 ∧ ((u.put i _).userInfo i).livesUserAddr = _ ∧
      ((u.put i _).userInfo i).userId = _ ∧ ¬ ((u.put i _).userInfo i).marked
    rw [put_self]
    refine ⟨?_, rfl, rfl, by simp [LivesUserInfo.marked, LivesUserInfo.fill]⟩
    change (i.val : ℤ) ≠ -1
    omega

/-! ### Who is gone -/

/-- A slot is as it was, for the same user. -/
def SameUser (a b : LivesUserInfo) : Prop :=
  a.index = b.index ∧ a.livesUserAddr = b.livesUserAddr ∧ a.userId = b.userId ∧
    (b.marked → a.marked)

theorem sameUser_put {i : Fin videoUserMaxNum} {user : LivesUserInfo}
    (h : SameUser user (u.userInfo i)) (j : Fin videoUserMaxNum) :
    SameUser ((u.put i user).userInfo j) (u.userInfo j) := by
  rcases eq_or_ne j i with rfl | hj
  · rwa [put_self]
  · rw [put_of_ne hj]
    exact ⟨rfl, rfl, rfl, id⟩

theorem sameUser_stopFirst (p : LivesUserInfo → Bool) (sent : Bool) (i : Fin videoUserMaxNum) :
    SameUser ((stopFirst p sent u).1.userInfo i) (u.userInfo i) := by
  rcases stopFirst_cases p sent u with ⟨-, heq⟩ | ⟨-, j, -, heq⟩
  · rw [heq]
    exact ⟨rfl, rfl, rfl, id⟩
  · have hsame : SameUser { u.userInfo j with vaildFlag := 0 } (u.userInfo j) :=
      ⟨rfl, rfl, rfl, fun _ => rfl⟩
    rw [heq]
    exact sameUser_put hsame i

theorem sameUser_set (user : LivesUserInfo) (fd : ℤ) (sent : Bool) (i : Fin videoUserMaxNum) :
    SameUser ((setLivesUserInfo user fd sent u).1.userInfo i) (u.userInfo i) ∨
      ((setLivesUserInfo user fd sent u).1.userInfo i).livesUserAddr = user.livesUserAddr ∧
        ((setLivesUserInfo user fd sent u).1.userInfo i).userId = user.userId := by
  rcases setLivesUserInfo_cases user fd sent u with ⟨-, heq⟩ | ⟨-, ⟨j, -, heq⟩ | ⟨-, ⟨-, heq⟩ |
    ⟨j, -, heq | heq⟩⟩⟩
  · rw [heq]
    exact Or.inl ⟨rfl, rfl, rfl, id⟩
  · rw [heq]
    exact Or.inl ⟨rfl, rfl, rfl, id⟩
  · rw [heq]
    exact Or.inl ⟨rfl, rfl, rfl, id⟩
  · have hsame : SameUser { u.userInfo j with dataUdpFd := fd } (u.userInfo j) :=
      ⟨rfl, rfl, rfl, id⟩
    rw [heq]
    exact Or.inl (sameUser_put hsame i)
  · rw [heq]
    change SameUser ((u.put j _).userInfo i) _ ∨ ((u.put j _).userInfo i).livesUserAddr = _ ∧
      ((u.put j _).userInfo i).userId = _
    rcases eq_or_ne i j with rfl | hne
    · rw [put_self]
      exact Or.inr ⟨rfl, rfl⟩
    · rw [put_of_ne hne]
      exact Or.inl ⟨rfl, rfl, rfl, id⟩

/-- A slot that is taken after a step was taken before, for the same user, and was not freed; or it
is the one of the user who is set. -/
theorem slot_step {op : UserOp} (hop : op.Proper) {i : Fin videoUserMaxNum}
    (hi : ((userStep u op).1.userInfo i).index ≠ -1) :
    SameUser ((userStep u op).1.userInfo i) (u.userInfo i) ∧
        (op = .reset → ¬ (u.userInfo i).marked) ∨
      ∃ user fd sent, op = .set user fd sent ∧
        ((userStep u op).1.userInfo i).livesUserAddr = user.livesUserAddr ∧
        ((userStep u op).1.userInfo i).userId = user.userId := by
  rcases op with ⟨user, fd, sent⟩ | ⟨user, sent⟩ | ⟨userId, sent⟩ | sent | _
  · rcases sameUser_set user fd sent i with hsame | hset
    · exact Or.inl ⟨hsame, by simp⟩
    · exact Or.inr ⟨user, fd, sent, rfl, hset⟩
  · exact Or.inl ⟨sameUser_stopFirst _ sent i, by simp⟩
  · exact Or.inl ⟨sameUser_stopFirst _ sent i, by simp⟩
  · exact absurd hop id
  · rcases reset_userInfo u i with ⟨-, hindex, -⟩ | ⟨hmarked, hsame⟩
    · exact absurd hindex hi
    · change SameUser ((resetLiveModeUser u).userInfo i) _ ∧ _ ∨ _
      rw [hsame]
      exact Or.inl ⟨⟨rfl, rfl, rfl, id⟩, fun _ => hmarked⟩

section Gone

variable {k : (Fin videoEncodeMaxNum → LivesUserAddr) → ℤ → Prop}

/-- The slots of those users are marked. -/
def Leaving (k : (Fin videoEncodeMaxNum → LivesUserAddr) → ℤ → Prop) (u : Users) : Prop :=
  ∀ i, (u.userInfo i).index ≠ -1 → k (u.userInfo i).livesUserAddr (u.userInfo i).userId →
    (u.userInfo i).marked

/-- Those users are in no slot. -/
def Gone (k : (Fin videoEncodeMaxNum → LivesUserAddr) → ℤ → Prop) (u : Users) : Prop :=
  ∀ i, (u.userInfo i).index ≠ -1 → ¬ k (u.userInfo i).livesUserAddr (u.userInfo i).userId

/-- The request sets one of those users. -/
def UserOp.Sets (k : (Fin videoEncodeMaxNum → LivesUserAddr) → ℤ → Prop) (op : UserOp) : Prop :=
  ∃ user fd sent, op = .set user fd sent ∧ k user.livesUserAddr user.userId

/-- A taken slot of one of those users, who is not set by the step, was there before. -/
theorem slot_of_not_sets {op : UserOp} (hop : op.Proper) (hsets : ¬ op.Sets k)
    {i : Fin videoUserMaxNum} (hi : ((userStep u op).1.userInfo i).index ≠ -1)
    (hk : k ((userStep u op).1.userInfo i).livesUserAddr ((userStep u op).1.userInfo i).userId) :
    SameUser ((userStep u op).1.userInfo i) (u.userInfo i) ∧
      (op = .reset → ¬ (u.userInfo i).marked) := by
  refine (slot_step hop hi).resolve_right ?_
  rintro ⟨user, fd, sent, heq, haddr, hid⟩
  rw [haddr, hid] at hk
  exact hsets ⟨user, fd, sent, heq, hk⟩

/-- **Whoever is leaving** is not set again and leaves, at the latest when the thread frees. -/
theorem Leaving.step (h : Leaving k u) {op : UserOp} (hop : op.Proper) (hsets : ¬ op.Sets k) :
    Leaving k (userStep u op).1 ∧ (op = .reset → Gone k (userStep u op).1) := by
  have hmarked : ∀ i, SameUser ((userStep u op).1.userInfo i) (u.userInfo i) →
      ((userStep u op).1.userInfo i).index ≠ -1 →
      k ((userStep u op).1.userInfo i).livesUserAddr ((userStep u op).1.userInfo i).userId →
      (u.userInfo i).marked := by
    rintro i ⟨hindex, haddr, hid, -⟩ hi hk
    rw [hindex] at hi
    rw [haddr, hid] at hk
    exact h i hi hk
  refine ⟨fun i hi hk => ?_, fun hreset i hi hk => ?_⟩
  · obtain ⟨hsame, -⟩ := slot_of_not_sets hop hsets hi hk
    exact hsame.2.2.2 (hmarked i hsame hi hk)
  · obtain ⟨hsame, hnot⟩ := slot_of_not_sets hop hsets hi hk
    exact hnot hreset (hmarked i hsame hi hk)

theorem Gone.step (h : Gone k u) {op : UserOp} (hop : op.Proper) (hsets : ¬ op.Sets k) :
    Gone k (userStep u op).1 := by
  intro i hi hk
  obtain ⟨⟨hindex, haddr, hid, -⟩, -⟩ := slot_of_not_sets hop hsets hi hk
  rw [hindex] at hi
  rw [haddr, hid] at hk
  exact h i hi hk

/-- Whoever is stopped is leaving. -/
theorem leaving_of_stop {op : UserOp} (h : u.Proper) (hop : op.Proper) (hheeded : Heeded u op)
    (hsucc : (userStep u op).2 = operationSucc)
    (hk : ∀ user : LivesUserInfo, k user.livesUserAddr user.userId → op.stops user) :
    Leaving k (userStep u op).1 := by
  -- Whatever slot a request of this kind finds, the others it could have found are marked.
  have hfirst : ∀ sent, (stopFirst op.stops sent u).2 = operationSucc →
      (∀ i ∈ u.first op.stops, u.userNum ≠ 0 → ∀ j ≠ i, op.stops (u.userInfo j) →
        (u.userInfo j).marked) → Leaving k (stopFirst op.stops sent u).1 := by
    intro sent hsucc hothers i hi hki
    have hstops := hk _ hki
    rcases stopFirst_cases op.stops sent u with ⟨-, heq⟩ | ⟨hnum, j, hfirst, heq⟩
    · rw [heq] at hsucc
      exact absurd (show operationErr = operationSucc from hsucc) (by decide)
    · rw [heq] at hstops ⊢
      rcases eq_or_ne i j with rfl | hne
      · rw [put_self]
        rfl
      · rw [put_of_ne hne] at hstops ⊢
        exact hothers j hfirst hnum i hne hstops
  rcases op with ⟨user, fd, sent⟩ | ⟨user, sent⟩ | ⟨userId, sent⟩ | sent | _
  · exact fun i _ hki => absurd (hk _ hki) (by simp [UserOp.stops])
  · refine hfirst sent hsucc fun i hi _ j hne hj => absurd ?_ hne
    have hi := Users.first_spec hi
    have haddr := compareUserInfo_eq_zero_iff.mp (of_decide_eq_true hi)
    have haddr' := compareUserInfo_eq_zero_iff.mp (of_decide_eq_true hj)
    exact (h.single i j (h.index_ne hop hi) (haddr.symm.trans haddr')).symm
  · exact hfirst sent hsucc fun i hi hnum j hne hj => hheeded hnum i hi j hne (of_decide_eq_true hj)
  · exact absurd hop id
  · exact fun i _ hki => absurd (hk _ hki) (by simp [UserOp.stops])

end Gone

/-! ### Runs -/

/-- **A user stays until he is stopped, and is gone then.** In a run of requests that are all heeded: a
user who was set, and is not stopped after that, is in a slot; and whoever is stopped, and not set
after that, is in no slot once the thread has freed what is marked. -/
theorem stays_until_stopped (memory : Fin videoUserMaxNum → LivesUserInfo) (ops : List UserOp)
    (hproper : ∀ op ∈ ops, op.Proper) (hheeded : Run.Along userStep Heeded (.init memory) ops) :
    (∀ pre user fd sent post, ops = pre ++ .set user fd sent :: post →
        (userStep (Run.final userStep (.init memory) pre) (.set user fd sent)).2 = operationSucc →
        (∀ op ∈ post, op.stops user = false) →
        ∃ i, ((Run.final userStep (.init memory) ops).userInfo i).index ≠ -1 ∧
          ((Run.final userStep (.init memory) ops).userInfo i).livesUserAddr =
            user.livesUserAddr) ∧
      ∀ pre op post, ops = pre ++ op :: post →
        (userStep (Run.final userStep (.init memory) pre) op).2 = operationSucc →
        ∀ k : (Fin videoEncodeMaxNum → LivesUserAddr) → ℤ → Prop,
          (∀ user : LivesUserInfo, k user.livesUserAddr user.userId → op.stops user) →
          (∀ op ∈ post, ¬ op.Sets k) → .reset ∈ post →
          Gone k (Run.final userStep (.init memory) ops) := by
  have hproper_final : ∀ pre, (∀ op ∈ pre, op.Proper) →
      (Run.final userStep (.init memory) pre).Proper := fun pre hpre =>
    Run.final_invariant (fun u hu op hop => hu.step (hpre op hop)) (proper_init memory)
  constructor
  · rintro pre user fd sent post rfl hsucc hstops
    have hpre := hproper_final pre fun op hop => hproper op (List.mem_append_left _ hop)
    have hset := hproper _ (List.mem_append_right _ (List.mem_cons_self ..))
    have hheed := ((Run.along_append _ _ _).mp hheeded).2.1
    have hstays := stays_of_set hpre hset.1 hheed hsucc
    have hfinal : Stays user (Run.final userStep
        (setLivesUserInfo user fd sent (Run.final userStep (.init memory) pre)).1 post) :=
      Run.final_invariant (fun u hu op hop => hu.step (hproper op
        (List.mem_append_right _ (List.mem_cons_of_mem _ hop))) (hstops op hop)) hstays
    rw [Run.final_append, Run.final_cons]
    obtain ⟨i, hindex, haddr, -⟩ := hfinal
    exact ⟨i, hindex, haddr⟩
  · rintro pre op post rfl hsucc k hk hsets hreset
    have hpre := hproper_final pre fun op hop => hproper op (List.mem_append_left _ hop)
    have hheed := ((Run.along_append _ _ _).mp hheeded).2.1
    have hop := hproper op (List.mem_append_right _ (List.mem_cons_self ..))
    have hleaving := leaving_of_stop hpre hop hheed hsucc hk
    have hpost : ∀ op ∈ post, op.Proper := fun op hop =>
      hproper op (List.mem_append_right _ (List.mem_cons_of_mem _ hop))
    obtain ⟨before, after, rfl⟩ := List.append_of_mem hreset
    rw [Run.final_append, Run.final_cons, Run.final_append, Run.final_cons]
    have hbefore := Run.final_invariant (I := Leaving k)
      (fun u hu op' hop' => (Leaving.step hu (hpost op' (List.mem_append_left _ hop'))
        (hsets op' (List.mem_append_left _ hop'))).1) hleaving
    have hmem : UserOp.reset ∈ before ++ UserOp.reset :: after :=
      List.mem_append_right _ (List.mem_cons_self ..)
    have hgone := (hbefore.step (hpost _ hmem) (hsets _ hmem)).2 rfl
    have hlater : ∀ op' ∈ after, op' ∈ before ++ UserOp.reset :: after := fun op' hop' =>
      List.mem_append_right _ (List.mem_cons_of_mem _ hop')
    exact Run.final_invariant (I := Gone k) (fun u hu op' hop' =>
      Gone.step hu (hpost op' (hlater op' hop')) (hsets op' (hlater op' hop'))) hgone

/-- Two users are set, and one is stopped by his id. -/
theorem stays_until_stopped_sample :
    let ops : List UserOp := [.set (viewer 7 4000) 3 true, .set (viewer 8 4002) 4 true,
      .stopUnusual 7 true, .reset]
    (∀ pre user' fd sent post, ops = pre ++ .set user' fd sent :: post →
        (userStep (Run.final userStep (.init fun _ => viewer 7 4000) pre) (.set user' fd sent)).2 =
          operationSucc →
        (∀ op ∈ post, op.stops user' = false) →
        ∃ i, ((Run.final userStep (.init fun _ => viewer 7 4000) ops).userInfo i).index ≠ -1 ∧
          ((Run.final userStep (.init fun _ => viewer 7 4000) ops).userInfo i).livesUserAddr =
            user'.livesUserAddr) ∧
      ∀ pre op post, ops = pre ++ op :: post →
        (userStep (Run.final userStep (.init fun _ => viewer 7 4000) pre) op).2 = operationSucc →
        ∀ k : (Fin videoEncodeMaxNum → LivesUserAddr) → ℤ → Prop,
          (∀ user' : LivesUserInfo, k user'.livesUserAddr user'.userId → op.stops user') →
          (∀ op ∈ post, ¬ op.Sets k) → .reset ∈ post →
          Gone k (Run.final userStep (.init fun _ => viewer 7 4000) ops) :=
  stays_until_stopped _ _ (by decide +kernel) (by decide +kernel)

/-- A user is set, stopped and set again before the thread frees his slot: he was set, and is in no
slot. -/
theorem set_again_is_lost :
    let before : List UserOp := [.set (viewer 7 4000) 3 true, .stop (viewer 7 4000) true]
    let s := Run.final userStep (.init fun _ => viewer 7 4000) before
    (userStep s (.set (viewer 7 4000) 3 true)).2 = operationSucc ∧
      ∀ i, ((Run.final userStep s [.set (viewer 7 4000) 3 true, .reset]).userInfo i).index = -1 := by
  decide +kernel

end Lives

end ReachEdukit
