import ReachEdukit.Lives.MediaBuffer

/-!
# Who is sent the picture that is kept

A user who comes when the picture has been sent is sent the one that is kept. `get_send_userinfo_jpeg`
goes over the slots with an index and a pointer. The index goes on in every turn; the pointer goes on
only where the slot is taken, other than in `get_send_userinfo`. So it stops at the first free slot, and
no user behind that one is found: as long as the slot is free, they get no picture.

## Main definitions

* `jpegLoop` — the loop, with its pointer
* `SelectsUnsent` — whom it should find
* `NoneBehindFree` — nobody who is still to be sent the picture is behind a free slot

## Main results

* `jpegLoop_eq` — whom it finds
* `catchUp_iff` — when those are the right ones, and everybody has the picture afterwards
-/

namespace ReachEdukit

namespace Lives

/-- An entry of `video_send_user_t`. -/
structure SendUser where
  /-- Where the stream is sent. -/
  userAddrInfo : LivesUserAddr
  /-- The socket. -/
  udpFd : ℤ
  /-- The slot. -/
  userAddr : Fin videoUserMaxNum

/-- The entry of a slot, for a stream. -/
def Users.sendUser (u : Users) (videoSindex : Fin videoEncodeMaxNum) (i : Fin videoUserMaxNum) :
    SendUser :=
  ⟨(u.userInfo i).livesUserAddr videoSindex, (u.userInfo i).dataUdpFd, i⟩

/-- The loop of `get_send_userinfo_jpeg`, for so many turns; `temp_user` points to the first of the
slots. -/
def jpegLoop (u : Users) (videoSindex : Fin videoEncodeMaxNum) :
    ℕ → List (Fin videoUserMaxNum) → List SendUser
  | 0, _ => []
  | _, [] => []
  | turns + 1, i :: slots =>
    if (u.userInfo i).index ≠ -1 then
      (if (u.userInfo i).videoJpegFlag = 0 then [u.sendUser videoSindex i] else []) ++
        jpegLoop u videoSindex turns slots
    else jpegLoop u videoSindex turns (i :: slots)

/-- The user of the slot is still to be sent the picture. -/
def Users.Unsent (u : Users) (i : Fin videoUserMaxNum) : Prop :=
  (u.userInfo i).taken ∧ (u.userInfo i).videoJpegFlag = 0

instance (u : Users) (i : Fin videoUserMaxNum) : Decidable (u.Unsent i) :=
  inferInstanceAs (Decidable (_ ∧ _))

/-- The entries are those of the users who are still to be sent the picture, each once, and with what
is in its slot. -/
structure SelectsUnsent (u : Users) (videoSindex : Fin videoEncodeMaxNum) (users : List SendUser) :
    Prop where
  /-- No slot is there twice. -/
  nodup : (users.map SendUser.userAddr).Nodup
  /-- Those are the slots. -/
  mem_iff : ∀ i, i ∈ users.map SendUser.userAddr ↔ u.Unsent i
  /-- An entry has the address and the socket of its slot. -/
  own : ∀ e ∈ users, e = u.sendUser videoSindex e.userAddr

/-- Nobody who is still to be sent the picture is behind a free slot. -/
def NoneBehindFree (u : Users) : Prop := ∀ i j, i < j → ¬ (u.userInfo i).taken → ¬ u.Unsent j

instance (u : Users) : Decidable (NoneBehindFree u) :=
  inferInstanceAs (Decidable (∀ _ _, _))

variable {u : Users} {videoSindex : Fin videoEncodeMaxNum}

theorem taken_iff {user : LivesUserInfo} : user.taken ↔ user.index ≠ -1 := by
  rw [LivesUserInfo.taken, decide_eq_true_iff]

/-! ### The loop -/

/-- The pointer does not get over a free slot. -/
theorem jpegLoop_of_free {i : Fin videoUserMaxNum} (hfree : ¬ (u.userInfo i).taken)
    (turns : ℕ) (slots : List (Fin videoUserMaxNum)) :
    jpegLoop u videoSindex turns (i :: slots) = [] := by
  induction turns with
  | zero => rfl
  | succ turns ih => rw [jpegLoop, if_neg fun h => hfree (taken_iff.mpr h), ih]

/-- If there are turns enough, the loop finds those in front of the first free slot. -/
theorem jpegLoop_of_le {turns : ℕ} {slots : List (Fin videoUserMaxNum)}
    (hturns : slots.length ≤ turns) : jpegLoop u videoSindex turns slots =
      ((slots.takeWhile fun i => (u.userInfo i).taken).filter fun i =>
        (u.userInfo i).videoJpegFlag = 0).map (u.sendUser videoSindex) := by
  induction slots generalizing turns with
  | nil => cases turns <;> rfl
  | cons i slots ih =>
    obtain ⟨turns, rfl⟩ : ∃ n, turns = n + 1 := Nat.exists_eq_add_one.mpr (by
      rw [List.length_cons] at hturns
      omega)
    by_cases htaken : (u.userInfo i).taken
    · rw [jpegLoop, if_pos (taken_iff.mp htaken), ih (Nat.le_of_succ_le_succ hturns),
        List.takeWhile_cons, if_pos htaken, List.filter_cons]
      by_cases hflag : (u.userInfo i).videoJpegFlag = 0
      · rw [if_pos hflag, if_pos (decide_eq_true hflag), List.map_cons, List.singleton_append]
      · rw [if_neg hflag, if_neg fun h => hflag (of_decide_eq_true h), List.nil_append]
    · rw [jpegLoop_of_free htaken, List.takeWhile_cons, if_neg htaken]
      rfl

/-- **The loop** finds the slots of `getSendUserinfoJpeg`. -/
theorem jpegLoop_eq (u : Users) (videoSindex : Fin videoEncodeMaxNum) :
    jpegLoop u videoSindex videoUserMaxNum (List.finRange videoUserMaxNum) =
      (getSendUserinfoJpeg u).map (u.sendUser videoSindex) :=
  jpegLoop_of_le (List.length_finRange).le

/-! ### Free slots -/

/-- What is in front of all that fails a test. -/
theorem mem_takeWhile_iff {α : Type*} [LinearOrder α] {p : α → Bool} {l : List α}
    (hl : l.Pairwise (· < ·)) {a : α} :
    a ∈ l.takeWhile p ↔ a ∈ l ∧ ∀ b ∈ l, b ≤ a → p b := by
  induction l with
  | nil => simp
  | cons c l ih =>
    obtain ⟨hfirst, hl⟩ := List.pairwise_cons.mp hl
    by_cases hc : p c
    · rw [List.takeWhile_cons_of_pos hc, List.mem_cons, List.mem_cons, ih hl]
      constructor
      · rintro (rfl | ⟨hmem, hall⟩)
        · refine ⟨Or.inl rfl, fun b hb hle => ?_⟩
          obtain rfl | hb := List.mem_cons.mp hb
          · exact hc
          · exact absurd (hfirst b hb) (not_lt.mpr hle)
        · refine ⟨Or.inr hmem, fun b hb hle => ?_⟩
          obtain rfl | hb := List.mem_cons.mp hb
          · exact hc
          · exact hall b hb hle
      · rintro ⟨rfl | hmem, hall⟩
        · exact Or.inl rfl
        · exact Or.inr ⟨hmem, fun b hb => hall b (List.mem_cons_of_mem _ hb)⟩
    · rw [List.takeWhile_cons_of_neg hc]
      refine iff_of_false List.not_mem_nil ?_
      rintro ⟨hmem, hall⟩
      refine hc (hall c List.mem_cons_self ?_)
      obtain rfl | hmem := List.mem_cons.mp hmem
      · exact le_rfl
      · exact (hfirst a hmem).le

/-- Who is found: no slot in front is free. -/
theorem mem_getSendUserinfoJpeg {i : Fin videoUserMaxNum} :
    i ∈ getSendUserinfoJpeg u ↔ u.Unsent i ∧ ∀ j < i, (u.userInfo j).taken := by
  rw [getSendUserinfoJpeg, List.mem_filter, mem_takeWhile_iff (List.pairwise_lt_finRange _),
    decide_eq_true_iff, Users.Unsent]
  constructor
  · rintro ⟨⟨-, hall⟩, hflag⟩
    exact ⟨⟨hall i (List.mem_finRange i) le_rfl, hflag⟩,
      fun j hj => hall j (List.mem_finRange j) hj.le⟩
  · rintro ⟨⟨htaken, hflag⟩, hall⟩
    refine ⟨⟨List.mem_finRange i, fun j _ hj => ?_⟩, hflag⟩
    obtain rfl | hlt := hj.eq_or_lt
    · exact htaken
    · exact hall j hlt

/-- Those who are still to be sent the picture are found exactly when none is behind a free slot. -/
theorem forall_mem_iff_noneBehindFree :
    (∀ i, i ∈ getSendUserinfoJpeg u ↔ u.Unsent i) ↔ NoneBehindFree u := by
  constructor
  · intro hall i j hij hfree hunsent
    exact hfree ((mem_getSendUserinfoJpeg.mp ((hall j).mpr hunsent)).2 i hij)
  · intro hnone i
    rw [mem_getSendUserinfoJpeg]
    refine and_iff_left_of_imp fun hunsent j hj => ?_
    by_contra hfree
    exact hnone j i hj hfree hunsent

theorem map_userAddr_jpegLoop (u : Users) (videoSindex : Fin videoEncodeMaxNum) :
    (jpegLoop u videoSindex videoUserMaxNum (List.finRange videoUserMaxNum)).map SendUser.userAddr =
      getSendUserinfoJpeg u := by
  rw [jpegLoop_eq, List.map_map]
  exact List.map_id _

/-- **The right ones** are found exactly when none is behind a free slot. -/
theorem selectsUnsent_iff (u : Users) (videoSindex : Fin videoEncodeMaxNum) :
    SelectsUnsent u videoSindex
        (jpegLoop u videoSindex videoUserMaxNum (List.finRange videoUserMaxNum)) ↔
      NoneBehindFree u := by
  rw [← forall_mem_iff_noneBehindFree, ← map_userAddr_jpegLoop u videoSindex]
  constructor
  · exact fun h => h.mem_iff
  · intro hmem
    refine ⟨?_, hmem, ?_⟩
    · rw [map_userAddr_jpegLoop, getSendUserinfoJpeg]
      exact ((List.nodup_finRange _).sublist (List.takeWhile_sublist _)).filter _
    · intro e he
      rw [jpegLoop_eq] at he
      obtain ⟨i, -, rfl⟩ := List.mem_map.mp he
      rfl

/-! ### The picture -/

/-- After the picture was sent, the flag of those who were found is set. -/
theorem flag_dealVideoJpegData {s : LivesMode} (hvalid : s.jpegValidFlag = 0)
    (hbuf : s.jpegMsgbuf ≠ none) (hjpeg : getVideoSindex videoJpeg s.videoSindex ≠ none)
    (i : Fin videoUserMaxNum) :
    (dealVideoJpegData s).users.userInfo i = if i ∈ getSendUserinfoJpeg s.users then
      { s.users.userInfo i with videoJpegFlag := 1 } else s.users.userInfo i := by
  obtain ⟨b, hb⟩ := Option.ne_none_iff_exists'.mp hbuf
  obtain ⟨sindex, hsindex⟩ := Option.ne_none_iff_exists'.mp hjpeg
  rw [dealVideoJpegData, if_neg (not_not.mpr hvalid), hb, hsindex]
  by_cases hnobody : getSendUserinfoJpeg s.users = []
  · simp only [if_pos hnobody]
    rw [hnobody, if_neg List.not_mem_nil]
  · simp only [if_neg hnobody, sendVideoDataPdg, if_pos]

/-- **Everybody has the picture** exactly when none was behind a free slot. -/
theorem forall_not_unsent_iff {s : LivesMode} (hvalid : s.jpegValidFlag = 0)
    (hbuf : s.jpegMsgbuf ≠ none) (hjpeg : getVideoSindex videoJpeg s.videoSindex ≠ none) :
    (∀ i, ¬ (dealVideoJpegData s).users.Unsent i) ↔ NoneBehindFree s.users := by
  have hunsent : ∀ i, (dealVideoJpegData s).users.Unsent i ↔
      s.users.Unsent i ∧ i ∉ getSendUserinfoJpeg s.users := by
    intro i
    rw [Users.Unsent, flag_dealVideoJpegData hvalid hbuf hjpeg]
    split_ifs with hmem
    · refine iff_of_false ?_ fun h => h.2 hmem
      rintro ⟨-, hflag⟩
      exact one_ne_zero hflag
    · rw [Users.Unsent, and_iff_left hmem]
  rw [← forall_mem_iff_noneBehindFree]
  refine forall_congr' fun i => ?_
  rw [hunsent, not_and, not_not]
  exact ⟨fun h => ⟨fun hmem => (mem_getSendUserinfoJpeg.mp hmem).1, h⟩, Iff.mpr⟩

/-- **The catch-up.** `get_send_userinfo_jpeg` finds the users who are still to be sent the picture, and
`deal_video_jpeg_data` leaves none, exactly when none of them is behind a free slot. -/
theorem catchUp_iff (u : Users) (videoSindex : Fin videoEncodeMaxNum) :
    (SelectsUnsent u videoSindex
        (jpegLoop u videoSindex videoUserMaxNum (List.finRange videoUserMaxNum)) ↔
      NoneBehindFree u) ∧
      ∀ s : LivesMode, s.users = u → s.jpegValidFlag = 0 → s.jpegMsgbuf ≠ none →
        getVideoSindex videoJpeg s.videoSindex ≠ none →
        ((∀ i, ¬ (dealVideoJpegData s).users.Unsent i) ↔ NoneBehindFree u) := by
  refine ⟨selectsUnsent_iff u videoSindex, ?_⟩
  rintro s rfl hvalid hbuf hjpeg
  exact forall_not_unsent_iff hvalid hbuf hjpeg

/-- One user of the first stream, a picture that is kept, and an encoder of pictures. -/
theorem catchUp_iff_sample :
    (∀ i, ¬ (dealVideoJpegData ⟨true, oneUser, ⟨1, [⟨5, -1, videoJpeg⟩]⟩, 0, some 0, 1, []⟩).users.Unsent
      i) ↔ NoneBehindFree oneUser :=
  (catchUp_iff oneUser ⟨0, by decide⟩).2 _ rfl rfl (by decide) (by decide +kernel)

/-- A user in the second slot; the first one is free. -/
def secondUser : Users where
  userInfo i := if i.val = 1 then { viewer 7 4000 with index := 1, vaildFlag := 1 }
    else initLivesModeInfoEx (viewer 7 4000)
  userNum := 1

/-- **A user behind a free slot** is not found, and is left without the picture. -/
theorem not_selectsUnsent :
    ¬ SelectsUnsent secondUser ⟨0, by decide⟩
        (jpegLoop secondUser ⟨0, by decide⟩ videoUserMaxNum (List.finRange videoUserMaxNum)) ∧
      ∃ i, (dealVideoJpegData
        ⟨true, secondUser, ⟨1, [⟨5, -1, videoJpeg⟩]⟩, 0, some 0, 1, []⟩).users.Unsent i := by
  refine ⟨fun h => ?_, ⟨1, by decide⟩, by decide +kernel⟩
  have hfound := (h.mem_iff ⟨1, by decide⟩).mpr (by decide +kernel)
  rw [map_userAddr_jpegLoop] at hfound
  exact absurd hfound (by decide +kernel)

end Lives

end ReachEdukit
