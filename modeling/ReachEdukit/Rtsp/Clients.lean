import ReachEdukit.Lib.Run
import ReachEdukit.Lib.Slots

/-!
# The users of the RTSP server

The server has `MAX_RTSP_CLIENT_NUM` slots for its connections, and a counter for the guests, who
are not in the slots. Both kinds share one limit. `RtspTask` tests it before it looks for a slot, and
`rtsp_add_guest_user` before it counts; `rtsp_del_guest_user` tests nothing, so a guest who is taken
away after `rtsp_del_guest_user_all` is taken away twice, and the counter goes below zero.

Every operation is one step here; how they overlap is another file's matter. Of a slot, what the
functions of these files read is kept: its sockets and addresses are not.

## Main definitions

* `rtspGetNullClientIndex`, `rtspDelClient` — the slots
* `verdictGuestUserNum`, `rtspAddGuestUser`, `rtspDelGuestUser`, `rtspDelGuestUserAll` — the limit
* `LimitKept` — a run within the limit, with no refusal below it

## Main results

* `limitKept_iff_guestsLeaveOnce` — a run keeps the limit exactly when every guest who leaves came
  after the last time all of them were taken away
-/

namespace ReachEdukit

namespace Rtsp

/-- `MAX_RTSP_CLIENT_NUM`. -/
def maxRtspClientNum : ℕ := 5

/-- The kinds of client. -/
inductive ClientType
  | invalid
  | vlc
  | qt
  | stbTs
  deriving DecidableEq, Repr

/-- What `rtsp_porting_create_client` returns when it is not `NULL`. -/
abbrev Handle := ℕ

/-- A slot of `gRTSPCliPara`. -/
structure Slot where
  /-- The slot has a connection. -/
  used : Bool
  /-- The kind of its client. -/
  clientType : ClientType
  /-- The stream. -/
  roomid : ℤ
  /-- The handle, `none` for `NULL`. -/
  client : Option Handle
  deriving DecidableEq, Repr

/-- `gRTSPCliPara`. -/
abbrev Slots := Fin maxRtspClientNum → Slot

/-- `RtspThreadInit`. -/
def rtspThreadInit : Slots := fun _ => ⟨false, .vlc, -1, none⟩

/-- `RtspGetNullClientIndex`: `none` is `-1`. -/
def rtspGetNullClientIndex (slots : Slots) : Slots × Option (Fin maxRtspClientNum) :=
  match (List.finRange _).find? fun cli => !(slots cli).used with
  | some cli =>
    (Function.update slots cli { slots cli with used := true, clientType := .vlc }, some cli)
  | none => (slots, none)

/-- `RtspGetClientNum`. -/
def rtspGetClientNum (slots : Slots) : ℕ := Slots.count Slot.used slots

/-- How `RtspDelClient` gives a slot back; its handle is closed after that. -/
def Slot.free (s : Slot) : Slot := { s with used := false, roomid := -1 }

/-- `RtspDelClient`, as one step. -/
def rtspDelClient (slots : Slots) (nPos : Fin maxRtspClientNum) : Slots :=
  Function.update slots nPos { (slots nPos).free with clientType := .vlc, client := none }

/-! ### The limit -/

/-- The slots and `g_guest_user_num`. -/
structure Users where
  /-- `gRTSPCliPara`. -/
  slots : Slots
  /-- `g_guest_user_num`. -/
  guestUserNum : ℤ

/-- Nobody. -/
def Users.init : Users := ⟨rtspThreadInit, 0⟩

/-- All that use the server. -/
def Users.total (u : Users) : ℤ := u.guestUserNum + rtspGetClientNum u.slots

/-- What a function returns, with the two numbers that it writes. -/
structure UserNum where
  /-- `0` or `-1`. -/
  ret : ℤ
  /-- The connections. -/
  rtspUserNum : ℕ
  /-- The guests. -/
  guestUserNum : ℤ
  deriving DecidableEq, Repr

/-- `verdict_guest_user_num`. -/
def verdictGuestUserNum (u : Users) : UserNum where
  ret := if u.guestUserNum + rtspGetClientNum u.slots > maxRtspClientNum - 1 then -1 else 0
  rtspUserNum := rtspGetClientNum u.slots
  guestUserNum := u.guestUserNum

/-- `rtsp_add_guest_user`. -/
def rtspAddGuestUser (u : Users) : Users × UserNum :=
  if u.guestUserNum + rtspGetClientNum u.slots < maxRtspClientNum then
    ({ u with guestUserNum := u.guestUserNum + 1 },
      ⟨0, rtspGetClientNum u.slots, u.guestUserNum + 1⟩)
  else (u, ⟨-1, rtspGetClientNum u.slots, u.guestUserNum⟩)

/-- `rtsp_del_guest_user`. -/
def rtspDelGuestUser (u : Users) : Users × UserNum :=
  ({ u with guestUserNum := u.guestUserNum - 1 },
    ⟨0, rtspGetClientNum u.slots, u.guestUserNum - 1⟩)

/-- `rtsp_del_guest_user_all`. -/
def rtspDelGuestUserAll (u : Users) : Users × UserNum :=
  ({ u with guestUserNum := 0 }, ⟨0, rtspGetClientNum u.slots, 0⟩)

/-- A connection that `RtspTask` has accepted: its slot, `none` when it is refused. -/
def rtspTaskAccept (u : Users) : Users × Option (Fin maxRtspClientNum) :=
  if (verdictGuestUserNum u).ret = -1 then (u, none)
  else
    let r := rtspGetNullClientIndex u.slots
    ({ u with slots := r.1 }, r.2)

/-- What happens to the users. -/
inductive UserOp
  /-- A connection comes. -/
  | accept
  /-- The connection of this slot exits. -/
  | exit (nPos : Fin maxRtspClientNum)
  /-- `rtsp_add_guest_user`. -/
  | addGuest
  /-- `rtsp_del_guest_user`. -/
  | delGuest
  /-- `rtsp_del_guest_user_all`. -/
  | delAll
  deriving DecidableEq, Repr

/-- One operation, and whether it was refused. -/
def userStep (u : Users) : UserOp → Users × Bool
  | .accept => ((rtspTaskAccept u).1, (rtspTaskAccept u).2.isNone)
  | .exit nPos => ({ u with slots := rtspDelClient u.slots nPos }, false)
  | .addGuest => ((rtspAddGuestUser u).1, decide ((rtspAddGuestUser u).2.ret = -1))
  | .delGuest => ((rtspDelGuestUser u).1, decide ((rtspDelGuestUser u).2.ret = -1))
  | .delAll => ((rtspDelGuestUserAll u).1, decide ((rtspDelGuestUserAll u).2.ret = -1))

/-! ### Runs -/

/-- No guests below zero, and no users above the limit. -/
def WithinLimit (u : Users) : Prop := 0 ≤ u.guestUserNum ∧ u.total ≤ maxRtspClientNum

instance (u : Users) : Decidable (WithinLimit u) := inferInstanceAs (Decidable (_ ∧ _))

/-- One operation keeps the limit: it leaves the users within it, and it is refused only when they
have reached it. -/
def KeepsLimit (u : Users) (op : UserOp) : Prop :=
  WithinLimit (userStep u op).1 ∧ ((userStep u op).2 = true → maxRtspClientNum ≤ u.total)

instance (u : Users) (op : UserOp) : Decidable (KeepsLimit u op) :=
  inferInstanceAs (Decidable (_ ∧ _))

/-- Every operation of the run keeps the limit. -/
def LimitKept (ops : List UserOp) : Prop :=
  WithinLimit .init ∧ Run.Along userStep KeepsLimit .init ops

instance (ops : List UserOp) : Decidable (LimitKept ops) := inferInstanceAs (Decidable (_ ∧ _))

/-- The guests who came after the last `rtsp_del_guest_user_all` and have not left. -/
def guestsPresent (present : ℕ) : UserOp → Bool → ℕ
  | .addGuest, false => present + 1
  | .delGuest, _ => present - 1
  | .delAll, _ => 0
  | _, _ => present

/-- The users, and beside them the guests who are present. -/
def countedStep (s : Users × ℕ) (op : UserOp) : (Users × ℕ) × Bool :=
  (((userStep s.1 op).1, guestsPresent s.2 op (userStep s.1 op).2), (userStep s.1 op).2)

/-- A guest who leaves is present. -/
def LeavesOnce (s : Users × ℕ) (op : UserOp) : Prop := op = .delGuest → 0 < s.2

/-- Every guest who leaves is present. -/
def GuestsLeaveOnce (ops : List UserOp) : Prop :=
  Run.Along countedStep LeavesOnce (.init, 0) ops

/-! ### One operation -/

/-- Either a slot is free and is taken, or all of them have a connection. -/
theorem rtspGetNullClientIndex_cases (slots : Slots) :
    ((rtspGetNullClientIndex slots).2.isSome ∧
      rtspGetClientNum (rtspGetNullClientIndex slots).1 = rtspGetClientNum slots + 1) ∨
    (rtspGetNullClientIndex slots = (slots, none) ∧ rtspGetClientNum slots = maxRtspClientNum) := by
  simp only [rtspGetNullClientIndex]
  split
  · next cli hcli =>
    have hfree : (slots cli).used = false := by simpa using List.find?_some hcli
    have hcount := Slots.count_update Slot.used slots cli
      { slots cli with used := true, clientType := .vlc }
    rw [hfree] at hcount
    exact .inl ⟨rfl, hcount⟩
  · next hfull => exact .inr ⟨rfl, Slots.count_eq_of_find?_eq_none hfull⟩

/-- A connection that comes is given a slot below the limit, or it is refused at the limit or
because all slots have a connection. -/
theorem rtspTaskAccept_cases (u : Users) :
    ((rtspTaskAccept u).2.isSome ∧ u.total < maxRtspClientNum ∧
      (rtspTaskAccept u).1.total = u.total + 1 ∧
      (rtspTaskAccept u).1.guestUserNum = u.guestUserNum) ∨
    (rtspTaskAccept u = (u, none) ∧
      ((maxRtspClientNum : ℤ) ≤ u.total ∨ rtspGetClientNum u.slots = maxRtspClientNum)) := by
  by_cases hover : u.guestUserNum + rtspGetClientNum u.slots > maxRtspClientNum - 1
  · have hrefuse : rtspTaskAccept u = (u, none) := by
      rw [rtspTaskAccept, verdictGuestUserNum, if_pos hover, if_pos rfl]
    refine .inr ⟨hrefuse, .inl ?_⟩
    show (maxRtspClientNum : ℤ) ≤ u.guestUserNum + rtspGetClientNum u.slots
    omega
  · have hgo : rtspTaskAccept u =
        ({ u with slots := (rtspGetNullClientIndex u.slots).1 },
          (rtspGetNullClientIndex u.slots).2) := by
      rw [rtspTaskAccept, verdictGuestUserNum, if_neg hover, if_neg (show ¬(0 : ℤ) = -1 by decide)]
    rw [hgo]
    rcases rtspGetNullClientIndex_cases u.slots with ⟨hsome, hnum⟩ | ⟨hnone, hnum⟩
    · refine .inl ⟨hsome, ?_, ?_, rfl⟩
      · show u.guestUserNum + rtspGetClientNum u.slots < maxRtspClientNum
        omega
      · show u.guestUserNum + (rtspGetClientNum (rtspGetNullClientIndex u.slots).1 : ℤ) =
          u.guestUserNum + rtspGetClientNum u.slots + 1
        rw [hnum]
        push_cast
        omega
    · rw [hnone]
      exact .inr ⟨rfl, .inr hnum⟩

theorem rtspGetClientNum_rtspDelClient_le (slots : Slots) (nPos : Fin maxRtspClientNum) :
    rtspGetClientNum (rtspDelClient slots nPos) ≤ rtspGetClientNum slots := by
  have hcount := Slots.count_update Slot.used slots nPos
    { (slots nPos).free with clientType := .vlc, client := none }
  have hfree : Slot.used { (slots nPos).free with clientType := .vlc, client := none } = false :=
    rfl
  rw [hfree, Bool.toNat_false, Nat.add_zero] at hcount
  rw [rtspGetClientNum, rtspGetClientNum, rtspDelClient, ← hcount]
  exact Nat.le_add_right _ _

theorem keepsLimit_accept {u : Users} (hu : WithinLimit u) : KeepsLimit u .accept := by
  obtain ⟨hguests, htotal⟩ := hu
  rcases rtspTaskAccept_cases u with ⟨hsome, hlt, htotal', hguests'⟩ | ⟨hsame, hfull⟩
  · refine ⟨⟨hguests'.symm ▸ hguests, ?_⟩, ?_⟩
    · show (rtspTaskAccept u).1.total ≤ maxRtspClientNum
      omega
    · intro hrefused
      rw [userStep, Option.isNone_iff_eq_none] at hrefused
      rw [hrefused] at hsome
      cases hsome
  · refine ⟨?_, fun _ => ?_⟩
    · rw [userStep, hsame]
      exact ⟨hguests, htotal⟩
    · rcases hfull with hover | hfull
      · exact hover
      · show (maxRtspClientNum : ℤ) ≤ u.guestUserNum + rtspGetClientNum u.slots
        omega

theorem keepsLimit_exit {u : Users} (hu : WithinLimit u) (nPos : Fin maxRtspClientNum) :
    KeepsLimit u (.exit nPos) := by
  obtain ⟨hguests, htotal⟩ := hu
  refine ⟨⟨hguests, ?_⟩, fun h => absurd h Bool.false_ne_true⟩
  have hle := rtspGetClientNum_rtspDelClient_le u.slots nPos
  show u.guestUserNum + (rtspGetClientNum (rtspDelClient u.slots nPos) : ℤ) ≤ maxRtspClientNum
  rw [Users.total] at htotal
  omega

/-- A guest who comes is counted, or he is refused at the limit. -/
theorem rtspAddGuestUser_cases (u : Users) :
    (userStep u .addGuest = ({ u with guestUserNum := u.guestUserNum + 1 }, false) ∧
      u.total < maxRtspClientNum) ∨
    (userStep u .addGuest = (u, true) ∧ (maxRtspClientNum : ℤ) ≤ u.total) := by
  by_cases hroom : u.total < maxRtspClientNum
  · have hadd : rtspAddGuestUser u = ({ u with guestUserNum := u.guestUserNum + 1 },
        ⟨0, rtspGetClientNum u.slots, u.guestUserNum + 1⟩) := if_pos hroom
    rw [userStep, hadd]
    exact .inl ⟨rfl, hroom⟩
  · have hadd : rtspAddGuestUser u =
        (u, ⟨-1, rtspGetClientNum u.slots, u.guestUserNum⟩) := if_neg hroom
    rw [userStep, hadd]
    exact .inr ⟨rfl, not_lt.mp hroom⟩

theorem keepsLimit_addGuest {u : Users} (hu : WithinLimit u) : KeepsLimit u .addGuest := by
  obtain ⟨hguests, htotal⟩ := hu
  rcases rtspAddGuestUser_cases u with ⟨hadd, hroom⟩ | ⟨hfull, hover⟩
  · rw [KeepsLimit, hadd]
    refine ⟨⟨?_, ?_⟩, fun h => absurd h Bool.false_ne_true⟩
    · show 0 ≤ u.guestUserNum + 1
      omega
    · show u.guestUserNum + 1 + rtspGetClientNum u.slots ≤ (maxRtspClientNum : ℤ)
      rw [Users.total] at hroom
      omega
  · rw [KeepsLimit, hfull]
    exact ⟨⟨hguests, htotal⟩, fun _ => hover⟩

/-- A guest who leaves is taken from the counter whatever it is. -/
theorem keepsLimit_delGuest_iff {u : Users} (hu : WithinLimit u) :
    KeepsLimit u .delGuest ↔ 0 < u.guestUserNum := by
  have htotal : u.guestUserNum + rtspGetClientNum u.slots ≤ maxRtspClientNum := hu.2
  constructor
  · intro hkept
    have hguests : 0 ≤ u.guestUserNum - 1 := hkept.1.1
    omega
  · intro hguests
    refine ⟨⟨?_, ?_⟩, fun h => absurd h Bool.false_ne_true⟩
    · show 0 ≤ u.guestUserNum - 1
      omega
    · show u.guestUserNum - 1 + rtspGetClientNum u.slots ≤ (maxRtspClientNum : ℤ)
      omega

theorem keepsLimit_delAll (u : Users) : KeepsLimit u .delAll := by
  have hle : rtspGetClientNum u.slots ≤ maxRtspClientNum := Slots.count_le _ _
  refine ⟨⟨Int.le_refl 0, ?_⟩, fun h => absurd h Bool.false_ne_true⟩
  show (0 : ℤ) + rtspGetClientNum u.slots ≤ maxRtspClientNum
  omega

/-- From users within the limit, with the guests counted right, an operation keeps the limit exactly
when a guest who leaves is present. -/
theorem keepsLimit_iff {u : Users} (hu : WithinLimit u) {present : ℕ}
    (hpresent : u.guestUserNum = present) (op : UserOp) :
    KeepsLimit u op ↔ LeavesOnce (u, present) op := by
  rcases op with _ | nPos | _ | _ | _
  · exact iff_of_true (keepsLimit_accept hu) fun h => absurd h (by decide)
  · exact iff_of_true (keepsLimit_exit hu nPos) fun h => UserOp.noConfusion h
  · exact iff_of_true (keepsLimit_addGuest hu) fun h => absurd h (by decide)
  · rw [keepsLimit_delGuest_iff hu, hpresent, Int.natCast_pos]
    exact ⟨fun h _ => h, fun h => h rfl⟩
  · exact iff_of_true (keepsLimit_delAll u) fun h => absurd h (by decide)

/-- Then the guests are counted right again. -/
theorem guestUserNum_userStep {u : Users} {present : ℕ} (hpresent : u.guestUserNum = present)
    {op : UserOp} (hleaves : LeavesOnce (u, present) op) :
    (userStep u op).1.guestUserNum = guestsPresent present op (userStep u op).2 := by
  rcases op with _ | nPos | _ | _ | _
  · rcases rtspTaskAccept_cases u with ⟨-, -, -, hguests⟩ | ⟨hsame, -⟩
    · exact hguests.trans hpresent
    · rw [userStep, hsame]
      exact hpresent
  · exact hpresent
  · rcases rtspAddGuestUser_cases u with ⟨hadd, -⟩ | ⟨hfull, -⟩
    · rw [hadd]
      show u.guestUserNum + 1 = ((present + 1 : ℕ) : ℤ)
      omega
    · rw [hfull]
      exact hpresent
  · have hpos : 0 < present := hleaves rfl
    show u.guestUserNum - 1 = ((present - 1 : ℕ) : ℤ)
    omega
  · rfl

theorem along_keepsLimit_iff {u : Users} (hu : WithinLimit u) {present : ℕ}
    (hpresent : u.guestUserNum = present) (ops : List UserOp) :
    Run.Along userStep KeepsLimit u ops ↔ Run.Along countedStep LeavesOnce (u, present) ops := by
  induction ops generalizing u present with
  | nil => exact Iff.rfl
  | cons op ops ih =>
    show KeepsLimit u op ∧ _ ↔ LeavesOnce (u, present) op ∧ _
    rw [keepsLimit_iff hu hpresent op]
    refine and_congr_right fun hleaves => ?_
    have hkept : KeepsLimit u op := (keepsLimit_iff hu hpresent op).mpr hleaves
    exact ih hkept.1 (guestUserNum_userStep hpresent hleaves)

/-- **The limit of the users.** A run keeps the limit exactly when every guest who leaves is present:
came in after all of them were last taken away, and has not left since. -/
theorem limitKept_iff_guestsLeaveOnce (ops : List UserOp) :
    LimitKept ops ↔ GuestsLeaveOnce ops := by
  have hinit : WithinLimit .init := by decide
  rw [LimitKept, GuestsLeaveOnce, along_keepsLimit_iff hinit rfl]
  exact and_iff_right hinit

/-- A guest comes, all of them are taken away, and then he leaves: nothing is refused, and the
counter is below zero. -/
theorem guest_leaves_twice :
    Run.outs userStep .init [.addGuest, .delAll, .delGuest] = [false, false, false] ∧
      ¬ LimitKept [.addGuest, .delAll, .delGuest] := by
  decide

end Rtsp

end ReachEdukit
