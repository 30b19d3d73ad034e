import ReachEdukit.Lib.Slots
import ReachEdukit.Rtsp.Gate

/-!
# The number of TS clients

`g_ts_client_num` is one more after a `.ts` `DESCRIBE` that was answered, and one less when a connection
ends whose `client_flag` says TS. The two are not about the same thing: a connection may be answered more
than once, and every `DESCRIBE` writes the flag, also one that is refused or that is no longer about TS.

A connection that ends with the flag and was never answered takes the client of another away, or none when
the number is 0 already. One that ends without the flag and was answered stays in the number.

Every request is one step here, and so is the end of a connection; two threads that write the number at the
same time are left out.

## Main definitions

* `describeTs`, `handleTs` — a request, with `permissions` or without
* `Server`, `step` — the connections and the number
* `Meets` — the requests and the ends that keep the number

## Main results

* `handle_eq_handleTs` — with `permissions` it is the connection of `Gate`
* `counted_iff` — the number is right all along exactly when every step meets the condition
-/

namespace ReachEdukit

namespace Rtsp

namespace TsClients

open Scan

variable (env : Env) (permissions : Bool)

/-! ### A connection -/

/-- How a request ends. -/
inductive Outcome
  /-- The connection goes on. -/
  | stays
  /-- It goes on, and `ResponseDescribeTs` has answered. -/
  | answered
  /-- `ExitClientMsg`. -/
  | leaves
  deriving DecidableEq, Repr

/-- `authenticationOK`, when `permissions` asks for it. -/
def verdict (conn : Conn) (e : Arrival) : Text ⊕ Text :=
  if permissions then authenticationOK env (ascii "DESCRIBE") conn.aut e.request.text e.seed else .inl []

/-- The `DESCRIBE` of `RtspVlcContact` behind the verdict. -/
def afterVerdictTs (conn : Conn) (tsAnswered : Bool) : Text ⊕ Text → Conn × Outcome
  | .inr nonce => ({ conn with aut.nonce := nonce }, .stays)
  | .inl _ =>
    (conn, if conn.clientFlag ≠ .stbTs then .stays else if tsAnswered then .answered else .leaves)

/-- The `DESCRIBE` of `RtspVlcContact`: `none` when an address does not fit. -/
def describeTs (conn : Conn) (e : Arrival) : Option (Conn × Outcome) :=
  (rtspDescribeAuthentication env e.request.text conn).map fun p =>
    if p.2 then afterVerdictTs p.1 e.tsAnswered (verdict env permissions p.1 e) else (p.1, .leaves)

/-- One request in `RtspVlcContact`: `none` when an array has no room for it. -/
def handleTs (conn : Conn) (e : Arrival) : Option (Conn × Outcome) :=
  match getVlcMsgType env.conv e.request.text conn.strMsg with
  | none => none
  | some (strMsg, answer) =>
    match answer with
    | .nothing => some ({ conn with strMsg := strMsg }, .stays)
    | .noType => some ({ conn with strMsg := strMsg }, .leaves)
    | .type .describe => describeTs env permissions { conn with strMsg := strMsg } e
    | .type .setup =>
      let timeout := if conn.needTimeout then e.keepactive else noTimeout
      (responseSetup e.request.text timeout strMsg).map fun r => ({ conn with strMsg := r.1 }, .stays)
    | .type .play =>
      some ({ conn with strMsg := strMsg }, if HasVideoPort env strMsg then .stays else .leaves)
    | .type .teardown => some ({ conn with strMsg := strMsg }, .leaves)
    | .type .option | .type .pause | .type .announce | .type .getParameter | .type .setParameter =>
      some ({ conn with strMsg := strMsg }, .stays)

/-! ### The server -/

/-- A connected client. -/
structure Client where
  conn : Conn
  /-- A `.ts` `DESCRIBE` of it has been answered. -/
  answered : Bool

/-- A new one. -/
def Client.init : Client := ⟨.init, false⟩

/-- The connections, and `g_ts_client_num`. -/
structure Server (k : ℕ) where
  tsClientNum : ℤ
  clients : Fin k → Option Client

/-- `rtsp_ts_set_client_num`. -/
def rtspTsSetClientNum (tsClientNum flag : ℤ) : ℤ :=
  if tsClientNum + flag < 0 then 0 else tsClientNum + flag

variable {k : ℕ}

/-- At the start. -/
def Server.init : Server k := ⟨0, fun _ => none⟩

/-- `ExitClientMsg`. -/
def Server.leave (s : Server k) (i : Fin k) (conn : Conn) : Server k where
  tsClientNum := if conn.clientFlag = .stbTs then rtspTsSetClientNum s.tsClientNum (-1) else s.tsClientNum
  clients := Function.update s.clients i none

/-- What a request leaves. -/
def Server.after (s : Server k) (i : Fin k) (client : Client) (p : Conn × Outcome) : Server k :=
  match p.2 with
  | .stays => { s with clients := Function.update s.clients i (some { client with conn := p.1 }) }
  | .answered =>
    { tsClientNum := rtspTsSetClientNum s.tsClientNum 1
      clients := Function.update s.clients i (some ⟨p.1, true⟩) }
  | .leaves => s.leave i p.1

/-- What can happen. -/
inductive Event (k : ℕ)
  | connect (i : Fin k)
  | request (i : Fin k) (e : Arrival)
  /-- The connection ends for another reason than a request. -/
  | close (i : Fin k)

/-- One step. What happens to a connection that is not there changes nothing. -/
def step (s : Server k) : Event k → Option (Server k)
  | .connect i =>
    some (if (s.clients i).isSome then s else
      { s with clients := Function.update s.clients i (some .init) })
  | .request i e =>
    (s.clients i).elim (some s) fun client =>
      (handleTs env permissions client.conn e).map (s.after i client)
  | .close i => some ((s.clients i).elim s fun client => s.leave i client.conn)

/-! ### What is asked -/

/-- The connected clients that a `.ts` `DESCRIBE` has been answered to. -/
def Server.answered (s : Server k) : ℕ := Slots.count (fun c => c.any Client.answered) s.clients

/-- The number is that of these clients, and 0 when nobody is connected. -/
structure Server.Counted (s : Server k) : Prop where
  num : s.tsClientNum = s.answered
  none : (∀ i, s.clients i = none) → s.tsClientNum = 0

/-- `client_flag` behind a `DESCRIBE` with this text. -/
def describeFlag (text : Text) (clientFlag : ClientType) : ClientType :=
  if text.length < 17 then clientFlag
  else if ascii ".ts" <:+: text then .stbTs
  else if ascii "QuickTime" <:+: text then .qt
  else .vlc

/-- `client_flag` behind a request: only a `DESCRIBE` writes it. -/
def flagAfter (conn : Conn) (e : Arrival) : ClientType :=
  if Answer.of (requestType (e.request.text.length - 7) e.request.text) (cseqNumber env.conv e.request.text) =
      .type .describe then describeFlag e.request.text conn.clientFlag
  else conn.clientFlag

/-- A connection may end with this flag: it says TS when a `.ts` `DESCRIBE` has been answered and only then,
or nobody has been answered whom it would take away. -/
def FlagRight (s : Server k) (client : Client) (clientFlag : ClientType) : Prop :=
  (clientFlag = .stbTs ↔ client.answered = true) ∨ (clientFlag = .stbTs ∧ s.answered = 0)

/-- A `.ts` `DESCRIBE` is answered once for a connection, the flag is right when it ends, and no array
overflows. -/
def Meets (s : Server k) : Event k → Prop
  | .connect _ => True
  | .request i e => ∀ client, s.clients i = some client → ∃ p, handleTs env permissions client.conn e = some p ∧
      (p.2 = .answered → client.answered = false) ∧
      (p.2 = .leaves → FlagRight s client (flagAfter env client.conn e))
  | .close i => ∀ client, s.clients i = some client → FlagRight s client client.conn.clientFlag

variable {env permissions}

/-! ### The flag -/

/-- `rtsp_describe_authentication` writes the flag before anything can fail. -/
theorem clientFlag_describeAuthentication {text : Text} {conn conn' : Conn} {b : Bool}
    (h : rtspDescribeAuthentication env text conn = some (conn', b)) :
    conn'.clientFlag = describeFlag text conn.clientFlag := by
  rw [describeFlag]
  simp only [rtspDescribeAuthentication] at h
  by_cases hshort : text.length < 17
  · rw [if_pos hshort] at h ⊢
    obtain ⟨rfl, -⟩ := Prod.ext_iff.mp (Option.some.inj h)
    rfl
  · rw [if_neg hshort] at h ⊢
    split at h
    · obtain ⟨rfl, -⟩ := Prod.ext_iff.mp (Option.some.inj h)
      rfl
    · split at h
      · obtain ⟨rfl, -⟩ := Prod.ext_iff.mp (Option.some.inj h)
        rfl
      · split at h
        · obtain ⟨rfl, -⟩ := Prod.ext_iff.mp (Option.some.inj h)
          rfl
        · split at h
          · cases h
          · split at h
            · obtain ⟨rfl, -⟩ := Prod.ext_iff.mp (Option.some.inj h)
              rfl
            · obtain ⟨rfl, -⟩ := Prod.ext_iff.mp (Option.some.inj h)
              rfl

theorem clientFlag_describeTs {conn : Conn} {e : Arrival} {p : Conn × Outcome}
    (h : describeTs env permissions conn e = some p) :
    p.1.clientFlag = describeFlag e.request.text conn.clientFlag := by
  obtain ⟨⟨conn', b⟩, hread, rfl⟩ := Option.map_eq_some_iff.mp h
  rw [← clientFlag_describeAuthentication hread]
  cases b with
  | false => rfl
  | true =>
    change (afterVerdictTs conn' e.tsAnswered (verdict env permissions conn' e)).1.clientFlag = conn'.clientFlag
    cases verdict env permissions conn' e <;> rfl

/-- **The flag behind a request.** -/
theorem clientFlag_handleTs {conn : Conn} {e : Arrival} {p : Conn × Outcome}
    (h : handleTs env permissions conn e = some p) : p.1.clientFlag = flagAfter env conn e := by
  rw [handleTs, getVlcMsgType_eq] at h
  cases hseq : getCSeq env.conv e.request.text conn.strMsg with
  | none =>
    rw [hseq] at h
    cases h
  | some strMsg =>
    rw [hseq, Option.map_some] at h
    rw [flagAfter]
    generalize Answer.of (requestType (e.request.text.length - 7) e.request.text)
      (cseqNumber env.conv e.request.text) = answer at h ⊢
    rcases answer with _ | _ | t
    · obtain rfl := Option.some.inj h
      rfl
    · obtain rfl := Option.some.inj h
      rfl
    · cases t with
      | describe =>
        change describeTs env permissions { conn with strMsg := strMsg } e = some p at h
        exact (clientFlag_describeTs h).trans (if_pos rfl).symm
      | setup =>
        obtain ⟨r, -, rfl⟩ := Option.map_eq_some_iff.mp h
        rfl
      | play | teardown | option | pause | announce | getParameter | setParameter =>
        obtain rfl := Option.some.inj h
        rfl

/-- **With `permissions`** the connection is the one whose gate is known. -/
theorem handle_eq_handleTs (conn : Conn) (e : Arrival) : (handle env conn e).1 =
    (handleTs env true conn e).bind fun p => if p.2 = .leaves then none else some p.1 := by
  rw [handle, handleTs]
  cases getVlcMsgType env.conv e.request.text conn.strMsg with
  | none => rfl
  | some p =>
    obtain ⟨strMsg, answer⟩ := p
    rcases answer with _ | _ | t
    · rfl
    · rfl
    · cases t with
      | describe =>
        change (describe env { conn with strMsg := strMsg } e).1 =
          (describeTs env true { conn with strMsg := strMsg } e).bind _
        rw [describe, describeTs]
        cases rtspDescribeAuthentication env e.request.text { conn with strMsg := strMsg } with
        | none => rfl
        | some p =>
          obtain ⟨conn', b⟩ := p
          cases b with
          | false => rfl
          | true =>
            change (afterVerdict conn' e.tsAnswered
              (authenticationOK env (ascii "DESCRIBE") conn'.aut e.request.text e.seed)).1 =
                (some (afterVerdictTs conn' e.tsAnswered
                  (authenticationOK env (ascii "DESCRIBE") conn'.aut e.request.text e.seed))).bind _
            cases authenticationOK env (ascii "DESCRIBE") conn'.aut e.request.text e.seed with
            | inr nonce => rfl
            | inl response =>
              rw [Option.bind_some, afterVerdict, afterVerdictTs]
              by_cases hflag : conn'.clientFlag = .stbTs
              · cases hanswered : e.tsAnswered with
                | false => simp [hflag]
                | true => simp [hflag]
              · simp [hflag]
      | setup =>
        change Option.map _ _ = (Option.map _ _).bind _
        cases responseSetup e.request.text (if conn.needTimeout then e.keepactive else noTimeout) strMsg <;> rfl
      | play =>
        change (afterAdd { conn with strMsg := strMsg } (rtspAddClient env strMsg)).1 = Option.bind (some _) _
        rw [rtspAddClient, Option.bind_some]
        by_cases hport : HasVideoPort env strMsg
        · rw [if_pos hport, if_pos hport]
          rfl
        · rw [if_neg hport, if_neg hport]
          rfl
      | teardown | option | pause | announce | getParameter | setParameter => rfl

/-! ### One step -/

variable {s : Server k} {i : Fin k} {client : Client}

/-- A client counts when it has been answered. -/
theorem answered_update (s : Server k) (i : Fin k) (c : Option Client) :
    Slots.count (fun c => c.any Client.answered) (Function.update s.clients i c) +
      ((s.clients i).any Client.answered).toNat = s.answered + (c.any Client.answered).toNat :=
  Slots.count_update _ _ _ _

theorem counted_iff_num : s.Counted ↔ s.tsClientNum = s.answered := by
  refine ⟨fun h => h.num, fun h => ⟨h, fun hnone => ?_⟩⟩
  have hzero : s.answered = 0 := Slots.count_eq_zero fun i => by rw [hnone i]; rfl
  rw [h, hzero]
  rfl

/-- One more is never below zero. -/
theorem rtspTsSetClientNum_one (n : ℕ) : rtspTsSetClientNum n 1 = n + 1 := by
  rw [rtspTsSetClientNum, if_neg (by omega)]

/-- One less than none is none. -/
theorem rtspTsSetClientNum_neg_one (n : ℕ) : rtspTsSetClientNum n (-1) = (n - 1 : ℕ) := by
  rw [rtspTsSetClientNum]
  split_ifs <;> omega

/-- **The end of a connection** keeps the number when its flag is right. -/
theorem counted_leave_iff (hs : s.Counted) (hi : s.clients i = some client) (conn : Conn) :
    (s.leave i conn).Counted ↔ FlagRight s client conn.clientFlag := by
  have hcount := answered_update s i none
  rw [hi, Option.any_some, Option.any_none, Bool.toNat_false, Nat.add_zero] at hcount
  change (s.leave i conn).answered + client.answered.toNat = s.answered at hcount
  have hnum : (s.leave i conn).tsClientNum = if conn.clientFlag = .stbTs then ((s.answered - 1 : ℕ) : ℤ)
      else (s.answered : ℤ) := by
    rw [Server.leave, hs.num, rtspTsSetClientNum_neg_one]
  rw [counted_iff_num, hnum, FlagRight]
  cases hanswered : client.answered with
  | true =>
    rw [hanswered, Bool.toNat_true] at hcount
    split_ifs with hflag
    · refine iff_of_true (by omega) (.inl ⟨fun _ => rfl, fun _ => hflag⟩)
    · refine iff_of_false (by omega) ?_
      rintro (h | ⟨h, -⟩)
      · exact hflag (h.mpr rfl)
      · exact hflag h
  | false =>
    rw [hanswered, Bool.toNat_false, Nat.add_zero] at hcount
    split_ifs with hflag
    · constructor
      · intro h
        exact .inr ⟨hflag, by omega⟩
      · rintro (h | ⟨-, hzero⟩)
        · exact (h.mp hflag).elim
        · omega
    · exact iff_of_true (by omega) (.inl ⟨fun h => absurd h hflag, False.elim⟩)

/-- What a request that does not end the connection does to the count. -/
theorem answered_after (hi : s.clients i = some client) (conn : Conn) :
    (s.after i client (conn, .stays)).answered = s.answered ∧
      (s.after i client (conn, .answered)).answered + client.answered.toNat = s.answered + 1 := by
  have hstays := answered_update s i (some { client with conn := conn })
  have hanswered := answered_update s i (some ⟨conn, true⟩)
  rw [hi, Option.any_some, Option.any_some] at hstays hanswered
  exact ⟨Nat.add_right_cancel hstays, hanswered⟩

/-- **A request** keeps the number when it meets the condition. -/
theorem counted_after_iff (hs : s.Counted) (hi : s.clients i = some client) (p : Conn × Outcome) :
    (s.after i client p).Counted ↔
      (p.2 = .answered → client.answered = false) ∧ (p.2 = .leaves → FlagRight s client p.1.clientFlag) := by
  obtain ⟨conn, outcome⟩ := p
  obtain ⟨hstays, hanswered⟩ := answered_after hi conn
  cases outcome with
  | stays =>
    rw [counted_iff_num, hstays]
    exact iff_of_true hs.num ⟨fun h => Outcome.noConfusion h, fun h => Outcome.noConfusion h⟩
  | answered =>
    have hnum : (s.after i client (conn, .answered)).tsClientNum = s.answered + 1 := by
      change rtspTsSetClientNum s.tsClientNum 1 = _
      rw [hs.num, rtspTsSetClientNum_one]
    rw [counted_iff_num, hnum]
    constructor
    · intro h
      refine ⟨fun _ => ?_, fun h => Outcome.noConfusion h⟩
      cases hclient : client.answered with
      | false => rfl
      | true =>
        rw [hclient, Bool.toNat_true] at hanswered
        omega
    · rintro ⟨h, -⟩
      rw [h rfl, Bool.toNat_false] at hanswered
      omega
  | leaves =>
    refine (counted_leave_iff hs hi conn).trans ⟨fun h => ⟨fun hne => Outcome.noConfusion hne, fun _ => h⟩, ?_⟩
    exact fun h => h.2 rfl

/-- **One step** from where the number is right leads to where it is right exactly when it meets the
condition. -/
theorem counted_step_iff (hs : s.Counted) (ev : Event k) :
    (∃ s', step env permissions s ev = some s' ∧ s'.Counted) ↔ Meets env permissions s ev := by
  cases ev with
  | connect i =>
    refine iff_of_true ⟨_, rfl, ?_⟩ trivial
    split_ifs with htaken
    · exact hs
    · have hcount := answered_update s i (some .init)
      rw [Option.not_isSome_iff_eq_none.mp htaken] at hcount
      rw [counted_iff_num]
      exact hs.num.trans (congrArg Nat.cast hcount.symm)
  | request i e =>
    rw [step, Meets]
    cases hi : s.clients i with
    | none => exact iff_of_true ⟨s, rfl, hs⟩ fun client h => absurd h (Option.some_ne_none client).symm
    | some client =>
      rw [Option.elim_some]
      constructor
      · rintro ⟨s', hs', hcounted⟩ client' hclient'
        obtain rfl := Option.some.inj hclient'
        obtain ⟨p, hp, rfl⟩ := Option.map_eq_some_iff.mp hs'
        rw [← clientFlag_handleTs hp]
        exact ⟨p, hp, (counted_after_iff hs hi p).mp hcounted⟩
      · intro h
        obtain ⟨p, hp, hmeets⟩ := h client rfl
        rw [← clientFlag_handleTs hp] at hmeets
        exact ⟨_, by rw [hp, Option.map_some], (counted_after_iff hs hi p).mpr hmeets⟩
  | close i =>
    rw [step, Meets]
    cases hi : s.clients i with
    | none => exact iff_of_true ⟨s, rfl, hs⟩ fun client h => absurd h (Option.some_ne_none client).symm
    | some client =>
      rw [Option.elim_some]
      constructor
      · rintro ⟨s', hs', hcounted⟩ client' hclient'
        obtain rfl := Option.some.inj hclient'
        obtain rfl := Option.some.inj hs'
        exact (counted_leave_iff hs hi client.conn).mp hcounted
      · exact fun h => ⟨_, rfl, (counted_leave_iff hs hi client.conn).mpr (h client rfl)⟩

theorem counted_init : (Server.init : Server k).Counted := by
  refine counted_iff_num.mpr ?_
  have hzero : (Server.init : Server k).answered = 0 := Slots.count_eq_zero fun _ => rfl
  rw [hzero]
  rfl

/-- **The number of TS clients** is right all along a run exactly when every step meets the condition. -/
theorem counted_iff (env : Env) (permissions : Bool) (k : ℕ) (evs : List (Event k)) :
    (∀ pre, pre <+: evs → ∃ s, pre.foldlM (step env permissions) .init = some s ∧ s.Counted) ↔
      Run.AlongSome (step env permissions) (Meets env permissions) .init evs := by
  refine Run.forall_prefix_iff (I := Server.Counted) (fun s hs => hs) (fun s hs ev _ hmeets => ?_)
    (fun s hs ev _ hnot s' hs' hcounted => ?_) counted_init
  · exact (counted_step_iff hs ev).mpr hmeets
  · exact hnot ((counted_step_iff hs ev).mp ⟨s', hs', hcounted⟩)

/-! ### Runs that do not keep it -/

/-- A `DESCRIBE` for TS. -/
def describeTsRequest : Request where
  text := ascii "DESCRIBE rtsp://10.0.0.1/stream0/high.ts RTSP/1.0\r\nCSeq: 1\r\n\r\n"
  noNul := by decide
  fits := by decide

/-- A `DESCRIBE` for something else. -/
def describeRequest : Request where
  text := ascii "DESCRIBE rtsp://10.0.0.1/stream0 RTSP/1.0\r\nCSeq: 2\r\n\r\n"
  noNul := by decide
  fits := by decide

/-- A client that is answered twice counts twice; one that describes something else before it goes stays in
the number. -/
theorem number_not_kept :
    let ts : Event 1 := .request 0 ⟨describeTsRequest, [], true, noTimeout⟩
    let other : Event 1 := .request 0 ⟨describeRequest, [], true, noTimeout⟩
    (([.connect 0, ts, ts].foldlM (step plainServer false) .init).map fun s => (s.tsClientNum, s.answered)) =
        some (2, 1) ∧
      (([.connect 0, ts, other, .close 0].foldlM (step plainServer false) .init).map fun s =>
        (s.tsClientNum, (s.clients 0).isSome)) = some (1, false) ∧
      ¬ ∀ pre, pre <+: [.connect 0, ts, ts] →
        ∃ s, pre.foldlM (step plainServer false) .init = some s ∧ s.Counted := by
  intro ts other
  have htwice : (([.connect 0, ts, ts].foldlM (step plainServer false) .init).map fun s =>
      (s.tsClientNum, s.answered)) = some (2, 1) := by
    decide +kernel
  refine ⟨htwice, by decide +kernel, fun h => ?_⟩
  obtain ⟨s, hs, hcounted⟩ := h _ (List.prefix_refl _)
  rw [hs, Option.map_some] at htwice
  obtain ⟨hnum, hanswered⟩ := Prod.mk.inj (Option.some.inj htwice)
  rw [hcounted.num, hanswered] at hnum
  exact absurd hnum (by decide)

end TsClients

end Rtsp

end ReachEdukit
