import ReachEdukit.Lib.Run
import ReachEdukit.Rtsp.Clients
import ReachEdukit.Rtsp.Request

/-!
# Authentication of an RTSP connection

With `permissions` set, `RtspVlcContact` answers a `DESCRIBE` only after `authenticationOK`, and
every refusal sends a new nonce. The verdict is not kept: `SETUP` stores the ports and `PLAY` creates
the client whatever has been described. All that keeps a `PLAY` from the client is a video port that
has not been stored.

The requests of a connection are handled one by one, each with its whole text; how they come out of
the socket is another file's matter. A connection whose memory is no longer what the source says (an
index outside its array, an address of 1024 bytes) is over here: nothing is said of it.

## Given functions

`our_MD5Data`, `rtsp_porting_parse_url` and the fields that `parseAuthorizationHeader` finds are
parameters. The text that a nonce is the digest of comes with the request.

## Main definitions

* `authenticationOK`, `rtspDescribeAuthentication`, `rtspAddClient` — the functions
* `vlcContact`, `acts` — the connection, and what it does
* `Gated` — no client before an accepted `DESCRIBE`, and none is accepted without the right response

## Main results

* `accepted_right` — a `DESCRIBE` is accepted for the right response to the last nonce only
* `gated_iff_playsWait` — a run is gated exactly when no `PLAY` finds a port before that
-/

namespace ReachEdukit

namespace Rtsp

open Scan

/-! ### What the connection is given -/

/-- A digest, in hexadecimal. -/
structure Digest where
  /-- Its characters. -/
  hex : Text
  length_eq : hex.length = 32
  noNul : (0 : Byte) ∉ hex

/-- `User_Authentication_t`. -/
structure UserAuthentication where
  /-- The user. -/
  userName : Text
  /-- The password. -/
  userPass : Text
  /-- The realm. -/
  realm : Text

/-- The fields of an `Authorization` header. A field that is missing is `none`. -/
structure Authorization where
  /-- `username`. -/
  username : Option Text
  /-- `realm`. -/
  realm : Option Text
  /-- `nonce`. -/
  nonce : Option Text
  /-- `uri`. -/
  uri : Option Text
  /-- `response`. -/
  response : Option Text

/-- What is around the connection, with `g_user_autentication`. -/
structure Env where
  /-- The conversions of numbers. -/
  conv : Conversion
  /-- `our_MD5Data`. -/
  md5 : Text → Digest
  /-- `rtsp_porting_parse_url`: the stream, and what it writes to `serv_url`. -/
  parseUrl : Text → ℤ × Option Text
  /-- `parseAuthorizationHeader`. -/
  authorization : Text → Authorization
  /-- Who may describe. -/
  user : UserAuthentication

/-- A request that is dispatched. -/
structure Arrival where
  /-- The request. -/
  request : Request
  /-- The time that a new nonce is made of. -/
  seed : Text
  /-- `ResponseDescribeTs` does not answer `-1`. -/
  tsAnswered : Bool
  /-- The time a session is kept. -/
  keepactive : Timeout

/-- `Autenticatino_Info_t`. -/
structure AutInfo where
  /-- The nonce that was sent. -/
  nonce : Text
  /-- The address that was described. -/
  url : Text

/-- The variables of `RtspVlcContact`. -/
structure Conn where
  /-- `strMsg`. -/
  strMsg : StrClientMsg
  /-- `serv_aut_info`. -/
  aut : AutInfo
  /-- `client_flag`. -/
  clientFlag : ClientType
  /-- `need_timeout`. -/
  needTimeout : Bool

/-- A new connection. -/
def Conn.init : Conn where
  strMsg := .init
  aut := ⟨[], []⟩
  clientFlag := .vlc
  needTimeout := false

/-- What a connection does that others see. -/
inductive Act
  /-- `authenticationOK` returned `0` for this response, with this address. -/
  | accepted (response url : Text)
  /-- It did not, and sent this nonce. -/
  | refused (nonce : Text)
  /-- `rtsp_porting_create_client` was called, with these ports, for this stream. -/
  | create (videoPort audioPort roomid : ℤ)
  deriving DecidableEq, Repr

/-! ### The functions -/

variable (env : Env)

/-- `get_check_md5`. -/
def getCheckMd5 (cmdName : Text) (aut : AutInfo) : Text :=
  let ha1 := (env.md5 (env.user.userName ++ ascii ":" ++ env.user.realm ++ ascii ":" ++
    env.user.userPass)).hex
  let ha2 := (env.md5 (cmdName ++ ascii ":" ++ aut.url)).hex
  (env.md5 (ha1 ++ ascii ":" ++ aut.nonce ++ ascii ":" ++ ha2)).hex

/-- `authenticationOK`: the response it accepts, or the nonce it sends. -/
def authenticationOK (cmdName : Text) (aut : AutInfo) (request seed : Text) : Text ⊕ Text :=
  let header := env.authorization request
  match header.response with
  | some response =>
    if aut.url ≠ [] ∧ aut.nonce ≠ [] ∧ header.username.isSome ∧
        header.realm = some env.user.realm ∧ header.nonce = some aut.nonce ∧ header.uri.isSome ∧
        getCheckMd5 env cmdName aut = response then .inl response
    else .inr (env.md5 seed).hex
  | none => .inr (env.md5 seed).hex

/-- `rtsp_describe_authentication`: whether it returns `0`. The address it takes out of the request
has an array of 1024 bytes. -/
def rtspDescribeAuthentication (text : Text) (conn : Conn) : Option (Conn × Bool) :=
  if text.length < 17 then some (conn, false)
  else
    let conn := { conn with
      clientFlag :=
        if ascii ".ts" <:+: text then .stbTs
        else if ascii "QuickTime" <:+: text then .qt
        else .vlc
      needTimeout := conn.needTimeout || decide (ascii "timeout" <:+: text) }
    if ¬ ascii "DESCRIBE " <+: text then some (conn, false)
    else
      match firstIndex (ascii " RTSP/") (text.drop 9) with
      | none => some (conn, false)
      | some urlLen =>
        if urlLen < 14 then some (conn, false)
        else if 1024 ≤ urlLen then none
        else
          let parsed := env.parseUrl ((text.drop 9).take urlLen)
          let conn := { conn with aut.url := parsed.2.getD conn.aut.url }
          if parsed.1 = -1 then some (conn, false)
          else some ({ conn with strMsg.roomid := parsed.1 }, true)

/-- The digits of a port: what stands in its row in front of a `-`. -/
def portDigits (strMsg : StrClientMsg) (row : Fin 3) : Text :=
  ((strMsg.aucClientport row).toList.take (strMsg.ucClientportLen row)).takeWhile (· ≠ 0x2d)

/-- The port. -/
def portNumber (strMsg : StrClientMsg) (row : Fin 3) : ℤ :=
  decimal env.conv.toInt 0 ((portDigits strMsg row).map fun b => (b.toNat : ℤ) - 0x30)

/-- There is a video port, as `RtspAddClient` sees it. -/
def HasVideoPort (strMsg : StrClientMsg) : Prop :=
  portDigits strMsg videoRow ≠ [] ∧ portNumber env strMsg videoRow ≠ 0

instance (strMsg : StrClientMsg) : Decidable (HasVideoPort env strMsg) :=
  inferInstanceAs (Decidable (_ ∧ _))

/-- `RtspAddClient`: `none` is `-1`. -/
def rtspAddClient (strMsg : StrClientMsg) : Option Act :=
  if HasVideoPort env strMsg then
    some (.create (portNumber env strMsg videoRow) (portNumber env strMsg audioRow) strMsg.roomid)
  else none

/-- The `DESCRIBE` of `RtspVlcContact` behind `authenticationOK`. -/
def afterVerdict (conn : Conn) (tsAnswered : Bool) : Text ⊕ Text → Option Conn × List Act
  | .inr nonce => (some { conn with aut.nonce := nonce }, [.refused nonce])
  | .inl response =>
    (if conn.clientFlag = .stbTs ∧ ¬ tsAnswered then none else some conn,
      [.accepted response conn.aut.url])

/-- The `DESCRIBE` of `RtspVlcContact`. -/
def describe (conn : Conn) (e : Arrival) : Option Conn × List Act :=
  match rtspDescribeAuthentication env e.request.text conn with
  | none => (none, [])
  | some (_, false) => (none, [])
  | some (conn, true) =>
    afterVerdict conn e.tsAnswered
      (authenticationOK env (ascii "DESCRIBE") conn.aut e.request.text e.seed)

/-- The `PLAY` of `RtspVlcContact` behind `RtspAddClient`. -/
def afterAdd (conn : Conn) : Option Act → Option Conn × List Act
  | none => (none, [])
  | some act => (some conn, [act])

/-- One request in `RtspVlcContact`: `none` is its exit. -/
def handle (conn : Conn) (e : Arrival) : Option Conn × List Act :=
  match getVlcMsgType env.conv e.request.text conn.strMsg with
  | none => (none, [])
  | some (strMsg, answer) =>
    match answer with
    | .nothing => (some { conn with strMsg := strMsg }, [])
    | .noType => (none, [])
    | .type .describe => describe env { conn with strMsg := strMsg } e
    | .type .setup =>
      let timeout := if conn.needTimeout then e.keepactive else noTimeout
      ((responseSetup e.request.text timeout strMsg).map fun r => { conn with strMsg := r.1 }, [])
    | .type .play => afterAdd { conn with strMsg := strMsg } (rtspAddClient env strMsg)
    | .type .teardown => (none, [])
    | .type .option | .type .pause | .type .announce | .type .getParameter | .type .setParameter =>
      (some { conn with strMsg := strMsg }, [])

/-- One request of a connection that may be over. -/
def vlcContact : Option Conn → Arrival → Option Conn × List Act
  | none, _ => (none, [])
  | some conn, e => handle env conn e

/-- What a new connection does over the requests. -/
def acts (es : List Arrival) : List Act :=
  (Run.outs (vlcContact env) (some .init) es).flatten

/-- The connection after them. -/
def connAfter (es : List Arrival) : Option Conn := Run.final (vlcContact env) (some .init) es

/-! ### The gate -/

/-- A call of `rtsp_porting_create_client`. -/
def Act.IsCreate : Act → Prop
  | .create .. => True
  | _ => False

/-- A verdict of `0`. -/
def Act.IsAccepted : Act → Prop
  | .accepted .. => True
  | _ => False

/-- The nonce that is sent. -/
def Act.nonce? : Act → Option Text
  | .refused nonce => some nonce
  | _ => none

/-- The nonce that was sent last. -/
def lastNonce (log : List Act) : Option Text := (log.filterMap Act.nonce?).getLast?

/-- The right response to a nonce: the digest of those of the user and of what is described. -/
def rightResponse (nonce url : Text) : Text :=
  (env.md5 ((env.md5 (env.user.userName ++ ascii ":" ++ env.user.realm ++ ascii ":" ++
      env.user.userPass)).hex ++
    ascii ":" ++ nonce ++ ascii ":" ++ (env.md5 (ascii "DESCRIBE:" ++ url)).hex)).hex

/-- When it is an accepted `DESCRIBE`, its response is right for the last nonce. -/
def RightAfter (log : List Act) (a : Act) : Prop :=
  ∀ response url, a = .accepted response url →
    ∃ nonce, lastNonce log = some nonce ∧ response = rightResponse env nonce url

/-- What is done next is gated by what has been done: a client is created behind an accepted
`DESCRIBE` only, and one is accepted for the right response to the last nonce only. -/
def Gate (log : List Act) (a : Act) : Prop :=
  (a.IsCreate → ∃ b ∈ log, b.IsAccepted) ∧ RightAfter env log a

/-- Everything that is done is gated. -/
def Gated (log : List Act) : Prop := ∀ pre a post, log = pre ++ a :: post → Gate env pre a

/-- A request that `RtspVlcContact` takes for `PLAY`. -/
def Request.IsPlay (r : Request) : Prop :=
  CseqFits r.text ∧ requestType (r.text.length - 7) r.text = some .play ∧
    cseqNumber env.conv r.text ≤ 65535

/-- No `PLAY` finds a video port before a `DESCRIBE` has been accepted. -/
def PlaysWait (es : List Arrival) : Prop :=
  ∀ pre e post, es = pre ++ e :: post → (∀ a ∈ acts env pre, ¬ a.IsAccepted) →
    e.request.IsPlay env → ∀ conn, connAfter env pre = some conn → ¬ HasVideoPort env conn.strMsg

/-! ### One request -/

variable {env}

/-- The response is right when `authenticationOK` accepts it. -/
theorem authenticationOK_inl {aut : AutInfo} {request seed response : Text}
    (h : authenticationOK env (ascii "DESCRIBE") aut request seed = .inl response) :
    aut.nonce ≠ [] ∧ response = rightResponse env aut.nonce aut.url := by
  simp only [authenticationOK] at h
  split at h
  · next response' hresponse =>
    split at h
    · next hall =>
      obtain ⟨-, hnonce, -, -, -, -, hright⟩ := hall
      obtain rfl := Sum.inl.inj h
      exact ⟨hnonce, hright.symm⟩
    · cases h
  · cases h

/-- Reading the address leaves the nonce. -/
theorem rtspDescribeAuthentication_nonce {text : Text} {conn conn' : Conn} {b : Bool}
    (h : rtspDescribeAuthentication env text conn = some (conn', b)) :
    conn'.aut.nonce = conn.aut.nonce := by
  simp only [rtspDescribeAuthentication] at h
  split at h
  · obtain ⟨rfl, -⟩ := Prod.ext_iff.mp (Option.some.inj h)
    rfl
  · split at h
    · obtain ⟨rfl, -⟩ := Prod.ext_iff.mp (Option.some.inj h)
      rfl
    · split at h
      · obtain ⟨rfl, -⟩ := Prod.ext_iff.mp (Option.some.inj h)
        rfl
      · split at h
        · obtain ⟨rfl, -⟩ := Prod.ext_iff.mp (Option.some.inj h)
          rfl
        · split at h
          · cases h
          · split at h
            · obtain ⟨rfl, -⟩ := Prod.ext_iff.mp (Option.some.inj h)
              rfl
            · obtain ⟨rfl, -⟩ := Prod.ext_iff.mp (Option.some.inj h)
              rfl

/-- What a request can do to the nonce of a connection. -/
inductive Handled (env : Env) (conn : Conn) (e : Arrival) : Option Conn × List Act → Prop
  /-- Nothing is done. -/
  | quiet {o : Option Conn} (ho : ∀ c, o = some c → c.aut.nonce = conn.aut.nonce) :
    Handled env conn e (o, [])
  /-- A `DESCRIBE` is refused. -/
  | refused {c : Conn} {nonce : Text} (hc : c.aut.nonce = nonce) :
    Handled env conn e (some c, [.refused nonce])
  /-- A `DESCRIBE` is accepted. -/
  | accepted {o : Option Conn} {response url : Text} (hnonce : conn.aut.nonce ≠ [])
    (hright : response = rightResponse env conn.aut.nonce url)
    (ho : ∀ c, o = some c → c.aut.nonce = conn.aut.nonce) :
    Handled env conn e (o, [.accepted response url])
  /-- A `PLAY` creates a client. -/
  | create {c : Conn} {a : Act} (hplay : e.request.IsPlay env)
    (hport : HasVideoPort env conn.strMsg) (ha : a.IsCreate)
    (hc : c.aut.nonce = conn.aut.nonce) : Handled env conn e (some c, [a])

theorem describe_handled {conn conn₀ : Conn} (hconn : conn.aut.nonce = conn₀.aut.nonce)
    (e : Arrival) : Handled env conn₀ e (describe env conn e) := by
  rw [describe]
  cases h : rtspDescribeAuthentication env e.request.text conn with
  | none => exact .quiet fun c hc => absurd hc (by simp)
  | some p =>
    obtain ⟨conn', b⟩ := p
    have hnonce := (rtspDescribeAuthentication_nonce h).trans hconn
    cases b with
    | false => exact .quiet fun c hc => absurd hc (by simp)
    | true =>
      show Handled env conn₀ e (afterVerdict conn' e.tsAnswered
        (authenticationOK env (ascii "DESCRIBE") conn'.aut e.request.text e.seed))
      cases hok : authenticationOK env (ascii "DESCRIBE") conn'.aut e.request.text e.seed with
      | inr nonce => exact .refused rfl
      | inl response =>
        obtain ⟨hne, hright⟩ := authenticationOK_inl hok
        rw [hnonce] at hne hright
        refine .accepted hne hright fun c hc => ?_
        split at hc
        · cases hc
        · obtain rfl := Option.some.inj hc
          exact hnonce

/-- The ports are those the connection had before the number of the request was read. -/
theorem hasVideoPort_getCSeq {r : Request} {strMsg strMsg' : StrClientMsg}
    (h : getCSeq env.conv r.text strMsg = some strMsg') :
    HasVideoPort env strMsg' ↔ HasVideoPort env strMsg := by
  obtain ⟨-, -, hrows, hlens, -, -⟩ := getCSeq_eq_some h
  rw [HasVideoPort, HasVideoPort, portNumber, portNumber, portDigits, portDigits, hrows, hlens]

/-- **What a request does.** -/
theorem handled (conn : Conn) (e : Arrival) : Handled env conn e (handle env conn e) := by
  rw [handle, getVlcMsgType_eq]
  cases hseq : getCSeq env.conv e.request.text conn.strMsg with
  | none => exact .quiet fun c hc => absurd hc (by simp)
  | some strMsg =>
    have hquiet : Handled env conn e (some { conn with strMsg := strMsg }, []) := by
      refine .quiet fun c hc => ?_
      obtain rfl := Option.some.inj hc
      rfl
    have hnone : Handled env conn e (none, []) := .quiet fun c hc => absurd hc (by simp)
    rw [Option.map_some]
    generalize hanswer : Answer.of (requestType (e.request.text.length - 7) e.request.text)
      (cseqNumber env.conv e.request.text) = answer
    rcases answer with _ | _ | t
    · exact hquiet
    · exact hnone
    · cases t with
      | describe =>
        show Handled env conn e (describe env { conn with strMsg := strMsg } e)
        refine describe_handled ?_ e
        rfl
      | setup =>
        refine .quiet fun c hc => ?_
        obtain ⟨r, -, rfl⟩ := Option.map_eq_some_iff.mp hc
        rfl
      | play =>
        show Handled env conn e
          (afterAdd { conn with strMsg := strMsg } (rtspAddClient env strMsg))
        rw [rtspAddClient]
        by_cases hport : HasVideoPort env strMsg
        · rw [if_pos hport]
          obtain ⟨htype, hle⟩ := Answer.of_eq_type_iff.mp hanswer
          refine .create ⟨?_, htype, hle⟩ ((hasVideoPort_getCSeq hseq).mp hport) trivial rfl
          exact (getCSeq_isSome_iff env.conv e.request conn.strMsg).mp (by rw [hseq]; rfl)
        · rw [if_neg hport]
          exact hnone
      | teardown => exact hnone
      | option => exact hquiet
      | pause => exact hquiet
      | announce => exact hquiet
      | getParameter => exact hquiet
      | setParameter => exact hquiet

/-- A `PLAY` that finds a video port creates a client. -/
theorem handle_play {conn : Conn} {e : Arrival} (hplay : e.request.IsPlay env)
    (hport : HasVideoPort env conn.strMsg) :
    ∃ a, a.IsCreate ∧ (handle env conn e).2 = [a] := by
  obtain ⟨hfits, htype, hle⟩ := hplay
  obtain ⟨strMsg, hseq⟩ :=
    Option.isSome_iff_exists.mp ((getCSeq_isSome_iff env.conv e.request conn.strMsg).mpr hfits)
  have hanswer : Answer.of (requestType (e.request.text.length - 7) e.request.text)
      (cseqNumber env.conv e.request.text) = .type .play :=
    Answer.of_eq_type_iff.mpr ⟨htype, hle⟩
  rw [handle, getVlcMsgType_eq, hseq, Option.map_some, hanswer]
  show ∃ a : Act, a.IsCreate ∧
    (afterAdd { conn with strMsg := strMsg } (rtspAddClient env strMsg)).2 = [a]
  rw [rtspAddClient, if_pos ((hasVideoPort_getCSeq hseq).mpr hport)]
  exact ⟨.create .., trivial, rfl⟩

/-! ### A run -/

theorem acts_snoc (es : List Arrival) (e : Arrival) :
    acts env (es ++ [e]) = acts env es ++ (vlcContact env (connAfter env es) e).2 := by
  rw [acts, Run.outs_append, List.flatten_append]
  simp [connAfter, acts]

theorem connAfter_snoc (es : List Arrival) (e : Arrival) :
    connAfter env (es ++ [e]) = (vlcContact env (connAfter env es) e).1 := by
  rw [connAfter, Run.final_append]
  rfl

theorem acts_mono (es fs : List Arrival) : acts env es <+: acts env (es ++ fs) := by
  rw [acts, acts, Run.outs_append, List.flatten_append]
  exact List.prefix_append ..

/-- One act more is gated, or was before. -/
theorem gated_snoc {log : List Act} {a : Act} :
    Gated env (log ++ [a]) ↔ Gated env log ∧ Gate env log a :=
  Run.forall_cut_concat

theorem lastNonce_snoc (log : List Act) (a : Act) :
    lastNonce (log ++ [a]) = (a.nonce?).or (lastNonce log) := by
  rw [lastNonce, List.filterMap_append, lastNonce]
  cases h : a.nonce? with
  | none => simp [h]
  | some nonce => simp [h]

/-- **The nonce of a connection** is the one it sent last. -/
theorem nonce_connAfter (es : List Arrival) {conn : Conn} (h : connAfter env es = some conn)
    (hne : conn.aut.nonce ≠ []) : lastNonce (acts env es) = some conn.aut.nonce := by
  induction es using List.reverseRecOn generalizing conn with
  | nil =>
    obtain rfl := Option.some.inj h
    exact absurd rfl hne
  | append_singleton es e ih =>
    rw [connAfter_snoc] at h
    rw [acts_snoc]
    cases hbefore : connAfter env es with
    | none =>
      rw [hbefore] at h
      cases h
    | some conn₀ =>
      rw [hbefore] at h
      show lastNonce (acts env es ++ (handle env conn₀ e).2) = _
      replace h : (handle env conn₀ e).1 = some conn := h
      generalize hdone : handle env conn₀ e = done at h
      have hhandled : Handled env conn₀ e done := hdone ▸ handled conn₀ e
      cases hhandled with
      | quiet ho =>
        rw [ho conn h] at hne ⊢
        rw [List.append_nil]
        exact ih hbefore hne
      | refused hc =>
        obtain rfl := Option.some.inj h
        rw [lastNonce_snoc, hc]
        rfl
      | accepted _ _ ho =>
        rw [ho conn h] at hne ⊢
        rw [lastNonce_snoc]
        exact ih hbefore hne
      | @create c a _ _ ha hc =>
        obtain rfl := Option.some.inj h
        rw [hc] at hne ⊢
        have hnone : a.nonce? = none := by
          cases a with
          | refused => exact ha.elim
          | _ => rfl
        rw [lastNonce_snoc, hnone]
        exact ih hbefore hne

/-- **A `DESCRIBE` is accepted** for the right response to the last nonce only. -/
theorem accepted_right (es : List Arrival) (e : Arrival) :
    ∀ a ∈ (vlcContact env (connAfter env es) e).2, RightAfter env (acts env es) a := by
  intro a ha response url heq
  subst heq
  cases hbefore : connAfter env es with
  | none =>
    rw [hbefore] at ha
    cases ha
  | some conn =>
    rw [hbefore] at ha
    replace ha : Act.accepted response url ∈ (handle env conn e).2 := ha
    generalize hdone : handle env conn e = done at ha
    have hhandled : Handled env conn e done := hdone ▸ handled conn e
    cases hhandled with
    | quiet => cases ha
    | refused => simp at ha
    | accepted hnonce hright _ =>
      obtain ⟨rfl, rfl⟩ : _ = response ∧ _ = url := by simpa using (List.mem_singleton.mp ha).symm
      exact ⟨conn.aut.nonce, nonce_connAfter es hbefore hnonce, hright⟩
    | create _ _ hcreate _ =>
      obtain rfl := List.mem_singleton.mp ha
      exact hcreate.elim

/-- What one request does is gated when a `PLAY` among them waits. -/
theorem gated_step {es : List Arrival} {e : Arrival} (hwait : PlaysWait env (es ++ [e]))
    (hgated : Gated env (acts env es)) : Gated env (acts env (es ++ [e])) := by
  have hright := @accepted_right env es e
  rw [acts_snoc]
  cases hbefore : connAfter env es with
  | none =>
    show Gated env (acts env es ++ [])
    rwa [List.append_nil]
  | some conn =>
    rw [hbefore] at hright
    show Gated env (acts env es ++ (handle env conn e).2)
    replace hright : ∀ a ∈ (handle env conn e).2, RightAfter env (acts env es) a := hright
    generalize hdone : handle env conn e = done at hright ⊢
    have hhandled : Handled env conn e done := hdone ▸ handled conn e
    cases hhandled with
    | quiet => rwa [List.append_nil]
    | refused => exact gated_snoc.mpr ⟨hgated, False.elim, hright _ (List.mem_singleton_self _)⟩
    | accepted => exact gated_snoc.mpr ⟨hgated, False.elim, hright _ (List.mem_singleton_self _)⟩
    | create hplay hport _ _ =>
      refine gated_snoc.mpr ⟨hgated, fun _ => ?_, hright _ (List.mem_singleton_self _)⟩
      by_contra hnone
      push Not at hnone
      exact hwait es e [] rfl hnone hplay conn hbefore hport

/-- **A run is gated** exactly when no `PLAY` finds a video port before a `DESCRIBE` has been
accepted. -/
theorem gated_iff_playsWait (env : Env) (es : List Arrival) :
    Gated env (acts env es) ↔ PlaysWait env es := by
  constructor
  · intro hgated pre e post hes hnone hplay conn hconn hport
    obtain ⟨a, ha, hdone⟩ := handle_play hplay hport
    obtain ⟨rest, hrest⟩ : acts env pre ++ [a] <+: acts env es := by
      rw [hes, ← hdone, List.append_cons]
      refine List.IsPrefix.trans ?_ (acts_mono (pre ++ [e]) post)
      rw [acts_snoc, hconn]
      exact List.prefix_refl _
    obtain ⟨b, hb, haccepted⟩ := (hgated (acts env pre) a rest (by rw [← hrest]; simp)).1 ha
    exact hnone b hb haccepted
  · intro hwait
    induction es using List.reverseRecOn with
    | nil =>
      intro pre a post h
      exact absurd h.symm (by simp [acts])
    | append_singleton es e ih =>
      refine gated_step hwait (ih ?_)
      intro pre e' post hes
      exact hwait pre e' (post ++ [e]) (by rw [hes]; simp)

/-- The streams that `rtsp_porting_parse_url` knows, behind the `/`: the `roomid`, and the name. -/
def namedStream (name : Text) : Option (ℤ × Text) :=
  if ascii "stream0" <+: name then
    if ascii "stream0/high" <+: name then some (0, name.take 12)
    else if ascii "stream0/low" <+: name ∨ ascii "stream0/LOW" <+: name then some (1, name.take 11)
    else if name = ascii "stream0" then some (0, name)
    else none
  else if ascii "stream1" <+: name then
    if ascii "stream1/high" <+: name then some (2, name.take 12)
    else if ascii "stream1/low" <+: name then some (3, name.take 11)
    else if name = ascii "stream1" then some (2, name)
    else none
  else none

/-- `rtsp_porting_parse_url` with a `roomid` of `-1`, on a server with this address. -/
def rtspPortingParseUrl (localip url : Text) : ℤ × Option Text :=
  let url2 := ascii "rtsp://" ++ localip
  if ¬ url2 <+: url then (-1, none)
  else
    match firstIndex (ascii "/") (url.drop url2.length) with
    | none => (0, none)
    | some n =>
      let name := (url.drop (url2.length + n)).drop 1
      if name = [] then (0, none)
      else
        match namedStream name with
        | none => (-1, none)
        | some (roomid, stream) => (roomid, some (url2 ++ ascii ":554/" ++ stream))

/-- A server whose digests are all the same, for runs on given requests. -/
def plainServer : Env where
  conv := .x86
  md5 _ := ⟨.replicate 32 0x30, by decide, by decide⟩
  parseUrl := rtspPortingParseUrl (ascii "10.0.0.1")
  authorization _ := ⟨none, none, none, none, none⟩
  user := ⟨ascii "admin", ascii "secret", ascii "reach"⟩

/-- A client that describes nothing: `SETUP` and `PLAY` are enough. -/
theorem play_without_describe :
    let env : Env :=
      { conv := .x86
        md5 := fun _ => ⟨.replicate 32 0x30, by decide, by decide⟩
        parseUrl := fun _ => (0, none)
        authorization := fun _ => ⟨none, none, none, none, none⟩
        user := ⟨ascii "admin", ascii "secret", ascii "reach"⟩ }
    let setup : Request :=
      ⟨ascii "SETUP rtsp://h/trackID=1 RTSP/1.0\r\nCSeq: 1\r\nTransport: RTP/AVP;client_port=5000-5001\r\n\r\n",
        by decide, by decide⟩
    let play : Request := ⟨ascii "PLAY rtsp://h RTSP/1.0\r\nCSeq: 2\r\n\r\n", by decide, by decide⟩
    ¬ Gated env (acts env [⟨setup, [], true, 0⟩, ⟨play, [], true, 0⟩]) := by
  intro env setup play h
  have hacts : acts env [⟨setup, [], true, 0⟩, ⟨play, [], true, 0⟩] = [.create 5000 0 (-1)] := by
    decide +kernel
  rw [hacts] at h
  obtain ⟨b, hb, -⟩ := (h [] _ [] rfl).1 trivial
  cases hb

end Rtsp

end ReachEdukit
