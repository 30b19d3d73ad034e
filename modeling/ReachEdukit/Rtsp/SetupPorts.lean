import ReachEdukit.Rtsp.SetupText

/-!
# The ports of a connection

`SETUP` stores its `client_port` in the row of its track, and `PLAY` creates the client with the ports
of the rows. The response to `SETUP` has the ports of the request, and behind them those of the row whose
turn it is: they come twice when it is the turn of the track itself, and those of the other track come
behind them when that track has been set up. Only a row that nothing was stored in leaves the value alone.

## What is left out

The addresses of the client, and what `rtsp_porting_create_client` makes of its ports.

## Main definitions

* `serve` — a request with the response to `SETUP`, and the copy that `rtsp_find_trackid` makes
* `Agree` — every response has the ports of its request, and every `PLAY` those that were stored

## Main results

* `serve_setup` — what a `SETUP` stores and answers
* `stored_of_connServed` — the rows hold the ports that came last
* `agree_iff` — a connection agrees exactly when its requests keep to `Holds`
-/

namespace ReachEdukit

namespace Rtsp

open Scan

/-! ### Requests -/

variable (env : Env)

/-- A request: a `SETUP` that is well formed, or one that is not taken for `SETUP`. -/
inductive Incoming
  | setup (s : Setup env)
  | other (e : Arrival) (h : ¬ e.request.IsSetup env)

variable {env}

/-- The request that arrives. -/
def Incoming.arrival : Incoming env → Arrival
  | .setup s => s.arrival
  | .other e _ => e

/-- The `SETUP` that it is. -/
def Incoming.setup? : Incoming env → Option (Setup env)
  | .setup s => some s
  | .other .. => none

/-- The `SETUP` requests. -/
def setups (es : List (Incoming env)) : List (Setup env) := es.filterMap Incoming.setup?

/-- The last one for a track. -/
def lastSetup (track : Track) (es : List (Incoming env)) : Option (Setup env) :=
  ((setups es).filter fun s => s.track = track).getLast?

/-! ### The connection -/

/-- What a request is answered with, and what it does. -/
structure Served where
  /-- The response to `SETUP`. -/
  response : Option Text
  acts : List Act

variable (env)

/-- One request, with the response to `SETUP`. -/
def serve (conn : Conn) (e : Arrival) : Option Conn × Served :=
  let handled := handle env conn e
  match getVlcMsgType env.conv e.request.text conn.strMsg with
  | some (strMsg, .type .setup) =>
    -- `tempbuff` of `rtsp_find_trackid` takes the whole request
    if e.request.text.length < 1024 then
      let timeout := if conn.needTimeout then e.keepactive else noTimeout
      (handled.1, ⟨(responseSetup e.request.text timeout strMsg).map Prod.snd, handled.2⟩)
    else (none, ⟨none, []⟩)
  | _ => (handled.1, ⟨none, handled.2⟩)

/-- One request of a connection that may be over. -/
def contactServed : Option Conn → Arrival → Option Conn × Served
  | none, _ => (none, ⟨none, []⟩)
  | some conn, e => serve env conn e

/-- The connection after some requests. -/
def connServed (es : List (Incoming env)) : Option Conn :=
  Run.final (contactServed env) (some .init) (es.map Incoming.arrival)

variable {env}

/-! ### What is asked -/

/-- The value of the response has the range of the request, and no digits behind it. -/
def Echoes (s : Setup env) (response : Text) : Prop :=
  ∃ more, (transportValue response).bind behindPortWord = some (s.ports.text ++ more) ∧
    ∀ b ∈ more, isDigit b = false

/-- The port of an address, `htons` as the other side reads it. -/
def wirePort (port : ℤ) : ℕ := (port % 2 ^ 16).toNat

/-- A client is created with the ports that came last for the tracks. -/
def CreatedWith (es : List (Incoming env)) (done : List Act) : Prop :=
  ∀ s, lastSetup .video es = some s → ∃ videoPort audioPort roomid,
    done = [.create videoPort audioPort roomid] ∧ wirePort videoPort = number s.ports.first ∧
      ∀ t, lastSetup .audio es = some t → wirePort audioPort = number t.ports.first

/-- The requests in front of one, and the connection that it comes to. -/
def Comes (es before : List (Incoming env)) (e : Incoming env) (conn : Conn) : Prop :=
  (∃ behind, es = before ++ e :: behind) ∧ connServed env before = some conn

/-- `SETUP` and `PLAY` agree on the ports. -/
structure Agree (es : List (Incoming env)) : Prop where
  setup : ∀ before s conn, Comes es before (.setup s) conn →
    ∃ response, (serve env conn s.arrival).2.response = some response ∧ Echoes s response
  play : ∀ before e conn, Comes es before e conn → e.arrival.request.IsPlay env →
    CreatedWith before (serve env conn e.arrival).2.acts

/-! ### When it is so -/

/-- Up to this `SETUP` none was for the track whose turn it is, and no digits stand behind its range. -/
structure EchoHolds (before : List (Incoming env)) (s : Setup env) : Prop where
  fits : s.Fits
  back : ∀ b ∈ s.back, isDigit b = false
  turn : ∀ t ∈ setups (before ++ [.setup s]), t.track ≠ Rtsp.turn (setups before).length

/-- The ports that came last are ports, and that of the video is not 0. -/
def PortsHold (before : List (Incoming env)) : Prop :=
  ∀ s, lastSetup .video before = some s → 0 < number s.ports.first ∧ number s.ports.first < 2 ^ 16 ∧
    ∀ t, lastSetup .audio before = some t → number t.ports.first < 2 ^ 16

/-- Every `SETUP` and every `PLAY` that the connection comes to is of that kind. -/
structure Holds (es : List (Incoming env)) : Prop where
  setup : ∀ before s conn, Comes es before (.setup s) conn → EchoHolds before s
  play : ∀ before e conn, Comes es before e conn → e.arrival.request.IsPlay env → PortsHold before

/-! ### One request -/

theorem wirePort_natCast {n : ℕ} (h : n < 2 ^ 16) : wirePort n = n := by
  rw [wirePort, Int.emod_eq_of_lt (Nat.cast_nonneg _) (by exact_mod_cast h), Int.toNat_natCast]

theorem wirePort_lt (port : ℤ) : wirePort port < 2 ^ 16 := by
  have hlt := Int.emod_lt_of_pos port (by decide : (0 : ℤ) < 2 ^ 16)
  rw [wirePort]
  omega

/-- A connection whose rows and turn are those of another. -/
structure SamePorts (strMsg strMsg' : StrClientMsg) : Prop where
  bounded : strMsg.Bounded → strMsg'.Bounded
  rows : ∀ track, storedRow strMsg' track = storedRow strMsg track
  timeused : strMsg'.timeused = strMsg.timeused

/-- Reading the number of a request leaves the ports. -/
theorem samePorts_getCSeq {r : Request} {strMsg strMsg' : StrClientMsg}
    (h : getCSeq env.conv r.text strMsg = some strMsg') : SamePorts strMsg strMsg' := by
  obtain ⟨-, hcseq, hrows, hlens, htimeused, -⟩ := getCSeq_eq_some h
  refine ⟨fun hb => ⟨hcseq hb.cseq, fun row => ?_⟩, fun track => ?_, htimeused⟩
  · rw [hlens]
    exact hb.ports row
  · rw [storedRow, hrows, hlens]
    rfl

/-- What `GetVlcMsgType` answers to a request that is taken for one of a type. -/
theorem getVlcMsgType_of_type {r : Request} {type : MsgType} (strMsg : StrClientMsg)
    (hr : CseqFits r.text ∧ requestType (r.text.length - 7) r.text = some type ∧
      cseqNumber env.conv r.text ≤ 65535) :
    ∃ strMsg', getCSeq env.conv r.text strMsg = some strMsg' ∧
      getVlcMsgType env.conv r.text strMsg = some (strMsg', .type type) := by
  obtain ⟨hfits, htype, hle⟩ := hr
  obtain ⟨strMsg', hseq⟩ :=
    Option.isSome_iff_exists.mp ((getCSeq_isSome_iff env.conv r strMsg).mpr hfits)
  refine ⟨strMsg', hseq, ?_⟩
  rw [getVlcMsgType_eq, hseq, Option.map_some, Answer.of_eq_type_iff.mpr ⟨htype, hle⟩]

/-- **A `SETUP`**: what it stores and what it answers. -/
theorem serve_setup (s : Setup env) {conn : Conn} (hb : conn.strMsg.Bounded)
    (hnul : ∀ track, (0 : Byte) ∉ storedRow conn.strMsg track) (hfits : s.Fits) :
    ∃ conn' more, serve env conn s.arrival = (some conn', ⟨some (responseHead ++ (s.value ++
        (storedRow conn'.strMsg (turn conn.strMsg.timeused) ++ cr :: more))), []⟩) ∧
      conn'.strMsg.Bounded ∧ conn'.strMsg.timeused = conn.strMsg.timeused + 1 ∧
      ∀ track, storedRow conn'.strMsg track =
        if track = s.track then s.range else storedRow conn.strMsg track := by
  obtain ⟨strMsg, hseq, htype⟩ := getVlcMsgType_of_type conn.strMsg s.isSetup
  have hsame := samePorts_getCSeq hseq
  obtain ⟨strMsg', more, hresponse, hbounded, htimeused, hstored⟩ := s.responseSetup_eq
    (if conn.needTimeout then s.arrival.keepactive else noTimeout) (hsame.bounded hb)
    (fun track => by rw [hsame.rows]; exact hnul track) hfits.1
  refine ⟨{ conn with strMsg := strMsg' }, more, ?_, hbounded, ?_, fun track => ?_⟩
  · rw [serve, handle, htype]
    simp only [if_pos hfits.2, hresponse, Option.map_some, hsame.timeused]
  · change strMsg'.timeused = _
    rw [htimeused, hsame.timeused]
  · rw [← hsame.rows]
    exact hstored track

/-- A `SETUP` that has no room. -/
theorem serve_setup_of_not_fits (s : Setup env) (conn : Conn) (hlong : ¬ s.Fits) :
    serve env conn s.arrival = (none, ⟨none, []⟩) := by
  obtain ⟨strMsg, -, htype⟩ := getVlcMsgType_of_type conn.strMsg s.isSetup
  rw [serve, handle, htype]
  by_cases hshort : s.arrival.request.text.length < 1024
  · have hrange : ¬ s.range.length ≤ 20 := fun h => hlong ⟨h, hshort⟩
    simp only [if_pos hshort, s.responseSetup_eq_none _ _ hrange, Option.map_none]
  · exact if_neg hshort

/-- `rtsp_describe_authentication` leaves the ports. -/
theorem samePorts_describeAuthentication {text : Text} {conn conn' : Conn} {b : Bool}
    (h : rtspDescribeAuthentication env text conn = some (conn', b)) : SamePorts conn.strMsg conn'.strMsg := by
  have hself : ∀ strMsg, SamePorts strMsg strMsg := fun _ => ⟨fun hb => hb, fun _ => rfl, rfl⟩
  simp only [rtspDescribeAuthentication] at h
  split at h
  · obtain ⟨rfl, -⟩ := Prod.ext_iff.mp (Option.some.inj h)
    exact hself _
  · split at h
    · obtain ⟨rfl, -⟩ := Prod.ext_iff.mp (Option.some.inj h)
      exact hself _
    · split at h
      · obtain ⟨rfl, -⟩ := Prod.ext_iff.mp (Option.some.inj h)
        exact hself _
      · split at h
        · obtain ⟨rfl, -⟩ := Prod.ext_iff.mp (Option.some.inj h)
          exact hself _
        · split at h
          · cases h
          · split at h
            · obtain ⟨rfl, -⟩ := Prod.ext_iff.mp (Option.some.inj h)
              exact hself _
            · obtain ⟨rfl, -⟩ := Prod.ext_iff.mp (Option.some.inj h)
              exact ⟨fun hb => ⟨hb.cseq, hb.ports⟩, fun _ => rfl, rfl⟩

theorem samePorts_describe {conn conn' : Conn} {e : Arrival} (h : (describe env conn e).1 = some conn') :
    SamePorts conn.strMsg conn'.strMsg := by
  rw [describe] at h
  cases hread : rtspDescribeAuthentication env e.request.text conn with
  | none =>
    rw [hread] at h
    cases h
  | some p =>
    obtain ⟨conn₁, b⟩ := p
    have hsame := samePorts_describeAuthentication hread
    rw [hread] at h
    cases b with
    | false => cases h
    | true =>
      change (afterVerdict conn₁ e.tsAnswered
        (authenticationOK env (ascii "DESCRIBE") conn₁.aut e.request.text e.seed)).1 = some conn' at h
      cases hok : authenticationOK env (ascii "DESCRIBE") conn₁.aut e.request.text e.seed with
      | inr nonce =>
        rw [hok] at h
        obtain rfl := Option.some.inj h
        exact hsame
      | inl response =>
        rw [hok, afterVerdict] at h
        split_ifs at h
        obtain rfl := Option.some.inj h
        exact hsame

/-- A request that is not taken for `SETUP` leaves the ports. -/
theorem serve_other {conn conn' : Conn} {e : Arrival} (he : ¬ e.request.IsSetup env)
    (h : (serve env conn e).1 = some conn') : SamePorts conn.strMsg conn'.strMsg := by
  rw [serve, handle, getVlcMsgType_eq] at h
  cases hseq : getCSeq env.conv e.request.text conn.strMsg with
  | none =>
    rw [hseq] at h
    cases h
  | some strMsg =>
    have hsame := samePorts_getCSeq hseq
    have hquiet : ∀ {conn' : Conn}, some { conn with strMsg := strMsg } = some conn' →
        SamePorts conn.strMsg conn'.strMsg := by
      intro conn' heq
      obtain rfl := Option.some.inj heq
      exact hsame
    rw [hseq, Option.map_some] at h
    generalize hanswer : Answer.of (requestType (e.request.text.length - 7) e.request.text)
      (cseqNumber env.conv e.request.text) = answer at h
    rcases answer with _ | _ | t
    · exact hquiet h
    · cases h
    · cases t with
      | describe =>
        have hdescribe : SamePorts strMsg conn'.strMsg :=
          @samePorts_describe _ { conn with strMsg := strMsg } _ _ h
        exact ⟨fun hb => hdescribe.bounded (hsame.bounded hb),
          fun track => (hdescribe.rows track).trans (hsame.rows track),
          hdescribe.timeused.trans hsame.timeused⟩
      | setup =>
        obtain ⟨htype, hle⟩ := Answer.of_eq_type_iff.mp hanswer
        refine absurd ⟨?_, htype, hle⟩ he
        exact (getCSeq_isSome_iff env.conv e.request conn.strMsg).mp (by rw [hseq]; rfl)
      | play =>
        change (afterAdd { conn with strMsg := strMsg } (rtspAddClient env strMsg)).1 = some conn' at h
        rw [rtspAddClient] at h
        split_ifs at h
        · exact hquiet h
        · cases h
      | teardown => cases h
      | option => exact hquiet h
      | pause => exact hquiet h
      | announce => exact hquiet h
      | getParameter => exact hquiet h
      | setParameter => exact hquiet h

/-- **A `PLAY`**: the client that it creates. -/
theorem serve_play (conn : Conn) {e : Arrival} (hplay : e.request.IsPlay env) :
    (serve env conn e).2.acts = if HasVideoPort env conn.strMsg then
      [.create (portNumber env conn.strMsg Track.video.row) (portNumber env conn.strMsg Track.audio.row)
        conn.strMsg.roomid] else [] := by
  obtain ⟨strMsg, hseq, htype⟩ := getVlcMsgType_of_type conn.strMsg hplay
  have hsame := samePorts_getCSeq hseq
  have hnumber : ∀ track : Track, portNumber env strMsg track.row = portNumber env conn.strMsg track.row := by
    intro track
    rw [portNumber, portNumber, portDigits_eq, portDigits_eq, hsame.rows]
  have hroomid : strMsg.roomid = conn.strMsg.roomid := (getCSeq_eq_some hseq).2.2.2.2.2
  rw [serve, handle, htype]
  change (afterAdd { conn with strMsg := strMsg } (rtspAddClient env strMsg)).2 = _
  rw [rtspAddClient, ← hnumber, ← hnumber, ← hroomid]
  by_cases hport : HasVideoPort env strMsg
  · rw [if_pos hport, if_pos ((hasVideoPort_getCSeq hseq).mp hport)]
    rfl
  · rw [if_neg hport, if_neg (mt (hasVideoPort_getCSeq hseq).mpr hport)]
    rfl

/-! ### A run -/

variable {es before : List (Incoming env)}

theorem setups_setup (es : List (Incoming env)) (s : Setup env) :
    setups (es ++ [.setup s]) = setups es ++ [s] := by
  rw [setups, List.filterMap_append]
  rfl

theorem setups_other (es : List (Incoming env)) {e : Arrival} (h : ¬ e.request.IsSetup env) :
    setups (es ++ [.other e h]) = setups es := by
  rw [setups, List.filterMap_append]
  exact List.append_nil _

theorem lastSetup_setup (track : Track) (es : List (Incoming env)) (s : Setup env) :
    lastSetup track (es ++ [.setup s]) = if track = s.track then some s else lastSetup track es := by
  rw [lastSetup, setups_setup, List.filter_append]
  split_ifs with htrack
  · rw [List.filter_cons_of_pos (by simpa using htrack.symm), List.filter_nil, List.getLast?_concat]
  · have hne : s.track ≠ track := fun h => htrack h.symm
    rw [List.filter_cons_of_neg (by simpa using hne), List.filter_nil, List.append_nil]
    rfl

theorem lastSetup_eq_none_iff {track : Track} :
    lastSetup track es = none ↔ ∀ s ∈ setups es, s.track ≠ track := by
  rw [lastSetup, List.getLast?_eq_none_iff, List.filter_eq_nil_iff]
  simp

theorem connServed_snoc (es : List (Incoming env)) (e : Incoming env) :
    connServed env (es ++ [e]) = (contactServed env (connServed env es) e.arrival).1 := by
  rw [connServed, List.map_append, Run.final_append]
  rfl

/-- The rows hold the ranges that came last, and the turn goes from one to the other. -/
structure Stored (es : List (Incoming env)) (strMsg : StrClientMsg) : Prop where
  bounded : strMsg.Bounded
  rows : ∀ track, storedRow strMsg track = (lastSetup track es).elim [] Setup.range
  timeused : (strMsg.timeused : ℕ) = (setups es).length % 2

theorem Stored.nul_notMem {strMsg : StrClientMsg} (h : Stored es strMsg) (track : Track) :
    (0 : Byte) ∉ storedRow strMsg track := by
  rw [h.rows]
  cases lastSetup track es with
  | none => exact List.not_mem_nil
  | some s => exact s.nul_notMem_range

theorem turn_mod (n : ℕ) : turn (n % 2) = turn n := by
  rw [turn, turn, Nat.mod_mod]

/-- A `SETUP` that has room. -/
theorem Stored.setup {conn : Conn} (h : Stored es conn.strMsg) {s : Setup env} (hfits : s.Fits) :
    ∃ conn' more, Stored (es ++ [.setup s]) conn'.strMsg ∧
      serve env conn s.arrival = (some conn', ⟨some (responseHead ++ (s.value ++
        ((lastSetup (turn (setups es).length) (es ++ [.setup s])).elim [] Setup.range ++ cr :: more))), []⟩) := by
  obtain ⟨conn', more, hserve, hbounded, htimeused, hrows⟩ := serve_setup s h.bounded h.nul_notMem hfits
  have hstored : Stored (es ++ [.setup s]) conn'.strMsg := by
    refine ⟨hbounded, fun track => ?_, ?_⟩
    · rw [hrows, lastSetup_setup, h.rows]
      split_ifs <;> rfl
    · rw [htimeused, setups_setup, List.length_append, List.length_singleton, Fin.val_add, h.timeused]
      change ((setups es).length % 2 + 1) % 2 = _
      omega
  refine ⟨conn', more, hstored, ?_⟩
  rw [hserve, hstored.rows, h.timeused, turn_mod]

/-- **What the rows hold**, after any requests. -/
theorem stored_of_connServed (es : List (Incoming env)) {conn : Conn}
    (h : connServed env es = some conn) : Stored es conn.strMsg := by
  induction es using List.reverseRecOn generalizing conn with
  | nil =>
    obtain rfl := Option.some.inj h
    exact ⟨⟨Nat.zero_le _, fun _ => Nat.zero_le _⟩, fun _ => rfl, rfl⟩
  | append_singleton es e ih =>
    rw [connServed_snoc] at h
    cases hbefore : connServed env es with
    | none =>
      rw [hbefore] at h
      cases h
    | some conn₀ =>
      have hstored := ih hbefore
      rw [hbefore] at h
      replace h : (serve env conn₀ e.arrival).1 = some conn := h
      cases e with
      | setup s =>
        by_cases hfits : s.Fits
        · obtain ⟨conn', more, hstored', hserve⟩ := hstored.setup hfits
          replace h : (serve env conn₀ s.arrival).1 = some conn := h
          rw [hserve] at h
          obtain rfl := Option.some.inj h
          exact hstored'
        · replace h : (serve env conn₀ s.arrival).1 = some conn := h
          rw [serve_setup_of_not_fits s conn₀ hfits] at h
          cases h
      | other e he =>
        have hsame := serve_other he h
        refine ⟨hsame.bounded hstored.bounded, fun track => ?_, ?_⟩
        · rw [hsame.rows, hstored.rows, lastSetup, lastSetup, setups_other]
        · rw [hsame.timeused, hstored.timeused, setups_other]

/-! ### What a connection does -/

/-- **When a response is right.** -/
theorem echoes_iff {conn : Conn} (h : Stored before conn.strMsg) (s : Setup env) :
    (∃ response, (serve env conn s.arrival).2.response = some response ∧ Echoes s response) ↔
      EchoHolds before s := by
  by_cases hfits : s.Fits
  · obtain ⟨conn', more, hstored, hserve⟩ := h.setup hfits
    have hrow : ∀ row, (lastSetup (turn (setups before).length) (before ++ [.setup s])).elim [] Setup.range = row →
        cr ∉ row ∧ ((∀ b ∈ row, isDigit b = false) ↔
          ∀ t ∈ setups (before ++ [.setup s]), t.track ≠ turn (setups before).length) := by
      rintro row rfl
      rw [← lastSetup_eq_none_iff]
      cases lastSetup (turn (setups before).length) (before ++ [.setup s]) with
      | none => exact ⟨List.not_mem_nil, fun _ => rfl, fun _ b hb => absurd hb List.not_mem_nil⟩
      | some t =>
        refine ⟨fun hmem => (t.mem_range hmem).2.1 rfl, fun hdigits => ?_, fun hnone => ?_⟩
        · -- a range has digits
          obtain ⟨b, first, hfirst⟩ := List.exists_cons_of_ne_nil t.ports.first_ne
          have hb : b ∈ t.ports.first := hfirst ▸ List.mem_cons_self
          have hmem : b ∈ t.range := List.mem_append_left _ (List.mem_append_left _ hb)
          exact absurd (t.ports.first_digits b hb) (by rw [hdigits b hmem]; exact Bool.false_ne_true)
        · exact absurd hnone (Option.some_ne_none t)
    obtain ⟨hcr, hdigits⟩ := hrow _ rfl
    have hbehind := s.behind_response _ more hcr
    rw [hserve]
    constructor
    · rintro ⟨response, hresponse, rest, hrest, hnone⟩
      obtain rfl := Option.some.inj hresponse
      rw [hbehind] at hrest
      obtain rfl := List.append_cancel_left (Option.some.inj hrest)
      exact ⟨hfits, fun b hb => hnone b (List.mem_append_left _ hb),
        hdigits.mp fun b hb => hnone b (List.mem_append_right _ hb)⟩
    · intro hholds
      refine ⟨_, rfl, _, hbehind, fun b hb => ?_⟩
      obtain hback | hmem := List.mem_append.mp hb
      · exact hholds.back b hback
      · exact hdigits.mpr hholds.turn b hmem
  · refine iff_of_false ?_ fun hholds => hfits hholds.fits
    rintro ⟨response, hresponse, -⟩
    rw [serve_setup_of_not_fits s conn hfits] at hresponse
    cases hresponse

/-- **When a client is created with the ports.** -/
theorem createdWith_iff {conn : Conn} (h : Stored before conn.strMsg) {e : Arrival}
    (hplay : e.request.IsPlay env) : CreatedWith before (serve env conn e).2.acts ↔ PortsHold before := by
  have hrow : ∀ {track : Track} {s : Setup env}, lastSetup track before = some s →
      storedRow conn.strMsg track = s.range := by
    intro track s hs
    rw [h.rows, hs]
    rfl
  have hvideo : ∀ {s : Setup env}, lastSetup .video before = some s → number s.ports.first < 2 ^ 16 →
      (HasVideoPort env conn.strMsg ↔ 0 < number s.ports.first) := by
    intro s hs hlt
    have hdigits : portDigits conn.strMsg Track.video.row ≠ [] := by
      rw [portDigits_eq, hrow hs, Setup.range, Ports.first_eq]
      exact s.ports.first_ne
    have hnumber := portNumber_eq (hrow hs) hlt
    constructor
    · rintro ⟨-, hne⟩
      rw [Nat.pos_iff_ne_zero]
      intro hzero
      rw [hzero] at hnumber
      exact hne hnumber
    · intro hpos
      refine ⟨hdigits, fun hzero => ?_⟩
      have hcast : (number s.ports.first : ℤ) = 0 := hnumber.symm.trans hzero
      omega
  rw [serve_play conn hplay]
  constructor
  · intro hcreated s hs
    obtain ⟨videoPort, audioPort, roomid, hdone, hwire, haudio⟩ := hcreated s hs
    have hlt : number s.ports.first < 2 ^ 16 := hwire ▸ wirePort_lt videoPort
    split_ifs at hdone with hport
    exact ⟨(hvideo hs hlt).mp hport, hlt, fun t ht => haudio t ht ▸ wirePort_lt audioPort⟩
  · intro hholds s hs
    obtain ⟨hpos, hlt, haudio⟩ := hholds s hs
    rw [if_pos ((hvideo hs hlt).mpr hpos)]
    refine ⟨_, _, _, rfl, ?_, fun t ht => ?_⟩
    · rw [portNumber_eq (hrow hs) hlt, wirePort_natCast hlt]
    · rw [portNumber_eq (hrow ht) (haudio t ht), wirePort_natCast (haudio t ht)]

/-- **When `SETUP` and `PLAY` agree**: at every `SETUP` the row whose turn it is has nothing in it. -/
theorem agree_iff (es : List (Incoming env)) : Agree es ↔ Holds es := by
  constructor
  · intro hagree
    constructor
    · intro before s conn hcomes
      exact (echoes_iff (stored_of_connServed before hcomes.2) s).mp (hagree.setup before s conn hcomes)
    · intro before e conn hcomes hplay
      exact (createdWith_iff (stored_of_connServed before hcomes.2) hplay).mp
        (hagree.play before e conn hcomes hplay)
  · intro hholds
    constructor
    · intro before s conn hcomes
      exact (echoes_iff (stored_of_connServed before hcomes.2) s).mpr (hholds.setup before s conn hcomes)
    · intro before e conn hcomes hplay
      exact (createdWith_iff (stored_of_connServed before hcomes.2) hplay).mpr
        (hholds.play before e conn hcomes hplay)

/-! ### A client -/

/-- The `SETUP` of a client for the video. -/
def videoSetup : Request where
  text := ascii
    "SETUP rtsp://h/trackID=1 RTSP/1.0\r\nCSeq: 1\r\nTransport: RTP/AVP;client_port=5000-5001\r\n\r\n"
  noNul := by decide
  fits := by decide

/-- And its parts. -/
def videoSetupParts : Setup plainServer where
  arrival := ⟨videoSetup, [], true, noTimeout⟩
  isSetup := by
    have hcseq : firstIndex cseqWord videoSetup.text = some 35 := by decide
    refine ⟨fun m hm => ?_, by decide, by decide⟩
    obtain rfl := Option.some.inj (hcseq.symm.trans hm)
    decide
  track := .video
  ports := ⟨ascii "5000", ascii "5001", by decide, by decide, by decide, by decide, by decide⟩
  head := ascii "SETUP rtsp://h/trackID=1 RTSP/1.0\r\nCSeq: 1\r\n"
  front := ascii "RTP/AVP;"
  back := []
  tail := ascii "\r\n"
  text_eq := by decide
  track_eq := by
    have hblank : videoSetup.text[24]? = some 0x20 := by decide
    refine ⟨14, by decide, by decide, fun b hb => ?_⟩
    obtain rfl := Option.some.inj (hblank.symm.trans hb)
    decide
  transport_first := by decide
  ports_once := by decide
  oneLine := by decide
  length_le := by decide
  range_ends := by decide

/-- The first request of a client: the ports of the video come twice. -/
theorem ports_twice :
    (serve plainServer .init videoSetupParts.arrival).2.response.bind transportValue =
        some (ascii "RTP/AVP;client_port=5000-50015000-5001") ∧
      ¬ Agree [Incoming.setup videoSetupParts] := by
  constructor
  · decide +kernel
  · intro hagree
    have hecho := hagree.setup [] videoSetupParts .init ⟨⟨[], rfl⟩, rfl⟩
    have hholds := (echoes_iff (stored_of_connServed [] rfl) videoSetupParts).mp hecho
    exact hholds.turn videoSetupParts List.mem_cons_self rfl

end Rtsp

end ReachEdukit
