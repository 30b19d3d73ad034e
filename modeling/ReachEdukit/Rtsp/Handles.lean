import ReachEdukit.Lib.Custody
import ReachEdukit.Lib.Run
import ReachEdukit.Rtsp.Clients

/-!
# The handles of the RTSP clients

A slot has one pointer for the handle of its client. `PLAY` writes it, and `PAUSE`, the exit of the
connection, `rtsp_close_all_client` and `rtsp_change_video_resolve` each read it, close what they
read and write `NULL`, with nothing that keeps two of them apart. Connections and callers are threads
here, and one step is one access to what they share; so they overlap in every way.

Nothing checks the pointer before it is written: a second `PLAY` forgets the handle of the first.
Nothing takes the handle out when it is read: two readers close it twice. And the slot is free before
its handle is closed.

## Given functions

`rtsp_porting_create_client` returns a handle that it has not returned before, or `NULL`. Closing
`NULL` does nothing.

## Main definitions

* `Thread.turn`, `serverStep` — one access of a thread, and the threads side by side
* `Watched` — the server, with who made each handle and where it is
* `Orderly` — an access that neither forgets a handle nor reads one that is not there
* `Owned` — what was done closes every handle once, for its own connection and in time

## Main results

* `custody_watch` — the server moves its handles as custody says
* `owned_of_orderly` — in a run whose accesses are orderly every handle is owned
-/

namespace ReachEdukit

namespace Rtsp

/-- The index of a slot. -/
abbrev Cli := Fin maxRtspClientNum

/-- Who runs: a connection, in the order they came, or a caller of the two other functions. -/
inductive Actor
  | conn (c : ℕ)
  | caller (k : ℕ)
  deriving DecidableEq, Repr

/-- What a thread has to do. -/
inductive Item
  /-- `g_rtsp_flag = 1`. -/
  | raiseFlag
  /-- `SETRTSPCLIENTTYPE`. -/
  | setType (cli : Cli) (type : ClientType)
  /-- The slot is given back. -/
  | free (cli : Cli)
  /-- The `if` of `rtsp_change_video_resolve`. -/
  | test (cli : Cli) (roomid : ℤ)
  /-- `GETRTSPCLIENT`, close, and `SETRTSPCLIENT` with `NULL`. -/
  | drop (cli : Cli)
  /-- The end of `RtspVlcContact`. -/
  | leave
  deriving DecidableEq, Repr

/-- Where a thread is in what it is doing. -/
inductive Stage
  /-- Between two items. -/
  | ready
  /-- `rtsp_porting_create_client` has returned; `SETRTSPROOMID` is next. -/
  | toRoom (cli : Cli) (roomid : ℤ) (client : Handle)
  /-- `SETRTSPCLIENT` is next. -/
  | toStore (cli : Cli) (client : Handle)
  /-- The pointer has been read; `rtsp_porting_close_client` is next. -/
  | toClose (cli : Cli) (client : Option Handle)
  /-- `SETRTSPCLIENT` with `NULL` is next. -/
  | toClear (cli : Cli)
  deriving DecidableEq, Repr

/-- A thread. -/
structure Thread where
  /-- `nPos`, of a connection that has not exited. -/
  slot : Option Cli
  /-- Where it is. -/
  stage : Stage
  /-- What comes next. -/
  todo : List Item
  deriving DecidableEq, Repr

/-- A thread that has nothing to do. -/
def Thread.idle (slot : Option Cli) : Thread := ⟨slot, .ready, []⟩

/-- What the threads share. -/
structure Shared where
  /-- `gRTSPCliPara`. -/
  slots : Slots
  /-- `g_rtsp_flag`. -/
  rtspFlag : Bool

/-- Write a slot. -/
def Shared.set (m : Shared) (cli : Cli) (slot : Slot) : Shared :=
  { m with slots := Function.update m.slots cli slot }

/-- What is done with handles, and the exits. -/
inductive HandleAct
  /-- `rtsp_porting_create_client` returned this handle to the connection. -/
  | created (c : ℕ) (h : Handle)
  /-- The handle was passed to `rtsp_porting_close_client`. -/
  | closed (a : Actor) (h : Handle)
  /-- The connection has exited. -/
  | exited (c : ℕ)
  deriving DecidableEq, Repr

/-- The exit of a thread, if it is a connection. -/
def Actor.exit : Actor → List HandleAct
  | .conn c => [.exited c]
  | .caller _ => []

/-! ### What the operations do -/

/-- `RtspPauseClient`. -/
def pauseItems (nPos : Cli) : List Item := [.drop nPos]

/-- `RtspDelClient`, and the end of `RtspVlcContact`. -/
def exitItems (nPos : Cli) : List Item := [.free nPos, .setType nPos .vlc, .drop nPos, .leave]

/-- `rtsp_close_all_client`. -/
def closeAllItems : List Item :=
  (List.finRange maxRtspClientNum).flatMap fun cli => [.setType cli .invalid, .drop cli]

/-- `rtsp_change_video_resolve`, behind its test of `g_rtsp_flag`. -/
def changeItems (roomid : ℤ) : List Item :=
  (List.finRange maxRtspClientNum).map fun cli => .test cli roomid

/-- An item that begins. -/
def Item.perform (m : Shared) (a : Actor) (t : Thread) : Item → Shared × Thread × List HandleAct
  | .raiseFlag => ({ m with rtspFlag := true }, t, [])
  | .setType cli type => (m.set cli { m.slots cli with clientType := type }, t, [])
  | .free cli => (m.set cli (m.slots cli).free, t, [])
  | .test cli roomid =>
    (m, if roomid = (m.slots cli).roomid ∧ (m.slots cli).clientType = .qt then
      { t with todo := .setType cli .invalid :: .drop cli :: t.todo } else t, [])
  | .drop cli => (m, { t with stage := .toClose cli (m.slots cli).client }, [])
  | .leave =>
    ({ m with rtspFlag := decide (rtspGetClientNum m.slots ≠ 0) }, { t with slot := none }, a.exit)

/-- One access of a thread. -/
def Thread.turn (m : Shared) (a : Actor) (t : Thread) : Shared × Thread × List HandleAct :=
  match t.stage with
  | .toRoom cli roomid h =>
    (m.set cli { m.slots cli with roomid := roomid }, { t with stage := .toStore cli h }, [])
  | .toStore cli h =>
    (m.set cli { m.slots cli with client := some h }, { t with stage := .ready }, [])
  | .toClose cli client =>
    (m, { t with stage := .toClear cli }, client.toList.map (.closed a))
  | .toClear cli => (m.set cli { m.slots cli with client := none }, { t with stage := .ready }, [])
  | .ready =>
    match t.todo with
    | [] => (m, t, [])
    | item :: rest => item.perform m a { t with todo := rest }

/-! ### The server -/

/-- The server with its threads. -/
structure Server where
  /-- What they share. -/
  shared : Shared
  /-- How many connections have come. -/
  conns : ℕ
  /-- The threads. -/
  threads : Actor → Thread

/-- A server that has started. -/
def Server.init : Server where
  shared := ⟨rtspThreadInit, false⟩
  conns := 0
  threads := fun _ => .idle none

/-- What a connection is asked for, `PLAY` apart. -/
inductive Order
  /-- `PAUSE`. -/
  | pause
  /-- A `DESCRIBE` that sets the kind of client. -/
  | describe (type : ClientType)
  /-- The end of the connection. -/
  | exit
  deriving DecidableEq, Repr

/-- The items of an order. -/
def Order.items (cli : Cli) : Order → List Item
  | .pause => pauseItems cli
  | .describe type => [.setType cli type]
  | .exit => exitItems cli

/-- What happens. -/
inductive ServerEvent
  /-- A connection comes, and is given a slot if there is one. -/
  | accept
  /-- `PLAY`: what `rtsp_porting_create_client` returns, for which stream. -/
  | play (c : ℕ) (roomid : ℤ) (client : Option Handle)
  /-- Another order. -/
  | order (c : ℕ) (o : Order)
  /-- `rtsp_close_all_client` is called. -/
  | closeAll (k : ℕ)
  /-- `rtsp_change_video_resolve` is called. -/
  | change (k : ℕ) (roomid : ℤ)
  /-- A thread goes on. -/
  | run (a : Actor)
  deriving DecidableEq, Repr

/-- The slot of a connection that waits for a request. -/
def Server.listening (s : Server) (c : ℕ) : Option Cli :=
  if (s.threads (.conn c)).stage = .ready ∧ (s.threads (.conn c)).todo = [] then
    (s.threads (.conn c)).slot
  else none

/-- A thread is replaced. -/
def Server.put (s : Server) (a : Actor) (t : Thread) : Server :=
  { s with threads := Function.update s.threads a t }

/-- A caller begins, if he is not in a call. -/
def Server.call (s : Server) (k : ℕ) (items : List Item) : Server :=
  if s.threads (.caller k) = .idle none then s.put (.caller k) ⟨none, .ready, items⟩ else s

/-- The thread of a `PLAY`, in `RtspAddClient`. -/
def playThread (cli : Cli) (roomid : ℤ) : Option Handle → Thread
  | some h => ⟨some cli, .toRoom cli roomid h, [.raiseFlag]⟩
  | none => ⟨some cli, .ready, [.raiseFlag]⟩

/-- One event, and what is done. -/
def serverStep (s : Server) : ServerEvent → Server × List HandleAct
  | .accept =>
    match rtspGetNullClientIndex s.shared.slots with
    | (slots, some cli) =>
      ({ s with shared.slots := slots, conns := s.conns + 1 }.put (.conn s.conns)
        (.idle (some cli)), [])
    | (_, none) => (s, [])
  | .play c roomid client =>
    match s.listening c with
    | some cli => (s.put (.conn c) (playThread cli roomid client), client.toList.map (.created c))
    | none => (s, [])
  | .order c o =>
    match s.listening c with
    | some cli => (s.put (.conn c) ⟨some cli, .ready, o.items cli⟩, [])
    | none => (s, [])
  | .closeAll k => (s.call k closeAllItems, [])
  | .change k roomid => (if s.shared.rtspFlag then s.call k (changeItems roomid) else s, [])
  | .run a =>
    let r := (s.threads a).turn s.shared a
    ({ s with shared := r.1 }.put a r.2.1, r.2.2)

/-- What is done in a run. -/
def handleLog (es : List ServerEvent) : List HandleAct :=
  (Run.outs serverStep .init es).flatten

/-! ### Ownership -/

/-- The handle is closed. -/
def HandleAct.closes (h : Handle) : HandleAct → Bool
  | .closed _ h' => h' = h
  | _ => false

/-- Every handle is closed at most once, by no connection but its own, and before that one has
exited. -/
structure Owned (log : List HandleAct) : Prop where
  /-- Not twice. -/
  once : ∀ h, log.countP (HandleAct.closes h) ≤ 1
  /-- What is closed was created, and if a connection closes it by this connection. -/
  own : ∀ a h, .closed a h ∈ log →
    ∃ c, .created c h ∈ log ∧ ∀ c', a = .conn c' → c' = c
  /-- By the exit of its connection. -/
  exited : ∀ pre c post, log = pre ++ .exited c :: post → ∀ h, .created c h ∈ pre →
    ∃ a, .closed a h ∈ pre

/-! ### Custody -/

/-- The handle that a thread has in hand. -/
def Stage.hand : Stage → Option Handle
  | .ready => none
  | .toRoom _ _ h => some h
  | .toStore _ h => some h
  | .toClose _ client => client
  | .toClear _ => none

/-- What a thread's next access does with handles. -/
def Thread.move (a : Actor) (t : Thread) : Option (Custody.Move Actor Cli Handle) :=
  match t.stage with
  | .toRoom .. => none
  | .toStore cli _ => some (.put a cli)
  | .toClose .. => some (.close a)
  | .toClear cli => some (.wipe cli)
  | .ready =>
    match t.todo with
    | .drop cli :: _ => some (.take a cli)
    | _ => none

/-- What an event does with handles. -/
def handleMove (s : Server) : ServerEvent → Option (Custody.Move Actor Cli Handle)
  | .play c _ (some h) => if (s.listening c).isSome then some (.make (.conn c) h) else none
  | .run a => (s.threads a).move a
  | _ => none

/-- The server, with who made each handle and who holds it. -/
structure Watched where
  /-- The server. -/
  server : Server
  /-- The connection that a handle was returned to. -/
  made : Handle → Option ℕ
  /-- The holder of a handle. -/
  holder : Handle → Option (Holder Actor Cli)

/-- A server that has started. -/
def Watched.init : Watched := ⟨.init, fun _ => none, fun _ => none⟩

/-- Custody of the handles: the stages of the threads are the hands, the pointers the places. -/
def Watched.custody (w : Watched) : Custody Actor Cli Handle where
  hand := fun a => (w.server.threads a).stage.hand
  place := fun cli => (w.server.shared.slots cli).client
  holder := w.holder

/-- Who made a handle, after a move. -/
def madeAfter (made : Handle → Option ℕ) :
    Option (Custody.Move Actor Cli Handle) → Handle → Option ℕ
  | some (.make (.conn c) h) => Function.update made h (some c)
  | _ => made

/-- One event of a watched server. -/
def watch (w : Watched) (e : ServerEvent) : Watched × List HandleAct :=
  ({ server := (serverStep w.server e).1
     made := madeAfter w.made (handleMove w.server e)
     holder := ((handleMove w.server e).elim w.custody w.custody.move).holder },
    (serverStep w.server e).2)

/-! ### Orderly runs -/

/-- What is created is new. -/
def CreatesFresh (w : Watched) : ServerEvent → Prop
  | .play _ _ (some h) => w.made h = none
  | _ => True

instance (w : Watched) : (e : ServerEvent) → Decidable (CreatesFresh w e)
  | .play _ _ (some h) => inferInstanceAs (Decidable (w.made h = none))
  | .play _ _ none | .accept | .order .. | .closeAll _ | .change .. | .run _ => .isTrue trivial

/-- Who may close a handle: a connection its own, a caller any. -/
def Actor.MayClose : Actor → Option ℕ → Prop
  | .conn c, made => made = some c
  | .caller _, _ => True

instance : (a : Actor) → (made : Option ℕ) → Decidable (a.MayClose made)
  | .conn c, made => inferInstanceAs (Decidable (made = some c))
  | .caller _, _ => .isTrue trivial

/-- An access to a pointer is orderly: what is written over is not held there any more; what is read
is, and the reader may close it. -/
def OrderlyAccess (w : Watched) : Custody.Move Actor Cli Handle → Prop
  | .put _ cli => w.custody.Idle cli
  | .wipe cli => w.custody.Idle cli
  | .take a cli =>
    w.custody.Holds cli ∧ ∀ h, w.custody.place cli = some h → a.MayClose (w.made h)
  | _ => True

instance (w : Watched) : (m : Custody.Move Actor Cli Handle) → Decidable (OrderlyAccess w m)
  | .put _ cli | .wipe cli => inferInstanceAs (Decidable (w.custody.Idle cli))
  | .take a cli =>
    inferInstanceAs (Decidable (_ ∧ ∀ h ∈ w.custody.place cli, a.MayClose (w.made h)))
  | .make .. | .close _ => .isTrue trivial

/-- The connection that exits in an event. -/
def leaver (s : Server) : ServerEvent → Option ℕ
  | .run (.conn c) =>
    if (s.threads (.conn c)).stage = .ready ∧ (s.threads (.conn c)).todo = [.leave] then some c
    else none
  | _ => none

/-- A step is orderly: so is its access, and no other thread has a handle in hand that a connection
which exits has made. -/
def Orderly (w : Watched) (e : ServerEvent) : Prop :=
  (∀ m, handleMove w.server e = some m → OrderlyAccess w m) ∧
    ∀ c, leaver w.server e = some c → ∀ h b, w.made h = some c → w.holder h ≠ some (.agent b)

/-! ### The shape of the threads -/

/-- The slot and the handle that a thread is going to store. -/
def Stage.storing : Stage → Option (Cli × Handle)
  | .toRoom cli _ h => some (cli, h)
  | .toStore cli h => some (cli, h)
  | _ => none

/-- What is left of a `PLAY` or of another order. -/
def Within (cli : Cli) (todo : List Item) : Prop :=
  todo <:+ [.raiseFlag] ∨ ∃ o : Order, todo <:+ o.items cli

/-- The thread of a connection. -/
structure ConnShape (t : Thread) : Prop where
  /-- One that has not come or has exited does nothing. -/
  gone : t.slot = none → t = .idle none
  /-- Any other does what it was asked for. -/
  within : ∀ cli, t.slot = some cli → Within cli t.todo
  /-- It stores into its own slot, in a `PLAY`. -/
  storing : ∀ cli h, t.stage.storing = some (cli, h) → t.slot = some cli ∧ t.todo = [.raiseFlag]

/-- The threads of a server. -/
structure Shaped (s : Server) : Prop where
  /-- Connections that have not come. -/
  unborn : ∀ c, s.conns ≤ c → s.threads (.conn c) = .idle none
  /-- Connections. -/
  conn : ∀ c, ConnShape (s.threads (.conn c))
  /-- Callers store nothing. -/
  caller : ∀ k, (s.threads (.caller k)).stage.storing = none

theorem connShape_idle (slot : Option Cli) : ConnShape (.idle slot) where
  gone h := by
    rw [show slot = none from h]
  within _ _ := .inl (List.nil_suffix ..)
  storing _ _ h := by cases h

theorem connShape_playThread (cli : Cli) (roomid : ℤ) (client : Option Handle) :
    ConnShape (playThread cli roomid client) where
  gone h := by rcases client with _ | h' <;> cases h
  within cli' h := by rcases client with _ | h' <;> exact .inl (List.suffix_refl _)
  storing cli' h hstores := by
    rcases client with _ | h'
    · cases hstores
    · obtain ⟨rfl, -⟩ := Prod.mk.inj (Option.some.inj hstores)
      exact ⟨rfl, rfl⟩

theorem connShape_order (cli : Cli) (o : Order) : ConnShape ⟨some cli, .ready, o.items cli⟩ where
  gone h := by cases h
  within cli' h := by
    obtain rfl : cli = cli' := Option.some.inj h
    exact .inr ⟨o, List.suffix_refl _⟩
  storing _ _ h := by cases h

/-- The first item of what is left. -/
theorem Within.cases {cli : Cli} {item : Item} {rest : List Item} (h : Within cli (item :: rest)) :
    ((item = .raiseFlag ∨ (∃ type, item = .setType cli type) ∨ item = .free cli) ∧
      rest ≠ [.leave]) ∨
    item = .drop cli ∨ (item = .leave ∧ rest = []) := by
  rcases h with h | ⟨o, h⟩
  · simp only [List.suffix_cons_iff, List.suffix_nil, List.cons.injEq, reduceCtorEq, or_false] at h
    exact .inl ⟨.inl h.1, by simp [h.2]⟩
  · rcases o with _ | type | _ <;>
      simp only [Order.items, pauseItems, exitItems, List.suffix_cons_iff, List.suffix_nil,
        List.cons.injEq, reduceCtorEq, or_false] at h
    · exact .inr (.inl h.1)
    · exact .inl ⟨.inr (.inl ⟨type, h.1⟩), by simp [h.2]⟩
    · rcases h with ⟨h, hrest⟩ | ⟨h, hrest⟩ | ⟨h, -⟩ | h
      · exact .inl ⟨.inr (.inr h), by simp [hrest]⟩
      · exact .inl ⟨.inr (.inl ⟨_, h⟩), by simp [hrest]⟩
      · exact .inr (.inl h)
      · exact .inr (.inr h)

theorem Within.tail {cli : Cli} {item : Item} {rest : List Item} (h : Within cli (item :: rest)) :
    Within cli rest := by
  rcases h with h | ⟨o, h⟩
  · exact .inl ((List.suffix_cons ..).trans h)
  · exact .inr ⟨o, (List.suffix_cons ..).trans h⟩

/-- What a turn makes of a connection: it ends an access, it begins one, or it ends. -/
theorem ConnShape.turn_cases {t : Thread} (ht : ConnShape t) (m : Shared) (a : Actor) :
    (∃ cli roomid h, t.stage = .toRoom cli roomid h ∧
      (t.turn m a).2.1 = { t with stage := .toStore cli h }) ∨
    (∃ cli h, t.stage = .toStore cli h ∧ (t.turn m a).2.1 = { t with stage := .ready }) ∨
    (∃ cli client, t.stage = .toClose cli client ∧
      (t.turn m a).2.1 = { t with stage := .toClear cli }) ∨
    (∃ cli, t.stage = .toClear cli ∧ (t.turn m a).2.1 = { t with stage := .ready }) ∨
    (t.stage = .ready ∧ t.todo = [] ∧ (t.turn m a).2.1 = t) ∨
    (∃ cli item rest, t.stage = .ready ∧ t.slot = some cli ∧ t.todo = item :: rest ∧
      rest ≠ [.leave] ∧ (t.turn m a).2.1 = { t with todo := rest }) ∨
    (∃ cli rest, t.stage = .ready ∧ t.slot = some cli ∧ t.todo = .drop cli :: rest ∧
      (t.turn m a).2.1 = { t with stage := .toClose cli (m.slots cli).client, todo := rest }) ∨
    (t.stage = .ready ∧ t.todo = [.leave] ∧ (t.turn m a).2.1 = .idle none) := by
  obtain ⟨slot, stage, todo⟩ := t
  rcases stage with _ | ⟨cli, roomid, h⟩ | ⟨cli, h⟩ | ⟨cli, client⟩ | cli
  · rcases todo with _ | ⟨item, rest⟩
    · exact .inr (.inr (.inr (.inr (.inl ⟨rfl, rfl, rfl⟩))))
    · rcases slot with _ | cli
      · cases ht.gone rfl
      · rcases (ht.within cli rfl).cases with ⟨hitem, hrest⟩ | rfl | ⟨rfl, rfl⟩
        · refine .inr (.inr (.inr (.inr (.inr (.inl ⟨cli, item, rest, rfl, rfl, rfl, hrest, ?_⟩)))))
          rcases hitem with rfl | ⟨type, rfl⟩ | rfl <;> rfl
        · exact .inr (.inr (.inr (.inr (.inr (.inr (.inl ⟨cli, rest, rfl, rfl, rfl, rfl⟩))))))
        · exact .inr (.inr (.inr (.inr (.inr (.inr (.inr ⟨rfl, rfl, rfl⟩))))))
  · exact .inl ⟨cli, roomid, h, rfl, rfl⟩
  · exact .inr (.inl ⟨cli, h, rfl, rfl⟩)
  · exact .inr (.inr (.inl ⟨cli, client, rfl, rfl⟩))
  · exact .inr (.inr (.inr (.inl ⟨cli, rfl, rfl⟩)))

/-- A connection goes on: with less to do, and with nothing new to store. -/
theorem ConnShape.goOn {t : Thread} (ht : ConnShape t) {stage : Stage} {todo : List Item}
    (hslot : t.slot ≠ none) (hwithin : ∀ cli, t.slot = some cli → Within cli todo)
    (hstage : stage.storing = none ∨ stage.storing = t.stage.storing ∧ todo = t.todo) :
    ConnShape ⟨t.slot, stage, todo⟩ where
  gone h := absurd h hslot
  within := hwithin
  storing cli h hstores := by
    rcases hstage with hnone | ⟨hsame, htodo⟩
    · rw [hnone] at hstores
      cases hstores
    · rw [hsame] at hstores
      rw [htodo]
      exact ht.storing cli h hstores

theorem ConnShape.turn {t : Thread} (ht : ConnShape t) (m : Shared) (a : Actor) :
    ConnShape (t.turn m a).2.1 := by
  have hbusy : t.stage ≠ .ready → t.slot ≠ none := by
    intro hstage hslot
    rw [ht.gone hslot] at hstage
    exact hstage rfl
  have hstored : ∀ {item rest}, t.todo = item :: rest → ∀ cli, t.slot = some cli →
      Within cli rest := by
    intro item rest htodo cli hslot
    exact (htodo ▸ ht.within cli hslot).tail
  rcases ht.turn_cases m a with ⟨cli, roomid, h, hstage, heq⟩ | ⟨cli, h, hstage, heq⟩ |
    ⟨cli, client, hstage, heq⟩ | ⟨cli, hstage, heq⟩ | ⟨-, -, heq⟩ |
    ⟨cli, item, rest, hstage, hslot, htodo, -, heq⟩ | ⟨cli, rest, hstage, hslot, htodo, heq⟩ |
    ⟨-, -, heq⟩ <;> rw [heq]
  · exact ht.goOn (hbusy (by simp [hstage])) ht.within (.inr ⟨by rw [hstage]; rfl, rfl⟩)
  · exact ht.goOn (hbusy (by simp [hstage])) ht.within (.inl rfl)
  · exact ht.goOn (hbusy (by simp [hstage])) ht.within (.inl rfl)
  · exact ht.goOn (hbusy (by simp [hstage])) ht.within (.inl rfl)
  · exact ht
  · exact ht.goOn (by simp [hslot]) (hstored htodo) (.inl (by rw [hstage]; rfl))
  · exact ht.goOn (by simp [hslot]) (hstored htodo) (.inl rfl)
  · exact connShape_idle none

theorem ConnShape.slot_turn {t : Thread} (ht : ConnShape t) (m : Shared) (a : Actor) :
    (t.turn m a).2.1.slot = t.slot ∨ t.todo = [.leave] := by
  rcases ht.turn_cases m a with ⟨_, _, _, -, heq⟩ | ⟨_, _, -, heq⟩ | ⟨_, _, -, heq⟩ |
    ⟨_, -, heq⟩ | ⟨-, -, heq⟩ | ⟨_, _, _, -, -, -, -, heq⟩ | ⟨_, _, -, -, -, heq⟩ | ⟨-, htodo, -⟩
  · exact .inl (by rw [heq])
  · exact .inl (by rw [heq])
  · exact .inl (by rw [heq])
  · exact .inl (by rw [heq])
  · exact .inl (by rw [heq])
  · exact .inl (by rw [heq])
  · exact .inl (by rw [heq])
  · exact .inr htodo

theorem ConnShape.todo_turn {t : Thread} (ht : ConnShape t) {m : Shared} {a : Actor}
    (htodo : (t.turn m a).2.1.todo = [.leave]) :
    t.todo = [.leave] ∨
      ∃ cli rest, t.stage = .ready ∧ t.slot = some cli ∧ t.todo = .drop cli :: rest := by
  rcases ht.turn_cases m a with ⟨_, _, _, -, heq⟩ | ⟨_, _, -, heq⟩ | ⟨_, _, -, heq⟩ |
    ⟨_, -, heq⟩ | ⟨-, -, heq⟩ | ⟨_, _, _, -, -, -, hrest, heq⟩ |
    ⟨cli, rest, hstage, hslot, hdrop, -⟩ | ⟨-, hleave, -⟩
  · exact .inl (by rwa [heq] at htodo)
  · exact .inl (by rwa [heq] at htodo)
  · exact .inl (by rwa [heq] at htodo)
  · exact .inl (by rwa [heq] at htodo)
  · exact .inl (by rwa [heq] at htodo)
  · rw [heq] at htodo
    exact absurd htodo hrest
  · exact .inr ⟨cli, rest, hstage, hslot, hdrop⟩
  · exact .inl hleave

/-- A caller's turn leaves him with nothing to store. -/
theorem storing_turn {t : Thread} (ht : t.stage.storing = none) (m : Shared) (a : Actor) :
    (t.turn m a).2.1.stage.storing = none := by
  obtain ⟨slot, stage, todo⟩ := t
  rcases stage with _ | ⟨cli, roomid, h⟩ | ⟨cli, h⟩ | ⟨cli, client⟩ | cli
  · rcases todo with _ | ⟨item, rest⟩
    · rfl
    · rcases item with _ | ⟨cli, type⟩ | cli | ⟨cli, roomid⟩ | cli | _
      case test =>
        simp only [Thread.turn, Item.perform]
        split <;> rfl
      all_goals rfl
  all_goals first | rfl | cases ht

/-! ### One event -/

@[simp] theorem put_threads (s : Server) (a b : Actor) (t : Thread) :
    (s.put a t).threads b = if b = a then t else s.threads b := Function.update_apply ..

@[simp] theorem put_shared (s : Server) (a : Actor) (t : Thread) : (s.put a t).shared = s.shared :=
  rfl

@[simp] theorem put_conns (s : Server) (a : Actor) (t : Thread) : (s.put a t).conns = s.conns := rfl

theorem listening_eq_some {s : Server} {c : ℕ} {cli : Cli} (h : s.listening c = some cli) :
    s.threads (.conn c) = .idle (some cli) := by
  simp only [Server.listening] at h
  split at h
  · next hready =>
    obtain ⟨hstage, htodo⟩ := hready
    rcases hthread : s.threads (.conn c) with ⟨slot, stage, todo⟩
    rw [hthread] at h hstage htodo
    rw [Thread.idle, ← h, ← hstage, ← htodo]
  · cases h

theorem call_cases (s : Server) (k : ℕ) (items : List Item) (a : Actor) :
    (s.call k items).threads a = s.threads a ∨
    (a = .caller k ∧ s.threads a = .idle none ∧
      (s.call k items).threads a = ⟨none, .ready, items⟩) := by
  rw [Server.call]
  split
  · next hidle =>
    by_cases ha : a = .caller k
    · exact .inr ⟨ha, by rw [ha, hidle], by simp [ha]⟩
    · exact .inl (by simp [ha])
  · exact .inl rfl

/-- What an event makes of a thread: a connection comes, is asked for something, a caller begins, or
the thread has a turn. -/
theorem thread_cases (s : Server) (e : ServerEvent) (a : Actor) :
    (serverStep s e).1.threads a = s.threads a ∨
    (e = .accept ∧ a = .conn s.conns ∧
      ∃ cli, (serverStep s e).1.threads a = .idle (some cli)) ∨
    (∃ c cli roomid client, e = .play c roomid client ∧ a = .conn c ∧
      s.threads a = .idle (some cli) ∧
      (serverStep s e).1.threads a = playThread cli roomid client) ∨
    (∃ c cli, ∃ o : Order, a = .conn c ∧ s.threads a = .idle (some cli) ∧
      (serverStep s e).1.threads a = ⟨some cli, .ready, o.items cli⟩) ∨
    (∃ k items, a = .caller k ∧ s.threads a = .idle none ∧
      (serverStep s e).1.threads a = ⟨none, .ready, items⟩) ∨
    (e = .run a ∧ (serverStep s e).1.threads a = ((s.threads a).turn s.shared a).2.1) := by
  rcases e with _ | ⟨c, roomid, client⟩ | ⟨c, o⟩ | k | ⟨k, roomid⟩ | b
  · simp only [serverStep]
    split
    · next slots cli hfree =>
      by_cases ha : a = .conn s.conns
      · exact .inr (.inl ⟨trivial, ha, cli, by simp [ha]⟩)
      · exact .inl (by simp [ha])
    · exact .inl rfl
  · simp only [serverStep]
    split
    · next cli hcli =>
      by_cases ha : a = .conn c
      · refine .inr (.inr (.inl ⟨c, cli, roomid, client, rfl, ha, ?_, by simp [ha]⟩))
        rw [ha]
        exact listening_eq_some hcli
      · exact .inl (by simp [ha])
    · exact .inl rfl
  · simp only [serverStep]
    split
    · next cli hcli =>
      by_cases ha : a = .conn c
      · refine .inr (.inr (.inr (.inl ⟨c, cli, o, ha, ?_, by simp [ha]⟩)))
        rw [ha]
        exact listening_eq_some hcli
      · exact .inl (by simp [ha])
    · exact .inl rfl
  · exact (call_cases s k closeAllItems a).imp_right fun h =>
      .inr (.inr (.inr (.inl ⟨k, _, h⟩)))
  · simp only [serverStep]
    split
    · exact (call_cases s k (changeItems roomid) a).imp_right fun h =>
        .inr (.inr (.inr (.inl ⟨k, _, h⟩)))
    · exact .inl rfl
  · by_cases ha : a = b
    · refine .inr (.inr (.inr (.inr (.inr ⟨by rw [ha], ?_⟩))))
      simp [serverStep, ha]
    · exact .inl (by simp [serverStep, ha])

/-- Leaving is the last thing that a connection does. -/
theorem Shaped.rest_of_leave {s : Server} (hs : Shaped s) {c : ℕ} {rest : List Item}
    (htodo : (s.threads (.conn c)).todo = .leave :: rest) : rest = [] := by
  rcases hslot : (s.threads (.conn c)).slot with _ | cli
  · rw [(hs.conn c).gone hslot] at htodo
    cases htodo
  · rcases (htodo ▸ (hs.conn c).within cli hslot).cases with ⟨h | ⟨_, h⟩ | h, -⟩ | h | ⟨-, h⟩
    · cases h
    · cases h
    · cases h
    · cases h
    · exact h

theorem shaped_init : Shaped .init where
  unborn _ _ := rfl
  conn _ := connShape_idle none
  caller _ := rfl

theorem conns_le (s : Server) (e : ServerEvent) : s.conns ≤ (serverStep s e).1.conns := by
  rcases e with _ | ⟨c, roomid, client⟩ | ⟨c, o⟩ | k | ⟨k, roomid⟩ | b <;>
    simp only [serverStep, Server.call]
  case accept =>
    split
    · exact Nat.le_succ _
    · exact Nat.le_refl _
  case run => exact Nat.le_refl _
  all_goals
    repeat' split
    all_goals exact Nat.le_refl _

theorem accept_conns {s : Server} {cli : Cli}
    (h : (serverStep s .accept).1.threads (.conn s.conns) = .idle (some cli))
    (hidle : s.threads (.conn s.conns) = .idle none) :
    (serverStep s .accept).1.conns = s.conns + 1 := by
  simp only [serverStep] at h ⊢
  split
  · rfl
  · next hfull =>
    simp only [hfull, hidle] at h
    cases h

theorem Shaped.step {s : Server} (hs : Shaped s) (e : ServerEvent) :
    Shaped (serverStep s e).1 where
  unborn c hc := by
    have hle := conns_le s e
    have hidle := hs.unborn c (hle.trans hc)
    rcases thread_cases s e (.conn c) with h | ⟨rfl, hconn, cli, h⟩ |
      ⟨c', cli, roomid, client, -, -, hbusy, -⟩ | ⟨c', cli, o, -, hbusy, -⟩ | ⟨k, items, hconn, -⟩ |
      ⟨-, h⟩
    · rw [h, hidle]
    · obtain rfl : c = s.conns := Actor.conn.inj hconn
      have hnext := accept_conns h hidle
      omega
    · rw [hidle] at hbusy
      cases hbusy
    · rw [hidle] at hbusy
      cases hbusy
    · cases hconn
    · rw [h, hidle]
      rfl
  conn c := by
    rcases thread_cases s e (.conn c) with h | ⟨-, -, cli, h⟩ |
      ⟨c', cli, roomid, client, -, -, -, h⟩ | ⟨c', cli, o, -, -, h⟩ | ⟨k, items, hconn, -⟩ |
      ⟨-, h⟩
    · exact h ▸ hs.conn c
    · exact h ▸ connShape_idle _
    · exact h ▸ connShape_playThread ..
    · exact h ▸ connShape_order ..
    · cases hconn
    · exact h ▸ (hs.conn c).turn ..
  caller k := by
    rcases thread_cases s e (.caller k) with h | ⟨-, hcaller, -⟩ |
      ⟨c', cli, roomid, client, -, hcaller, -⟩ | ⟨c', cli, o, hcaller, -⟩ | ⟨k', items, -, -, h⟩ |
      ⟨-, h⟩
    · exact h ▸ hs.caller k
    · cases hcaller
    · cases hcaller
    · cases hcaller
    · rw [h]
      rfl
    · rw [h]
      exact storing_turn (hs.caller k) ..

/-! ### The server moves its handles as custody says -/

/-- What the threads have in hand. -/
def Server.hands (s : Server) : Actor → Option Handle := fun a => (s.threads a).stage.hand

/-- The pointers. -/
def Shared.clients (m : Shared) : Cli → Option Handle := fun cli => (m.slots cli).client

@[simp] theorem hands_put (s : Server) (a : Actor) (t : Thread) :
    (s.put a t).hands = Function.update s.hands a t.stage.hand := by
  funext b
  show ((s.put a t).threads b).stage.hand = Function.update s.hands a t.stage.hand b
  rw [put_threads, Function.update_apply]
  split <;> rfl

@[simp] theorem clients_set (m : Shared) (cli : Cli) (slot : Slot) :
    (m.set cli slot).clients = Function.update m.clients cli slot.client := by
  funext i
  show (Function.update m.slots cli slot i).client = Function.update m.clients cli slot.client i
  rw [Function.update_apply, Function.update_apply]
  split <;> rfl

theorem clients_set_same {m : Shared} {cli : Cli} {slot : Slot}
    (h : slot.client = (m.slots cli).client) : (m.set cli slot).clients = m.clients := by
  rw [clients_set]
  exact Function.update_eq_self_iff.mpr h

/-- A turn of a thread changes its hand and the pointers as its move says. -/
theorem custody_turn (c : Custody Actor Cli Handle) {m : Shared} {a : Actor} {t : Thread}
    (hhand : c.hand a = t.stage.hand) (hplace : c.place = m.clients) :
    Function.update c.hand a (t.turn m a).2.1.stage.hand =
        (t.move a).elim c.hand c.handAfter ∧
      (t.turn m a).1.clients = (t.move a).elim c.place c.placeAfter := by
  obtain ⟨slot, stage, todo⟩ := t
  rcases stage with _ | ⟨cli, roomid, h⟩ | ⟨cli, h⟩ | ⟨cli, client⟩ | cli
  · have hsame : Function.update c.hand a none = c.hand := Function.update_eq_self_iff.mpr hhand.symm
    rcases todo with _ | ⟨item, rest⟩
    · exact ⟨hsame, hplace.symm⟩
    · rcases item with _ | ⟨cli, type⟩ | cli | ⟨cli, roomid⟩ | cli | _
      · exact ⟨hsame, hplace.symm⟩
      · refine ⟨hsame, ?_⟩
        show (m.set cli { m.slots cli with clientType := type }).clients = c.place
        rw [hplace]
        exact clients_set_same rfl
      · refine ⟨hsame, ?_⟩
        show (m.set cli (m.slots cli).free).clients = c.place
        rw [hplace]
        exact clients_set_same rfl
      · refine ⟨?_, hplace.symm⟩
        simp only [Thread.turn, Item.perform]
        split <;> exact hsame
      · refine ⟨?_, hplace.symm⟩
        show Function.update c.hand a (m.slots cli).client = Function.update c.hand a (c.place cli)
        rw [hplace]
        rfl
      · exact ⟨hsame, hplace.symm⟩
  · refine ⟨Function.update_eq_self_iff.mpr hhand.symm, ?_⟩
    show (m.set cli { m.slots cli with roomid := roomid }).clients = c.place
    rw [hplace]
    exact clients_set_same rfl
  · refine ⟨rfl, ?_⟩
    show (m.set cli { m.slots cli with client := some h }).clients =
      Function.update c.place cli (c.hand a)
    rw [clients_set, hplace, hhand]
    rfl
  · exact ⟨rfl, hplace.symm⟩
  · refine ⟨Function.update_eq_self_iff.mpr hhand.symm, ?_⟩
    show (m.set cli { m.slots cli with client := none }).clients = Function.update c.place cli none
    rw [clients_set, hplace]

theorem clients_of_rtspGetNullClientIndex {m : Shared} {slots : Slots} {cli : Cli}
    (h : rtspGetNullClientIndex m.slots = (slots, some cli)) :
    ({ m with slots := slots } : Shared).clients = m.clients := by
  rw [rtspGetNullClientIndex] at h
  split at h
  · next cli' hfree =>
    obtain ⟨rfl, -⟩ := Prod.mk.inj h
    show (m.set cli' { m.slots cli' with used := true, clientType := .vlc }).clients = m.clients
    exact clients_set_same rfl
  · cases (Prod.mk.inj h).2

theorem hands_put_same {s : Server} {a : Actor} {t : Thread}
    (h : t.stage.hand = (s.threads a).stage.hand) : (s.put a t).hands = s.hands := by
  rw [hands_put]
  exact Function.update_eq_self_iff.mpr h

theorem hands_call (s : Server) (k : ℕ) (items : List Item) : (s.call k items).hands = s.hands := by
  rw [Server.call]
  split
  · next hidle => exact hands_put_same (by rw [hidle]; rfl)
  · rfl

theorem shared_call (s : Server) (k : ℕ) (items : List Item) : (s.call k items).shared = s.shared := by
  rw [Server.call]
  split <;> rfl

/-- The hands and the pointers after an event. -/
theorem custody_step {w : Watched} (hs : Shaped w.server) (e : ServerEvent) :
    (serverStep w.server e).1.hands =
        (handleMove w.server e).elim w.custody.hand w.custody.handAfter ∧
      (serverStep w.server e).1.shared.clients =
        (handleMove w.server e).elim w.custody.place w.custody.placeAfter := by
  rcases e with _ | ⟨c, roomid, client⟩ | ⟨c, o⟩ | k | ⟨k, roomid⟩ | a
  · simp only [serverStep]
    split
    · next slots cli hfree =>
      refine ⟨?_, clients_of_rtspGetNullClientIndex hfree⟩
      rw [hands_put]
      exact Function.update_eq_self_iff.mpr (by
        show none = (w.server.threads (.conn w.server.conns)).stage.hand
        rw [hs.unborn _ (Nat.le_refl _)]
        rfl)
    · exact ⟨rfl, rfl⟩
  · rcases hcli : w.server.listening c with _ | cli
    · rcases client with _ | h <;> simp only [serverStep, handleMove, hcli] <;> exact ⟨rfl, rfl⟩
    · rcases client with _ | h
      · simp only [serverStep, handleMove, hcli]
        exact ⟨hands_put_same (by rw [listening_eq_some hcli]; rfl), rfl⟩
      · simp only [serverStep, handleMove, hcli]
        exact ⟨hands_put .., rfl⟩
  · rcases hcli : w.server.listening c with _ | cli
    · simp only [serverStep, handleMove, hcli]
      exact ⟨rfl, rfl⟩
    · simp only [serverStep, handleMove, hcli]
      exact ⟨hands_put_same (by rw [listening_eq_some hcli]; rfl), rfl⟩
  · exact ⟨hands_call .., congrArg Shared.clients (shared_call ..)⟩
  · simp only [serverStep]
    split
    · exact ⟨hands_call .., congrArg Shared.clients (shared_call ..)⟩
    · exact ⟨rfl, rfl⟩
  · obtain ⟨hhand, hplace⟩ := custody_turn w.custody (m := w.server.shared) (a := a)
      (t := w.server.threads a) rfl rfl
    refine ⟨?_, hplace⟩
    simp only [serverStep]
    rw [hands_put]
    exact hhand

/-- **The server moves its handles as custody says.** -/
theorem custody_watch {w : Watched} (hs : Shaped w.server) (e : ServerEvent) :
    (watch w e).1.custody = (handleMove w.server e).elim w.custody w.custody.move := by
  obtain ⟨hhand, hplace⟩ := custody_step hs e
  rcases hmove : handleMove w.server e with _ | m
  · rw [hmove] at hhand hplace
    refine Custody.ext hhand hplace ?_
    show ((handleMove w.server e).elim w.custody w.custody.move).holder = _
    rw [hmove]
  · rw [hmove] at hhand hplace
    refine Custody.ext hhand hplace ?_
    show ((handleMove w.server e).elim w.custody w.custody.move).holder = _
    rw [hmove]

/-! ### What a move comes from -/

theorem move_cases {t : Thread} {a : Actor} {m : Custody.Move Actor Cli Handle}
    (hmove : t.move a = some m) :
    (∃ cli h, t.stage = .toStore cli h ∧ m = .put a cli) ∨
    (∃ cli rest, t.stage = .ready ∧ t.todo = .drop cli :: rest ∧ m = .take a cli) ∨
    (∃ cli client, t.stage = .toClose cli client ∧ m = .close a) ∨
    ∃ cli, t.stage = .toClear cli ∧ m = .wipe cli := by
  obtain ⟨slot, stage, todo⟩ := t
  rcases stage with _ | ⟨cli, roomid, h⟩ | ⟨cli, h⟩ | ⟨cli, client⟩ | cli
  · rcases todo with _ | ⟨item, rest⟩
    · cases hmove
    · rcases item with _ | ⟨cli, type⟩ | cli | ⟨cli, roomid⟩ | cli | _
      case drop => exact .inr (.inl ⟨cli, rest, rfl, rfl, (Option.some.inj hmove).symm⟩)
      all_goals cases hmove
  · cases hmove
  · exact .inl ⟨cli, h, rfl, (Option.some.inj hmove).symm⟩
  · exact .inr (.inr (.inl ⟨cli, client, rfl, (Option.some.inj hmove).symm⟩))
  · exact .inr (.inr (.inr ⟨cli, rfl, (Option.some.inj hmove).symm⟩))

/-- Only making a handle is not the access of a thread. -/
theorem handleMove_cases {s : Server} {e : ServerEvent} {m : Custody.Move Actor Cli Handle}
    (hmove : handleMove s e = some m) :
    (∃ c roomid cli h, e = .play c roomid (some h) ∧ s.listening c = some cli ∧
      m = .make (.conn c) h) ∨
    ∃ a, e = .run a ∧ (s.threads a).move a = some m := by
  rcases e with _ | ⟨c, roomid, client⟩ | ⟨c, o⟩ | k | ⟨k, roomid⟩ | a
  · cases hmove
  · rcases client with _ | h
    · cases hmove
    · rw [handleMove] at hmove
      split at hmove
      · next hlisten =>
        obtain ⟨cli, hcli⟩ := Option.isSome_iff_exists.mp hlisten
        exact .inl ⟨c, roomid, cli, h, rfl, hcli, (Option.some.inj hmove).symm⟩
      · cases hmove
  · cases hmove
  · cases hmove
  · cases hmove
  · exact .inr ⟨a, rfl, hmove⟩

/-- What a thread does in a turn. -/
theorem turn_acts (t : Thread) (m : Shared) (a : Actor) :
    (∃ h, t.move a = some (.close a) ∧ t.stage.hand = some h ∧ (t.turn m a).2.2 = [.closed a h]) ∨
    (∃ c rest, a = .conn c ∧ t.move a = none ∧ t.stage = .ready ∧ t.todo = .leave :: rest ∧
      (t.turn m a).2.2 = [.exited c]) ∨
    ((t.turn m a).2.2 = [] ∧ (t.move a = some (.close a) → t.stage.hand = none)) := by
  obtain ⟨slot, stage, todo⟩ := t
  rcases stage with _ | ⟨cli, roomid, h⟩ | ⟨cli, h⟩ | ⟨cli, client⟩ | cli
  · rcases todo with _ | ⟨item, rest⟩
    · exact .inr (.inr ⟨rfl, fun _ => rfl⟩)
    · rcases item with _ | ⟨cli, type⟩ | cli | ⟨cli, roomid⟩ | cli | _
      case drop => exact .inr (.inr ⟨rfl, fun hm => by cases hm⟩)
      case leave =>
        rcases a with c | k
        · exact .inr (.inl ⟨c, rest, rfl, rfl, rfl, rfl, rfl⟩)
        · exact .inr (.inr ⟨rfl, fun _ => rfl⟩)
      all_goals exact .inr (.inr ⟨rfl, fun _ => rfl⟩)
  · exact .inr (.inr ⟨rfl, fun hm => by cases hm⟩)
  · exact .inr (.inr ⟨rfl, fun hm => by cases hm⟩)
  · rcases client with _ | h
    · exact .inr (.inr ⟨rfl, fun _ => rfl⟩)
    · exact .inl ⟨h, rfl, rfl, rfl⟩
  · exact .inr (.inr ⟨rfl, fun hm => by cases hm⟩)

/-- What is done in an event: a handle is created or closed as custody says, or a connection exits. -/
theorem acts_cases (s : Server) (e : ServerEvent) :
    (∃ c h, handleMove s e = some (.make (.conn c) h) ∧ (serverStep s e).2 = [.created c h]) ∨
    (∃ a h, handleMove s e = some (.close a) ∧ s.hands a = some h ∧
      (serverStep s e).2 = [.closed a h]) ∨
    (∃ c rest, e = .run (.conn c) ∧ handleMove s e = none ∧
      (s.threads (.conn c)).stage = .ready ∧ (s.threads (.conn c)).todo = .leave :: rest ∧
      (serverStep s e).2 = [.exited c]) ∨
    ((serverStep s e).2 = [] ∧ ∀ m, handleMove s e = some m →
      (∀ a h, m ≠ .make a h) ∧ ∀ a, m = .close a → s.hands a = none) := by
  rcases e with _ | ⟨c, roomid, client⟩ | ⟨c, o⟩ | k | ⟨k, roomid⟩ | a
  · refine .inr (.inr (.inr ⟨?_, fun m hm => by cases hm⟩))
    simp only [serverStep]
    split <;> rfl
  · rcases hcli : s.listening c with _ | cli
    · refine .inr (.inr (.inr ?_))
      rcases client with _ | h <;> simp [serverStep, handleMove, hcli]
    · rcases client with _ | h
      · refine .inr (.inr (.inr ?_))
        simp [serverStep, handleMove, hcli]
      · exact .inl ⟨c, h, by simp [handleMove, hcli], by simp [serverStep, hcli]⟩
  · refine .inr (.inr (.inr ⟨?_, fun m hm => by cases hm⟩))
    simp only [serverStep]
    split <;> rfl
  · exact .inr (.inr (.inr ⟨rfl, fun m hm => by cases hm⟩))
  · exact .inr (.inr (.inr ⟨rfl, fun m hm => by cases hm⟩))
  · rcases turn_acts (s.threads a) s.shared a with ⟨h, hmove, hhand, hacts⟩ |
      ⟨c, rest, rfl, hmove, hstage, htodo, hacts⟩ | ⟨hacts, hnone⟩
    · exact .inr (.inl ⟨a, h, hmove, hhand, hacts⟩)
    · exact .inr (.inr (.inl ⟨c, rest, rfl, hmove, hstage, htodo, hacts⟩))
    · refine .inr (.inr (.inr ⟨hacts, fun m hm => ⟨?_, ?_⟩⟩))
      · rintro b h rfl
        rcases move_cases hm with ⟨_, _, _, h⟩ | ⟨_, _, _, _, h⟩ | ⟨_, _, _, h⟩ | ⟨_, _, h⟩ <;> cases h
      · rintro b rfl
        rcases move_cases hm with ⟨_, _, _, h⟩ | ⟨_, _, _, _, h⟩ | ⟨_, _, _, h⟩ | ⟨_, _, h⟩
        · cases h
        · cases h
        · obtain rfl : b = a := Custody.Move.close.inj h
          exact hnone hm
        · cases h

/-! ### Orderly steps -/

/-- What holds along an orderly run: custody is sound, a handle in hand or in a slot is its
connection's, and a connection at its end has none in a slot. -/
structure Traced (w : Watched) : Prop where
  /-- The threads. -/
  shaped : Shaped w.server
  /-- Hands and pointers. -/
  sound : w.custody.Sound
  /-- The handles that have been made. -/
  known : ∀ h, w.holder h = none ↔ w.made h = none
  /-- What a connection has in hand it has made. -/
  mine : ∀ c h, w.custody.hand (.conn c) = some h → w.made h = some c
  /-- What is in a slot was made by the connection that has it. -/
  placed : ∀ h cli, w.holder h = some (.place cli) →
    ∃ c, w.made h = some c ∧ (w.server.threads (.conn c)).slot = some cli
  /-- At its end, a connection has nothing in a slot. -/
  left : ∀ c h cli, (w.server.threads (.conn c)).todo = [.leave] → w.made h = some c →
    w.holder h ≠ some (.place cli)

theorem Traced.legal {w : Watched} (hw : Traced w) {e : ServerEvent} (hfresh : CreatesFresh w e)
    (horder : Orderly w e) {m : Custody.Move Actor Cli Handle}
    (hmove : handleMove w.server e = some m) : w.custody.Legal m := by
  rcases handleMove_cases hmove with ⟨c, roomid, cli, h, rfl, hcli, rfl⟩ | ⟨a, rfl, hturn⟩
  · refine ⟨?_, (hw.known h).mpr hfresh⟩
    show (w.server.threads (.conn c)).stage.hand = none
    rw [listening_eq_some hcli]
    rfl
  · have haccess := horder.1 m hmove
    rcases move_cases hturn with ⟨cli, h, -, rfl⟩ | ⟨cli, rest, hstage, -, rfl⟩ |
      ⟨cli, client, -, rfl⟩ | ⟨cli, -, rfl⟩
    · exact haccess
    · refine ⟨?_, haccess.1⟩
      show (w.server.threads a).stage.hand = none
      rw [hstage]
      rfl
    · trivial
    · exact haccess

/-- Who has made a handle, after an event. -/
theorem made_watch {w : Watched} {e : ServerEvent} (hfresh : CreatesFresh w e) (c : ℕ) (h : Handle) :
    (watch w e).1.made h = some c ↔
      w.made h = some c ∨ handleMove w.server e = some (.make (.conn c) h) := by
  show madeAfter w.made (handleMove w.server e) h = some c ↔ _
  rcases hmove : handleMove w.server e with _ | m
  · exact ⟨.inl, fun hor => hor.resolve_right (by simp)⟩
  · rcases handleMove_cases hmove with ⟨c', roomid, cli, h', rfl, -, rfl⟩ | ⟨a, -, hturn⟩
    · show Function.update w.made h' (some c') h = some c ↔ _
      rw [Function.update_apply]
      split
      · next heq =>
        have hnew : w.made h ≠ some c := by
          rw [heq, show w.made h' = none from hfresh]
          exact (Option.some_ne_none c).symm
        rw [or_iff_right hnew, heq]
        simp
      · next hne =>
        refine ⟨.inl, fun hor => hor.resolve_right fun hmake => ?_⟩
        obtain ⟨-, rfl⟩ := Custody.Move.make.inj (Option.some.inj hmake)
        exact hne rfl
    · have hnot : some m ≠ some (.make (.conn c) h) := by
        intro heq
        rcases move_cases hturn with ⟨_, _, _, rfl⟩ | ⟨_, _, _, _, rfl⟩ | ⟨_, _, _, rfl⟩ | ⟨_, _, rfl⟩ <;>
          cases heq
      rw [or_iff_left hnot]
      rcases move_cases hturn with ⟨_, _, _, rfl⟩ | ⟨_, _, _, _, rfl⟩ | ⟨_, _, _, rfl⟩ | ⟨_, _, rfl⟩ <;>
        exact Iff.rfl

/-- A connection keeps its slot until its end. -/
theorem slot_step {s : Server} (hs : Shaped s) (e : ServerEvent) {c : ℕ} {cli : Cli}
    (hslot : (s.threads (.conn c)).slot = some cli) :
    ((serverStep s e).1.threads (.conn c)).slot = some cli ∨
      (e = .run (.conn c) ∧ (s.threads (.conn c)).todo = [.leave]) := by
  rcases thread_cases s e (.conn c) with h | ⟨-, hconn, cli', h⟩ |
    ⟨c', cli', roomid, client, -, -, hidle, h⟩ | ⟨c', cli', o, -, hidle, h⟩ | ⟨k, items, hconn, -⟩ |
    ⟨rfl, h⟩
  · exact .inl (h ▸ hslot)
  · obtain rfl : c = s.conns := Actor.conn.inj hconn
    rw [hs.unborn _ (Nat.le_refl _)] at hslot
    cases hslot
  · rw [hidle] at hslot
    rw [h, ← hslot]
    rcases client with _ | h' <;> exact .inl rfl
  · rw [hidle] at hslot
    rw [h, ← hslot]
    exact .inl rfl
  · cases hconn
  · rw [h]
    rcases (hs.conn c).slot_turn s.shared (.conn c) with heq | htodo
    · exact .inl (heq.trans hslot)
    · exact .inr ⟨rfl, htodo⟩

/-- A connection comes to its end by reading its pointer. -/
theorem todo_step {s : Server} (hs : Shaped s) {e : ServerEvent} {c : ℕ}
    (htodo : ((serverStep s e).1.threads (.conn c)).todo = [.leave]) :
    (s.threads (.conn c)).todo = [.leave] ∨
      ∃ cli rest, (s.threads (.conn c)).slot = some cli ∧
        (s.threads (.conn c)).todo = .drop cli :: rest ∧
        handleMove s e = some (.take (.conn c) cli) := by
  rcases thread_cases s e (.conn c) with h | ⟨-, -, cli, h⟩ |
    ⟨c', cli, roomid, client, -, -, -, h⟩ | ⟨c', cli, o, -, -, h⟩ | ⟨k, items, hconn, -⟩ | ⟨rfl, h⟩
  · exact .inl (h ▸ htodo)
  · rw [h] at htodo
    cases htodo
  · rw [h] at htodo
    rcases client with _ | h' <;> cases htodo
  · rw [h] at htodo
    rcases o with _ | type | _ <;> cases htodo
  · cases hconn
  · rw [h] at htodo
    rcases (hs.conn c).todo_turn htodo with hleave | ⟨cli, rest, hstage, hslot, hdrop⟩
    · exact .inl hleave
    · refine .inr ⟨cli, rest, hslot, hdrop, ?_⟩
      show (s.threads (.conn c)).move (.conn c) = _
      rw [Thread.move, hstage, hdrop]

/-- What is put into a slot is put there by the `PLAY` of its connection. -/
theorem Traced.of_put {w : Watched} (hw : Traced w) {e : ServerEvent} {a : Actor} {cli : Cli}
    {h : Handle} (hmove : handleMove w.server e = some (.put a cli))
    (hhand : w.custody.hand a = some h) :
    ∃ c, w.made h = some c ∧ (w.server.threads (.conn c)).slot = some cli ∧
      (w.server.threads (.conn c)).todo = [.raiseFlag] := by
  rcases handleMove_cases hmove with ⟨_, _, _, _, -, -, heq⟩ | ⟨b, rfl, hturn⟩
  · cases heq
  · rcases move_cases hturn with ⟨cli', h', hstage, heq⟩ | ⟨_, _, _, _, heq⟩ | ⟨_, _, _, heq⟩ |
      ⟨_, _, heq⟩
    · obtain ⟨rfl, rfl⟩ := Custody.Move.put.inj heq
      have hstoring : (w.server.threads a).stage.storing = some (cli, h') := by
        rw [hstage]
        rfl
      rcases a with c | k
      · obtain ⟨hslot, htodo⟩ := (hw.shaped.conn c).storing cli h' hstoring
        exact ⟨c, hw.mine c h hhand, hslot, htodo⟩
      · rw [hw.shaped.caller k] at hstoring
        cases hstoring
    · cases heq
    · cases heq
    · cases heq

theorem watch_holder (w : Watched) (e : ServerEvent) :
    (watch w e).1.holder = ((handleMove w.server e).elim w.custody w.custody.move).holder := rfl

/-- What is in a slot after an orderly event was there, or a connection has just put it there. -/
theorem Traced.placed_before {w : Watched} (hw : Traced w) {e : ServerEvent} {h : Handle}
    {cli : Cli} (hplaced : (watch w e).1.holder h = some (.place cli)) :
    ∃ c, w.made h = some c ∧ (w.server.threads (.conn c)).slot = some cli ∧
      (w.server.threads (.conn c)).todo ≠ [.leave] ∧
      (w.holder h = some (.place cli) ∨ (w.server.threads (.conn c)).todo = [.raiseFlag]) := by
  have hbefore : w.holder h = some (.place cli) ∨
      ∃ a, handleMove w.server e = some (.put a cli) ∧ w.custody.hand a = some h := by
    rw [watch_holder] at hplaced
    rcases hmove : handleMove w.server e with _ | m
    · rw [hmove] at hplaced
      exact .inl hplaced
    · rw [hmove] at hplaced
      rcases Custody.holder_move_eq_place hplaced with hold | ⟨a, rfl, hhand⟩
      · exact .inl hold
      · exact .inr ⟨a, rfl, hhand⟩
  rcases hbefore with hold | ⟨a, hmove, hhand⟩
  · obtain ⟨c, hmade, hslot⟩ := hw.placed h cli hold
    exact ⟨c, hmade, hslot, fun htodo => hw.left c h cli htodo hmade hold, .inl hold⟩
  · obtain ⟨c, hmade, hslot, htodo⟩ := hw.of_put hmove hhand
    exact ⟨c, hmade, hslot, by simp [htodo], .inr htodo⟩

/-- An orderly event keeps the trace. -/
theorem Traced.step {w : Watched} (hw : Traced w) {e : ServerEvent} (hfresh : CreatesFresh w e)
    (horder : Orderly w e) : Traced (watch w e).1 := by
  have hlegal : ∀ m, handleMove w.server e = some m → w.custody.Legal m :=
    fun m => hw.legal hfresh horder
  have hkeeps : ∀ {c h}, w.made h = some c → (watch w e).1.made h = some c :=
    fun hmade => (made_watch hfresh _ _).mpr (.inl hmade)
  refine ⟨hw.shaped.step e, ?_, ?_, ?_, ?_, ?_⟩
  · rw [custody_watch hw.shaped e]
    rcases hmove : handleMove w.server e with _ | m
    · exact hw.sound
    · exact hw.sound.move (hlegal m hmove)
  · intro h
    rw [watch_holder, Option.eq_none_iff_forall_ne_some (o := (watch w e).1.made h)]
    simp only [ne_eq, made_watch hfresh, not_or, forall_and,
      ← Option.eq_none_iff_forall_ne_some, ← hw.known]
    rcases hmove : handleMove w.server e with _ | m
    · have hsame : w.custody.holder h = w.holder h := rfl
      simp [hsame]
    · rw [Option.elim_some, Custody.holder_move_eq_none hw.sound (hlegal m hmove)]
      refine and_congr_right fun _ => ⟨fun hno c heq => hno _ (Option.some.inj heq), ?_⟩
      rintro hno a rfl
      rcases handleMove_cases hmove with ⟨c, _, _, h', -, -, heq⟩ | ⟨_, -, hturn⟩
      · obtain ⟨rfl, rfl⟩ := Custody.Move.make.inj heq
        exact hno c rfl
      · rcases move_cases hturn with ⟨_, _, _, heq⟩ | ⟨_, _, _, _, heq⟩ | ⟨_, _, _, heq⟩ |
          ⟨_, _, heq⟩ <;> cases heq
  · intro c h hhand
    rw [custody_watch hw.shaped e] at hhand
    rcases hmove : handleMove w.server e with _ | m
    · rw [hmove] at hhand
      exact hkeeps (hw.mine c h hhand)
    · rw [hmove] at hhand
      rcases hw.sound.hand_move (hlegal m hmove) hhand with ⟨hmoved, hgoal⟩ | ⟨hold, -⟩
      · rcases handleMove_cases hmove with ⟨c', _, _, h', -, -, rfl⟩ | ⟨a, rfl, hturn⟩
        · obtain rfl : c' = c := Actor.conn.inj (Holder.agent.inj hgoal)
          obtain rfl : h' = h := Option.some.inj hmoved
          exact (made_watch hfresh _ _).mpr (.inr hmove)
        · have haccess := horder.1 m hmove
          rcases move_cases hturn with ⟨_, _, _, rfl⟩ | ⟨cli, _, _, _, rfl⟩ | ⟨_, _, _, rfl⟩ |
            ⟨_, _, rfl⟩
          · cases hgoal
          · obtain rfl : a = .conn c := Holder.agent.inj hgoal
            exact hkeeps (haccess.2 h hmoved)
          · cases hgoal
          · cases hgoal
      · exact hkeeps (hw.mine c h hold)
  · intro h cli hplaced
    obtain ⟨c, hmade, hslot, htodo, -⟩ := hw.placed_before hplaced
    refine ⟨c, hkeeps hmade, ?_⟩
    rcases slot_step hw.shaped e hslot with hkeep | ⟨-, hleave⟩
    · exact hkeep
    · exact absurd hleave htodo
  · intro c h cli htodo hmade hplaced
    obtain ⟨c', hmade', hslot, hnot, hor⟩ := hw.placed_before hplaced
    obtain rfl : c' = c := Option.some.inj ((hkeeps hmade').symm.trans hmade)
    rcases todo_step hw.shaped htodo with hleave | ⟨cli', rest, hslot', hdrop, htake⟩
    · exact hnot hleave
    · obtain rfl : cli = cli' := Option.some.inj (hslot.symm.trans hslot')
      rcases hor with hold | hflag
      · -- it names its own handle, which it takes
        have hmoved : w.custody.moved (.take (.conn c') cli) = some h := hw.sound.place hold
        rw [watch_holder, htake, Option.elim_some, Custody.holder_move_of_moved hmoved] at hplaced
        cases hplaced
      · rw [hdrop] at hflag
        cases hflag

/-! ### What has been done -/

/-- How what has been done agrees with who made the handles and where they are. -/
structure Logged (w : Watched) (log : List HandleAct) : Prop where
  /-- The handles that were created. -/
  created : ∀ c h, .created c h ∈ log ↔ w.made h = some c
  /-- Those that were closed are gone. -/
  closed : ∀ h, log.countP (HandleAct.closes h) = if w.holder h = some .gone then 1 else 0
  /-- A connection closed its own. -/
  own : ∀ c h, .closed (.conn c) h ∈ log → w.made h = some c
  /-- When it exited, all of them were closed. -/
  exited : ∀ pre x post, log = pre ++ x :: post → ∀ c, x = .exited c → ∀ h, .created c h ∈ pre →
    ∃ a, .closed a h ∈ pre

theorem Logged.exists_closed {w : Watched} {log : List HandleAct} (hl : Logged w log) {h : Handle}
    (hgone : w.holder h = some .gone) : ∃ a, .closed a h ∈ log := by
  have hpos : 0 < log.countP (HandleAct.closes h) := by
    rw [hl.closed, if_pos hgone]
    exact Nat.one_pos
  obtain ⟨x, hx, hcloses⟩ := List.countP_pos_iff.mp hpos
  rcases x with ⟨c, h'⟩ | ⟨a, h'⟩ | c
  · cases hcloses
  · obtain rfl : h' = h := of_decide_eq_true hcloses
    exact ⟨a, hx⟩
  · cases hcloses

theorem Logged.gone_of_closed {w : Watched} {log : List HandleAct} (hl : Logged w log) {a : Actor}
    {h : Handle} (hclosed : .closed a h ∈ log) : w.holder h = some .gone := by
  by_contra hnot
  have hzero : log.countP (HandleAct.closes h) = 0 := by rw [hl.closed, if_neg hnot]
  exact List.countP_eq_zero.mp hzero _ hclosed (decide_eq_true rfl)

/-- A handle that a connection has made is closed when the connection exits. -/
theorem Traced.gone_of_leave {w : Watched} (hw : Traced w) {c : ℕ} (horder : Orderly w (.run (.conn c)))
    (hstage : (w.server.threads (.conn c)).stage = .ready)
    (htodo : (w.server.threads (.conn c)).todo = [.leave]) {h : Handle} (hmade : w.made h = some c) :
    w.holder h = some .gone := by
  rcases hholder : w.holder h with _ | holder
  · rw [hw.known, hmade] at hholder
    cases hholder
  · rcases holder with b | cli | _
    · exact absurd hholder (horder.2 c (if_pos ⟨hstage, htodo⟩) h b hmade)
    · exact absurd hholder (hw.left c h cli htodo hmade)
    · rfl

theorem watch_holder_gone {w : Watched} (hw : Traced w) {e : ServerEvent}
    (hfresh : CreatesFresh w e) (horder : Orderly w e) (h : Handle) :
    (watch w e).1.holder h = some .gone ↔ w.holder h = some .gone ∨
      ∃ a, handleMove w.server e = some (.close a) ∧ w.server.hands a = some h := by
  rw [watch_holder]
  rcases hmove : handleMove w.server e with _ | m
  · exact ⟨.inl, fun hor => hor.resolve_right (by simp)⟩
  · rw [Option.elim_some, Custody.holder_move_eq_gone hw.sound (hw.legal hfresh horder hmove)]
    simp only [Option.some.injEq]
    exact Iff.rfl

/-- An event that creates and closes nothing. -/
theorem Logged.quiet {w w' : Watched} {log : List HandleAct} (hl : Logged w log)
    (hmade : ∀ c h, w'.made h = some c ↔ w.made h = some c)
    (hgone : ∀ h, w'.holder h = some .gone ↔ w.holder h = some .gone) : Logged w' log where
  created c h := (hl.created c h).trans (hmade c h).symm
  closed h := by rw [hl.closed, if_congr (hgone h).symm rfl rfl]
  own c h hclosed := (hmade c h).mpr (hl.own c h hclosed)
  exited := hl.exited

theorem Logged.create {w w' : Watched} {log : List HandleAct} (hl : Logged w log) {c : ℕ}
    {h : Handle}
    (hmade : ∀ c' h', w'.made h' = some c' ↔ w.made h' = some c' ∨ (c' = c ∧ h' = h))
    (hgone : ∀ h', w'.holder h' = some .gone ↔ w.holder h' = some .gone) :
    Logged w' (log ++ [.created c h]) where
  created c' h' := by
    rw [List.mem_append, List.mem_singleton, HandleAct.created.injEq, hl.created, hmade]
  closed h' := by
    rw [List.countP_append, hl.closed, if_congr (hgone h').symm rfl rfl]
    rfl
  own c' h' hclosed := by
    rw [List.mem_append, List.mem_singleton] at hclosed
    rcases hclosed with hclosed | heq
    · exact (hmade c' h').mpr (.inl (hl.own c' h' hclosed))
    · cases heq
  exited := Run.forall_cut_concat.mpr ⟨hl.exited, fun c' heq => by cases heq⟩

theorem Logged.close {w w' : Watched} {log : List HandleAct} (hl : Logged w log) {a : Actor}
    {h : Handle} (hmine : ∀ c, a = .conn c → w.made h = some c) (hopen : w.holder h ≠ some .gone)
    (hmade : ∀ c' h', w'.made h' = some c' ↔ w.made h' = some c')
    (hgone : ∀ h', w'.holder h' = some .gone ↔ w.holder h' = some .gone ∨ h' = h) :
    Logged w' (log ++ [.closed a h]) where
  created c' h' := by
    rw [List.mem_append, List.mem_singleton, hl.created, hmade]
    exact or_iff_left (by simp)
  closed h' := by
    rw [List.countP_append, hl.closed]
    by_cases heq : h' = h
    · have hcloses : HandleAct.closes h' (.closed a h) = true := decide_eq_true heq.symm
      rw [if_neg (heq ▸ hopen), if_pos ((hgone h').mpr (.inr heq)), List.countP_singleton,
        if_pos hcloses]
    · have hcloses : HandleAct.closes h' (.closed a h) = false :=
        decide_eq_false fun hc => heq hc.symm
      have hsame : w'.holder h' = some .gone ↔ w.holder h' = some .gone :=
        (hgone h').trans (or_iff_left heq)
      rw [if_congr hsame.symm rfl rfl, List.countP_singleton, hcloses]
      rfl
  own c' h' hclosed := by
    rw [List.mem_append, List.mem_singleton] at hclosed
    rcases hclosed with hclosed | heq
    · exact (hmade c' h').mpr (hl.own c' h' hclosed)
    · obtain ⟨rfl, rfl⟩ := HandleAct.closed.inj heq
      exact (hmade c' h').mpr (hmine c' rfl)
  exited := Run.forall_cut_concat.mpr ⟨hl.exited, fun c' heq => by cases heq⟩

theorem Logged.exit {w w' : Watched} {log : List HandleAct} (hl : Logged w log) {c : ℕ}
    (hall : ∀ h, w.made h = some c → w.holder h = some .gone)
    (hmade : ∀ c' h', w'.made h' = some c' ↔ w.made h' = some c')
    (hgone : ∀ h', w'.holder h' = some .gone ↔ w.holder h' = some .gone) :
    Logged w' (log ++ [.exited c]) where
  created c' h' := by
    rw [List.mem_append, List.mem_singleton, hl.created, hmade]
    exact or_iff_left (by simp)
  closed h' := by
    rw [List.countP_append, hl.closed, if_congr (hgone h').symm rfl rfl]
    rfl
  own c' h' hclosed := by
    rw [List.mem_append, List.mem_singleton] at hclosed
    rcases hclosed with hclosed | heq
    · exact (hmade c' h').mpr (hl.own c' h' hclosed)
    · cases heq
  exited := by
    refine Run.forall_cut_concat.mpr ⟨hl.exited, fun c' heq h hcreated => ?_⟩
    obtain rfl : c = c' := HandleAct.exited.inj heq
    exact hl.exists_closed (hall h ((hl.created c h).mp hcreated))

/-- What has been done agrees with the trace along an orderly run. -/
theorem Logged.step {w : Watched} {log : List HandleAct} (hl : Logged w log) (hw : Traced w)
    {e : ServerEvent} (hfresh : CreatesFresh w e) (horder : Orderly w e) :
    Logged (watch w e).1 (log ++ (watch w e).2) := by
  have hmade := made_watch hfresh
  have hgone := watch_holder_gone hw hfresh horder
  show Logged (watch w e).1 (log ++ (serverStep w.server e).2)
  rcases acts_cases w.server e with ⟨c, h, hmove, hdone⟩ | ⟨a, h, hmove, hhand, hdone⟩ |
    ⟨c, rest, rfl, hmove, hstage, htodo, hdone⟩ | ⟨hdone, hquiet⟩ <;> rw [hdone]
  · refine hl.create (fun c' h' => ?_) fun h' => ?_
    · rw [hmade, hmove]
      simp [eq_comm]
    · rw [hgone, hmove]
      simp
  · have hholder : w.holder h = some (.agent a) := hw.sound.hand hhand
    refine hl.close (fun c hc => ?_) (by simp [hholder]) (fun c' h' => ?_) fun h' => ?_
    · exact hw.mine c h (hc ▸ hhand)
    · rw [hmade, hmove]
      simp
    · rw [hgone, hmove]
      refine or_congr_right ⟨?_, ?_⟩
      · rintro ⟨b, hclose, hhand'⟩
        obtain rfl : a = b := Custody.Move.close.inj (Option.some.inj hclose)
        exact Option.some.inj (hhand'.symm.trans hhand)
      · rintro rfl
        exact ⟨a, rfl, hhand⟩
  · have hleave : (w.server.threads (.conn c)).todo = [.leave] := by
      rw [htodo, hw.shaped.rest_of_leave htodo]
    refine hl.exit (fun h => hw.gone_of_leave horder hstage hleave) (fun c' h' => ?_) fun h' => ?_
    · rw [hmade, hmove]
      simp
    · rw [hgone, hmove]
      simp
  · rw [List.append_nil]
    refine hl.quiet (fun c h => ?_) fun h => ?_
    · rw [hmade]
      exact or_iff_left fun hmake => (hquiet _ hmake).1 _ _ rfl
    · rw [hgone]
      refine or_iff_left ?_
      rintro ⟨a, hclose, hhand⟩
      rw [(hquiet _ hclose).2 a rfl] at hhand
      cases hhand

/-! ### Runs -/

theorem traced_init : Traced .init where
  shaped := shaped_init
  sound := ⟨fun h => (by cases h), fun h => (by cases h)⟩
  known _ := iff_of_true rfl rfl
  mine _ _ h := by cases h
  placed _ _ h := by cases h
  left _ _ _ _ h := by cases h

theorem logged_init : Logged .init [] where
  created c h := by simp [Watched.init]
  closed h := by simp [Watched.init]
  own _ _ h := by cases h
  exited pre x post h := by simp at h

theorem Logged.owned {w : Watched} {log : List HandleAct} (hl : Logged w log) (hw : Traced w) :
    Owned log where
  once h := by
    rw [hl.closed]
    split
    · exact Nat.le_refl 1
    · exact Nat.zero_le 1
  own a h hclosed := by
    have hgone := hl.gone_of_closed hclosed
    rcases hmade : w.made h with _ | c
    · rw [(hw.known h).mpr hmade] at hgone
      cases hgone
    · refine ⟨c, (hl.created c h).mpr hmade, ?_⟩
      rintro c' rfl
      exact Option.some.inj ((hl.own c' h hclosed).symm.trans hmade)
  exited pre c post hlog := hl.exited pre _ post hlog c rfl

theorem kept_of_orderly {es : List ServerEvent} (hfresh : Run.Along watch CreatesFresh .init es)
    (horder : Run.Along watch Orderly .init es) :
    Traced (Run.final watch .init es) ∧ Logged (Run.final watch .init es) (handleLog es) := by
  have hlog : handleLog es = (Run.outs watch .init es).flatten :=
    congrArg List.flatten (Run.outs_of_proj (f := Watched.server) (fun _ _ => rfl) .init es)
  rw [hlog, ← List.nil_append (Run.outs watch .init es)]
  refine Run.history_of_along (I := fun w log => Traced w ∧ Logged w log.flatten) ?_
    ⟨traced_init, logged_init⟩ ((Run.along_and _ es).mpr ⟨hfresh, horder⟩)
  rintro w log e ⟨hw, hl⟩ ⟨hnew, haccess⟩
  refine ⟨hw.step hnew haccess, ?_⟩
  rw [List.flatten_append, List.flatten_singleton]
  exact hl.step hw hnew haccess

/-- **The handles of the clients.** In a run whose accesses are orderly every handle that was created
is closed at most once, by no connection but its own, and by the time this one has exited. -/
theorem owned_of_orderly (es : List ServerEvent)
    (hfresh : Run.Along watch CreatesFresh .init es) (horder : Run.Along watch Orderly .init es) :
    Owned (handleLog es) :=
  (kept_of_orderly hfresh horder).2.owned (kept_of_orderly hfresh horder).1

/-- An orderly event in which no connection exits. -/
def Calm (w : Watched) (e : ServerEvent) : Prop :=
  (∀ m ∈ handleMove w.server e, OrderlyAccess w m) ∧ leaver w.server e = none

instance (w : Watched) (e : ServerEvent) : Decidable (Calm w e) :=
  inferInstanceAs (Decidable (_ ∧ _))

theorem Calm.orderly (w : Watched) (e : ServerEvent) (h : Calm w e) : Orderly w e := by
  refine ⟨h.1, fun c hleave => ?_⟩
  rw [h.2] at hleave
  cases hleave

/-- A connection comes, plays, and goes. -/
def onePlay : List ServerEvent :=
  .accept :: .play 0 1 (some 7) :: (List.replicate 3 (.run (.conn 0)) ++
    .order 0 .exit :: List.replicate 5 (.run (.conn 0)))

theorem orderly_onePlay :
    Run.Along watch CreatesFresh .init (onePlay ++ [.run (.conn 0)]) ∧
      Run.Along watch Orderly .init (onePlay ++ [.run (.conn 0)]) := by
  have hfresh : Run.Along watch CreatesFresh .init onePlay := by decide
  have hcalm : Run.Along watch Calm .init onePlay := by decide
  have horder := hcalm.mono Calm.orderly
  refine ⟨(Run.along_append ..).mpr ⟨hfresh, trivial, trivial⟩,
    (Run.along_append ..).mpr ⟨horder, ⟨fun m hmove => ?_, fun c _ h b hmade => ?_⟩, trivial⟩⟩
  · have hnone : handleMove (Run.final watch .init onePlay).server (.run (.conn 0)) = none := rfl
    rw [hnone] at hmove
    cases hmove
  · -- its only handle is gone
    have hlog : handleLog onePlay = [.created 0 7, .closed (.conn 0) 7] := by decide
    have hcreated := ((kept_of_orderly hfresh horder).2.created c h).mpr hmade
    obtain ⟨-, rfl⟩ : c = 0 ∧ h = 7 := by simpa [hlog] using hcreated
    have hgone : (Run.final watch .init onePlay).holder 7 = some .gone := by decide
    rw [hgone]
    exact fun hagent => by cases hagent

theorem owned_of_orderly_sample : Owned (handleLog (onePlay ++ [.run (.conn 0)])) :=
  owned_of_orderly _ orderly_onePlay.1 orderly_onePlay.2

/-- A connection plays twice before it exits. -/
def twoPlays : List ServerEvent :=
  .accept :: .play 0 1 (some 7) :: (List.replicate 3 (.run (.conn 0)) ++
    .play 0 1 (some 8) :: (List.replicate 3 (.run (.conn 0)) ++
      .order 0 .exit :: List.replicate 6 (.run (.conn 0))))

/-- The handle of its first `PLAY` is forgotten by the second, and never closed. -/
theorem first_handle_leaks :
    handleLog twoPlays =
        [.created 0 7, .created 0 8, .closed (.conn 0) 8, .exited 0] ∧
      ¬ Owned (handleLog twoPlays) := by
  have hlog : handleLog twoPlays = [.created 0 7, .created 0 8, .closed (.conn 0) 8, .exited 0] := by
    decide
  refine ⟨hlog, fun howned => ?_⟩
  obtain ⟨a, ha⟩ := howned.exited [.created 0 7, .created 0 8, .closed (.conn 0) 8] 0 [] hlog 7
    (by decide)
  simp at ha

end Rtsp

end ReachEdukit
