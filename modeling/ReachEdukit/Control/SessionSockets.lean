import ReachEdukit.Control.SessionSlots

/-!
# The sockets of the sessions

The socket of a session is in the hands of one thread at a time: of the accept thread until
`pthread_create` has returned, then of the session's thread until it has closed it. A second login of a
manager or a director closes the first one's socket from outside, and its thread closes the same number
once more when it ends. In between the number may belong to another connection, of whichever server. The
same goes for the socket that an accept thread listens on, when the program ends.

Here the process is seen as a table of descriptors: every step is a legal move of it. So a thread's own
`close` goes right exactly when nobody was there before it.
-/

namespace ReachEdukit

namespace Control

namespace Sessions

open Descriptors (Closed ClosesOwn Displaced Handle Undisturbed)

/-- A socket as a handle. -/
def Sock.handle (sock : Sock) : Handle := ⟨sock.fd, sock.conn⟩

/-- The socket that an accept thread has to pass on or to close. -/
def Acceptor.sock : Acceptor → Option Sock
  | .getIndex sock | .refuse sock => some sock
  | .setSock sock _ | .setEnv sock _ | .setIndex sock _ | .create sock _ => some sock
  | .failClose sock _ => some sock
  | _ => none

/-- The thread has not closed its socket. -/
def ClientPc.holding : ClientPc → Bool
  | .close => true
  | pc => pc.connected

/-- The socket in the hands of a thread, or of nobody. -/
def State.hand (s : State) : Owner → Option Handle
  | .acceptor server => (s.acceptor server).sock.map Sock.handle
  | .client k => if (s.client k).pc.holding then some (s.client k).sock.handle else none
  | .listener server => (s.listener server).map Sock.handle
  | .stray slot => (s.stray slot).map Sock.handle

/-- The process as a table of descriptors. -/
def State.sockets (s : State) : Descriptors.Table Owner := ⟨s.hand, s.fds, s.made⟩

/-- The only socket number that may stay open without a thread is the one that `accept` is not
expected to return. -/
def Spare (fd : ℤ) : Prop := fd = 0

section Hand

variable {s : State} {server : ServerId} {a : Acceptor} {k : ℕ} {c : Client}

theorem hand_setAcceptor : (s.setAcceptor server a).hand =
    Function.update s.hand (.acceptor server) (a.sock.map Sock.handle) := by
  funext o
  rcases o with server' | k | server' | slot
  · by_cases hs : server' = server
    · subst hs
      simp [State.hand, State.setAcceptor]
    · simp [State.hand, State.setAcceptor, hs]
  all_goals
    rw [Function.update_of_ne (by simp)]
    rfl

theorem hand_setClient : (s.setClient k c).hand =
    Function.update s.hand (.client k) (if c.pc.holding then some c.sock.handle else none) := by
  funext o
  rcases o with server | k' | server | slot
  case client =>
    by_cases hk : k' = k
    · subst hk
      simp [State.hand, State.setClient]
    · simp [State.hand, State.setClient, hk]
  all_goals
    rw [Function.update_of_ne (by simp)]
    rfl

theorem hand_setListener (l : Option Sock) : (s.setListener server l).hand =
    Function.update s.hand (.listener server) (l.map Sock.handle) := by
  funext o
  rcases o with server' | k | server' | slot
  case listener =>
    by_cases hs : server' = server
    · subst hs
      simp [State.hand, State.setListener]
    · simp [State.hand, State.setListener, hs]
  all_goals
    rw [Function.update_of_ne (by simp)]
    rfl

theorem hand_leaveBehind (slot : Slot) (sock : Sock) : (s.leaveBehind slot sock).hand =
    Function.update s.hand (.stray slot) (some sock.handle) := by
  funext o
  rcases o with server | k | server | slot'
  case stray =>
    by_cases hs : slot' = slot
    · subst hs
      simp [State.hand, State.leaveBehind]
    · simp [State.hand, State.leaveBehind, hs]
  all_goals
    rw [Function.update_of_ne (by simp)]
    rfl

theorem hand_acceptor (ha : s.acceptor server = a) :
    s.hand (.acceptor server) = a.sock.map Sock.handle := by
  rw [← ha]
  rfl

theorem hand_client {pc : ClientPc} (hpc : (s.client k).pc = pc) :
    s.hand (.client k) = if pc.holding then some (s.client k).sock.handle else none := by
  rw [← hpc]
  rfl

/-- An accept thread goes on and keeps what it has. -/
theorem sockets_setAcceptor {a' : Acceptor} (ha : s.acceptor server = a) (hsock : a'.sock = a.sock) :
    (s.setAcceptor server a').sockets = s.sockets := by
  rw [State.sockets, hand_setAcceptor, hsock, ← hand_acceptor ha, Function.update_eq_self]
  rfl

/-- A session goes on and keeps what it has. -/
theorem sockets_setClient {pc : ClientPc} (hpc : (s.client k).pc = pc)
    (hholding : c.pc.holding = pc.holding) (hsock : c.sock = (s.client k).sock) :
    (s.setClient k c).sockets = s.sockets := by
  rw [State.sockets, hand_setClient, hholding, hsock, ← hand_client hpc, Function.update_eq_self]
  rfl

@[simp] theorem sockets_setUser (slot : Slot) (u : ConUser) : (s.setUser slot u).sockets = s.sockets :=
  rfl

@[simp] theorem sockets_setConLink (slot : Slot) (b : Bool) :
    (s.setConLink slot b).sockets = s.sockets := rfl

@[simp] theorem sockets_removeConuserIndex (slot : Slot) :
    (s.removeConuserIndex slot).sockets = s.sockets := rfl

end Hand

/-! ### Every step is a legal move -/

/-- A step is a legal move of the descriptors. -/
def IsMove (s : State) (r : State × Option Closed) : Prop :=
  ∃ m, s.sockets.Legal Spare m ∧ s.sockets.move m = (r.1.sockets, r.2)

section Steps

variable {s s' : State} {server : ServerId}

theorem isMove_stay (h : s'.sockets = s.sockets) : IsMove s (s', none) :=
  ⟨.stay, trivial, by rw [h]; rfl⟩

/-- An accept thread closes its socket. -/
theorem isMove_acceptor_close {a a' : Acceptor} {sock : Sock} (ha : s.acceptor server = a)
    (hsock : a.sock = some sock) (hsock' : a'.sock = none) :
    IsMove s ((s.setAcceptor server a').close sock.fd, some ⟨some sock.conn, s.fds sock.fd⟩) := by
  have hhand : s.sockets.hand (.acceptor server) = some sock.handle := by
    change s.hand (.acceptor server) = _
    rw [hand_acceptor ha, hsock]
    rfl
  refine ⟨.close (.acceptor server) sock.fd, ⟨sock.handle, hhand, rfl⟩, ?_⟩
  rw [Descriptors.Table.move, hhand]
  congr 1
  change (⟨_, _, _⟩ : Descriptors.Table Owner) = ⟨(s.setAcceptor server a').hand, _, _⟩
  rw [hand_setAcceptor, hsock']
  rfl

/-- A session closes its socket. -/
theorem State.Sound.isMove_client_close (h : s.Sound) {k : ℕ} (hpc : (s.client k).pc = .close) :
    IsMove s ((s.goto k .clearIndex).close (s.client k).socket,
      some ⟨some (s.client k).sock.conn, s.fds (s.client k).socket⟩) := by
  have hsocket : (s.client k).socket = (s.client k).sock.fd :=
    (h.clientFits (by rw [hpc]; rfl)).socket (by rw [hpc]; rfl)
  have hhand : s.sockets.hand (.client k) = some (s.client k).sock.handle := by
    change s.hand (.client k) = _
    rw [hand_client hpc]
    rfl
  refine ⟨.close (.client k) (s.client k).socket, ⟨_, hhand, hsocket.symm⟩, ?_⟩
  rw [Descriptors.Table.move, hhand]
  congr 1
  change (⟨_, _, _⟩ : Descriptors.Table Owner) = ⟨(s.goto k .clearIndex).hand, _, _⟩
  rw [State.goto, hand_setClient]
  rfl

/-- A thread is started with the socket of the accept thread. -/
theorem State.Sound.isMove_pass (h : s.Sound) {a' : Acceptor} {sock : Sock}
    {i : Fin controlMaxUser} (ha : s.acceptor server = .create sock i) (ha' : a'.sock = none) :
    IsMove s ((s.setAcceptor server a').spawn (.start .entry ⟨server, i⟩ sock), none) := by
  have hnone : s.sockets.hand (.client s.born) = none := by
    change s.hand (.client s.born) = _
    rw [hand_client (h.unborn _ le_rfl)]
    rfl
  refine ⟨.pass (.acceptor server) (.client s.born), hnone, ?_⟩
  rw [Descriptors.Table.move]
  congr 1
  change (⟨_, _, _⟩ : Descriptors.Table Owner) =
    ⟨((s.setAcceptor server a').setClient s.born (.start .entry ⟨server, i⟩ sock)).hand, _, _⟩
  rw [hand_setClient, hand_setAcceptor, ha']
  change (⟨Function.update _ _ (s.hand (.acceptor server)), _, _⟩ : Descriptors.Table Owner) = _
  rw [hand_acceptor ha]
  rfl

/-- The socket of the accept thread is left behind. -/
theorem State.Sound.isMove_leaveBehind (h : s.Sound) {a' : Acceptor} {sock : Sock}
    {i : Fin controlMaxUser} (ha : s.acceptor server = .create sock i) (ha' : a'.sock = none) :
    IsMove s ((s.setAcceptor server a').leaveBehind ⟨server, i⟩ sock, none) := by
  have hnone : s.sockets.hand (.stray ⟨server, i⟩) = none := by
    change (s.stray ⟨server, i⟩).map _ = none
    rw [h.stray_eq_none ha rfl]
    rfl
  refine ⟨.pass (.acceptor server) (.stray ⟨server, i⟩), hnone, ?_⟩
  rw [Descriptors.Table.move]
  congr 1
  change (⟨_, _, _⟩ : Descriptors.Table Owner) =
    ⟨((s.setAcceptor server a').leaveBehind ⟨server, i⟩ sock).hand, _, _⟩
  rw [hand_leaveBehind, hand_setAcceptor, ha']
  change (⟨Function.update _ _ (s.hand (.acceptor server)), _, _⟩ : Descriptors.Table Owner) = _
  rw [hand_acceptor ha]
  rfl

/-- An accept thread opens the socket that it listens on. -/
theorem isMove_listen {a' : Acceptor} {fd : ℤ} (ha : s.acceptor server = .start)
    (hnone : s.listener server = none) (hfree : s.fds fd = none) (hsock : a'.sock = none) :
    IsMove s (((s.connect fd).setListener server (some ⟨fd, s.made⟩)).setAcceptor server a', none) := by
  have hhand : s.sockets.hand (.listener server) = none := by
    change (s.listener server).map _ = none
    rw [hnone]
    rfl
  refine ⟨.make (.listener server) fd, ⟨hhand, hfree⟩, ?_⟩
  rw [Descriptors.Table.move]
  congr 1
  have hstay : (((s.connect fd).setListener server (some ⟨fd, s.made⟩)).setAcceptor server a').sockets =
      ((s.connect fd).setListener server (some ⟨fd, s.made⟩)).sockets :=
    sockets_setAcceptor ha hsock
  rw [hstay]
  change _ = (⟨((s.connect fd).setListener server _).hand, _, _⟩ : Descriptors.Table Owner)
  rw [hand_setListener]
  rfl

/-- An accept thread closes the socket that it listens on. -/
theorem isMove_listener_close {a a' : Acceptor} {sock : Sock} (ha : s.acceptor server = a)
    (hsock : a'.sock = a.sock) (hlistener : s.listener server = some sock) :
    IsMove s (((s.setAcceptor server a').setListener server none).close sock.fd,
      some ⟨some sock.conn, s.fds sock.fd⟩) := by
  have hhand : s.sockets.hand (.listener server) = some sock.handle := by
    change (s.listener server).map _ = _
    rw [hlistener]
    rfl
  refine ⟨.close (.listener server) sock.fd, ⟨sock.handle, hhand, rfl⟩, ?_⟩
  rw [Descriptors.Table.move, hhand]
  congr 1
  change (⟨_, _, _⟩ : Descriptors.Table Owner) = ⟨((s.setAcceptor server a').setListener server none).hand, _, _⟩
  rw [hand_setListener, hand_setAcceptor, hsock, ← hand_acceptor ha, Function.update_eq_self]
  rfl

/-- A connection comes in. -/
theorem isMove_connect {a a' : Acceptor} {fd : ℤ} (ha : s.acceptor server = a) (hnone : a.sock = none)
    (hfree : s.fds fd = none) (hsock : a'.sock = some ⟨fd, s.made⟩) :
    IsMove s ((s.connect fd).setAcceptor server a', none) := by
  have hhand : s.sockets.hand (.acceptor server) = none := by
    change s.hand (.acceptor server) = _
    rw [hand_acceptor ha, hnone]
    rfl
  refine ⟨.make (.acceptor server) fd, ⟨hhand, hfree⟩, ?_⟩
  rw [Descriptors.Table.move]
  congr 1
  change _ = (⟨((s.connect fd).setAcceptor server a').hand, _, _⟩ : Descriptors.Table Owner)
  rw [hand_setAcceptor, hsock]
  rfl

theorem State.Sound.isMove_controlUserProcess (h : s.Sound) (k : ℕ) :
    IsMove s (Sessions.controlUserProcess s k) := by
  have hfits : (s.client k).pc.live = true → _ := h.clientFits (k := k)
  rw [Sessions.controlUserProcess]
  rcases hpc : (s.client k).pc <;> dsimp only
  case unborn => exact isMove_stay rfl
  case select => exact isMove_stay rfl
  case done => exact isMove_stay rfl
  case close => exact h.isMove_client_close hpc
  case entry =>
    have henv := (hfits (by rw [hpc]; rfl)).pconenv (by rw [hpc]; rfl)
    have hindex := (hfits (by rw [hpc]; rfl)).index (by rw [hpc]; rfl)
    have hrange := (hfits (by rw [hpc]; rfl)).inRange
    rw [if_neg (by rw [henv, hindex]; simp; omega)]
    exact isMove_stay (sockets_setClient hpc rfl rfl)
  case login =>
    split
    · exact isMove_stay (sockets_setClient hpc rfl rfl)
    · exact isMove_stay (sockets_setClient hpc rfl rfl)
  case logout =>
    split
    · exact isMove_stay (sockets_setClient hpc rfl rfl)
    · exact isMove_stay (sockets_setClient hpc rfl rfl)
  case removeIndex =>
    split
    · exact isMove_stay (sockets_setClient hpc rfl rfl)
    · exact isMove_stay (sockets_setClient hpc rfl rfl)
  case readPort =>
    split
    · exact isMove_stay (sockets_setClient hpc rfl rfl)
    · exact isMove_stay (sockets_setClient hpc rfl rfl)
  case loop =>
    split
    · exact isMove_stay (sockets_setClient hpc rfl rfl)
    · exact isMove_stay (sockets_setClient hpc rfl rfl)
  case setPlatform =>
    split
    · exact isMove_stay (sockets_setClient hpc rfl rfl)
    · exact isMove_stay (sockets_setClient hpc rfl rfl)
  case heartBeat =>
    split
    · exact isMove_stay (sockets_setClient hpc rfl rfl)
    · exact isMove_stay (sockets_setClient hpc rfl rfl)
  -- the other lines do not touch the socket
  all_goals exact isMove_stay (sockets_setClient hpc rfl rfl)

theorem isMove_selectReturns (k : ℕ) (event : Event) : IsMove s (selectReturns s k event) := by
  unfold selectReturns
  dsimp only
  by_cases hpc : (s.client k).pc = .select
  · rw [if_pos hpc]
    rcases event with _ | _ | _ | _ | ⟨platform, retCode, ftpModeMediacenter⟩ <;> dsimp only
    · split_ifs
      all_goals exact isMove_stay (sockets_setClient hpc rfl rfl)
    · exact isMove_stay (sockets_setClient hpc rfl rfl)
    · exact isMove_stay (sockets_setClient hpc rfl rfl)
    · exact isMove_stay (sockets_setClient hpc rfl rfl)
    · split_ifs
      all_goals exact isMove_stay (sockets_setClient hpc rfl rfl)
  · rw [if_neg hpc]
    exact isMove_stay rfl

theorem isMove_controlServerThr (server : ServerId) : IsMove s (controlServerThr s server) := by
  rw [controlServerThr]
  rcases ha : s.acceptor server <;> dsimp only
  case idle => split <;> exact isMove_stay (sockets_setAcceptor ha rfl)
  case ready => split <;> exact isMove_stay (sockets_setAcceptor ha rfl)
  case getIndex sock =>
    rcases s.getConuserIndex server with _ | i <;> dsimp only
    · exact isMove_stay (sockets_setAcceptor ha rfl)
    · exact isMove_stay (sockets_setAcceptor ha rfl)
  case refuse sock => exact isMove_acceptor_close ha rfl rfl
  case failClose sock i => exact isMove_acceptor_close ha rfl rfl
  case leave =>
    rcases hlistener : s.listener server with _ | sock <;> dsimp only
    · exact isMove_stay (sockets_setAcceptor ha rfl)
    · exact isMove_listener_close ha rfl hlistener
  case start => exact isMove_stay rfl
  case bind => exact isMove_stay rfl
  case create sock i => exact isMove_stay rfl
  case exited => exact isMove_stay rfl
  all_goals exact isMove_stay (sockets_setAcceptor ha rfl)

/-- An accept thread that has not begun has no socket to listen on. -/
def State.Fresh (s : State) : Prop := ∀ server, s.acceptor server = .start → s.listener server = none

theorem State.Fresh.isMove_socketReturns (h : s.Fresh) (server : ServerId) (fd : ℤ) :
    IsMove s (Sessions.socketReturns s server fd) := by
  rw [Sessions.socketReturns]
  rcases ha : s.acceptor server <;> dsimp only
  case start =>
    split_ifs with _ hfree
    · exact isMove_stay (sockets_setAcceptor ha rfl)
    · exact isMove_listen ha (h server ha) hfree rfl
    · exact isMove_stay rfl
  all_goals exact isMove_stay rfl

theorem isMove_listenReturns (server : ServerId) (ok : Bool) : IsMove s (listenReturns s server ok) := by
  rw [listenReturns]
  rcases ha : s.acceptor server <;> dsimp only
  case bind =>
    split_ifs
    · exact isMove_stay (sockets_setAcceptor ha rfl)
    · exact isMove_stay (sockets_setAcceptor ha rfl)
  all_goals exact isMove_stay rfl

theorem isMove_acceptReturns (server : ServerId) (fd : ℤ) : IsMove s (acceptReturns s server fd) := by
  rw [acceptReturns]
  rcases ha : s.acceptor server <;> dsimp only
  case accept =>
    split_ifs with hfree hpos
    · exact isMove_connect ha rfl hfree.2 rfl
    · have hzero : fd = 0 := le_antisymm (not_lt.mp hpos) hfree.1
      refine ⟨.leak fd, ⟨hzero, hfree.2⟩, ?_⟩
      rw [Descriptors.Table.move]
      congr 1
      have hstay : ((s.connect fd).setAcceptor server .idle).sockets = (s.connect fd).sockets :=
        sockets_setAcceptor ha rfl
      exact hstay.symm
    · exact isMove_stay rfl
  all_goals exact isMove_stay rfl

theorem State.Sound.isMove_createReturns (h : s.Sound) (server : ServerId) (result : ℤ) :
    IsMove s (Sessions.createReturns s server result) := by
  rw [Sessions.createReturns]
  rcases ha : s.acceptor server <;> dsimp only
  case create sock i =>
    split_ifs
    · exact isMove_stay (sockets_setAcceptor ha rfl)
    · exact h.isMove_pass ha rfl
    · exact h.isMove_leaveBehind ha rfl
  all_goals exact isMove_stay rfl

theorem State.Sound.isMove_step (h : s.Sound) (hfresh : s.Fresh) (a : Act) :
    IsMove s (Sessions.step s a) := by
  cases a with
  | listen server fd => exact hfresh.isMove_socketReturns server fd
  | bound server ok => exact isMove_listenReturns server ok
  | serve server => exact isMove_controlServerThr server
  | accept server fd => exact isMove_acceptReturns server fd
  | create server result => exact h.isMove_createReturns server result
  | client k => exact h.isMove_controlUserProcess k
  | select k event => exact isMove_selectReturns k event
  | setRunStatus server status => exact isMove_stay rfl
  | stopUser slot => exact isMove_stay rfl
  | fetchUser slot => exact isMove_stay rfl
  | fetchServer server => exact isMove_stay rfl
  | closeFetched fd =>
    change IsMove s (if _ then _ else _)
    split_ifs
    · exact ⟨.foreign fd, trivial, rfl⟩
    · exact isMove_stay rfl

theorem State.Fresh.setAcceptor (h : s.Fresh) {a : Acceptor} (ha : a ≠ .start) :
    (s.setAcceptor server a).Fresh := by
  intro server' hstart
  change Function.update s.acceptor server a server' = .start at hstart
  rw [Function.update_apply] at hstart
  split at hstart
  · exact absurd hstart ha
  · exact h server' hstart

/-- A step of an accept thread, with a new socket or without. -/
theorem State.Fresh.setListener (h : s.Fresh) {a : Acceptor} (ha : a ≠ .start) (l : Option Sock) :
    ((s.setListener server l).setAcceptor server a).Fresh := by
  intro server' hstart
  change Function.update s.acceptor server a server' = .start at hstart
  change Function.update s.listener server l server' = none
  rw [Function.update_apply] at hstart
  split at hstart
  · exact absurd hstart ha
  · next hne =>
    rw [Function.update_of_ne hne]
    exact h server' hstart

theorem State.Fresh.step (h : s.Fresh) (a : Act) : (Sessions.step s a).1.Fresh := by
  have hset : ∀ server a, a ≠ .start → (s.setAcceptor server a).Fresh := fun _ _ ha => h.setAcceptor ha
  cases a with
  | listen server fd =>
    change State.Fresh (Sessions.socketReturns s server fd).1
    rw [Sessions.socketReturns]
    split
    · split_ifs
      · exact hset _ _ Acceptor.noConfusion
      · exact h.setListener Acceptor.noConfusion _
      · exact h
    · exact h
  | bound server ok =>
    change State.Fresh (Sessions.listenReturns s server ok).1
    rw [Sessions.listenReturns]
    split
    · split_ifs <;> exact hset _ _ Acceptor.noConfusion
    · exact h
  | serve server =>
    change State.Fresh (Sessions.controlServerThr s server).1
    rw [Sessions.controlServerThr]
    rcases ha : s.acceptor server <;> dsimp only
    case start => exact h
    case bind => exact h
    case create => exact h
    case exited => exact h
    case idle => split <;> exact hset _ _ Acceptor.noConfusion
    case ready => split <;> exact hset _ _ Acceptor.noConfusion
    case getIndex sock => split <;> exact hset _ _ Acceptor.noConfusion
    case leave =>
      split
      · exact h.setListener Acceptor.noConfusion none
      · exact hset _ _ Acceptor.noConfusion
    all_goals exact hset _ _ Acceptor.noConfusion
  | accept server fd =>
    change State.Fresh (Sessions.acceptReturns s server fd).1
    rw [Sessions.acceptReturns]
    split
    · split_ifs
      · exact hset _ _ Acceptor.noConfusion
      · exact hset _ _ Acceptor.noConfusion
      · exact h
    · exact h
  | create server result =>
    change State.Fresh (Sessions.createReturns s server result).1
    rw [Sessions.createReturns]
    split
    · split_ifs <;> exact hset _ _ Acceptor.noConfusion
    · exact h
  | client k =>
    change State.Fresh (Sessions.controlUserProcess s k).1
    rw [Sessions.controlUserProcess]
    dsimp only
    split <;> (try split) <;> exact h
  | select k event =>
    change State.Fresh (Sessions.selectReturns s k event).1
    unfold Sessions.selectReturns
    dsimp only
    split
    · rcases event with _ | _ | _ | _ | ⟨platform, retCode, ftpModeMediacenter⟩ <;> dsimp only
      · split_ifs <;> exact h
      · exact h
      · exact h
      · exact h
      · split_ifs <;> exact h
    · exact h
  | closeFetched fd =>
    change State.Fresh (if _ then _ else _ : State × Option Closed).1
    split_ifs <;> exact h
  | setRunStatus server status => exact h
  | stopUser slot => exact h
  | fetchUser slot => exact h
  | fetchServer server => exact h

end Steps

/-! ### Runs -/

section Runs

variable (maxRoom : ℕ) (acts : List Act)

theorem sockets_initial : (initial maxRoom).sockets.Sound Spare [] := by
  refine Descriptors.Table.sound_of_empty (fun o => ?_) fun _ => rfl
  rcases o with (_ | room) | k | server | slot
  case acceptor.roomser =>
    change ((if room.val < maxRoom then Acceptor.start else .exited).sock).map _ = none
    split <;> rfl
  all_goals rfl

theorem fresh_run : (Run.final step (initial maxRoom) acts).Fresh :=
  Run.final_invariant (I := State.Fresh) (fun _ h a _ => h.step a) fun _ _ => rfl

/-- The process and its descriptors are sound after every run. -/
theorem sockets_run : (Run.final step (initial maxRoom) acts).sockets.Sound Spare
    (Run.outs step (initial maxRoom) acts) := by
  induction acts using List.reverseRecOn with
  | nil => exact sockets_initial maxRoom
  | append_singleton acts a ih =>
    obtain ⟨m, hm, hmove⟩ := (sound_run maxRoom acts).isMove_step (fresh_run maxRoom acts) a
    have hnext := ih.move hm
    rw [hmove] at hnext
    rw [Run.outs_append, Run.final_append]
    exact hnext

/-- In every run, every thread closes its own connection and never that of another client exactly when
no connection has been closed from outside when its thread comes to close it. -/
theorem closesOwn_iff_undisturbed :
    ClosesOwn (Run.outs step (initial maxRoom) acts) ↔
      Undisturbed (Run.outs step (initial maxRoom) acts) := by
  induction acts using List.reverseRecOn with
  | nil =>
    refine iff_of_true (fun c hc => absurd hc (List.not_mem_nil)) fun pre c post heq => ?_
    simp at heq
  | append_singleton acts a ih =>
    obtain ⟨m, hm, hmove⟩ := (sound_run maxRoom acts).isMove_step (fresh_run maxRoom acts) a
    have hsound := sockets_run maxRoom acts
    rw [Run.outs_append, Run.outs_cons, Run.outs_nil, Descriptors.closesOwn_concat, Undisturbed,
      Run.forall_cut_concat, ← Undisturbed, ih]
    refine and_congr_right fun hundisturbed => forall₂_congr fun x y => ?_
    refine forall_congr' fun hc => ?_
    refine hsound.hits_own_iff hm (ih.mpr hundisturbed) ?_
    rw [hmove]
    exact hc

/-- The forward server listens. -/
def serverStarts : List Act :=
  [.listen .forser 3, .serve .forser, .bound .forser true, .setRunStatus .forser .running, .serve .forser,
    .serve .forser]

/-- A manager connects and logs in. -/
def managerLogin : List Act :=
  serverStarts ++ [.accept .forser 5, .serve .forser, .serve .forser,
    .serve .forser, .serve .forser, .create .forser 0, .serve .forser, .client 0, .client 0,
    .client 0, .client 0, .client 0, .client 0, .select 0 (.message .managePlatform 0 true),
    .client 0, .client 0]

-- the manager's socket is closed from outside, the next client gets its number, and is thrown out by the
-- manager's thread
example : some ⟨some 1, some 2⟩ ∈ Run.outs step (initial 1) (managerLogin ++
    [.client 0, .client 0, .fetchUser ⟨.forser, ⟨0, by decide⟩⟩, .closeFetched 5, .serve .forser,
      .serve .forser, .accept .forser 5, .select 0 .broken, .client 0, .client 0, .client 0, .client 0]) := by
  decide +kernel

-- the program ends: the socket that a room's server listens on is closed from outside, a manager gets its
-- number, and is thrown out by the server's thread
example :
    let room : ServerId := .roomser ⟨0, by decide⟩
    some ⟨some 0, some 2⟩ ∈ Run.outs step (initial 1) ([.listen room 4, .serve room, .bound room true] ++
      serverStarts ++ [.setRunStatus room .stoped, .fetchServer room, .closeFetched 4, .accept .forser 4,
        .serve room, .serve room]) := by
  decide +kernel

end Runs

/-! ### The user that a message is forwarded to -/

/-- The record in a slot is that of a session that is going on, for a platform. -/
structure Serves (s : State) (log : List (Option Closed)) (platform : Platform) (slot : Slot)
    (k : ℕ) : Prop where
  slotOf_iff : ∀ o, s.slotOf o = some slot ↔ o = .client k
  online : (s.client k).pc.online = true
  platform : (s.user slot).platform = platform
  index : (s.user slot).index = slot.user.val
  pconenv : (s.user slot).pconenv = true
  tcpSock : (s.user slot).tcpSock = (s.client k).sock.fd
  /-- Behind the socket is the client of this session, unless he has been displaced. -/
  connected : s.fds (s.user slot).tcpSock = some (s.client k).sock.conn ↔
    ¬ Displaced log (s.client k).sock.conn
  /-- The function to forward with is there, but for the moment between `set_conuser_platform` and
  `set_user_function_set`. -/
  function : (s.user slot).forwardProcess = true ∨ (s.client k).pc = .setFunction

section Lookup

variable {s : State} {slot : Slot} {platform : Platform}

theorem findUser_eq_some {p : ConUser → Bool} (h : s.findUser p = some slot) :
    p (s.user slot) = true := by
  obtain ⟨i, hi, rfl⟩ := Option.map_eq_some_iff.mp h
  have hp := List.find?_some hi
  exact hp

/-- Whoever is found is logged in and of the platform that was looked for. -/
theorem findForwardObj_eq_some {maxRoom roomIndex userid : ℕ}
    (h : findForwardObj s maxRoom platform roomIndex userid = some slot) :
    (s.user slot).loginOk = true ∧ (s.user slot).platform = platform ∧
      platform ≠ .invalidPlatform := by
  rcases platform <;> simp only [findForwardObj] at h
  case invalidPlatform => cases h
  case recServer =>
    split_ifs at h with _ _ hfound
    cases h
    exact ⟨hfound.1, hfound.2, by decide⟩
  case ipadUser =>
    split_ifs at h
    have hp := findUser_eq_some h
    simp only [Bool.and_eq_true, decide_eq_true_eq] at hp
    exact ⟨hp.1.1, hp.1.2, by decide⟩
  case liveNode =>
    split_ifs at h
    have hp := findUser_eq_some h
    simp only [Bool.and_eq_true, decide_eq_true_eq] at hp
    exact ⟨hp.1.1, hp.1.2, by decide⟩
  all_goals
    have hp := findUser_eq_some h
    simp only [Bool.and_eq_true, decide_eq_true_eq] at hp
    exact ⟨hp.1.1, hp.2, by decide⟩

theorem findForwardObj2_eq_some {mcIndex : ℕ} (h : findForwardObj2 s platform mcIndex = some slot) :
    (s.user slot).loginOk = true ∧ (s.user slot).platform = platform ∧
      platform ≠ .invalidPlatform := by
  rw [findForwardObj2] at h
  split_ifs at h with hplatform
  have hp := findUser_eq_some h
  simp only [Bool.and_eq_true, decide_eq_true_eq] at hp
  exact ⟨hp.1.1, hp.1.2, by rw [hplatform]; decide⟩

/-- A user who is logged in is the user of one session. -/
theorem State.Sound.exists_serves {log : List (Option Closed)} (h : s.Sound)
    (hlog : s.sockets.Sound Spare log) (honline : (s.user slot).loginOk = true)
    (hplatform : (s.user slot).platform = platform) (hvalid : platform ≠ .invalidPlatform) :
    ∃ k, Serves s log platform slot k := by
  have htaken : s.conLink slot = true := by
    by_contra hfree
    have hclean := h.table.clean (Bool.eq_false_iff.mpr hfree)
    exact Bool.false_ne_true (hclean.1.1.symm.trans honline)
  obtain ⟨o, ho⟩ := (h.table.taken_iff slot).mp htaken
  rcases o with server | k | server | slot'
  · -- an accept thread holds the slot: nobody is logged in yet
    have hfits := h.table.fits ho
    change AcceptorFits _ _ _ at hfits
    exact absurd (hfits.loginOk.symm.trans honline) Bool.false_ne_true
  · have hfits := h.table.fits ho
    change ClientFits (s.client k) (s.user slot) at hfits
    have hpc : (s.client k).pc.online = true := hfits.loginOk.symm.trans honline
    have hslot : (s.client k).slot = slot := by
      change (if (s.client k).pc.live then some (s.client k).slot else none) = some slot at ho
      split at ho
      · exact Option.some.inj ho
      · cases ho
    have hconnected : (s.client k).pc.connected = true := by
      revert hpc
      cases (s.client k).pc <;> decide
    have hplaced : (s.client k).pc.placed = true := by
      revert hpc
      cases (s.client k).pc <;> decide
    have hholding : (s.client k).pc.holding = true := by
      revert hpc
      cases (s.client k).pc <;> decide
    have htcp : (s.user slot).tcpSock = (s.client k).sock.fd := by
      rw [hfits.tcpSock, if_pos hconnected]
    have hhand : s.sockets.hand (.client k) = some (s.client k).sock.handle := by
      change (if (s.client k).pc.holding then _ else none) = _
      rw [if_pos hholding]
    have hfunction : (s.user slot).forwardProcess = true ∨ (s.client k).pc = .setFunction := by
      have hcases : (s.client k).pc = .setFunction ∨
          ¬ (s.client k).pc.naming ∧ ¬ (s.client k).pc.cleared := by
        revert hpc
        cases (s.client k).pc <;> decide
      rcases hcases with hset | ⟨hnaming, hcleared⟩
      · exact .inr hset
      · refine .inl ?_
        rw [hfits.function hnaming hcleared, hplatform]
        exact decide_eq_true hvalid
    refine ⟨k, ⟨fun o => ⟨fun ho' => Thread.owner_injective (h.table.unique ho' ho), ?_⟩, hpc, hplatform, ?_, ?_, htcp, ?_,
      hfunction⟩⟩
    · rintro rfl
      exact ho
    · rw [hfits.index hplaced, hslot]
    · exact hfits.pconenv hplaced
    · rw [htcp]
      exact hlog.open_iff hhand
  · cases ho
  · -- nobody has logged in on a slot that has been left behind
    have hquiet := h.table.fits ho
    change Quiet (s.user slot) at hquiet
    exact absurd (hquiet.loginOk.symm.trans honline) Bool.false_ne_true

/-- After every run, a user that a message is forwarded to is the user of one session that is going on,
of the platform that was looked for, and the socket in his record leads to his own client unless that
one has been displaced. -/
theorem forward_target (maxRoom : ℕ) (acts : List Act) (platform : Platform)
    (roomIndex userid : ℕ) (slot : Slot) :
    let s := Run.final step (initial maxRoom) acts
    findForwardObj s maxRoom platform roomIndex userid = some slot ∨
        findForwardObj2 s platform userid = some slot →
      ∃ k, Serves s (Run.outs step (initial maxRoom) acts) platform slot k := by
  intro s hfound
  have hs : s.Sound := sound_run maxRoom acts
  have hlog := sockets_run maxRoom acts
  rcases hfound with hfound | hfound
  · obtain ⟨honline, hplatform, hvalid⟩ := findForwardObj_eq_some hfound
    exact hs.exists_serves hlog honline hplatform hvalid
  · obtain ⟨honline, hplatform, hvalid⟩ := findForwardObj2_eq_some hfound
    exact hs.exists_serves hlog honline hplatform hvalid

theorem forward_target_manager :
    ∃ k, Serves (Run.final step (initial 1) managerLogin) (Run.outs step (initial 1) managerLogin)
      .managePlatform ⟨.forser, ⟨0, by decide⟩⟩ k :=
  forward_target 1 managerLogin .managePlatform 0 0 _ (.inl (by decide +kernel))

end Lookup

end Sessions

end Control

end ReachEdukit
