import ReachEdukit.Lib.Descriptors
import ReachEdukit.Lib.Run
import ReachEdukit.Control.Timeout

/-!
# The sessions of the control program

The control program listens on one port for all platforms and on one more for every room. Each server
has an accept thread, which opens a socket to listen on; for each connection it takes a slot of its table
of users, fills in the record and starts a thread. That thread logs the user in, reads messages until the
connection breaks or its `run_status` is set to `CONTROL_STOPED`, logs the user out, closes the socket,
cleans the record and gives the slot back. Meanwhile any other thread may look for a user of some platform
to forward a message to, and a new login of a manager or a director stops the old one and closes its
socket; and when the program ends, the sockets of the users and of the servers are closed from outside.

When `pthread_create` fails, it returns a positive number. The accept thread looks for a negative one and
for zero, and goes on: nobody ever works on the slot that it has taken, and nobody gives it back.

The state here is the whole process: all servers, all threads, and the socket numbers that are open. A
step is one step of one thread, from one access to shared data to the next.

## What is left out

* `usercnt`, which every thread changes under the mutex of its own record only
* the work on a message (`deal_process`), except that it may stop users and close their sockets
* `manager_flag`, `ack`, the names, addresses and buffers, which no function here reads
* `stream_request_cleanup_lives_user_info`, `timeout_que_cleanup` and the logs at the end of a session
* the test for a positive `tcp_sock` before it is read once more and closed, when the program ends

A socket has a number of its own besides its socket number, since socket numbers are used again. No step
reads it, nor the sockets that `pthread_create` has left behind.

## Main definitions

* `ConUser`, `Acceptor`, `Client`, `State` — a record, the threads, the process
* `step` — one step of one thread
* `findForwardObj`, `findForwardObj2` — whom a message is forwarded to
-/

namespace ReachEdukit

namespace Control

namespace Sessions

open Descriptors (Closed)

/-- `CONTROL_FOR_SERVER_PORT`. -/
def controlForServerPort : ℕ := 3000

/-- `CONTROL_ROOM_SERVER_PORT_START`. -/
def controlRoomServerPortStart : ℕ := 3200

/-- `CONTROL_MAX_USER`. -/
def controlMaxUser : ℕ := 20

/-- `CONTROL_ROOM_SERVER_MAX_USER`. -/
def controlRoomServerMaxUser : ℕ := 16

/-- The servers of `server_set`. -/
inductive ServerId
  | forser
  | roomser (room : Fin controlRoomServerMaxUser)
  deriving DecidableEq

/-- `ser_port`, as `start_control_server_task` sets it. -/
def ServerId.serPort : ServerId → ℕ
  | .forser => controlForServerPort
  | .roomser room => controlRoomServerPortStart + room

/-- `max_user_num`, as `start_control_server_task` sets it. -/
def ServerId.maxUserNum : ServerId → ℕ
  | .forser => controlMaxUser
  | .roomser _ => 1

/-- A record in one of the tables of users. -/
structure Slot where
  server : ServerId
  user : Fin controlMaxUser
  deriving DecidableEq

/-- `run_status`. -/
inductive RunStatus
  | stoped
  | running
  | preparing
  deriving DecidableEq

/-- `con_user`. -/
structure ConUser where
  tcpSock : ℤ
  loginOk : Bool
  index : ℤ
  heartBeat : Bool
  runStatus : RunStatus
  platform : Platform
  /-- `pcmd.forward_process` is not null. -/
  forwardProcess : Bool
  /-- `pconenv` is not null. -/
  pconenv : Bool
  port : ℕ

/-- A record after `control_init_env`. -/
def conUserInit : ConUser where
  tcpSock := -1
  loginOk := false
  index := -1
  heartBeat := false
  runStatus := .stoped
  platform := .invalidPlatform
  forwardProcess := false
  pconenv := true
  port := 0

/-- A socket number, and the socket that `accept` or `socket` returned under it. -/
structure Sock where
  fd : ℤ
  conn : ℕ
  deriving DecidableEq

/-- Where the accept thread of a server is: at which line, with which socket and which index. -/
inductive Acceptor
  | start
  | setSocket (sock : Sock)
  | bind
  | idle
  /-- It has not been stopped. -/
  | ready
  | accept
  | getIndex (sock : Sock)
  | refuse (sock : Sock)
  | setSock (sock : Sock) (user : Fin controlMaxUser)
  | setEnv (sock : Sock) (user : Fin controlMaxUser)
  | setIndex (sock : Sock) (user : Fin controlMaxUser)
  | create (sock : Sock) (user : Fin controlMaxUser)
  | failClose (sock : Sock) (user : Fin controlMaxUser)
  | failClear (user : Fin controlMaxUser)
  | failRemove (user : Fin controlMaxUser)
  | setPort (user : Fin controlMaxUser)
  | leave
  | clearSocket
  | setStoped
  | exited
  deriving DecidableEq

/-- Where the thread of a session is. -/
inductive ClientPc
  /-- There is no such thread yet. -/
  | unborn
  | entry
  | getSocket
  | readPort
  | roomPlatform
  | roomFunction
  | login
  | running
  | loop
  | select
  | setPlatform
  | setFunction
  | heartBeat
  | stop
  | logout
  | clearSock
  | close
  | clearIndex
  | clearFunction
  | clearEnv
  | clearPlatform
  | removeIndex
  | done
  deriving DecidableEq

/-- The thread of a session with its variables. -/
structure Client where
  pc : ClientPc
  /-- `puser`. -/
  slot : Slot
  /-- The socket it was started for. -/
  sock : Sock
  /-- `user_index`. -/
  userIndex : ℤ
  /-- `socket`. -/
  socket : ℤ
  lastplatform : Platform
  deriving DecidableEq

/-- A thread as `pthread_create` starts it. -/
def Client.start (pc : ClientPc) (slot : Slot) (sock : Sock) : Client where
  pc := pc
  slot := slot
  sock := sock
  userIndex := 0
  socket := 0
  lastplatform := .invalidPlatform

/-- The process. -/
structure State where
  conLink : Slot → Bool
  user : Slot → ConUser
  runStatus : ServerId → RunStatus
  /-- `ser_socket` of `control_env`. -/
  serSocket : ServerId → ℤ
  acceptor : ServerId → Acceptor
  /-- `ser_socket` of the accept thread, until it is closed. -/
  listener : ServerId → Option Sock
  client : ℕ → Client
  /-- How many threads have been started. -/
  born : ℕ
  /-- The sockets that `pthread_create` has left behind with their slots. -/
  stray : Slot → Option Sock
  /-- The open socket numbers with their sockets. -/
  fds : ℤ → Option ℕ
  /-- How many sockets there have been. -/
  made : ℕ
  /-- What other threads have read from the records and are about to close. -/
  fetched : List ℤ

/-- What `select` and the reading of a message come to. -/
inductive Event
  | timeout
  /-- `select` fails, or the message cannot be received. -/
  | broken
  /-- Nothing to read, or a message that cannot be resolved. -/
  | passed
  /-- A message with the old header, which has no pass key. -/
  | oldHeader
  /-- A message with the platform of its pass key, its return code, and whether files go to the media
  center now. -/
  | message (platform : Platform) (retCode : ℤ) (ftpModeMediacenter : Bool)
  deriving DecidableEq

/-- What happens next. -/
inductive Act
  /-- `socket` returns. -/
  | listen (server : ServerId) (fd : ℤ)
  /-- `bind` and `listen` succeed, or one of them fails. -/
  | bound (server : ServerId) (ok : Bool)
  /-- The accept thread takes a step; if it waits in `accept`, the wait is over without a result. -/
  | serve (server : ServerId)
  /-- `accept` returns a socket. -/
  | accept (server : ServerId) (fd : ℤ)
  /-- `pthread_create` returns. -/
  | create (server : ServerId) (result : ℤ)
  /-- The thread of a session takes a step; if it waits in `select`, nothing happens. -/
  | client (k : ℕ)
  | select (k : ℕ) (event : Event)
  /-- `control_set_running`, `control_set_stop`. -/
  | setRunStatus (server : ServerId) (status : RunStatus)
  /-- Some other thread stops a user. -/
  | stopUser (slot : Slot)
  /-- Some other thread reads a user's socket, to close it. -/
  | fetchUser (slot : Slot)
  /-- Some other thread reads a server's socket, to close it. -/
  | fetchServer (server : ServerId)
  /-- Some other thread closes what it has read. -/
  | closeFetched (fd : ℤ)

namespace State

variable (s : State)

def setAcceptor (server : ServerId) (a : Acceptor) : State :=
  { s with acceptor := Function.update s.acceptor server a }

def setClient (k : ℕ) (c : Client) : State := { s with client := Function.update s.client k c }

/-- The thread of a session goes on at `pc`. -/
def goto (k : ℕ) (pc : ClientPc) : State := s.setClient k { s.client k with pc := pc }

def setUser (slot : Slot) (u : ConUser) : State := { s with user := Function.update s.user slot u }

def setConLink (slot : Slot) (taken : Bool) : State :=
  { s with conLink := Function.update s.conLink slot taken }

/-- `close`. -/
def close (fd : ℤ) : State := { s with fds := Function.update s.fds fd none }

/-- `get_conuser_index`. -/
def getConuserIndex (server : ServerId) : Option (Fin controlMaxUser) :=
  (List.finRange controlMaxUser).find? fun i =>
    decide (i.val < server.maxUserNum) && !s.conLink ⟨server, i⟩

/-- `remove_conuser_index`. -/
def removeConuserIndex (slot : Slot) : State :=
  (s.setConLink slot false).setUser slot { s.user slot with tcpSock := -1 }

/-- A socket is opened. -/
def connect (fd : ℤ) : State :=
  { s with fds := Function.update s.fds fd (some s.made), made := s.made + 1 }

def setListener (server : ServerId) (l : Option Sock) : State :=
  { s with listener := Function.update s.listener server l }

/-- Nobody works on a slot that is taken. -/
def leaveBehind (slot : Slot) (sock : Sock) : State :=
  { s with stray := Function.update s.stray slot (some sock) }

/-- One more thread. -/
def spawn (c : Client) : State := { s.setClient s.born c with born := s.born + 1 }

end State

/-- `pcon->user[user_index]`, where the array has one. -/
def Client.indexed (c : Client) : Option Slot :=
  if h : 0 ≤ c.userIndex ∧ c.userIndex < controlMaxUser then
    some ⟨c.slot.server, ⟨c.userIndex.toNat, by omega⟩⟩
  else
    none

/-- `control_server_thr`, one step. -/
def controlServerThr (s : State) (server : ServerId) : State × Option Closed :=
  match s.acceptor server with
  | .start | .bind => (s, none)
  | .setSocket sock =>
    ({ s.setAcceptor server .bind with serSocket := Function.update s.serSocket server sock.fd }, none)
  | .idle =>
    if s.runStatus server = .stoped then (s.setAcceptor server .leave, none)
    else (s.setAcceptor server .ready, none)
  | .ready =>
    if s.runStatus server = .preparing then (s.setAcceptor server .idle, none)
    else (s.setAcceptor server .accept, none)
  | .accept => (s.setAcceptor server .idle, none)
  | .getIndex sock =>
    match s.getConuserIndex server with
    | some i => ((s.setAcceptor server (.setSock sock i)).setConLink ⟨server, i⟩ true, none)
    | none => (s.setAcceptor server (.refuse sock), none)
  | .refuse sock =>
    ((s.setAcceptor server .idle).close sock.fd, some ⟨some sock.conn, s.fds sock.fd⟩)
  | .setSock sock i =>
    ((s.setAcceptor server (.setEnv sock i)).setUser ⟨server, i⟩
      { s.user ⟨server, i⟩ with tcpSock := sock.fd }, none)
  | .setEnv sock i =>
    ((s.setAcceptor server (.setIndex sock i)).setUser ⟨server, i⟩
      { s.user ⟨server, i⟩ with pconenv := true }, none)
  | .setIndex sock i =>
    ((s.setAcceptor server (.create sock i)).setUser ⟨server, i⟩
      { s.user ⟨server, i⟩ with index := i.val }, none)
  | .create _ _ => (s, none)
  | .failClose sock i =>
    ((s.setAcceptor server (.failClear i)).close sock.fd, some ⟨some sock.conn, s.fds sock.fd⟩)
  | .failClear i =>
    ((s.setAcceptor server (.failRemove i)).setUser ⟨server, i⟩
      { s.user ⟨server, i⟩ with tcpSock := -1 }, none)
  | .failRemove i => ((s.setAcceptor server .idle).removeConuserIndex ⟨server, i⟩, none)
  | .setPort i =>
    ((s.setAcceptor server .idle).setUser ⟨server, i⟩
      { s.user ⟨server, i⟩ with port := server.serPort }, none)
  | .leave =>
    match s.listener server with
    | some sock =>
      (((s.setAcceptor server .clearSocket).setListener server none).close sock.fd,
        some ⟨some sock.conn, s.fds sock.fd⟩)
    | none => (s.setAcceptor server .clearSocket, none)
  | .clearSocket =>
    ({ s.setAcceptor server .setStoped with serSocket := Function.update s.serSocket server (-1) }, none)
  | .setStoped =>
    ({ s.setAcceptor server .exited with
        runStatus := Function.update s.runStatus server .stoped }, none)
  | .exited => (s, none)

/-- `socket` returns. A socket number that is open is not given out again. -/
def socketReturns (s : State) (server : ServerId) (fd : ℤ) : State × Option Closed :=
  match s.acceptor server with
  | .start =>
    if fd < 0 then
      (s.setAcceptor server .exited, none)
    else if s.fds fd = none then
      (((s.connect fd).setListener server (some ⟨fd, s.made⟩)).setAcceptor server (.setSocket ⟨fd, s.made⟩),
        none)
    else
      (s, none)
  | _ => (s, none)

/-- `bind` and `listen` have returned. -/
def listenReturns (s : State) (server : ServerId) (ok : Bool) : State × Option Closed :=
  match s.acceptor server with
  | .bind => (s.setAcceptor server (if ok then .idle else .leave), none)
  | _ => (s, none)

/-- `accept` returns. -/
def acceptReturns (s : State) (server : ServerId) (fd : ℤ) : State × Option Closed :=
  match s.acceptor server with
  | .accept =>
    if 0 ≤ fd ∧ s.fds fd = none then
      if 0 < fd then
        ((s.connect fd).setAcceptor server (.getIndex ⟨fd, s.made⟩), none)
      else
        -- the socket number 0 is not taken for one, and stays open
        ((s.connect fd).setAcceptor server .idle, none)
    else
      (s, none)
  | _ => (s, none)

/-- `pthread_create` returns. -/
def createReturns (s : State) (server : ServerId) (result : ℤ) : State × Option Closed :=
  match s.acceptor server with
  | .create sock i =>
    if result < 0 then
      (s.setAcceptor server (.failClose sock i), none)
    else if result = 0 then
      ((s.setAcceptor server (.setPort i)).spawn (.start .entry ⟨server, i⟩ sock), none)
    else
      ((s.setAcceptor server .idle).leaveBehind ⟨server, i⟩ sock, none)
  | _ => (s, none)

/-- The platforms that send heart beats. -/
def Platform.beats : Platform → Bool
  | .liveNode | .managePlatform | .ipadUser | .director => true
  | _ => false

/-- `control_user_process`, one step outside `select`. -/
def controlUserProcess (s : State) (k : ℕ) : State × Option Closed :=
  let c := s.client k
  let u := s.user c.slot
  match c.pc with
  | .unborn | .select | .done => (s, none)
  | .entry =>
    if u.pconenv = false ∨ (c.slot.server.maxUserNum : ℤ) ≤ u.index ∨ u.index < 0 then
      (s.setClient k { c with pc := .done, userIndex := u.index }, none)
    else
      (s.setClient k { c with pc := .getSocket, userIndex := u.index }, none)
  | .getSocket => (s.setClient k { c with pc := .readPort, socket := u.tcpSock }, none)
  | .readPort =>
    if u.port ≠ controlForServerPort then (s.goto k .roomPlatform, none) else (s.goto k .login, none)
  | .roomPlatform =>
    ((s.goto k .roomFunction).setUser c.slot { u with platform := .recServer }, none)
  | .roomFunction => ((s.goto k .login).setUser c.slot { u with forwardProcess := true }, none)
  | .login =>
    match c.indexed with
    | some slot => ((s.goto k .running).setUser slot { s.user slot with loginOk := true }, none)
    | none => (s.goto k .running, none)
  | .running => ((s.goto k .loop).setUser c.slot { u with runStatus := .running }, none)
  | .loop =>
    if s.runStatus c.slot.server = .running ∧ u.runStatus = .running then
      (s.goto k .select, none)
    else
      (s.goto k .stop, none)
  | .setPlatform =>
    if c.lastplatform = .invalidPlatform then
      (s.goto k .stop, none)
    else
      ((s.goto k .setFunction).setUser c.slot { u with platform := c.lastplatform }, none)
  | .setFunction => ((s.goto k .heartBeat).setUser c.slot { u with forwardProcess := true }, none)
  | .heartBeat =>
    if Platform.beats u.platform ∨ u.platform = .recServer then
      ((s.goto k .loop).setUser c.slot { u with heartBeat := true }, none)
    else
      (s.goto k .loop, none)
  | .stop => ((s.goto k .logout).setUser c.slot { u with runStatus := .stoped }, none)
  | .logout =>
    match c.indexed with
    | some slot => ((s.goto k .clearSock).setUser slot { s.user slot with loginOk := false }, none)
    | none => (s.goto k .clearSock, none)
  | .clearSock => ((s.goto k .close).setUser c.slot { u with tcpSock := -1 }, none)
  | .close => ((s.goto k .clearIndex).close c.socket, some ⟨some c.sock.conn, s.fds c.socket⟩)
  | .clearIndex => ((s.goto k .clearFunction).setUser c.slot { u with index := -1 }, none)
  | .clearFunction => ((s.goto k .clearEnv).setUser c.slot { u with forwardProcess := false }, none)
  | .clearEnv => ((s.goto k .clearPlatform).setUser c.slot { u with pconenv := false }, none)
  | .clearPlatform =>
    ((s.goto k .removeIndex).setUser c.slot { u with platform := .invalidPlatform }, none)
  | .removeIndex =>
    match c.indexed with
    | some slot => ((s.goto k .done).removeConuserIndex slot, none)
    | none => (s.goto k .done, none)

/-- `control_user_process` at `select`. -/
def selectReturns (s : State) (k : ℕ) (event : Event) : State × Option Closed :=
  let c := s.client k
  let u := s.user c.slot
  if c.pc = .select then
    match event with
    | .timeout =>
      if Platform.beats u.platform then
        if u.heartBeat = false then
          (s.goto k .stop, none)
        else
          ((s.goto k .loop).setUser c.slot { u with heartBeat := false }, none)
      else
        (s.goto k .loop, none)
    | .broken => (s.goto k .stop, none)
    | .passed => (s.goto k .loop, none)
    | .oldHeader => (s.goto k .heartBeat, none)
    | .message platform retCode ftpModeMediacenter =>
      let p := if u.port ≠ controlForServerPort then .recServer else platform
      if u.port = controlForServerPort ∧ (platform = .invalidPlatform ∧ retCode = -1 ∨
          platform = .mediaCenter ∧ ftpModeMediacenter = false) then
        (s.goto k .stop, none)
      else if c.lastplatform = .invalidPlatform then
        (s.setClient k { c with pc := .setPlatform, lastplatform := p }, none)
      else
        (s.goto k .heartBeat, none)
  else
    (s, none)

/-- One step of the process, and the `close` in it. -/
def step (s : State) : Act → State × Option Closed
  | .listen server fd => socketReturns s server fd
  | .bound server ok => listenReturns s server ok
  | .serve server => controlServerThr s server
  | .accept server fd => acceptReturns s server fd
  | .create server result => createReturns s server result
  | .client k => controlUserProcess s k
  | .select k event => selectReturns s k event
  | .setRunStatus server status =>
    ({ s with runStatus := Function.update s.runStatus server status }, none)
  | .stopUser slot => (s.setUser slot { s.user slot with runStatus := .stoped }, none)
  | .fetchUser slot => ({ s with fetched := (s.user slot).tcpSock :: s.fetched }, none)
  | .fetchServer server => ({ s with fetched := s.serSocket server :: s.fetched }, none)
  | .closeFetched fd =>
    if fd ∈ s.fetched then
      ({ s.close fd with fetched := s.fetched.erase fd }, some ⟨none, s.fds fd⟩)
    else
      (s, none)

/-- The process after `start_control_server_task`, with the servers of the first `maxRoom` rooms; the
others are never started. -/
def initial (maxRoom : ℕ) : State where
  conLink _ := false
  user _ := conUserInit
  runStatus _ := .preparing
  serSocket _ := -1
  acceptor
    | .forser => .start
    | .roomser room => if room.val < maxRoom then .start else .exited
  listener _ := none
  client _ := .start .unborn ⟨.forser, ⟨0, by decide⟩⟩ ⟨-1, 0⟩
  born := 0
  stray _ := none
  fds _ := none
  made := 0
  fetched := []

/-- The first user of the forward server with a property. -/
def State.findUser (s : State) (p : ConUser → Bool) : Option Slot :=
  ((List.finRange controlMaxUser).find? fun i => p (s.user ⟨.forser, i⟩)).map (⟨.forser, ·⟩)

/-- `find_forward_obj`. A room past the last array element is left out: the source reads it when
`MaxRoom` is that big. -/
def findForwardObj (s : State) (maxRoom : ℕ) (platform : Platform) (roomIndex userid : ℕ) :
    Option Slot :=
  match platform with
  | .invalidPlatform => none
  | .recServer =>
    if maxRoom < roomIndex then
      none
    else if h : roomIndex < controlRoomServerMaxUser then
      let slot : Slot := ⟨.roomser ⟨roomIndex, h⟩, ⟨0, by decide⟩⟩
      if (s.user slot).loginOk ∧ (s.user slot).platform = .recServer then some slot else none
    else
      none
  | .liveNode | .ipadUser =>
    if controlMaxUser < userid then
      none
    else
      s.findUser fun u =>
        u.loginOk && decide (u.platform = platform) && decide (u.index % 2 ^ 32 = userid)
  | _ =>
    s.findUser fun u =>
      u.loginOk && decide (u.runStatus = .running) && decide (u.platform = platform)

/-- `find_forward_obj2`. -/
def findForwardObj2 (s : State) (platform : Platform) (mcIndex : ℕ) : Option Slot :=
  if platform = .mediaCenter then
    s.findUser fun u =>
      u.loginOk && decide (u.platform = platform) && decide (u.index % 2 ^ 32 = mcIndex)
  else
    none

end Sessions

end Control

end ReachEdukit
