import ReachEdukit.Lib.Lease
import ReachEdukit.Control.Sessions

/-!
# One thread for one session

A slot is in use from `get_conuser_index` in the accept thread to `remove_conuser_index` at the end of
the session's thread. What the record in it may look like depends on how far its thread has come:
`AcceptorFits` and `ClientFits` say so line by line. With these the table of users is a table of slots
on lease, and stays sound whatever the threads do in whatever order. A slot that `pthread_create` has left
behind is on lease to nobody, for good.
-/

namespace ReachEdukit

namespace Control

namespace Sessions

/-! ### What the threads expect -/

/-- A thread of the process. -/
inductive Thread
  | acceptor (server : ServerId)
  | client (k : ℕ)
  deriving DecidableEq

/-- Who may have a slot or a socket: a thread, an accept thread for the socket it listens on, or nobody,
when `pthread_create` has left them behind. -/
inductive Owner
  | acceptor (server : ServerId)
  | client (k : ℕ)
  | listener (server : ServerId)
  | stray (slot : Slot)
  deriving DecidableEq

/-- A thread has slots. -/
def Thread.owner : Thread → Owner
  | .acceptor server => .acceptor server
  | .client k => .client k

theorem Thread.owner_injective : Function.Injective Thread.owner := by
  rintro (_ | _) (_ | _) h <;> cases h <;> rfl

/-- The variables of a thread. -/
inductive Vars
  | acceptor (server : ServerId) (a : Acceptor)
  | client (c : Client)
  | listener
  | stray (slot : Slot) (sock : Option Sock)

/-- The index that an accept thread has taken and not passed on. -/
def Acceptor.user : Acceptor → Option (Fin controlMaxUser)
  | .setSock _ i | .setEnv _ i | .setIndex _ i | .create _ i => some i
  | .failClose _ i | .failClear i | .failRemove i => some i
  | _ => none

/-- The socket in the record that an accept thread fills in. -/
def Acceptor.tcpSock : Acceptor → Option ℤ
  | .setEnv sock _ | .setIndex sock _ | .create sock _ => some sock.fd
  | .setSock _ _ | .failRemove _ => some (-1)
  | _ => none

/-- The accept thread has written `pconenv`. -/
def Acceptor.hasEnv : Acceptor → Bool
  | .setIndex _ _ | .create _ _ => true
  | _ => false

/-- The index that the accept thread has written. -/
def Acceptor.index : Acceptor → Option (Fin controlMaxUser)
  | .create _ i => some i
  | _ => none

/-- The thread works on its record. -/
def ClientPc.live : ClientPc → Bool
  | .unborn | .done => false
  | _ => true

/-- The user is logged in. -/
def ClientPc.online : ClientPc → Bool
  | .running | .loop | .select | .setPlatform | .setFunction | .heartBeat | .stop | .logout => true
  | _ => false

/-- The record has the socket. -/
def ClientPc.connected : ClientPc → Bool
  | .entry | .getSocket | .readPort | .roomPlatform | .roomFunction | .login | .clearSock => true
  | pc => pc.online

/-- The record has the index and the environment. -/
def ClientPc.placed : ClientPc → Bool
  | .close | .clearIndex => true
  | pc => pc.connected

/-- The thread has read its index. -/
def ClientPc.indexed : ClientPc → Bool
  | .unborn | .entry | .done => false
  | _ => true

/-- The thread has read its socket. -/
def ClientPc.bound : ClientPc → Bool
  | .getSocket => false
  | pc => pc.indexed

/-- The record has no platform. -/
def ClientPc.anonymous : ClientPc → Bool
  | .entry | .getSocket | .readPort | .roomPlatform | .removeIndex => true
  | _ => false

/-- The record has a platform, and perhaps no function yet. -/
def ClientPc.naming : ClientPc → Bool
  | .roomFunction | .setFunction => true
  | _ => false

/-- The function has been cleared. -/
def ClientPc.cleared : ClientPc → Bool
  | .clearEnv | .clearPlatform | .removeIndex => true
  | _ => false

/-- The record is stopped and stays so. -/
def ClientPc.stopped : ClientPc → Bool
  | .loop | .select | .setPlatform | .setFunction | .heartBeat | .stop => false
  | _ => true

/-- The record of a user who is not there. -/
structure Quiet (u : ConUser) : Prop where
  loginOk : u.loginOk = false
  platform : u.platform = .invalidPlatform
  forwardProcess : u.forwardProcess = false
  runStatus : u.runStatus = .stoped

/-- The record in a free slot. -/
structure Clean (u : ConUser) : Prop extends Quiet u where
  tcpSock : u.tcpSock = -1

/-- The record that an accept thread fills in. -/
structure AcceptorFits (server : ServerId) (a : Acceptor) (u : ConUser) : Prop extends Quiet u where
  inRange : ∀ i, a.user = some i → i.val < server.maxUserNum
  tcpSock : ∀ fd, a.tcpSock = some fd → u.tcpSock = fd
  pconenv : a.hasEnv → u.pconenv = true
  index : ∀ i, a.index = some i → u.index = i.val

/-- The record of a session. -/
structure ClientFits (c : Client) (u : ConUser) : Prop where
  inRange : c.slot.user.val < c.slot.server.maxUserNum
  loginOk : u.loginOk = c.pc.online
  tcpSock : u.tcpSock = if c.pc.connected then c.sock.fd else -1
  index : c.pc.placed → u.index = c.slot.user.val
  pconenv : c.pc.placed → u.pconenv = true
  userIndex : c.pc.indexed → c.userIndex = c.slot.user.val
  socket : c.pc.bound → c.socket = c.sock.fd
  runStatus : c.pc.stopped → u.runStatus = .stoped
  anonymous : c.pc.anonymous → u.platform = .invalidPlatform
  naming : c.pc.naming → u.platform ≠ .invalidPlatform
  cleared : c.pc.cleared → u.forwardProcess = false
  function : ¬ c.pc.naming → ¬ c.pc.cleared →
    u.forwardProcess = decide (u.platform ≠ .invalidPlatform)

/-- The terms of the table of users. -/
def terms : Lease.Terms Slot Vars ConUser where
  slot
    | .acceptor server a => a.user.map (⟨server, ·⟩)
    | .client c => if c.pc.live then some c.slot else none
    | .listener => none
    | .stray slot sock => if sock.isSome then some slot else none
  Fits
    | .acceptor server a => AcceptorFits server a
    | .client c => ClientFits c
    | .listener => fun _ => True
    | .stray _ _ => Quiet
  Clean := Clean

/-- The process as a table of slots on lease. -/
def State.table (s : State) : Lease.Table Owner Slot Vars ConUser where
  vars
    | .acceptor server => .acceptor server (s.acceptor server)
    | .client k => .client (s.client k)
    | .listener _ => .listener
    | .stray slot => .stray slot (s.stray slot)
  taken := s.conLink
  record := s.user

/-- The invariant of the process. -/
structure State.Sound (s : State) : Prop where
  table : s.table.Sound terms
  unborn : ∀ k, s.born ≤ k → (s.client k).pc = .unborn

/-! ### The table after a step -/

section Table

variable (s : State) (server : ServerId) (a : Acceptor) (k : ℕ) (c : Client) (slot : Slot)

theorem table_setAcceptor : (s.setAcceptor server a).table =
    s.table.setVars (.acceptor server) (.acceptor server a) := by
  rw [State.table, Lease.Table.setVars]
  congr 1
  funext o
  rcases o with server' | k | server' | slot
  · by_cases hs : server' = server
    · subst hs
      simp [State.setAcceptor]
    · simp [State.setAcceptor, State.table, hs]
  all_goals simp [State.setAcceptor, State.table]

theorem table_setClient : (s.setClient k c).table = s.table.setVars (.client k) (.client c) := by
  rw [State.table, Lease.Table.setVars]
  congr 1
  funext o
  rcases o with server | k' | server | slot
  · simp [State.setClient, State.table]
  · by_cases hk : k' = k
    · subst hk
      simp [State.setClient]
    · simp [State.setClient, State.table, hk]
  all_goals simp [State.setClient, State.table]

theorem table_leaveBehind (sock : Sock) : (s.leaveBehind slot sock).table =
    s.table.setVars (.stray slot) (.stray slot (some sock)) := by
  rw [State.table, Lease.Table.setVars]
  congr 1
  funext o
  rcases o with server | k | server | slot'
  case stray =>
    by_cases hs : slot' = slot
    · subst hs
      simp [State.leaveBehind]
    · simp [State.leaveBehind, State.table, hs]
  all_goals simp [State.leaveBehind, State.table]

theorem table_setUser (u : ConUser) : (s.setUser slot u).table = s.table.setRecord slot u := rfl

theorem table_setConLink (b : Bool) : (s.setConLink slot b).table = s.table.setTaken slot b := rfl

@[simp] theorem table_close (fd : ℤ) : (s.close fd).table = s.table := rfl

@[simp] theorem table_connect (fd : ℤ) : (s.connect fd).table = s.table := rfl

theorem table_spawn : (s.spawn c).table = s.table.setVars (.client s.born) (.client c) :=
  table_setClient s s.born c

theorem table_removeConuserIndex : (s.removeConuserIndex slot).table =
    (s.table.setTaken slot false).setRecord slot { s.user slot with tcpSock := -1 } := rfl

end Table

/-! ### The steps of an accept thread -/

section Acceptor

variable {s : State} {server : ServerId} {a : Acceptor}

theorem slot_acceptor (ha : s.acceptor server = a) :
    terms.slot (s.table.vars (.acceptor server)) = a.user.map (⟨server, ·⟩) := by
  rw [← ha]
  rfl

theorem getConuserIndex_eq_some {i : Fin controlMaxUser} (h : s.getConuserIndex server = some i) :
    i.val < server.maxUserNum ∧ s.conLink ⟨server, i⟩ = false := by
  have hi := List.find?_some h
  simpa using hi

theorem State.Sound.acceptorFits (h : s.Sound) (ha : s.acceptor server = a)
    {i : Fin controlMaxUser} (hi : a.user = some i) :
    AcceptorFits server a (s.user ⟨server, i⟩) := by
  have hslot := slot_acceptor ha
  rw [hi] at hslot
  have hfits := h.table.fits hslot
  change terms.Fits (.acceptor server (s.acceptor server)) _ at hfits
  rwa [ha] at hfits

variable {a' : Acceptor} {i : Fin controlMaxUser}

/-- The accept thread writes to the record it fills in. -/
theorem State.Sound.acceptor_write (h : s.Sound) (ha : s.acceptor server = a) (hi : a.user = some i)
    (hi' : a'.user = some i) {u : ConUser}
    (hfits : AcceptorFits server a (s.user ⟨server, i⟩) → AcceptorFits server a' u) :
    ((s.setAcceptor server a').setUser ⟨server, i⟩ u).Sound where
  unborn := h.unborn
  table := by
    rw [table_setUser, table_setAcceptor]
    refine h.table.keep ?_ ?_ (hfits (h.acceptorFits ha hi))
    · rw [slot_acceptor ha, hi]
      rfl
    · change a'.user.map _ = _
      rw [hi']
      rfl

/-- The accept thread goes on with the record it fills in. -/
theorem State.Sound.acceptor_stay (h : s.Sound) (ha : s.acceptor server = a) (hi : a.user = some i)
    (hi' : a'.user = some i)
    (hfits : AcceptorFits server a (s.user ⟨server, i⟩) →
      AcceptorFits server a' (s.user ⟨server, i⟩)) : (s.setAcceptor server a').Sound where
  unborn := h.unborn
  table := by
    rw [table_setAcceptor]
    refine h.table.stay (i := ⟨server, i⟩) ?_ ?_ (hfits (h.acceptorFits ha hi))
    · rw [slot_acceptor ha, hi]
      rfl
    · change a'.user.map _ = _
      rw [hi']
      rfl

/-- The accept thread goes on without a record. -/
theorem State.Sound.acceptor_move (h : s.Sound) (ha : s.acceptor server = a) (hi : a.user = none)
    (hi' : a'.user = none) : (s.setAcceptor server a').Sound where
  unborn := h.unborn
  table := by
    rw [table_setAcceptor]
    refine h.table.move ?_ ?_
    · rw [slot_acceptor ha, hi]
      rfl
    · change a'.user.map _ = _
      rw [hi']
      rfl

/-- The accept thread takes a free slot. -/
theorem State.Sound.acceptor_take (h : s.Sound) (ha : s.acceptor server = a) (hi : a.user = none)
    {sock : Sock} (hfree : s.getConuserIndex server = some i) :
    ((s.setAcceptor server (.setSock sock i)).setConLink ⟨server, i⟩ true).Sound where
  unborn := h.unborn
  table := by
    obtain ⟨hrange, hlink⟩ := getConuserIndex_eq_some hfree
    have hclean : Clean (s.user ⟨server, i⟩) := h.table.clean hlink
    rw [table_setConLink, table_setAcceptor]
    refine h.table.take ?_ hlink rfl ?_
    · rw [slot_acceptor ha, hi]
      rfl
    · refine ⟨hclean.toQuiet, ?_, ?_, fun hf => absurd hf Bool.false_ne_true, ?_⟩
      · rintro j ⟨⟩
        exact hrange
      · rintro fd ⟨⟩
        exact hclean.tcpSock
      · rintro j ⟨⟩

/-- The accept thread gives a slot back. -/
theorem State.Sound.acceptor_give (h : s.Sound) (ha : s.acceptor server = .failRemove i) :
    ((s.setAcceptor server .idle).removeConuserIndex ⟨server, i⟩).Sound where
  unborn := h.unborn
  table := by
    have hfits := h.acceptorFits ha rfl
    rw [table_removeConuserIndex, table_setAcceptor]
    refine h.table.give (slot_acceptor ha) rfl ⟨?_, rfl⟩
    exact ⟨hfits.loginOk, hfits.platform, hfits.forwardProcess, hfits.runStatus⟩

/-- The accept thread passes a slot on to the thread that it has started. -/
theorem State.Sound.acceptor_pass (h : s.Sound) {sock : Sock} (ha : s.acceptor server = .create sock i)
    (hi' : a'.user = none) :
    ((s.setAcceptor server a').spawn (.start .entry ⟨server, i⟩ sock)).Sound where
  unborn k hk := by
    replace hk : s.born + 1 ≤ k := hk
    have hne : k ≠ s.born := by omega
    change (Function.update s.client s.born _ k).pc = .unborn
    rw [Function.update_of_ne hne]
    exact h.unborn k (Nat.le_of_succ_le hk)
  table := by
    have hfits := h.acceptorFits ha rfl
    have hunborn : (s.client s.born).pc = .unborn := h.unborn _ le_rfl
    rw [table_spawn, table_setAcceptor]
    refine h.table.pass (i := ⟨server, i⟩) (by simp) (slot_acceptor ha) ?_ ?_ rfl ?_
    · change (if (s.client s.born).pc.live then _ else none) = none
      rw [hunborn]
      rfl
    · change a'.user.map _ = _
      rw [hi']
      rfl
    · change ClientFits (.start .entry ⟨server, i⟩ sock) (s.user ⟨server, i⟩)
      exact {
        inRange := hfits.inRange i rfl
        loginOk := hfits.loginOk
        tcpSock := hfits.tcpSock _ rfl
        index := fun _ => hfits.index _ rfl
        pconenv := fun _ => hfits.pconenv rfl
        userIndex := fun h => absurd h Bool.false_ne_true
        socket := fun h => absurd h Bool.false_ne_true
        runStatus := fun _ => hfits.runStatus
        anonymous := fun _ => hfits.platform
        naming := fun h => absurd h Bool.false_ne_true
        cleared := fun h => absurd h Bool.false_ne_true
        function := fun _ _ => by rw [hfits.forwardProcess, hfits.platform]; rfl }

/-- A slot that is in the hands of an accept thread has not been left behind. -/
theorem State.Sound.stray_eq_none (h : s.Sound) (ha : s.acceptor server = a) (hi : a.user = some i) :
    s.stray ⟨server, i⟩ = none := by
  by_contra hne
  have hstray : terms.slot (s.table.vars (.stray ⟨server, i⟩)) = some ⟨server, i⟩ :=
    if_pos (Option.isSome_iff_ne_none.mpr hne)
  have hslot := slot_acceptor ha
  rw [hi] at hslot
  cases h.table.unique hstray hslot

/-- The accept thread leaves a slot behind. -/
theorem State.Sound.acceptor_leaveBehind (h : s.Sound) {sock : Sock}
    (ha : s.acceptor server = .create sock i) (hi' : a'.user = none) :
    ((s.setAcceptor server a').leaveBehind ⟨server, i⟩ sock).Sound where
  unborn := h.unborn
  table := by
    have hstray : s.stray ⟨server, i⟩ = none := h.stray_eq_none ha rfl
    rw [table_leaveBehind, table_setAcceptor]
    refine h.table.pass (i := ⟨server, i⟩) (by simp) (slot_acceptor ha) ?_ ?_ rfl ?_
    · change (if (s.stray ⟨server, i⟩).isSome then _ else none) = none
      rw [hstray]
      rfl
    · change a'.user.map _ = _
      rw [hi']
      rfl
    · exact (h.acceptorFits ha rfl).toQuiet

end Acceptor

/-! ### The steps of a session -/

section Client

variable {s : State} {k : ℕ} {c c' : Client} {u : ConUser}

theorem slot_client (hlive : (s.client k).pc.live = true) :
    terms.slot (s.table.vars (.client k)) = some (s.client k).slot := by
  change (if (s.client k).pc.live then some (s.client k).slot else none) = _
  rw [hlive]
  rfl

theorem State.Sound.clientFits (h : s.Sound) (hlive : (s.client k).pc.live = true) :
    ClientFits (s.client k) (s.user (s.client k).slot) :=
  h.table.fits (slot_client hlive)

/-- A thread that has not been started takes no step. -/
theorem State.Sound.lt_born (h : s.Sound) (hlive : (s.client k).pc.live = true) : k < s.born := by
  by_contra hle
  rw [h.unborn k (Nat.le_of_not_lt hle)] at hlive
  cases hlive

theorem State.Sound.unborn_setClient (h : s.Sound) (hlive : (s.client k).pc.live = true) :
    ∀ k', (s.setClient k c').born ≤ k' → ((s.setClient k c').client k').pc = .unborn := by
  intro k' hk'
  have hne : k' ≠ k := by
    rintro rfl
    exact absurd (h.lt_born hlive) (Nat.not_lt.mpr hk')
  change (Function.update s.client k c' k').pc = .unborn
  rw [Function.update_of_ne hne]
  exact h.unborn k' hk'

/-- A session writes to its record. -/
theorem State.Sound.client_write (h : s.Sound) (hlive : (s.client k).pc.live = true)
    (hlive' : c'.pc.live = true) (hslot : c'.slot = (s.client k).slot)
    (hfits : ClientFits (s.client k) (s.user (s.client k).slot) → ClientFits c' u) :
    ((s.setClient k c').setUser (s.client k).slot u).Sound where
  unborn := h.unborn_setClient hlive
  table := by
    rw [table_setUser, table_setClient]
    refine h.table.keep (slot_client hlive) ?_ (hfits (h.clientFits hlive))
    change (if c'.pc.live then some c'.slot else none) = _
    rw [hlive', hslot]
    rfl

/-- A session goes on without a change to its record. -/
theorem State.Sound.client_stay (h : s.Sound) (hlive : (s.client k).pc.live = true)
    (hlive' : c'.pc.live = true) (hslot : c'.slot = (s.client k).slot)
    (hfits : ClientFits (s.client k) (s.user (s.client k).slot) →
      ClientFits c' (s.user (s.client k).slot)) : (s.setClient k c').Sound where
  unborn := h.unborn_setClient hlive
  table := by
    rw [table_setClient]
    refine h.table.stay (slot_client hlive) ?_ (hfits (h.clientFits hlive))
    change (if c'.pc.live then some c'.slot else none) = _
    rw [hlive', hslot]
    rfl

/-- A session gives its slot back. -/
theorem State.Sound.client_give (h : s.Sound) (hpc : (s.client k).pc = .removeIndex) :
    ((s.goto k .done).removeConuserIndex (s.client k).slot).Sound where
  unborn := h.unborn_setClient (by rw [hpc]; rfl)
  table := by
    have hlive : (s.client k).pc.live = true := by rw [hpc]; rfl
    have hfits := h.clientFits hlive
    have hcleared : (s.client k).pc.cleared = true := by rw [hpc]; rfl
    rw [table_removeConuserIndex, State.goto, table_setClient]
    refine h.table.give (slot_client hlive) rfl ⟨⟨?_, ?_, ?_, ?_⟩, rfl⟩
    · exact hfits.loginOk.trans (by rw [hpc]; rfl)
    · exact hfits.anonymous (by rw [hpc]; rfl)
    · exact hfits.cleared hcleared
    · exact hfits.runStatus (by rw [hpc]; rfl)

/-- The index that a session has read is the one of its record. -/
theorem ClientFits.indexed (h : ClientFits c u) (hpc : c.pc.indexed = true) :
    c.indexed = some c.slot := by
  have hindex := h.userIndex hpc
  have hlt : c.slot.user.val < controlMaxUser := c.slot.user.isLt
  rw [Client.indexed, dif_pos ⟨by omega, by omega⟩]
  congr 1
  cases hs : c.slot with
  | mk server user =>
    rw [hs] at hindex
    simp [hindex]

end Client

section Steps

attribute [local simp] ClientPc.live ClientPc.online ClientPc.connected ClientPc.placed
  ClientPc.indexed ClientPc.bound ClientPc.anonymous ClientPc.naming ClientPc.cleared
  ClientPc.stopped

/-- A session at `pc` may go on at `pc'` with the record as it is. -/
structure ClientPc.Leads (pc pc' : ClientPc) : Prop where
  online : pc'.online = pc.online
  connected : pc'.connected = pc.connected
  placed : pc'.placed → pc.placed
  indexed : pc'.indexed → pc.indexed
  bound : pc'.bound → pc.bound
  stopped : pc'.stopped → pc.stopped
  anonymous : pc'.anonymous → pc.anonymous
  naming : pc'.naming → pc.naming
  cleared : pc'.cleared → pc.cleared
  function : ¬ pc'.naming → ¬ pc'.cleared → ¬ pc.naming ∧ ¬ pc.cleared

variable {s : State} {k : ℕ} {c : Client} {u : ConUser}

theorem ClientFits.goto (h : ClientFits c u) {pc : ClientPc} (hpc : c.pc.Leads pc) :
    ClientFits { c with pc := pc } u where
  inRange := h.inRange
  loginOk := h.loginOk.trans hpc.online.symm
  tcpSock := by
    rw [h.tcpSock, hpc.connected]
  index hpl := h.index (hpc.placed hpl)
  pconenv hpl := h.pconenv (hpc.placed hpl)
  userIndex hin := h.userIndex (hpc.indexed hin)
  socket hb := h.socket (hpc.bound hb)
  runStatus hst := h.runStatus (hpc.stopped hst)
  anonymous ha := h.anonymous (hpc.anonymous ha)
  naming hn := h.naming (hpc.naming hn)
  cleared hc := h.cleared (hpc.cleared hc)
  function hn hc := h.function (hpc.function hn hc).1 (hpc.function hn hc).2

theorem ClientFits.heartBeat (h : ClientFits c u) (b : Bool) :
    ClientFits c { u with heartBeat := b } :=
  ⟨h.1, h.2, h.3, h.4, h.5, h.6, h.7, h.8, h.9, h.10, h.11, h.12⟩

theorem ClientFits.port (h : ClientFits c u) (port : ℕ) : ClientFits c { u with port := port } :=
  ⟨h.1, h.2, h.3, h.4, h.5, h.6, h.7, h.8, h.9, h.10, h.11, h.12⟩

theorem ClientFits.stop (h : ClientFits c u) : ClientFits c { u with runStatus := .stoped } :=
  ⟨h.1, h.2, h.3, h.4, h.5, h.6, h.7, fun _ => rfl, h.9, h.10, h.11, h.12⟩

theorem AcceptorFits.port {server : ServerId} {a : Acceptor} (h : AcceptorFits server a u)
    (port : ℕ) : AcceptorFits server a { u with port := port } :=
  ⟨⟨h.1.1, h.1.2, h.1.3, h.1.4⟩, h.2, h.3, h.4, h.5⟩

theorem AcceptorFits.stop {server : ServerId} {a : Acceptor} (h : AcceptorFits server a u) :
    AcceptorFits server a { u with runStatus := .stoped } :=
  ⟨⟨h.1.1, h.1.2, h.1.3, rfl⟩, h.2, h.3, h.4, h.5⟩

/-- An accept thread gives up a record with whatever it has written. -/
theorem AcceptorFits.fail {server : ServerId} {a : Acceptor} {sock : Sock}
    {i : Fin controlMaxUser} (h : AcceptorFits server a u) {a' : Acceptor} (ha : a.user = some i)
    (ha' : a' = .failClose sock i ∨ a' = .failClear i) : AcceptorFits server a' u where
  toQuiet := h.toQuiet
  inRange j hj := by
    refine h.inRange j ?_
    rw [ha, ← hj]
    rcases ha' with rfl | rfl <;> rfl
  tcpSock fd hfd := by
    rcases ha' with rfl | rfl <;> cases hfd
  pconenv he := by
    rcases ha' with rfl | rfl <;> cases he
  index j hj := by
    rcases ha' with rfl | rfl <;> cases hj

/-- Somebody else writes to a record what neither its holder nor the next one minds. -/
theorem State.Sound.outside (h : s.Sound) {slot : Slot}
    (hclient : ∀ c, ClientFits c (s.user slot) → ClientFits c u)
    (hacceptor : ∀ server a, AcceptorFits server a (s.user slot) → AcceptorFits server a u)
    (hquiet : Quiet (s.user slot) → Quiet u) (htcpSock : u.tcpSock = (s.user slot).tcpSock) :
    (s.setUser slot u).Sound where
  unborn := h.unborn
  table := by
    rw [table_setUser]
    refine h.table.outside (fun l _ hfits => ?_) fun hclean =>
      ⟨hquiet hclean.toQuiet, htcpSock.trans hclean.tcpSock⟩
    rcases l with ⟨server, a⟩ | c | _ | ⟨slot, sock⟩
    · exact hacceptor server a hfits
    · exact hclient c hfits
    · exact hfits
    · exact hquiet hfits

theorem State.Sound.client_goto (h : s.Sound) {pc : ClientPc} (hlive : (s.client k).pc.live = true)
    (hlive' : pc.live = true) (hpc : (s.client k).pc.Leads pc) : (s.goto k pc).Sound :=
  h.client_stay hlive hlive' rfl fun hfits => hfits.goto hpc

theorem State.Sound.controlUserProcess (h : s.Sound) (k : ℕ) :
    (controlUserProcess s k).1.Sound := by
  have hfits : (s.client k).pc.live = true → _ := h.clientFits (k := k)
  rw [Sessions.controlUserProcess]
  rcases hpc : (s.client k).pc <;> dsimp only
  case unborn => exact h
  case select => exact h
  case done => exact h
  case entry =>
    have henv := (hfits (by rw [hpc]; rfl)).pconenv (by rw [hpc]; rfl)
    have hindex := (hfits (by rw [hpc]; rfl)).index (by rw [hpc]; rfl)
    have hrange := (hfits (by rw [hpc]; rfl)).inRange
    rw [if_neg (by rw [henv, hindex]; simp; omega)]
    refine h.client_stay (by rw [hpc]; rfl) rfl rfl fun hc => ?_
    cases hc
    constructor <;> simp_all
  case getSocket =>
    refine h.client_stay (by rw [hpc]; rfl) rfl rfl fun hc => ?_
    cases hc
    constructor <;> simp_all
  case readPort =>
    split
    · exact h.client_goto (by rw [hpc]; rfl) rfl (by rw [hpc]; constructor <;> decide)
    · exact h.client_goto (by rw [hpc]; rfl) rfl (by rw [hpc]; constructor <;> decide)
  case loop =>
    split
    · exact h.client_goto (by rw [hpc]; rfl) rfl (by rw [hpc]; constructor <;> decide)
    · exact h.client_goto (by rw [hpc]; rfl) rfl (by rw [hpc]; constructor <;> decide)
  case heartBeat =>
    split
    · refine h.client_write (by rw [hpc]; rfl) rfl rfl fun hc => (hc.goto ?_).heartBeat true
      rw [hpc]
      constructor <;> decide
    · exact h.client_goto (by rw [hpc]; rfl) rfl (by rw [hpc]; constructor <;> decide)
  case close =>
    have hstay : (s.goto k .clearIndex).Sound :=
      h.client_goto (by rw [hpc]; rfl) rfl (by rw [hpc]; constructor <;> decide)
    exact ⟨hstay.table, hstay.unborn⟩
  case setPlatform =>
    split
    · exact h.client_goto (by rw [hpc]; rfl) rfl (by rw [hpc]; constructor <;> decide)
    · refine h.client_write (by rw [hpc]; rfl) rfl rfl fun hc => ?_
      cases hc
      constructor <;> simp_all
  case removeIndex =>
    rw [(hfits (by rw [hpc]; rfl)).indexed (by rw [hpc]; rfl)]
    exact h.client_give hpc
  case login =>
    rw [(hfits (by rw [hpc]; rfl)).indexed (by rw [hpc]; rfl)]
    refine h.client_write (by rw [hpc]; rfl) rfl rfl fun hc => ?_
    cases hc
    constructor <;> simp_all
  case logout =>
    rw [(hfits (by rw [hpc]; rfl)).indexed (by rw [hpc]; rfl)]
    refine h.client_write (by rw [hpc]; rfl) rfl rfl fun hc => ?_
    cases hc
    constructor <;> simp_all
  -- the lines that write one field of the record
  all_goals
    refine h.client_write (by rw [hpc]; rfl) rfl rfl fun hc => ?_
    cases hc
    constructor <;> simp_all

theorem State.Sound.selectReturns (h : s.Sound) (k : ℕ) (event : Event) :
    (selectReturns s k event).1.Sound := by
  unfold Sessions.selectReturns
  dsimp only
  by_cases hpc : (s.client k).pc = .select
  · have hlive : (s.client k).pc.live = true := by rw [hpc]; rfl
    have hstop : (s.goto k .stop).Sound :=
      h.client_goto hlive rfl (by rw [hpc]; constructor <;> decide)
    have hloop : (s.goto k .loop).Sound :=
      h.client_goto hlive rfl (by rw [hpc]; constructor <;> decide)
    have hbeat : (s.goto k .heartBeat).Sound :=
      h.client_goto hlive rfl (by rw [hpc]; constructor <;> decide)
    rw [if_pos hpc]
    rcases event with _ | _ | _ | _ | ⟨platform, retCode, ftpModeMediacenter⟩ <;> dsimp only
    · split_ifs
      · exact hstop
      · refine h.client_write hlive rfl rfl fun hc => (hc.goto ?_).heartBeat false
        rw [hpc]
        constructor <;> decide
      · exact hloop
    · exact hstop
    · exact hloop
    · exact hbeat
    · split_ifs
      · exact hstop
      · refine h.client_stay hlive rfl rfl fun hc => ?_
        cases hc
        constructor <;> simp_all
      · exact h.client_stay hlive rfl rfl fun hc => by
          cases hc
          constructor <;> simp_all
      · exact hbeat
  · rw [if_neg hpc]
    exact h

theorem State.Sound.controlServerThr (h : s.Sound) (server : ServerId) :
    (controlServerThr s server).1.Sound := by
  rw [Sessions.controlServerThr]
  rcases ha : s.acceptor server <;> dsimp only
  case idle => split <;> exact h.acceptor_move ha rfl rfl
  case ready => split <;> exact h.acceptor_move ha rfl rfl
  case accept => exact h.acceptor_move ha rfl rfl
  case getIndex sock =>
    rcases hi : s.getConuserIndex server with _ | i <;> dsimp only
    · exact h.acceptor_move ha rfl rfl
    · exact h.acceptor_take ha rfl hi
  case refuse sock =>
    have hmove : (s.setAcceptor server .idle).Sound := h.acceptor_move ha rfl rfl
    exact ⟨hmove.table, hmove.unborn⟩
  case setSock sock i =>
    refine h.acceptor_write ha rfl rfl fun hf => ⟨⟨hf.1.1, hf.1.2, hf.1.3, hf.1.4⟩, hf.2, ?_, ?_, ?_⟩
    · rintro fd ⟨⟩
      rfl
    · exact fun he => absurd he Bool.false_ne_true
    · rintro j ⟨⟩
  case setEnv sock i =>
    refine h.acceptor_write ha rfl rfl fun hf => ⟨⟨hf.1.1, hf.1.2, hf.1.3, hf.1.4⟩, hf.2, hf.3, ?_, ?_⟩
    · exact fun _ => rfl
    · rintro j ⟨⟩
  case setIndex sock i =>
    refine h.acceptor_write ha rfl rfl fun hf => ⟨⟨hf.1.1, hf.1.2, hf.1.3, hf.1.4⟩, hf.2, hf.3, hf.4, ?_⟩
    rintro j ⟨⟩
    rfl
  case create sock i => exact h
  case failClose sock i =>
    have hfail : Acceptor.failClear i = .failClose sock i ∨ Acceptor.failClear i = .failClear i :=
      .inr rfl
    have hstay : (s.setAcceptor server (.failClear i)).Sound :=
      h.acceptor_stay ha rfl rfl fun hf => hf.fail rfl hfail
    exact ⟨hstay.table, hstay.unborn⟩
  case failClear i =>
    refine h.acceptor_write ha rfl rfl fun hf => ⟨⟨hf.1.1, hf.1.2, hf.1.3, hf.1.4⟩, hf.2, ?_, ?_, ?_⟩
    · rintro fd ⟨⟩
      rfl
    · exact fun he => absurd he Bool.false_ne_true
    · rintro j ⟨⟩
  case failRemove i => exact h.acceptor_give ha
  case setPort i =>
    have hmove : (s.setAcceptor server .idle).Sound := h.acceptor_move ha rfl rfl
    exact hmove.outside (fun _ hf => hf.port _) (fun _ _ hf => hf.port _)
      (fun hq => ⟨hq.1, hq.2, hq.3, hq.4⟩) rfl
  case setSocket sock =>
    have hmove : (s.setAcceptor server .bind).Sound := h.acceptor_move ha rfl rfl
    exact ⟨hmove.table, hmove.unborn⟩
  case leave =>
    have hmove : (s.setAcceptor server .clearSocket).Sound := h.acceptor_move ha rfl rfl
    rcases s.listener server with _ | sock
    · exact hmove
    · exact ⟨hmove.table, hmove.unborn⟩
  case clearSocket =>
    have hmove : (s.setAcceptor server .setStoped).Sound := h.acceptor_move ha rfl rfl
    exact ⟨hmove.table, hmove.unborn⟩
  case setStoped =>
    have hmove : (s.setAcceptor server .exited).Sound := h.acceptor_move ha rfl rfl
    exact ⟨hmove.table, hmove.unborn⟩
  case start => exact h
  case bind => exact h
  case exited => exact h

theorem State.Sound.socketReturns (h : s.Sound) (server : ServerId) (fd : ℤ) :
    (socketReturns s server fd).1.Sound := by
  rw [Sessions.socketReturns]
  have hopen : ((s.connect fd).setListener server (some ⟨fd, s.made⟩)).Sound := ⟨h.table, h.unborn⟩
  rcases ha : s.acceptor server <;> dsimp only
  case start =>
    split_ifs
    · exact h.acceptor_move ha rfl rfl
    · exact hopen.acceptor_move ha rfl rfl
    · exact h
  all_goals exact h

theorem State.Sound.listenReturns (h : s.Sound) (server : ServerId) (ok : Bool) :
    (listenReturns s server ok).1.Sound := by
  rw [Sessions.listenReturns]
  rcases ha : s.acceptor server <;> dsimp only
  case bind =>
    split_ifs
    · exact h.acceptor_move ha rfl rfl
    · exact h.acceptor_move ha rfl rfl
  all_goals exact h

theorem State.Sound.acceptReturns (h : s.Sound) (server : ServerId) (fd : ℤ) :
    (acceptReturns s server fd).1.Sound := by
  rw [Sessions.acceptReturns]
  have hconnect : (s.connect fd).Sound := ⟨h.table, h.unborn⟩
  rcases ha : s.acceptor server <;> dsimp only
  case accept =>
    split_ifs
    · exact hconnect.acceptor_move ha rfl rfl
    · exact hconnect.acceptor_move ha rfl rfl
    · exact h
  all_goals exact h

theorem State.Sound.createReturns (h : s.Sound) (server : ServerId) (result : ℤ) :
    (createReturns s server result).1.Sound := by
  rw [Sessions.createReturns]
  rcases ha : s.acceptor server <;> dsimp only
  case create sock i =>
    split_ifs
    · exact h.acceptor_stay ha rfl rfl fun hf => hf.fail rfl (.inl rfl)
    · exact h.acceptor_pass ha rfl
    · exact h.acceptor_leaveBehind ha rfl
  all_goals exact h

theorem State.Sound.step (h : s.Sound) (a : Act) : (step s a).1.Sound := by
  cases a with
  | listen server fd => exact h.socketReturns server fd
  | bound server ok => exact h.listenReturns server ok
  | serve server => exact h.controlServerThr server
  | accept server fd => exact h.acceptReturns server fd
  | create server result => exact h.createReturns server result
  | client k => exact h.controlUserProcess k
  | select k event => exact h.selectReturns k event
  | setRunStatus server status => exact ⟨h.table, h.unborn⟩
  | stopUser slot =>
    exact h.outside (fun _ hf => hf.stop) (fun _ _ hf => hf.stop) (fun hq => ⟨hq.1, hq.2, hq.3, rfl⟩) rfl
  | fetchUser slot => exact ⟨h.table, h.unborn⟩
  | fetchServer server => exact ⟨h.table, h.unborn⟩
  | closeFetched fd =>
    change State.Sound (if _ then _ else _ : State × Option Descriptors.Closed).1
    split_ifs
    · exact ⟨h.table, h.unborn⟩
    · exact h

theorem sound_initial (maxRoom : ℕ) : (initial maxRoom).Sound where
  unborn _ _ := rfl
  table := by
    have hnone : ∀ o, terms.slot ((initial maxRoom).table.vars o) = none := by
      intro o
      rcases o with (_ | room) | k | server | slot
      case acceptor.roomser =>
        change ((if room.val < maxRoom then Acceptor.start else .exited).user).map _ = none
        split <;> rfl
      all_goals rfl
    refine ⟨fun {o _ _} ho => ?_, fun i => ?_, fun {o _} ho => ?_, fun _ => ?_⟩
    · rw [hnone] at ho
      cases ho
    · refine iff_of_false Bool.false_ne_true ?_
      rintro ⟨o, ho⟩
      rw [hnone] at ho
      cases ho
    · rw [hnone] at ho
      cases ho
    · exact ⟨⟨rfl, rfl, rfl, rfl⟩, rfl⟩

/-- The invariant holds after every run. -/
theorem sound_run (maxRoom : ℕ) (acts : List Act) :
    (Run.final Sessions.step (initial maxRoom) acts).Sound :=
  Run.final_invariant (I := State.Sound) (fun _ h a _ => h.step a) (sound_initial maxRoom)

/-- The slot that a thread works on. -/
def State.slotOf (s : State) (o : Thread) : Option Slot := terms.slot (s.table.vars o.owner)

/-- Only a positive result of `pthread_create` leaves a slot behind. -/
theorem stray_step {s : State} {a : Act} {slot : Slot}
    (ha : ∀ result, a = .create slot.server result → result ≤ 0) :
    (Sessions.step s a).1.stray slot = s.stray slot := by
  cases a with
  | listen server fd =>
    change (Sessions.socketReturns s server fd).1.stray slot = _
    rw [Sessions.socketReturns]
    split
    · split_ifs <;> rfl
    · rfl
  | bound server ok =>
    change (Sessions.listenReturns s server ok).1.stray slot = _
    rw [Sessions.listenReturns]
    split <;> rfl
  | serve server =>
    change (Sessions.controlServerThr s server).1.stray slot = _
    rw [Sessions.controlServerThr]
    split <;> (try split) <;> rfl
  | accept server fd =>
    change (Sessions.acceptReturns s server fd).1.stray slot = _
    rw [Sessions.acceptReturns]
    split
    · split_ifs <;> rfl
    · rfl
  | create server result =>
    change (Sessions.createReturns s server result).1.stray slot = _
    rw [Sessions.createReturns]
    split
    · split_ifs with hneg hzero
      · rfl
      · rfl
      · -- the slot is one of this server only if the result is positive
        refine Function.update_of_ne (fun heq => ?_) ..
        subst heq
        exact absurd (ha result rfl) (by omega)
    · rfl
  | client k =>
    change (Sessions.controlUserProcess s k).1.stray slot = _
    rw [Sessions.controlUserProcess]
    dsimp only
    split <;> (try split) <;> rfl
  | select k event =>
    change (Sessions.selectReturns s k event).1.stray slot = _
    unfold Sessions.selectReturns
    dsimp only
    split
    · rcases event with _ | _ | _ | _ | ⟨platform, retCode, ftpModeMediacenter⟩ <;> dsimp only
      · split_ifs <;> rfl
      · rfl
      · rfl
      · rfl
      · split_ifs <;> rfl
    · rfl
  | closeFetched fd =>
    change State.stray (if _ then _ else _ : State × Option Descriptors.Closed).1 slot = _
    split_ifs <;> rfl
  | setRunStatus server status => rfl
  | stopUser slot => rfl
  | fetchUser slot => rfl
  | fetchServer server => rfl

/-- **A slot that is left behind has had a positive result** of `pthread_create`. -/
theorem exists_create_of_stray (maxRoom : ℕ) {acts : List Act} {slot : Slot}
    (h : ((Run.final Sessions.step (initial maxRoom) acts).stray slot).isSome) :
    ∃ result, Act.create slot.server result ∈ acts ∧ 0 < result := by
  by_contra hnone
  have hall : (Run.final Sessions.step (initial maxRoom) acts).stray slot = none :=
    Run.final_invariant (I := fun s : State => s.stray slot = none)
      (fun _ hs a ha => (stray_step fun result heq =>
        not_lt.mp fun hpos => hnone ⟨result, heq ▸ ha, hpos⟩).trans hs) rfl
  rw [hall] at h
  cases h

/-- After every run, a slot that is marked is worked on by one thread, or by none when `pthread_create` has
failed with a positive number and left it behind, and a slot that is not is worked on by none and has the
record of a user who is not there. -/
theorem slots_exclusive (maxRoom : ℕ) (acts : List Act) (slot : Slot) :
    let s := Run.final Sessions.step (initial maxRoom) acts
    if s.conLink slot then
      if (s.stray slot).isSome then
        (∀ o, s.slotOf o ≠ some slot) ∧ ∃ result, Act.create slot.server result ∈ acts ∧ 0 < result
      else ∃! o, s.slotOf o = some slot
    else (∀ o, s.slotOf o ≠ some slot) ∧ Clean (s.user slot) := by
  intro s
  have h : s.table.Sound terms := (sound_run maxRoom acts).table
  have hstray : (s.stray slot).isSome → terms.slot (s.table.vars (.stray slot)) = some slot :=
    fun hsome => if_pos hsome
  split
  · next htaken =>
    split
    · next hsome =>
      refine ⟨fun o ho => ?_, exists_create_of_stray maxRoom hsome⟩
      have howner := h.unique ho (hstray hsome)
      rcases o with server | k <;> cases howner
    · next hnone =>
      obtain ⟨o, ho⟩ := (h.taken_iff slot).mp htaken
      rcases o with server | k | server | slot'
      · exact ⟨.acceptor server, ho, fun o' ho' => Thread.owner_injective (h.unique ho' ho)⟩
      · exact ⟨.client k, ho, fun o' ho' => Thread.owner_injective (h.unique ho' ho)⟩
      · cases ho
      · -- a slot that has been left behind is its own
        change (if (s.stray slot').isSome then some slot' else none) = some slot at ho
        split at ho
        · next hsome =>
          obtain rfl := Option.some.inj ho
          exact absurd hsome hnone
        · cases ho
  · next hfree =>
    have hfree : s.conLink slot = false := Bool.eq_false_iff.mpr hfree
    exact ⟨fun o => h.not_slot hfree, h.clean hfree⟩

end Steps

end Sessions

end Control

end ReachEdukit
