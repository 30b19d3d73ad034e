import ReachEdukit.Lib.Run
import ReachEdukit.Output.Client

/-!
# The sessions of the RTSP server

The RTSP server asks for a client for each session. Sessions that send their video to one address share
a client, and `usenum` is how many of them there are; the last one that is closed gives the client
back. The list of the open sessions is not in the code: it is kept here beside the clients, and a
session is closed by its place in it, so that none is closed twice.

## What is left out

The table `client` of the RTSP server, which only `app_rtsp_server_delete` reads, `ttl` and `tos` of the
sockets, the traffic control, and the mutex.

## Main definitions

* `streamCreateRtspClient`, `streamCloseRtspClient` — a session gets a client, and gives it back
* `RtspServer.Right` — what the clients say about the sessions

## Main results

* `RtspServer.Sound.create`, `RtspServer.Sound.close` — the steps
* `sessions_right` — after every operation the clients are right about the sessions
-/

namespace ReachEdukit

namespace Output

/-- `stream_client_set_mnum`. -/
def streamClientSetMnum (i : ClientSlot) (num : ℤ) (s : StreamClients) : StreamClients :=
  s.put i { s.client i with
    usenum := if num ≥ 0 then (s.client i).usenum + 1 else (s.client i).usenum - 1 }

/-- `steram_client_get_mnum`. -/
def steramClientGetMnum (i : ClientSlot) (s : StreamClients) : ℤ := (s.client i).usenum

/-- `stream_create_rtsp_client`: the handle that it gives, `none` for `NULL`. -/
def streamCreateRtspClient (videoAddr audioAddr : SockaddrIn) (channel : ℤ) (env : OpenEnv)
    (s : StreamClients) : Option (StreamClients × Option ClientSlot) :=
  match streamClientIsRepeat videoAddr s with
  | some i => some (streamClientSetMnum i 1 s, some i)
  | none =>
    match streamClientGetFree s with
    | none => some (s, none)
    | some i =>
      (streamClientOpen videoAddr audioAddr typeRtp i channel env s).map fun r => (r.1, some i)

/-- `stream_close_rtsp_client`. -/
def streamCloseRtspClient (p : Option ClientSlot) (s : StreamClients) :
    Option (StreamClients × ℤ) :=
  match p with
  | none => some (s, -1)
  | some i =>
    let s := streamClientSetMnum i (-1) s
    if steramClientGetMnum i s ≤ 0 then
      (streamClientClose (some i) s).map fun s => (s, 0)
    else some (s, 0)

/-- A session that is open: its handle, and what it asked for. -/
structure RtspSession where
  slot : ClientSlot
  videoAddr : SockaddrIn
  channel : ℤ
  deriving DecidableEq, Repr

/-- The clients, and the sessions that are open. -/
structure RtspServer where
  clients : StreamClients
  sessions : List RtspSession

/-- After `stream_client_init`. -/
def RtspServer.init : RtspServer := ⟨.init, []⟩

/-- The operations: a session is opened, or the open session at a place of the list is closed. -/
inductive RtspOp
  | create (videoAddr audioAddr : SockaddrIn) (channel : ℤ) (env : OpenEnv)
  | close (k : ℕ)
  deriving Repr

/-- The session that a handle opens. -/
def RtspServer.opened (clients : StreamClients) (sessions : List RtspSession)
    (videoAddr : SockaddrIn) (channel : ℤ) (handle : Option ClientSlot) : RtspServer :=
  ⟨clients, sessions ++ (handle.map fun i => ⟨i, videoAddr, channel⟩).toList⟩

/-- One operation. -/
def rtspStep (t : RtspServer) (op : RtspOp) : Option RtspServer :=
  match op with
  | .create videoAddr audioAddr channel env =>
    (streamCreateRtspClient videoAddr audioAddr channel env t.clients).map fun r =>
      .opened r.1 t.sessions videoAddr channel r.2
  | .close k =>
    match t.sessions[k]? with
    | none => some t
    | some session =>
      (streamCloseRtspClient (some session.slot) t.clients).map fun r =>
        ⟨r.1, t.sessions.eraseIdx k⟩

/-- The sockets open, the channel is one of the four, and it is the one of the sessions that send
their video to the same address. -/
def RtspOp.Proper (t : RtspServer) (op : RtspOp) : Prop :=
  match op with
  | .create videoAddr _ channel env => env.Opens ∧ HasCounters channel ∧
      ∀ session ∈ t.sessions, session.videoAddr = videoAddr → session.channel = channel
  | .close _ => True

instance decidableRtspProper (t : RtspServer) : (op : RtspOp) → Decidable (op.Proper t)
  | .create _ _ _ _ => inferInstanceAs (Decidable (_ ∧ _ ∧ _))
  | .close _ => .isTrue trivial

/-- How many of the sessions hold a client. -/
def holders (i : ClientSlot) (sessions : List RtspSession) : ℕ :=
  sessions.countP fun session => session.slot = i

/-- The sessions share the clients by the address of the video. -/
structure RtspServer.Shared (t : RtspServer) : Prop where
  /-- `usenum` is the number of sessions that hold the client. -/
  usenum : ∀ i, (t.clients.client i).usenum = holders i t.sessions
  /-- A client is in use while a session holds it. -/
  used : ∀ i, (t.clients.client i).cUsed = true ↔ 0 < holders i t.sessions
  /-- No address has two clients. -/
  distinct : ∀ i j, (t.clients.client i).cUsed = true → (t.clients.client j).cUsed = true →
    (t.clients.client i).videoAddr = (t.clients.client j).videoAddr → i = j
  /-- The session has the address and the channel that it asked for. -/
  session : ∀ session ∈ t.sessions,
    (t.clients.client session.slot).videoAddr = session.videoAddr ∧
      (t.clients.client session.slot).streamChannel = session.channel

/-- The clients are right about the sessions. -/
structure RtspServer.Right (t : RtspServer) : Prop extends t.Shared where
  /-- The counter of RTP is the number of the clients in use of the channel. -/
  active : ∀ c, t.clients.active .directRtp c = Slots.count
    (fun client => client.cUsed && client.streamChannel = (c.val : ℤ)) t.clients.client

/-- What the operations keep. -/
structure RtspServer.Sound (t : RtspServer) : Prop extends t.Shared where
  counted : t.clients.Counted
  rtp : ∀ i, (t.clients.client i).cUsed = true → (t.clients.client i).type = typeRtp
  channel : ∀ session ∈ t.sessions, HasCounters session.channel

variable {t : RtspServer} {i : ClientSlot}

/-- All clients in use get RTP, so the counter of RTP counts all of them. -/
theorem RtspServer.Sound.right (h : t.Sound) : t.Right where
  toShared := h.toShared
  active c := by
    rw [h.counted .directRtp c]
    refine congrArg Nat.cast ?_
    rw [Slots.count_eq_sum, Slots.count_eq_sum]
    refine Finset.sum_congr rfl fun i _ => ?_
    obtain hused | hused := Bool.eq_false_or_eq_true (t.clients.client i).cUsed
    · rw [StreamOutputClient.counts, hused, h.rtp i hused]
      rfl
    · rw [StreamOutputClient.counts, hused]
      rfl

theorem sound_init : RtspServer.init.Sound where
  usenum _ := rfl
  used i := by simp [RtspServer.init, StreamClients.init, StreamOutputClient.zero, holders]
  distinct i j hi := absurd hi (by simp [RtspServer.init, StreamClients.init, StreamOutputClient.zero])
  session _ hmem := absurd hmem List.not_mem_nil
  counted k c := (congrArg Nat.cast (Slots.count_eq_zero fun _ => rfl)).symm
  rtp i hi := absurd hi (by simp [RtspServer.init, StreamClients.init, StreamOutputClient.zero])
  channel _ hmem := absurd hmem List.not_mem_nil

/-- A client that is held is in use. -/
theorem RtspServer.Sound.used_of_mem (h : t.Sound) {session : RtspSession}
    (hmem : session ∈ t.sessions) : (t.clients.client session.slot).cUsed = true := by
  refine (h.used _).mpr (List.countP_pos_iff.mpr ⟨session, hmem, ?_⟩)
  exact decide_eq_true rfl

/-- A client in use is held by a session. -/
theorem RtspServer.Sound.exists_session (h : t.Sound)
    (hused : (t.clients.client i).cUsed = true) : ∃ session ∈ t.sessions, session.slot = i := by
  obtain ⟨session, hmem, heq⟩ := List.countP_pos_iff.mp ((h.used i).mp hused)
  exact ⟨session, hmem, of_decide_eq_true heq⟩

/-- The clients and the sessions after one client has changed. -/
theorem RtspServer.Sound.of_update (h : t.Sound) {clients : StreamClients}
    {sessions : List RtspSession} {client : StreamOutputClient}
    (hclient : clients.client = Function.update t.clients.client i client)
    (hcounted : clients.Counted)
    (hothers : ∀ j, j ≠ i → holders j sessions = holders j t.sessions)
    (husenum : client.usenum = holders i sessions)
    (hused : client.cUsed = true ↔ 0 < holders i sessions)
    (hrtp : client.cUsed = true → client.type = typeRtp)
    (hdistinct : client.cUsed = true → ∀ j, j ≠ i → (t.clients.client j).cUsed = true →
      (t.clients.client j).videoAddr ≠ client.videoAddr)
    (hsessions : ∀ session ∈ sessions,
      (session.slot ≠ i ∧ session ∈ t.sessions) ∨ (session.slot = i ∧ HasCounters session.channel ∧
        client.videoAddr = session.videoAddr ∧ client.streamChannel = session.channel)) :
    RtspServer.Sound ⟨clients, sessions⟩ := by
  have hself : clients.client i = client := by rw [hclient, Function.update_self]
  have hne : ∀ j, j ≠ i → clients.client j = t.clients.client j := fun j hji => by
    rw [hclient, Function.update_of_ne hji]
  refine ⟨⟨fun j => ?_, fun j => ?_, fun j k hj hk haddr => ?_, fun x hx => ?_⟩, hcounted,
    fun j hj => ?_, fun x hx => ?_⟩
  · change (clients.client j).usenum = holders j sessions
    by_cases hji : j = i
    · rw [hji, hself, husenum]
    · rw [hne j hji, hothers j hji, h.usenum j]
  · change (clients.client j).cUsed = true ↔ 0 < holders j sessions
    by_cases hji : j = i
    · rw [hji, hself, hused]
    · rw [hne j hji, hothers j hji, h.used j]
  · change (clients.client j).cUsed = true at hj
    change (clients.client k).cUsed = true at hk
    change (clients.client j).videoAddr = (clients.client k).videoAddr at haddr
    by_cases hji : j = i <;> by_cases hki : k = i
    · rw [hji, hki]
    · rw [hji, hself] at hj haddr
      rw [hne k hki] at hk haddr
      exact absurd haddr.symm (hdistinct hj k hki hk)
    · rw [hki, hself] at hk haddr
      rw [hne j hji] at hj haddr
      exact absurd haddr (hdistinct hk j hji hj)
    · rw [hne j hji] at hj haddr
      rw [hne k hki] at hk haddr
      exact h.distinct j k hj hk haddr
  · change (clients.client x.slot).videoAddr = _ ∧ (clients.client x.slot).streamChannel = _
    obtain ⟨hxi, hmem⟩ | ⟨hxi, -, hx⟩ := hsessions x hx
    · rw [hne _ hxi]
      exact h.session x hmem
    · rw [hxi, hself]
      exact hx
  · change (clients.client j).cUsed = true at hj
    change (clients.client j).type = typeRtp
    by_cases hji : j = i
    · rw [hji, hself] at hj ⊢
      exact hrtp hj
    · rw [hne j hji] at hj ⊢
      exact h.rtp j hj
  · obtain ⟨-, hmem⟩ | ⟨-, hchannel, -⟩ := hsessions x hx
    · exact h.channel x hmem
    · exact hchannel

theorem holders_concat (j : ClientSlot) (sessions : List RtspSession) (session : RtspSession) :
    holders j (sessions ++ [session]) =
      holders j sessions + if session.slot = j then 1 else 0 := by
  rw [holders, holders, List.countP_append]
  simp [List.countP_cons]

theorem holders_split (j : ClientSlot) (l₁ l₂ : List RtspSession) (session : RtspSession) :
    holders j (l₁ ++ session :: l₂) =
      holders j (l₁ ++ l₂) + if session.slot = j then 1 else 0 := by
  rw [holders, holders, List.countP_append, List.countP_append, List.countP_cons, ← add_assoc]
  simp

/-- What is counted does not depend on `usenum`. -/
theorem StreamClients.Counted.setMnum {s : StreamClients} (h : s.Counted) (i : ClientSlot)
    (num : ℤ) : (streamClientSetMnum i num s).Counted :=
  h.of_put rfl fun _ _ => rfl

/-- A session that shares the client of its address. -/
theorem RtspServer.Sound.share (h : t.Sound) {videoAddr : SockaddrIn} {channel : ℤ}
    (hrepeat : streamClientIsRepeat videoAddr t.clients = some i) (hchannel : HasCounters channel)
    (hsame : ∀ session ∈ t.sessions, session.videoAddr = videoAddr → session.channel = channel) :
    RtspServer.Sound
      ⟨streamClientSetMnum i 1 t.clients, t.sessions ++ [⟨i, videoAddr, channel⟩]⟩ := by
  obtain ⟨hused, haddr⟩ := isRepeat_spec hrepeat
  obtain ⟨session, hmem, hslot⟩ := h.exists_session hused
  have hsession := h.session session hmem
  rw [hslot] at hsession
  have hi : (t.clients.client i).streamChannel = channel := by
    rw [hsession.2]
    exact hsame session hmem (hsession.1.symm.trans haddr)
  refine h.of_update rfl (h.counted.setMnum i 1) (fun j hji => ?_) ?_ ?_ (fun _ => h.rtp i hused)
    (fun _ j hji hj heq => hji (h.distinct j i hj hused heq)) fun x hx => ?_
  · exact (holders_concat ..).trans (by rw [if_neg (Ne.symm hji), add_zero])
  · change (t.clients.client i).usenum + 1 = ((holders i _ : ℕ) : ℤ)
    rw [holders_concat, if_pos rfl, h.usenum i, Nat.cast_add, Nat.cast_one]
  · refine iff_of_true hused ?_
    rw [holders_concat, if_pos rfl]
    exact Nat.succ_pos _
  · obtain hx | hx := List.mem_append.mp hx
    · by_cases hxi : x.slot = i
      · have hxs := h.session x hx
        rw [hxi] at hxs
        exact Or.inr ⟨hxi, h.channel x hx, hxs⟩
      · exact Or.inl ⟨hxi, hx⟩
    · obtain rfl := List.mem_singleton.mp hx
      exact Or.inr ⟨rfl, hchannel, haddr, hi⟩

/-- A session that gets a client of its own. -/
theorem RtspServer.Sound.allocate (h : t.Sound) {videoAddr : SockaddrIn} {channel : ℤ}
    {env : OpenEnv} (hrepeat : streamClientIsRepeat videoAddr t.clients = none)
    (hfree : streamClientGetFree t.clients = some i) (henv : env.Opens)
    (hchannel : HasCounters channel) (audioAddr : SockaddrIn) :
    ∃ clients, streamClientOpen videoAddr audioAddr typeRtp i channel env t.clients =
        some (clients, 0) ∧
      RtspServer.Sound ⟨clients, t.sessions ++ [⟨i, videoAddr, channel⟩]⟩ := by
  have hnot := getFree_spec hfree
  have hnone : holders i t.sessions = 0 := by
    have hiff := h.used i
    rw [hnot] at hiff
    exact Nat.eq_zero_of_not_pos fun hpos => absurd (hiff.mpr hpos) (by simp)
  obtain ⟨clients, heq, hclient, hcounted⟩ :=
    h.counted.open hnot henv hchannel videoAddr audioAddr typeRtp
  refine ⟨clients, heq, h.of_update hclient hcounted (fun j hji => ?_) ?_ ?_ (fun _ => rfl)
    (fun _ j _ hj => isRepeat_eq_none hrepeat j hj) fun x hx => ?_⟩
  · exact (holders_concat ..).trans (by rw [if_neg (Ne.symm hji), add_zero])
  · change (1 : ℤ) = ((holders i _ : ℕ) : ℤ)
    rw [holders_concat, if_pos rfl, hnone]
    rfl
  · refine iff_of_true rfl ?_
    rw [holders_concat, if_pos rfl]
    exact Nat.succ_pos _
  · obtain hx | hx := List.mem_append.mp hx
    · refine Or.inl ⟨fun hxi => ?_, hx⟩
      have hused := h.used_of_mem hx
      rw [hxi, hnot] at hused
      exact absurd hused (by simp)
    · obtain rfl := List.mem_singleton.mp hx
      exact Or.inr ⟨rfl, hchannel, rfl, rfl⟩

/-- **A session is opened**, or gets no client. -/
theorem RtspServer.Sound.create (h : t.Sound) {videoAddr audioAddr : SockaddrIn} {channel : ℤ}
    {env : OpenEnv} (hop : RtspOp.Proper t (.create videoAddr audioAddr channel env)) :
    ∃ t', rtspStep t (.create videoAddr audioAddr channel env) = some t' ∧ t'.Sound := by
  obtain ⟨henv, hchannel, hsame⟩ := hop
  rw [rtspStep, streamCreateRtspClient]
  obtain hrepeat | ⟨i, hrepeat⟩ := Option.eq_none_or_eq_some (streamClientIsRepeat videoAddr t.clients)
  · rw [hrepeat]
    obtain hfree | ⟨i, hfree⟩ := Option.eq_none_or_eq_some (streamClientGetFree t.clients)
    · rw [hfree]
      refine ⟨⟨t.clients, t.sessions ++ []⟩, rfl, ?_⟩
      rw [List.append_nil]
      exact h
    · rw [hfree]
      obtain ⟨clients, heq, hsound⟩ := h.allocate hrepeat hfree henv hchannel audioAddr
      refine ⟨_, ?_, hsound⟩
      change Option.map _ (Option.map _ (streamClientOpen ..)) = _
      rw [heq]
      rfl
  · rw [hrepeat]
    exact ⟨_, rfl, h.share hrepeat hchannel hsame⟩

/-- A session of the list among the others. -/
theorem exists_split {sessions : List RtspSession} {k : ℕ} {session : RtspSession}
    (hsession : sessions[k]? = some session) :
    ∃ l₁ l₂, sessions = l₁ ++ session :: l₂ ∧ sessions.eraseIdx k = l₁ ++ l₂ := by
  obtain ⟨hlt, hget⟩ := List.getElem?_eq_some_iff.mp hsession
  refine ⟨sessions.take k, sessions.drop (k + 1), ?_, List.eraseIdx_eq_take_drop_succ ..⟩
  rw [← hget, List.cons_getElem_drop_succ, List.take_append_drop]

/-- The client of a session that is closed: one session less holds it. -/
theorem RtspServer.Sound.setMnum (h : t.Sound) {l₁ l₂ : List RtspSession} {session : RtspSession}
    (hsessions : t.sessions = l₁ ++ session :: l₂) :
    (streamClientSetMnum session.slot (-1) t.clients).client =
      Function.update t.clients.client session.slot { t.clients.client session.slot with
        usenum := holders session.slot (l₁ ++ l₂) } := by
  have hnum := h.usenum session.slot
  rw [hsessions, holders_split, if_pos rfl, Nat.cast_add, Nat.cast_one] at hnum
  have hminus : (if (-1 : ℤ) ≥ 0 then (t.clients.client session.slot).usenum + 1
      else (t.clients.client session.slot).usenum - 1) = holders session.slot (l₁ ++ l₂) := by
    rw [if_neg (by decide)]
    omega
  rw [← hminus]
  rfl

/-- A session gives its client back. -/
theorem RtspServer.Sound.release (h : t.Sound) {l₁ l₂ : List RtspSession} {session : RtspSession}
    (hsessions : t.sessions = l₁ ++ session :: l₂) :
    ∃ clients, streamCloseRtspClient (some session.slot) t.clients = some (clients, 0) ∧
      RtspServer.Sound ⟨clients, l₁ ++ l₂⟩ := by
  have hclient := h.setMnum hsessions
  have hcounted := h.counted.setMnum session.slot (-1)
  have hmem : session ∈ t.sessions := by
    rw [hsessions]
    simp
  have hused := h.used_of_mem hmem
  have hchannel := h.channel session hmem
  rw [← (h.session session hmem).2] at hchannel
  have hothers : ∀ j, j ≠ session.slot → holders j (l₁ ++ l₂) = holders j t.sessions := by
    intro j hji
    rw [hsessions, holders_split, if_neg (Ne.symm hji), add_zero]
  have hrest : ∀ x ∈ l₁ ++ l₂, x ∈ t.sessions := by
    intro x hx
    rw [hsessions]
    exact ((List.sublist_cons_self session l₂).append_left l₁).subset hx
  obtain ⟨s₁, hs₁⟩ : ∃ s₁, streamClientSetMnum session.slot (-1) t.clients = s₁ := ⟨_, rfl⟩
  rw [hs₁] at hclient hcounted
  have hself : s₁.client session.slot = { t.clients.client session.slot with
      usenum := holders session.slot (l₁ ++ l₂) } := by
    rw [hclient, Function.update_self]
  change ∃ clients, (if (steramClientGetMnum session.slot (streamClientSetMnum _ _ _)) ≤ 0 then _
    else _) = _ ∧ _
  rw [hs₁, steramClientGetMnum, hself]
  change ∃ clients, (if ((holders session.slot (l₁ ++ l₂) : ℕ) : ℤ) ≤ 0 then _ else _) = _ ∧ _
  by_cases hlast : holders session.slot (l₁ ++ l₂) = 0
  · obtain ⟨clients, heq, hclosed, hcounted'⟩ := hcounted.close
      (by rw [hself]; exact hused) (by rw [hself]; exact hchannel)
    rw [hclient, Function.update_idem] at hclosed
    refine ⟨clients, ?_, h.of_update hclosed hcounted' hothers ?_ ?_ ?_ ?_ fun x hx => ?_⟩
    · rw [if_pos (by omega), heq]
      rfl
    · rw [hlast]
      rfl
    · rw [hlast]
      exact iff_of_false (by simp [StreamOutputClient.closed]) (lt_irrefl 0)
    · exact fun hclosed => absurd hclosed (by simp [StreamOutputClient.closed])
    · exact fun hclosed => absurd hclosed (by simp [StreamOutputClient.closed])
    · refine Or.inl ⟨fun hslot => ?_, hrest x hx⟩
      exact of_decide_eq_false (by simpa using List.countP_eq_zero.mp hlast x hx) hslot
  · refine ⟨s₁, if_neg (by omega), h.of_update hclient hcounted hothers rfl
      (iff_of_true hused (Nat.pos_of_ne_zero hlast)) (fun _ => h.rtp _ hused)
      (fun _ j hji hj heq => hji (h.distinct j _ hj hused heq)) fun x hx => ?_⟩
    have hxmem := hrest x hx
    by_cases hslot : x.slot = session.slot
    · have hpair := h.session x hxmem
      rw [hslot] at hpair
      exact Or.inr ⟨hslot, h.channel x hxmem, hpair⟩
    · exact Or.inl ⟨hslot, hxmem⟩

/-- **A session is closed.** -/
theorem RtspServer.Sound.close (h : t.Sound) (k : ℕ) :
    ∃ t', rtspStep t (.close k) = some t' ∧ t'.Sound := by
  rw [rtspStep]
  obtain hnone | ⟨session, hsession⟩ := Option.eq_none_or_eq_some t.sessions[k]?
  · rw [hnone]
    exact ⟨t, rfl, h⟩
  · obtain ⟨l₁, l₂, hsessions, herase⟩ := exists_split hsession
    obtain ⟨clients, heq, hsound⟩ := h.release hsessions
    refine ⟨_, ?_, hsound⟩
    rw [hsession, ← herase]
    change Option.map _ (streamCloseRtspClient (some session.slot) t.clients) = _
    rw [heq]
    rfl

/-- **The sessions of the RTSP server.** While sockets open, channels are among the four, and sessions
of one address ask for one channel, every client is in use exactly as long as a session holds it,
`usenum` is how many do, no address has two clients, each session has the address and the channel it
asked for, and the counter of RTP is right; whatever the order in which sessions are opened and
closed. -/
theorem sessions_right {ops : List RtspOp}
    (h : Run.AlongSome rtspStep RtspOp.Proper .init ops) :
    ∀ pre, pre <+: ops → ∃ t, pre.foldlM rtspStep .init = some t ∧ t.Right := by
  intro pre hpre
  obtain ⟨t, heq, hsound⟩ := h.invariant (I := RtspServer.Sound)
    (fun t ht op _ hop => by
      cases op with
      | create videoAddr audioAddr channel env => exact ht.create hop
      | close k => exact ht.close k) sound_init pre hpre
  exact ⟨t, heq, hsound.right⟩

/-- Two sessions of one address, of which the first is closed before a third one comes. -/
def someSessions : List RtspOp :=
  [.create ⟨2, 5000, 1⟩ ⟨2, 5002, 1⟩ 1 ⟨5, 6, none⟩, .create ⟨2, 5000, 1⟩ ⟨2, 5002, 1⟩ 1 ⟨7, 8, none⟩,
    .close 0, .create ⟨2, 6000, 1⟩ .zero 3 ⟨9, 10, some (640, 480, 48000)⟩, .close 0, .close 0]

theorem sessions_right_sample : ∃ t, someSessions.foldlM rtspStep .init = some t ∧ t.Right :=
  sessions_right (by decide +kernel) _ (List.prefix_refl _)

end Output

end ReachEdukit
