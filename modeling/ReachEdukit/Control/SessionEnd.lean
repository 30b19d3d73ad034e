import ReachEdukit.Control.SessionSlots

/-!
# Every session comes to an end

Once its server is stopped, a session's thread does not go round its loop again: every step it takes
brings it nearer to `remove_conuser_index`, whatever the other threads do in between. `left` counts the
steps that are left. The last one clears the mark of the slot. The slots that do not come back are those
that `pthread_create` has left behind: they have no thread.
-/

namespace ReachEdukit

namespace Control

namespace Sessions

/-- How many steps of its thread a session has left when its server is stopped. -/
def ClientPc.left : ClientPc → ℕ
  | .unborn | .done => 0
  | .removeIndex => 1
  | .clearPlatform => 2
  | .clearEnv => 3
  | .clearFunction => 4
  | .clearIndex => 5
  | .close => 6
  | .clearSock => 7
  | .logout => 8
  | .stop => 9
  | .loop => 10
  | .heartBeat | .running => 11
  | .setFunction | .login => 12
  | .setPlatform | .roomFunction => 13
  | .select | .roomPlatform => 14
  | .readPort => 15
  | .getSocket => 16
  | .entry => 17

/-- The thread of the session `k` takes a step: `select` returns, or it does not wait there. -/
def Turn (k : ℕ) (s : State) : Act → Prop
  | .client k' => k' = k ∧ (s.client k).pc ≠ .select
  | .select k' _ => k' = k ∧ (s.client k).pc = .select
  | _ => False

instance (k : ℕ) (s : State) : (a : Act) → Decidable (Turn k s a)
  | .client k' => inferInstanceAs (Decidable (k' = k ∧ (s.client k).pc ≠ .select))
  | .select k' _ => inferInstanceAs (Decidable (k' = k ∧ (s.client k).pc = .select))
  | .listen _ _ | .bound _ _ | .serve _ | .accept _ _ | .create _ _ | .setRunStatus _ _ => .isFalse id
  | .stopUser _ | .fetchUser _ | .fetchServer _ | .closeFetched _ => .isFalse id

/-- How many steps the thread of the session `k` takes in a run. -/
def turns (k : ℕ) : State → List Act → ℕ
  | _, [] => 0
  | s, a :: acts => (if Turn k s a then 1 else 0) + turns k (step s a).1 acts

/-- The server is not set running again. -/
def StaysStopped (server : ServerId) (acts : List Act) : Prop :=
  ∀ status, Act.setRunStatus server status ∈ acts → status = .stoped

section Frame

variable {s : State} {k : ℕ} {server : ServerId}

@[simp] theorem client_setAcceptor (a : Acceptor) : (s.setAcceptor server a).client = s.client := rfl

@[simp] theorem client_setUser (slot : Slot) (u : ConUser) : (s.setUser slot u).client = s.client :=
  rfl

@[simp] theorem client_removeConuserIndex (slot : Slot) :
    (s.removeConuserIndex slot).client = s.client := rfl

@[simp] theorem client_close (fd : ℤ) : (s.close fd).client = s.client := rfl

@[simp] theorem client_setClient (c : Client) : (s.setClient k c).client k = c :=
  Function.update_self ..

@[simp] theorem client_goto (pc : ClientPc) :
    (s.goto k pc).client k = { s.client k with pc := pc } :=
  Function.update_self ..

theorem client_setClient_of_ne {k' : ℕ} (h : k ≠ k') (c : Client) :
    (s.setClient k' c).client k = s.client k :=
  Function.update_of_ne h ..

theorem client_controlServerThr : (controlServerThr s server).1.client = s.client := by
  rw [controlServerThr]
  split <;> (try split) <;> rfl

theorem client_socketReturns (fd : ℤ) : (socketReturns s server fd).1.client = s.client := by
  rw [socketReturns]
  split
  · split_ifs <;> rfl
  · rfl

theorem client_listenReturns (ok : Bool) : (listenReturns s server ok).1.client = s.client := by
  rw [listenReturns]
  split <;> rfl

theorem client_closeFetched (fd : ℤ) : (step s (.closeFetched fd)).1.client = s.client := by
  change State.client (if _ then _ else _ : State × Option Descriptors.Closed).1 = _
  split_ifs <;> rfl

theorem client_acceptReturns (fd : ℤ) : (acceptReturns s server fd).1.client = s.client := by
  rw [acceptReturns]
  split
  · split_ifs <;> rfl
  · rfl

theorem client_createReturns (hk : k < s.born) (result : ℤ) :
    (createReturns s server result).1.client k = s.client k := by
  rw [createReturns]
  split
  · split_ifs
    · rfl
    · exact client_setClient_of_ne hk.ne _
    · rfl
  · rfl

theorem client_controlUserProcess {k' : ℕ} (hk : k ≠ k') :
    (controlUserProcess s k').1.client k = s.client k := by
  have hset : ∀ c, (s.setClient k' c).client k = s.client k := client_setClient_of_ne hk
  rw [controlUserProcess]
  dsimp only
  split <;> (try split) <;> first | rfl | exact hset _

theorem client_selectReturns {k' : ℕ} (hk : k ≠ k') (event : Event) :
    (selectReturns s k' event).1.client k = s.client k := by
  have hset : ∀ c, (s.setClient k' c).client k = s.client k := client_setClient_of_ne hk
  unfold selectReturns
  dsimp only
  split
  · rcases event with _ | _ | _ | _ | ⟨platform, retCode, ftpModeMediacenter⟩ <;> dsimp only
    · split_ifs <;> exact hset _
    · exact hset _
    · exact hset _
    · exact hset _
    · split_ifs <;> exact hset _
  · rfl

end Frame

/-! ### One step -/

section Steps

variable {s : State} {k : ℕ} {server : ServerId} {a : Act}

theorem runStatus_controlServerThr (hstop : s.runStatus server = .stoped) (server' : ServerId) :
    (controlServerThr s server').1.runStatus server = .stoped := by
  rw [controlServerThr]
  rcases s.acceptor server' <;> dsimp only
  case idle => split <;> exact hstop
  case ready => split <;> exact hstop
  case getIndex sock => split <;> exact hstop
  case leave => split <;> exact hstop
  case setStoped =>
    change Function.update s.runStatus server' .stoped server = .stoped
    rw [Function.update_apply]
    split
    · rfl
    · exact hstop
  all_goals exact hstop

theorem runStatus_socketReturns (server' : ServerId) (fd : ℤ) :
    (socketReturns s server' fd).1.runStatus = s.runStatus := by
  rw [socketReturns]
  split
  · split_ifs <;> rfl
  · rfl

theorem runStatus_listenReturns (server' : ServerId) (ok : Bool) :
    (listenReturns s server' ok).1.runStatus = s.runStatus := by
  rw [listenReturns]
  split <;> rfl

theorem runStatus_acceptReturns (server' : ServerId) (fd : ℤ) :
    (acceptReturns s server' fd).1.runStatus = s.runStatus := by
  rw [acceptReturns]
  split
  · split_ifs <;> rfl
  · rfl

theorem runStatus_createReturns (server' : ServerId) (result : ℤ) :
    (createReturns s server' result).1.runStatus = s.runStatus := by
  rw [createReturns]
  split
  · split_ifs <;> rfl
  · rfl

theorem runStatus_controlUserProcess : (controlUserProcess s k).1.runStatus = s.runStatus := by
  rw [controlUserProcess]
  dsimp only
  split <;> (try split) <;> rfl

theorem runStatus_selectReturns (event : Event) :
    (selectReturns s k event).1.runStatus = s.runStatus := by
  unfold selectReturns
  dsimp only
  split
  · rcases event with _ | _ | _ | _ | ⟨platform, retCode, ftpModeMediacenter⟩ <;> dsimp only
    · split_ifs <;> rfl
    · rfl
    · rfl
    · rfl
    · split_ifs <;> rfl
  · rfl

/-- A server that is stopped stays so. -/
theorem runStatus_step (hstop : s.runStatus server = .stoped)
    (ha : ∀ status, a = .setRunStatus server status → status = .stoped) :
    (step s a).1.runStatus server = .stoped := by
  cases a with
  | listen server' fd =>
    change (socketReturns s server' fd).1.runStatus server = _
    rw [runStatus_socketReturns, hstop]
  | bound server' ok =>
    change (listenReturns s server' ok).1.runStatus server = _
    rw [runStatus_listenReturns, hstop]
  | serve server' => exact runStatus_controlServerThr hstop server'
  | accept server' fd =>
    change (acceptReturns s server' fd).1.runStatus server = _
    rw [runStatus_acceptReturns, hstop]
  | create server' result =>
    change (createReturns s server' result).1.runStatus server = _
    rw [runStatus_createReturns, hstop]
  | client k =>
    change (controlUserProcess s k).1.runStatus server = _
    rw [runStatus_controlUserProcess, hstop]
  | select k event =>
    change (selectReturns s k event).1.runStatus server = _
    rw [runStatus_selectReturns, hstop]
  | setRunStatus server' status =>
    change Function.update s.runStatus server' status server = .stoped
    rw [Function.update_apply]
    split
    · next heq => exact ha status (by rw [heq])
    · exact hstop
  | stopUser slot => exact hstop
  | fetchUser slot => exact hstop
  | fetchServer server' => exact hstop
  | closeFetched fd =>
    change State.runStatus (if _ then _ else _ : State × Option Descriptors.Closed).1 server = _
    split_ifs <;> exact hstop

/-- The session `c` after a step that takes `n` off what is left. -/
structure Nearer (c c' : Client) (n : ℕ) : Prop where
  slot : c'.slot = c.slot
  started : c'.pc ≠ .unborn
  left : c'.pc.left ≤ c.pc.left - n

theorem nearer_setClient {c : Client} {pc : ClientPc} (hpc : (s.client k).pc = pc)
    (hslot : c.slot = (s.client k).slot) (hnext : c.pc ≠ .unborn ∧ c.pc.left ≤ pc.left - 1) :
    Nearer (s.client k) ((s.setClient k c).client k) 1 := by
  rw [client_setClient]
  exact ⟨hslot, hnext.1, by rw [hpc]; exact hnext.2⟩

/-- A step of the thread itself. -/
theorem State.Sound.nearer_controlUserProcess (h : s.Sound) (hstarted : (s.client k).pc ≠ .unborn)
    (hstop : s.runStatus (s.client k).slot.server = .stoped) (hselect : (s.client k).pc ≠ .select) :
    Nearer (s.client k) ((Sessions.controlUserProcess s k).1.client k) 1 := by
  have hfits : (s.client k).pc.live = true → _ := h.clientFits (k := k)
  rw [Sessions.controlUserProcess]
  rcases hpc : (s.client k).pc <;> dsimp only
  case unborn => exact absurd hpc hstarted
  case select => exact absurd hpc hselect
  case done => exact ⟨rfl, hstarted, by rw [hpc]; decide⟩
  case entry =>
    split
    · exact nearer_setClient hpc rfl (by dsimp only; decide)
    · exact nearer_setClient hpc rfl (by dsimp only; decide)
  case loop =>
    rw [if_neg (by rw [hstop]; simp)]
    exact nearer_setClient hpc rfl (by dsimp only; decide)
  case readPort =>
    split
    · exact nearer_setClient hpc rfl (by dsimp only; decide)
    · exact nearer_setClient hpc rfl (by dsimp only; decide)
  case setPlatform =>
    split
    · exact nearer_setClient hpc rfl (by dsimp only; decide)
    · exact nearer_setClient hpc rfl (by dsimp only; decide)
  case heartBeat =>
    split
    · exact nearer_setClient hpc rfl (by dsimp only; decide)
    · exact nearer_setClient hpc rfl (by dsimp only; decide)
  case login =>
    split
    · exact nearer_setClient hpc rfl (by dsimp only; decide)
    · exact nearer_setClient hpc rfl (by dsimp only; decide)
  case logout =>
    split
    · exact nearer_setClient hpc rfl (by dsimp only; decide)
    · exact nearer_setClient hpc rfl (by dsimp only; decide)
  case removeIndex =>
    split
    · exact nearer_setClient hpc rfl (by dsimp only; decide)
    · exact nearer_setClient hpc rfl (by dsimp only; decide)
  all_goals exact nearer_setClient hpc rfl (by dsimp only; decide)

/-- `select` returns to the thread. -/
theorem nearer_selectReturns (hselect : (s.client k).pc = .select) (event : Event) :
    Nearer (s.client k) ((selectReturns s k event).1.client k) 1 := by
  unfold selectReturns
  dsimp only
  rw [if_pos hselect]
  rcases event with _ | _ | _ | _ | ⟨platform, retCode, ftpModeMediacenter⟩ <;> dsimp only
  · split_ifs
    all_goals exact nearer_setClient hselect rfl (by dsimp only; decide)
  · exact nearer_setClient hselect rfl (by dsimp only; decide)
  · exact nearer_setClient hselect rfl (by dsimp only; decide)
  · exact nearer_setClient hselect rfl (by dsimp only; decide)
  · split_ifs
    all_goals exact nearer_setClient hselect rfl (by dsimp only; decide)

end Steps

/-! ### Runs -/

section Runs

variable {s : State} {k : ℕ} {a : Act} {server : ServerId}

/-- A step of somebody else leaves the thread as it is. -/
theorem client_step (hborn : k < s.born) (hclient : a ≠ .client k) (hselect : ∀ event, a ≠ .select k event) :
    (step s a).1.client k = s.client k := by
  cases a with
  | listen server fd => exact congrFun (client_socketReturns fd) k
  | bound server ok => exact congrFun (client_listenReturns ok) k
  | serve server => exact congrFun client_controlServerThr k
  | accept server fd => exact congrFun (client_acceptReturns fd) k
  | create server result => exact client_createReturns hborn result
  | client k' => exact client_controlUserProcess fun hk => hclient (hk ▸ rfl)
  | select k' event => exact client_selectReturns (fun hk => hselect event (by rw [hk])) event
  | setRunStatus server status => rfl
  | stopUser slot => rfl
  | fetchUser slot => rfl
  | fetchServer server => rfl
  | closeFetched fd => exact congrFun (client_closeFetched fd) k

/-- Any step: the thread comes nearer to its end with every turn, and nobody takes it back. -/
theorem State.Sound.nearer_step (h : s.Sound) (hstarted : (s.client k).pc ≠ .unborn)
    (hstop : s.runStatus (s.client k).slot.server = .stoped) :
    Nearer (s.client k) ((Sessions.step s a).1.client k) (if Turn k s a then 1 else 0) := by
  have hborn : k < s.born := by
    by_contra hle
    exact hstarted (h.unborn k (Nat.le_of_not_lt hle))
  have hsame : ∀ c, c = s.client k → Nearer (s.client k) c 0 := by
    rintro c rfl
    exact ⟨rfl, hstarted, le_rfl⟩
  by_cases hclient : a = .client k
  · subst hclient
    by_cases hselect : (s.client k).pc = .select
    · rw [if_neg fun hturn => hturn.2 hselect]
      refine hsame _ ?_
      change (Sessions.controlUserProcess s k).1.client k = _
      rw [Sessions.controlUserProcess, hselect]
    · rw [if_pos ⟨rfl, hselect⟩]
      exact h.nearer_controlUserProcess hstarted hstop hselect
  · by_cases hevent : ∃ event, a = .select k event
    · obtain ⟨event, rfl⟩ := hevent
      by_cases hselect : (s.client k).pc = .select
      · rw [if_pos ⟨rfl, hselect⟩]
        exact nearer_selectReturns hselect event
      · rw [if_neg fun hturn => hselect hturn.2]
        refine hsame _ ?_
        change (Sessions.selectReturns s k event).1.client k = _
        unfold Sessions.selectReturns
        dsimp only
        rw [if_neg hselect]
    · have hturn : ¬ Turn k s a := by
        intro hturn
        cases a with
        | client k' => exact hclient (hturn.1 ▸ rfl)
        | select k' event => exact hevent ⟨event, hturn.1 ▸ rfl⟩
        | _ => exact hturn
      rw [if_neg hturn]
      exact hsame _ (client_step hborn hclient fun event heq => hevent ⟨event, heq⟩)

/-- A server that stays stopped in a run stays so behind the first step. -/
theorem stays_step {acts : List Act} (hstop : s.runStatus server = .stoped)
    (hstays : StaysStopped server (a :: acts)) :
    (step s a).1.runStatus server = .stoped ∧ StaysStopped server acts :=
  ⟨runStatus_step hstop fun status heq => hstays status (heq ▸ List.mem_cons_self ..),
    fun status hmem => hstays status (List.mem_cons_of_mem _ hmem)⟩

theorem State.Sound.nearer_run {acts : List Act} (h : s.Sound) (hstarted : (s.client k).pc ≠ .unborn)
    (hstop : s.runStatus (s.client k).slot.server = .stoped)
    (hstays : StaysStopped (s.client k).slot.server acts) :
    Nearer (s.client k) ((Run.final Sessions.step s acts).client k) (turns k s acts) := by
  induction acts generalizing s with
  | nil => exact ⟨rfl, hstarted, le_rfl⟩
  | cons a acts ih =>
    have hone := h.nearer_step (a := a) hstarted hstop
    obtain ⟨hstop', hstays'⟩ := stays_step hstop hstays
    rw [← hone.slot] at hstop' hstays'
    have hrest : Nearer ((Sessions.step s a).1.client k)
        ((Run.final Sessions.step (Sessions.step s a).1 acts).client k)
        (turns k (Sessions.step s a).1 acts) := ih (h.step a) hone.started hstop' hstays'
    refine ⟨hrest.slot.trans hone.slot, hrest.started, ?_⟩
    have hleft := hrest.left
    have hleft' := hone.left
    rw [turns, Run.final_cons]
    omega

/-- Nothing is left to do only at the end. -/
theorem ClientPc.eq_done {pc : ClientPc} (hstarted : pc ≠ .unborn) (hleft : pc.left = 0) :
    pc = .done := by
  revert hstarted hleft
  cases pc <;> decide

theorem ClientPc.ne_unborn {pc : ClientPc} (hlive : pc.live = true) : pc ≠ .unborn := by
  rintro rfl
  cases hlive

theorem ClientPc.live_of_ne {pc : ClientPc} (hunborn : pc ≠ .unborn) (hdone : pc ≠ .done) :
    pc.live = true := by
  revert hunborn hdone
  cases pc <;> decide

theorem ClientPc.left_le (pc : ClientPc) : pc.left ≤ 17 := by
  cases pc <;> decide

/-! ### The slot -/

/-- In a run the session `k` gives its slot back: a step of its own clears the mark, and the record is that
of a user who is not there. -/
def GivesBack (k : ℕ) (s : State) (acts : List Act) : Prop :=
  ∃ pre post, acts = pre ++ .client k :: post ∧
    (Run.final step s pre).conLink (s.client k).slot = true ∧
    (Run.final step s (pre ++ [.client k])).conLink (s.client k).slot = false ∧
    Clean ((Run.final step s (pre ++ [.client k])).user (s.client k).slot)

/-- The last line of a session is `remove_conuser_index`. -/
theorem State.Sound.eq_removeIndex (h : s.Sound) (hlive : (s.client k).pc.live = true)
    (hdone : ((Sessions.controlUserProcess s k).1.client k).pc = .done) :
    (s.client k).pc = .removeIndex := by
  have hfits := h.clientFits hlive
  rw [Sessions.controlUserProcess] at hdone
  rcases hpc : (s.client k).pc <;> rw [hpc] at hdone hlive <;> dsimp only at hdone
  case entry =>
    have henv := hfits.pconenv (by rw [hpc]; rfl)
    have hindex := hfits.index (by rw [hpc]; rfl)
    have hrange := hfits.inRange
    rw [if_neg (by rw [henv, hindex]; simp; omega), client_setClient] at hdone
    cases hdone
  case unborn => cases hlive
  case done => cases hlive
  case select =>
    rw [hpc] at hdone
    cases hdone
  all_goals (try split at hdone) <;> simp at hdone

/-- No session is over when `select` returns. -/
theorem selectReturns_ne_done (hne : (s.client k).pc ≠ .done) (event : Event) :
    ((selectReturns s k event).1.client k).pc ≠ .done := by
  unfold selectReturns
  dsimp only
  by_cases hselect : (s.client k).pc = .select
  · rw [if_pos hselect]
    rcases event with _ | _ | _ | _ | ⟨platform, retCode, ftpModeMediacenter⟩ <;> dsimp only
    · split_ifs <;> simp
    · simp
    · simp
    · simp
    · split_ifs <;> simp
  · rw [if_neg hselect]
    exact hne

/-- A session comes to its end in the step that gives its slot back. -/
theorem State.Sound.gives_back_step (h : s.Sound) (hlive : (s.client k).pc.live = true)
    (hdone : ((Sessions.step s a).1.client k).pc = .done) :
    a = .client k ∧ (Sessions.step s a).1.conLink (s.client k).slot = false ∧
      Clean ((Sessions.step s a).1.user (s.client k).slot) := by
  have hborn : k < s.born := h.lt_born hlive
  have hne : (s.client k).pc ≠ .done := by
    intro heq
    rw [heq] at hlive
    cases hlive
  by_cases hclient : a = .client k
  · subst hclient
    have hpc := h.eq_removeIndex hlive hdone
    have hindexed := (h.clientFits hlive).indexed (by rw [hpc]; rfl)
    have hnext : (Sessions.step s (.client k)).1 = (s.goto k .done).removeConuserIndex (s.client k).slot := by
      change (Sessions.controlUserProcess s k).1 = _
      rw [Sessions.controlUserProcess, hpc]
      dsimp only
      rw [hindexed]
    have hfree : (Sessions.step s (.client k)).1.conLink (s.client k).slot = false := by
      rw [hnext]
      exact Function.update_self ..
    exact ⟨rfl, hfree, (h.step (.client k)).table.clean hfree⟩
  · exfalso
    by_cases hevent : ∃ event, a = .select k event
    · obtain ⟨event, rfl⟩ := hevent
      exact selectReturns_ne_done hne event hdone
    · rw [client_step hborn hclient fun event heq => hevent ⟨event, heq⟩] at hdone
      exact hne hdone

/-- **A session that has come to its end has given its slot back.** -/
theorem State.Sound.givesBack {acts : List Act} (h : s.Sound) (hlive : (s.client k).pc.live = true)
    (hstop : s.runStatus (s.client k).slot.server = .stoped)
    (hstays : StaysStopped (s.client k).slot.server acts)
    (hdone : ((Run.final Sessions.step s acts).client k).pc = .done) : GivesBack k s acts := by
  induction acts generalizing s with
  | nil =>
    rw [Run.final_nil] at hdone
    rw [hdone] at hlive
    cases hlive
  | cons a acts ih =>
    by_cases hnext : ((Sessions.step s a).1.client k).pc = .done
    · obtain ⟨rfl, hfree, hclean⟩ := h.gives_back_step hlive hnext
      exact ⟨[], acts, rfl, h.table.taken (slot_client hlive), hfree, hclean⟩
    · have hone := h.nearer_step (a := a) (ClientPc.ne_unborn hlive) hstop
      obtain ⟨hstop', hstays'⟩ := stays_step hstop hstays
      rw [← hone.slot] at hstop' hstays'
      obtain ⟨pre, post, rfl, htaken, hfree, hclean⟩ :=
        ih (h.step a) (ClientPc.live_of_ne hone.started hnext) hstop' hstays' hdone
      rw [hone.slot] at htaken hfree hclean
      exact ⟨a :: pre, post, rfl, htaken, hfree, hclean⟩

/-- After every run: when a server has been stopped, each of its sessions is over as soon as its thread has
taken seventeen steps more, whatever happens in between, and has given its slot back. -/
theorem session_ends (maxRoom : ℕ) (acts more : List Act) (k : ℕ) :
    let s := Run.final step (initial maxRoom) acts
    (s.client k).pc.live = true → s.runStatus (s.client k).slot.server = .stoped →
      StaysStopped (s.client k).slot.server more → 17 ≤ turns k s more →
        ((Run.final step s more).client k).pc = .done ∧ GivesBack k s more := by
  intro s hlive hstop hstays hturns
  have hs : s.Sound := sound_run maxRoom acts
  have hnearer := hs.nearer_run (ClientPc.ne_unborn hlive) hstop hstays
  have hle := ClientPc.left_le (s.client k).pc
  have hdone : ((Run.final step s more).client k).pc = .done := by
    refine ClientPc.eq_done hnearer.started (Nat.le_zero.mp (hnearer.left.trans ?_))
    omega
  exact ⟨hdone, hs.givesBack hlive hstop hstays hdone⟩

/-- The forward server takes in a client and starts its thread. -/
def clientStarts : List Act :=
  [.listen .forser 3, .serve .forser, .bound .forser true, .setRunStatus .forser .running,
    .serve .forser, .serve .forser, .accept .forser 5, .serve .forser, .serve .forser, .serve .forser,
    .serve .forser, .create .forser 0]

theorem staysStopped_replicate (server : ServerId) (n k : ℕ) :
    StaysStopped server (List.replicate n (.client k)) := by
  intro status hmem
  cases (List.eq_of_mem_replicate hmem)

/-- The forward server is stopped then. -/
def serverStops : List Act := clientStarts ++ [.setRunStatus .forser .stoped]

theorem session_ends_at_once :
    ((Run.final step (Run.final step (initial 1) serverStops)
      (List.replicate 17 (.client 0))).client 0).pc = .done ∧
    GivesBack 0 (Run.final step (initial 1) serverStops) (List.replicate 17 (.client 0)) := by
  have h := session_ends 1 serverStops (List.replicate 17 (.client 0)) 0
  exact h (by decide +kernel) (by decide +kernel) (staysStopped_replicate _ _ _) (by decide +kernel)

end Runs

end Sessions

end Control

end ReachEdukit
