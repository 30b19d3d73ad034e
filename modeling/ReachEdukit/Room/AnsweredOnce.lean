import ReachEdukit.Room.Aggregate

/-!
# A forwarded request is answered once

Put together: in every run whose steps are timely, a request that reaches open streams only is
answered once, not before all it was sent to have answered, and it is not left in the queue. For
director mode, where every answer is passed on, this is so when there is only one.

Left to chance the threads fail it: an encoder that answers between two sends empties the mask, and
the request counts as answered although it has not been sent to all.

## Main definitions

* `AnsweredOnce` — what the upper side may expect
* `Directed` — the invariant for director mode

## Main results

* `answered_once` — it holds in every state of a timely run
* `answered_early` — and not in every run
-/

namespace ReachEdukit

namespace Room

/-- The lower thread has responded and not yet deleted the request. -/
def Lower.Ending : Lower → Prop
  | .close _ | .clearMode _ | .testInfo _ | .delete _ => True
  | _ => False

/-- What the upper side may expect, when `out` has been sent to it: nothing before all have
answered, nothing twice, an answer once all have answered, and no entry of an answered request but
while the lower thread is about to delete it. -/
structure AnsweredOnce (req : Request) (s : State) (out : List Upward) : Prop where
  /-- Not early. -/
  not_early : out ≠ [] → addressed req ⊆ s.answered
  /-- Not twice. -/
  not_twice : out.length ≤ 1
  /-- Not never. -/
  answered : Quiet s → addressed req ⊆ s.answered → out.length = 1
  /-- Not left in the queue. -/
  deleted : out ≠ [] → InQueue req s → s.lower.Ending

variable {req : Request} {s : State} {n : ℕ}

/-! ### Which requests are aggregated -/

theorem mem_remoteCtrlStream {listed : ℕ → Bool} {e : EncInfo} {q : QualityInfo}
    (h : remoteCtrlStream listed e = some q) :
    e.id ≠ 0 ∧ 0 < q.socket ∧ q.msgQueType ∈ e.streams := by
  rw [remoteCtrlStream] at h
  split at h
  · exact absurd h (by simp)
  · refine ⟨‹_›, ?_⟩
    split at h
    · split at h
      · obtain rfl := Option.some.inj h
        exact ⟨‹_›, by simp [EncInfo.streams]⟩
      · exact absurd h (by simp)
    · split at h
      · split at h
        · obtain rfl := Option.some.inj h
          exact ⟨‹_›, by simp [EncInfo.streams]⟩
        · exact absurd h (by simp)
      · exact absurd h (by simp)

theorem mem_selected {t : EncTable} {encodeIndex : Text} {e : EncInfo}
    (h : e ∈ selected t encodeIndex) : e ∈ t.encs ∧ e.id ≠ 0 := by
  obtain ⟨i, -, hi⟩ := List.mem_filterMap.mp h
  obtain ⟨e', -, he'⟩ := Option.bind_eq_some_iff.mp hi
  split at he'
  · exact absurd he' (by simp)
  · obtain ⟨hmem, hid, -⟩ := EncTable.mem_of_getEncInfoById he'
    exact ⟨hmem, hid⟩

/-- No encoder is selected twice. -/
theorem selected_pairwise (t : EncTable) (encodeIndex : Text) :
    (selected t encodeIndex).Pairwise fun a b => a.id ≠ b.id := by
  have hid : ∀ i e, (t.encs[i]?.bind fun e =>
      if e.id = 0 ∨ encId encodeIndex i = 0 then none
      else t.getEncInfoById (encId encodeIndex i)) = some e → e.id = i + 1 := by
    intro i e he
    obtain ⟨e', -, he'⟩ := Option.bind_eq_some_iff.mp he
    split at he'
    · exact absurd he' (by simp)
    · obtain ⟨-, hne, hid⟩ := EncTable.mem_of_getEncInfoById he'
      rw [hid] at hne ⊢
      rw [encId] at hne ⊢
      split
      · rfl
      · exact absurd (if_neg ‹_›) hne
  refine List.Pairwise.filterMap _ ?_ List.nodup_range
  intro i j hij a ha b hb hab
  rw [hid i a ha, hid j b hb] at hab
  exact hij (Nat.succ.inj hab)

/-- The streams of the selected encoders for an I-frame. -/
theorem iFrameReqStreams_sublist (e : EncInfo) :
    ((iFrameReqStreams e).map QualityInfo.msgQueType).Sublist e.streams := by
  rw [iFrameReqStreams, EncInfo.streams]
  split
  · exact List.Sublist.cons_cons _ (List.nil_sublist _)
  · exact List.Sublist.refl _

/-- The loop comes to no stream twice, and each has its bit. -/
theorem ids_spec (req : Request) : (ids req).Nodup ∧ ∀ i ∈ ids req, i < 24 := by
  have hlt : ∀ e ∈ req.encoders.encs, e.id ≠ 0 → ∀ i ∈ e.streams, i < 24 :=
    fun e he hid => (EncTable.streams_spec he hid).1
  rw [ids, Request.streams]
  cases req.kind with
  | remoteCtrl listed =>
    constructor
    · refine List.Pairwise.map (R := fun a b => a.msgQueType ≠ b.msgQueType) _ (fun _ _ h => h) ?_
      refine List.Pairwise.filterMap _ ?_ req.encoders.disjoint
      intro a b hab q hq q' hq' heq
      obtain ⟨ha, -, hqa⟩ := mem_remoteCtrlStream hq
      obtain ⟨hb, -, hqb⟩ := mem_remoteCtrlStream hq'
      rw [← heq] at hqb
      exact hab ha hb hqa hqb
    · intro i hi
      obtain ⟨q, hq, rfl⟩ := List.mem_map.mp hi
      obtain ⟨e, he, heq⟩ := List.mem_filterMap.mp hq
      obtain ⟨hid, -, hmem⟩ := mem_remoteCtrlStream heq
      exact hlt e he hid _ hmem
  | iFrameReq encodeIndex =>
    simp only [List.map_flatMap]
    constructor
    · rw [List.nodup_flatMap]
      constructor
      · intro e he
        obtain ⟨hmem, hid⟩ := mem_selected he
        exact (EncTable.streams_spec hmem hid).2.sublist (iFrameReqStreams_sublist e)
      · refine (selected_pairwise req.encoders encodeIndex).imp_of_mem ?_
        intro a b ha hb hab i hi hi'
        obtain ⟨ha, ha₀⟩ := mem_selected ha
        obtain ⟨hb, hb₀⟩ := mem_selected hb
        exact EncTable.disjoint_of_id_ne ha hb ha₀ hb₀ hab
          ((iFrameReqStreams_sublist a).subset hi) ((iFrameReqStreams_sublist b).subset hi')
    · intro i hi
      obtain ⟨e, he, hi⟩ := List.mem_flatMap.mp hi
      obtain ⟨hmem, hid⟩ := mem_selected he
      exact hlt e hmem hid i ((iFrameReqStreams_sublist e).subset hi)
  | directorMode encodeIndex =>
    have hstream : ∀ e : EncInfo, e.hdQuaInfo.msgQueType ∈ e.streams := by
      simp [EncInfo.streams]
    rw [List.map_map]
    constructor
    · refine List.Pairwise.map (R := fun a b => a.hdQuaInfo.msgQueType ≠ b.hdQuaInfo.msgQueType) _
        (fun _ _ h => h) ((selected_pairwise req.encoders encodeIndex).imp_of_mem ?_)
      intro a b ha hb hab heq
      obtain ⟨ha, ha₀⟩ := mem_selected ha
      obtain ⟨hb, hb₀⟩ := mem_selected hb
      have hmem := hstream b
      rw [← heq] at hmem
      exact EncTable.disjoint_of_id_ne ha hb ha₀ hb₀ hab (hstream a) hmem
    · intro i hi
      obtain ⟨e, he, rfl⟩ := List.mem_map.mp hi
      obtain ⟨hmem, hid⟩ := mem_selected he
      exact hlt e hmem hid _ (hstream e)

/-- The targets of a loop over open streams. -/
theorem target_pair (stream : List ℕ) {tail : List UpperOp}
    (htail : tail.filterMap UpperOp.target = []) :
    (stream.flatMap pair ++ tail).filterMap UpperOp.target = stream := by
  induction stream with
  | nil => simpa using htail
  | cons i stream ih =>
    rw [List.flatMap_cons, List.append_assoc, List.filterMap_append, ih]
    rfl

/-- A wired request that is not one of director mode is aggregated. -/
theorem aggregated_of_wired (hwired : Wired req) (hkind : ¬ req.IsDirector) : Aggregated req := by
  obtain ⟨hnodup, hlt⟩ := ids_spec req
  have hopen : ∀ q ∈ req.streams, 0 < q.socket := by
    intro q hq
    rw [Request.streams] at hq
    rw [Wired] at hwired
    cases hk : req.kind with
    | remoteCtrl listed =>
      simp only [hk] at hq
      obtain ⟨e, -, he⟩ := List.mem_filterMap.mp hq
      exact (mem_remoteCtrlStream he).2.1
    | iFrameReq encodeIndex =>
      simp only [hk] at hq hwired
      refine hwired.2 q ?_
      rw [Request.streams, hk]
      exact hq
    | directorMode encodeIndex => exact absurd ⟨encodeIndex, hk⟩ hkind
  have hops : ∀ q ∈ req.streams, req.streamOps q = pair q.msgQueType := by
    intro q hq
    rw [Request.streamOps]
    split
    · exact absurd ⟨_, ‹_›⟩ hkind
    · rw [sendTo, if_pos (hopen q hq)]
      rfl
  have hprogram : program req = .clear :: .flag :: ((ids req).flatMap pair ++ req.tail) := by
    rw [program, ids, List.flatMap_map]
    congr 3
    exact List.flatMap_congr hops
  have htail : req.tail = [.check] ∨ req.tail = [.addNode] ∧ ids req ≠ [] := by
    rw [Request.tail]
    rw [Wired] at hwired
    cases hk : req.kind with
    | remoteCtrl listed => exact .inl rfl
    | iFrameReq encodeIndex =>
      simp only [hk] at hwired
      exact .inr ⟨rfl, fun hnil => hwired.1 (List.map_eq_nil_iff.mp hnil)⟩
    | directorMode encodeIndex => exact absurd ⟨encodeIndex, hk⟩ hkind
  refine ⟨hprogram, hnodup, hlt, fun a => ?_, htail, ?_⟩
  · rw [Request.entry]
    split
    · exact absurd ⟨_, ‹_›⟩ hkind
    · rfl
  · have hnone : req.tail.filterMap UpperOp.target = [] := by
      rcases htail with ht | ⟨ht, -⟩ <;> rw [ht] <;> rfl
    rw [addressed, hprogram]
    exact congrArg List.toFinset (target_pair (ids req) hnone)

/-! ### Aggregated requests -/

/-- Before the first bit: the mask is being set up. -/
structure Starting (req : Request) (s : State) (n : ℕ) : Prop where
  /-- Where the upper thread is. -/
  ops : s.ops = program req ∨ .clear :: s.ops = program req ∧ s.mask = msgQueueRecClr
  /-- The lower thread has nothing to do, -/
  lower : s.lower = .idle
  /-- there being no answer. -/
  inbox : s.inbox = []
  /-- Nothing has been sent. -/
  sent : s.sent = ∅
  /-- Nobody has answered. -/
  answered : s.answered = ∅
  /-- Nor has there been a response. -/
  responses : n = 0
  /-- The request is not in the queue. -/
  new : ¬ InQueue req s

/-- The bits are about to be set. -/
theorem Starting.running (h : Starting req s n) (hagg : Aggregated req)
    (hops : .clear :: s.ops = program req) (hmask : s.mask = msgQueueRecClr) :
    Running req (upperStep req s).1 ∅ n := by
  obtain ⟨room, mask, adjustMask, roomInfoMask, ops, lower, inbox, sent, answered⟩ := s
  obtain ⟨-, hlower, hinbox, hsent, hans, rfl, hnew⟩ := h
  simp only at hlower hinbox hsent hans hmask hops
  subst hlower hinbox hsent hans hmask
  rw [hagg.program, List.cons.injEq] at hops
  obtain rfl := hops.2
  have hflg : msgQueueRecClr ||| msgQueueRecFlg = msgQueueRecFlg := by decide
  simp only [upperStep, hflg]
  refine ⟨.loop [] (ids req) rfl, Finset.Subset.refl _, ?_, List.nodup_nil, ?_, ?_, ?_, ?_,
    single_of_not_pending hnew, fun _ => hnew, ?_⟩
  · exact fun i hi => absurd hi List.not_mem_nil
  · exact fun a ha => absurd ha List.not_mem_nil
  · exact fun a ha => by cases ha
  · exact fun _ => ⟨rfl, rfl⟩
  · intro hnil
    rcases hagg.tail with ht | ⟨ht, -⟩ <;> simp [ht] at hnil
  · refine .collecting rfl trivial ?_ fun _ => .inl rfl
    simp

/-- A step of a request that is starting. -/
theorem Starting.step (h : Starting req s n) (hagg : Aggregated req) (act : Act) :
    (step req s act).2 = none ∧
      (Starting req (step req s act).1 n ∨ Running req (step req s act).1 ∅ n) := by
  cases act with
  | upper =>
    rcases h.ops with hops | ⟨hops, hmask⟩
    · rw [hagg.program] at hops
      simp only [Room.step, upperStep, hops]
      exact ⟨trivial, .inl ⟨.inr ⟨hagg.program.symm, rfl⟩, h.lower, h.inbox, h.sent, h.answered,
        h.responses, h.new⟩⟩
    · refine ⟨?_, .inr (h.running hagg hops hmask)⟩
      rw [hagg.program, List.cons.injEq] at hops
      simp only [Room.step, upperStep, hops.2]
  | lower =>
    have hsame : lowerStep req s = (s, none) := by
      rw [lowerStep, h.lower, h.inbox]
    simp only [Room.step, hsame]
    exact ⟨trivial, .inl h⟩
  | answer a =>
    have hno : ¬ (req.IsAnswer a ∧ a.msgtype ∈ s.sent ∧ a.msgtype ∉ s.answered) := by
      rw [h.sent]
      simp
    simp only [Room.step, if_neg hno]
    exact ⟨trivial, .inl h⟩

/-- The whole invariant. -/
def Proceeds (req : Request) (s : State) (n : ℕ) : Prop :=
  Starting req s n ∨ ∃ set, Running req s set n

/-- **Each step** keeps it. -/
theorem Proceeds.step (h : Proceeds req s n) (hagg : Aggregated req) {act : Act}
    (htimely : Timely req s act) :
    Proceeds req (step req s act).1 (n + (step req s act).2.toList.length) := by
  rcases h with h | ⟨set, h⟩
  · obtain ⟨hout, h | h⟩ := h.step hagg act
    · rw [hout]
      exact .inl h
    · rw [hout]
      exact .inr ⟨_, h⟩
  · cases act with
    | upper => exact .inr (h.upper hagg htimely)
    | lower => exact .inr ⟨_, h.lower_step hagg htimely⟩
    | answer a =>
      simp only [Room.step]
      split
      · obtain ⟨ha, hsent, hnew⟩ := ‹_ ∧ _ ∧ _›
        exact .inr ⟨_, h.answer ha hsent hnew⟩
      · exact .inr ⟨_, h⟩

theorem Lower.Closing.ending {l : Lower} (h : l.Closing) : l.Ending := by
  cases l with
  | close | delete => trivial
  | _ => exact h.elim

theorem Starting.answeredOnce {out : List Upward} (h : Starting req s out.length)
    (hagg : Aggregated req) : AnsweredOnce req s out := by
  have hnil : out = [] := List.length_eq_zero_iff.mp h.responses
  refine ⟨fun hne => absurd hnil hne, by simp [hnil], ?_, fun hne => absurd hnil hne⟩
  rintro ⟨hops, -, -⟩
  have hprogram := hagg.program
  rcases h.ops with h | ⟨h, -⟩
  · cases (hops.symm.trans h).trans hprogram
  · rw [hops] at h
    cases h.trans hprogram

theorem Running.answeredOnce {set : Finset ℕ} {out : List Upward}
    (h : Running req s set out.length) (hagg : Aggregated req) : AnsweredOnce req s out := by
  have hset : s.ops = [] → addressed req = set := by
    intro hops
    have hphase := h.phase
    rw [hops] at hphase
    rw [hphase.set_eq hagg, hagg.addressed]
  cases h.stage with
  | collecting hn hl hm hi =>
    have hnil : out = [] := List.length_eq_zero_iff.mp hn
    refine ⟨fun hne => absurd hnil hne, by omega, ?_, fun hne => absurd hnil hne⟩
    rintro ⟨hops, hlower, hinbox⟩ hall
    have hwait : waiting s.mask = ∅ := by
      rw [hm, Room.unhandled, hlower, hinbox, ← hset hops]
      simpa [Lower.unhandled] using hall
    rcases hi hlower with he | hne
    · exact h.refused hops he
    · exact absurd hwait hne
  | responding hn hl hops hall hinbox =>
    have hnil : out = [] := List.length_eq_zero_iff.mp hn
    refine ⟨fun hne => absurd hnil hne, by omega, ?_, fun hne => absurd hnil hne⟩
    rintro ⟨-, hlower, -⟩
    rw [hlower] at hl
    exact hl.elim
  | closing hn hl hops hall hinbox =>
    exact ⟨fun _ => (hset hops).subset.trans hall, hn.le, fun _ _ => hn, fun _ _ => hl.ending⟩
  | closed hn hl hops hall hinbox hgone =>
    exact ⟨fun _ => (hset hops).subset.trans hall, hn.le, fun _ _ => hn,
      fun _ hin => absurd hin hgone⟩

/-! ### Director mode -/

/-- The steps of the upper thread for director mode. -/
theorem mem_program_of_director (hdir : req.IsDirector) {op : UpperOp} (hop : op ∈ program req) :
    (∀ stream, op = .send stream → stream ∈ addressed req) ∧ op ≠ .check ∧ op ≠ .refuse := by
  refine ⟨?_, ?_⟩
  · rintro stream rfl
    exact List.mem_toFinset.mpr (List.mem_filterMap.mpr ⟨_, hop, rfl⟩)
  · obtain ⟨encodeIndex, hk⟩ := hdir
    have hloop : ∀ q, op ∈ req.streamOps q → op ≠ .check ∧ op ≠ .refuse := by
      intro q hq
      simp only [Request.streamOps, hk, sendTo, List.mem_cons] at hq
      rcases hq with rfl | hq
      · simp
      · split at hq
        · rw [List.mem_singleton.mp hq]
          simp
        · exact absurd hq List.not_mem_nil
    simp only [program, Request.tail, hk, List.mem_cons, List.mem_append, List.mem_flatMap,
      List.not_mem_nil, or_false] at hop
    rcases hop with rfl | rfl | ⟨q, -, hq⟩ | rfl
    · simp
    · simp
    · exact hloop q hq
    · simp

/-- The queue comes last. -/
theorem eq_nil_of_addNode (hdir : req.IsDirector) {ops : List UpperOp}
    (h : .addNode :: ops <:+ program req) : ops = [] := by
  obtain ⟨encodeIndex, hk⟩ := hdir
  have hprogram : program req = (.clear :: .flag :: req.streams.flatMap req.streamOps) ++
      [.addNode] := by
    simp [program, Request.tail, hk]
  have hnot : .addNode ∉ (.clear :: .flag :: req.streams.flatMap req.streamOps) := by
    simp only [List.mem_cons, List.mem_flatMap, reduceCtorEq, false_or, not_exists, not_and]
    intro q _ hq
    simp only [Request.streamOps, hk, sendTo, List.mem_cons, reduceCtorEq, false_or] at hq
    split at hq <;> simp at hq
  rcases List.eq_nil_or_concat ops with rfl | ⟨ops', op, rfl⟩
  · rfl
  · exfalso
    obtain ⟨pre, hpre⟩ := h
    rw [hprogram, List.concat_eq_append, ← List.cons_append, ← List.append_assoc] at hpre
    have hmem := List.append_inj_left' hpre rfl
    refine hnot ?_
    rw [← hmem]
    simp

/-- The lower thread has passed an answer on. -/
def Lower.Passed : Lower → Prop
  | .clearMode _ | .testInfo _ | .delete _ => True
  | _ => False

theorem Lower.Passed.ending {l : Lower} (h : l.Passed) : l.Ending := by
  cases l with
  | clearMode | testInfo | delete => trivial
  | _ => exact h.elim

/-- How far the one answer of director mode is. -/
inductive Passing (req : Request) (s : State) (n : ℕ) : Prop
  /-- It has not come. -/
  | waiting (responses : n = 0) (lower : s.lower = .idle) (inbox : s.inbox = [])
    (answered : s.answered = ∅)
  /-- It has come. -/
  | arrived (responses : n = 0) (lower : s.lower = .idle) (inbox : ∃ a, s.inbox = [a])
    (answered : s.answered = addressed req)
  /-- It is passed on. -/
  | passing (responses : n = 0) (lower : ∃ a, s.lower = .forward a) (inbox : s.inbox = [])
    (answered : s.answered = addressed req)
  /-- The request is about to be deleted. -/
  | closing (responses : n = 1) (lower : s.lower.Passed) (inbox : s.inbox = [])
    (answered : s.answered = addressed req)
  /-- It is done. -/
  | closed (responses : n = 1) (lower : s.lower = .idle) (inbox : s.inbox = [])
    (answered : s.answered = addressed req) (ops : s.ops = []) (gone : ¬ InQueue req s)

/-- The invariant for director mode. -/
structure Directed (req : Request) (s : State) (n : ℕ) : Prop where
  /-- Where the upper thread is. -/
  ops : s.ops <:+ program req
  /-- It sends to those that are addressed. -/
  sent : s.sent ⊆ addressed req
  /-- The answer carries what the request carries, -/
  inbox : ∀ a ∈ s.inbox, req.IsAnswer a
  /-- also the one at hand. -/
  lower : ∀ a, s.lower.answer = some a → req.IsAnswer a
  /-- The request is in the queue once at most, -/
  single : Single req.code req.passKey req.userId s.room.msgTimeQue.slots
  /-- and not before the upper thread is through. -/
  new : s.ops ≠ [] → ¬ InQueue req s
  /-- How far the answer is. -/
  stage : Passing req s n

/-- A step of the upper thread does not touch the answer. -/
theorem Passing.of_ops (h : Passing req s n) {s' : State} (hlower : s'.lower = s.lower)
    (hinbox : s'.inbox = s.inbox) (hans : s'.answered = s.answered) (hops : s.ops ≠ []) :
    Passing req s' n := by
  cases h with
  | waiting hn hl hi ha =>
    exact .waiting hn (hlower.trans hl) (hinbox.trans hi) (hans.trans ha)
  | arrived hn hl hi ha =>
    exact .arrived hn (hlower.trans hl) (hinbox ▸ hi) (hans.trans ha)
  | passing hn hl hi ha =>
    exact .passing hn (hlower ▸ hl) (hinbox.trans hi) (hans.trans ha)
  | closing hn hl hi ha =>
    exact .closing hn (hlower ▸ hl) (hinbox.trans hi) (hans.trans ha)
  | closed _ _ _ _ ho => exact absurd ho hops

/-- **The upper thread** keeps the invariant, and sends nothing upwards. -/
theorem Directed.upper (h : Directed req s n) (hdir : req.IsDirector) :
    (upperStep req s).2 = none ∧ Directed req (upperStep req s).1 n := by
  obtain ⟨room, mask, adjustMask, roomInfoMask, ops, lower, inbox, sent, answered⟩ := s
  cases ops with
  | nil => exact ⟨rfl, h⟩
  | cons op ops =>
    have hops : ops <:+ program req := (List.suffix_cons ..).trans h.ops
    obtain ⟨hsend, hcheck, hrefuse⟩ :=
      mem_program_of_director hdir (h.ops.subset (List.mem_cons_self ..))
    have hstage : ∀ {s' : State}, s'.lower = lower → s'.inbox = inbox → s'.answered = answered →
        Passing req s' n :=
      fun hl hi ha => h.stage.of_ops hl hi ha (by simp)
    have hnew := h.new (by simp)
    cases op with
    | check => exact absurd rfl hcheck
    | refuse => exact absurd rfl hrefuse
    | send stream =>
      exact ⟨rfl, hops, Finset.insert_subset (hsend stream rfl) h.sent, h.inbox, h.lower, h.single,
        fun _ => hnew, hstage rfl rfl rfl⟩
    | addNode =>
      refine ⟨rfl, hops, h.sent, h.inbox, h.lower, single_addNode hnew req.head true req.now,
        fun hne => ?_, hstage rfl rfl rfl⟩
      exact absurd (eq_nil_of_addNode hdir h.ops) hne
    | clear | flag | set | setAdjust =>
      exact ⟨rfl, hops, h.sent, h.inbox, h.lower, h.single, fun _ => hnew, hstage rfl rfl rfl⟩

/-- **The lower thread** keeps the invariant. -/
theorem Directed.lower_step (h : Directed req s n) (hdir : req.IsDirector)
    (htimely : Timely req s .lower) :
    Directed req (lowerStep req s).1 (n + (lowerStep req s).2.toList.length) := by
  obtain ⟨room, mask, adjustMask, roomInfoMask, ops, lower, inbox, sent, answered⟩ := s
  have hentry : ∀ a, req.entry a = .forward a := by
    obtain ⟨encodeIndex, hk⟩ := hdir
    exact fun a => by rw [Request.entry, hk]
  have hstage := h.stage
  cases lower with
  | idle =>
    cases inbox with
    | nil => exact h
    | cons a inbox =>
      have ha : req.IsAnswer a := h.inbox a (List.mem_cons_self ..)
      cases hstage with
      | arrived hn _ hi hans =>
        obtain ⟨b, hb⟩ := hi
        obtain ⟨rfl, rfl⟩ := List.cons.inj hb
        simp only [lowerStep, hentry]
        refine ⟨h.ops, h.sent, fun _ hmem => absurd hmem List.not_mem_nil, ?_, h.single, h.new,
          .passing hn ⟨a, rfl⟩ rfl hans⟩
        rintro _ ⟨⟩
        exact ha
      | waiting _ _ hi | passing _ _ hi | closing _ _ hi | closed _ _ hi => cases hi
  | forward a =>
    cases hstage with
    | passing hn _ hi hans =>
      exact ⟨h.ops, h.sent, h.inbox, h.lower, h.single, h.new,
        .closing (by rw [hn]; rfl) trivial hi hans⟩
    | waiting _ hl | arrived _ hl | closed _ hl => cases hl
    | closing _ hl => exact hl.elim
  | clearMode a =>
    cases hstage with
    | closing hn _ hi hans =>
      exact ⟨h.ops, h.sent, h.inbox, h.lower, h.single, h.new, .closing hn trivial hi hans⟩
    | waiting _ hl | arrived _ hl | closed _ hl => cases hl
    | passing _ hl => exact absurd hl.choose_spec (by simp)
  | testInfo a =>
    have hinfo : roomInfoMask = msgQueueRecClr := htimely
    cases hstage with
    | closing hn _ hi hans =>
      simp only [lowerStep, if_pos hinfo]
      exact ⟨h.ops, h.sent, h.inbox, h.lower, h.single, h.new, .closing hn trivial hi hans⟩
    | waiting _ hl | arrived _ hl | closed _ hl => cases hl
    | passing _ hl => exact absurd hl.choose_spec (by simp)
  | delete a =>
    cases hstage with
    | closing hn _ hi hans =>
      obtain ⟨hcode, hkey, huser⟩ := h.lower a rfl
      have hgone : ¬ Pending req.code req.passKey req.userId
          (delNode room.msgTimeQue a.msgCode a.passKey (a.userId.getD [])).slots := by
        rw [hcode, hkey, huser]
        exact not_pending_delNode h.single (code_ne_login req) htimely.2
      refine ⟨h.ops, h.sent, h.inbox, (fun _ hnone => by cases hnone), single_delNode h.single _,
        fun _ => hgone, .closed hn rfl hi hans htimely.1 hgone⟩
    | waiting _ hl | arrived _ hl | closed _ hl => cases hl
    | passing _ hl => exact absurd hl.choose_spec (by simp)
  | clear | flag | unflag | test | value | search | respond | close =>
    cases hstage with
    | waiting _ hl | arrived _ hl | closed _ hl => cases hl
    | passing _ hl => exact absurd hl.choose_spec (by simp)
    | closing _ hl => exact hl.elim

/-- **The answer** keeps it. -/
theorem Directed.answer (h : Directed req s n) (hone : ∃ stream, addressed req = {stream})
    {a : Answer} (ha : req.IsAnswer a) (hsent : a.msgtype ∈ s.sent)
    (hnew : a.msgtype ∉ s.answered) :
    Directed req { s with inbox := s.inbox ++ [a], answered := insert a.msgtype s.answered } n := by
  obtain ⟨stream, hone⟩ := hone
  have hmem : a.msgtype ∈ addressed req := h.sent hsent
  have hall : insert a.msgtype (∅ : Finset ℕ) = addressed req := by
    rw [hone, Finset.mem_singleton] at hmem
    rw [hone, hmem]
    rfl
  refine ⟨h.ops, h.sent, ?_, h.lower, h.single, h.new, ?_⟩
  · intro b hb
    rcases List.mem_append.mp hb with hb | hb
    · exact h.inbox b hb
    · rw [List.mem_singleton.mp hb]
      exact ha
  · cases h.stage with
    | waiting hn hl hi hans =>
      refine .arrived hn hl ⟨a, ?_⟩ ?_
      · rw [hi]
        rfl
      · rw [hans]
        exact hall
    | arrived _ _ _ hans | passing _ _ _ hans | closing _ _ _ hans | closed _ _ _ hans =>
      rw [hans] at hnew
      exact absurd hmem hnew

theorem Directed.answeredOnce {out : List Upward} (h : Directed req s out.length)
    (hone : ∃ stream, addressed req = {stream}) : AnsweredOnce req s out := by
  cases h.stage with
  | waiting hn _ _ hans =>
    have hnil : out = [] := List.length_eq_zero_iff.mp hn
    refine ⟨fun hne => absurd hnil hne, by omega, ?_, fun hne => absurd hnil hne⟩
    obtain ⟨stream, hone⟩ := hone
    intro _ hall
    rw [hans, hone] at hall
    exact absurd (hall (Finset.mem_singleton_self stream)) (Finset.notMem_empty _)
  | arrived hn _ hi =>
    have hnil : out = [] := List.length_eq_zero_iff.mp hn
    refine ⟨fun hne => absurd hnil hne, by omega, ?_, fun hne => absurd hnil hne⟩
    rintro ⟨-, -, hinbox⟩
    obtain ⟨a, ha⟩ := hi
    cases ha.symm.trans hinbox
  | passing hn hl =>
    have hnil : out = [] := List.length_eq_zero_iff.mp hn
    refine ⟨fun hne => absurd hnil hne, by omega, ?_, fun hne => absurd hnil hne⟩
    rintro ⟨-, hlower, -⟩
    obtain ⟨a, ha⟩ := hl
    cases ha.symm.trans hlower
  | closing hn hl _ hans =>
    exact ⟨fun _ => hans.symm.subset, hn.le, fun _ _ => hn, fun _ _ => hl.ending⟩
  | closed hn _ _ hans _ hgone =>
    exact ⟨fun _ => hans.symm.subset, hn.le, fun _ _ => hn, fun _ hin => absurd hin hgone⟩

/-! ### Every run -/

/-- What has gone to the upper side, one step on. -/
theorem upward_append (log : List (Option Upward)) (o : Option Upward) :
    (upward (log ++ [o])).length = (upward log).length + o.toList.length := by
  rw [upward, List.reduceOption_append, List.length_append]
  cases o <;> rfl

/-- **A forwarded request is answered once**, in every state of a timely run. -/
theorem answered_once (hwired : Wired req) {room : RoomMsgEnv}
    (hnew : ¬ Pending req.code req.passKey req.userId room.msgTimeQue.slots)
    (mask adjustMask roomInfoMask : Mask) {acts : List Act}
    (h : Run.Along (step req) (Timely req) (initial req room mask adjustMask roomInfoMask) acts) :
    AnsweredOnce req
      (Run.final (step req) (initial req room mask adjustMask roomInfoMask) acts)
      (upward (Run.outs (step req) (initial req room mask adjustMask roomInfoMask) acts)) := by
  by_cases hdir : req.IsDirector
  · have hone : ∃ stream, addressed req = {stream} := by
      obtain ⟨encodeIndex, hk⟩ := hdir
      rw [Wired] at hwired
      simpa only [hk] using hwired
    have hstart : Directed req (initial req room mask adjustMask roomInfoMask)
        (upward []).length :=
      ⟨List.suffix_rfl, Finset.empty_subset _, fun _ ha => absurd ha List.not_mem_nil,
        (fun _ ha => by cases ha), single_of_not_pending hnew, fun _ => hnew,
        .waiting rfl rfl rfl rfl⟩
    have hrun := Run.history_of_along
      (I := fun s log => Directed req s (upward log).length) ?_ hstart h
    · exact hrun.answeredOnce hone
    · intro s log act hs htimely
      rw [upward_append]
      cases act with
      | upper =>
        obtain ⟨hout, hs⟩ := hs.upper hdir
        simp only [step, hout]
        exact hs
      | lower => exact hs.lower_step hdir htimely
      | answer a =>
        simp only [step]
        split
        · obtain ⟨ha, hsent, hans⟩ := ‹_ ∧ _ ∧ _›
          exact hs.answer hone ha hsent hans
        · exact hs
  · have hagg := aggregated_of_wired hwired hdir
    have hstart : Proceeds req (initial req room mask adjustMask roomInfoMask)
        (upward []).length :=
      .inl ⟨.inl rfl, rfl, rfl, rfl, rfl, rfl, hnew⟩
    have hrun := Run.history_of_along
      (I := fun s log => Proceeds req s (upward log).length) ?_ hstart h
    · rcases hrun with hrun | ⟨set, hrun⟩
      · exact hrun.answeredOnce hagg
      · exact hrun.answeredOnce hagg
    · intro s log act hs htimely
      rw [upward_append]
      exact hs.step hagg htimely

/-- Two encoders whose high streams are open. -/
def sampleEncoders : EncTable :=
  .connect ([⟨1, ⟨0, 5⟩, ⟨0, 0⟩, .h264⟩, ⟨2, ⟨0, 6⟩, ⟨0, 0⟩, .h264⟩] ++
    List.replicate 7 ⟨0, ⟨0, 0⟩, ⟨0, 0⟩, .h264⟩) (by decide)

/-- Remote control of both. -/
def sampleRequest : Request where
  kind := .remoteCtrl fun _ => true
  encoders := sampleEncoders
  passKey := "WebCtrl".toList
  userId := ['1']
  head := ⟨0, 0, 0, 0⟩
  now := ⟨0, 0⟩

/-- It arrives in a room without requests. -/
def sampleInitial : State := initial sampleRequest ⟨.empty, 1⟩ 0 0 0

/-- The answer of a stream. -/
def sampleReply (stream : ℕ) : Act :=
  .answer ⟨stream, ⟨0, 0, 0, 0⟩, msgRemoteCtrl, some "WebCtrl".toList, some ['1'], 1⟩

/-- Both answer after the request is in the queue. -/
def sampleActs : List Act :=
  List.replicate 8 .upper ++ [sampleReply 1, sampleReply 3] ++ List.replicate 14 .lower

theorem answered_once_sample :
    AnsweredOnce sampleRequest (Run.final (step sampleRequest) sampleInitial sampleActs)
      (upward (Run.outs (step sampleRequest) sampleInitial sampleActs)) := by
  have hwired : Wired sampleRequest := trivial
  exact answered_once hwired (by decide) 0 0 0 (by decide)

/-- **Answered early.** The first encoder answers before the bit of the second is set, and the
response is sent although the second has not even been sent to. -/
theorem answered_early :
    ∃ acts, upward (Run.outs (step sampleRequest) sampleInitial acts) ≠ [] ∧
      ¬ addressed sampleRequest ⊆ (Run.final (step sampleRequest) sampleInitial acts).answered := by
  refine ⟨List.replicate 4 .upper ++ [sampleReply 1] ++ List.replicate 7 .lower, ?_, ?_⟩
  · decide
  · decide

end Room

end ReachEdukit
