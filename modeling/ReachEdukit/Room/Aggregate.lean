import ReachEdukit.Room.Forward

/-!
# Requests that are answered as one

Remote control and the request for an I-frame share the way of their answers: a mask collects them,
and the last one is responded to. With every addressed stream open, the upper thread sets a bit and
sends, stream by stream (`Aggregated`), and `Running` says how far both threads are: which bits have
been set, which answers have been taken out of the mask, and whether the response is still to come
(`Stage`). Each step of either thread, and each answer, keeps it, as long as the lower thread does
not find the mask empty before the upper thread is through (`Timely`).

## Main definitions

* `Wired`, `Timely` — the conditions on a request and on a step
* `Running`, `Stage` — the invariant

## Main results

* `Running.upper`, `Running.lower`, `Running.answer` — it is kept
-/

namespace ReachEdukit

namespace Room

/-! ### Conditions -/

/-- Every stream whose bit is set is open, and there is one; a request that is not aggregated goes
to a single stream. -/
def Wired (req : Request) : Prop :=
  match req.kind with
  | .remoteCtrl _ => True
  | .iFrameReq _ => req.streams ≠ [] ∧ ∀ q ∈ req.streams, 0 < q.socket
  | .directorMode _ => ∃ stream, addressed req = {stream}

/-- The threads do not get in each other's way: the mask is not found empty before the request is in
the queue, the check behind the loop does not find it without a bit unless nothing was sent, and the
request is deleted when it is in the queue and can be found there. -/
def Timely (req : Request) (s : State) : Act → Prop
  | .upper =>
    match s.ops with
    | .check :: _ => s.mask = msgQueueRecFlg → addressed req = ∅
    | _ => True
  | .lower =>
    match s.lower with
    | .test _ => isAllEncResp s.mask = true → s.ops = []
    | .testInfo _ => s.roomInfoMask = msgQueueRecClr
    | .delete _ =>
      s.ops = [] ∧ ¬ Hidden req.code req.passKey req.userId s.room.msgTimeQue.slots
    | _ => True
  | .answer _ => True

instance (req : Request) (s : State) (act : Act) : Decidable (Timely req s act) := by
  unfold Timely
  split
  · split <;> infer_instance
  · split <;> infer_instance
  · infer_instance

/-- The request is in the queue. -/
def InQueue (req : Request) (s : State) : Prop :=
  Pending req.code req.passKey req.userId s.room.msgTimeQue.slots

/-! ### The queue -/

theorem code_ne_login (req : Request) : req.code ≠ msgEncLogin := by
  rw [Request.code]
  split <;> decide

/-- A request that is added once is there once. -/
theorem single_addNode {q : TimeQue} {code : MsgCode} {passKey userId : Text}
    (h : ¬ Pending code passKey userId q.slots) (head : MsgHeader) (fn : Bool) (now : Timeval) :
    Single code passKey userId (addNode q code passKey userId head fn now).1.slots := by
  rw [addNode]
  split
  · exact single_of_not_pending h
  · split
    · exact single_of_not_pending h
    · refine Slots.pairwise_setFirst (fun h hr => h hr.symm) (single_of_not_pending h)
        fun _ _ => .inr fun b hb hr => h ⟨b, hb, hr.2⟩

/-- Deleting removes a request that is not hidden. -/
theorem not_pending_delNode {q : TimeQue} {code : MsgCode} {passKey userId : Text}
    (hq : Single code passKey userId q.slots) (hc : code ≠ msgEncLogin)
    (hh : ¬ Hidden code passKey userId q.slots) :
    ¬ Pending code passKey userId (delNode q code (some passKey) userId).slots := by
  by_cases hp : Pending code passKey userId q.slots
  · exact fun hp' => hh ((pending_delNode_iff hq hc hp).mp hp')
  · have hdel : ¬ (Event.del code (some passKey) userId).Adds code passKey userId := id
    exact not_pending_step hp hdel

/-- Deleting keeps a request single. -/
theorem single_delNode {q : TimeQue} {code code' : MsgCode} {passKey userId userId' : Text}
    (hq : Single code passKey userId q.slots) (passKey' : Option Text) :
    Single code passKey userId (delNode q code' passKey' userId').slots := by
  cases passKey' with
  | none => exact hq
  | some passKey' =>
    rw [delNode]
    split
    · exact hq
    · refine Slots.pairwise_setFirst (fun h hr => h hr.symm) hq fun a _ => ?_
      rcases delSlot_eq a with hz | hz
      · rw [hz]
        exact .inr fun b _ hr => not_isFor_zero hr.1.isFor
      · exact .inl hz

/-! ### The upper thread -/

/-- The queue types of the streams the loop comes to. -/
def ids (req : Request) : List ℕ := req.streams.map QualityInfo.msgQueType

/-- What the loop does for an open stream. -/
def pair (stream : ℕ) : List UpperOp := [.set stream, .send stream]

/-- The answers are collected, and every stream the loop comes to is open. -/
structure Aggregated (req : Request) : Prop where
  /-- The steps of the upper thread. -/
  program : program req = .clear :: .flag :: ((ids req).flatMap pair ++ req.tail)
  /-- No stream comes twice. -/
  nodup : (ids req).Nodup
  /-- Each has its bit in the mask. -/
  lt : ∀ i ∈ ids req, i < 24
  /-- Answers are collected. -/
  entry : ∀ a, req.entry a = .clear a
  /-- What is behind the loop. -/
  tail : req.tail = [.check] ∨ req.tail = [.addNode] ∧ ids req ≠ []
  /-- The request is sent to all of them. -/
  addressed : addressed req = (ids req).toFinset

/-- How far the upper thread is in the loop and behind it, with the bits it has set and the streams
it has sent to. -/
inductive Phase (req : Request) : List UpperOp → Finset ℕ → Finset ℕ → Prop
  /-- Between two streams. -/
  | loop (done todo : List ℕ) (h : ids req = done ++ todo) :
    Phase req (todo.flatMap pair ++ req.tail) done.toFinset done.toFinset
  /-- Between the bit of a stream and the sending. -/
  | sending (done todo : List ℕ) (i : ℕ) (h : ids req = done ++ i :: todo) :
    Phase req (.send i :: (todo.flatMap pair ++ req.tail)) (insert i done.toFinset) done.toFinset
  /-- Nothing was sent. -/
  | refusing (h : ids req = []) : Phase req [.refuse] ∅ ∅
  /-- The request has been refused. -/
  | refused (h : ids req = []) : Phase req [] ∅ ∅
  /-- The request is put into the queue. -/
  | adding (h : ids req ≠ []) : Phase req [.addNode] (ids req).toFinset (ids req).toFinset
  /-- It has been. -/
  | added (h : ids req ≠ []) : Phase req [] (ids req).toFinset (ids req).toFinset

variable {req : Request} {s : State} {set : Finset ℕ} {n : ℕ} {ops : List UpperOp}
  {sent : Finset ℕ}

/-- What has been sent has its bit. -/
theorem Phase.sent_subset (h : Phase req ops set sent) : sent ⊆ set := by
  cases h with
  | sending done todo i h => exact Finset.subset_insert ..
  | _ => exact Finset.Subset.refl _

/-- Only streams of the loop have a bit. -/
theorem Phase.set_subset (h : Phase req ops set sent) : set ⊆ (ids req).toFinset := by
  cases h with
  | loop done todo h =>
    rw [h, List.toFinset_append]
    exact Finset.subset_union_left
  | sending done todo i h =>
    rw [h, List.toFinset_append, List.toFinset_cons]
    intro j hj
    rcases Finset.mem_insert.mp hj with rfl | hj
    · exact Finset.mem_union_right _ (Finset.mem_insert_self ..)
    · exact Finset.mem_union_left _ hj
  | refusing | refused => exact Finset.empty_subset _
  | adding | added => exact Finset.Subset.refl _

/-- At the end all of them have. -/
theorem Phase.set_eq (h : Phase req [] set sent) (hagg : Aggregated req) :
    set = (ids req).toFinset := by
  generalize hops : ([] : List UpperOp) = ops at h
  cases h with
  | loop done todo h =>
    exfalso
    rcases hagg.tail with ht | ⟨ht, -⟩
    · rw [ht] at hops
      exact absurd hops (by simp)
    · rw [ht] at hops
      exact absurd hops (by simp)
  | sending | refusing | adding => exact absurd hops (by simp)
  | refused h => rw [h, List.toFinset_nil]
  | added => rfl

/-! ### Both threads -/

/-- The answers that have not been taken out of the mask. -/
def Lower.unhandled : Lower → List Answer
  | .clear a => [a]
  | _ => []

/-- The streams of all such answers. -/
def unhandled (s : State) : List ℕ := (s.lower.unhandled ++ s.inbox).map Answer.msgtype

/-- The answer the lower thread is at. -/
def Lower.answer : Lower → Option Answer
  | .idle => none
  | .clear a | .flag a | .unflag a | .test a | .value a | .search a _ | .respond a _ | .close a
  | .forward a | .clearMode a | .testInfo a | .delete a => some a

/-- The lower thread is before the point where it looks whether all have answered. -/
def Lower.Collecting : Lower → Prop
  | .idle | .clear _ | .flag _ | .unflag _ | .test _ => True
  | _ => False

/-- It is about to respond. -/
def Lower.Responding : Lower → Prop
  | .value _ | .search .. | .respond .. => True
  | _ => False

/-- It has responded and is about to delete the request. -/
def Lower.Closing : Lower → Prop
  | .close _ | .delete _ => True
  | _ => False

/-- How far the response is, when `n` have been sent. -/
inductive Stage (req : Request) (s : State) (set : Finset ℕ) (n : ℕ) : Prop
  /-- Answers are missing: the mask holds those bits that are set and whose answer has not been
  handled. -/
  | collecting (responses : n = 0) (lower : s.lower.Collecting)
    (mask : waiting s.mask = set \ (s.answered \ (unhandled s).toFinset))
    (idle : s.lower = .idle → set = ∅ ∨ waiting s.mask ≠ ∅)
  /-- All have answered. -/
  | responding (responses : n = 0) (lower : s.lower.Responding) (ops : s.ops = [])
    (all : set ⊆ s.answered) (inbox : s.inbox = [])
  /-- The response has been sent. -/
  | closing (responses : n = 1) (lower : s.lower.Closing) (ops : s.ops = [])
    (all : set ⊆ s.answered) (inbox : s.inbox = [])
  /-- The request is done. -/
  | closed (responses : n = 1) (lower : s.lower = .idle) (ops : s.ops = [])
    (all : set ⊆ s.answered) (inbox : s.inbox = []) (gone : ¬ InQueue req s)

/-- The invariant, with the bits that are set and the number of responses. -/
structure Running (req : Request) (s : State) (set : Finset ℕ) (n : ℕ) : Prop where
  /-- Where the upper thread is. -/
  phase : Phase req s.ops set s.sent
  /-- Only those answer to which was sent. -/
  answered : s.answered ⊆ s.sent
  /-- Unhandled answers are answers, -/
  unhandled : ∀ i ∈ unhandled s, i ∈ s.answered
  /-- one of each stream. -/
  nodup : (Room.unhandled s).Nodup
  /-- They carry what the request carries, -/
  inbox : ∀ a ∈ s.inbox, req.IsAnswer a
  /-- and so does the one at hand. -/
  lower : ∀ a, s.lower.answer = some a → req.IsAnswer a
  /-- Before the first bit nothing happens. -/
  fresh : set = ∅ → s.mask = msgQueueRecFlg ∧ s.lower = .idle
  /-- Without a bit the request has been refused at the end. -/
  refused : s.ops = [] → set = ∅ → n = 1
  /-- The request is in the queue once at most, -/
  single : Single req.code req.passKey req.userId s.room.msgTimeQue.slots
  /-- and not before the upper thread is through. -/
  new : s.ops ≠ [] → ¬ InQueue req s
  /-- How far the response is. -/
  stage : Stage req s set n

/-- While the upper thread is not through, answers are collected. -/
theorem Running.collecting (h : Running req s set n) (hops : s.ops ≠ []) :
    n = 0 ∧ s.lower.Collecting ∧
      waiting s.mask = set \ (s.answered \ (Room.unhandled s).toFinset) ∧
      (s.lower = .idle → set = ∅ ∨ waiting s.mask ≠ ∅) := by
  cases h.stage with
  | collecting hn hl hm hi => exact ⟨hn, hl, hm, hi⟩
  | responding _ _ ho | closing _ _ ho | closed _ _ ho => exact absurd ho hops

/-- The bit of a stream goes into the mask. -/
theorem Running.set_bit (h : Running req s set n) {i : ℕ} {ops : List UpperOp} (hne : s.ops ≠ [])
    (hi : i < 24) (hnew : i ∉ s.sent)
    (hphase : Phase req ops (insert i set) s.sent) :
    Running req { s with ops := ops, mask := setMaskBitVal s.mask i true } (insert i set) n where
  phase := hphase
  answered := h.answered
  unhandled := h.unhandled
  nodup := h.nodup
  inbox := h.inbox
  lower := h.lower
  fresh := fun he => absurd he (Finset.insert_ne_empty _ _)
  refused := fun _ he => absurd he (Finset.insert_ne_empty _ _)
  single := h.single
  new := fun _ => h.new hne
  stage := by
    obtain ⟨hn, hl, hm, -⟩ := h.collecting hne
    have hmask : waiting (setMaskBitVal s.mask i true) =
        insert i set \ (s.answered \ (Room.unhandled s).toFinset) := by
      have hi' : i ∉ s.answered \ (Room.unhandled s).toFinset := fun hmem =>
        hnew (h.answered (Finset.mem_sdiff.mp hmem).1)
      rw [waiting_set s.mask hi, hm, Finset.insert_sdiff_of_notMem _ hi']
    refine .collecting hn hl hmask fun _ => .inr ?_
    rw [waiting_set s.mask hi]
    exact Finset.insert_ne_empty _ _

/-- A step of the upper thread that leaves the mask and the queue alone. -/
theorem Running.go_on (h : Running req s set n) {ops : List UpperOp} {sent : Finset ℕ}
    (hne : s.ops ≠ []) (hops : ops ≠ []) (hsent : s.sent ⊆ sent)
    (hphase : Phase req ops set sent) :
    Running req { s with ops := ops, sent := sent } set n where
  phase := hphase
  answered := h.answered.trans hsent
  unhandled := h.unhandled
  nodup := h.nodup
  inbox := h.inbox
  lower := h.lower
  fresh := h.fresh
  refused := fun hnil => absurd hnil hops
  single := h.single
  new := fun _ => h.new hne
  stage := by
    obtain ⟨hn, hl, hm, hi⟩ := h.collecting hne
    exact .collecting hn hl hm hi

/-- The request is put into the queue. -/
theorem Running.add_node (h : Running req s set n) (hne : s.ops ≠ []) (hset : set ≠ ∅)
    (hphase : Phase req [] set s.sent) :
    Running req
      { s with
        ops := []
        room := { s.room with
          msgTimeQue := (addNode s.room.msgTimeQue req.code req.passKey req.userId req.head true
            req.now).1 } } set n where
  phase := hphase
  answered := h.answered
  unhandled := h.unhandled
  nodup := h.nodup
  inbox := h.inbox
  lower := h.lower
  fresh := h.fresh
  refused := fun _ he => absurd he hset
  single := single_addNode (h.new hne) req.head true req.now
  new := fun hnil => absurd rfl hnil
  stage := by
    obtain ⟨hn, hl, hm, hi⟩ := h.collecting hne
    exact .collecting hn hl hm hi

/-- Nothing to send to, and the request is refused. -/
theorem Running.refuse (h : Running req s ∅ n) (hops : s.ops = [.refuse])
    (hphase : Phase req [] ∅ s.sent) : Running req { s with ops := [] } ∅ (n + 1) where
  phase := hphase
  answered := h.answered
  unhandled := h.unhandled
  nodup := h.nodup
  inbox := h.inbox
  lower := h.lower
  fresh := h.fresh
  refused := fun _ _ => by rw [(h.collecting (by simp [hops])).1]
  single := h.single
  new := fun hnil => absurd rfl hnil
  stage := by
    have hne : s.ops ≠ [] := by
      rw [hops]
      simp
    obtain ⟨hn, -⟩ := h.collecting hne
    have hinbox : s.inbox = [] := by
      rw [List.eq_nil_iff_forall_not_mem]
      intro a ha
      have hmem : a.msgtype ∈ Room.unhandled s :=
        List.mem_map_of_mem (List.mem_append_right _ ha)
      exact absurd (h.phase.sent_subset (h.answered (h.unhandled _ hmem))) (by simp)
    exact .closed (by rw [hn]) (h.fresh rfl).2 rfl (Finset.empty_subset _) hinbox (h.new hne)

/-- **The upper thread** keeps the invariant. -/
theorem Running.upper (h : Running req s set n) (hagg : Aggregated req)
    (htimely : Timely req s .upper) :
    ∃ set', Running req (upperStep req s).1 set' (n + (upperStep req s).2.toList.length) := by
  obtain ⟨room, mask, adjustMask, roomInfoMask, ops, lower, inbox, sent, answered⟩ := s
  have hphase : Phase req ops set sent := h.phase
  cases hphase with
  | loop done todo hids =>
    cases todo with
    | cons i todo =>
      have hi : i ∈ ids req := by
        rw [hids]
        simp
      have hnew : i ∉ done.toFinset := by
        have hnodup := hagg.nodup
        rw [hids, List.nodup_append] at hnodup
        exact fun hmem => hnodup.2.2 i (List.mem_toFinset.mp hmem) i (List.mem_cons_self ..) rfl
      exact ⟨_, h.set_bit (by simp [pair]) (hagg.lt i hi) hnew (.sending done todo i hids)⟩
    | nil =>
      rw [List.append_nil] at hids
      rcases hagg.tail with ht | ⟨ht, hne⟩
      · -- the check behind the loop
        rw [List.flatMap_nil, List.nil_append, ht] at h htimely ⊢
        by_cases hmask : mask = msgQueueRecFlg
        · have hnil : ids req = [] := by
            rw [← List.toFinset_eq_empty_iff, ← hagg.addressed]
            exact htimely hmask
          have hdone : done = [] := hids.symm.trans hnil
          simp only [upperStep, if_pos hmask]
          refine ⟨_, h.go_on (by simp) (by simp) (Finset.Subset.refl _) ?_⟩
          rw [hdone, List.toFinset_nil]
          exact .refusing hnil
        · have hne : ids req ≠ [] := by
            intro hnil
            refine hmask (h.fresh ?_).1
            rw [← hids, hnil, List.toFinset_nil]
          simp only [upperStep, if_neg hmask]
          refine ⟨_, h.go_on (by simp) (by simp) (Finset.Subset.refl _) ?_⟩
          rw [← hids]
          exact .adding hne
      · rw [List.flatMap_nil, List.nil_append, ht] at h ⊢
        refine ⟨_, h.add_node (by simp) ?_ ?_⟩
        · rwa [Ne, List.toFinset_eq_empty_iff, ← hids]
        · rw [← hids]
          exact .added hne
  | sending done todo i hids =>
    have hphase : Phase req (todo.flatMap pair ++ req.tail) (insert i done.toFinset)
        (insert i done.toFinset) := by
      have hloop : Phase req (todo.flatMap pair ++ req.tail) (done ++ [i]).toFinset
          (done ++ [i]).toFinset := .loop (done ++ [i]) todo (by simp [hids])
      simpa [Finset.union_comm] using hloop
    refine ⟨_, h.go_on (by simp) ?_ (Finset.subset_insert ..) hphase⟩
    rcases hagg.tail with ht | ⟨ht, -⟩ <;> simp [ht]
  | refusing hids => exact ⟨_, h.refuse rfl (.refused hids)⟩
  | adding hids =>
    refine ⟨_, h.add_node (by simp) ?_ (.added hids)⟩
    rwa [Ne, List.toFinset_eq_empty_iff]
  | refused hids | added hids => exact ⟨_, h⟩

/-- A stream with an unhandled answer has its bit. -/
theorem Running.mem_set (h : Running req s set n) {i : ℕ} (hi : i ∈ Room.unhandled s) : i ∈ set :=
  h.phase.sent_subset (h.answered (h.unhandled i hi))

/-- The lower thread at work has something to do with a bit. -/
theorem Running.set_ne_empty (h : Running req s set n) (hl : s.lower ≠ .idle) : set ≠ ∅ :=
  fun he => hl (h.fresh he).2

/-- When every bit is set and every answer handled, no answer is left. -/
theorem Running.inbox_eq_nil (h : Running req s set n)
    (hall : set ⊆ s.answered \ (Room.unhandled s).toFinset) : s.inbox = [] := by
  rw [List.eq_nil_iff_forall_not_mem]
  intro a ha
  have hmem : a.msgtype ∈ Room.unhandled s :=
    List.mem_map_of_mem (List.mem_append_right _ ha)
  have hnot := (Finset.mem_sdiff.mp (hall (h.mem_set hmem))).2
  exact hnot (List.mem_toFinset.mpr hmem)

/-- A step of the lower thread that takes no answer. -/
theorem Running.move (h : Running req s set n) {s' : State} {n' : ℕ} (hops : s'.ops = s.ops)
    (hsent : s'.sent = s.sent) (hans : s'.answered = s.answered)
    (hunhandled : (Room.unhandled s').Sublist (Room.unhandled s)) (hinbox : s'.inbox ⊆ s.inbox)
    (hlower : ∀ a, s'.lower.answer = some a → req.IsAnswer a) (hset : set ≠ ∅)
    (hsingle : Single req.code req.passKey req.userId s'.room.msgTimeQue.slots)
    (hnew : s'.ops ≠ [] → ¬ InQueue req s') (hstage : Stage req s' set n') :
    Running req s' set n' where
  phase := by
    rw [hops, hsent]
    exact h.phase
  answered := by
    rw [hans, hsent]
    exact h.answered
  unhandled := by
    rw [hans]
    exact fun i hi => h.unhandled i (hunhandled.subset hi)
  nodup := h.nodup.sublist hunhandled
  inbox := fun a ha => h.inbox a (hinbox ha)
  lower := hlower
  fresh := fun he => absurd he hset
  refused := fun _ he => absurd he hset
  single := hsingle
  new := hnew
  stage := hstage

/-- A step of the lower thread within an answer. -/
theorem Running.stay (h : Running req s set n) {l : Lower} {mask : Mask} {n' : ℕ}
    (hbusy : s.lower ≠ .idle) (hunhandled : l.unhandled = s.lower.unhandled)
    (hanswer : l.answer = s.lower.answer)
    (hstage : Stage req { s with lower := l, mask := mask } set n') :
    Running req { s with lower := l, mask := mask } set n' := by
  refine h.move rfl rfl rfl ?_ (List.Subset.refl _) ?_ (h.set_ne_empty hbusy) h.single h.new hstage
  · rw [Room.unhandled, Room.unhandled, hunhandled]
  · intro a ha
    exact h.lower a (hanswer ▸ ha)

/-- An answer that is handled leaves the mask. -/
theorem erase_sdiff {set answered rest : Finset ℕ} {m : ℕ} (hm : m ∈ answered) (hrest : m ∉ rest) :
    (set \ (answered \ insert m rest)).erase m = set \ (answered \ rest) := by
  ext i
  simp only [Finset.mem_erase, Finset.mem_sdiff, Finset.mem_insert, not_and, not_not, not_or]
  by_cases hi : i = m
  · subst hi
    simp [hm, hrest]
  · simp [hi]

/-- Busy and before the look at the mask, the lower thread collects. -/
theorem Stage.of_collecting (h : Stage req s set n) (hl : s.lower.Collecting) (hbusy : s.lower ≠ .idle) :
    n = 0 ∧ waiting s.mask = set \ (s.answered \ (Room.unhandled s).toFinset) := by
  cases h with
  | collecting hn _ hm _ => exact ⟨hn, hm⟩
  | responding _ hl' | closing _ hl' =>
    revert hl hl'
    cases s.lower <;> simp [Lower.Collecting, Lower.Responding, Lower.Closing]
  | closed _ hl' => exact absurd hl' hbusy

/-- About to respond, it has all answers. -/
theorem Stage.of_responding (h : Stage req s set n) (hl : s.lower.Responding) :
    n = 0 ∧ s.ops = [] ∧ set ⊆ s.answered ∧ s.inbox = [] := by
  cases h with
  | responding hn _ hops hall hinbox => exact ⟨hn, hops, hall, hinbox⟩
  | collecting _ hl' | closing _ hl' =>
    revert hl hl'
    cases s.lower <;> simp [Lower.Collecting, Lower.Responding, Lower.Closing]
  | closed _ hl' =>
    rw [hl'] at hl
    exact hl.elim

/-- When it has responded it has all answers, too. -/
theorem Stage.of_closing (h : Stage req s set n) (hl : s.lower.Closing) :
    n = 1 ∧ s.ops = [] ∧ set ⊆ s.answered ∧ s.inbox = [] := by
  cases h with
  | closing hn _ hops hall hinbox => exact ⟨hn, hops, hall, hinbox⟩
  | collecting _ hl' | responding _ hl' =>
    revert hl hl'
    cases s.lower <;> simp [Lower.Collecting, Lower.Responding, Lower.Closing]
  | closed _ hl' =>
    rw [hl'] at hl
    exact hl.elim

/-- An answer is taken. -/
theorem Running.idle_step (h : Running req s set n) (hagg : Aggregated req) (hl : s.lower = .idle) :
    Running req (lowerStep req s).1 set (n + (lowerStep req s).2.toList.length) := by
  obtain ⟨room, mask, adjustMask, roomInfoMask, ops, lower, inbox, sent, answered⟩ := s
  cases hl
  cases inbox with
  | nil => exact h
  | cons a inbox =>
    have ha : a.msgtype ∈ set := h.mem_set (List.mem_cons_self ..)
    have hstage := h.stage
    simp only [lowerStep, hagg.entry]
    refine h.move rfl rfl rfl (List.Sublist.refl _) (List.subset_cons_self ..) ?_
      (Finset.ne_empty_of_mem ha) h.single h.new ?_
    · rintro _ ⟨⟩
      exact h.inbox a (List.mem_cons_self ..)
    · cases hstage with
      | collecting hn hl hm hi => exact .collecting hn trivial hm (fun hidle => by cases hidle)
      | responding _ hl | closing _ hl => exact hl.elim
      | closed _ _ _ _ hinbox => cases hinbox

/-- Its bit is cleared. -/
theorem Running.clear_step {a : Answer} (h : Running req s set n) (hagg : Aggregated req)
    (hl : s.lower = .clear a) :
    Running req (lowerStep req s).1 set (n + (lowerStep req s).2.toList.length) := by
  obtain ⟨room, mask, adjustMask, roomInfoMask, ops, lower, inbox, sent, answered⟩ := s
  cases hl
  obtain ⟨hn, hm⟩ := h.stage.of_collecting trivial (by simp)
  have hset : a.msgtype ∈ set := h.mem_set (List.mem_cons_self ..)
  have hlt : a.msgtype < 24 := hagg.lt _ (List.mem_toFinset.mp (h.phase.set_subset hset))
  have hans : a.msgtype ∈ answered := h.unhandled _ (List.mem_cons_self ..)
  have hrest : a.msgtype ∉ (inbox.map Answer.msgtype).toFinset := by
    rw [List.mem_toFinset]
    exact (List.nodup_cons.mp h.nodup).1
  refine h.move rfl rfl rfl (List.sublist_cons_self ..) (List.Subset.refl _) h.lower
    (h.set_ne_empty (by simp)) h.single h.new ?_
  refine .collecting hn trivial ?_ fun hidle => by cases hidle
  calc waiting (mask &&& ~~~((1 : Mask) <<< a.msgtype))
      = (waiting mask).erase a.msgtype := waiting_clear mask (by omega)
    _ = (set \ (answered \ (a.msgtype :: inbox.map Answer.msgtype).toFinset)).erase
          a.msgtype := congrArg (fun w => w.erase a.msgtype) hm
    _ = set \ (answered \ (inbox.map Answer.msgtype).toFinset) := by
      rw [List.toFinset_cons]
      exact erase_sdiff hans hrest

/-- The thread looks whether all have answered. -/
theorem Running.test_step {a : Answer} (h : Running req s set n) (htimely : Timely req s .lower)
    (hl : s.lower = .test a) :
    Running req (lowerStep req s).1 set (n + (lowerStep req s).2.toList.length) := by
  obtain ⟨room, mask, adjustMask, roomInfoMask, ops, lower, inbox, sent, answered⟩ := s
  cases hl
  obtain ⟨hn, hm⟩ := h.stage.of_collecting trivial (by simp)
  simp only [lowerStep]
  split
  · -- all have answered, so the upper thread is through
    have hops : ops = [] := htimely ‹_›
    have hempty : waiting mask = ∅ := (isAllEncResp_iff mask).mp ‹_›
    have hall : set ⊆ answered \ (inbox.map Answer.msgtype).toFinset := by
      rw [← Finset.sdiff_eq_empty_iff_subset, ← hempty]
      exact hm.symm
    exact h.stay (by simp) rfl rfl
      (.responding hn trivial hops (hall.trans Finset.sdiff_subset) (h.inbox_eq_nil hall))
  · have hne : waiting mask ≠ ∅ := fun hempty => absurd ((isAllEncResp_iff mask).mpr hempty) ‹_›
    refine h.move rfl rfl rfl (List.Sublist.refl _) (List.Subset.refl _) ?_
      (h.set_ne_empty (by simp)) h.single h.new (.collecting hn trivial hm fun _ => .inr hne)
    exact fun _ ha => by cases ha

/-- The request is taken out of the queue. -/
theorem Running.delete_step {a : Answer} (h : Running req s set n) (htimely : Timely req s .lower)
    (hl : s.lower = .delete a) :
    Running req (lowerStep req s).1 set (n + (lowerStep req s).2.toList.length) := by
  obtain ⟨room, mask, adjustMask, roomInfoMask, ops, lower, inbox, sent, answered⟩ := s
  cases hl
  obtain ⟨hn, hops, hall, hinbox⟩ := h.stage.of_closing trivial
  obtain ⟨hcode, hkey, huser⟩ := h.lower a rfl
  have hgone : ¬ Pending req.code req.passKey req.userId
      (delNode room.msgTimeQue a.msgCode a.passKey (a.userId.getD [])).slots := by
    rw [hcode, hkey, huser]
    exact not_pending_delNode h.single (code_ne_login req) htimely.2
  refine h.move rfl rfl rfl (List.Sublist.refl _) (List.Subset.refl _) ?_
    (h.set_ne_empty (by simp)) (single_delNode h.single _) (fun _ => hgone)
    (.closed hn rfl hops hall hinbox hgone)
  exact fun _ ha => by cases ha

/-- **The lower thread** keeps the invariant. -/
theorem Running.lower_step (h : Running req s set n) (hagg : Aggregated req)
    (htimely : Timely req s .lower) :
    Running req (lowerStep req s).1 set (n + (lowerStep req s).2.toList.length) := by
  obtain ⟨room, mask, adjustMask, roomInfoMask, ops, lower, inbox, sent, answered⟩ := s
  have hstage := h.stage
  cases lower with
  | idle => exact h.idle_step hagg rfl
  | clear a => exact h.clear_step hagg rfl
  | flag a =>
    obtain ⟨hn, hm⟩ := hstage.of_collecting trivial (by simp)
    simp only [lowerStep]
    split
    · exact h.stay (by simp) rfl rfl (.collecting hn trivial hm fun hidle => by cases hidle)
    · exact h.stay (by simp) rfl rfl (.collecting hn trivial hm fun hidle => by cases hidle)
  | unflag a =>
    obtain ⟨hn, hm⟩ := hstage.of_collecting trivial (by simp)
    refine h.stay (by simp) rfl rfl (.collecting hn trivial ?_ fun hidle => by cases hidle)
    exact (waiting_setFlg mask false).trans hm
  | test a => exact h.test_step htimely rfl
  | value a | search a mask' =>
    obtain ⟨hn, hops, hall, hinbox⟩ := hstage.of_responding trivial
    exact h.stay (by simp) rfl rfl (.responding hn trivial hops hall hinbox)
  | respond a r =>
    obtain ⟨hn, hops, hall, hinbox⟩ := hstage.of_responding trivial
    exact h.stay (by simp) rfl rfl (.closing (by rw [hn]; rfl) trivial hops hall hinbox)
  | close a =>
    obtain ⟨hn, hops, hall, hinbox⟩ := hstage.of_closing trivial
    exact h.stay (by simp) rfl rfl (.closing hn trivial hops hall hinbox)
  | delete a => exact h.delete_step htimely rfl
  | forward a | clearMode a | testInfo a =>
    cases hstage with
    | collecting _ hl | responding _ hl | closing _ hl => exact hl.elim
    | closed _ hl => cases hl

/-- An answer that comes in leaves the mask as it is. -/
theorem sdiff_insert {set answered rest : Finset ℕ} {m : ℕ} (hm : m ∉ answered) :
    set \ (insert m answered \ insert m rest) = set \ (answered \ rest) := by
  ext i
  simp only [Finset.mem_sdiff, Finset.mem_insert, not_and, not_not, not_or]
  by_cases hi : i = m
  · subst hi
    simp [hm]
  · simp [hi]

/-- **An answer** keeps the invariant. -/
theorem Running.answer (h : Running req s set n) {a : Answer} (ha : req.IsAnswer a)
    (hsent : a.msgtype ∈ s.sent) (hnew : a.msgtype ∉ s.answered) :
    Running req { s with inbox := s.inbox ++ [a], answered := insert a.msgtype s.answered }
      set n := by
  have hset : a.msgtype ∈ set := h.phase.sent_subset hsent
  have hunhandled : (s.lower.unhandled ++ (s.inbox ++ [a])).map Answer.msgtype =
      Room.unhandled s ++ [a.msgtype] := by
    simp [Room.unhandled]
  refine ⟨h.phase, ?_, ?_, ?_, ?_, h.lower, h.fresh, h.refused, h.single, h.new, ?_⟩
  · exact Finset.insert_subset hsent h.answered
  · intro i hi
    rw [Room.unhandled, hunhandled, List.mem_append, List.mem_singleton] at hi
    rcases hi with hi | rfl
    · exact Finset.mem_insert_of_mem (h.unhandled i hi)
    · exact Finset.mem_insert_self ..
  · rw [Room.unhandled, hunhandled, List.nodup_append]
    refine ⟨h.nodup, List.nodup_singleton _, fun i hi j hj hij => hnew ?_⟩
    rw [← List.mem_singleton.mp hj, ← hij]
    exact h.unhandled i hi
  · intro b hb
    rcases List.mem_append.mp hb with hb | hb
    · exact h.inbox b hb
    · rw [List.mem_singleton.mp hb]
      exact ha
  · cases h.stage with
    | collecting hn hl hm hi =>
      refine .collecting hn hl ?_ hi
      have hunhandled' : (Room.unhandled { s with
          inbox := s.inbox ++ [a], answered := insert a.msgtype s.answered }).toFinset =
            insert a.msgtype (Room.unhandled s).toFinset := by
        rw [Room.unhandled, hunhandled, List.toFinset_append, List.toFinset_cons, List.toFinset_nil,
          Finset.union_insert, Finset.union_empty]
      rw [hm, hunhandled', sdiff_insert hnew]
    | responding _ _ _ hall | closing _ _ _ hall | closed _ _ _ hall =>
      exact absurd (hall hset) hnew

end Room

end ReachEdukit
