import ReachEdukit.Lib.Chain
import ReachEdukit.Lib.Run

/-!
# The timers of the encoder

`mid_timer` has twenty timers. Those that are not used are in a pool, those that are, in a queue by
the time they are due; both are linked lists through the same field of a timer. Creating a timer for
a function and argument that have one takes that one out of the queue and puts it in again.
`msg_timer_deal` takes the timers that are due from the front of the queue: each one goes back for its
next time, or to the pool when its loops are used up, and the functions are called afterwards.

Times are milliseconds in 32 bits. The answer of an operation is `none` when it would follow a null
pointer, write behind the twenty functions it collects, or not end.

## What is left out

The mutex, which makes each operation one step, and the semaphore that wakes the thread up. A wrong
argument of `mid_timer_create0` is only reported.

## Main definitions

* `msgTimerQueue`, `msgTimerDequeue`, `msgTimerAlloc`, `msgTimerFree` — moving a timer
* `midTimerCreate0`, `midTimerDelete0`, `msgTimerDeal` — the operations
* `Holds` — the queue and the pool, as lists
* `Life` — what has become of the timer for a function and argument since it was created last

## Main results

* `Holds.create`, `Holds.delete`, `Holds.deal` — what each operation does to the two lists
* `timers_hold` — in every run no timer is lost, and each is called when it is due and as often as it
  was created for
-/

namespace ReachEdukit

namespace Middle

open Chain

/-- `TIMER_POOL_SIZE`. -/
def timerPoolSize : ℕ := 20

/-- `HOUR_CLOCK_NUM`. -/
def hourClockNum : ℕ := 60 * 60 * 1000

/-- A timer, by the order in which `mid_timer_init` makes them. -/
abbrev Ptr := Fin timerPoolSize

/-- `msg_timer_t`, but for the pointer to the next one. -/
structure Timer (F X : Type) where
  /-- The function. -/
  func : F
  /-- Its argument. -/
  arg : X
  /-- How many times it is still called; `0` for always. -/
  loops : ℕ
  /-- The interval, in seconds. -/
  intval : ℕ
  /-- When it is due. -/
  clock : ℕ

/-- `timer_q_pool` and `timer_q_time`. -/
structure Timers (F X : Type) where
  /-- The pointers to the next timer. -/
  next : Ptr → Option Ptr
  /-- The timers. -/
  timer : Ptr → Timer F X
  /-- The first one of the pool. -/
  pool : Option Ptr
  /-- The first one of the queue. -/
  time : Option Ptr

variable {F X : Type}

/-- `mid_timer_init`: the timers hold whatever their memory held. -/
def Timers.init (memory : Ptr → Timer F X) : Timers F X where
  next p := if h : 0 < p.val then some ⟨p.val - 1, by omega⟩ else none
  timer := memory
  pool := some (Fin.last 19)
  time := none

/-- The loop at the front of `msg_timer_queue`: the first time behind `clock`. -/
def catchUp (intval clock : ℕ) : ℕ → ℕ → Option ℕ
  | 0, _ => none
  | fuel + 1, due =>
    if due ≤ clock then catchUp intval clock fuel ((due + intval * 1000) % 2 ^ 32) else some due

/-- The timer at `t` is set to `v`. -/
def Timers.set (s : Timers F X) (t : Ptr) (v : Timer F X) : Timers F X :=
  { s with timer := Function.update s.timer t v }

/-- `msg_timer_queue`. -/
def msgTimerQueue (t : Ptr) (clock : ℕ) (s : Timers F X) : Option (Timers F X) := do
  let due ← catchUp (s.timer t).intval clock (2 ^ 32) (s.timer t).clock
  let s := s.set t { s.timer t with clock := due }
  let place ← walk s.next (fun p => due < (s.timer p).clock) (timerPoolSize + 1) none s.time
  let links := relink (Function.update s.next t place.2) s.time place.1 (some t)
  return { s with next := links.1, time := links.2 }

/-- `msg_timer_alloc`. -/
def msgTimerAlloc (s : Timers F X) : Timers F X × Option Ptr :=
  match s.pool with
  | none => (s, none)
  | some t => ({ s with next := Function.update s.next t none, pool := s.next t }, some t)

/-- `msg_timer_free`. -/
def msgTimerFree (t : Option Ptr) (s : Timers F X) : Timers F X :=
  match t with
  | none => s
  | some t => { s with next := Function.update s.next t s.pool, pool := some t }

variable [DecidableEq F] [DecidableEq X]

/-- The timer is for the function and the argument. -/
def Timer.IsFor (func : F) (arg : X) (v : Timer F X) : Prop := v.func = func ∧ v.arg = arg

instance (func : F) (arg : X) (v : Timer F X) : Decidable (v.IsFor func arg) :=
  inferInstanceAs (Decidable (_ ∧ _))

/-- `msg_timer_dequeue`. -/
def msgTimerDequeue (func : F) (arg : X) (s : Timers F X) :
    Option (Timers F X × Option Ptr) := do
  let place ← walk s.next (fun p => (s.timer p).IsFor func arg) (timerPoolSize + 1) none s.time
  match place.2 with
  | none => return (s, none)
  | some t =>
    let links := relink s.next s.time place.1 (s.next t)
    return ({ s with next := links.1, time := links.2 }, some t)

/-- `mid_timer_create0`, when the clock is at `clock`. -/
def midTimerCreate0 (intval loops : ℕ) (func : F) (arg : X) (clock : ℕ) (s : Timers F X) :
    Option (Timers F X) := do
  let found ← msgTimerDequeue func arg s
  let found := if found.2 = none then msgTimerAlloc found.1 else found
  let t ← found.2
  msgTimerQueue t clock (found.1.set t ⟨func, arg, loops, intval, clock⟩)

/-- `mid_timer_delete0`. -/
def midTimerDelete0 (func : F) (arg : X) (s : Timers F X) : Option (Timers F X) := do
  let found ← msgTimerDequeue func arg s
  return msgTimerFree found.2 found.1

/-- The first timer of the queue, when it is due. -/
def Timers.firstDue (s : Timers F X) (clock : ℕ) : Option Ptr :=
  s.time.filter fun t => (s.timer t).clock ≤ clock

/-- One turn of the loop of `msg_timer_deal`, for the first timer of the queue. -/
def fire (t : Ptr) (clock : ℕ) (s : Timers F X) : Option (Timers F X) := do
  let found ← msgTimerDequeue (s.timer t).func (s.timer t).arg s
  let s := found.1
  if (s.timer t).loops = 0 then msgTimerQueue t clock s
  else
    let s := s.set t { s.timer t with loops := (s.timer t).loops - 1 }
    if 0 < (s.timer t).loops then msgTimerQueue t clock s else return msgTimerFree (some t) s

/-- The loop of `msg_timer_deal`, with room for so many more functions, and the functions that are
collected. -/
def expire (clock : ℕ) : ℕ → Timers F X → Option (Timers F X × List (F × X))
  | 0, s => if s.firstDue clock = none then some (s, []) else none
  | room + 1, s =>
    match s.firstDue clock with
    | none => some (s, [])
    | some t => do
      let s' ← fire t clock s
      let rest ← expire clock room s'
      return (rest.1, ((s.timer t).func, (s.timer t).arg) :: rest.2)

/-- What `msg_timer_deal` returns: how long its thread may sleep. -/
def Timers.remain (s : Timers F X) (clock : ℕ) : ℕ :=
  min hourClockNum (s.time.elim hourClockNum fun t => ((s.timer t).clock + 2 ^ 32 - clock) % 2 ^ 32)

/-- `msg_timer_deal`, when the clock is at `clock`: the functions that are called, and how long its
thread may sleep. -/
def msgTimerDeal (clock : ℕ) (s : Timers F X) : Option (Timers F X × List (F × X) × ℕ) :=
  (expire clock timerPoolSize s).map fun r => (r.1, r.2, r.1.remain clock)

/-! ### The two lists -/

/-- What a timer is for. -/
def Timer.key (v : Timer F X) : F × X := (v.func, v.arg)

omit [DecidableEq F] [DecidableEq X] in
theorem Timer.isFor_iff {func : F} {arg : X} {v : Timer F X} :
    v.IsFor func arg ↔ v.key = (func, arg) :=
  Prod.mk_inj.symm

/-- The queue is `active`, by the time its timers are due and with no two for the same, and the pool
is `free`; all timers are in one of them, but for those that an operation has in its `hand`. -/
structure Holds (s : Timers F X) (hand active free : List Ptr) : Prop where
  queue : Seg s.next s.time active none
  pool : Seg s.next s.pool free none
  all : (hand ++ (active ++ free)).Perm (List.finRange timerPoolSize)
  sorted : active.Pairwise fun t u => (s.timer t).clock ≤ (s.timer u).clock
  keys : active.Pairwise fun t u => (s.timer t).key ≠ (s.timer u).key
  intval : ∀ t ∈ active, 0 < (s.timer t).intval

/-- The interval of every timer can be added to the clock. -/
def Fits (s : Timers F X) (active : List Ptr) (clock : ℕ) : Prop :=
  ∀ t ∈ active, clock + (s.timer t).intval * 1000 < 2 ^ 32

/-- The loop at the front of `msg_timer_queue` ends for a timer. -/
def CatchesUp (v : Timer F X) (clock : ℕ) : Prop :=
  ∃ due, catchUp v.intval clock (2 ^ 32) v.clock = some due

/-- It ends for every timer that is due and goes back. -/
def Returns (s : Timers F X) (active : List Ptr) (clock : ℕ) : Prop :=
  ∀ t ∈ active, (s.timer t).clock ≤ clock → (s.timer t).loops ≠ 1 → CatchesUp (s.timer t) clock

/-- The functions of the timers that are due. -/
def dueKeys (s : Timers F X) (active : List Ptr) (clock : ℕ) : List (F × X) :=
  (active.filter fun u => (s.timer u).clock ≤ clock).map fun u => (s.timer u).key

/-- A timer for `key` is in the queue, with so many loops left. -/
def On (s : Timers F X) (active : List Ptr) (key : F × X) (loops : ℕ) : Prop :=
  ∃ t ∈ active, (s.timer t).key = key ∧ (s.timer t).loops = loops

variable {s s' : Timers F X} {t : Ptr} {active free pre post : List Ptr} {clock due : ℕ}

section Lists

omit [DecidableEq F] [DecidableEq X]

theorem Holds.nodup {hand : List Ptr} (h : Holds s hand active free) :
    (hand ++ (active ++ free)).Nodup :=
  h.all.nodup_iff.mpr (List.nodup_finRange _)

theorem Holds.length_le {hand : List Ptr} (h : Holds s hand active free) :
    active.length ≤ timerPoolSize := by
  have hlen := h.all.length_eq
  simp only [List.length_append, List.length_finRange] at hlen
  omega

theorem Holds.not_mem_free {hand : List Ptr} (h : Holds s hand active free) {u : Ptr}
    (hu : u ∈ active) : u ∉ free := fun hu' =>
  (List.nodup_append.mp (List.nodup_append.mp h.nodup).2.1).2.2 u hu u hu' rfl

theorem Holds.hand_not_mem (h : Holds s [t] active free) : t ∉ active ∧ t ∉ free := by
  have hnot := (List.nodup_cons.mp h.nodup).1
  simpa [not_or] using hnot

/-- What the timers are now may be read where only those of the queue count. -/
theorem Holds.congr {hand : List Ptr} (h : Holds s hand active free)
    (hnext : s'.next = s.next) (htime : s'.time = s.time) (hpool : s'.pool = s.pool)
    (htimer : ∀ u ∈ active, s'.timer u = s.timer u) : Holds s' hand active free where
  queue := by
    rw [hnext, htime]
    exact h.queue
  pool := by
    rw [hnext, hpool]
    exact h.pool
  all := h.all
  sorted := h.sorted.imp_of_mem fun ht hu hle => by rwa [htimer _ ht, htimer _ hu]
  keys := h.keys.imp_of_mem fun ht hu hne => by rwa [htimer _ ht, htimer _ hu]
  intval u hu := by
    rw [htimer u hu]
    exact h.intval u hu

@[simp] theorem set_timer (s : Timers F X) (t : Ptr) (v : Timer F X) :
    (s.set t v).timer = Function.update s.timer t v := rfl

theorem Holds.set (h : Holds s [t] active free) (v : Timer F X) :
    Holds (s.set t v) [t] active free := by
  refine h.congr rfl rfl rfl fun u hu => Function.update_of_ne ?_ ..
  rintro rfl
  exact h.hand_not_mem.1 hu

/-- **A timer is taken from the pool.** -/
theorem Holds.alloc (h : Holds s [] active (t :: free)) :
    (msgTimerAlloc s).2 = some t ∧ Holds (msgTimerAlloc s).1 [t] active free ∧
      (msgTimerAlloc s).1.timer = s.timer := by
  obtain ⟨hhead, hfree⟩ := h.pool
  have hall : (active ++ t :: free).Perm (List.finRange timerPoolSize) := h.all
  have halloc : msgTimerAlloc s =
      ({ s with next := Function.update s.next t none, pool := s.next t }, some t) := by
    rw [msgTimerAlloc, hhead]
  rw [halloc]
  have hne : ∀ u ∈ active ++ free, Function.update s.next t none u = s.next u := by
    intro u hu
    refine Function.update_of_ne ?_ ..
    rintro rfl
    have hnodup := h.nodup
    rw [List.nil_append, List.nodup_middle, List.nodup_cons] at hnodup
    exact hnodup.1 hu
  refine ⟨rfl, ⟨?_, ?_, ?_, h.sorted, h.keys, h.intval⟩, rfl⟩
  · exact h.queue.congr fun u hu => hne u (List.mem_append_left _ hu)
  · exact hfree.congr fun u hu => hne u (List.mem_append_right _ hu)
  · change (t :: (active ++ free)).Perm _
    exact List.perm_middle.symm.trans hall

/-- **A timer is put into the pool.** -/
theorem Holds.putBack (h : Holds s [t] active free) :
    Holds (msgTimerFree (some t) s) [] active (t :: free) := by
  have hne : ∀ u, u ≠ t → Function.update s.next t s.pool u = s.next u := fun u hu =>
    Function.update_of_ne hu ..
  refine ⟨?_, ⟨rfl, ?_⟩, List.perm_middle.trans h.all, h.sorted, h.keys, h.intval⟩
  · refine h.queue.congr fun u hu => hne u ?_
    rintro rfl
    exact h.hand_not_mem.1 hu
  · change Seg (Function.update s.next t s.pool) (Function.update s.next t s.pool t) free none
    rw [Function.update_self]
    refine h.pool.congr fun u hu => hne u ?_
    rintro rfl
    exact h.hand_not_mem.2 hu

/-- The first time behind the clock is one interval away from it at the most. -/
theorem catchUp_eq {intval fuel : ℕ} (hintval : 0 < intval) (hfits : clock + intval * 1000 < 2 ^ 32)
    (hpos : 0 < fuel) (hfuel : clock + 1 < due + fuel) :
    ∃ due', catchUp intval clock fuel due = some due' ∧ clock < due' := by
  induction fuel generalizing due with
  | zero => exact absurd hpos (Nat.lt_irrefl 0)
  | succ fuel ih =>
    rw [catchUp]
    split_ifs with hdue
    · rw [Nat.mod_eq_of_lt (by omega)]
      exact ih (by omega) (by omega)
    · exact ⟨due, rfl, by omega⟩

theorem catchUp_lt {intval fuel due' : ℕ} (h : catchUp intval clock fuel due = some due') :
    clock < due' := by
  induction fuel generalizing due with
  | zero => exact absurd h (by simp [catchUp])
  | succ fuel ih =>
    rw [catchUp] at h
    split_ifs at h with hdue
    · exact ih h
    · obtain rfl := Option.some.inj h
      exact Nat.lt_of_not_le hdue

theorem catchesUp_of_fits {v : Timer F X} (hintval : 0 < v.intval)
    (hfits : clock + v.intval * 1000 < 2 ^ 32) : CatchesUp v clock := by
  obtain ⟨due, hdue, -⟩ := @catchUp_eq clock v.clock _ (2 ^ 32) hintval hfits (by norm_num) (by omega)
  exact ⟨due, hdue⟩

theorem Fits.returns {hand : List Ptr} (hfits : Fits s active clock) (h : Holds s hand active free) :
    Returns s active clock := fun t ht _ _ => catchesUp_of_fits (h.intval t ht) (hfits t ht)

/-- A list that goes up splits at a bound. -/
theorem exists_split {f : Ptr → ℕ} {l : List Ptr} (h : l.Pairwise fun t u => f t ≤ f u) (b : ℕ) :
    ∃ pre post, l = pre ++ post ∧ (∀ u ∈ pre, f u ≤ b) ∧ ∀ u ∈ post, b < f u := by
  induction l with
  | nil => exact ⟨[], [], rfl, by simp, by simp⟩
  | cons a l ih =>
    obtain ⟨ha, hl⟩ := List.pairwise_cons.mp h
    rcases le_or_gt (f a) b with hab | hab
    · obtain ⟨pre, post, rfl, hpre, hpost⟩ := ih hl
      exact ⟨a :: pre, post, rfl, List.forall_mem_cons.mpr ⟨hab, hpre⟩, hpost⟩
    · refine ⟨[], a :: l, rfl, by simp, List.forall_mem_cons.mpr ⟨hab, fun u hu => ?_⟩⟩
      exact lt_of_lt_of_le hab (ha u hu)

theorem pairwise_insert {R : Ptr → Ptr → Prop} (h : (pre ++ post).Pairwise R)
    (hpre : ∀ u ∈ pre, R u t) (hpost : ∀ u ∈ post, R t u) : (pre ++ t :: post).Pairwise R := by
  obtain ⟨hl, hr, hlr⟩ := List.pairwise_append.mp h
  refine List.pairwise_append.mpr ⟨hl, List.pairwise_cons.mpr ⟨hpost, hr⟩, fun u hu w hw => ?_⟩
  rcases List.mem_cons.mp hw with rfl | hw
  · exact hpre u hu
  · exact hlr u hu w hw

/-- The same for a relation of the timers, when the one that is put in is changed. -/
theorem pairwise_insert_update {R : Timer F X → Timer F X → Prop} {timer : Ptr → Timer F X}
    {v : Timer F X} (hold : (pre ++ post).Pairwise fun u w => R (timer u) (timer w))
    (hother : ∀ u ∈ pre ++ post, Function.update timer t v u = timer u)
    (hpre : ∀ u ∈ pre, R (timer u) v) (hpost : ∀ u ∈ post, R v (timer u)) :
    (pre ++ t :: post).Pairwise fun u w =>
      R (Function.update timer t v u) (Function.update timer t v w) := by
  refine pairwise_insert (hold.imp_of_mem fun hu hw hle => ?_) (fun u hu => ?_) fun u hu => ?_
  · rwa [hother _ hu, hother _ hw]
  · rw [hother u (List.mem_append_left _ hu), Function.update_self]
    exact hpre u hu
  · rw [hother u (List.mem_append_right _ hu), Function.update_self]
    exact hpost u hu

/-- **A timer is put into the queue**, behind those that are due no later. -/
theorem Holds.enqueue (h : Holds s [t] active free) (hintval : 0 < (s.timer t).intval)
    (hkey : ∀ u ∈ active, (s.timer u).key ≠ (s.timer t).key)
    (hdue : catchUp (s.timer t).intval clock (2 ^ 32) (s.timer t).clock = some due) :
    ∃ s' pre post, active = pre ++ post ∧ msgTimerQueue t clock s = some s' ∧
      Holds s' [] (pre ++ t :: post) free ∧
      s'.timer = Function.update s.timer t { s.timer t with clock := due } := by
  obtain ⟨hactive, hfree⟩ := h.hand_not_mem
  obtain ⟨pre, post, rfl, hpre, hpost⟩ := exists_split h.sorted due
  obtain ⟨q, hsegpre, hsegpost⟩ := seg_append.mp h.queue
  obtain ⟨v, hv⟩ : ∃ v, { s.timer t with clock := due } = v := ⟨_, rfl⟩
  have hother : ∀ u ∈ pre ++ post, Function.update s.timer t v u = s.timer u := by
    intro u hu
    refine Function.update_of_ne ?_ ..
    rintro rfl
    exact hactive hu
  have hwalk : walk (s.set t v).next (fun p => due < ((s.set t v).timer p).clock)
      (timerPoolSize + 1) none (s.set t v).time = some (pre.getLast?, q) := by
    change walk s.next _ _ _ s.time = _
    rw [walk_eq hsegpre hsegpost, Option.or_none]
    · intro u hu
      rw [set_timer, hother u (List.mem_append_left _ hu)]
      exact decide_eq_false (Nat.not_lt.mpr (hpre u hu))
    · intro u hu
      rw [set_timer, hother u (List.mem_append_right _ (List.mem_of_mem_head? hu))]
      exact decide_eq_true (hpost u (List.mem_of_mem_head? hu))
    · have hlen := h.length_le
      rw [List.length_append] at hlen
      omega
  let links := relink (Function.update s.next t q) s.time pre.getLast? (some t)
  refine ⟨{ s.set t v with next := links.1, time := links.2 }, pre, post, rfl, ?_,
    ⟨hsegpre.insert hsegpost hactive, ?_, ?_, ?_, ?_, ?_⟩, by rw [hv]; rfl⟩
  · rw [msgTimerQueue, hdue, Option.bind_eq_bind, Option.bind_some, hv]
    change (walk _ _ _ _ _).bind _ = _
    rw [hwalk]
    rfl
  · refine h.pool.congr fun u hu => ?_
    change links.1 u = s.next u
    rw [relink_of_ne, Function.update_of_ne]
    · rintro rfl
      exact hfree hu
    · refine getLast?_ne_some fun hu' => ?_
      exact h.not_mem_free (List.mem_append_left _ hu') hu
  · have hall : (t :: (pre ++ post ++ free)).Perm (List.finRange timerPoolSize) := h.all
    change (pre ++ t :: post ++ free).Perm _
    rw [List.append_assoc, List.cons_append]
    refine List.perm_middle.trans ?_
    rwa [← List.append_assoc]
  · exact pairwise_insert_update (R := fun a b => a.clock ≤ b.clock) h.sorted hother
      (by rw [← hv]; exact hpre) (by rw [← hv]; exact fun u hu => (hpost u hu).le)
  · have hkeyV : v.key = (s.timer t).key := by
      rw [← hv]
      rfl
    refine pairwise_insert_update (R := fun a b => a.key ≠ b.key) h.keys hother ?_ ?_
    · rw [hkeyV]
      exact fun u hu => hkey u (List.mem_append_left _ hu)
    · rw [hkeyV]
      exact fun u hu => (hkey u (List.mem_append_right _ hu)).symm
  · intro u hu
    change 0 < (Function.update s.timer t v u).intval
    rcases List.mem_cons.mp (List.perm_middle.mem_iff.mp hu) with rfl | hu
    · rw [Function.update_self, ← hv]
      exact hintval
    · rw [hother u hu]
      exact h.intval u hu

theorem on_cons {key : F × X} {loops : ℕ} : On s (t :: active) key loops ↔
    (s.timer t).key = key ∧ (s.timer t).loops = loops ∨ On s active key loops := by
  simp [On]

theorem on_perm {active' : List Ptr} (h : active.Perm active') {key : F × X} {loops : ℕ} :
    On s active key loops ↔ On s active' key loops := by
  simp only [On, h.mem_iff]

theorem on_congr (h : ∀ u ∈ active, s'.timer u = s.timer u) {key : F × X} {loops : ℕ} :
    On s' active key loops ↔ On s active key loops := by
  refine exists_congr fun u => and_congr_right fun hu => ?_
  rw [h u hu]

theorem dueKeys_congr (h : ∀ u ∈ active, s'.timer u = s.timer u) (clock : ℕ) :
    dueKeys s' active clock = dueKeys s active clock := by
  have hfilter : (active.filter fun u => (s'.timer u).clock ≤ clock) =
      active.filter fun u => (s.timer u).clock ≤ clock :=
    List.filter_congr fun u hu => by rw [h u hu]
  rw [dueKeys, dueKeys, hfilter]
  refine List.map_congr_left fun u hu => ?_
  rw [h u (List.mem_of_mem_filter hu)]

theorem returns_congr (h : ∀ u ∈ active, s'.timer u = s.timer u) :
    Returns s' active clock ↔ Returns s active clock := by
  refine forall₂_congr fun u hu => ?_
  rw [h u hu]

theorem not_on {key : F × X} (h : ∀ u ∈ active, (s.timer u).key ≠ key) (loops : ℕ) :
    ¬ On s active key loops := by
  rintro ⟨u, hu, hkey, -⟩
  exact h u hu hkey

/-- No other timer of the queue is for the same. -/
theorem Holds.key_ne {hand : List Ptr} (h : Holds s hand (pre ++ t :: post) free) :
    ∀ u ∈ pre ++ post, (s.timer u).key ≠ (s.timer t).key := by
  obtain ⟨-, hright, hcross⟩ := List.pairwise_append.mp h.keys
  intro u hu
  rcases List.mem_append.mp hu with hu | hu
  · exact hcross u hu t (List.mem_cons_self ..)
  · exact ((List.pairwise_cons.mp hright).1 u hu).symm

/-- A timer that is for nothing else in the queue is put into it. -/
theorem Holds.enqueue_on (h : Holds s [t] active free) (hintval : 0 < (s.timer t).intval)
    (hkey : ∀ u ∈ active, (s.timer u).key ≠ (s.timer t).key)
    (hends : CatchesUp (s.timer t) clock) :
    ∃ s' active', msgTimerQueue t clock s = some s' ∧ Holds s' [] active' free ∧
      (∀ key loops, On s' active' key loops ↔
        (s.timer t).key = key ∧ (s.timer t).loops = loops ∨ On s active key loops) ∧
      dueKeys s' active' clock = dueKeys s active clock ∧
      (Returns s' active' clock ↔ Returns s active clock) := by
  obtain ⟨due, hdue⟩ := hends
  obtain ⟨s', pre, post, rfl, heq, hs', htimer⟩ := h.enqueue hintval hkey hdue
  have hlt := catchUp_lt hdue
  have hother : ∀ u ∈ pre ++ post, s'.timer u = s.timer u := by
    intro u hu
    rw [htimer, Function.update_of_ne]
    rintro rfl
    exact h.hand_not_mem.1 hu
  have hself : s'.timer t = { s.timer t with clock := due } := by rw [htimer, Function.update_self]
  refine ⟨s', pre ++ t :: post, heq, hs', fun key loops => ?_, ?_, ?_⟩
  · rw [on_perm List.perm_middle, on_cons, on_congr hother, hself]
    rfl
  · rw [← dueKeys_congr hother]
    simp only [dueKeys, List.filter_append, List.map_append]
    rw [List.filter_cons_of_neg (by rw [hself]; simpa)]
  · rw [← returns_congr hother]
    constructor
    · exact fun hall u hu => hall u (List.perm_middle.mem_iff.mpr (List.mem_cons_of_mem _ hu))
    · -- The timer itself is not due any more.
      intro hall u hu
      rcases List.mem_cons.mp (List.perm_middle.mem_iff.mp hu) with rfl | hu
      · rw [hself]
        exact fun hle => absurd hle (Nat.not_le.mpr hlt)
      · exact hall u hu

end Lists

/-- **A timer is taken out of the queue.** -/
theorem Holds.dequeue {func : F} {arg : X} (h : Holds s [] (pre ++ t :: post) free)
    (hkey : (s.timer t).key = (func, arg)) :
    ∃ s', msgTimerDequeue func arg s = some (s', some t) ∧ Holds s' [t] (pre ++ post) free ∧
      s'.timer = s.timer := by
  obtain ⟨q, hpre, hpost⟩ := seg_append.mp h.queue
  obtain ⟨rfl, -⟩ := id hpost
  have hwalk : walk s.next (fun p => (s.timer p).IsFor func arg) (timerPoolSize + 1) none
      s.time = some (pre.getLast?, some t) := by
    rw [walk_eq hpre hpost, Option.or_none]
    · intro u hu
      rw [decide_eq_false_iff_not, Timer.isFor_iff, ← hkey]
      exact h.key_ne u (List.mem_append_left _ hu)
    · rintro u ⟨rfl⟩
      exact decide_eq_true (Timer.isFor_iff.mpr hkey)
    · have hlen := h.length_le
      rw [List.length_append] at hlen
      omega
  let links := relink s.next s.time pre.getLast? (s.next t)
  have hsub : (pre ++ post).Sublist (pre ++ t :: post) :=
    (List.Sublist.refl pre).append (List.sublist_cons_self t post)
  refine ⟨{ s with next := links.1, time := links.2 }, ?_, ⟨h.queue.remove, ?_, ?_,
    h.sorted.sublist hsub, h.keys.sublist hsub, fun u hu => h.intval u (hsub.subset hu)⟩, rfl⟩
  · rw [msgTimerDequeue, Option.bind_eq_bind, hwalk]
    rfl
  · refine h.pool.congr fun u hu => relink_of_ne (getLast?_ne_some fun hu' => ?_)
    exact h.not_mem_free (List.mem_append_left _ hu') hu
  · have hall : (pre ++ t :: post ++ free).Perm (List.finRange timerPoolSize) := h.all
    refine List.Perm.trans ?_ hall
    change (t :: (pre ++ post ++ free)).Perm _
    rw [List.append_assoc, List.append_assoc, List.cons_append]
    exact List.perm_middle.symm

/-- When there is no timer for it, none is taken out. -/
theorem Holds.dequeue_none {func : F} {arg : X} (h : Holds s [] active free)
    (hkey : ∀ u ∈ active, (s.timer u).key ≠ (func, arg)) :
    msgTimerDequeue func arg s = some (s, none) := by
  have hwalk : walk s.next (fun p => (s.timer p).IsFor func arg) (timerPoolSize + 1) none
      s.time = some (active.getLast?, none) := by
    rw [walk_eq h.queue (seg_nil.mpr rfl), Option.or_none]
    · intro u hu
      rw [decide_eq_false_iff_not, Timer.isFor_iff]
      exact hkey u hu
    · simp
    · have hlen := h.length_le
      omega
  rw [msgTimerDequeue, Option.bind_eq_bind, hwalk]
  rfl

/-! ### The operations -/

omit [DecidableEq F] [DecidableEq X] in
/-- The queue without the timer for a key. -/
theorem on_middle {key : F × X} (h : Holds s [] (pre ++ t :: post) free) {loops : ℕ} :
    On s (pre ++ post) key loops ↔ key ≠ (s.timer t).key ∧ On s (pre ++ t :: post) key loops := by
  rw [on_perm List.perm_middle, on_cons]
  constructor
  · rintro ⟨u, hu, rfl, rfl⟩
    exact ⟨h.key_ne u hu, Or.inr ⟨u, hu, rfl, rfl⟩⟩
  · rintro ⟨hne, hon⟩
    exact hon.resolve_left fun hkey => hne hkey.1.symm

/-- The timer that is created: the one that is for the same now, or the first of the pool. The queue is
left without it. -/
theorem Holds.take {func : F} {arg : X} (h : Holds s [] active free)
    (hroom : (∃ u ∈ active, (s.timer u).key = (func, arg)) ∨ free ≠ []) :
    ∃ found s' t active' free', msgTimerDequeue func arg s = some found ∧
      (if found.2 = none then msgTimerAlloc found.1 else found) = (s', some t) ∧
      Holds s' [t] active' free' ∧
      (∀ key n, On s' active' key n ↔ key ≠ (func, arg) ∧ On s active key n) ∧
      s'.timer = s.timer ∧ active.filter (· ≠ t) = active' ∧
      (t ∈ active ∧ free' = free ∨ t ∉ active ∧ free = t :: free') := by
  by_cases hused : ∃ u ∈ active, (s.timer u).key = (func, arg)
  · obtain ⟨t, ht, hkey⟩ := hused
    obtain ⟨pre, post, rfl⟩ := List.append_of_mem ht
    obtain ⟨s', hdequeue, hs', htimer⟩ := h.dequeue hkey
    have hnot := hs'.hand_not_mem.1
    refine ⟨_, s', t, pre ++ post, free, hdequeue, rfl, hs', fun key n => ?_, htimer, ?_,
      Or.inl ⟨ht, rfl⟩⟩
    · rw [on_congr fun u _ => congrFun htimer u, on_middle h, hkey]
    · rw [List.filter_append, List.filter_cons_of_neg (by simp), ← List.filter_append]
      refine List.filter_eq_self.mpr fun u hu => decide_eq_true ?_
      rintro rfl
      exact hnot hu
  · have hkeys : ∀ u ∈ active, (s.timer u).key ≠ (func, arg) := fun u hu hkey =>
      hused ⟨u, hu, hkey⟩
    obtain ⟨t, free, rfl⟩ := List.exists_cons_of_ne_nil (hroom.resolve_left hused)
    obtain ⟨halloc, hs', htimer⟩ := h.alloc
    refine ⟨_, (msgTimerAlloc s).1, t, active, free, h.dequeue_none hkeys,
      Prod.ext rfl halloc, hs', fun key n => ?_, htimer, ?_, Or.inr ⟨hs'.hand_not_mem.1, rfl⟩⟩
    · rw [on_congr fun u _ => congrFun htimer u]
      refine ⟨fun hon => ⟨?_, hon⟩, fun hon => hon.2⟩
      rintro rfl
      exact not_on hkeys n hon
    · refine List.filter_eq_self.mpr fun u hu => decide_eq_true ?_
      rintro rfl
      exact hs'.hand_not_mem.1 hu

/-- **Creating a timer** for a key: the one that is for it now is gone, and the new one is in the
queue. -/
theorem Holds.create {intval : ℕ} (loops : ℕ) {func : F} {arg : X} (h : Holds s [] active free)
    (hroom : (∃ u ∈ active, (s.timer u).key = (func, arg)) ∨ free ≠ []) (hintval : 0 < intval)
    (hfits : clock + intval * 1000 < 2 ^ 32) :
    ∃ s' active' free', midTimerCreate0 intval loops func arg clock s = some s' ∧
      Holds s' [] active' free' ∧ ∀ key n, On s' active' key n ↔
        if key = (func, arg) then n = loops else On s active key n := by
  obtain ⟨found, s₁, t, rest, free', hdequeue, hfound, hs₁, hon, -⟩ := h.take hroom
  obtain ⟨v, hv⟩ : ∃ v : Timer F X, ⟨func, arg, loops, intval, clock⟩ = v := ⟨_, rfl⟩
  have hself : (s₁.set t v).timer t = v := Function.update_self ..
  have hother : ∀ u ∈ rest, (s₁.set t v).timer u = s₁.timer u := by
    intro u hu
    refine Function.update_of_ne ?_ ..
    rintro rfl
    exact hs₁.hand_not_mem.1 hu
  have hkeys : ∀ u ∈ rest, ((s₁.set t v).timer u).key ≠ ((s₁.set t v).timer t).key := by
    intro u hu
    rw [hother u hu, hself, ← hv]
    exact fun hkey => ((hon _ _).mp ⟨u, hu, rfl, rfl⟩).1 hkey
  have hends : CatchesUp ((s₁.set t v).timer t) clock := by
    rw [hself, ← hv]
    exact catchesUp_of_fits hintval hfits
  obtain ⟨s', active', heq, hs', hon', -⟩ := (hs₁.set v).enqueue_on
    (by rw [hself, ← hv]; exact hintval) hkeys hends
  refine ⟨s', active', free', ?_, hs', fun key n => ?_⟩
  · rw [midTimerCreate0, hdequeue, Option.bind_eq_bind, Option.bind_some, hfound, hv]
    exact heq
  · rw [hon', on_congr hother, hon, hself, ← hv]
    split_ifs with hkey
    · subst hkey
      simp [Timer.key, eq_comm]
    · simp [Timer.key, hkey, eq_comm]

/-- **Deleting a timer.** -/
theorem Holds.delete (func : F) (arg : X) (h : Holds s [] active free) :
    ∃ s' active' free', midTimerDelete0 func arg s = some s' ∧ Holds s' [] active' free' ∧
      ∀ key n, On s' active' key n ↔ key ≠ (func, arg) ∧ On s active key n := by
  by_cases hused : ∃ u ∈ active, (s.timer u).key = (func, arg)
  · obtain ⟨t, ht, hkey⟩ := hused
    obtain ⟨pre, post, rfl⟩ := List.append_of_mem ht
    obtain ⟨s', hdequeue, hs', htimer⟩ := h.dequeue hkey
    refine ⟨msgTimerFree (some t) s', pre ++ post, t :: free, ?_, hs'.putBack, fun key n => ?_⟩
    · rw [midTimerDelete0, hdequeue]
      rfl
    · have hsame : ∀ u ∈ pre ++ post, (msgTimerFree (some t) s').timer u = s.timer u := fun u _ =>
        congrFun htimer u
      rw [on_congr hsame, on_middle h, hkey]
  · have hkeys : ∀ u ∈ active, (s.timer u).key ≠ (func, arg) := fun u hu hkey =>
      hused ⟨u, hu, hkey⟩
    refine ⟨s, active, free, ?_, h, fun key n => ⟨fun hon => ⟨?_, hon⟩, fun hon => hon.2⟩⟩
    · rw [midTimerDelete0, h.dequeue_none hkeys]
      rfl
    · rintro rfl
      exact not_on hkeys n hon

/-- The timer that was first in the queue of `s`, and has been changed since, goes back. -/
theorem Holds.goBack {s₁ : Timers F X} {loops : ℕ} (h : Holds s [] (t :: active) free)
    (hs₁ : Holds s₁ [t] active free) (hother : ∀ u ∈ active, s₁.timer u = s.timer u)
    (hself : s₁.timer t = { s.timer t with loops := loops })
    (hends : CatchesUp (s.timer t) clock) :
    ∃ s' active', msgTimerQueue t clock s₁ = some s' ∧ Holds s' [] active' free ∧
      (∀ key n, On s' active' key n ↔
        if key = (s.timer t).key then n = loops else On s (t :: active) key n) ∧
      dueKeys s' active' clock = dueKeys s active clock ∧
      (Returns s' active' clock ↔ Returns s active clock) := by
  have hfirst : Holds s [] ([] ++ t :: active) free := h
  have hkeys : ∀ u ∈ active, (s.timer u).key ≠ (s.timer t).key := hfirst.key_ne
  have hends' : CatchesUp (s₁.timer t) clock := by
    rw [hself]
    exact hends
  obtain ⟨s', active', heq, hs', hon, hdue, hreturns⟩ := hs₁.enqueue_on
    (by rw [hself]; exact h.intval t (List.mem_cons_self ..))
    (fun u hu => by rw [hother u hu, hself]; exact hkeys u hu) hends'
  refine ⟨s', active', heq, hs', fun key n => ?_, hdue.trans (dueKeys_congr hother clock),
    hreturns.trans (returns_congr hother)⟩
  · rw [hon, on_congr hother, hself]
    split_ifs with hkey
    · subst hkey
      rw [or_iff_left (not_on hkeys n)]
      exact (and_iff_right rfl).trans eq_comm
    · rw [on_cons, or_iff_right fun h => hkey h.1.symm, or_iff_right fun h => hkey h.1.symm]

/-- **A timer that is due**: it goes back for its next time, or to the pool with its last loop. -/
theorem Holds.fire (h : Holds s [] (t :: active) free)
    (hends : (s.timer t).loops ≠ 1 → CatchesUp (s.timer t) clock) :
    ∃ s' active' free', Middle.fire t clock s = some s' ∧ Holds s' [] active' free' ∧
      (∀ key n, On s' active' key n ↔
        if key = (s.timer t).key then (s.timer t).loops ≠ 1 ∧ n = (s.timer t).loops - 1
        else On s (t :: active) key n) ∧
      dueKeys s' active' clock = dueKeys s active clock ∧
      (Returns s' active' clock ↔ Returns s active clock) := by
  have hfirst : Holds s [] ([] ++ t :: active) free := h
  obtain ⟨s₁, hdequeue, hs₁, htimer⟩ := hfirst.dequeue rfl
  obtain ⟨v, hv⟩ : ∃ v, { s.timer t with loops := (s.timer t).loops - 1 } = v := ⟨_, rfl⟩
  have hfire : Middle.fire t clock s = (if (s.timer t).loops = 0 then msgTimerQueue t clock s₁
      else if 0 < v.loops then msgTimerQueue t clock (s₁.set t v)
      else some (msgTimerFree (some t) (s₁.set t v))) := by
    rw [Middle.fire, Option.bind_eq_bind, hdequeue, Option.bind_some]
    simp only [set_timer, Function.update_self, htimer]
    subst hv
    rfl
  have hother : ∀ u ∈ active, (s₁.set t v).timer u = s.timer u := by
    intro u hu
    rw [set_timer, Function.update_of_ne, htimer]
    rintro rfl
    exact hs₁.hand_not_mem.1 hu
  have hself : (s₁.set t v).timer t = { s.timer t with loops := (s.timer t).loops - 1 } := by
    rw [set_timer, Function.update_self, hv]
  rw [hfire]
  split_ifs with hzero hmore
  · have hself₁ : s₁.timer t = { s.timer t with loops := 0 } := by rw [htimer, ← hzero]
    obtain ⟨s', active', heq, hs', hon, hrest⟩ :=
      h.goBack hs₁ (fun u _ => congrFun htimer u) hself₁ (hends (by omega))
    refine ⟨s', active', free, heq, hs', fun key n => ?_, hrest⟩
    rw [hon, hzero]
    simp
  · have hne : (s.timer t).loops ≠ 1 := by
      rw [← hv] at hmore
      change 0 < (s.timer t).loops - 1 at hmore
      omega
    obtain ⟨s', active', heq, hs', hon, hrest⟩ := h.goBack (hs₁.set v) hother hself (hends hne)
    refine ⟨s', active', free, heq, hs', fun key n => ?_, hrest⟩
    rw [hon]
    simp [hne]
  · have hone : (s.timer t).loops = 1 := by
      rw [← hv] at hmore
      change ¬ 0 < (s.timer t).loops - 1 at hmore
      omega
    have hsame : ∀ u ∈ active, (msgTimerFree (some t) (s₁.set t v)).timer u = s.timer u := hother
    refine ⟨_, active, t :: free, rfl, (hs₁.set v).putBack, fun key n => ?_,
      dueKeys_congr hsame clock, returns_congr hsame⟩
    have hmiddle : On s active key n ↔ _ := on_middle hfirst
    rw [on_congr hsame, hmiddle, hone]
    split_ifs with hkey
    · simp [hkey]
    · exact and_iff_right hkey

omit [DecidableEq F] [DecidableEq X] in
/-- The first timer is due, or none is. -/
theorem Holds.firstDue_cases (h : Holds s [] active free) :
    s.firstDue clock = none ∧ (∀ u ∈ active, clock < (s.timer u).clock) ∨
      ∃ t rest, active = t :: rest ∧ s.firstDue clock = some t ∧ (s.timer t).clock ≤ clock := by
  have htime := h.queue.eq_head?
  rcases active with _ | ⟨t, rest⟩
  · left
    rw [Timers.firstDue, htime]
    exact ⟨rfl, by simp⟩
  · rw [Timers.firstDue, htime, List.head?_cons, Option.filter_some]
    by_cases hdue : (s.timer t).clock ≤ clock
    · exact Or.inr ⟨t, rest, rfl, by simp [hdue], hdue⟩
    · refine Or.inl ⟨by simp [hdue], List.forall_mem_cons.mpr ⟨by omega, fun u hu => ?_⟩⟩
      have hle := (List.pairwise_cons.mp h.sorted).1 u hu
      omega

omit [DecidableEq F] [DecidableEq X] in
theorem dueKeys_of_late (h : ∀ u ∈ active, clock < (s.timer u).clock) :
    dueKeys s active clock = [] := by
  have hfilter : (active.filter fun u => (s.timer u).clock ≤ clock) = [] :=
    List.filter_eq_nil_iff.mpr fun u hu => by simpa using h u hu
  rw [dueKeys, hfilter, List.map_nil]

omit [DecidableEq F] [DecidableEq X] in
theorem dueKeys_cons (h : (s.timer t).clock ≤ clock) :
    dueKeys s (t :: active) clock = (s.timer t).key :: dueKeys s active clock := by
  rw [dueKeys, List.filter_cons_of_pos (by simpa using h), List.map_cons]
  rfl

omit [DecidableEq F] [DecidableEq X] in
theorem not_mem_dueKeys {key : F × X} (h : ∀ u ∈ active, (s.timer u).key ≠ key) :
    key ∉ dueKeys s active clock := by
  intro hmem
  obtain ⟨u, hu, hkey⟩ := List.mem_map.mp hmem
  exact h u (List.mem_of_mem_filter hu) hkey

theorem expire_of_late {room : ℕ} (h : s.firstDue clock = none) :
    Middle.expire clock room s = some (s, []) := by
  rcases room with _ | room
  · rw [Middle.expire, if_pos h]
  · rw [Middle.expire, h]

/-- **The timers that are due** are called once, each one, and no timer is left that is due. -/
theorem Holds.expire {room : ℕ} (h : Holds s [] active free) (hreturns : Returns s active clock)
    (hroom : (dueKeys s active clock).length ≤ room) :
    ∃ s' active' free', Middle.expire clock room s = some (s', dueKeys s active clock) ∧
      Holds s' [] active' free' ∧ (∀ u ∈ active', clock < (s'.timer u).clock) ∧
      ∀ key n, On s' active' key n ↔
        if key ∈ dueKeys s active clock then ∃ m, On s active key m ∧ m ≠ 1 ∧ n = m - 1
        else On s active key n := by
  induction room generalizing s active free with
  | zero =>
    rcases h.firstDue_cases with ⟨hfirst, hlate⟩ | ⟨t, rest, rfl, -, hdue⟩
    · refine ⟨s, active, free, ?_, h, hlate, fun key n => ?_⟩
      · rw [expire_of_late hfirst, dueKeys_of_late hlate]
      · rw [dueKeys_of_late hlate, if_neg (List.not_mem_nil)]
    · rw [dueKeys_cons hdue] at hroom
      exact absurd hroom (by simp)
  | succ room ih =>
    rcases h.firstDue_cases with ⟨hfirst, hlate⟩ | ⟨t, rest, rfl, hfirst, hdue⟩
    · refine ⟨s, active, free, ?_, h, hlate, fun key n => ?_⟩
      · rw [expire_of_late hfirst, dueKeys_of_late hlate]
      · rw [dueKeys_of_late hlate, if_neg (List.not_mem_nil)]
    · obtain ⟨s₁, active₁, free₁, hfire, hs₁, hon₁, hrest, hreturns₁⟩ :=
        h.fire (hreturns t (List.mem_cons_self ..) hdue)
      have hreturns₁ := hreturns₁.mpr fun u hu => hreturns u (List.mem_cons_of_mem _ hu)
      rw [dueKeys_cons hdue] at hroom ⊢
      obtain ⟨s', active', free', hexpire, hs', hlate, hon⟩ :=
        ih hs₁ hreturns₁ (by rw [hrest]; simpa using hroom)
      rw [hrest] at hexpire hon
      refine ⟨s', active', free', ?_, hs', hlate, fun key n => ?_⟩
      · rw [Middle.expire, hfirst, Option.bind_eq_bind]
        change (Middle.fire t clock s).bind _ = _
        rw [hfire, Option.bind_some, Option.bind_eq_bind, hexpire]
        rfl
      · have hfirst : Holds s [] ([] ++ t :: rest) free := h
        have hkeys : ∀ u ∈ rest, (s.timer u).key ≠ (s.timer t).key := hfirst.key_ne
        by_cases hkey : key = (s.timer t).key
        · subst hkey
          rw [hon, if_neg (not_mem_dueKeys hkeys), hon₁, if_pos rfl,
            if_pos (List.mem_cons_self ..)]
          constructor
          · rintro ⟨hone, rfl⟩
            exact ⟨_, ⟨t, List.mem_cons_self .., rfl, rfl⟩, hone, rfl⟩
          · rintro ⟨m, hm, hone, rfl⟩
            rcases on_cons.mp hm with ⟨-, rfl⟩ | hm
            · exact ⟨hone, rfl⟩
            · exact absurd hm (not_on hkeys m)
        · have hmem : key ∈ (s.timer t).key :: dueKeys s rest clock ↔
              key ∈ dueKeys s rest clock := by
            rw [List.mem_cons, or_iff_right hkey]
          simp only [hon, hon₁, if_neg hkey, hmem]

/-- **`msg_timer_deal`.** -/
theorem Holds.deal (h : Holds s [] active free) (hreturns : Returns s active clock) :
    ∃ s' active' free', msgTimerDeal clock s =
        some (s', dueKeys s active clock, s'.remain clock) ∧
      Holds s' [] active' free' ∧ (∀ u ∈ active', clock < (s'.timer u).clock) ∧
      ∀ key n, On s' active' key n ↔
        if key ∈ dueKeys s active clock then ∃ m, On s active key m ∧ m ≠ 1 ∧ n = m - 1
        else On s active key n := by
  have hroom : (dueKeys s active clock).length ≤ timerPoolSize := by
    rw [dueKeys, List.length_map]
    exact (List.length_filter_le ..).trans h.length_le
  obtain ⟨s', active', free', hexpire, hrest⟩ := h.expire hreturns hroom
  refine ⟨s', active', free', ?_, hrest⟩
  rw [msgTimerDeal, hexpire]
  rfl

omit [DecidableEq F] [DecidableEq X] in
/-- No function is called twice. -/
theorem Holds.nodup_dueKeys (h : Holds s [] active free) : (dueKeys s active clock).Nodup :=
  List.pairwise_map.mpr (h.keys.sublist List.filter_sublist)

omit [DecidableEq F] [DecidableEq X] in
/-- At the start all timers are in the pool. -/
theorem holds_init (memory : Ptr → Timer F X) :
    Holds (Timers.init memory) [] [] (List.finRange timerPoolSize).reverse where
  queue := rfl
  pool := of_decide_eq_true rfl
  all := List.reverse_perm _
  sorted := List.Pairwise.nil
  keys := List.Pairwise.nil
  intval := by simp

/-! ### Runs -/

/-- A call. -/
inductive Op (F X : Type)
  /-- `mid_timer_create0`, at a time. -/
  | create (intval loops : ℕ) (func : F) (arg : X) (clock : ℕ)
  /-- `mid_timer_delete0`. -/
  | delete (func : F) (arg : X)
  /-- `msg_timer_deal`, at a time. -/
  | deal (clock : ℕ)

/-- The call, and the functions it calls. -/
def Op.call (s : Timers F X) : Op F X → Option (Timers F X × List (F × X))
  | .create intval loops func arg clock =>
    (midTimerCreate0 intval loops func arg clock s).map fun s' => (s', [])
  | .delete func arg => (midTimerDelete0 func arg s).map fun s' => (s', [])
  | .deal clock => (msgTimerDeal clock s).map fun r => (r.1, r.2.1)

/-- One call of a run, which has no state any more after a call that has no answer. -/
def step (s : Option (Timers F X)) (op : Op F X) :
    Option (Timers F X) × Op F X × List (F × X) :=
  (s.bind op.call).elim (none, op, []) fun r => (some r.1, op, r.2)

/-- The timers of the queue. -/
def Timers.queued (s : Timers F X) : List Ptr := follow s.next timerPoolSize s.time

/-- How `mid_timer` is used: the interval is not `0` and the loops are up to five, the pool has a
timer when one is needed, and no time is behind 32 bits. -/
def Op.Fine (s : Timers F X) : Op F X → Prop
  | .create intval loops func arg clock => 0 < intval ∧ loops ≤ 5 ∧
    clock + intval * 1000 < 2 ^ 32 ∧
    ((∃ t ∈ s.queued, (s.timer t).key = (func, arg)) ∨ s.pool ≠ none)
  | .delete _ _ => True
  | .deal clock => Fits s s.queued clock

instance (s : Timers F X) (active : List Ptr) (clock : ℕ) : Decidable (Fits s active clock) :=
  inferInstanceAs (Decidable (∀ t ∈ active, _))

instance (s : Timers F X) : (op : Op F X) → Decidable (op.Fine s)
  | .create .. => inferInstanceAs (Decidable (_ ∧ _ ∧ _ ∧ _))
  | .delete .. => .isTrue trivial
  | .deal clock => inferInstanceAs (Decidable (Fits s s.queued clock))

/-- What has become of the timer for a key since it was created last. -/
structure Life where
  /-- The loops it was created with. -/
  loops : ℕ
  /-- How often its function has been called. -/
  fired : ℕ
  /-- It has been created, and not been deleted. -/
  wanted : Bool

/-- What a call does to it, and the functions that are called. -/
def Life.next (key : F × X) (l : Life) (op : Op F X × List (F × X)) : Life :=
  match op.1 with
  | .create _ loops func arg _ => if key = (func, arg) then ⟨loops, 0, true⟩ else l
  | .delete func arg => if key = (func, arg) then { l with wanted := false } else l
  | .deal _ => { l with fired := l.fired + op.2.count key }

/-- What has become of the timer for a key in a run. -/
def lifeOf (key : F × X) (log : List (Op F X × List (F × X))) : Life :=
  log.foldl (Life.next key) ⟨0, 0, false⟩

/-- The timer is in the queue as long as it is wanted and has loops left. -/
structure Life.Agrees (l : Life) (s : Timers F X) (active : List Ptr) (key : F × X) : Prop where
  fired_le : 0 < l.loops → l.fired ≤ l.loops
  on_iff : ∀ n, On s active key n ↔
    l.wanted ∧ (l.loops = 0 ∨ l.fired < l.loops) ∧ n = l.loops - l.fired

section Agrees

variable {l : Life} {key : F × X} {active' : List Ptr}

theorem Life.Agrees.create {intval loops : ℕ} {func : F} {arg : X} {clock : ℕ}
    (h : l.Agrees s active key)
    (hon : ∀ n, On s' active' key n ↔
      if key = (func, arg) then n = loops else On s active key n) :
    (l.next key (.create intval loops func arg clock, [])).Agrees s' active' key := by
  simp only [Life.next]
  split_ifs at hon ⊢ with hkey
  · refine ⟨fun _ => Nat.zero_le _, fun n => ?_⟩
    rw [hon, Nat.sub_zero]
    refine ⟨fun hn => ⟨rfl, ?_, hn⟩, fun hn => hn.2.2⟩
    exact Nat.eq_zero_or_pos loops
  · exact ⟨h.fired_le, fun n => (hon n).trans (h.on_iff n)⟩

theorem Life.Agrees.delete {func : F} {arg : X} (h : l.Agrees s active key)
    (hon : ∀ n, On s' active' key n ↔ key ≠ (func, arg) ∧ On s active key n) :
    (l.next key (.delete func arg, [])).Agrees s' active' key := by
  simp only [Life.next]
  split_ifs with hkey
  · refine ⟨h.fired_le, fun n => ?_⟩
    rw [hon]
    simp [hkey]
  · refine ⟨h.fired_le, fun n => ?_⟩
    rw [hon, and_iff_right hkey, h.on_iff]

theorem Life.Agrees.deal {fired : List (F × X)} (h : l.Agrees s active key) (hnodup : fired.Nodup)
    (hfired : key ∈ fired → ∃ n, On s active key n)
    (hon : ∀ n, On s' active' key n ↔
      if key ∈ fired then ∃ m, On s active key m ∧ m ≠ 1 ∧ n = m - 1 else On s active key n) :
    (l.next key (.deal clock, fired)).Agrees s' active' key := by
  change Life.Agrees { l with fired := l.fired + fired.count key } s' active' key
  by_cases hmem : key ∈ fired
  · obtain ⟨m, hm⟩ := hfired hmem
    obtain ⟨hwanted, hleft, rfl⟩ := (h.on_iff m).mp hm
    rw [List.count_eq_one_of_mem hnodup hmem]
    refine ⟨fun hpos => ?_, fun n => ?_⟩
    · change 0 < l.loops at hpos
      change l.fired + 1 ≤ l.loops
      omega
    · rw [hon, if_pos hmem]
      constructor
      · rintro ⟨m, hm', hone, rfl⟩
        obtain ⟨-, -, rfl⟩ := (h.on_iff m).mp hm'
        exact ⟨hwanted, by change l.loops = 0 ∨ l.fired + 1 < l.loops; omega,
          by change _ = l.loops - (l.fired + 1); omega⟩
      · rintro ⟨-, hleft', rfl⟩
        change l.loops = 0 ∨ l.fired + 1 < l.loops at hleft'
        exact ⟨_, hm, by omega, by change l.loops - (l.fired + 1) = _; omega⟩
  · rw [List.count_eq_zero_of_not_mem hmem]
    refine ⟨h.fired_le, fun n => ?_⟩
    rw [hon, if_neg hmem]
    exact h.on_iff n

end Agrees

omit [DecidableEq F] [DecidableEq X] in
theorem Holds.queued_eq (h : Holds s [] active free) : s.queued = active :=
  h.queue.follow_eq h.length_le

/-- The state after a run, and how it agrees with what has been called. -/
def Sound (s : Option (Timers F X)) (log : List (Op F X × List (F × X))) : Prop :=
  ∃ s' active free, s = some s' ∧ Holds s' [] active free ∧
    ∀ key, (lifeOf key log).Agrees s' active key

theorem lifeOf_concat (key : F × X) (log : List (Op F X × List (F × X)))
    (op : Op F X × List (F × X)) : lifeOf key (log ++ [op]) = (lifeOf key log).next key op := by
  rw [lifeOf, List.foldl_append]
  rfl

omit [DecidableEq F] [DecidableEq X] in
theorem mem_dueKeys_on {key : F × X} (h : key ∈ dueKeys s active clock) :
    ∃ n, On s active key n := by
  obtain ⟨u, hu, hkey⟩ := List.mem_map.mp h
  exact ⟨_, u, List.mem_of_mem_filter hu, hkey, rfl⟩

/-- **What one call preserves.** -/
theorem Sound.step {s : Option (Timers F X)} {log : List (Op F X × List (F × X))} {op : Op F X}
    (h : Sound s log) (hfine : ∀ s' ∈ s, op.Fine s') :
    Sound (Middle.step s op).1 (log ++ [(Middle.step s op).2]) := by
  obtain ⟨s, active, free, rfl, hs, hlife⟩ := h
  have hfine := hfine s rfl
  rcases op with ⟨intval, loops, func, arg, clock⟩ | ⟨func, arg⟩ | clock
  · obtain ⟨hintval, -, hfits, hroom⟩ := hfine
    rw [hs.queued_eq] at hroom
    have hpool : s.pool ≠ none → free ≠ [] := by
      rintro hpool rfl
      exact hpool hs.pool
    obtain ⟨s', active', free', heq, hs', hon⟩ :=
      hs.create loops (hroom.imp_right hpool) hintval hfits
    have hstep : Middle.step (some s) (.create intval loops func arg clock) =
        (some s', .create intval loops func arg clock, []) := by
      rw [Middle.step, Option.bind_some, Op.call, heq]
      rfl
    rw [hstep]
    refine ⟨s', active', free', rfl, hs', fun key => ?_⟩
    rw [lifeOf_concat]
    exact (hlife key).create (hon key)
  · obtain ⟨s', active', free', heq, hs', hon⟩ := hs.delete func arg
    have hstep : Middle.step (some s) (.delete func arg) = (some s', .delete func arg, []) := by
      rw [Middle.step, Option.bind_some, Op.call, heq]
      rfl
    rw [hstep]
    refine ⟨s', active', free', rfl, hs', fun key => ?_⟩
    rw [lifeOf_concat]
    exact (hlife key).delete (hon key)
  · change Fits s s.queued clock at hfine
    rw [hs.queued_eq] at hfine
    obtain ⟨s', active', free', heq, hs', -, hon⟩ := hs.deal (hfine.returns hs)
    have hstep : Middle.step (some s) (.deal clock) =
        (some s', .deal clock, dueKeys s active clock) := by
      rw [Middle.step, Option.bind_some, Op.call, heq]
      rfl
    rw [hstep]
    refine ⟨s', active', free', rfl, hs', fun key => ?_⟩
    rw [lifeOf_concat]
    exact (hlife key).deal hs.nodup_dueKeys mem_dueKeys_on (hon key)

/-- **The timers hold in every run** that uses them as it should: the queue goes up, it has one timer
for a key at most, every timer is in the queue or in the pool and in one of them only; a timer that
was created with loops is called that often at most, and is in the queue up to the last one; and from
there `msg_timer_deal` calls once whatever is due, twenty functions at most, and leaves no timer that
is due. The clock may also go back. -/
theorem timers_hold (memory : Ptr → Timer F X) (ops : List (Op F X))
    (hfine : Run.Along step (fun s op => ∀ s' ∈ s, op.Fine s') (some (Timers.init memory)) ops) :
    ∃ s active free, Run.final step (some (Timers.init memory)) ops = some s ∧
      Holds s [] active free ∧
      (∀ key, (lifeOf key (Run.outs step (some (Timers.init memory)) ops)).Agrees s active key) ∧
      ∀ clock, Fits s active clock →
        ∃ s' active' free', msgTimerDeal clock s =
            some (s', dueKeys s active clock, s'.remain clock) ∧
          Holds s' [] active' free' ∧ (∀ u ∈ active', clock < (s'.timer u).clock) ∧
          (dueKeys s active clock).Nodup ∧ (dueKeys s active clock).length ≤ 20 := by
  have hinit : Sound (some (Timers.init memory)) [] := by
    refine ⟨_, [], _, rfl, holds_init memory, fun key => ⟨fun h => h.le, fun n => ?_⟩⟩
    simp [On, lifeOf]
  obtain ⟨s, active, free, hfinal, hs, hlife⟩ :=
    Run.history_of_along (fun s log op hs hop => hs.step hop) hinit hfine
  refine ⟨s, active, free, hfinal, hs, hlife, fun clock hfits => ?_⟩
  obtain ⟨s', active', free', hdeal, hs', hlate, -⟩ := hs.deal (hfits.returns hs)
  refine ⟨s', active', free', hdeal, hs', hlate, hs.nodup_dueKeys, ?_⟩
  rw [dueKeys, List.length_map]
  exact (List.length_filter_le ..).trans hs.length_le

/-- A timer with two loops and one without, then their first times. -/
theorem timers_hold_sample :
    let memory : Ptr → Timer ℕ ℕ := fun _ => ⟨0, 0, 0, 0, 0⟩
    let ops : List (Op ℕ ℕ) := [.create 1 2 7 0 0, .create 1 0 8 0 0, .deal 1000, .deal 2000]
    ∃ s active free, Run.final step (some (Timers.init memory)) ops = some s ∧
      Holds s [] active free ∧
      (∀ key, (lifeOf key (Run.outs step (some (Timers.init memory)) ops)).Agrees s active key) ∧
      ∀ clock, Fits s active clock →
        ∃ s' active' free', msgTimerDeal clock s =
            some (s', dueKeys s active clock, s'.remain clock) ∧
          Holds s' [] active' free' ∧ (∀ u ∈ active', clock < (s'.timer u).clock) ∧
          (dueKeys s active clock).Nodup ∧ (dueKeys s active clock).length ≤ 20 :=
  timers_hold _ _ (by decide +kernel)

end Middle

end ReachEdukit
