import ReachEdukit.Lib.Run
import ReachEdukit.Rec.Mp4Record
import ReachEdukit.Rec.SplitTotaltime

/-!
# The blue screens of a course

For each stream `course_record_process` writes when its picture was a blue screen, from the reports of
the stream: the first report with `blue_flag` begins an interval, the next one without it ends it, and an
interval that is open when the course is closed ends with the course. The times are those of the course:
the total time in the current file, and before it the total times of the files that are complete.

A file is complete at a split, and counts with the least total time of all streams. So a stream whose
blue screen began or ended after that is taken back behind it.

## Main definitions

* `blueScreen`, `blueReport`, `blueClose` — a report, and the end
* `WellFormed` — the intervals follow each other
* `CutAfterBlue` — no blue screen is cut off at a split
* `TimesFit` — no time of the course leaves the `int32_t`s

## Main results

* `course_blueReport` — the files are listed as without blue screens
* `blueRun_wellFormed` — when the intervals follow each other
-/

namespace ReachEdukit

namespace Course

open Mp4Record (i32)

/-- What `record_blue_node` writes. -/
structure BlueNode where
  start : ℤ
  stop : ℤ
  deriving DecidableEq, Repr

/-- A file of blue screens, and the position in it. -/
structure BlueFile where
  before : List BlueNode
  after : List BlueNode
  deriving DecidableEq, Repr

/-- The nodes in the file. -/
def BlueFile.nodes (file : BlueFile) : List BlueNode := file.before ++ file.after

/-- `record_blue_node`. The node takes the place of the next one, whose text is no longer. -/
def BlueFile.write (file : BlueFile) (node : BlueNode) : BlueFile :=
  ⟨file.before ++ [node], file.after.tail⟩

/-- `record_blue_node` between `fgetpos` and `fsetpos`. -/
def BlueFile.writeAhead (file : BlueFile) (node : BlueNode) : BlueFile :=
  ⟨file.before, node :: file.after.tail⟩

/-- `blue_start_flag`, `blue_end_flag`, `blue_start`, `blue_end` and `blue_x_fp` of a stream. -/
structure BlueStream where
  startFlag : Bool
  endFlag : Bool
  start : ℤ
  stop : ℤ
  file : BlueFile
  deriving DecidableEq, Repr

/-- A stream before its first report. -/
def BlueStream.init : BlueStream := ⟨true, false, 0, 0, ⟨[], []⟩⟩

/-- What a report with this `blue_flag` does at this time of the course. -/
def blueScreen (b : BlueStream) (time : ℤ) (blueFlag : Bool) : BlueStream :=
  if blueFlag then
    if b.startFlag then ⟨false, true, time, 0, b.file.writeAhead ⟨time, 0⟩⟩ else b
  else if b.endFlag then ⟨true, false, b.start, time, b.file.write ⟨b.start, time⟩⟩ else b

/-- The state of `course_record_process`, with the blue screens. -/
structure BlueState where
  course : CourseState
  courseTotaltime : ℕ → ℤ
  blue : ℕ → BlueStream

/-- The state before the first report. -/
def BlueState.init : BlueState := ⟨.init, fun _ => 0, fun _ => .init⟩

/-- A report, with its `blue_flag`. -/
structure BlueReport where
  info : RecordReportInfo
  blueFlag : Bool
  deriving DecidableEq, Repr

/-- The report is in its slot, and its `blue_flag` has been seen. -/
def BlueState.receive (s : BlueState) (report : BlueReport) : BlueState :=
  let i := report.info.sindex
  { s with
    course := s.course.fill report.info
    blue := Function.update s.blue i
      (blueScreen (s.blue i) (i32 (s.courseTotaltime i + report.info.totaltime)) report.blueFlag) }

/-- One turn of the loop over the streams at a split. -/
def splitStream (cr : CourseRecord) (s : BlueState) (mindex : ℕ) : BlueState :=
  let course := listStream cr s.course mindex
  { s with
    course := course
    courseTotaltime := Function.update s.courseTotaltime mindex
      (i32 (s.courseTotaltime mindex + (course.repInfoTmp mindex).totaltime)) }

/-- The loop over the streams at a split. -/
def splitStreams (cr : CourseRecord) (s : BlueState) : BlueState :=
  (List.range cr.mindexSum).foldl (splitStream cr) s

/-- A report. `reopened` is whether the next files can be opened, in case it makes a split. -/
def blueReport (cr : CourseRecord) (s : BlueState) (report : BlueReport) (reopened : Bool) : BlueState :=
  if !s.course.running then s
  else if cr.isJpeg report.info then
    { s with course := courseReport cr s.course report.info reopened }
  else
    let check := splitCheck cr s.course.split report.info
    if check.1 then
      let s' := splitStreams cr (s.receive report)
      { s' with course := { s'.course with
          repInfoTmp := fun _ => .zero
          split := check.2
          running := reopened } }
    else
      let s' := s.receive report
      { s' with course := { s'.course with split := check.2 } }

/-- What the end of the course at this time does. -/
def BlueStream.close (b : BlueStream) (time : ℤ) : BlueStream :=
  if b.endFlag && !b.startFlag then { b with stop := time, file := b.file.write ⟨b.start, time⟩ } else b

/-- One turn of the loop over the streams at the end. -/
def closeStream (cr : CourseRecord) (s : BlueState) (mindex : ℕ) : BlueState :=
  let course := listStream cr s.course mindex
  { s with
    course := course
    blue := Function.update s.blue mindex ((s.blue mindex).close
      (i32 (s.courseTotaltime mindex + (course.repInfoTmp mindex).totaltime))) }

/-- `RECORD_CLOSE`, when no report is left. -/
def blueClose (cr : CourseRecord) (s : BlueState) : BlueState :=
  if s.course.running then
    let s' := (List.range cr.mindexSum).foldl (closeStream cr) s
    { s' with course := { s'.course with running := false } }
  else s

/-- A report of a run in which the next files can always be opened. -/
def blueStep (cr : CourseRecord) (s : BlueState) (report : BlueReport) : BlueState × Unit :=
  (blueReport cr s report true, ())

/-- A run: the reports, and then `RECORD_CLOSE`. -/
def blueRun (cr : CourseRecord) (reports : List BlueReport) : BlueState :=
  blueClose cr (Run.final (blueStep cr) .init reports)

/-! ### What is asked -/

/-- Every interval ends after it begins, and begins after the one before it has ended. -/
structure WellFormed (nodes : List BlueNode) : Prop where
  forward : ∀ node ∈ nodes, node.start ≤ node.stop
  ordered : nodes.IsChain fun a b => a.stop ≤ b.start

instance (nodes : List BlueNode) : Decidable (WellFormed nodes) :=
  decidable_of_iff
    ((∀ node ∈ nodes, node.start ≤ node.stop) ∧ nodes.IsChain fun a b => a.stop ≤ b.start)
    ⟨fun h => ⟨h.1, h.2⟩, fun h => ⟨h.forward, h.ordered⟩⟩

/-- Within a recorded file of a stream the total time does not decrease. -/
def NondecreasingByFile (reports : List BlueReport) : Prop :=
  reports.Pairwise fun a b => a.info.sindex = b.info.sindex → a.info.filename = b.info.filename →
    a.info.totaltime ≤ b.info.totaltime

/-! ### When it is so -/

/-- Nothing has been written for the stream that lies behind this time. -/
def BlueStream.Upto (b : BlueStream) (time : ℤ) : Prop :=
  if b.startFlag then ∀ node ∈ b.file.before, node.stop ≤ time else b.start ≤ time

/-- No report of the stream is in its slot, or one of the same file. -/
def Follows (s : BlueState) (report : BlueReport) : Prop :=
  s.course.repInfoTmp report.info.sindex = .zero ∨
    (s.course.repInfoTmp report.info.sindex).filename = report.info.filename

/-- The total times of a stream with which the search for the least begins or may go on. -/
def Counts (repInfo : ℕ → RecordReportInfo) (j : ℕ) : Prop := j = 0 ∨ (repInfo j).totaltime ≠ 0

/-- No stream with a report has its last blue screen, in its current file, beyond the total time of
another one. -/
def CutAfterBlue (cr : CourseRecord) (s : BlueState) : Prop :=
  ∀ m < cr.mindexSum, (s.course.repInfoTmp m).totaltime ≠ 0 →
    ∀ j < cr.mindexSum, Counts s.course.repInfoTmp j →
      (s.blue m).Upto (s.courseTotaltime m + (s.course.repInfoTmp j).totaltime)

/-- The same for the streams whose blue screen has not ended. -/
def ClosedAfterBlue (cr : CourseRecord) (s : BlueState) : Prop :=
  ∀ m < cr.mindexSum, (s.blue m).startFlag = false → (s.course.repInfoTmp m).totaltime ≠ 0 →
    ∀ j < cr.mindexSum, Counts s.course.repInfoTmp j →
      (s.blue m).start ≤ s.courseTotaltime m + (s.course.repInfoTmp j).totaltime

/-- No course time of a stream with a total time from a slot leaves the `int32_t`s. -/
def TimesFit (cr : CourseRecord) (s : BlueState) : Prop :=
  ∀ m < cr.mindexSum, ∀ j < cr.mindexSum,
    -2 ^ 31 ≤ s.courseTotaltime m + (s.course.repInfoTmp j).totaltime ∧
      s.courseTotaltime m + (s.course.repInfoTmp j).totaltime < 2 ^ 31

instance (b : BlueStream) (time : ℤ) : Decidable (b.Upto time) :=
  inferInstanceAs (Decidable (if b.startFlag then ∀ node ∈ b.file.before, node.stop ≤ time
    else b.start ≤ time))

instance (s : BlueState) (report : BlueReport) : Decidable (Follows s report) :=
  inferInstanceAs (Decidable (_ ∨ _))

instance (repInfo : ℕ → RecordReportInfo) (j : ℕ) : Decidable (Counts repInfo j) :=
  inferInstanceAs (Decidable (_ ∨ _))

instance (cr : CourseRecord) (s : BlueState) : Decidable (CutAfterBlue cr s) :=
  inferInstanceAs (Decidable (∀ m < cr.mindexSum, (s.course.repInfoTmp m).totaltime ≠ 0 →
    ∀ j < cr.mindexSum, Counts s.course.repInfoTmp j →
      (s.blue m).Upto (s.courseTotaltime m + (s.course.repInfoTmp j).totaltime)))

instance (cr : CourseRecord) (s : BlueState) : Decidable (TimesFit cr s) :=
  inferInstanceAs (Decidable (∀ m < cr.mindexSum, ∀ j < cr.mindexSum,
    -2 ^ 31 ≤ s.courseTotaltime m + (s.course.repInfoTmp j).totaltime ∧
      s.courseTotaltime m + (s.course.repInfoTmp j).totaltime < 2 ^ 31))

/-- The report comes in order, its time is an `int32_t`, and a split that it makes cuts no blue screen
off. -/
def InOrder (cr : CourseRecord) (s : BlueState) (report : BlueReport) : Prop :=
  (report.info.sindex < cr.mindexSum → Follows s report) ∧
    ((splitCheck cr s.course.split report.info).1 = true → CutAfterBlue cr (s.receive report)) ∧
    TimesFit cr (s.receive report)

instance (cr : CourseRecord) (s : BlueState) (report : BlueReport) : Decidable (InOrder cr s report) :=
  inferInstanceAs (Decidable (_ ∧ _ ∧ _))

/-! ### One stream -/

/-- What the steps of a stream keep: what is written is well formed, and an interval that has begun did
so after the others. -/
structure BlueStream.Sound (b : BlueStream) : Prop where
  flags : b.endFlag = !b.startFlag
  forward : ∀ node ∈ b.file.before, node.start ≤ node.stop
  ordered : b.file.before.Pairwise fun a b => a.stop ≤ b.start
  begun : b.startFlag = false → ∀ node ∈ b.file.before, node.stop ≤ b.start
  ahead : b.file.after.tail = []
  done : b.startFlag = true → b.file.after = []

variable {b : BlueStream} {t time : ℤ}

theorem BlueStream.Upto.mono (h : b.Upto t) (hle : t ≤ time) : b.Upto time := by
  unfold BlueStream.Upto at h ⊢
  split_ifs at h ⊢ with hflag
  · intro node hnode
    exact (h node hnode).trans hle
  · exact h.trans hle

/-- An interval that has begun is written after the others. -/
theorem BlueStream.Sound.write (h : b.Sound) (hflag : b.startFlag = false) (hle : b.start ≤ time) :
    (∀ node ∈ (b.file.write ⟨b.start, time⟩).before, node.start ≤ node.stop ∧ node.stop ≤ time) ∧
      (b.file.write ⟨b.start, time⟩).before.Pairwise (fun a b => a.stop ≤ b.start) ∧
      (b.file.write ⟨b.start, time⟩).after = [] := by
  have hbegun := h.begun hflag
  refine ⟨fun node hnode => ?_, List.pairwise_append.mpr ⟨h.ordered, List.pairwise_singleton .., ?_⟩,
    h.ahead⟩
  · obtain hnode | hnode := List.mem_append.mp hnode
    · exact ⟨h.forward node hnode, (hbegun node hnode).trans hle⟩
    · obtain rfl := List.mem_singleton.mp hnode
      exact ⟨hle, le_rfl⟩
  · intro node hnode last hlast
    obtain rfl := List.mem_singleton.mp hlast
    exact hbegun node hnode

/-- **One report of the stream**, at a time that nothing written lies behind. -/
theorem BlueStream.Sound.blueScreen (h : b.Sound) (hupto : b.Upto time) (blueFlag : Bool) :
    (blueScreen b time blueFlag).Sound ∧ (Course.blueScreen b time blueFlag).Upto time := by
  rw [Course.blueScreen]
  split_ifs with hblue hstart hend
  · -- the interval begins
    rw [BlueStream.Upto, if_pos hstart] at hupto
    exact ⟨⟨rfl, h.forward, h.ordered, fun _ => hupto, by rw [BlueFile.writeAhead, h.done hstart]; rfl,
      fun hfalse => absurd hfalse Bool.false_ne_true⟩, le_rfl⟩
  · exact ⟨h, hupto⟩
  · -- and it ends
    have hflag : b.startFlag = false := by
      have hflags := h.flags
      rw [hend] at hflags
      exact (Bool.not_eq_eq_eq_not.mp hflags.symm).trans Bool.not_true
    rw [BlueStream.Upto, if_neg (by rw [hflag]; exact Bool.false_ne_true)] at hupto
    obtain ⟨hnodes, hordered, hafter⟩ := h.write hflag hupto
    refine ⟨⟨rfl, fun node hnode => (hnodes node hnode).1, hordered, fun hfalse => ?_,
      congrArg List.tail hafter, fun _ => hafter⟩, fun node hnode => (hnodes node hnode).2⟩
    exact absurd hfalse.symm Bool.false_ne_true
  · exact ⟨h, hupto⟩

/-- **The end of the course**, at a time that no interval begins after. -/
theorem BlueStream.Sound.close (h : b.Sound) (hle : b.startFlag = false → b.start ≤ time) :
    WellFormed (b.close time).file.nodes := by
  rw [BlueStream.close]
  cases hflag : b.startFlag with
  | true =>
    rw [if_neg (by rw [Bool.not_true, Bool.and_false]; exact Bool.false_ne_true), BlueFile.nodes,
      h.done hflag, List.append_nil]
    exact ⟨h.forward, h.ordered.isChain⟩
  | false =>
    obtain ⟨hnodes, hordered, hafter⟩ := h.write hflag (hle hflag)
    rw [if_pos (by rw [h.flags, hflag]; rfl), BlueFile.nodes, hafter, List.append_nil]
    exact ⟨fun node hnode => (hnodes node hnode).1, hordered.isChain⟩

/-! ### The loops over the streams -/

variable {cr : CourseRecord} {s : BlueState} {report : BlueReport} {m : ℕ}

theorem le_i32 (x : ℤ) : -2 ^ 31 ≤ i32 x := Int.le_bmod (by decide)

theorem i32_lt (x : ℤ) : i32 x < 2 ^ 31 := Int.bmod_lt (by decide)

/-- The course time of a stream with the total time of a slot, as the code has it. -/
theorem TimesFit.i32_eq (h : TimesFit cr s) {j : ℕ} (hm : m < cr.mindexSum) (hj : j < cr.mindexSum) :
    i32 (s.courseTotaltime m + (s.course.repInfoTmp j).totaltime) =
      s.courseTotaltime m + (s.course.repInfoTmp j).totaltime := by
  obtain ⟨hlow, hhigh⟩ := h m hm j hj
  rw [i32]
  exact Int.bmod_eq_of_le (by omega) (by omega)

/-- The time of a report. -/
theorem TimesFit.i32_receive (h : TimesFit cr (s.receive report)) (hm : report.info.sindex < cr.mindexSum) :
    i32 (s.courseTotaltime report.info.sindex + report.info.totaltime) =
      s.courseTotaltime report.info.sindex + report.info.totaltime := by
  have hslot : (s.course.fill report.info).repInfoTmp report.info.sindex = report.info :=
    Function.update_self ..
  have htime := h.i32_eq hm hm
  change i32 (s.courseTotaltime _ + ((s.course.fill report.info).repInfoTmp _).totaltime) =
    s.courseTotaltime _ + ((s.course.fill report.info).repInfoTmp _).totaltime at htime
  rwa [hslot] at htime

/-- The total times that the loop sees: after the first turn `check_mp4_split_totaltime` changes nothing. -/
theorem repInfoTmp_listStream_upTo (cr : CourseRecord) (s : CourseState) (n : ℕ) :
    (listStream cr ((List.range n).foldl (listStream cr) s) m).repInfoTmp =
      checkMp4SplitTotaltime s.repInfoTmp cr.mindexSum := by
  induction n generalizing m with
  | zero => rfl
  | succ n ih =>
    rw [List.range_succ, List.foldl_append]
    change checkMp4SplitTotaltime
      (listStream cr ((List.range n).foldl (listStream cr) s) n).repInfoTmp cr.mindexSum = _
    rw [ih, checkMp4SplitTotaltime_idem]

/-- The first `n` turns of the loop at a split. -/
theorem splitStream_upTo (cr : CourseRecord) (s : BlueState) (n : ℕ) :
    let s' := (List.range n).foldl (splitStream cr) s
    s'.course = (List.range n).foldl (listStream cr) s.course ∧ s'.blue = s.blue ∧
      ∀ m, s'.courseTotaltime m = if m < n then i32 (s.courseTotaltime m +
        (checkMp4SplitTotaltime s.course.repInfoTmp cr.mindexSum m).totaltime)
        else s.courseTotaltime m := by
  induction n with
  | zero => exact ⟨rfl, rfl, fun m => rfl⟩
  | succ n ih =>
    obtain ⟨hcourse, hblue, htime⟩ := ih
    rw [List.range_succ, List.foldl_append, List.foldl_append]
    obtain ⟨s₁, hs₁⟩ : ∃ s₁, (List.range n).foldl (splitStream cr) s = s₁ := ⟨_, rfl⟩
    rw [hs₁] at hcourse hblue htime ⊢
    refine ⟨congrArg (listStream cr · n) hcourse, hblue, fun m => ?_⟩
    change Function.update s₁.courseTotaltime n (i32 (s₁.courseTotaltime n +
      ((listStream cr s₁.course n).repInfoTmp n).totaltime)) m = _
    rw [hcourse, repInfoTmp_listStream_upTo]
    by_cases hm : m = n
    · rw [hm, Function.update_self, htime, if_neg (Nat.lt_irrefl n), if_pos (Nat.lt_succ_self n)]
    · rw [Function.update_of_ne hm, htime]
      have hiff : m < n ↔ m < n + 1 := by omega
      simp only [hiff]

/-- The first `n` turns of the loop at the end. -/
theorem closeStream_upTo (cr : CourseRecord) (s : BlueState) (n : ℕ) :
    let s' := (List.range n).foldl (closeStream cr) s
    s'.course = (List.range n).foldl (listStream cr) s.course ∧
      s'.courseTotaltime = s.courseTotaltime ∧
      ∀ m, s'.blue m = if m < n then (s.blue m).close (i32 (s.courseTotaltime m +
        (checkMp4SplitTotaltime s.course.repInfoTmp cr.mindexSum m).totaltime)) else s.blue m := by
  induction n with
  | zero => exact ⟨rfl, rfl, fun m => rfl⟩
  | succ n ih =>
    obtain ⟨hcourse, htime, hblue⟩ := ih
    rw [List.range_succ, List.foldl_append, List.foldl_append]
    obtain ⟨s₁, hs₁⟩ : ∃ s₁, (List.range n).foldl (closeStream cr) s = s₁ := ⟨_, rfl⟩
    rw [hs₁] at hcourse htime hblue ⊢
    refine ⟨congrArg (listStream cr · n) hcourse, htime, fun m => ?_⟩
    change Function.update s₁.blue n ((s₁.blue n).close (i32 (s₁.courseTotaltime n +
      ((listStream cr s₁.course n).repInfoTmp n).totaltime))) m = _
    rw [hcourse, repInfoTmp_listStream_upTo, htime]
    by_cases hm : m = n
    · rw [hm, Function.update_self, hblue, if_neg (Nat.lt_irrefl n), if_pos (Nat.lt_succ_self n)]
    · rw [Function.update_of_ne hm, hblue]
      have hiff : m < n ↔ m < n + 1 := by omega
      simp only [hiff]

/-! ### The files are listed as without blue screens -/

theorem course_blueReport (cr : CourseRecord) (s : BlueState) (report : BlueReport) (reopened : Bool) :
    (blueReport cr s report reopened).course = courseReport cr s.course report.info reopened := by
  rw [blueReport, courseReport]
  dsimp only
  split_ifs with hrun hjpeg hsplit
  · rfl
  · rfl
  · have hcourse : (splitStreams cr (s.receive report)).course =
        listStreams cr (s.course.fill report.info) := (splitStream_upTo cr _ cr.mindexSum).1
    rw [hcourse]
  · rfl

theorem course_blueClose (cr : CourseRecord) (s : BlueState) :
    (blueClose cr s).course = courseClose cr s.course := by
  rw [blueClose, courseClose]
  split_ifs
  · dsimp only
    rw [(closeStream_upTo cr s cr.mindexSum).1]
    rfl
  · rfl

/-- **The files of a course** do not depend on the blue screens. -/
theorem course_blueRun (cr : CourseRecord) (reports : List BlueReport) :
    (blueRun cr reports).course = courseRun cr (reports.map fun report => (report.info, true)) := by
  rw [blueRun, course_blueClose, courseRun]
  congr 1
  have hfinal : ∀ s : BlueState, (Run.final (blueStep cr) s reports).course =
      (reports.map fun report => (report.info, true)).foldl
        (fun s e => courseReport cr s e.1 e.2) s.course := by
    induction reports with
    | nil => exact fun s => rfl
    | cons report reports ih =>
      intro s
      rw [Run.final_cons, ih, List.map_cons, List.foldl_cons]
      exact congrArg (List.foldl _ · _) (course_blueReport cr s report true)
  exact hfinal .init

/-! ### The run -/

variable {n : ℕ} {rest : List BlueReport}

/-- What holds of the total time of a stream, and when it is not 0 of those that count, holds of its
total time after the search. -/
theorem totaltime_check_of_counts {repInfo : ℕ → RecordReportInfo} {P : ℤ → Prop} (hm : m < n)
    (hown : P (repInfo m).totaltime)
    (hcounts : (repInfo m).totaltime ≠ 0 → ∀ j < n, Counts repInfo j → P (repInfo j).totaltime) :
    P (checkMp4SplitTotaltime repInfo n m).totaltime := by
  rw [totaltime_check]
  split_ifs with h
  · obtain hfirst | ⟨j, hj, heq, hne⟩ := (alignedTime_spec repInfo n).1
    · rw [hfirst]
      exact hcounts h.2 0 (Nat.zero_lt_of_lt hm) (.inl rfl)
    · rw [heq]
      exact hcounts h.2 j hj (.inr hne)
  · exact hown

/-- What the reports keep, with those that are still to come: nothing is written beyond the last report
of a stream, which is not behind the later ones of its file. -/
structure BlueState.Sound (cr : CourseRecord) (rest : List BlueReport) (s : BlueState) : Prop where
  running : s.course.running = true
  blue : ∀ m < cr.mindexSum, (s.blue m).Sound ∧
    (s.blue m).Upto (s.courseTotaltime m + (s.course.repInfoTmp m).totaltime)
  slots : ∀ m, s.course.repInfoTmp m = .zero ∨ ∀ report ∈ rest, m = report.info.sindex →
    (s.course.repInfoTmp m).filename = report.info.filename →
      (s.course.repInfoTmp m).totaltime ≤ report.info.totaltime
  fits : TimesFit cr s

theorem BlueState.sound_init (cr : CourseRecord) (rest : List BlueReport) :
    BlueState.init.Sound cr rest where
  running := rfl
  blue _ _ := ⟨⟨rfl, fun _ h => absurd h List.not_mem_nil, List.Pairwise.nil,
    fun _ _ h => absurd h List.not_mem_nil, rfl, fun _ => rfl⟩, fun _ h => absurd h List.not_mem_nil⟩
  slots _ := .inl rfl
  fits _ _ _ _ := ⟨show (-2 ^ 31 : ℤ) ≤ 0 + 0 by decide, show (0 + 0 : ℤ) < 2 ^ 31 by decide⟩

section Report

variable (h : s.Sound cr (report :: rest)) (hnonneg : 0 ≤ report.info.totaltime)
  (hlater : ∀ later ∈ rest, report.info.sindex = later.info.sindex →
    report.info.filename = later.info.filename → report.info.totaltime ≤ later.info.totaltime)

include h hnonneg in
/-- The report is not behind the one in its slot. -/
theorem BlueState.Sound.le_fill (hfollows : report.info.sindex < cr.mindexSum → Follows s report)
    (hm : m < cr.mindexSum) :
    (s.course.repInfoTmp m).totaltime ≤ ((s.course.fill report.info).repInfoTmp m).totaltime := by
  change _ ≤ (Function.update s.course.repInfoTmp report.info.sindex report.info m).totaltime
  by_cases hi : m = report.info.sindex
  · obtain rfl := hi
    rw [Function.update_self]
    have hzero : s.course.repInfoTmp report.info.sindex = .zero →
        (s.course.repInfoTmp report.info.sindex).totaltime ≤ report.info.totaltime := by
      intro hzero
      rw [hzero]
      exact hnonneg
    obtain hclear | hfile := hfollows hm
    · exact hzero hclear
    · obtain hclear | hslot := h.slots report.info.sindex
      · exact hzero hclear
      · exact hslot report List.mem_cons_self rfl hfile
  · rw [Function.update_of_ne hi]

include h hlater in
/-- The slots, once the report is in its own. -/
theorem BlueState.Sound.slots_fill (m : ℕ) :
    let slot := (s.course.fill report.info).repInfoTmp m
    slot = .zero ∨ ∀ later ∈ rest, m = later.info.sindex → slot.filename = later.info.filename →
      slot.totaltime ≤ later.info.totaltime := by
  intro slot
  by_cases hi : m = report.info.sindex
  · obtain rfl := hi
    have hslot : slot = report.info := Function.update_self ..
    rw [hslot]
    exact .inr hlater
  · have hslot : slot = s.course.repInfoTmp m := Function.update_of_ne hi ..
    rw [hslot]
    exact (h.slots m).imp_right fun hall later hmem => hall later (List.mem_cons_of_mem _ hmem)

include h hnonneg in
/-- The state in which the report is checked for a split. -/
theorem BlueState.Sound.receive (hfollows : report.info.sindex < cr.mindexSum → Follows s report)
    (hfits : TimesFit cr (s.receive report)) (hm : m < cr.mindexSum) :
    ((s.receive report).blue m).Sound ∧ ((s.receive report).blue m).Upto
      (s.courseTotaltime m + ((s.receive report).course.repInfoTmp m).totaltime) := by
  obtain ⟨hsound, hupto⟩ := h.blue m hm
  have hle := add_le_add_right (h.le_fill hnonneg hfollows hm) (s.courseTotaltime m)
  have hupto := hupto.mono hle
  change (Function.update s.blue report.info.sindex _ m).Sound ∧
    BlueStream.Upto (Function.update s.blue report.info.sindex _ m)
      (s.courseTotaltime m + ((s.course.fill report.info).repInfoTmp m).totaltime)
  by_cases hi : m = report.info.sindex
  · obtain rfl := hi
    have hslot : (s.course.fill report.info).repInfoTmp report.info.sindex = report.info :=
      Function.update_self ..
    have htime := hfits.i32_receive hm
    rw [hslot] at hupto ⊢
    rw [Function.update_self, htime]
    exact hsound.blueScreen hupto report.blueFlag
  · rw [Function.update_of_ne hi]
    exact ⟨hsound, hupto⟩

include h hnonneg hlater in
/-- **One report.** -/
theorem BlueState.Sound.step (horder : InOrder cr s report) :
    (blueStep cr s report).1.Sound cr rest := by
  obtain ⟨hfollows, hcut, hfits⟩ := horder
  change (blueReport cr s report true).Sound cr rest
  have hrun : (!s.course.running) = false := by rw [h.running]; rfl
  have hreceive := fun m hm => h.receive (m := m) hnonneg hfollows hfits hm
  rw [blueReport, hrun, if_neg Bool.false_ne_true]
  dsimp only
  split_ifs with hjpeg hsplit
  · -- a picture, which only fills its slot
    rw [courseReport, hrun, if_neg Bool.false_ne_true, if_pos hjpeg]
    refine ⟨h.running, fun m hm => ?_, h.slots_fill hlater, hfits⟩
    obtain ⟨hsound, hupto⟩ := h.blue m hm
    exact ⟨hsound, hupto.mono (add_le_add_right (h.le_fill hnonneg hfollows hm) _)⟩
  · -- a split, after which the slots are clear
    obtain ⟨-, hblue, htime⟩ := splitStream_upTo cr (s.receive report) cr.mindexSum
    refine ⟨rfl, fun m hm => ?_, fun m => .inl rfl, fun m hm j hj => ?_⟩
    · obtain ⟨hsound, hupto⟩ := hreceive m hm
      have hnew : ((s.receive report).blue m).Upto (i32 ((s.receive report).courseTotaltime m +
          (checkMp4SplitTotaltime (s.receive report).course.repInfoTmp cr.mindexSum m).totaltime)) := by
        refine totaltime_check_of_counts (P := fun time => ((s.receive report).blue m).Upto
          (i32 ((s.receive report).courseTotaltime m + time))) hm ?_ fun hne j hj hcounts => ?_
        · rw [hfits.i32_eq hm hm]
          exact hupto
        · rw [hfits.i32_eq hm hj]
          exact hcut hsplit m hm hne j hj hcounts
      change ((splitStreams cr (s.receive report)).blue m).Sound ∧
        ((splitStreams cr (s.receive report)).blue m).Upto
          ((splitStreams cr (s.receive report)).courseTotaltime m + 0)
      rw [splitStreams, hblue, htime, if_pos hm, add_zero]
      exact ⟨hsound, hnew⟩
    · change -2 ^ 31 ≤ (splitStreams cr (s.receive report)).courseTotaltime m + 0 ∧
        (splitStreams cr (s.receive report)).courseTotaltime m + 0 < 2 ^ 31
      rw [splitStreams, htime, if_pos hm, add_zero]
      exact ⟨le_i32 _, i32_lt _⟩
  · exact ⟨h.running, hreceive, h.slots_fill hlater, hfits⟩

end Report

/-- A run whose reports come in order. -/
theorem BlueState.Sound.run {reports : List BlueReport} (h : s.Sound cr reports)
    (hnonneg : ∀ report ∈ reports, 0 ≤ report.info.totaltime) (hfiles : NondecreasingByFile reports)
    (horder : Run.Along (blueStep cr) (InOrder cr) s reports) :
    (Run.final (blueStep cr) s reports).Sound cr [] := by
  induction reports generalizing s with
  | nil => exact h
  | cons report reports ih =>
    obtain ⟨hlater, hfiles⟩ := List.pairwise_cons.mp hfiles
    exact ih (h.step (hnonneg report List.mem_cons_self) hlater horder.1)
      (fun later hmem => hnonneg later (List.mem_cons_of_mem _ hmem)) hfiles horder.2

/-- **The blue screens of a course** are well formed when the reports of a file are not mixed with those
of the file before, no time leaves the `int32_t`s, and no blue screen is cut off at a split or at the
end. -/
theorem blueRun_wellFormed {reports : List BlueReport}
    (hnonneg : ∀ report ∈ reports, 0 ≤ report.info.totaltime) (hfiles : NondecreasingByFile reports)
    (horder : Run.Along (blueStep cr) (InOrder cr) .init reports)
    (hclosed : ClosedAfterBlue cr (Run.final (blueStep cr) .init reports)) (hm : m < cr.mindexSum) :
    WellFormed ((blueRun cr reports).blue m).file.nodes := by
  have h := (BlueState.sound_init cr reports).run hnonneg hfiles horder
  obtain ⟨s, hs⟩ : ∃ s, Run.final (blueStep cr) .init reports = s := ⟨_, rfl⟩
  rw [blueRun]
  rw [hs] at h hclosed ⊢
  obtain ⟨hsound, hupto⟩ := h.blue m hm
  rw [blueClose, if_pos h.running]
  change WellFormed (((List.range cr.mindexSum).foldl (closeStream cr) s).blue m).file.nodes
  rw [(closeStream_upTo cr s cr.mindexSum).2.2, if_pos hm]
  refine hsound.close fun hflag => ?_
  rw [BlueStream.Upto, if_neg (by rw [hflag]; exact Bool.false_ne_true)] at hupto
  refine totaltime_check_of_counts (P := fun time =>
    (s.blue m).start ≤ i32 (s.courseTotaltime m + time)) hm ?_ fun hne j hj hcounts => ?_
  · rw [h.fits.i32_eq hm hm]
    exact hupto
  · rw [h.fits.i32_eq hm hj]
    exact hclosed m hm hflag hne j hj hcounts

/-- A report of a file that is named after the section. -/
def blueSample (sindex : ℕ) (file : Char) (totaltime : ℤ) (blueFlag : Bool) (totalsize : ℕ) :
    BlueReport :=
  ⟨⟨sindex, 0, 0, totaltime, totalsize, [file]⟩, blueFlag⟩

/-- Two streams and a split, before and after which the first one has a blue screen. -/
def blueSamples : List BlueReport :=
  [blueSample 0 '1' 3 true 0, blueSample 0 '1' 5 false 0, blueSample 1 '1' 7 false 700000000,
    blueSample 0 '2' 2 true 0, blueSample 1 '2' 4 false 0]

theorem blueRun_samples : WellFormed ((blueRun ⟨2, 2, false⟩ blueSamples).blue 0).file.nodes :=
  blueRun_wellFormed (by decide) (by unfold NondecreasingByFile; decide) (by decide)
    (by unfold ClosedAfterBlue; decide) (by decide)

/-- A second stream that is behind takes the end of the blue screen back. -/
theorem blue_taken_back :
    let reports := [blueSample 0 '1' 10 true 0, blueSample 1 '1' 3 false 0]
    (∀ report ∈ reports, 0 ≤ report.info.totaltime) ∧ NondecreasingByFile reports ∧
      ((blueRun ⟨2, 2, false⟩ reports).blue 0).file.nodes = [⟨10, 3⟩] ∧
      ¬ WellFormed ((blueRun ⟨2, 2, false⟩ reports).blue 0).file.nodes :=
  ⟨by decide, by unfold NondecreasingByFile; decide, by decide, by decide⟩

end Course

end ReachEdukit
