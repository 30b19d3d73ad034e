import Mathlib

/-!
# The files of a course

A course is recorded into files, one after another for each stream. The threads that write them report
to `course_record_process`, which keeps the last report of each stream in one slot. When a report says
that its file is large, and when the recording is closed, the files that the slots name are listed in
the `info.xml` of their streams; after a split the slots are cleared.

What is listed is thus the file of the last report of each *section*, the reports between one split and
the next: a report that was still in the queue when its file was closed fills the slot of the next
section.

## What is left out

The nodes of blue screens, the times, the preview, and the request to stop a course that is too long.
That the next files can be opened is an argument.

## Main definitions

* `splitCheck`, `courseReport`, `courseClose` — a report, and the end
* `sections` — the reports between the splits
* `Listed` — every file with a report is listed, and none twice

## Main results

* `names_courseRun` — what is listed
* `listed_iff` — when the files are listed as they should be
-/

namespace ReachEdukit

namespace Course

/-- `MAX_SPLIT_LEN`. -/
def maxSplitLen : ℕ := 700 * 1000 * 1000

/-- `get_mp4_file_limits`. -/
def getMp4FileLimits : ℕ := maxSplitLen

/-- The name of a file, without the terminating zero. -/
abbrev FileName := List Char

/-- `record_report_info_t`. -/
structure RecordReportInfo where
  sindex : ℕ
  width : ℤ
  height : ℤ
  totaltime : ℤ
  totalsize : ℕ
  filename : FileName
  deriving DecidableEq, Repr

/-- A slot that was cleared. -/
def RecordReportInfo.zero : RecordReportInfo := ⟨0, 0, 0, 0, 0, []⟩

/-- What `file_node` and `file_node_jpeg` write. -/
structure FileNode where
  width : ℤ
  height : ℤ
  totaltime : ℤ
  filename : FileName
  deriving DecidableEq, Repr

/-- The course. -/
structure CourseRecord where
  /-- `mindex_sum`, the number of mp4 streams. -/
  mindexSum : ℕ
  /-- `sindex_sum`. -/
  sindexSum : ℕ
  /-- There is a stream of pictures. -/
  jr : Bool
  deriving DecidableEq, Repr

/-- `split_flag` and `split_sindex`. -/
structure Split where
  flag : Bool
  sindex : Option ℕ
  deriving DecidableEq, Repr

/-- The two variables before the first report. -/
def Split.init : Split := ⟨true, none⟩

/-- The state of `course_record_process`. -/
structure CourseState where
  /-- `rep_info_tmp`. -/
  repInfoTmp : ℕ → RecordReportInfo
  split : Split
  /-- What `record_info_file_node` has written, for each stream. -/
  infoXml : ℕ → List FileNode
  /-- What `record_info_file_node_jpeg` has written. -/
  infoXmlJpeg : List FileNode
  /-- The thread is in its loop. -/
  running : Bool

/-- The state before the first report. -/
def CourseState.init : CourseState := ⟨fun _ => .zero, .init, fun _ => [], [], true⟩

/-- The report has a picture. -/
def RecordReportInfo.valid (info : RecordReportInfo) : Bool := info.width ≠ 0 && info.height ≠ 0

/-- What `record_info_file_node` writes, nothing for a picture without size. -/
def recordInfoFileNode (info : RecordReportInfo) : List FileNode :=
  if info.valid then [⟨info.width, info.height, info.totaltime, info.filename⟩] else []

/-- `check_mp4_split_totaltime`. -/
def checkMp4SplitTotaltime (repInfo : ℕ → RecordReportInfo) (mindexSum : ℕ) :
    ℕ → RecordReportInfo :=
  let min := (List.range' 1 (mindexSum - 1)).foldl
    (fun min i => if min ≥ (repInfo i).totaltime ∧ (repInfo i).totaltime ≠ 0 then
      (repInfo i).totaltime else min) (repInfo 0).totaltime
  fun i => if i < mindexSum ∧ (repInfo i).totaltime ≠ 0 then { repInfo i with totaltime := min }
    else repInfo i

/-- One turn of the loop over the streams at a split and at the end. -/
def listStream (cr : CourseRecord) (s : CourseState) (mindex : ℕ) : CourseState :=
  let repInfoTmp := checkMp4SplitTotaltime s.repInfoTmp cr.mindexSum
  { s with
    repInfoTmp := repInfoTmp
    infoXml := Function.update s.infoXml mindex
      (s.infoXml mindex ++ recordInfoFileNode (repInfoTmp mindex)) }

/-- The loop over the streams. -/
def listStreams (cr : CourseRecord) (s : CourseState) : CourseState :=
  (List.range cr.mindexSum).foldl (listStream cr) s

/-- The stream of pictures sent the report. -/
def CourseRecord.isJpeg (cr : CourseRecord) (info : RecordReportInfo) : Bool :=
  cr.jr && cr.sindexSum = info.sindex + 1

/-- `split_flag` is set again by a small file of the stream that made the split. -/
def Split.rearm (split : Split) (info : RecordReportInfo) : Split :=
  if getMp4FileLimits > info.totalsize ∧ split.sindex = some info.sindex then
    { split with flag := true }
  else split

/-- Whether a report makes a split, and the two variables after it. -/
def splitCheck (cr : CourseRecord) (split : Split) (info : RecordReportInfo) : Bool × Split :=
  if cr.isJpeg info then (false, split)
  else if getMp4FileLimits ≤ info.totalsize ∧ (split.rearm info).flag then
    (true, ⟨false, some info.sindex⟩)
  else (false, split.rearm info)

/-- The report goes into the slot of its stream. -/
def CourseState.fill (s : CourseState) (info : RecordReportInfo) : CourseState :=
  { s with repInfoTmp := Function.update s.repInfoTmp info.sindex info }

/-- A report. `reopened` is whether the next files can be opened, in case it makes a split. -/
def courseReport (cr : CourseRecord) (s : CourseState) (info : RecordReportInfo) (reopened : Bool) :
    CourseState :=
  if !s.running then s
  else if cr.isJpeg info then
    { s.fill info with infoXmlJpeg := s.infoXmlJpeg ++ recordInfoFileNode info }
  else if (splitCheck cr s.split info).1 then
    { listStreams cr (s.fill info) with
      repInfoTmp := fun _ => .zero
      split := (splitCheck cr s.split info).2
      running := reopened }
  else { s.fill info with split := (splitCheck cr s.split info).2 }

/-- `RECORD_CLOSE`, when no report is left. -/
def courseClose (cr : CourseRecord) (s : CourseState) : CourseState :=
  if s.running then { listStreams cr s with running := false } else s

/-- A run: the reports, each with whether the next files can be opened, and then `RECORD_CLOSE`. -/
def courseRun (cr : CourseRecord) (reports : List (RecordReportInfo × Bool)) : CourseState :=
  courseClose cr (reports.foldl (fun s e => courseReport cr s e.1 e.2) .init)

/-- The names that are listed for a stream. -/
def CourseState.names (s : CourseState) (mindex : ℕ) : List FileName :=
  (s.infoXml mindex).map FileNode.filename

/-! ### Sections -/

/-- The sections of the reports, of which `current` is the one that has begun. -/
def sectionsFrom (cr : CourseRecord) :
    Split → List RecordReportInfo → List RecordReportInfo → List (List RecordReportInfo)
  | _, current, [] => [current]
  | split, current, info :: rest =>
    if (splitCheck cr split info).1 then
      (current ++ [info]) :: sectionsFrom cr (splitCheck cr split info).2 [] rest
    else sectionsFrom cr (splitCheck cr split info).2 (current ++ [info]) rest

/-- The sections of the reports. -/
def sections (cr : CourseRecord) (reports : List RecordReportInfo) :
    List (List RecordReportInfo) :=
  sectionsFrom cr .init [] reports

/-- The last report of a stream in a section. -/
def lastOf (mindex : ℕ) (current : List RecordReportInfo) : Option RecordReportInfo :=
  (current.filter fun info => info.sindex = mindex).getLast?

/-- The last reports of a stream in the sections, those with a picture. -/
def lasts (cr : CourseRecord) (mindex : ℕ) (reports : List RecordReportInfo) :
    List RecordReportInfo :=
  ((sections cr reports).filterMap (lastOf mindex)).filter RecordReportInfo.valid

/-- The files of every stream are listed: no name twice, and exactly the names of the files of which a
report with a picture came. -/
def Listed (cr : CourseRecord) (reports : List RecordReportInfo) (s : CourseState) : Prop :=
  ∀ mindex < cr.mindexSum, (s.names mindex).Nodup ∧
    ∀ f, f ∈ s.names mindex ↔
      ∃ info ∈ reports, info.sindex = mindex ∧ info.valid = true ∧ info.filename = f

/-- No two sections end with a report of the same file, and every file with a report of a picture is
the one with which a section ends. -/
def EndsApart (cr : CourseRecord) (reports : List RecordReportInfo) : Prop :=
  ∀ mindex < cr.mindexSum,
    (lasts cr mindex reports).Pairwise (fun a b => a.filename ≠ b.filename) ∧
      ∀ info ∈ reports, info.sindex = mindex → info.valid = true →
        ∃ last ∈ lasts cr mindex reports, last.filename = info.filename

/-! ### What is listed at a split and at the end -/

variable {cr : CourseRecord} {s : CourseState} {info : RecordReportInfo} {mindex : ℕ}

/-- The name that is listed for a slot, if it has a picture. -/
def entry (info : RecordReportInfo) : List FileName := if info.valid then [info.filename] else []

theorem map_filename_recordInfoFileNode (info : RecordReportInfo) :
    (recordInfoFileNode info).map FileNode.filename = entry info := by
  rw [recordInfoFileNode, entry]
  split_ifs <;> rfl

/-- The times are changed, the names are not. -/
theorem entry_checkMp4SplitTotaltime (repInfo : ℕ → RecordReportInfo) (n i : ℕ) :
    entry (checkMp4SplitTotaltime repInfo n i) = entry (repInfo i) := by
  rw [checkMp4SplitTotaltime]
  dsimp only
  split_ifs <;> rfl

/-- The first `n` turns of the loop over the streams. -/
theorem listStreams_upTo (cr : CourseRecord) (s : CourseState) (n : ℕ) :
    let s' := (List.range n).foldl (listStream cr) s
    (∀ k, s'.names k = s.names k ++ if k < n then entry (s.repInfoTmp k) else []) ∧
      (∀ k, entry (s'.repInfoTmp k) = entry (s.repInfoTmp k)) ∧
      s'.running = s.running ∧ s'.split = s.split := by
  induction n with
  | zero => simp
  | succ n ih =>
    obtain ⟨hnames, hentry, hrunning, hsplit⟩ := ih
    rw [List.range_succ, List.foldl_append]
    obtain ⟨s₁, hs₁⟩ : ∃ s₁, (List.range n).foldl (listStream cr) s = s₁ := ⟨_, rfl⟩
    rw [hs₁] at hnames hentry hrunning hsplit ⊢
    refine ⟨fun k => ?_, fun k => ?_, hrunning, hsplit⟩
    · change (Function.update s₁.infoXml n _ k).map FileNode.filename = _
      by_cases hk : k = n
      · have hold := hnames k
        rw [if_neg (by omega), List.append_nil] at hold
        rw [hk, Function.update_self, List.map_append, map_filename_recordInfoFileNode,
          entry_checkMp4SplitTotaltime, hentry, if_pos (Nat.lt_succ_self n), ← hk]
        exact congrArg (· ++ _) hold
      · rw [Function.update_of_ne hk]
        refine (hnames k).trans ?_
        have hiff : k < n ↔ k < n + 1 := by omega
        simp only [hiff]
    · exact (entry_checkMp4SplitTotaltime ..).trans (hentry k)

/-- The slots are listed, each for its stream. -/
theorem names_listStreams (hk : mindex < cr.mindexSum) :
    (listStreams cr s).names mindex = s.names mindex ++ entry (s.repInfoTmp mindex) := by
  have h := (listStreams_upTo cr s cr.mindexSum).1 mindex
  rwa [if_pos hk] at h

/-! ### One report -/

/-- A report that makes no split goes into its slot, and that is all. -/
theorem courseReport_of_not_split (hrun : s.running = true)
    (h : (splitCheck cr s.split info).1 = false) (reopened : Bool) :
    let s' := courseReport cr s info reopened
    s'.running = true ∧ s'.names = s.names ∧ s'.split = (splitCheck cr s.split info).2 ∧
      s'.repInfoTmp = Function.update s.repInfoTmp info.sindex info := by
  rw [courseReport, if_neg (by simp [hrun])]
  by_cases hjpeg : cr.isJpeg info
  · have hcheck : splitCheck cr s.split info = (false, s.split) := if_pos hjpeg
    rw [if_pos hjpeg, hcheck]
    exact ⟨hrun, rfl, rfl, rfl⟩
  · rw [if_neg hjpeg, if_neg (by simp [h])]
    exact ⟨hrun, rfl, rfl, rfl⟩

/-- A report that makes a split: its slot is listed with the others, and all are cleared. -/
theorem courseReport_of_split (hrun : s.running = true)
    (h : (splitCheck cr s.split info).1 = true) (hk : mindex < cr.mindexSum) :
    let s' := courseReport cr s info true
    s'.running = true ∧ s'.split = (splitCheck cr s.split info).2 ∧ s'.repInfoTmp = (fun _ => .zero) ∧
      s'.names mindex = s.names mindex ++
        entry (Function.update s.repInfoTmp info.sindex info mindex) := by
  have hjpeg : ¬ cr.isJpeg info := by
    intro hjpeg
    have hcheck : splitCheck cr s.split info = (false, s.split) := if_pos hjpeg
    rw [hcheck] at h
    exact Bool.false_ne_true h
  rw [courseReport, if_neg (by simp [hrun]), if_neg hjpeg, if_pos h]
  exact ⟨rfl, rfl, rfl, names_listStreams hk⟩

/-! ### The run -/

theorem lastOf_concat (mindex : ℕ) (current : List RecordReportInfo) (info : RecordReportInfo) :
    lastOf mindex (current ++ [info]) =
      if info.sindex = mindex then some info else lastOf mindex current := by
  rw [lastOf, lastOf, List.filter_append]
  split_ifs with h <;> simp [h]

/-- The slot of a stream names the last report of the section. -/
theorem entry_update {repInfo : ℕ → RecordReportInfo} {current : List RecordReportInfo}
    (h : entry (repInfo mindex) = (lastOf mindex current).elim [] entry)
    (info : RecordReportInfo) :
    entry (Function.update repInfo info.sindex info mindex) =
      (lastOf mindex (current ++ [info])).elim [] entry := by
  rw [lastOf_concat]
  split_ifs with hk
  · rw [← hk, Function.update_self]
    rfl
  · rw [Function.update_of_ne (Ne.symm hk)]
    exact h

/-- The names of the last reports with a picture, section by section. -/
theorem lasts_names (mindex : ℕ) (l : List (List RecordReportInfo)) :
    ((l.filterMap (lastOf mindex)).filter RecordReportInfo.valid).map
        RecordReportInfo.filename =
      l.flatMap fun current => (lastOf mindex current).elim [] entry := by
  induction l with
  | nil => rfl
  | cons current l ih =>
    rw [List.flatMap_cons, ← ih]
    obtain hnone | ⟨info, hinfo⟩ := Option.eq_none_or_eq_some (lastOf mindex current)
    · rw [List.filterMap_cons_none hnone, hnone]
      rfl
    · rw [List.filterMap_cons_some hinfo, hinfo, Option.elim_some, entry]
      by_cases hvalid : info.valid
      · rw [List.filter_cons_of_pos hvalid, if_pos hvalid]
        rfl
      · rw [List.filter_cons_of_neg hvalid, if_neg hvalid]
        rfl

/-- From any state of the loop on, the names are listed section by section. -/
theorem names_from (hk : mindex < cr.mindexSum) (reports : List (RecordReportInfo × Bool))
    (hreopened : ∀ e ∈ reports, e.2 = true) (current : List RecordReportInfo)
    (hrun : s.running = true)
    (hslot : entry (s.repInfoTmp mindex) = (lastOf mindex current).elim [] entry) :
    (courseClose cr (reports.foldl (fun s e => courseReport cr s e.1 e.2) s)).names mindex =
      s.names mindex ++ (sectionsFrom cr s.split current (reports.map Prod.fst)).flatMap
        fun current => (lastOf mindex current).elim [] entry := by
  induction reports generalizing s current with
  | nil =>
    rw [List.map_nil, sectionsFrom, List.flatMap_singleton, ← hslot, List.foldl_nil, courseClose,
      if_pos hrun]
    exact names_listStreams hk
  | cons e reports ih =>
    obtain ⟨info, reopened⟩ := e
    obtain rfl : reopened = true := hreopened (info, reopened) (List.mem_cons_self ..)
    have hreopened : ∀ e ∈ reports, e.2 = true := fun e he =>
      hreopened e (List.mem_cons_of_mem _ he)
    have hnew := entry_update hslot info
    rw [List.foldl_cons, List.map_cons, sectionsFrom]
    change (courseClose cr (reports.foldl _ (courseReport cr s info true))).names mindex = _
    obtain hsplit | hsplit := Bool.eq_false_or_eq_true (splitCheck cr s.split info).1
    · obtain ⟨hrun', hsplit', hslots, hnames⟩ := courseReport_of_split hrun hsplit hk
      rw [ih hreopened [] hrun' (by rw [hslots]; rfl), hsplit', hnames, hnew, if_pos hsplit,
        List.flatMap_cons, List.append_assoc]
    · obtain ⟨hrun', hnames, hsplit', hslots⟩ := courseReport_of_not_split hrun hsplit true
      rw [ih hreopened (current ++ [info]) hrun' (by rw [hslots]; exact hnew), hsplit', hnames,
        if_neg (by simp [hsplit])]

/-- **What is listed** for a stream: the files of the last reports of the sections. -/
theorem names_courseRun (hk : mindex < cr.mindexSum) {reports : List (RecordReportInfo × Bool)}
    (hreopened : ∀ e ∈ reports, e.2 = true) :
    (courseRun cr reports).names mindex =
      (lasts cr mindex (reports.map Prod.fst)).map RecordReportInfo.filename := by
  rw [lasts, lasts_names, courseRun, names_from hk reports hreopened [] rfl rfl]
  rfl

theorem mem_of_mem_sectionsFrom {split : Split} {current rest : List RecordReportInfo} :
    ∀ l ∈ sectionsFrom cr split current rest, ∀ info ∈ l, info ∈ current ∨ info ∈ rest := by
  induction rest generalizing split current with
  | nil =>
    intro l hl info hinfo
    rw [sectionsFrom, List.mem_singleton] at hl
    rw [hl] at hinfo
    exact Or.inl hinfo
  | cons first rest ih =>
    intro l hl info hinfo
    have hconcat : info ∈ current ++ [first] → info ∈ current ∨ info ∈ first :: rest := by
      intro h
      obtain h | h := List.mem_append.mp h
      · exact Or.inl h
      · rw [List.mem_singleton.mp h]
        exact Or.inr (List.mem_cons_self ..)
    rw [sectionsFrom] at hl
    split_ifs at hl
    · obtain rfl | hl := List.mem_cons.mp hl
      · exact hconcat hinfo
      · obtain h | h := ih l hl info hinfo
        · exact absurd h List.not_mem_nil
        · exact Or.inr (List.mem_cons_of_mem _ h)
    · obtain h | h := ih l hl info hinfo
      · exact hconcat h
      · exact Or.inr (List.mem_cons_of_mem _ h)

/-- The last report of a section is one of the reports of the stream. -/
theorem mem_of_mem_lasts {reports : List RecordReportInfo} (h : info ∈ lasts cr mindex reports) :
    info ∈ reports ∧ info.sindex = mindex ∧ info.valid = true := by
  obtain ⟨h, hvalid⟩ := List.mem_filter.mp h
  obtain ⟨l, hl, hlast⟩ := List.mem_filterMap.mp h
  obtain ⟨hmem, hindex⟩ := List.mem_filter.mp (List.mem_of_getLast? hlast)
  obtain h | h := mem_of_mem_sectionsFrom l hl info hmem
  · exact absurd h List.not_mem_nil
  · exact ⟨h, of_decide_eq_true hindex, hvalid⟩

/-- **The files of a course.** With any number of streams, reports and splits: the files of every
stream are listed, none twice and none missing, exactly when no two sections end with a report of the
same file, and every file with a report of a picture is the one with which a section ends. -/
theorem listed_iff {reports : List (RecordReportInfo × Bool)}
    (hreopened : ∀ e ∈ reports, e.2 = true) :
    Listed cr (reports.map Prod.fst) (courseRun cr reports) ↔
      EndsApart cr (reports.map Prod.fst) := by
  refine forall₂_congr fun mindex hk => ?_
  rw [names_courseRun hk hreopened, List.Nodup, List.pairwise_map]
  refine and_congr_right fun _ => ⟨fun h info hinfo hindex hvalid => ?_, fun h f => ⟨fun hf => ?_, ?_⟩⟩
  · exact List.mem_map.mp ((h info.filename).mpr ⟨info, hinfo, hindex, hvalid, rfl⟩)
  · obtain ⟨info, hinfo, hname⟩ := List.mem_map.mp hf
    obtain ⟨hmem, hindex, hvalid⟩ := mem_of_mem_lasts hinfo
    exact ⟨info, hmem, hindex, hvalid, hname⟩
  · intro hf
    obtain ⟨info, hinfo, hindex, hvalid, hname⟩ := hf
    obtain ⟨last, hlast, hsame⟩ := h info hinfo hindex hvalid
    exact List.mem_map.mpr ⟨last, hlast, hsame.trans hname⟩

/-- A course with one stream. -/
def oneStream : CourseRecord := ⟨1, 1, false⟩

/-- A report of a picture of the only stream. -/
def pictureReport (totalsize : ℕ) (filename : FileName) : RecordReportInfo :=
  ⟨0, 1920, 1080, 60, totalsize, filename⟩

/-- A split, and a report of the new file. -/
theorem listed_iff_sample :
    Listed oneStream
        ([(pictureReport maxSplitLen ['a'], true), (pictureReport 1000 ['b'], true)].map Prod.fst)
        (courseRun oneStream
          [(pictureReport maxSplitLen ['a'], true), (pictureReport 1000 ['b'], true)]) ↔
      EndsApart oneStream
        ([(pictureReport maxSplitLen ['a'], true), (pictureReport 1000 ['b'], true)].map Prod.fst) :=
  listed_iff (by decide)

/-- A report of the first file that is still in the queue when the split is made, and then the end. -/
theorem file_listed_twice :
    let reports := [(pictureReport maxSplitLen ['a'], true), (pictureReport maxSplitLen ['a'], true)]
    (courseRun oneStream reports).names 0 = [['a'], ['a']] ∧
      ¬ Listed oneStream (reports.map Prod.fst) (courseRun oneStream reports) := by
  have htwice : (courseRun oneStream [(pictureReport maxSplitLen ['a'], true),
      (pictureReport maxSplitLen ['a'], true)]).names 0 = [['a'], ['a']] := by
    decide +kernel
  refine ⟨htwice, fun h => ?_⟩
  have hnodup := (h 0 (by decide)).1
  rw [htwice] at hnodup
  exact absurd hnodup (by decide)

end Course

end ReachEdukit
