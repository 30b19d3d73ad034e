import ReachEdukit.Lib.Loop
import ReachEdukit.Lib.Scan
import ReachEdukit.Lib.Scanf
import ReachEdukit.Lib.Turns

/-!
# The descriptions of a course

When a course is closed, the parts `info.xml.N` that were written for its streams are put together:
`create_course_record_xml` writes one `info.xml` for the HD streams and one for the SD streams, each
with a channel for every part that is not empty and for the pictures, and an `index.xml` with the times
and the names of the pictures.

A part is copied up to its first line without `</file>`. The name of a picture is copied over the one
before without a zero behind it, so the end of a longer name stays.

## What is left out

The files that are written can be opened. What `fprintf` writes is read as what it was called with.

## Main definitions

* `fileCompleteCopy` — the lines of a part
* `info2index` — the pictures
* `createCourseRecordXml` — the descriptions

## Main results

* `fileCompleteCopy_eq` — what is copied of a part
* `info2index_pictures`, `info2index_eq_iff` — what becomes of the pictures
* `createCourseRecordXml_consistent` — what the descriptions agree on
-/

namespace ReachEdukit

namespace RecordXml

open Scanf (decimal lits isSpace)

/-- A text. A zero in it ends it where it is used as a string. -/
abbrev Text := List Char

/-! ### Lines -/

/-- Up to so many characters, and no more than one line. -/
def takeLine : ℕ → Text → Text × Text
  | 0, rest => ([], rest)
  | _ + 1, [] => ([], [])
  | n + 1, c :: rest =>
    if c = '\n' then ([c], rest) else (c :: (takeLine n rest).1, (takeLine n rest).2)

/-- `fgets(line, 255, fp)`: the line, and what is left. -/
def fgets (rest : Text) : Option (Text × Text) := if rest = [] then none else some (takeLine 254 rest)

/-- What a buffer holds as a string. -/
def cstr (line : Text) : Text := line.takeWhile (· ≠ '\x00')

/-- `strstr` finds the key. -/
def Complete (strkey line : Text) : Prop := strkey <:+: cstr line

instance (strkey line : Text) : Decidable (Complete strkey line) :=
  inferInstanceAs (Decidable (strkey <:+: cstr line))

/-- One turn of the loop. -/
def completeLine (strkey rest : Text) : Option (Text × Text) :=
  (fgets rest).bind fun r => if Complete strkey r.1 then some (cstr r.1, r.2) else none

/-- `file_complete_copy`: the lines that are written. -/
def fileCompleteCopy (part strkey : Text) : List Text := Turns.all (completeLine strkey) part

/-- `"</file>"`. -/
def fileEnd : Text := ['<', '/', 'f', 'i', 'l', 'e', '>']

/-- `"/>"`. -/
def nodeEnd : Text := ['/', '>']

/-! ### Pictures -/

/-- `FILE_NODE_FORMAT`. -/
def fileNodeFormat : List Scanf.Item :=
  lits "<file".toList ++ .blank :: (lits "width=\"".toList ++ .int :: (lits "\"".toList ++
    .blank :: (lits "height=\"".toList ++ .int :: (lits "\"".toList ++
      .blank :: (lits "starttime=\"".toList ++ .int :: (lits "\">".toList ++
        .word :: (lits fileEnd ++ [])))))))

/-- `starttime`, `filename` and `image`; the buffers behind the texts are zero. -/
structure IndexVars where
  starttime : ℤ
  filename : Text
  image : Text
  deriving DecidableEq, Repr

/-- The variables before the loop. -/
def IndexVars.init : IndexVars := ⟨0, [], []⟩

/-- `index_node`. -/
structure IndexNode where
  time : ℤ
  image : Text
  deriving DecidableEq, Repr

/-- The conversions that were made: the width, the height, the time and the name. -/
def IndexVars.assign (v : IndexVars) (values : List Scanf.Value) : IndexVars :=
  { v with
    starttime := (values[2]?.bind Scanf.Value.int?).getD v.starttime
    filename := (values[3]?.bind Scanf.Value.text?).getD v.filename }

/-- `strncpy(image, filename, p - filename)`. -/
def IndexVars.copyName (v : IndexVars) (n : ℕ) : IndexVars :=
  { v with image := v.filename.take n ++ v.image.drop n }

/-- One turn of the loop. -/
def indexTurn (s : IndexVars × Text) : Option (IndexNode × IndexVars × Text) :=
  let r := Scanf.scan fileNodeFormat s.2
  let v := s.1.assign r.1
  (Scan.firstIndex fileEnd v.filename).bind fun n => (fgets r.2).map fun line =>
    (⟨v.starttime, (v.copyName n).image⟩, v.copyName n, line.2)

/-- `info2index`: the nodes that are written. -/
def info2index (info : Option Text) : List IndexNode :=
  info.elim [] fun text => Loop.outs indexTurn (fun s => s.2.length) (.init, text)

/-! ### The descriptions -/

/-- The type of the files of a channel. -/
inductive FilesType where
  | mp4
  | jpg
  deriving DecidableEq, Repr

/-- A channel, with its blue screens when it has them. -/
structure Channel where
  id : ℕ
  filesType : FilesType
  files : List Text
  bluescreen : Option (List Text)
  deriving DecidableEq, Repr

/-- `info.xml`. -/
structure InfoXml where
  channel : ℤ
  totaltime : ℤ
  channels : List Channel
  deriving DecidableEq, Repr

/-- `stream_type_sindex_sum_t`. -/
structure StreamTypeSindexSum where
  hdSindexSum : ℕ
  sdSindexSum : ℕ
  jpegSindexSum : ℕ
  deriving DecidableEq, Repr

/-- The files `info.xml.N` and `blue.N`, by their numbers. -/
structure Parts where
  hdInfo : ℕ → Option Text
  hdBlue : ℕ → Option Text
  sdInfo : ℕ → Option Text
  sdBlue : ℕ → Option Text

/-- The files that are written. -/
structure CourseXml where
  hdInfo : InfoXml
  sdInfo : InfoXml
  hdIndex : List IndexNode
  sdIndex : List IndexNode
  deriving DecidableEq, Repr

/-- `get_file_size`. -/
def getFileSize (file : Option Text) : ℤ := file.elim (-1) fun text => text.length

/-- The loop that counts the parts that are not empty. -/
def countParts (info : ℕ → Option Text) (sindexSum : ℕ) : ℤ :=
  (List.range sindexSum).foldl
    (fun sum sindex => if getFileSize (info (sindex + 1)) ≤ 0 then sum - 1 else sum) sindexSum

/-- The loop that writes the channels, from a number on. -/
def channelsFrom (info blue : ℕ → Option Text) : ℕ → ℕ → Option (List Channel)
  | 0, _ => some []
  | n + 1, sindex => (info sindex).bind fun part => (blue sindex).bind fun bluePart =>
    (channelsFrom info blue n (sindex + 1)).map fun rest =>
      if getFileSize (info sindex) > 0 then
        ⟨sindex, .mp4, fileCompleteCopy part fileEnd, some (fileCompleteCopy bluePart nodeEnd)⟩ :: rest
      else rest

/-- `jpeg_sindex_sum` after the check of its part. -/
def countJpeg (s : StreamTypeSindexSum) (parts : Parts) : ℤ :=
  if 0 < s.jpegSindexSum ∧ getFileSize (parts.sdInfo (s.sdSindexSum + 1)) ≤ 0 then
    s.jpegSindexSum - 1
  else s.jpegSindexSum

/-- The part of the pictures, if it was opened. -/
def jpegPart (s : StreamTypeSindexSum) (parts : Parts) : Option Text :=
  if 0 < s.jpegSindexSum then parts.sdInfo (s.sdSindexSum + 1) else none

/-- The channel of the pictures. -/
def jpegChannel (s : StreamTypeSindexSum) (parts : Parts) (sindex : ℕ) : List Channel :=
  if 0 < s.jpegSindexSum ∧ countJpeg s parts ≠ 0 then
    (jpegPart s parts).elim [] fun part => [⟨sindex, .jpg, fileCompleteCopy part fileEnd, none⟩]
  else []

/-- `create_course_record_xml`. -/
def createCourseRecordXml (s : StreamTypeSindexSum) (courseRecordTotaltime : ℤ) (parts : Parts) :
    Option CourseXml :=
  (channelsFrom parts.hdInfo parts.hdBlue s.hdSindexSum 1).bind fun hd =>
    (channelsFrom parts.sdInfo parts.sdBlue s.sdSindexSum 1).map fun sd =>
      { hdInfo := ⟨countParts parts.hdInfo s.hdSindexSum + countJpeg s parts, courseRecordTotaltime,
          hd ++ jpegChannel s parts (s.hdSindexSum + 1)⟩
        sdInfo := ⟨countParts parts.sdInfo s.sdSindexSum + countJpeg s parts, courseRecordTotaltime,
          sd ++ jpegChannel s parts (s.sdSindexSum + 1)⟩
        hdIndex := info2index (jpegPart s parts)
        sdIndex := info2index (jpegPart s parts) }

/-! ### What is asked -/

/-- A character in front of lines. -/
def consLine (c : Char) : List Text → List Text
  | [] => [[c]]
  | line :: lines => (c :: line) :: lines

/-- The lines of a text, with their line feeds. -/
def linesOf : Text → List Text
  | [] => []
  | c :: rest => if c = '\n' then [c] :: linesOf rest else consLine c (linesOf rest)

/-- The lines fit the line buffer. -/
def Fits (text : Text) : Prop := ∀ line ∈ linesOf text, line.length ≤ 254

instance (text : Text) : Decidable (Fits text) :=
  inferInstanceAs (Decidable (∀ line ∈ linesOf text, line.length ≤ 254))

/-! ### Reading lines -/

section Lines

variable {text rest line strkey : Text} {lines : List Text}

theorem consLine_ne_nil (c : Char) (lines : List Text) : consLine c lines ≠ [] := by
  cases lines <;> exact List.cons_ne_nil _ _

theorem linesOf_eq_nil_iff : linesOf text = [] ↔ text = [] := by
  cases text with
  | nil => exact ⟨fun _ => rfl, fun _ => rfl⟩
  | cons c rest =>
    refine ⟨fun h => ?_, fun h => absurd h (List.cons_ne_nil _ _)⟩
    rw [linesOf] at h
    split_ifs at h
    exact absurd h (consLine_ne_nil _ _)

/-- The first line is read, when it fits. -/
theorem takeLine_of_linesOf {n : ℕ} (h : linesOf text = line :: lines) (hn : line.length ≤ n) :
    (takeLine n text).1 = line ∧ linesOf (takeLine n text).2 = lines := by
  induction text generalizing n line with
  | nil => exact absurd h.symm (List.cons_ne_nil _ _)
  | cons c rest ih =>
    rw [linesOf] at h
    split_ifs at h with hc
    · obtain ⟨rfl, rfl⟩ := List.cons.inj h
      obtain ⟨n, rfl⟩ : ∃ k, n = k + 1 := ⟨n - 1, (Nat.sub_add_cancel hn).symm⟩
      rw [takeLine, if_pos hc]
      exact ⟨rfl, rfl⟩
    · cases hrest : linesOf rest with
      | nil =>
        rw [hrest] at h
        obtain ⟨rfl, rfl⟩ := List.cons.inj h
        obtain ⟨n, rfl⟩ : ∃ k, n = k + 1 := ⟨n - 1, (Nat.sub_add_cancel hn).symm⟩
        rw [takeLine, if_neg hc, linesOf_eq_nil_iff.mp hrest]
        cases n <;> exact ⟨rfl, rfl⟩
      | cons first others =>
        rw [hrest] at h
        obtain ⟨rfl, rfl⟩ := List.cons.inj h
        obtain ⟨n, rfl⟩ : ∃ k, n = k + 1 := ⟨n - 1, (Nat.sub_add_cancel (Nat.one_le_of_lt hn)).symm⟩
        obtain ⟨hline, hlines⟩ := ih hrest (Nat.le_of_succ_le_succ hn)
        rw [takeLine, if_neg hc]
        exact ⟨congrArg (c :: ·) hline, hlines⟩

theorem length_takeLine_le (n : ℕ) (text : Text) : (takeLine n text).2.length ≤ text.length := by
  induction n generalizing text with
  | zero => exact le_rfl
  | succ n ih =>
    cases text with
    | nil => exact le_rfl
    | cons c rest =>
      rw [takeLine]
      split_ifs
      · exact Nat.le_succ _
      · exact (ih rest).trans (Nat.le_succ _)

/-- There is less after a line. -/
theorem length_of_fgets (h : fgets text = some (line, rest)) : rest.length < text.length := by
  cases text with
  | nil => exact absurd h.symm (Option.some_ne_none _)
  | cons c text =>
    rw [fgets, if_neg (List.cons_ne_nil _ _), Option.some_inj, takeLine] at h
    split_ifs at h
    · exact (congrArg (fun r : Text × Text => r.2.length) h).symm.trans_lt (Nat.lt_succ_self _)
    · exact (congrArg (fun r : Text × Text => r.2.length) h).symm.trans_lt
        (Nat.lt_succ_of_le (length_takeLine_le _ _))

theorem completeLine_shrinks (strkey : Text) : Turns.Shrinks (completeLine strkey) := by
  intro text line rest h
  obtain ⟨r, hr, hline⟩ := Option.bind_eq_some_iff.mp h
  split_ifs at hline
  obtain ⟨-, rfl⟩ := Prod.mk.inj (Option.some.inj hline)
  exact length_of_fgets hr

/-- **What is copied of a part**: its lines up to the first one without the key. -/
theorem fileCompleteCopy_eq (strkey : Text) (hfits : Fits text) :
    fileCompleteCopy text strkey = ((linesOf text).takeWhile (Complete strkey ·)).map cstr := by
  obtain ⟨lines, hlines⟩ : ∃ lines, linesOf text = lines := ⟨_, rfl⟩
  rw [hlines]
  rw [Fits, hlines] at hfits
  induction lines generalizing text with
  | nil =>
    rw [linesOf_eq_nil_iff.mp hlines]
    exact Turns.all_of_none rfl
  | cons line lines ih =>
    have hne : text ≠ [] := fun h => List.cons_ne_nil line lines (hlines.symm.trans (h ▸ rfl))
    obtain ⟨hline, hrest⟩ := takeLine_of_linesOf hlines (hfits line List.mem_cons_self)
    have hread : completeLine strkey text =
        if Complete strkey line then some (cstr line, (takeLine 254 text).2) else none := by
      rw [completeLine, fgets, if_neg hne, Option.bind_some, hline]
    by_cases hcomplete : Complete strkey line
    · rw [if_pos hcomplete] at hread
      rw [List.takeWhile_cons_of_pos (by exact decide_eq_true hcomplete), List.map_cons, ← ih
        (fun l hl => hfits l (List.mem_cons_of_mem _ hl)) hrest]
      exact Turns.all_of_some (completeLine_shrinks strkey) hread
    · rw [if_neg hcomplete] at hread
      rw [List.takeWhile_cons_of_neg (by rwa [decide_eq_true_iff]), List.map_nil]
      exact Turns.all_of_none hread

end Lines

/-! ### The names of the pictures -/

/-- A picture. -/
structure Picture where
  width : ℤ
  height : ℤ
  starttime : ℤ
  filename : Text
  deriving DecidableEq, Repr

/-- What `record_info_file_node_jpeg` writes. -/
def Picture.line (picture : Picture) : Text :=
  "<file".toList ++ ' ' :: ("width=\"".toList ++ (decimal picture.width ++ ("\"".toList ++ ' ' ::
    ("height=\"".toList ++ (decimal picture.height ++ ("\"".toList ++ ' ' ::
      ("starttime=\"".toList ++ (decimal picture.starttime ++ ("\">".toList ++
        (picture.filename ++ fileEnd ++ ['\n']))))))))))

/-- What the index should say of a picture. -/
def Picture.node (picture : Picture) : IndexNode := ⟨picture.starttime, picture.filename⟩

/-- A name of a picture: without blanks, and short enough for its buffer. -/
structure PictureName (filename : Text) : Prop where
  bare : ∀ c ∈ filename, isSpace c = false
  unclosed : ¬ fileEnd <:+: filename
  length_le : filename.length ≤ 120

variable {picture : Picture} {filename rest : Text}

theorem isSpace_of_mem_fileEnd : ∀ c ∈ fileEnd, isSpace c = false := by
  simp [fileEnd, isSpace]

/-- A line of a picture is read as it was written; the name is read with what closes the node. -/
theorem scan_line (hbare : ∀ c ∈ picture.filename, isSpace c = false) (rest : Text) :
    Scanf.scan fileNodeFormat (picture.line ++ rest) =
      ([.int picture.width, .int picture.height, .int picture.starttime,
        .text (picture.filename ++ fileEnd)], '\n' :: rest) := by
  have hname : ∀ c ∈ picture.filename ++ fileEnd, isSpace c = false := by
    intro c hc
    obtain hc | hc := List.mem_append.mp hc
    · exact hbare c hc
    · exact isSpace_of_mem_fileEnd c hc
  have hne : picture.filename ++ fileEnd ≠ [] := by
    intro h
    exact absurd (List.append_eq_nil_iff.mp h).2 (by decide)
  rw [Picture.line, fileNodeFormat]
  simp only [List.append_assoc, List.cons_append, List.nil_append]
  rw [Scanf.scan_lits, Scanf.scan_blank (by rintro d ⟨⟩; rfl), Scanf.scan_lits,
    Scanf.scan_int _ (by rintro d ⟨⟩; rfl), Scanf.scan_lits, Scanf.scan_blank (by rintro d ⟨⟩; rfl),
    Scanf.scan_lits, Scanf.scan_int _ (by rintro d ⟨⟩; rfl), Scanf.scan_lits,
    Scanf.scan_blank (by rintro d ⟨⟩; rfl), Scanf.scan_lits, Scanf.scan_int _ (by rintro d ⟨⟩; rfl),
    Scanf.scan_lits, ← List.append_assoc, Scanf.scan_word hne hname (by rintro d ⟨⟩; rfl)]
  rfl

/-- The variables after a picture: its name is copied over the one before. -/
def IndexVars.after (v : IndexVars) (picture : Picture) : IndexVars :=
  ⟨picture.starttime, picture.filename ++ fileEnd,
    picture.filename ++ v.image.drop picture.filename.length⟩

/-- One turn of the loop on a picture. -/
theorem indexTurn_line (v : IndexVars) (h : PictureName picture.filename) (rest : Text) :
    indexTurn (v, picture.line ++ rest) =
      some (⟨picture.starttime, (v.after picture).image⟩, v.after picture, rest) := by
  have hfound : Scan.firstIndex fileEnd (picture.filename ++ fileEnd) = some picture.filename.length :=
    Scan.firstIndex_append (by decide) h.unclosed
  have hread : fgets ('\n' :: rest) = some (['\n'], rest) := rfl
  rw [indexTurn]
  dsimp only
  rw [scan_line h.bare]
  change (Scan.firstIndex fileEnd (picture.filename ++ fileEnd)).bind _ = _
  rw [hfound, Option.bind_some, hread, Option.map_some]
  have hcopy : (v.assign [.int picture.width, .int picture.height, .int picture.starttime,
      .text (picture.filename ++ fileEnd)]).copyName picture.filename.length = v.after picture :=
    congrArg (fun name => IndexVars.mk picture.starttime (picture.filename ++ fileEnd)
      (name ++ v.image.drop picture.filename.length)) List.take_left
  rw [hcopy]
  rfl

theorem indexTurn_decreases : Loop.Decreases indexTurn fun s => s.2.length := by
  intro s node s' h
  obtain ⟨n, -, hmap⟩ := Option.bind_eq_some_iff.mp h
  obtain ⟨r, hr, heq⟩ := Option.map_eq_some_iff.mp hmap
  obtain ⟨-, rfl⟩ := Prod.mk.inj heq
  exact (length_of_fgets hr).trans_le (Scanf.scan_suffix fileNodeFormat s.2).length_le

/-- What becomes of the pictures, with what is in `image` before. -/
def nodesFrom : Text → List Picture → List IndexNode
  | _, [] => []
  | image, picture :: pictures =>
    let name := picture.filename ++ image.drop picture.filename.length
    ⟨picture.starttime, name⟩ :: nodesFrom name pictures

/-- **What becomes of the pictures**: a node each, with the name over the one before. -/
theorem info2index_pictures {pictures : List Picture}
    (hnames : ∀ picture ∈ pictures, PictureName picture.filename) :
    info2index (some (pictures.flatMap Picture.line)) = nodesFrom [] pictures := by
  suffices hfrom : ∀ v : IndexVars, Loop.outs indexTurn (fun s => s.2.length)
      (v, pictures.flatMap Picture.line) = nodesFrom v.image pictures from hfrom .init
  induction pictures with
  | nil =>
    intro v
    refine Loop.outs_of_none ?_
    have hend : (indexTurn (v, [])) = (Scan.firstIndex fileEnd v.filename).bind fun _ => none := rfl
    rw [List.flatMap_nil, hend, Option.bind_fun_none]
  | cons picture pictures ih =>
    intro v
    have hturn := indexTurn_line v (hnames picture List.mem_cons_self) (pictures.flatMap Picture.line)
    rw [List.flatMap_cons, Loop.outs_of_some indexTurn_decreases hturn,
      ih fun p hp => hnames p (List.mem_cons_of_mem _ hp)]
    rfl

/-- The names stay when none is shorter than the one before. -/
theorem nodesFrom_eq_iff {image : Text} {pictures : List Picture} :
    nodesFrom image pictures = pictures.map Picture.node ↔
      (image :: pictures.map Picture.filename).IsChain fun a b => a.length ≤ b.length := by
  induction pictures generalizing image with
  | nil => exact ⟨fun _ => .singleton _, fun _ => rfl⟩
  | cons picture pictures ih =>
    rw [List.map_cons, List.map_cons, List.isChain_cons_cons, nodesFrom, ← ih]
    have hname : picture.filename ++ image.drop picture.filename.length = picture.filename ↔
        image.length ≤ picture.filename.length := by
      rw [List.append_right_eq_self, List.drop_eq_nil_iff]
    constructor
    · intro h
      obtain ⟨hnode, hrest⟩ := List.cons.inj h
      have hsame := congrArg IndexNode.image hnode
      refine ⟨hname.mp hsame, ?_⟩
      rwa [show picture.filename ++ image.drop picture.filename.length = picture.filename from hsame]
        at hrest
    · rintro ⟨hle, hrest⟩
      rw [hname.mpr hle, hrest]
      rfl

/-- When the index says of every picture what it should. -/
theorem info2index_eq_iff {pictures : List Picture}
    (hnames : ∀ picture ∈ pictures, PictureName picture.filename) :
    info2index (some (pictures.flatMap Picture.line)) = pictures.map Picture.node ↔
      (pictures.map Picture.filename).IsChain fun a b => a.length ≤ b.length := by
  rw [info2index_pictures hnames, nodesFrom_eq_iff]
  cases pictures with
  | nil => exact ⟨fun _ => .nil, fun _ => .singleton _⟩
  | cons picture pictures =>
    rw [List.map_cons, List.isChain_cons_cons]
    exact and_iff_right (Nat.zero_le _)

/-! ### The channels -/

/-- The parts that are not empty, `n` of them from a number on. -/
def partsFrom (info : ℕ → Option Text) (sindex n : ℕ) : List Text :=
  ((List.range' sindex n).filterMap info).filter (· ≠ [])

/-- The part of the pictures, if it is not empty. -/
def jpegParts (s : StreamTypeSindexSum) (parts : Parts) : List Text :=
  (jpegPart s parts).toList.filter (· ≠ [])

/-- The lines of a part up to the first one without `</file>`, each up to a zero in it. -/
def completeLines (part : Text) : List Text :=
  ((linesOf part).takeWhile (Complete fileEnd ·)).map cstr

/-- The number of channels is the one that is given, and each part is copied into one of them. -/
structure InfoXml.Consistent (copy : Text → List Text) (parts : List Text) (info : InfoXml) :
    Prop where
  count : info.channel = info.channels.length
  copied : info.channels.map Channel.files = parts.map copy

/-- The parts of the streams are there. -/
structure Parts.Opened (s : StreamTypeSindexSum) (parts : Parts) : Prop where
  hd : ∀ sindex ∈ List.range' 1 s.hdSindexSum,
    (parts.hdInfo sindex).isSome ∧ (parts.hdBlue sindex).isSome
  sd : ∀ sindex ∈ List.range' 1 s.sdSindexSum,
    (parts.sdInfo sindex).isSome ∧ (parts.sdBlue sindex).isSome

section Channels

variable {s : StreamTypeSindexSum} {parts : Parts} {info blue : ℕ → Option Text} {sindex n : ℕ}
  {part : Text}

theorem getFileSize_nonpos_iff : getFileSize (some part) ≤ 0 ↔ part = [] := by
  change (part.length : ℤ) ≤ 0 ↔ part = []
  rw [← List.length_eq_zero_iff]
  omega

theorem partsFrom_succ_of_some (h : info sindex = some part) (n : ℕ) :
    partsFrom info sindex (n + 1) =
      if part = [] then partsFrom info (sindex + 1) n else part :: partsFrom info (sindex + 1) n := by
  rw [partsFrom, List.range'_succ, List.filterMap_cons_some h, List.filter_cons]
  by_cases hpart : part = []
  · rw [if_pos hpart, if_neg (by simp [hpart])]
    rfl
  · rw [if_neg hpart, if_pos (by simp [hpart])]
    rfl

/-- The loop that writes the channels. -/
theorem channelsFrom_eq (hopened : ∀ i ∈ List.range' sindex n, (info i).isSome ∧ (blue i).isSome) :
    ∃ channels, channelsFrom info blue n sindex = some channels ∧
      channels.map Channel.files = (partsFrom info sindex n).map (fileCompleteCopy · fileEnd) := by
  induction n generalizing sindex with
  | zero => exact ⟨[], rfl, rfl⟩
  | succ n ih =>
    rw [List.range'_succ] at hopened
    obtain ⟨⟨part, hpart⟩, ⟨bluePart, hblue⟩⟩ :=
      (hopened sindex List.mem_cons_self).imp Option.isSome_iff_exists.mp Option.isSome_iff_exists.mp
    obtain ⟨channels, hchannels, hfiles⟩ := ih fun i hi => hopened i (List.mem_cons_of_mem _ hi)
    rw [channelsFrom, hpart, Option.bind_some, hblue, Option.bind_some, hchannels, Option.map_some,
      partsFrom_succ_of_some hpart]
    refine ⟨_, rfl, ?_⟩
    by_cases hempty : part = []
    · rw [if_neg (not_lt.mpr (getFileSize_nonpos_iff.mpr hempty)), if_pos hempty, hfiles]
    · rw [if_pos (not_le.mp fun h => hempty (getFileSize_nonpos_iff.mp h)), if_neg hempty,
        List.map_cons, List.map_cons, hfiles]

/-- The loop that counts them. -/
theorem countParts_eq (hopened : ∀ i ∈ List.range' 1 n, (info i).isSome) :
    countParts info n = (partsFrom info 1 n).length := by
  have hfold : ∀ m ≤ n, ∀ sum : ℤ, (List.range m).foldl
      (fun sum i => if getFileSize (info (i + 1)) ≤ 0 then sum - 1 else sum) sum =
        sum - m + (partsFrom info 1 m).length := by
    intro m hm
    induction m with
    | zero =>
      intro sum
      exact (by ring : sum = sum - ((0 : ℕ) : ℤ) + ((0 : ℕ) : ℤ))
    | succ m ih =>
      intro sum
      obtain ⟨part, hpart⟩ : ∃ part, info (m + 1) = some part :=
        Option.isSome_iff_exists.mp (hopened (m + 1) (List.mem_range'_1.mpr (by omega)))
      have hlast : partsFrom info 1 (m + 1) = partsFrom info 1 m ++ [part].filter (· ≠ []) := by
        rw [partsFrom, List.range'_concat, List.filterMap_append, List.filter_append, mul_comm, mul_one,
          add_comm 1 m, List.filterMap_cons_some hpart]
        rfl
      rw [List.range_succ, List.foldl_append, ih (Nat.le_of_succ_le hm), List.foldl_cons,
        List.foldl_nil, hpart, hlast, List.length_append]
      by_cases hempty : part = []
      · have hlength : ([part].filter (· ≠ [])).length = 0 := by simp [hempty]
        rw [if_pos (getFileSize_nonpos_iff.mpr hempty), hlength]
        push_cast
        ring
      · have hlength : ([part].filter (· ≠ [])).length = 1 := by simp [hempty]
        rw [if_neg fun h => hempty (getFileSize_nonpos_iff.mp h), hlength]
        push_cast
        ring
  rw [countParts, hfold n le_rfl n]
  ring

/-- The channel of the pictures. -/
theorem jpegChannel_eq (parts : Parts) (hjpeg : s.jpegSindexSum ≤ 1) (sindex : ℕ) :
    (jpegChannel s parts sindex).map Channel.files =
        (jpegParts s parts).map (fileCompleteCopy · fileEnd) ∧
      countJpeg s parts = (jpegParts s parts).length := by
  obtain hzero | hone : s.jpegSindexSum = 0 ∨ s.jpegSindexSum = 1 := by omega
  · have hpos : ¬ 0 < s.jpegSindexSum := by omega
    rw [jpegChannel, if_neg fun h => hpos h.1, jpegParts, jpegPart, if_neg hpos, countJpeg,
      if_neg fun h => hpos h.1, hzero]
    exact ⟨rfl, rfl⟩
  · have hpos : 0 < s.jpegSindexSum := by omega
    rw [jpegChannel, jpegParts, jpegPart, if_pos hpos]
    cases hpart : parts.sdInfo (s.sdSindexSum + 1) with
    | none =>
      have hcount : countJpeg s parts = 0 := by
        rw [countJpeg, hpart, if_pos ⟨hpos, by decide⟩, hone]
        rfl
      rw [hcount, if_neg fun h => h.2 rfl]
      exact ⟨rfl, rfl⟩
    | some part =>
      by_cases hempty : part = []
      · have hcount : countJpeg s parts = 0 := by
          rw [countJpeg, hpart, if_pos ⟨hpos, getFileSize_nonpos_iff.mpr hempty⟩, hone]
          rfl
        rw [hcount, if_neg fun h => h.2 rfl, hempty]
        exact ⟨rfl, rfl⟩
      · have hcount : countJpeg s parts = 1 := by
          rw [countJpeg, hpart, if_neg fun h => hempty (getFileSize_nonpos_iff.mp h.2), hone]
          rfl
        rw [hcount, if_pos ⟨hpos, one_ne_zero⟩, Option.elim_some, Option.toList_some,
          List.filter_cons_of_pos (by simp [hempty])]
        exact ⟨rfl, rfl⟩

end Channels

/-! ### The descriptions -/

/-- The channels of the streams and of the pictures are what they should be together. -/
theorem consistent_of_channels {s : StreamTypeSindexSum} {parts : Parts} {texts : List Text}
    {channels : List Channel} {count totaltime : ℤ} (hjpeg : s.jpegSindexSum ≤ 1) (sindex : ℕ)
    (hfits : ∀ part ∈ texts ++ jpegParts s parts, Fits part) (hcount : count = texts.length)
    (hfiles : channels.map Channel.files = texts.map (fileCompleteCopy · fileEnd)) :
    InfoXml.Consistent completeLines (texts ++ jpegParts s parts)
      ⟨count + countJpeg s parts, totaltime, channels ++ jpegChannel s parts sindex⟩ := by
  obtain ⟨hjpegFiles, hjpegCount⟩ := jpegChannel_eq parts hjpeg sindex
  have hall : (channels ++ jpegChannel s parts sindex).map Channel.files =
      (texts ++ jpegParts s parts).map (fileCompleteCopy · fileEnd) := by
    rw [List.map_append, hfiles, hjpegFiles, List.map_append]
  constructor
  · have hlength := congrArg List.length hall
    rw [List.length_map, List.length_map, @List.length_append _ texts] at hlength
    change count + countJpeg s parts = ((channels ++ jpegChannel s parts sindex).length : ℤ)
    rw [hlength, hcount, hjpegCount]
    push_cast
    rfl
  · exact hall.trans (List.map_congr_left fun part hpart => fileCompleteCopy_eq fileEnd (hfits part hpart))

/-- **The descriptions of a course**: the counts are those of the channels, every part that is not empty
is copied into one channel up to its first line without `</file>`, and the pictures are in the index,
when no name is shorter than the one before. -/
theorem createCourseRecordXml_consistent {s : StreamTypeSindexSum} {parts : Parts}
    (hjpeg : s.jpegSindexSum ≤ 1) (hopened : parts.Opened s)
    (hfits : ∀ part ∈ partsFrom parts.hdInfo 1 s.hdSindexSum ++ partsFrom parts.sdInfo 1 s.sdSindexSum ++
      jpegParts s parts, Fits part) (totaltime : ℤ) :
    ∃ xml, createCourseRecordXml s totaltime parts = some xml ∧
      xml.hdInfo.Consistent completeLines
        (partsFrom parts.hdInfo 1 s.hdSindexSum ++ jpegParts s parts) ∧
      xml.sdInfo.Consistent completeLines
        (partsFrom parts.sdInfo 1 s.sdSindexSum ++ jpegParts s parts) ∧
      ∀ pictures : List Picture, jpegPart s parts = some (pictures.flatMap Picture.line) →
        (∀ picture ∈ pictures, PictureName picture.filename) →
        (pictures.map Picture.filename).IsChain (fun a b => a.length ≤ b.length) →
          xml.hdIndex = pictures.map Picture.node ∧ xml.sdIndex = pictures.map Picture.node := by
  obtain ⟨hd, hhd, hhdFiles⟩ := channelsFrom_eq hopened.hd
  obtain ⟨sd, hsd, hsdFiles⟩ := channelsFrom_eq hopened.sd
  have hhdCount := countParts_eq fun i hi => (hopened.hd i hi).1
  have hsdCount := countParts_eq fun i hi => (hopened.sd i hi).1
  rw [createCourseRecordXml, hhd, Option.bind_some, hsd, Option.map_some]
  refine ⟨_, rfl, consistent_of_channels hjpeg _ (fun part hpart => hfits part ?_) hhdCount hhdFiles,
    consistent_of_channels hjpeg _ (fun part hpart => hfits part ?_) hsdCount hsdFiles, ?_⟩
  · obtain hpart | hpart := List.mem_append.mp hpart
    · exact List.mem_append_left _ (List.mem_append_left _ hpart)
    · exact List.mem_append_right _ hpart
  · obtain hpart | hpart := List.mem_append.mp hpart
    · exact List.mem_append_left _ (List.mem_append_right _ hpart)
    · exact List.mem_append_right _ hpart
  · intro pictures hpart hnames hchain
    dsimp only
    rw [hpart, (info2index_eq_iff hnames).mpr hchain]
    exact ⟨rfl, rfl⟩

/-- Two pictures, and a stream of each kind. -/
def samplePictures : List Picture := [⟨1, 1, 0, ['1']⟩, ⟨1, 1, 5, ['1', '0']⟩]

/-- The parts: one of the HD stream, none of the SD stream, and the pictures. -/
def sampleParts : Parts where
  hdInfo _ := some (fileEnd ++ ['\n'])
  hdBlue _ := some []
  sdInfo sindex := if sindex = 2 then some (samplePictures.flatMap Picture.line) else some []
  sdBlue _ := some []

theorem createCourseRecordXml_sample :
    ∃ xml, createCourseRecordXml ⟨1, 1, 1⟩ 5 sampleParts = some xml ∧
      xml.hdInfo.channel = xml.hdInfo.channels.length ∧
      xml.hdIndex = samplePictures.map Picture.node := by
  obtain ⟨xml, hxml, hhd, -, hindex⟩ := @createCourseRecordXml_consistent ⟨1, 1, 1⟩ sampleParts
    (by decide) ⟨by decide, by decide⟩ (by decide) 5
  have hnames : ∀ picture ∈ samplePictures, PictureName picture.filename := by
    intro picture hpicture
    obtain rfl | hpicture := List.mem_cons.mp hpicture
    · exact ⟨by simp [isSpace], by decide, by decide⟩
    · obtain rfl := List.mem_singleton.mp hpicture
      exact ⟨by simp [isSpace], by decide, by decide⟩
  exact ⟨xml, hxml, hhd.count, (hindex samplePictures rfl hnames (by decide)).1⟩

/-- A part with a line that is not complete, which is not copied; a name that keeps the end of a longer
one before it, and a name with a blank. -/
theorem lines_and_names_lost :
    let parts : Parts := ⟨fun _ => some ['a', '\n'], fun _ => some [], fun _ => none, fun _ => none⟩
    (parts.Opened ⟨1, 0, 0⟩ ∧ (∀ part ∈ partsFrom parts.hdInfo 1 1, Fits part) ∧
      ∃ xml, createCourseRecordXml ⟨1, 0, 0⟩ 5 parts = some xml ∧
        xml.hdInfo.channels.map Channel.files = [[]] ∧
        ¬ xml.hdInfo.Consistent linesOf (partsFrom parts.hdInfo 1 1)) ∧
      info2index (some ([⟨1, 1, 0, ['1', '0']⟩, ⟨1, 1, 5, ['9']⟩].flatMap Picture.line)) =
        [⟨0, ['1', '0']⟩, ⟨5, ['9', '0']⟩] ∧
      info2index (some (Picture.line ⟨1, 1, 0, ['a', ' ', 'b']⟩)) = [] := by
  refine ⟨⟨⟨by decide, by decide⟩, by decide, _, rfl, by decide, fun h => ?_⟩, by decide, by decide⟩
  exact absurd h.copied (by decide)

end RecordXml

end ReachEdukit
