import ReachEdukit.Lib.Lines

/-!
# Configuration files

`rwini.c` keeps settings in text files. A file is lines; a section is a line `[name]` and the lines up
to the next one, and a key is a line `key=value`. A line that ends in `+` goes on in the next one.

`ConfigGetKey` looks for the first line that names the section, and from there for the key.
`ConfigSetKey` calls it, and writes the file again with the lines of the key replaced, or with a line
more behind the section. A section that is not there is appended.

Blanks are spaces for the two functions that trim, and spaces and tabs for `SplitKeyValue`.

## What is left out

Errors of the file system other than a file that does not open; the temporary file, which `FileCopy`
copies as it is (no line has a NUL in it). The numbers of the lines are results of `configGetKey`, where
the source has global variables.

## Main definitions

* `fileGetLine`, `fileLines` — the lines of a file
* `sectionLine`, `entryAt` — what a line is when the section, or the key, is looked for
* `configGetKey`, `configSetKey` — the two functions

## Main results

* `reads_fileGetLine` — lines without control characters are read as they are
* `findSection_append`, `findSection_eq_ok` — looking for the section, line by line
-/

namespace ReachEdukit

namespace Rwini

open Lines

/-- A line, or a text. -/
abbrev Line := List (BitVec 8)

/-- `MAX_CFG_BUF`. -/
def maxCfgBuf : ℕ := 512

/-! ### The codes -/

/-- `CFG_OK`. -/
def cfgOk : ℤ := 0

/-- `CFG_SECTION_NOT_FOUND`. -/
def cfgSectionNotFound : ℤ := -1

/-- `CFG_KEY_NOT_FOUND`. -/
def cfgKeyNotFound : ℤ := -2

/-- `CFG_ERR`. -/
def cfgErr : ℤ := -10

/-- `CFG_ERR_OPEN_FILE`. -/
def cfgErrOpenFile : ℤ := -10

/-- `CFG_ERR_FILE_FORMAT`. -/
def cfgErrFileFormat : ℤ := -14

/-- `CFG_ERR_EXCEED_BUF_SIZE`. -/
def cfgErrExceedBufSize : ℤ := -22

/-! ### The characters -/

/-- `'\n'`. -/
def nl : BitVec 8 := 0x0a

/-- A space. -/
def blank : BitVec 8 := 0x20

/-- `'\t'`. -/
def tab : BitVec 8 := 0x09

/-- `CFG_ssl`. -/
def cfgSsl : BitVec 8 := 0x5b

/-- `CFG_ssr`. -/
def cfgSsr : BitVec 8 := 0x5d

/-- `CFG_nts`. -/
def cfgNts : BitVec 8 := 0x23

/-- `'='`. -/
def equals : BitVec 8 := 0x3d

/-- `'+'`. -/
def plus : BitVec 8 := 0x2b

/-! ### Lines -/

/-- `strtrimr`: without the blanks in front. -/
def strtrimr (buf : Line) : Line := buf.dropWhile fun c => c = blank

/-- `strtriml`: without the blanks at the end. -/
def strtriml (buf : Line) : Line := buf.rdropWhile fun c => c = blank

/-- A line as the two functions look at it. -/
def trim (raw : Line) : Line := strtriml (strtrimr raw)

/-- The loop of `FileGetLine`, with room for so many characters: the line, and what is left. -/
def getLine : ℕ → Line → Line × Line
  | 0, text => ([], text)
  | _ + 1, [] => ([], [])
  | room + 1, c :: text =>
    if c = nl ∨ c = 0 then ([], text)
    -- a form feed and the end-of-file character of DOS end the line and count
    else if c = 0x0c ∨ c = 0x1a then ([c], text)
    else if c = 0x0d then getLine (room + 1) text
    else (c :: (getLine room text).1, (getLine room text).2)

/-- `FileGetLine`, none at the end of the file. -/
def fileGetLine (text : Line) : Option (Line × Line) :=
  if text = [] then none else some (getLine maxCfgBuf text)

/-- The lines of a file. -/
def fileLines (text : Line) : List Line := Turns.all fileGetLine text

/-! ### The section -/

/-- What a line is when the section is looked for. -/
inductive SectionLine
  /-- Blank, a remark, or none of the others. -/
  | other
  /-- `CFG_ERR_FILE_FORMAT`. -/
  | bad
  | name (section' : Line)
  deriving DecidableEq, Repr

/-- The line is blank or a remark. -/
def Skipped (buf : Line) : Prop := buf = [] ∨ buf.head? = some cfgNts

instance (buf : Line) : Decidable (Skipped buf) := inferInstanceAs (Decidable (_ ∨ _))

/-- The first loop of `ConfigGetKey`, at one line. -/
def sectionLine (raw : Line) : SectionLine :=
  let buf1 := trim raw
  if Skipped buf1 then .other
  else if buf1.length > 2 ∧ buf1.head? = some cfgSsl ∧ buf1.getLast? ≠ some cfgSsr then .bad
  else if buf1.head? = some cfgSsl then .name (buf1.dropLast.drop 1)
  else .other

/-- The first loop: the number of the line that names the section, and the lines behind it. -/
def findSection (section' : Line) : List Line → Except ℤ (ℕ × List Line)
  | [] => .error cfgSectionNotFound
  | raw :: lines =>
    match sectionLine raw with
    | .bad => .error cfgErrFileFormat
    | .other => (findSection section' lines).map fun r => (r.1 + 1, r.2)
    | .name name =>
      if name = section' then .ok (1, lines)
      else (findSection section' lines).map fun r => (r.1 + 1, r.2)

/-! ### The key -/

/-- `SplitKeyValue`; the error is what it returns. -/
def splitKeyValue (buf : Line) : Except ℤ (Line × Line) :=
  let text := buf.dropWhile fun c => c = blank ∨ c = tab
  if text = [] then .error 0
  else if text.head? = some equals then .error (-1)
  else
    match text.dropWhile fun c => c ≠ equals with
    | [] => .error (-2)
    | _ :: val => .ok (text.takeWhile fun c => c ≠ equals, val.dropWhile fun c => c = blank ∨ c = tab)

/-- The loop for a line that goes on: the whole line, and how many lines are read. -/
def goOn (buf1 : Line) : List Line → Except ℤ (Line × ℕ)
  | [] => .ok (buf1, 0)
  | raw :: lines =>
    let buf2 := strtrimr raw
    if buf2.getLast? = some plus then
      if buf1.length + buf2.dropLast.length > maxCfgBuf then .error cfgErrExceedBufSize
      else (goOn (buf1 ++ buf2.dropLast) lines).map fun r => (r.1, r.2 + 1)
    else if buf1.length + buf2.length > maxCfgBuf then .error cfgErrExceedBufSize
    else .ok (buf1 ++ buf2, 1)

/-- What a line is when the key is looked for. -/
inductive Entry
  /-- Blank, or a remark. -/
  | skipped
  /-- The next section. -/
  | header
  | bad (ret : ℤ)
  /-- A key and its value, and how many lines are read besides. -/
  | item (key val : Line) (more : ℕ)
  deriving DecidableEq, Repr

/-- The whole line, taken apart. -/
def itemOf (buf1 : Line) (more : ℕ) : Entry :=
  match splitKeyValue buf1 with
  | .error _ => .bad cfgErrFileFormat
  | .ok (key, val) => .item (trim key) val more

/-- The second loop of `ConfigGetKey`, at one line. -/
def entryAt (raw : Line) (lines : List Line) : Entry :=
  let buf1 := trim raw
  if Skipped buf1 then .skipped
  else if buf1.head? = some cfgSsl then .header
  else if buf1.getLast? = some plus then
    match goOn buf1.dropLast lines with
    | .error ret => .bad ret
    | .ok (buf, more) => itemOf buf more
  else itemOf buf1 0

/-- A key that is found. -/
structure Found where
  val : Line
  /-- How many lines of the section come before. -/
  before : ℕ
  /-- `CFG_key_lines`. -/
  keyLines : ℕ
  deriving DecidableEq, Repr

/-- Found so many lines further down. -/
def Found.later (n : ℕ) (f : Found) : Found := { f with before := f.before + n }

/-- The second loop; the first `skip` lines have been read with the line before them. -/
def findKey (key : Line) : ℕ → List Line → Except ℤ Found
  | _, [] => .error cfgKeyNotFound
  | skip + 1, _ :: lines => (findKey key skip lines).map (Found.later 1)
  | 0, raw :: lines =>
    match entryAt raw lines with
    | .skipped => (findKey key 0 lines).map (Found.later 1)
    | .header => .error cfgKeyNotFound
    | .bad ret => .error ret
    | .item key' val more =>
      if key' = key then .ok ⟨val, 0, more + 1⟩ else (findKey key more lines).map (Found.later 1)

/-! ### The two functions -/

/-- What `ConfigGetKey` returns and puts out, with the numbers that it leaves in global variables. -/
structure CfgKey where
  ret : ℤ
  /-- `buf`, when it is written. -/
  buf : Option Line
  sectionLineNo : ℕ
  /-- Read only when the key was found. -/
  keyLineNo : ℕ
  keyLines : ℕ
  deriving DecidableEq, Repr

/-- `ConfigGetKey`; the file is none when it does not open. -/
def configGetKey (file : Option Line) (section' key : Line) : CfgKey :=
  match file with
  | none => ⟨cfgErrOpenFile, none, 0, 0, 0⟩
  | some text =>
    match findSection section' (fileLines text) with
    | .error ret => ⟨ret, none, 0, 0, 0⟩
    | .ok (sectionLineNo, lines) =>
      match findKey key 0 lines with
      | .error ret => ⟨ret, none, sectionLineNo, 0, 0⟩
      | .ok found =>
        ⟨cfgOk, some found.val, sectionLineNo, sectionLineNo + found.before + 1, found.keyLines⟩

/-- `"[%s]"`. -/
def sectionText (section' : Line) : Line := cfgSsl :: (section' ++ [cfgSsr])

/-- `"%s=%s"`. -/
def keyText (key buf : Line) : Line := key ++ equals :: buf

/-- `ConfigSetKey`: what it returns, and the file. -/
def configSetKey (file : Option Line) (section' key buf : Line) : ℤ × Option Line :=
  let r := configGetKey file section' key
  if r.ret ≤ cfgErr ∧ r.ret ≠ cfgErrOpenFile then (r.ret, file)
  else if r.ret = cfgErrOpenFile ∨ r.ret = cfgSectionNotFound then
    (cfgOk, some (file.getD [] ++ unlines nl [sectionText section', keyText key buf]))
  else
    let lines := fileLines (file.getD [])
    let lineNo1 := if r.ret = cfgKeyNotFound then r.sectionLineNo else r.keyLineNo - 1
    let lineNo := if r.ret = cfgKeyNotFound then lineNo1 else lineNo1 + r.keyLines
    (cfgOk, some (unlines nl (lines.take lineNo1 ++ keyText key buf :: lines.drop lineNo)))

/-! ### Reading lines -/

/-- The line has no control character and fits the buffer. -/
structure Good (line : Line) : Prop where
  plain : ∀ c ∈ line, c ≠ nl ∧ c ≠ 0 ∧ c ≠ 0x0c ∧ c ≠ 0x1a ∧ c ≠ 0x0d
  fits : line.length < maxCfgBuf

theorem getLine_snd_length_le (room : ℕ) (text : Line) : (getLine room text).2.length ≤ text.length := by
  induction text generalizing room with
  | nil => cases room <;> exact le_rfl
  | cons c text ih =>
    cases room with
    | zero => exact le_rfl
    | succ room =>
      rw [getLine]
      split_ifs
      · exact Nat.le_succ _
      · exact Nat.le_succ _
      · exact (ih _).trans (Nat.le_succ _)
      · exact (ih _).trans (Nat.le_succ _)

theorem getLine_snd_length_lt (room : ℕ) (c : BitVec 8) (text : Line) :
    (getLine (room + 1) (c :: text)).2.length < (c :: text).length := by
  rw [getLine]
  split_ifs
  · exact Nat.lt_succ_self _
  · exact Nat.lt_succ_self _
  · exact Nat.lt_succ_of_le (getLine_snd_length_le ..)
  · exact Nat.lt_succ_of_le (getLine_snd_length_le ..)

/-- A line without control characters, in front of a text that ends it. -/
theorem getLine_append {line : Line} {room : ℕ}
    (h : ∀ c ∈ line, c ≠ nl ∧ c ≠ 0 ∧ c ≠ 0x0c ∧ c ≠ 0x1a ∧ c ≠ 0x0d) (hroom : line.length < room)
    {text rest : Line} (htext : ∀ n, getLine (n + 1) text = ([], rest)) :
    getLine room (line ++ text) = (line, rest) := by
  induction line generalizing room with
  | nil =>
    obtain ⟨room, rfl⟩ : ∃ n, room = n + 1 := ⟨room - 1, by simp at hroom; omega⟩
    exact htext room
  | cons c line ih =>
    obtain ⟨room, rfl⟩ : ∃ n, room = n + 1 := ⟨room - 1, by simp at hroom; omega⟩
    obtain ⟨hnl, hzero, hff, hsub, hcr⟩ := h c List.mem_cons_self
    have ih := ih (fun c hc => h c (List.mem_cons_of_mem _ hc)) (Nat.lt_of_succ_lt_succ hroom)
    rw [List.cons_append, getLine, if_neg (not_or.mpr ⟨hnl, hzero⟩), if_neg (not_or.mpr ⟨hff, hsub⟩),
      if_neg hcr, ih]

/-- **Lines without control characters that fit are read as they are.** -/
theorem reads_fileGetLine : Reads fileGetLine nl Good where
  shrinks text line rest h := by
    cases text with
    | nil => exact absurd h (by simp [fileGetLine])
    | cons c text =>
      rw [fileGetLine, if_neg (List.cons_ne_nil c text)] at h
      have hlt := getLine_snd_length_lt 511 c text
      have hrest : (getLine maxCfgBuf (c :: text)).2 = rest := congrArg Prod.snd (Option.some.inj h)
      rwa [← hrest]
  eof := rfl
  line line rest h := by
    rw [fileGetLine, if_neg (by simp)]
    refine congrArg some (getLine_append h.plain h.fits fun n => ?_)
    rw [getLine, if_pos (.inl rfl)]
  last line h hne := by
    have hread : getLine maxCfgBuf (line ++ []) = (line, []) :=
      getLine_append h.plain h.fits fun n => rfl
    rw [List.append_nil] at hread
    rw [fileGetLine, if_neg hne, hread]

/-- Without a newline in it, every line of a file. -/
theorem nl_notMem_of_mem_fileLines {text line : Line} (h : line ∈ fileLines text) : nl ∉ line := by
  have hget : ∀ (room : ℕ) (text : Line), nl ∉ (getLine room text).1 := by
    intro room text
    induction text generalizing room with
    | nil => cases room <;> exact List.not_mem_nil
    | cons c text ih =>
      cases room with
      | zero => exact List.not_mem_nil
      | succ room =>
        rw [getLine]
        split_ifs with hend hkept hcr
        · exact List.not_mem_nil
        · rintro hmem
          obtain rfl := List.mem_singleton.mp hmem
          exact hend (.inl rfl)
        · exact ih _
        · intro hmem
          obtain rfl | hmem := List.mem_cons.mp hmem
          · exact hend (.inl rfl)
          · exact ih _ hmem
  rw [fileLines] at h
  induction text using Turns.all_induction reads_fileGetLine.shrinks with
  | hend text hnone =>
    rw [Turns.all_of_none hnone] at h
    exact absurd h List.not_mem_nil
  | hturn text line' rest hsome ih =>
    rw [Turns.all_of_some reads_fileGetLine.shrinks hsome] at h
    obtain rfl | h := List.mem_cons.mp h
    · rw [fileGetLine] at hsome
      split_ifs at hsome
      have hline : (getLine maxCfgBuf text).1 = line := congrArg Prod.fst (Option.some.inj hsome)
      rw [← hline]
      exact hget _ _
    · exact ih h

/-! ### Looking for the section -/

theorem error_ne_ok {α : Type} {e : ℤ} {a : α} : (Except.error e : Except ℤ α) ≠ .ok a := by simp

theorem ok_ne_error {α : Type} {e : ℤ} {a : α} : (Except.ok a : Except ℤ α) ≠ .error e := by simp

theorem exists_of_map_eq_ok {α β : Type} {x : Except ℤ α} {f : α → β} {b : β} (h : x.map f = .ok b) :
    ∃ a, x = .ok a ∧ f a = b := by
  cases x with
  | error e => exact (error_ne_ok h).elim
  | ok a => exact ⟨a, rfl, Except.ok.inj h⟩

theorem eq_error_of_map {α β : Type} {x : Except ℤ α} {f : α → β} {e : ℤ} (h : x.map f = .error e) :
    x = .error e := by
  cases x with
  | error e' => exact congrArg Except.error (Except.error.inj h)
  | ok a => exact (ok_ne_error h).elim

/-- The line neither names the section nor ends the search. -/
def PassedBy (section' raw : Line) : Prop :=
  sectionLine raw ≠ .bad ∧ sectionLine raw ≠ .name section'

variable {section' key raw : Line} {lines tail : List Line}

theorem passedBy_of_other (h : sectionLine raw = .other) (section' : Line) : PassedBy section' raw := by
  rw [PassedBy, h]
  exact ⟨SectionLine.noConfusion, SectionLine.noConfusion⟩

theorem passedBy_of_name {name : Line} (h : sectionLine raw = .name name) (hne : name ≠ section') :
    PassedBy section' raw := by
  rw [PassedBy, h]
  exact ⟨SectionLine.noConfusion, fun heq => hne (SectionLine.name.inj heq)⟩

theorem findSection_cons_of_passedBy (h : PassedBy section' raw) (lines : List Line) :
    findSection section' (raw :: lines) =
      (findSection section' lines).map fun r => (r.1 + 1, r.2) := by
  rw [findSection]
  cases hline : sectionLine raw with
  | other => rfl
  | bad => exact absurd hline h.1
  | name name => exact if_neg fun heq => h.2 (hline.trans (congrArg _ heq))

/-- **Lines that are passed by.** -/
theorem findSection_append (h : ∀ raw ∈ lines, PassedBy section' raw) (tail : List Line) :
    findSection section' (lines ++ tail) =
      (findSection section' tail).map fun r => (r.1 + lines.length, r.2) := by
  induction lines with
  | nil =>
    rw [List.nil_append]
    cases findSection section' tail <;> rfl
  | cons raw lines ih =>
    rw [List.cons_append, findSection_cons_of_passedBy (h raw List.mem_cons_self),
      ih fun raw hraw => h raw (List.mem_cons_of_mem _ hraw)]
    cases findSection section' tail <;> rfl

/-- **The section is found** at the first line that names it. -/
theorem findSection_eq_ok {n : ℕ} (h : findSection section' lines = .ok (n, tail)) :
    ∃ pre raw, lines = pre ++ raw :: tail ∧ n = pre.length + 1 ∧
      (∀ raw ∈ pre, PassedBy section' raw) ∧ sectionLine raw = .name section' := by
  induction lines generalizing n with
  | nil => exact (error_ne_ok h).elim
  | cons raw lines ih =>
    have hnext : PassedBy section' raw → ∃ pre raw', raw :: lines = pre ++ raw' :: tail ∧
        n = pre.length + 1 ∧ (∀ raw ∈ pre, PassedBy section' raw) ∧
        sectionLine raw' = .name section' := by
      intro hpassed
      rw [findSection_cons_of_passedBy hpassed] at h
      obtain ⟨r, hrest, hr⟩ := exists_of_map_eq_ok h
      obtain ⟨rfl, rfl⟩ := Prod.mk.inj hr
      obtain ⟨pre, raw', rfl, hn, hpre, hraw'⟩ := ih hrest
      refine ⟨raw :: pre, raw', rfl, congrArg (· + 1) hn, ?_, hraw'⟩
      intro raw'' hmem
      obtain rfl | hmem := List.mem_cons.mp hmem
      · exact hpassed
      · exact hpre raw'' hmem
    cases hline : sectionLine raw with
    | other => exact hnext (passedBy_of_other hline _)
    | bad =>
      rw [findSection, hline] at h
      exact (error_ne_ok h).elim
    | name name =>
      by_cases hname : name = section'
      · subst hname
        rw [findSection, hline] at h
        simp only [if_pos] at h
        obtain ⟨rfl, rfl⟩ := Prod.mk.inj (Except.ok.inj h)
        exact ⟨[], raw, rfl, rfl, fun raw hraw => absurd hraw List.not_mem_nil, hline⟩
      · exact hnext (passedBy_of_name hline hname)

/-- A section that is found. -/
theorem findSection_of_name {pre : List Line} (hpre : ∀ raw ∈ pre, PassedBy section' raw)
    (hraw : sectionLine raw = .name section') (tail : List Line) :
    findSection section' (pre ++ raw :: tail) = .ok (pre.length + 1, tail) := by
  rw [findSection_append hpre, findSection, hraw]
  simp only [if_pos]
  rw [Except.map, Nat.add_comm]

/-- A section that is not found: all lines are passed by. -/
theorem passedBy_of_not_found (h : findSection section' lines = .error cfgSectionNotFound) :
    ∀ raw ∈ lines, PassedBy section' raw := by
  induction lines with
  | nil => exact fun raw hraw => absurd hraw List.not_mem_nil
  | cons raw lines ih =>
    have hnext : PassedBy section' raw → ∀ raw' ∈ raw :: lines, PassedBy section' raw' := by
      intro hpassed
      rw [findSection_cons_of_passedBy hpassed] at h
      intro raw' hmem
      obtain rfl | hmem := List.mem_cons.mp hmem
      · exact hpassed
      · exact ih (eq_error_of_map h) raw' hmem
    cases hline : sectionLine raw with
    | other => exact hnext (passedBy_of_other hline _)
    | bad =>
      rw [findSection, hline] at h
      exact absurd (Except.error.inj h) (by decide)
    | name name =>
      by_cases hname : name = section'
      · subst hname
        rw [findSection, hline] at h
        simp only [if_pos] at h
        exact (ok_ne_error h).elim
      · exact hnext (passedBy_of_name hline hname)

end Rwini

end ReachEdukit
