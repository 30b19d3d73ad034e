import ReachEdukit.Rwini.Entries

/-!
# What a write does to the lines

`ConfigSetKey` leaves the lines in front of the section as they are. In the section, the line of the key
takes the place of the entry for the key, or it comes first. If nothing names the section it is appended
to the file as it is, also to a last line that has no newline.

## Main definitions

* `WellFormed` — a key and a value that are read as they are written
* `Replaced` — the lines of the section before and after

## Main results

* `entryAt_keyText` — the line of a well-formed key is an entry for it
* `configSetKey_cases` — what a write that succeeds does
-/

namespace ReachEdukit

namespace Rwini

open Lines

variable {section' key val raw : Line} {lines tail : List Line} {file : Option Line}

/-! ### The lines that are written -/

/-- The key and the value are read as they are written. -/
structure WellFormed (key val : Line) : Prop where
  key_ne : key ≠ []
  equals_notMem : equals ∉ key
  head_nts : key.head? ≠ some cfgNts
  head_ssl : key.head? ≠ some cfgSsl
  head_blank : key.head? ≠ some blank
  head_tab : key.head? ≠ some tab
  last_blank : key.getLast? ≠ some blank
  val_blank : val.head? ≠ some blank
  val_tab : val.head? ≠ some tab
  val_last_blank : val.getLast? ≠ some blank
  val_last_plus : val.getLast? ≠ some plus

theorem strtrimr_of_head {buf : Line} (h : buf.head? ≠ some blank) : strtrimr buf = buf := by
  cases buf with
  | nil => rfl
  | cons c buf =>
    rw [strtrimr, List.dropWhile_cons_of_neg]
    simpa using h

theorem strtriml_of_last {buf : Line} (h : buf.getLast? ≠ some blank) : strtriml buf = buf := by
  rw [strtriml, List.rdropWhile_eq_self_iff]
  intro hne hlast
  rw [List.getLast?_eq_some_getLast hne] at h
  exact h (congrArg some (of_decide_eq_true hlast))

theorem trim_of_ends {buf : Line} (hhead : buf.head? ≠ some blank) (hlast : buf.getLast? ≠ some blank) :
    trim buf = buf := by
  rw [trim, strtrimr_of_head hhead, strtriml_of_last hlast]

theorem head?_keyText (hkey : key ≠ []) (val : Line) : (keyText key val).head? = key.head? :=
  List.head?_append_of_ne_nil _ hkey

theorem getLast?_keyText (key val : Line) :
    (keyText key val).getLast? = some (val.getLast?.getD equals) := by
  rw [keyText, List.getLast?_append, List.getLast?_cons]
  rfl

theorem getLast?_keyText_ne {c : BitVec 8} (hval : val.getLast? ≠ some c) (hc : c ≠ equals) :
    (keyText key val).getLast? ≠ some c := by
  rw [getLast?_keyText]
  cases hlast : val.getLast? with
  | none => exact fun h => hc (Option.some.inj h).symm
  | some d => rwa [hlast] at hval

variable (h : WellFormed key val)

include h

theorem trim_keyText : trim (keyText key val) = keyText key val := by
  refine trim_of_ends ?_ (getLast?_keyText_ne h.val_last_blank (by decide))
  rw [head?_keyText h.key_ne]
  exact h.head_blank

theorem not_skipped_keyText : ¬ Skipped (keyText key val) := by
  rintro (hnil | hnts)
  · exact absurd hnil (by simp [keyText])
  · rw [head?_keyText h.key_ne] at hnts
    exact h.head_nts hnts

/-- The line of the key does not name a section. -/
theorem sectionLine_keyText : sectionLine (keyText key val) = .other := by
  have hssl : (keyText key val).head? ≠ some cfgSsl := by
    rw [head?_keyText h.key_ne]
    exact h.head_ssl
  rw [sectionLine, trim_keyText h, if_neg (not_skipped_keyText h), if_neg fun hbad => hssl hbad.2.1,
    if_neg hssl]

theorem splitKeyValue_keyText : splitKeyValue (keyText key val) = .ok (key, val) := by
  have hstart : ∀ {l : Line}, l.head? ≠ some blank → l.head? ≠ some tab →
      (l.dropWhile fun c => c = blank ∨ c = tab) = l := by
    intro l hblank htab
    cases l with
    | nil => rfl
    | cons c l =>
      have hc : c ≠ blank ∧ c ≠ tab :=
        ⟨fun hc => hblank (congrArg some hc), fun hc => htab (congrArg some hc)⟩
      rw [List.dropWhile_cons_of_neg]
      simpa using hc
  have hkey : ∀ c ∈ key, (decide (c ≠ equals)) = true := by
    intro c hc
    rw [decide_eq_true_iff]
    rintro rfl
    exact h.equals_notMem hc
  have htext : ((keyText key val).dropWhile fun c => c = blank ∨ c = tab) = keyText key val := by
    apply hstart
    · rw [head?_keyText h.key_ne]
      exact h.head_blank
    · rw [head?_keyText h.key_ne]
      exact h.head_tab
  have hhead : (keyText key val).head? ≠ some equals := by
    rw [head?_keyText h.key_ne]
    exact fun heq => h.equals_notMem (List.mem_of_head? heq)
  have hdrop : ((keyText key val).dropWhile fun c => c ≠ equals) = equals :: val := by
    rw [keyText, List.dropWhile_append_of_pos hkey]
    rfl
  have htake : ((keyText key val).takeWhile fun c => c ≠ equals) = key := by
    rw [keyText, List.takeWhile_append_of_pos hkey]
    exact List.append_nil key
  rw [splitKeyValue, htext, if_neg (by simp [keyText]), if_neg hhead, hdrop]
  simp only [htake, hstart h.val_blank h.val_tab]

/-- **The line of a well-formed key** is an entry for it, of one line. -/
theorem entryAt_keyText (lines : List Line) : entryAt (keyText key val) lines = .item key val 0 := by
  have hssl : (keyText key val).head? ≠ some cfgSsl := by
    rw [head?_keyText h.key_ne]
    exact h.head_ssl
  have htrim := trim_keyText h
  have hplus : (keyText key val).getLast? ≠ some plus :=
    getLast?_keyText_ne h.val_last_plus (by decide)
  rw [← htrim] at hssl hplus
  rw [entryAt_of_not_plus (by rw [htrim]; exact not_skipped_keyText h) hssl hplus, htrim, itemOf,
    splitKeyValue_keyText h]
  simp only [trim_of_ends h.head_blank h.last_blank]

theorem findKey_keyText (key' : Line) (lines : List Line) :
    findKey key' 0 (keyText key val :: lines) =
      if key = key' then .ok ⟨val, 0, 1⟩ else (findKey key' 0 lines).map (Found.later 1) := by
  rw [findKey, entryAt_keyText h]

omit h

/-- The line of a section names it. -/
theorem sectionLine_sectionText (section' : Line) : sectionLine (sectionText section') = .name section' := by
  have hhead : (sectionText section').head? = some cfgSsl := rfl
  have hlast : (sectionText section').getLast? = some cfgSsr := by
    rw [sectionText, ← List.cons_append, List.getLast?_concat]
  have htrim : trim (sectionText section') = sectionText section' :=
    trim_of_ends (by rw [hhead]; decide) (by rw [hlast]; decide)
  have hskip : ¬ Skipped (sectionText section') := by
    rintro (hnil | hnts)
    · exact absurd hnil (List.cons_ne_nil _ _)
    · exact absurd (Option.some.inj hnts) (by decide)
  rw [sectionLine, htrim, if_neg hskip, if_neg fun hbad => hbad.2.2 hlast, if_pos hhead]
  rw [sectionText, ← List.cons_append, List.dropLast_concat]
  rfl

/-! ### What a write that succeeds does -/

theorem findSection_eq_error {e : ℤ} (h : findSection section' lines = .error e) :
    e = cfgSectionNotFound ∨ e = cfgErrFileFormat := by
  induction lines with
  | nil => exact .inl (Except.error.inj h).symm
  | cons raw lines ih =>
    by_cases hpassed : PassedBy section' raw
    · rw [findSection_cons_of_passedBy hpassed] at h
      exact ih (eq_error_of_map h)
    · rw [findSection] at h
      cases hline : sectionLine raw with
      | other => exact absurd (passedBy_of_other hline _) hpassed
      | bad =>
        rw [hline] at h
        exact .inr (Except.error.inj h).symm
      | name name =>
        have hname : name = section' := by
          by_contra hname
          exact hpassed (passedBy_of_name hline hname)
        rw [hline] at h
        simp only [if_pos hname] at h
        exact (ok_ne_error h).elim

theorem goOn_eq_error {buf1 : Line} {e : ℤ} (h : goOn buf1 lines = .error e) :
    e = cfgErrExceedBufSize := by
  induction lines generalizing buf1 with
  | nil => exact (ok_ne_error h).elim
  | cons raw lines ih =>
    rw [goOn] at h
    by_cases hplus : (strtrimr raw).getLast? = some plus
    · rw [if_pos hplus] at h
      split_ifs at h
      · exact (Except.error.inj h).symm
      · exact ih (eq_error_of_map h)
    · rw [if_neg hplus] at h
      split_ifs at h
      exact (Except.error.inj h).symm

theorem itemOf_eq_bad {buf : Line} {more : ℕ} {e : ℤ} (h : itemOf buf more = .bad e) :
    e = cfgErrFileFormat := by
  rw [itemOf] at h
  cases hsplit : splitKeyValue buf with
  | error e' =>
    rw [hsplit] at h
    exact (Entry.bad.inj h).symm
  | ok r =>
    rw [hsplit] at h
    exact Entry.noConfusion h

theorem entryAt_eq_bad {e : ℤ} (h : entryAt raw lines = .bad e) :
    e = cfgErrFileFormat ∨ e = cfgErrExceedBufSize := by
  rw [entryAt] at h
  split_ifs at h
  · cases hgo : goOn (trim raw).dropLast lines with
    | error e' =>
      rw [hgo] at h
      exact .inr ((Entry.bad.inj h).symm.trans (goOn_eq_error hgo))
    | ok r =>
      rw [hgo] at h
      exact .inl (itemOf_eq_bad h)
  · exact .inl (itemOf_eq_bad h)

theorem findKey_eq_error {skip : ℕ} {e : ℤ} (h : findKey key skip lines = .error e) :
    e = cfgKeyNotFound ∨ e = cfgErrFileFormat ∨ e = cfgErrExceedBufSize := by
  induction lines generalizing skip with
  | nil =>
    cases skip <;> exact .inl (Except.error.inj h).symm
  | cons raw lines ih =>
    cases skip with
    | succ skip => exact ih (eq_error_of_map h)
    | zero =>
      rw [findKey] at h
      cases hentry : entryAt raw lines with
      | skipped =>
        rw [hentry] at h
        exact ih (eq_error_of_map h)
      | header =>
        rw [hentry] at h
        exact .inl (Except.error.inj h).symm
      | bad ret =>
        rw [hentry] at h
        obtain rfl := Except.error.inj h
        exact .inr (entryAt_eq_bad hentry)
      | item key' val more =>
        rw [hentry] at h
        by_cases heq : key' = key
        · simp only [if_pos heq] at h
          exact (ok_ne_error h).elim
        · simp only [if_neg heq] at h
          exact ih (eq_error_of_map h)

/-- The lines of the section before and after: the line of the key takes the place of the entry for it,
or it comes first. -/
inductive Replaced (key val : Line) : List Line → List Line → Prop
  | inserted {lines : List Line} (h : findKey key 0 lines = .error cfgKeyNotFound) :
      Replaced key val lines (keyText key val :: lines)
  | replaced {pre ext tail : List Line} {items : List (Line × Line)} {raw old : Line}
      (hpre : Entries pre items) (hitems : ∀ item ∈ items, item.1 ≠ key)
      (h : entryAt raw (ext ++ tail) = .item key old ext.length) :
      Replaced key val (pre ++ raw :: (ext ++ tail)) (pre ++ keyText key val :: tail)

section Get

variable {text old : Line} {n : ℕ} {e : ℤ} {found : Found}

theorem configGetKey_of_section_error (h : findSection section' (fileLines text) = .error e)
    (key : Line) : configGetKey (some text) section' key = ⟨e, none, 0, 0, 0⟩ := by
  rw [configGetKey, h]

theorem configGetKey_of_key_error {old : List Line}
    (h : findSection section' (fileLines text) = .ok (n, old)) (hkey : findKey key 0 old = .error e) :
    configGetKey (some text) section' key = ⟨e, none, n, 0, 0⟩ := by
  rw [configGetKey, h]
  simp only [hkey]

theorem configGetKey_of_key {old : List Line}
    (h : findSection section' (fileLines text) = .ok (n, old)) (hkey : findKey key 0 old = .ok found) :
    configGetKey (some text) section' key =
      ⟨cfgOk, some found.val, n, n + found.before + 1, found.keyLines⟩ := by
  rw [configGetKey, h]
  simp only [hkey]

end Get

section Set

variable {buf : Option Line} {n k m : ℕ} {ret : ℤ}

/-- A format error, or a line that is too long, keeps the file. -/
theorem configSetKey_of_error (h : configGetKey file section' key = ⟨ret, buf, n, k, m⟩)
    (hret : ret = cfgErrFileFormat ∨ ret = cfgErrExceedBufSize) (val : Line) :
    configSetKey file section' key val = (ret, file) := by
  rw [configSetKey, h]
  obtain rfl | rfl := hret <;> dsimp only
  · exact if_pos (by decide)
  · exact if_pos (by decide)

/-- A section that is not there is appended. -/
theorem configSetKey_of_section_not_found
    (h : configGetKey file section' key = ⟨cfgSectionNotFound, buf, n, k, m⟩) (val : Line) :
    configSetKey file section' key val =
      (cfgOk, some (file.getD [] ++ unlines nl [sectionText section', keyText key val])) := by
  rw [configSetKey, h]
  dsimp only
  exact (if_neg (by decide)).trans (if_pos (by decide))

theorem configSetKey_of_key_not_found
    (h : configGetKey file section' key = ⟨cfgKeyNotFound, buf, n, k, m⟩) (val : Line) :
    configSetKey file section' key val =
      (cfgOk, some (unlines nl ((fileLines (file.getD [])).take n ++
        keyText key val :: (fileLines (file.getD [])).drop n))) := by
  rw [configSetKey, h]
  dsimp only
  exact (if_neg (by decide)).trans (if_neg (by decide))

theorem configSetKey_of_key (h : configGetKey file section' key = ⟨cfgOk, buf, n, k + 1, m⟩)
    (val : Line) :
    configSetKey file section' key val =
      (cfgOk, some (unlines nl ((fileLines (file.getD [])).take k ++
        keyText key val :: (fileLines (file.getD [])).drop (k + m)))) := by
  rw [configSetKey, h]
  dsimp only
  exact (if_neg (by decide)).trans (if_neg (by decide))

end Set

/-- **A write that succeeds**: no line names the section, and it is appended; or its lines are
changed. -/
theorem configSetKey_cases (h : (configSetKey file section' key val).1 = cfgOk) :
    (∀ raw ∈ fileLines (file.getD []), PassedBy section' raw) ∧
        (configSetKey file section' key val).2 =
          some (file.getD [] ++ unlines nl [sectionText section', keyText key val]) ∨
      ∃ pre raw old new, fileLines (file.getD []) = pre ++ raw :: old ∧
        (∀ raw ∈ pre, PassedBy section' raw) ∧ sectionLine raw = .name section' ∧
        Replaced key val old new ∧
        (configSetKey file section' key val).2 = some (unlines nl (pre ++ raw :: new)) := by
  cases file with
  | none => exact .inl ⟨fun raw hraw => absurd hraw List.not_mem_nil, rfl⟩
  | some text =>
    cases hsection : findSection section' (fileLines text) with
    | error e =>
      have hget := configGetKey_of_section_error hsection key
      obtain rfl | rfl := findSection_eq_error hsection
      · rw [configSetKey_of_section_not_found hget]
        exact .inl ⟨passedBy_of_not_found hsection, rfl⟩
      · rw [configSetKey_of_error hget (.inl rfl)] at h
        have hcode : cfgErrFileFormat = cfgOk := h
        exact absurd hcode (by decide)
    | ok r =>
      obtain ⟨n, old⟩ := r
      obtain ⟨pre, raw, hlines, rfl, hpre, hraw⟩ := findSection_eq_ok hsection
      refine .inr ⟨pre, raw, old, ?_⟩
      cases hkey : findKey key 0 old with
      | error e =>
        have hget := configGetKey_of_key_error hsection hkey
        obtain rfl | hbad := findKey_eq_error hkey
        · refine ⟨keyText key val :: old, hlines, hpre, hraw, .inserted hkey, ?_⟩
          have hcons : fileLines text = (pre ++ [raw]) ++ old := by
            rw [hlines, List.append_assoc, List.singleton_append]
          have hlen : (pre ++ [raw]).length = pre.length + 1 := List.length_append
          rw [configSetKey_of_key_not_found hget, Option.getD_some, hcons, List.take_left' hlen,
            List.drop_left' hlen, List.append_assoc, List.singleton_append]
        · rw [configSetKey_of_error hget hbad] at h
          obtain rfl | rfl := hbad
          · have hcode : cfgErrFileFormat = cfgOk := h
            exact absurd hcode (by decide)
          · have hcode : cfgErrExceedBufSize = cfgOk := h
            exact absurd hcode (by decide)
      | ok found =>
        obtain ⟨pre', items, raw', ext, tail, rfl, hentries, hitems, hbefore, hkeyLines, hitem⟩ :=
          exists_entries_of_findKey hkey
        refine ⟨pre' ++ keyText key val :: tail, hlines, hpre, hraw,
          .replaced hentries hitems hitem, ?_⟩
        have hget := configGetKey_of_key hsection hkey
        have hcons : fileLines text = (pre ++ raw :: pre') ++ (raw' :: ext ++ tail) := by
          rw [hlines, List.append_assoc]
          rfl
        have hlen : (pre ++ raw :: pre').length = pre.length + 1 + found.before := by
          rw [hbefore, List.length_append, List.length_cons]
          omega
        have hlen' : (raw' :: ext).length = found.keyLines := by
          rw [hkeyLines, List.length_cons]
        rw [configSetKey_of_key hget, Option.getD_some, hcons, List.take_left' hlen, ← List.drop_drop,
          List.drop_left' hlen, List.drop_left' hlen', List.append_assoc]
        rfl

end Rwini

end ReachEdukit
