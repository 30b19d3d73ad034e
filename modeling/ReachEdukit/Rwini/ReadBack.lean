import ReachEdukit.Rwini.SetKey

/-!
# Reading back what was written

A key that is found is a line taken apart, so it has no newline, no blank at its end and no blank or tab
in front, and its value has none in front. A key or a value that is not like this is not read back.

A section that is not there is appended to the file as it is. If the file does not end in a newline, the
line of the section is glued to the last line, and nothing names the section still: the key is written
and not found. Only blanks in the last line do not matter.

## Main definitions

* `NoControl`, `Fits` — texts that are read line by line
* `Asked` — what a caller may write
* `ReadsBack` — the key is found, with the value that was written

## Main results

* `readsBack_iff` — when a write is read back
* `not_readsBack_glued` — a file without a newline at its end
-/

namespace ReachEdukit

namespace Rwini

open Lines

variable {section' key val raw text last : Line} {lines tail : List Line} {file : Option Line}

/-! ### What a key that is found looks like -/

theorem head?_dropWhile_ne {c : BitVec 8} {p : BitVec 8 → Bool} (hc : p c = true) (l : Line) :
    (l.dropWhile p).head? ≠ some c := by
  intro h
  have hnot := List.head?_dropWhile_not p l
  rw [h] at hnot
  exact Bool.false_ne_true (hnot.symm.trans hc)

theorem mem_of_mem_trim {c : BitVec 8} (h : c ∈ trim raw) : c ∈ raw :=
  (List.dropWhile_suffix _).mem ((List.rdropWhile_prefix _ _).mem h)

theorem getLast?_trim_ne (raw : Line) : (trim raw).getLast? ≠ some blank := by
  intro h
  have hne : trim raw ≠ [] := by
    intro hnil
    rw [hnil] at h
    exact absurd h (by simp)
  have hlast := List.rdropWhile_last_not (fun c : BitVec 8 => c = blank) (strtrimr raw) hne
  rw [List.getLast?_eq_some_getLast hne] at h
  exact hlast (decide_eq_true (Option.some.inj h))

/-- Trimming does not uncover another first character. -/
theorem head?_trim_ne {c : BitVec 8} (h : raw.head? ≠ some c) (hblank : raw.head? ≠ some blank) :
    (trim raw).head? ≠ some c := by
  rw [trim, strtrimr_of_head hblank]
  intro hc
  obtain ⟨t, ht⟩ := List.rdropWhile_prefix (fun c : BitVec 8 => c = blank) raw
  apply h
  rw [← ht]
  exact List.head?_append_of_ne_nil _ (List.ne_nil_of_mem (List.mem_of_head? hc)) ▸ hc

/-- A line that is taken apart. -/
theorem splitKeyValue_eq_ok {buf : Line} (h : splitKeyValue buf = .ok (key, val)) :
    (∀ c ∈ key, c ∈ buf) ∧ key.head? ≠ some tab ∧ key.head? ≠ some blank ∧ val.head? ≠ some tab := by
  rw [splitKeyValue] at h
  set text := buf.dropWhile fun c => c = blank ∨ c = tab with htext
  have hhead : ∀ c, c = blank ∨ c = tab → text.head? ≠ some c := by
    intro c hc
    exact head?_dropWhile_ne (decide_eq_true hc) buf
  have hkey : ∀ c, c = blank ∨ c = tab → (text.takeWhile fun c => c ≠ equals).head? ≠ some c := by
    intro c hc heq
    obtain ⟨t, ht⟩ := List.takeWhile_prefix (l := text) fun c => decide (c ≠ equals)
    apply hhead c hc
    rw [← ht]
    exact List.head?_append_of_ne_nil _ (List.ne_nil_of_mem (List.mem_of_head? heq)) ▸ heq
  split_ifs at h
  cases hdrop : text.dropWhile fun c => c ≠ equals with
  | nil =>
    rw [hdrop] at h
    exact (error_ne_ok h).elim
  | cons c rest =>
    rw [hdrop] at h
    obtain ⟨rfl, rfl⟩ := Prod.mk.inj (Except.ok.inj h)
    refine ⟨fun c hc => ?_, hkey tab (.inr rfl), hkey blank (.inl rfl),
      head?_dropWhile_ne (decide_eq_true (.inr rfl)) rest⟩
    exact (List.dropWhile_suffix _).mem ((List.takeWhile_prefix _).mem hc)

theorem mem_of_goOn {buf1 buf : Line} {n : ℕ} (h : goOn buf1 lines = .ok (buf, n)) {c : BitVec 8}
    (hc : c ∈ buf) : c ∈ buf1 ∨ ∃ raw ∈ lines, c ∈ raw := by
  induction lines generalizing buf1 n with
  | nil =>
    obtain ⟨rfl, -⟩ := Prod.mk.inj (Except.ok.inj h)
    exact .inl hc
  | cons raw lines ih =>
    have hraw : ∀ {c}, c ∈ strtrimr raw → c ∈ raw := (List.dropWhile_suffix _).mem
    rw [goOn] at h
    split_ifs at h
    · obtain ⟨r, hrest, hr⟩ := exists_of_map_eq_ok h
      obtain ⟨rfl, -⟩ := Prod.mk.inj hr
      obtain hmem | ⟨raw', hraw', hmem⟩ := ih hrest
      · obtain hmem | hmem := List.mem_append.mp hmem
        · exact .inl hmem
        · exact .inr ⟨raw, List.mem_cons_self, hraw (List.mem_of_mem_dropLast hmem)⟩
      · exact .inr ⟨raw', List.mem_cons_of_mem _ hraw', hmem⟩
    · obtain ⟨rfl, -⟩ := Prod.mk.inj (Except.ok.inj h)
      obtain hmem | hmem := List.mem_append.mp hc
      · exact .inl hmem
      · exact .inr ⟨raw, List.mem_cons_self, hraw hmem⟩

/-- What an entry's key and value look like. -/
theorem entryAt_eq_item_shape {more : ℕ} (h : entryAt raw lines = .item key val more) :
    ((∀ l ∈ raw :: lines, nl ∉ l) → nl ∉ key) ∧ key.getLast? ≠ some blank ∧ key.head? ≠ some tab ∧
      val.head? ≠ some tab := by
  have hitem : ∀ {buf n}, itemOf buf n = .item key val more →
      (nl ∉ buf → nl ∉ key) ∧ key.getLast? ≠ some blank ∧ key.head? ≠ some tab ∧
        val.head? ≠ some tab := by
    intro buf n hbuf
    rw [itemOf] at hbuf
    cases hsplit : splitKeyValue buf with
    | error e =>
      rw [hsplit] at hbuf
      exact Entry.noConfusion hbuf
    | ok r =>
      rw [hsplit] at hbuf
      obtain ⟨rfl, rfl, rfl⟩ := Entry.item.inj hbuf
      obtain ⟨hmem, htab, hblank, hval⟩ := splitKeyValue_eq_ok hsplit
      exact ⟨fun hnl hkey => hnl (hmem _ (mem_of_mem_trim hkey)), getLast?_trim_ne _,
        head?_trim_ne htab hblank, hval⟩
  obtain ⟨-, hskip, hssl⟩ := entryAt_eq_item h
  by_cases hplus : (trim raw).getLast? = some plus
  · cases hgo : goOn (trim raw).dropLast lines with
    | error e =>
      rw [(entryAt_of_plus hskip hssl hplus).1 e hgo] at h
      exact Entry.noConfusion h
    | ok r =>
      rw [(entryAt_of_plus hskip hssl hplus).2 r.1 r.2 hgo] at h
      obtain ⟨hnl, hrest⟩ := hitem h
      refine ⟨fun hlines => hnl fun hmem => ?_, hrest⟩
      obtain hmem | ⟨raw', hraw', hmem⟩ := mem_of_goOn hgo hmem
      · exact hlines raw List.mem_cons_self (mem_of_mem_trim (List.mem_of_mem_dropLast hmem))
      · exact hlines raw' (List.mem_cons_of_mem _ hraw') hmem
  · rw [entryAt_of_not_plus hskip hssl hplus] at h
    obtain ⟨hnl, hrest⟩ := hitem h
    exact ⟨fun hlines => hnl fun hmem => hlines raw List.mem_cons_self (mem_of_mem_trim hmem), hrest⟩

/-- A key that is found, in the lines of the file. -/
theorem exists_found_of_ret (h : (configGetKey file section' key).ret = cfgOk) :
    ∃ n old found, findSection section' (fileLines (file.getD [])) = .ok (n, old) ∧
      findKey key 0 old = .ok found ∧ (configGetKey file section' key).buf = some found.val := by
  cases file with
  | none =>
    have hcode : cfgErrOpenFile = cfgOk := h
    exact absurd hcode (by decide)
  | some text =>
    cases hsection : findSection section' (fileLines text) with
    | error e =>
      rw [configGetKey_of_section_error hsection] at h
      obtain rfl | rfl := findSection_eq_error hsection
      · have hcode : cfgSectionNotFound = cfgOk := h
        exact absurd hcode (by decide)
      · have hcode : cfgErrFileFormat = cfgOk := h
        exact absurd hcode (by decide)
    | ok r =>
      obtain ⟨n, old⟩ := r
      cases hkey : findKey key 0 old with
      | error e =>
        rw [configGetKey_of_key_error hsection hkey] at h
        obtain rfl | rfl | rfl := findKey_eq_error hkey
        · have hcode : cfgKeyNotFound = cfgOk := h
          exact absurd hcode (by decide)
        · have hcode : cfgErrFileFormat = cfgOk := h
          exact absurd hcode (by decide)
        · have hcode : cfgErrExceedBufSize = cfgOk := h
          exact absurd hcode (by decide)
      | ok found =>
        refine ⟨n, old, found, hsection, hkey, ?_⟩
        rw [configGetKey_of_key hsection hkey]

/-- **A key that is found**, in any file. -/
theorem shape_of_ret (h : (configGetKey file section' key).ret = cfgOk)
    (hbuf : (configGetKey file section' key).buf = some val) :
    nl ∉ key ∧ key.getLast? ≠ some blank ∧ key.head? ≠ some tab ∧ val.head? ≠ some tab := by
  obtain ⟨n, old, found, hsection, hkey, hval⟩ := exists_found_of_ret h
  obtain rfl := Option.some.inj (hbuf.symm.trans hval)
  obtain ⟨pre, raw, hlines, -⟩ := findSection_eq_ok hsection
  obtain ⟨pre', items, raw', ext, tail, rfl, -, -, -, -, hitem⟩ := exists_entries_of_findKey hkey
  obtain ⟨hnl, hrest⟩ := entryAt_eq_item_shape hitem
  refine ⟨hnl fun l hl => ?_, hrest⟩
  have hmem : l ∈ fileLines (file.getD []) := by
    rw [hlines]
    exact List.mem_append_right _ (List.mem_cons_of_mem _ (List.mem_append_right _ hl))
  exact nl_notMem_of_mem_fileLines hmem

/-! ### Files that are read line by line -/

/-- No carriage return, form feed, end-of-file character or NUL. -/
def NoControl (text : Line) : Prop := ∀ c ∈ text, c ≠ 0 ∧ c ≠ 0x0c ∧ c ≠ 0x1a ∧ c ≠ 0x0d

instance (text : Line) : Decidable (NoControl text) := inferInstanceAs (Decidable (∀ c ∈ text, _))

/-- Every line is read in one go, with its newline. -/
def Fits (text : Line) : Prop := ∀ line, line <:+: text → nl ∉ line → line.length < maxCfgBuf

theorem fits_of_length_lt (h : text.length < maxCfgBuf) : Fits text :=
  fun _ hline _ => hline.length_le.trans_lt h

/-- What stands behind the last newline. -/
def lastLine (text : Line) : Line := text.rtakeWhile fun c => c ≠ nl

theorem good_of_infix (hplain : NoControl text) (hfits : Fits text) (h : raw <:+: text)
    (hnl : nl ∉ raw) : Good raw where
  plain c hc := ⟨fun heq => hnl (heq ▸ hc), hplain c (h.mem hc)⟩
  fits := hfits raw h hnl

theorem infix_unlines {l : Line} (h : l ∈ lines) (last : Line) : l <:+: unlines nl lines ++ last := by
  obtain ⟨pre, tail, rfl⟩ := List.append_of_mem h
  refine ⟨unlines nl pre, nl :: unlines nl tail ++ last, ?_⟩
  rw [unlines_append, unlines_cons]
  simp

theorem lastLine_unlines (lines : List Line) (hlast : nl ∉ last) :
    lastLine (unlines nl lines ++ last) = last := by
  have hpos : ∀ c ∈ last.reverse, decide (c ≠ nl) = true := by
    intro c hc
    rw [decide_eq_true_iff]
    rintro rfl
    exact hlast (List.mem_reverse.mp hc)
  rw [lastLine, List.rtakeWhile, List.reverse_append, List.takeWhile_append_of_pos hpos]
  cases lines using List.reverseRecOn with
  | nil => simp
  | append_singleton lines l => simp [unlines_append]

/-- **The lines of a file** that is read line by line. -/
theorem exists_lines (hplain : NoControl text) (hfits : Fits text) :
    ∃ lines, text = unlines nl lines ++ lastLine text ∧ (∀ l ∈ lines, Good l) ∧
      Good (lastLine text) ∧
      fileLines text = lines ++ if lastLine text = [] then [] else [lastLine text] := by
  obtain ⟨lines, last, rfl, hlines, hlast⟩ := exists_unlines nl text
  have hgood : ∀ l ∈ lines, Good l := fun l hl =>
    good_of_infix hplain hfits (infix_unlines hl last) (hlines l hl)
  have hlastGood : Good last := good_of_infix hplain hfits (List.suffix_append _ _).isInfix hlast
  rw [lastLine_unlines lines hlast]
  refine ⟨lines, rfl, hgood, hlastGood, ?_⟩
  by_cases hnil : last = []
  · rw [if_pos hnil, hnil, List.append_nil, List.append_nil]
    exact reads_fileGetLine.all_unlines hgood
  · rw [if_neg hnil]
    exact reads_fileGetLine.all_unlines_append hgood hlastGood hnil

theorem good_of_mem_fileLines (hplain : NoControl text) (hfits : Fits text)
    (h : raw ∈ fileLines text) : Good raw := by
  obtain ⟨lines, -, hlines, hlast, hfile⟩ := exists_lines hplain hfits
  rw [hfile] at h
  obtain h | h := List.mem_append.mp h
  · exact hlines raw h
  · split_ifs at h
    · exact absurd h List.not_mem_nil
    · rwa [List.mem_singleton.mp h]

/-! ### A section that is appended -/

theorem sectionLine_congr {raw' : Line} (h : trim raw = trim raw') : sectionLine raw = sectionLine raw' := by
  rw [sectionLine, sectionLine, h]

/-- Behind blanks only, the line of the section names it. -/
theorem sectionLine_blank_append (h : ∀ c ∈ last, c = blank) (section' : Line) :
    sectionLine (last ++ sectionText section') = .name section' := by
  have htrim : strtrimr (last ++ sectionText section') = strtrimr (sectionText section') :=
    List.dropWhile_append_of_pos fun c hc => decide_eq_true (h c hc)
  rw [← sectionLine_sectionText section']
  exact sectionLine_congr (congrArg strtriml htrim)

theorem trim_glued (h : ¬ ∀ c ∈ last, c = blank) (section' : Line) :
    strtrimr last ≠ [] ∧
      trim (last ++ sectionText section') = strtrimr last ++ cfgSsl :: section' ++ [cfgSsr] := by
  have hne : last.dropWhile (fun c => decide (c = blank)) ≠ [] := by
    intro hnil
    exact h fun c hc => of_decide_eq_true (List.dropWhile_eq_nil_iff.mp hnil c hc)
  have hfront : strtrimr (last ++ sectionText section') =
      strtrimr last ++ cfgSsl :: section' ++ [cfgSsr] := by
    rw [strtrimr, List.dropWhile_append, if_neg fun hnil => hne (List.isEmpty_iff.mp hnil),
      sectionText, ← List.cons_append, ← List.append_assoc]
    rfl
  refine ⟨hne, ?_⟩
  rw [trim, hfront]
  exact strtriml_of_last (by rw [List.getLast?_concat]; decide)

/-- **Glued to anything else**, the line of the section does not name it. -/
theorem passedBy_glued (h : ¬ ∀ c ∈ last, c = blank) (section' : Line) :
    PassedBy section' (last ++ sectionText section') := by
  obtain ⟨hne, htrim⟩ := trim_glued h section'
  -- the name would be longer than the section
  have hname : (strtrimr last ++ cfgSsl :: section' ++ [cfgSsr]).dropLast.drop 1 ≠ section' := by
    intro heq
    have hlen := congrArg List.length heq
    rw [List.dropLast_concat, List.length_drop, List.length_append, List.length_cons] at hlen
    have hpos := List.length_pos_iff.mpr hne
    omega
  rw [PassedBy, sectionLine, htrim]
  split_ifs with hskip hbad hssl
  · exact ⟨SectionLine.noConfusion, SectionLine.noConfusion⟩
  · rw [List.getLast?_concat] at hbad
    exact absurd rfl hbad.2.2
  · exact ⟨SectionLine.noConfusion, fun heq => hname (SectionLine.name.inj heq)⟩
  · exact ⟨SectionLine.noConfusion, SectionLine.noConfusion⟩

/-! ### What is read back -/

/-- What a caller may write. -/
structure Asked (section' key val : Line) : Prop where
  section_noControl : NoControl section'
  section_nl : nl ∉ section'
  section_head : section'.head? ≠ some blank
  section_last : section'.getLast? ≠ some blank
  key_noControl : NoControl key
  key_ne : key ≠ []
  key_equals : equals ∉ key
  key_nts : key.head? ≠ some cfgNts
  key_ssl : key.head? ≠ some cfgSsl
  key_blank : key.head? ≠ some blank
  val_noControl : NoControl val
  val_nl : nl ∉ val
  val_head : val.head? ≠ some blank
  val_last : val.getLast? ≠ some blank
  val_plus : val.getLast? ≠ some plus

/-- The key is found in the file that is written, with the value. -/
def ReadsBack (file : Option Line) (section' key val : Line) : Prop :=
  (configGetKey (configSetKey file section' key val).2 section' key).ret = cfgOk ∧
    (configGetKey (configSetKey file section' key val).2 section' key).buf = some val

instance (file : Option Line) (section' key val : Line) : Decidable (ReadsBack file section' key val) :=
  inferInstanceAs (Decidable (_ ∧ _))

/-- **The key of the lines that were written.** -/
theorem Replaced.findKey_eq {old new : List Line} (h : Replaced key val old new)
    (hform : WellFormed key val) : ∃ found, findKey key 0 new = .ok found ∧ found.val = val := by
  cases h with
  | inserted h => exact ⟨⟨val, 0, 1⟩, by rw [findKey_keyText hform, if_pos rfl], rfl⟩
  | @replaced pre ext tail items raw old hpre hitems h =>
    refine ⟨(⟨val, 0, 1⟩ : Found).later pre.length, ?_, rfl⟩
    rw [hpre.findKey_append hitems, findKey_keyText hform, if_pos rfl]
    rfl

theorem Replaced.mem {old new : List Line} (h : Replaced key val old new) (hraw : raw ∈ new) :
    raw = keyText key val ∨ raw ∈ old := by
  cases h with
  | inserted h => exact List.mem_cons.mp hraw
  | replaced hpre hitems h =>
    obtain hraw | hraw := List.mem_append.mp hraw
    · exact .inr (List.mem_append_left _ hraw)
    · obtain rfl | hraw := List.mem_cons.mp hraw
      · exact .inl rfl
      · exact .inr (List.mem_append_right _ (List.mem_cons_of_mem _ (List.mem_append_right _ hraw)))

theorem Replaced.keyText_mem {old new : List Line} (h : Replaced key val old new) :
    keyText key val ∈ new := by
  cases h with
  | inserted h => exact List.mem_cons_self
  | replaced hpre hitems h => exact List.mem_append_right _ List.mem_cons_self

/-- What is found in lines of which one names the section. -/
theorem configGetKey_of_lines {pre new : List Line} {found : Found}
    (hfile : fileLines text = pre ++ raw :: new) (hpre : ∀ raw ∈ pre, PassedBy section' raw)
    (hraw : sectionLine raw = .name section') (hkey : findKey key 0 new = .ok found) :
    (configGetKey (some text) section' key).ret = cfgOk ∧
      (configGetKey (some text) section' key).buf = some found.val := by
  have hsection : findSection section' (fileLines text) = .ok (pre.length + 1, new) := by
    rw [hfile]
    exact findSection_of_name hpre hraw new
  rw [configGetKey_of_key hsection hkey]
  exact ⟨rfl, rfl⟩

section Asked

variable {new : Line} (h : Asked section' key val)

include h

theorem Asked.wellFormed (hlast : key.getLast? ≠ some blank) (htab : key.head? ≠ some tab)
    (hval : val.head? ≠ some tab) : WellFormed key val :=
  ⟨h.key_ne, h.key_equals, h.key_nts, h.key_ssl, h.key_blank, htab, hlast, h.val_head, hval, h.val_last,
    h.val_plus⟩

theorem Asked.noControl_keyText : NoControl (keyText key val) := by
  intro c hc
  obtain hc | hc := List.mem_append.mp hc
  · exact h.key_noControl c hc
  · obtain rfl | hc := List.mem_cons.mp hc
    · decide
    · exact h.val_noControl c hc

theorem Asked.noControl_sectionText : NoControl (sectionText section') := by
  intro c hc
  obtain rfl | hc := List.mem_cons.mp hc
  · decide
  · obtain hc | hc := List.mem_append.mp hc
    · exact h.section_noControl c hc
    · rw [List.mem_singleton.mp hc]
      decide

theorem Asked.nl_notMem_keyText (hkey : nl ∉ key) : nl ∉ keyText key val := by
  intro hmem
  obtain hmem | hmem := List.mem_append.mp hmem
  · exact hkey hmem
  · obtain heq | hmem := List.mem_cons.mp hmem
    · exact absurd heq (by decide)
    · exact h.val_nl hmem

theorem Asked.nl_notMem_sectionText : nl ∉ sectionText section' := by
  intro hmem
  obtain heq | hmem := List.mem_cons.mp hmem
  · exact absurd heq (by decide)
  · obtain hmem | hmem := List.mem_append.mp hmem
    · exact h.section_nl hmem
    · exact absurd (List.mem_singleton.mp hmem) (by decide)

/-- The line of the key, in a file that is read line by line. -/
theorem Asked.good_keyText (hkey : nl ∉ key) (hnew : Fits new) (hmem : keyText key val <:+: new) :
    Good (keyText key val) where
  plain c hc := ⟨fun heq => h.nl_notMem_keyText hkey (heq ▸ hc), h.noControl_keyText c hc⟩
  fits := hnew _ hmem (h.nl_notMem_keyText hkey)

end Asked

theorem fits_unlines (hfits : Fits (unlines nl lines)) (h : raw ∈ lines) (hnl : nl ∉ raw) :
    raw.length < maxCfgBuf := by
  refine hfits raw ?_ hnl
  have hinfix := infix_unlines h []
  rwa [List.append_nil] at hinfix

/-- The lines of the file that is written, when the section is there. -/
theorem fileLines_replaced {pre old new : List Line} (hold : ∀ l ∈ pre ++ raw :: old, Good l)
    (hkeyText : Good (keyText key val)) (hreplaced : Replaced key val old new) :
    fileLines (unlines nl (pre ++ raw :: new)) = pre ++ raw :: new := by
  refine reads_fileGetLine.all_unlines fun l hl => ?_
  obtain hl | hl := List.mem_append.mp hl
  · exact hold l (List.mem_append_left _ hl)
  · obtain rfl | hl := List.mem_cons.mp hl
    · exact hold l (List.mem_append_right _ List.mem_cons_self)
    · obtain rfl | hl := hreplaced.mem hl
      · exact hkeyText
      · exact hold l (List.mem_append_right _ (List.mem_cons_of_mem _ hl))

/-- In a section that is there, the key is read back. -/
theorem readsBack_of_replaced {pre old new : List Line} (h : Asked section' key val)
    (hform : WellFormed key val) (hkey : nl ∉ key) (hfile : NoControl (file.getD []))
    (hfits : Fits (file.getD [])) (hnew : Fits (unlines nl (pre ++ raw :: new)))
    (hlines : fileLines (file.getD []) = pre ++ raw :: old)
    (hpre : ∀ raw ∈ pre, PassedBy section' raw) (hraw : sectionLine raw = .name section')
    (hreplaced : Replaced key val old new)
    (hset : (configSetKey file section' key val).2 = some (unlines nl (pre ++ raw :: new))) :
    ReadsBack file section' key val := by
  have hold : ∀ l ∈ pre ++ raw :: old, Good l := by
    intro l hl
    exact good_of_mem_fileLines hfile hfits (hlines ▸ hl)
  have hkeyText : Good (keyText key val) := by
    refine h.good_keyText hkey hnew ?_
    have hmem : keyText key val ∈ pre ++ raw :: new :=
      List.mem_append_right _ (List.mem_cons_of_mem _ hreplaced.keyText_mem)
    have hinfix := infix_unlines hmem []
    rwa [List.append_nil] at hinfix
  obtain ⟨found, hfound, rfl⟩ := hreplaced.findKey_eq hform
  rw [ReadsBack, hset]
  exact configGetKey_of_lines (fileLines_replaced hold hkeyText hreplaced) hpre hraw hfound

/-- The lines of the file that is written, when the section is appended. -/
theorem exists_lines_appended (h : Asked section' key val) (hkey : nl ∉ key)
    (hfile : NoControl text) (hfits : Fits text)
    (hnew : Fits (text ++ unlines nl [sectionText section', keyText key val])) :
    ∃ lines, (∀ raw ∈ lines, raw ∈ fileLines text) ∧
      fileLines (text ++ unlines nl [sectionText section', keyText key val]) =
        lines ++ [lastLine text ++ sectionText section', keyText key val] := by
  obtain ⟨lines, htext, hlines, hlast, hfileLines⟩ := exists_lines hfile hfits
  set last := lastLine text with hlastLine
  have hunlines : text ++ unlines nl [sectionText section', keyText key val] =
      unlines nl (lines ++ [last ++ sectionText section', keyText key val]) := by
    rw [htext]
    simp only [unlines_append, unlines_cons, List.append_assoc]
  rw [hunlines] at hnew ⊢
  refine ⟨lines, fun raw hraw => ?_, reads_fileGetLine.all_unlines fun l hl => ?_⟩
  · rw [hfileLines]
    exact List.mem_append_left _ hraw
  · have hfitsLine : nl ∉ l → l.length < maxCfgBuf := fits_unlines hnew hl
    obtain hl | hl := List.mem_append.mp hl
    · exact hlines l hl
    · obtain rfl | hl := List.mem_cons.mp hl
      · have hnl : nl ∉ last ++ sectionText section' := by
          intro hmem
          obtain hmem | hmem := List.mem_append.mp hmem
          · exact (hlast.plain _ hmem).1 rfl
          · exact h.nl_notMem_sectionText hmem
        refine ⟨fun c hc => ⟨fun heq => hnl (heq ▸ hc), ?_⟩, hfitsLine hnl⟩
        obtain hc | hc := List.mem_append.mp hc
        · exact (hlast.plain c hc).2
        · exact h.noControl_sectionText c hc
      · obtain rfl := List.mem_singleton.mp hl
        have hnl := h.nl_notMem_keyText hkey
        exact ⟨fun c hc => ⟨fun heq => hnl (heq ▸ hc), h.noControl_keyText c hc⟩, hfitsLine hnl⟩

/-- **A section that is appended** is found behind blanks only. -/
theorem readsBack_appended_iff (h : Asked section' key val) (hform : WellFormed key val)
    (hkey : nl ∉ key) (hfile : NoControl (file.getD [])) (hfits : Fits (file.getD []))
    (hnew : Fits (file.getD [] ++ unlines nl [sectionText section', keyText key val]))
    (hpassed : ∀ raw ∈ fileLines (file.getD []), PassedBy section' raw)
    (hset : (configSetKey file section' key val).2 =
      some (file.getD [] ++ unlines nl [sectionText section', keyText key val])) :
    ReadsBack file section' key val ↔ ∀ c ∈ lastLine (file.getD []), c = blank := by
  obtain ⟨lines, hlines, hread⟩ := exists_lines_appended h hkey hfile hfits hnew
  have hpre : ∀ raw ∈ lines, PassedBy section' raw := fun raw hraw => hpassed raw (hlines raw hraw)
  rw [ReadsBack, hset]
  constructor
  · rintro ⟨hret, -⟩
    by_contra hglued
    obtain ⟨n, old, found, hsection, -⟩ := exists_found_of_ret hret
    have hkeyPassed : PassedBy section' (keyText key val) :=
      passedBy_of_other (sectionLine_keyText hform) _
    rw [Option.getD_some, hread, findSection_append hpre,
      findSection_cons_of_passedBy (passedBy_glued hglued section'),
      findSection_cons_of_passedBy hkeyPassed] at hsection
    exact (error_ne_ok hsection).elim
  · intro hblank
    have hfound : findKey key 0 [keyText key val] = .ok ⟨val, 0, 1⟩ := by
      rw [findKey_keyText hform, if_pos rfl]
    exact configGetKey_of_lines hread hpre (sectionLine_blank_append hblank section') hfound

/-- **When a write is read back**: the key has no newline, no blank at its end and no tab in front, the
value has no tab in front, and there is the section, or nothing but blanks in the last line. -/
theorem readsBack_iff (hfile : NoControl (file.getD [])) (hfits : Fits (file.getD []))
    (hasked : Asked section' key val) (hset : (configSetKey file section' key val).1 = cfgOk)
    (hnew : Fits ((configSetKey file section' key val).2.getD [])) :
    ReadsBack file section' key val ↔
      (nl ∉ key ∧ key.getLast? ≠ some blank ∧ key.head? ≠ some tab ∧ val.head? ≠ some tab) ∧
        ((∃ raw ∈ fileLines (file.getD []), sectionLine raw = .name section') ∨
          ∀ c ∈ lastLine (file.getD []), c = blank) := by
  obtain ⟨hpassed, hfileSet⟩ | ⟨pre, raw, old, new, hlines, hpre, hraw, hreplaced, hfileSet⟩ :=
    configSetKey_cases hset
  · rw [hfileSet] at hnew
    have hnone : ¬ ∃ raw ∈ fileLines (file.getD []), sectionLine raw = .name section' := by
      rintro ⟨raw, hmem, hraw⟩
      exact (hpassed raw hmem).2 hraw
    constructor
    · intro hback
      obtain ⟨hkey, hlast, htab, hval⟩ := shape_of_ret hback.1 hback.2
      refine ⟨⟨hkey, hlast, htab, hval⟩, .inr ?_⟩
      exact (readsBack_appended_iff hasked (hasked.wellFormed hlast htab hval) hkey hfile hfits hnew
        hpassed hfileSet).mp hback
    · rintro ⟨⟨hkey, hlast, htab, hval⟩, hsection | hblank⟩
      · exact absurd hsection hnone
      · exact (readsBack_appended_iff hasked (hasked.wellFormed hlast htab hval) hkey hfile hfits hnew
          hpassed hfileSet).mpr hblank
  · rw [hfileSet] at hnew
    constructor
    · intro hback
      refine ⟨shape_of_ret hback.1 hback.2, .inl ⟨raw, ?_, hraw⟩⟩
      rw [hlines]
      exact List.mem_append_right _ List.mem_cons_self
    · rintro ⟨⟨hkey, hlast, htab, hval⟩, -⟩
      exact readsBack_of_replaced hasked (hasked.wellFormed hlast htab hval) hkey hfile hfits hnew
        hlines hpre hraw hreplaced hfileSet

/-- With `x=1` in section `a`, a 2 in its place. -/
theorem readsBack_iff_in_place :
    ReadsBack (some [0x5b, 0x61, 0x5d, 0x0a, 0x78, 0x3d, 0x31, 0x0a]) [0x61] [0x78] [0x32] ↔
      (nl ∉ [(0x78 : BitVec 8)] ∧ [(0x78 : BitVec 8)].getLast? ≠ some blank ∧
        [(0x78 : BitVec 8)].head? ≠ some tab ∧ [(0x32 : BitVec 8)].head? ≠ some tab) ∧
        ((∃ raw ∈ fileLines [0x5b, 0x61, 0x5d, 0x0a, 0x78, 0x3d, 0x31, 0x0a],
            sectionLine raw = .name [0x61]) ∨
          ∀ c ∈ lastLine [0x5b, 0x61, 0x5d, 0x0a, 0x78, 0x3d, 0x31, 0x0a], c = blank) :=
  readsBack_iff (by decide) (fits_of_length_lt (by decide)) (by constructor <;> decide) (by decide)
    (fits_of_length_lt (by decide))

/-- **A file without a newline at its end**: `x=1` in section `a`, and then `k=v` for section `b`. -/
theorem not_readsBack_glued :
    ¬ ∀ (file : Option Line) (section' key val : Line), NoControl (file.getD []) →
      Fits (file.getD []) → Asked section' key val → (configSetKey file section' key val).1 = cfgOk →
      Fits ((configSetKey file section' key val).2.getD []) → ReadsBack file section' key val := by
  intro h
  have hback := h (some [0x5b, 0x61, 0x5d, 0x0a, 0x78, 0x3d, 0x31]) [0x62] [0x6b] [0x76] (by decide)
    (fits_of_length_lt (by decide)) (by constructor <;> decide) (by decide)
    (fits_of_length_lt (by decide))
  exact absurd hback (by decide)

end Rwini

end ReachEdukit
