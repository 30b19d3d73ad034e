import ReachEdukit.Rwini.ReadBack

/-!
# What a write leaves alone

A write changes the lines of one entry, or puts one in. Another key of the section is looked for past
whole entries, before it and behind it. Another section in front ends at the line of this one, unless
that line belongs to an entry: a line that ends in `+` goes on in it. The line that is asked for `+` and
the line that is asked for `[` have been trimmed.

## Main definitions

* `Apart` — a line that goes on is not followed by the line of a section
* `lookUp` — what `ConfigGetKey` makes of the lines

## Main results

* `findKey_before_header` — looking for a key does not look behind the next section
* `lookUp_replaced` — what a write does for other keys
* `configGetKey_configSetKey_of_ne` — the same, for the two functions
-/

namespace ReachEdukit

namespace Rwini

open Lines

variable {section' key val raw text : Line} {lines tail : List Line}

/-- A line that goes on is not followed by the line of a section. -/
def Apart (a b : Line) : Prop := (trim a).getLast? = some plus → (trim b).head? ≠ some cfgSsl

instance (a b : Line) : Decidable (Apart a b) := inferInstanceAs (Decidable (_ → _))

/-! ### The lines in front of a section -/

section Header

variable {c : Line} {q : List Line} (hheader : (trim raw).head? = some cfgSsl)

theorem getLast?_trim_of_strtrimr (h : (strtrimr c).getLast? = some plus) :
    (trim c).getLast? = some plus := by
  rw [trim, strtriml_of_last (by rw [h]; decide), h]

include hheader

/-- A line that goes on ends in front of the line of a section. -/
theorem goOn_before_header (hplus : (trim c).getLast? = some plus)
    (hapart : List.IsChain Apart (c :: (q ++ [raw]))) (buf1 : Line) (X X' : List Line) :
    goOn buf1 (q ++ raw :: X) = goOn buf1 (q ++ raw :: X') ∧
      ∀ buf n, goOn buf1 (q ++ raw :: X) = .ok (buf, n) → n ≤ q.length := by
  induction q generalizing c buf1 with
  | nil => exact absurd hheader (hapart.rel hplus)
  | cons d q ih =>
    have hapart : List.IsChain Apart (d :: (q ++ [raw])) := hapart.tail
    rw [List.cons_append, List.cons_append, goOn, goOn]
    by_cases hd : (strtrimr d).getLast? = some plus
    · obtain ⟨heq, hle⟩ :=
        ih (getLast?_trim_of_strtrimr hd) hapart (buf1 ++ (strtrimr d).dropLast)
      rw [if_pos hd, if_pos hd, ← heq]
      refine ⟨rfl, fun buf n h => ?_⟩
      split_ifs at h
      obtain ⟨r, hrest, hr⟩ := exists_of_map_eq_ok h
      obtain ⟨-, rfl⟩ := Prod.mk.inj hr
      exact Nat.succ_le_succ (hle r.1 r.2 hrest)
    · rw [if_neg hd, if_neg hd]
      refine ⟨rfl, fun buf n h => ?_⟩
      split_ifs at h
      obtain ⟨-, rfl⟩ := Prod.mk.inj (Except.ok.inj h)
      exact Nat.succ_le_succ (Nat.zero_le _)

theorem entryAt_before_header (hapart : List.IsChain Apart (c :: (q ++ [raw]))) (X X' : List Line) :
    entryAt c (q ++ raw :: X) = entryAt c (q ++ raw :: X') ∧
      ∀ key val more, entryAt c (q ++ raw :: X) = .item key val more → more ≤ q.length := by
  rw [entryAt, entryAt]
  by_cases hskip : Skipped (trim c)
  · rw [if_pos hskip, if_pos hskip]
    exact ⟨rfl, fun key val more h => Entry.noConfusion h⟩
  · by_cases hssl : (trim c).head? = some cfgSsl
    · rw [if_neg hskip, if_neg hskip, if_pos hssl, if_pos hssl]
      exact ⟨rfl, fun key val more h => Entry.noConfusion h⟩
    · by_cases hplus : (trim c).getLast? = some plus
      · obtain ⟨heq, hle⟩ := goOn_before_header hheader hplus hapart (trim c).dropLast X X'
        rw [if_neg hskip, if_neg hskip, if_neg hssl, if_neg hssl, if_pos hplus, if_pos hplus, ← heq]
        refine ⟨rfl, fun key val more h => ?_⟩
        cases hgo : goOn (trim c).dropLast (q ++ raw :: X) with
        | error e =>
          rw [hgo] at h
          exact Entry.noConfusion h
        | ok r =>
          rw [hgo] at h
          rw [← (itemOf_eq_item h).1]
          exact hle r.1 r.2 hgo
      · rw [if_neg hskip, if_neg hskip, if_neg hssl, if_neg hssl, if_neg hplus, if_neg hplus]
        refine ⟨rfl, fun key val more h => ?_⟩
        rw [← (itemOf_eq_item h).1]
        exact Nat.zero_le _

/-- **Looking for a key does not look behind the next section.** -/
theorem findKey_before_header (hapart : List.IsChain Apart (q ++ [raw])) (key : Line) {skip : ℕ}
    (hskip : skip ≤ q.length) (X X' : List Line) :
    findKey key skip (q ++ raw :: X) = findKey key skip (q ++ raw :: X') := by
  induction q generalizing skip with
  | nil =>
    obtain rfl : skip = 0 := Nat.le_zero.mp hskip
    have hnot : ¬ Skipped (trim raw) := by
      rintro (hnil | hnts)
      · rw [hnil] at hheader
        exact absurd hheader (by simp)
      · rw [hheader] at hnts
        exact absurd hnts (by decide)
    rw [List.nil_append, List.nil_append, findKey, findKey, entryAt_of_header hnot hheader,
      entryAt_of_header hnot hheader]
  | cons c q ih =>
    have htail : List.IsChain Apart (q ++ [raw]) := hapart.tail
    cases skip with
    | succ skip =>
      rw [List.cons_append, List.cons_append, findKey, findKey, ih htail (Nat.le_of_succ_le_succ hskip)]
    | zero =>
      obtain ⟨heq, hle⟩ := entryAt_before_header hheader hapart X X'
      rw [List.cons_append, List.cons_append, findKey, findKey, ← heq]
      cases hentry : entryAt c (q ++ raw :: X) with
      | skipped => rw [ih htail (Nat.zero_le _)]
      | header => rfl
      | bad ret => rfl
      | item key' val more => simp only [ih htail (hle key' val more hentry)]

end Header

/-! ### The lines of an entry -/

theorem sectionLine_of_head (h : (trim raw).head? ≠ some cfgSsl) : sectionLine raw = .other := by
  rw [sectionLine]
  split_ifs with hskip hbad
  · rfl
  · exact absurd hbad.2.1 h
  · rfl

/-- The lines that an entry goes on in. -/
theorem head?_of_goOn {c buf1 buf : Line} {ext : List Line} (hplus : (trim c).getLast? = some plus)
    (h : goOn buf1 (ext ++ tail) = .ok (buf, ext.length)) (hapart : List.IsChain Apart (c :: ext)) :
    ∀ l ∈ ext, (trim l).head? ≠ some cfgSsl := by
  induction ext generalizing c buf1 with
  | nil => exact fun l hl => absurd hl List.not_mem_nil
  | cons d ext ih =>
    have hd : (trim d).head? ≠ some cfgSsl := hapart.rel hplus
    intro l hl
    obtain rfl | hl := List.mem_cons.mp hl
    · exact hd
    · obtain ⟨hnext, m, hm, hrest, -⟩ | ⟨hm, -⟩ := goOn_cons_ok h
      · obtain rfl : ext.length = m := Nat.succ.inj hm
        exact ih (getLast?_trim_of_strtrimr hnext) hrest hapart.tail l hl
      · obtain rfl : ext = [] := List.length_eq_zero_iff.mp (Nat.succ.inj hm)
        exact absurd hl List.not_mem_nil

/-- **An entry has no line of a section in it.** -/
theorem sectionLine_of_item {ext : List Line}
    (h : entryAt raw (ext ++ tail) = .item key val ext.length)
    (hapart : List.IsChain Apart (raw :: ext)) : ∀ l ∈ raw :: ext, sectionLine l = .other := by
  obtain ⟨-, hskip, hssl⟩ := entryAt_eq_item h
  intro l hl
  apply sectionLine_of_head
  obtain rfl | hl := List.mem_cons.mp hl
  · exact hssl
  · by_cases hplus : (trim raw).getLast? = some plus
    · cases hgo : goOn (trim raw).dropLast (ext ++ tail) with
      | error e =>
        rw [(entryAt_of_plus hskip hssl hplus).1 e hgo] at h
        exact Entry.noConfusion h
      | ok r =>
        rw [(entryAt_of_plus hskip hssl hplus).2 r.1 r.2 hgo] at h
        have hgo' : goOn (trim raw).dropLast (ext ++ tail) = .ok (r.1, ext.length) := by
          rw [hgo, ← (itemOf_eq_item h).1]
        exact head?_of_goOn hplus hgo' hapart l hl
    · rw [entryAt_of_not_plus hskip hssl hplus] at h
      obtain rfl : ext = [] := List.length_eq_zero_iff.mp (itemOf_eq_item h).1.symm
      exact absurd hl List.not_mem_nil

theorem Entries.sectionLine_eq {items : List (Line × Line)} (h : Entries lines items)
    (hapart : List.IsChain Apart lines) : ∀ l ∈ lines, sectionLine l = .other := by
  induction h with
  | nil => exact fun l hl => absurd hl List.not_mem_nil
  | @skipped raw lines items hskip _ ih =>
    intro l hl
    obtain rfl | hl := List.mem_cons.mp hl
    · rw [sectionLine, if_pos hskip]
    · exact ih hapart.tail l hl
  | @item raw key val ext lines items hitem _ ih =>
    intro l hl
    rw [← List.cons_append] at hl hapart
    obtain hl | hl := List.mem_append.mp hl
    · exact sectionLine_of_item (hitem []) hapart.left_of_append l hl
    · exact ih hapart.right_of_append l hl

/-! ### Looking up -/

/-- `ConfigGetKey`, without the numbers of the lines. -/
def lookUp (section' key : Line) (lines : List Line) : Except ℤ Line := do
  let r ← findSection section' lines
  let found ← findKey key 0 r.2
  return found.val

/-- What `ConfigGetKey` returns, and `buf`. -/
def outcome : Except ℤ Line → ℤ × Option Line
  | .error ret => (ret, none)
  | .ok val => (cfgOk, some val)

theorem configGetKey_eq_outcome (text section' key : Line) :
    ((configGetKey (some text) section' key).ret, (configGetKey (some text) section' key).buf) =
      outcome (lookUp section' key (fileLines text)) := by
  rw [lookUp]
  cases hsection : findSection section' (fileLines text) with
  | error e =>
    rw [configGetKey_of_section_error hsection]
    rfl
  | ok r =>
    obtain ⟨n, old⟩ := r
    cases hkey : findKey key 0 old with
    | error e =>
      rw [configGetKey_of_key_error hsection hkey]
      change _ = outcome ((findKey key 0 old).bind fun found => .ok found.val)
      rw [hkey]
      rfl
    | ok found =>
      rw [configGetKey_of_key hsection hkey]
      change _ = outcome ((findKey key 0 old).bind fun found => .ok found.val)
      rw [hkey]
      rfl

theorem lookUp_append (h : ∀ raw ∈ lines, PassedBy section' raw) (key : Line) (tail : List Line) :
    lookUp section' key (lines ++ tail) = lookUp section' key tail := by
  rw [lookUp, lookUp, findSection_append h]
  cases findSection section' tail <;> rfl

theorem lookUp_cons (h : PassedBy section' raw) (key : Line) (tail : List Line) :
    lookUp section' key (raw :: tail) = lookUp section' key tail := by
  rw [lookUp, lookUp, findSection_cons_of_passedBy h]
  cases findSection section' tail <;> rfl

theorem lookUp_of_name (h : sectionLine raw = .name section') (key : Line) (tail : List Line) :
    lookUp section' key (raw :: tail) = (findKey key 0 tail).map Found.val := by
  have hfound : findSection section' (raw :: tail) = .ok (1, tail) := by
    rw [findSection, h]
    exact if_pos rfl
  rw [lookUp, hfound]
  change ((findKey key 0 tail).bind fun found => .ok found.val) = _
  cases findKey key 0 tail <;> rfl

theorem map_later_val (x : Except ℤ Found) (n : ℕ) :
    (x.map (Found.later n)).map Found.val = x.map Found.val := by
  cases x <;> rfl

/-! ### What a write leaves alone -/

section Frame

variable {pre old new : List Line} {otherSection otherKey : Line} (hform : WellFormed key val)
  (hreplaced : Replaced key val old new)

include hform hreplaced

/-- **The other keys of the section.** -/
theorem Replaced.findKey_other (hne : otherKey ≠ key) :
    (findKey otherKey 0 new).map Found.val = (findKey otherKey 0 old).map Found.val := by
  cases hreplaced with
  | inserted h => rw [findKey_keyText hform, if_neg hne.symm, map_later_val]
  | @replaced pre ext tail items raw old hpre hitems h =>
    by_cases hmem : ∃ item ∈ items, item.1 = otherKey
    · obtain ⟨found, hfound⟩ := hpre.findKey_of_mem hmem
      rw [hfound, hfound]
    · have hnone : ∀ item ∈ items, item.1 ≠ otherKey := fun item hitem heq => hmem ⟨item, hitem, heq⟩
      rw [hpre.findKey_append hnone, hpre.findKey_append hnone, findKey_keyText hform,
        findKey_of_item h, if_neg hne.symm, if_neg hne.symm]
      simp only [map_later_val]

/-- **The sections behind.** -/
theorem Replaced.lookUp_other (hapart : List.IsChain Apart old) :
    lookUp otherSection otherKey new = lookUp otherSection otherKey old := by
  have hkeyText : PassedBy otherSection (keyText key val) :=
    passedBy_of_other (sectionLine_keyText hform) _
  cases hreplaced with
  | inserted h => exact lookUp_cons hkeyText _ _
  | @replaced pre ext tail items raw old hpre hitems h =>
    have hpassed : ∀ l ∈ pre, PassedBy otherSection l := fun l hl =>
      passedBy_of_other (hpre.sectionLine_eq hapart.left_of_append l hl) _
    have hgroup : ∀ l ∈ raw :: ext, PassedBy otherSection l := by
      have hchain : List.IsChain Apart ((raw :: ext) ++ tail) := hapart.right_of_append
      exact fun l hl => passedBy_of_other (sectionLine_of_item h hchain.left_of_append l hl) _
    rw [lookUp_append hpassed, lookUp_append hpassed, lookUp_cons hkeyText, ← List.cons_append,
      lookUp_append hgroup]

/-- **What a write does for other keys**: nothing. -/
theorem lookUp_replaced (hapart : List.IsChain Apart (pre ++ raw :: old))
    (hpre : ∀ raw ∈ pre, PassedBy section' raw) (hraw : sectionLine raw = .name section')
    (hne : (otherSection, otherKey) ≠ (section', key)) :
    lookUp otherSection otherKey (pre ++ raw :: new) =
      lookUp otherSection otherKey (pre ++ raw :: old) := by
  by_cases hsection : otherSection = section'
  · subst hsection
    have hkey : otherKey ≠ key := fun heq => hne (by rw [heq])
    rw [lookUp_append hpre, lookUp_append hpre, lookUp_of_name hraw, lookUp_of_name hraw]
    exact hreplaced.findKey_other hform hkey
  · have hheader : (trim raw).head? = some cfgSsl := by
      by_contra hother
      rw [sectionLine_of_head hother] at hraw
      exact SectionLine.noConfusion hraw
    induction pre with
    | nil =>
      have hpassed : PassedBy otherSection raw := passedBy_of_name hraw fun heq => hsection heq.symm
      rw [List.nil_append, List.nil_append, lookUp_cons hpassed, lookUp_cons hpassed]
      exact hreplaced.lookUp_other hform hapart.tail
    | cons c pre ih =>
      have hapart' : List.IsChain Apart (pre ++ raw :: old) := hapart.tail
      rw [List.cons_append, List.cons_append]
      by_cases hname : sectionLine c = .name otherSection
      · have hfront : List.IsChain Apart (pre ++ [raw]) := by
          rw [← List.singleton_append, ← List.append_assoc] at hapart'
          exact hapart'.left_of_append
        rw [lookUp_of_name hname, lookUp_of_name hname,
          findKey_before_header hheader hfront otherKey (Nat.zero_le _) new old]
      · have hpassed : PassedBy otherSection c := ⟨(hpre c List.mem_cons_self).1, hname⟩
        rw [lookUp_cons hpassed, lookUp_cons hpassed]
        exact ih hapart' fun raw hmem => hpre raw (List.mem_cons_of_mem _ hmem)

end Frame

/-- **What a write leaves alone**: every other key, of this section and of the others. -/
theorem configGetKey_configSetKey_of_ne {otherSection otherKey : Line} (hfile : NoControl text)
    (hfits : Fits text) (hapart : List.IsChain Apart (fileLines text))
    (hsection : ∃ raw ∈ fileLines text, sectionLine raw = .name section') (hform : WellFormed key val)
    (hkeyText : Good (keyText key val)) (hset : (configSetKey (some text) section' key val).1 = cfgOk)
    (hne : (otherSection, otherKey) ≠ (section', key)) :
    (configGetKey (configSetKey (some text) section' key val).2 otherSection otherKey).ret =
        (configGetKey (some text) otherSection otherKey).ret ∧
      (configGetKey (configSetKey (some text) section' key val).2 otherSection otherKey).buf =
        (configGetKey (some text) otherSection otherKey).buf := by
  obtain ⟨hpassed, -⟩ | ⟨pre, raw, old, new, hlines, hpre, hraw, hreplaced, hfileSet⟩ :=
    configSetKey_cases hset
  · obtain ⟨raw, hmem, hraw⟩ := hsection
    exact absurd hraw (hpassed raw hmem).2
  · rw [Option.getD_some] at hlines
    have hold : ∀ l ∈ pre ++ raw :: old, Good l := by
      intro l hl
      exact good_of_mem_fileLines hfile hfits (hlines ▸ hl)
    have hnew := fileLines_replaced hold hkeyText hreplaced
    rw [hlines] at hapart
    have hlook := lookUp_replaced hform hreplaced hapart hpre hraw hne
    rw [← hlines, ← hnew] at hlook
    rw [hfileSet, ← Prod.mk.injEq, configGetKey_eq_outcome, configGetKey_eq_outcome, hlook]

/-- Two sections with a key each; the key of the first is not touched. -/
theorem configGetKey_configSetKey_two_sections :
    (configGetKey (configSetKey (some [0x5b, 0x61, 0x5d, 0x0a, 0x78, 0x3d, 0x31, 0x0a, 0x5b, 0x62, 0x5d,
        0x0a, 0x6b, 0x3d, 0x31, 0x0a]) [0x62] [0x6b] [0x32]).2 [0x61] [0x78]).ret =
        (configGetKey (some [0x5b, 0x61, 0x5d, 0x0a, 0x78, 0x3d, 0x31, 0x0a, 0x5b, 0x62, 0x5d,
          0x0a, 0x6b, 0x3d, 0x31, 0x0a]) [0x61] [0x78]).ret ∧
      (configGetKey (configSetKey (some [0x5b, 0x61, 0x5d, 0x0a, 0x78, 0x3d, 0x31, 0x0a, 0x5b, 0x62, 0x5d,
        0x0a, 0x6b, 0x3d, 0x31, 0x0a]) [0x62] [0x6b] [0x32]).2 [0x61] [0x78]).buf =
        (configGetKey (some [0x5b, 0x61, 0x5d, 0x0a, 0x78, 0x3d, 0x31, 0x0a, 0x5b, 0x62, 0x5d,
          0x0a, 0x6b, 0x3d, 0x31, 0x0a]) [0x61] [0x78]).buf :=
  configGetKey_configSetKey_of_ne (by decide) (fits_of_length_lt (by decide)) (by decide)
    ⟨[0x5b, 0x62, 0x5d], by decide, by decide⟩ (by constructor <;> decide) ⟨by decide, by decide⟩
    (by decide) (by decide)

/-- **Blanks behind the `+`**: `x=1+ ` goes on in `[b]`, so that section `a` has the key `k`, and loses
its value when it is written for section `b`. -/
theorem not_configGetKey_configSetKey_of_blank :
    ¬ ∀ (text section' key val otherSection otherKey : Line), NoControl text → Fits text →
      List.IsChain (fun a b => a.getLast? = some plus → b.head? ≠ some cfgSsl) (fileLines text) →
      (∃ raw ∈ fileLines text, sectionLine raw = .name section') → WellFormed key val →
      Good (keyText key val) → (configSetKey (some text) section' key val).1 = cfgOk →
      (otherSection, otherKey) ≠ (section', key) →
      (configGetKey (configSetKey (some text) section' key val).2 otherSection otherKey).ret =
          (configGetKey (some text) otherSection otherKey).ret ∧
        (configGetKey (configSetKey (some text) section' key val).2 otherSection otherKey).buf =
          (configGetKey (some text) otherSection otherKey).buf := by
  intro h
  have hsame := h [0x5b, 0x61, 0x5d, 0x0a, 0x78, 0x3d, 0x31, 0x2b, 0x20, 0x0a, 0x5b, 0x62, 0x5d, 0x0a,
    0x6b, 0x3d, 0x31, 0x0a] [0x62] [0x6b] [0x32] [0x61] [0x6b] (by decide)
    (fits_of_length_lt (by decide)) (by decide) ⟨[0x5b, 0x62, 0x5d], by decide, by decide⟩
    (by constructor <;> decide) ⟨by decide, by decide⟩ (by decide) (by decide)
  exact absurd hsame.2 (by decide)

end Rwini

end ReachEdukit
