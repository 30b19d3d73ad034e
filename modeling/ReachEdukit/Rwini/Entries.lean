import ReachEdukit.Rwini.IniFile

/-!
# The entries of a section

From the line of the section on, the lines are taken in entries: a blank line, a remark, or a key with
the lines that it goes on in. An entry does not look behind its own lines, unless the file ends with it.
So a key that is found stands behind whole entries for other keys, and whatever comes behind it does not
matter.

## Main definitions

* `Entries` — lines that are whole entries, with their keys and values

## Main results

* `entryAt_append` — an entry does not look behind its lines
* `Entries.findKey_append`, `Entries.findKey_of_mem` — a key is not, or is, among the entries
* `exists_entries_of_findKey` — what stands in front of a key that is found
-/

namespace ReachEdukit

namespace Rwini

variable {section' key raw : Line} {lines tail : List Line}

/-! ### Looking for the key -/

variable {val buf buf1 : Line} {n more skip : ℕ} {items : List (Line × Line)} {found : Found}

theorem entryAt_of_skipped (h : Skipped (trim raw)) (lines : List Line) :
    entryAt raw lines = .skipped :=
  if_pos h

theorem entryAt_of_header (h : ¬ Skipped (trim raw)) (hssl : (trim raw).head? = some cfgSsl)
    (lines : List Line) : entryAt raw lines = .header := by
  rw [entryAt, if_neg h, if_pos hssl]

/-- A line that goes on, with what the loop for it makes of the lines behind. -/
theorem entryAt_of_plus (h : ¬ Skipped (trim raw)) (hssl : (trim raw).head? ≠ some cfgSsl)
    (hplus : (trim raw).getLast? = some plus) :
    (∀ e, goOn (trim raw).dropLast lines = .error e → entryAt raw lines = .bad e) ∧
      ∀ buf more, goOn (trim raw).dropLast lines = .ok (buf, more) →
        entryAt raw lines = itemOf buf more := by
  rw [entryAt, if_neg h, if_neg hssl, if_pos hplus]
  constructor
  · intro e hgo
    rw [hgo]
  · intro buf more hgo
    rw [hgo]

theorem entryAt_of_not_plus (h : ¬ Skipped (trim raw)) (hssl : (trim raw).head? ≠ some cfgSsl)
    (hplus : (trim raw).getLast? ≠ some plus) (lines : List Line) :
    entryAt raw lines = itemOf (trim raw) 0 := by
  rw [entryAt, if_neg h, if_neg hssl, if_neg hplus]

theorem itemOf_eq_item {key' : Line} (h : itemOf buf n = .item key' val more) :
    n = more ∧ ∀ m, itemOf buf m = .item key' val m := by
  rw [itemOf] at h
  cases hsplit : splitKeyValue buf with
  | error e =>
    rw [hsplit] at h
    exact Entry.noConfusion h
  | ok r =>
    rw [hsplit] at h
    obtain ⟨rfl, rfl, rfl⟩ := Entry.item.inj h
    refine ⟨rfl, fun m => ?_⟩
    rw [itemOf, hsplit]

theorem itemOf_ne (buf : Line) (more : ℕ) :
    itemOf buf more ≠ .skipped ∧ itemOf buf more ≠ .header := by
  rw [itemOf]
  cases splitKeyValue buf with
  | error e => exact ⟨Entry.noConfusion, Entry.noConfusion⟩
  | ok r => exact ⟨Entry.noConfusion, Entry.noConfusion⟩

/-- What the loop for a line that goes on reads, one line at a time. -/
theorem goOn_cons_ok {raw : Line} (h : goOn buf1 (raw :: lines) = .ok (buf, n)) :
    ((strtrimr raw).getLast? = some plus ∧ ∃ m, n = m + 1 ∧
        goOn (buf1 ++ (strtrimr raw).dropLast) lines = .ok (buf, m) ∧
        ∀ tail, goOn buf1 (raw :: tail) =
          (goOn (buf1 ++ (strtrimr raw).dropLast) tail).map fun r => (r.1, r.2 + 1)) ∨
      n = 1 ∧ ∀ tail, goOn buf1 (raw :: tail) = .ok (buf, 1) := by
  rw [goOn] at h
  by_cases hplus : (strtrimr raw).getLast? = some plus
  · rw [if_pos hplus] at h
    by_cases hlong : buf1.length + (strtrimr raw).dropLast.length > maxCfgBuf
    · rw [if_pos hlong] at h
      exact (error_ne_ok h).elim
    · rw [if_neg hlong] at h
      obtain ⟨r, hrest, hr⟩ := exists_of_map_eq_ok h
      obtain ⟨rfl, rfl⟩ := Prod.mk.inj hr
      refine .inl ⟨hplus, r.2, rfl, hrest, fun tail => ?_⟩
      rw [goOn, if_pos hplus, if_neg hlong]
  · rw [if_neg hplus] at h
    by_cases hlong : buf1.length + (strtrimr raw).length > maxCfgBuf
    · rw [if_pos hlong] at h
      exact (error_ne_ok h).elim
    · rw [if_neg hlong] at h
      obtain ⟨rfl, rfl⟩ := Prod.mk.inj (Except.ok.inj h)
      refine .inr ⟨rfl, fun tail => ?_⟩
      rw [goOn, if_neg hplus, if_neg hlong]

theorem goOn_le_length (h : goOn buf1 lines = .ok (buf, n)) : n ≤ lines.length := by
  induction lines generalizing buf1 n with
  | nil =>
    obtain ⟨-, rfl⟩ := Prod.mk.inj (Except.ok.inj h)
    exact le_rfl
  | cons raw lines ih =>
    obtain ⟨-, m, rfl, hrest, -⟩ | ⟨rfl, -⟩ := goOn_cons_ok h
    · exact Nat.succ_le_succ (ih hrest)
    · exact Nat.succ_le_succ (Nat.zero_le _)

/-- **A line that goes on does not look behind its end**, unless this is the end of the file. -/
theorem goOn_append {raw : Line} {ext : List Line}
    (h : goOn buf1 (ext ++ raw :: lines) = .ok (buf, ext.length)) (tail : List Line) :
    goOn buf1 (ext ++ tail) = .ok (buf, ext.length) := by
  induction ext generalizing buf1 with
  | nil =>
    obtain ⟨-, m, hm, -⟩ | ⟨hm, -⟩ := goOn_cons_ok h
    · exact absurd hm (Nat.succ_ne_zero m).symm
    · exact absurd hm (by decide)
  | cons raw' ext ih =>
    obtain ⟨-, m, hm, hrest, hall⟩ | ⟨hm, hall⟩ := goOn_cons_ok h
    · obtain rfl : ext.length = m := Nat.succ.inj hm
      rw [List.cons_append, hall, ih hrest]
      rfl
    · obtain rfl : ext = [] := List.length_eq_zero_iff.mp (Nat.succ.inj hm)
      exact hall tail

/-- The lines that an item reads. -/
theorem entryAt_eq_item (h : entryAt raw lines = .item key val more) :
    more ≤ lines.length ∧ ¬ Skipped (trim raw) ∧ (trim raw).head? ≠ some cfgSsl := by
  rw [entryAt] at h
  by_cases hskip : Skipped (trim raw)
  · rw [if_pos hskip] at h
    exact Entry.noConfusion h
  · rw [if_neg hskip] at h
    by_cases hssl : (trim raw).head? = some cfgSsl
    · rw [if_pos hssl] at h
      exact Entry.noConfusion h
    · rw [if_neg hssl] at h
      refine ⟨?_, hskip, hssl⟩
      by_cases hplus : (trim raw).getLast? = some plus
      · rw [if_pos hplus] at h
        cases hgo : goOn (trim raw).dropLast lines with
        | error e =>
          rw [hgo] at h
          exact Entry.noConfusion h
        | ok r =>
          rw [hgo] at h
          rw [← (itemOf_eq_item h).1]
          exact goOn_le_length hgo
      · rw [if_neg hplus] at h
        rw [← (itemOf_eq_item h).1]
        exact Nat.zero_le _

/-- **An item does not look behind its end**, unless this is the end of the file. -/
theorem entryAt_append {raw' : Line} {ext : List Line}
    (h : entryAt raw (ext ++ raw' :: lines) = .item key val ext.length) (tail : List Line) :
    entryAt raw (ext ++ tail) = .item key val ext.length := by
  obtain ⟨-, hskip, hssl⟩ := entryAt_eq_item h
  by_cases hplus : (trim raw).getLast? = some plus
  · cases hgo : goOn (trim raw).dropLast (ext ++ raw' :: lines) with
    | error e =>
      rw [(entryAt_of_plus hskip hssl hplus).1 e hgo] at h
      exact Entry.noConfusion h
    | ok r =>
      obtain ⟨buf, n⟩ := r
      rw [(entryAt_of_plus hskip hssl hplus).2 buf n hgo] at h
      obtain ⟨rfl, hitem⟩ := itemOf_eq_item h
      rw [(entryAt_of_plus hskip hssl hplus).2 buf _ (goOn_append hgo tail)]
      exact hitem _
  · rw [entryAt_of_not_plus hskip hssl hplus] at h ⊢
    exact h

theorem skipped_of_entryAt (h : entryAt raw lines = .skipped) : Skipped (trim raw) := by
  by_contra hskip
  by_cases hssl : (trim raw).head? = some cfgSsl
  · rw [entryAt_of_header hskip hssl] at h
    exact Entry.noConfusion h
  · by_cases hplus : (trim raw).getLast? = some plus
    · cases hgo : goOn (trim raw).dropLast lines with
      | error e =>
        rw [(entryAt_of_plus hskip hssl hplus).1 e hgo] at h
        exact Entry.noConfusion h
      | ok r =>
        rw [(entryAt_of_plus hskip hssl hplus).2 r.1 r.2 hgo] at h
        exact (itemOf_ne _ _).1 h
    · rw [entryAt_of_not_plus hskip hssl hplus] at h
      exact (itemOf_ne _ _).1 h

/-! ### Whole entries -/

/-- The lines are whole entries, whatever comes behind them, with these keys and values. -/
inductive Entries : List Line → List (Line × Line) → Prop
  | nil : Entries [] []
  | skipped {raw : Line} {lines : List Line} {items : List (Line × Line)} (h : Skipped (trim raw))
      (hrest : Entries lines items) : Entries (raw :: lines) items
  | item {raw key val : Line} {ext lines : List Line} {items : List (Line × Line)}
      (h : ∀ tail, entryAt raw (ext ++ tail) = .item key val ext.length)
      (hrest : Entries lines items) : Entries (raw :: (ext ++ lines)) ((key, val) :: items)

@[simp] theorem Found.later_later (m n : ℕ) (f : Found) :
    (f.later m).later n = f.later (m + n) := by
  simp [Found.later, Nat.add_assoc]

theorem map_later (x : Except ℤ Found) (m n : ℕ) :
    (x.map (Found.later m)).map (Found.later n) = x.map (Found.later (m + n)) := by
  cases x with
  | error e => rfl
  | ok f => exact congrArg Except.ok (Found.later_later m n f)

theorem map_later_zero (x : Except ℤ Found) : x.map (Found.later 0) = x := by
  cases x <;> rfl

/-- Lines that have been read already. -/
theorem findKey_skip (key : Line) (ext tail : List Line) :
    findKey key ext.length (ext ++ tail) = (findKey key 0 tail).map (Found.later ext.length) := by
  induction ext with
  | nil => exact (map_later_zero _).symm
  | cons raw ext ih =>
    rw [List.cons_append, List.length_cons, findKey, ih, map_later]

theorem findKey_of_skipped (h : Skipped (trim raw)) (lines : List Line) :
    findKey key 0 (raw :: lines) = (findKey key 0 lines).map (Found.later 1) := by
  rw [findKey, entryAt_of_skipped h]

theorem findKey_of_item {ext : List Line} {key' : Line}
    (h : entryAt raw (ext ++ tail) = .item key' val ext.length) :
    findKey key 0 (raw :: (ext ++ tail)) =
      if key' = key then .ok ⟨val, 0, ext.length + 1⟩
      else (findKey key 0 tail).map (Found.later (ext.length + 1)) := by
  rw [findKey, h]
  by_cases hkey : key' = key
  · simp only [if_pos hkey]
  · simp only [if_neg hkey]
    rw [findKey_skip, map_later]

/-- **A key that is not among the entries** is looked for behind them. -/
theorem Entries.findKey_append (h : Entries lines items) (hkey : ∀ item ∈ items, item.1 ≠ key)
    (tail : List Line) :
    findKey key 0 (lines ++ tail) = (findKey key 0 tail).map (Found.later lines.length) := by
  induction h with
  | nil => exact (map_later_zero _).symm
  | skipped hskip _ ih =>
    rw [List.cons_append, findKey_of_skipped hskip, ih hkey, map_later, List.length_cons]
  | @item raw key' val ext lines items hitem _ ih =>
    have hne : key' ≠ key := hkey _ List.mem_cons_self
    rw [List.cons_append, List.append_assoc, findKey_of_item (hitem _), if_neg hne,
      ih fun item hmem => hkey item (List.mem_cons_of_mem _ hmem), map_later, List.length_cons,
      List.length_append]
    congr 2
    omega

/-- **A key among the entries** is found there. -/
theorem Entries.findKey_of_mem (h : Entries lines items) (hkey : ∃ item ∈ items, item.1 = key) :
    ∃ found, ∀ tail, findKey key 0 (lines ++ tail) = .ok found := by
  induction h with
  | nil =>
    obtain ⟨item, hmem, -⟩ := hkey
    exact absurd hmem List.not_mem_nil
  | skipped hskip _ ih =>
    obtain ⟨found, hfound⟩ := ih hkey
    refine ⟨found.later 1, fun tail => ?_⟩
    rw [List.cons_append, findKey_of_skipped hskip, hfound]
    rfl
  | @item raw key' val ext lines items hitem _ ih =>
    by_cases heq : key' = key
    · refine ⟨⟨val, 0, ext.length + 1⟩, fun tail => ?_⟩
      rw [List.cons_append, List.append_assoc, findKey_of_item (hitem _), if_pos heq]
    · obtain ⟨item, hmem, hitemKey⟩ := hkey
      have hrest : ∃ item ∈ items, item.1 = key := by
        obtain rfl | hmem := List.mem_cons.mp hmem
        · exact absurd hitemKey heq
        · exact ⟨item, hmem, hitemKey⟩
      obtain ⟨found, hfound⟩ := ih hrest
      refine ⟨found.later (ext.length + 1), fun tail => ?_⟩
      rw [List.cons_append, List.append_assoc, findKey_of_item (hitem _), if_neg heq, hfound]
      rfl

/-- **What stands in front of a key that is found**: whole entries for other keys. -/
theorem exists_entries_of_findKey (h : findKey key 0 lines = .ok found) :
    ∃ pre items raw ext tail, lines = pre ++ raw :: (ext ++ tail) ∧ Entries pre items ∧
      (∀ item ∈ items, item.1 ≠ key) ∧ found.before = pre.length ∧ found.keyLines = ext.length + 1 ∧
      entryAt raw (ext ++ tail) = .item key found.val ext.length := by
  induction hn : lines.length using Nat.strong_induction_on generalizing lines found with
  | _ n ih =>
    cases lines with
    | nil => exact (error_ne_ok h).elim
    | cons raw lines =>
      cases hentry : entryAt raw lines with
      | skipped =>
        have hskip := skipped_of_entryAt hentry
        rw [findKey_of_skipped hskip] at h
        obtain ⟨found', hrest, rfl⟩ := exists_of_map_eq_ok h
        obtain ⟨pre, items, raw', ext, tail, rfl, hpre, hkey, hbefore, hlines, hitem⟩ :=
          ih lines.length (by rw [← hn]; exact Nat.lt_succ_self _) hrest rfl
        refine ⟨raw :: pre, items, raw', ext, tail, rfl, .skipped hskip hpre, hkey, ?_, hlines, hitem⟩
        exact congrArg (· + 1) hbefore
      | header =>
        rw [findKey, hentry] at h
        exact (error_ne_ok h).elim
      | bad ret =>
        rw [findKey, hentry] at h
        exact (error_ne_ok h).elim
      | item key' val more =>
        obtain ⟨hmore, -⟩ := entryAt_eq_item hentry
        obtain ⟨ext, tail, rfl, hext⟩ : ∃ ext tail, lines = ext ++ tail ∧ ext.length = more :=
          ⟨lines.take more, lines.drop more, (List.take_append_drop ..).symm,
            List.length_take_of_le hmore⟩
        subst hext
        rw [findKey_of_item hentry] at h
        by_cases heq : key' = key
        · rw [if_pos heq] at h
          obtain rfl := Except.ok.inj h
          subst heq
          exact ⟨[], [], raw, ext, tail, rfl, .nil, fun item hmem => absurd hmem List.not_mem_nil,
            rfl, rfl, hentry⟩
        · rw [if_neg heq] at h
          obtain ⟨found', hrest, rfl⟩ := exists_of_map_eq_ok h
          have hless : tail.length < n := by
            rw [← hn, List.length_cons, List.length_append]
            omega
          obtain ⟨pre, items, raw', ext', tail', rfl, hpre, hkey, hbefore, hlines, hitem⟩ :=
            ih tail.length hless hrest rfl
          -- something comes behind the entry, so it does not reach the end of the file
          have hwhole : ∀ T, entryAt raw (ext ++ T) = .item key' val ext.length := by
            cases pre with
            | nil => exact entryAt_append hentry
            | cons raw'' pre => exact entryAt_append hentry
          refine ⟨raw :: (ext ++ pre), (key', val) :: items, raw', ext', tail', by simp,
            .item hwhole hpre, ?_, ?_, hlines, hitem⟩
          · intro item hmem
            obtain rfl | hmem := List.mem_cons.mp hmem
            · exact heq
            · exact hkey item hmem
          · change found'.before + (ext.length + 1) = _
            rw [hbefore, List.length_cons, List.length_append]
            omega

end Rwini

end ReachEdukit
