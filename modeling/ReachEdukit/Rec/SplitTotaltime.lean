import ReachEdukit.Rec.Listing

/-!
# The total times at a split

At a split, and when a course is closed, `check_mp4_split_totaltime` gives the files of all streams one
length: every total time that is not 0 becomes the least of them. A total time of 0 means that the stream
has not reported, and stays.

The search begins with the first stream, whatever its total time, and 0 is below all others. So a first
stream that has not reported takes the total times of all others to 0.

## Main definitions

* `alignedTime` — what the search finds
* `Aligned` — the total times are as they should be, and stay so
* `OrderFree` — the order of the streams does not matter

## Main results

* `checkMp4SplitTotaltime_idem` — a second call changes nothing
* `aligned_iff`, `orderFree_iff` — when this is so
-/

namespace ReachEdukit

namespace Course

variable {repInfo : ℕ → RecordReportInfo} {n i : ℕ}

/-- The loop that looks for the least total time. -/
def alignedTime (repInfo : ℕ → RecordReportInfo) (mindexSum : ℕ) : ℤ :=
  (List.range' 1 (mindexSum - 1)).foldl
    (fun min i => if min ≥ (repInfo i).totaltime ∧ (repInfo i).totaltime ≠ 0 then
      (repInfo i).totaltime else min) (repInfo 0).totaltime

theorem checkMp4SplitTotaltime_apply (repInfo : ℕ → RecordReportInfo) (n i : ℕ) :
    checkMp4SplitTotaltime repInfo n i = if i < n ∧ (repInfo i).totaltime ≠ 0 then
      { repInfo i with totaltime := alignedTime repInfo n } else repInfo i := rfl

theorem totaltime_check (repInfo : ℕ → RecordReportInfo) (n i : ℕ) :
    (checkMp4SplitTotaltime repInfo n i).totaltime =
      if i < n ∧ (repInfo i).totaltime ≠ 0 then alignedTime repInfo n else (repInfo i).totaltime := by
  rw [checkMp4SplitTotaltime_apply, apply_ite RecordReportInfo.totaltime]

/-- Every total time that was not 0 and is in reach of the search. -/
theorem search_spec (t : ℕ → ℤ) (l : List ℕ) (seed : ℤ) :
    let least := l.foldl (fun min i => if min ≥ t i ∧ t i ≠ 0 then t i else min) seed
    (least = seed ∨ ∃ i ∈ l, least = t i ∧ t i ≠ 0) ∧ least ≤ seed ∧
      ∀ i ∈ l, t i ≠ 0 → least ≤ t i := by
  induction l generalizing seed with
  | nil => exact ⟨.inl rfl, le_rfl, fun i hi => absurd hi List.not_mem_nil⟩
  | cons a l ih =>
    rw [List.foldl_cons]
    by_cases ha : seed ≥ t a ∧ t a ≠ 0
    · obtain ⟨hcases, hle, hall⟩ := ih (t a)
      rw [if_pos ha]
      refine ⟨.inr ?_, hle.trans ha.1, fun i hi hne => ?_⟩
      · obtain hseed | ⟨i, hi, heq⟩ := hcases
        · exact ⟨a, List.mem_cons_self, hseed, ha.2⟩
        · exact ⟨i, List.mem_cons_of_mem _ hi, heq⟩
      · obtain rfl | hi := List.mem_cons.mp hi
        · exact hle
        · exact hall i hi hne
    · obtain ⟨hcases, hle, hall⟩ := ih seed
      rw [if_neg ha]
      refine ⟨?_, hle, fun i hi hne => ?_⟩
      · obtain hseed | ⟨i, hi, heq⟩ := hcases
        · exact .inl hseed
        · exact .inr ⟨i, List.mem_cons_of_mem _ hi, heq⟩
      · obtain rfl | hi := List.mem_cons.mp hi
        · exact hle.trans (le_of_not_ge fun hge => ha ⟨hge, hne⟩)
        · exact hall i hi hne

theorem mem_others (hi : i < n) : i = 0 ∨ i ∈ List.range' 1 (n - 1) := by
  rw [List.mem_range'_1]
  omega

theorem lt_of_mem_others (hi : i ∈ List.range' 1 (n - 1)) : i < n := by
  rw [List.mem_range'_1] at hi
  omega

/-- **What the search finds**: the total time of the first stream or one that is not 0, below all. -/
theorem alignedTime_spec (repInfo : ℕ → RecordReportInfo) (n : ℕ) :
    (alignedTime repInfo n = (repInfo 0).totaltime ∨
        ∃ i < n, alignedTime repInfo n = (repInfo i).totaltime ∧ (repInfo i).totaltime ≠ 0) ∧
      alignedTime repInfo n ≤ (repInfo 0).totaltime ∧
      ∀ i < n, (repInfo i).totaltime ≠ 0 → alignedTime repInfo n ≤ (repInfo i).totaltime := by
  obtain ⟨hcases, hle, hall⟩ := search_spec (fun i => (repInfo i).totaltime) (List.range' 1 (n - 1))
    (repInfo 0).totaltime
  refine ⟨hcases.imp_right ?_, hle, fun i hi hne => ?_⟩
  · rintro ⟨i, hi, heq⟩
    exact ⟨i, lt_of_mem_others hi, heq⟩
  · obtain rfl | hi := mem_others hi
    · exact hle
    · exact hall i hi hne

/-- **A second call changes nothing.** -/
theorem checkMp4SplitTotaltime_idem (repInfo : ℕ → RecordReportInfo) (n : ℕ) :
    checkMp4SplitTotaltime (checkMp4SplitTotaltime repInfo n) n = checkMp4SplitTotaltime repInfo n := by
  funext i
  rw [checkMp4SplitTotaltime_apply _ n i]
  by_cases hagain : i < n ∧ (checkMp4SplitTotaltime repInfo n i).totaltime ≠ 0
  · rw [if_pos hagain]
    obtain ⟨hi, hne⟩ := hagain
    have htime := totaltime_check repInfo n
    have hold : (repInfo i).totaltime ≠ 0 := by
      intro hzero
      rw [htime, if_neg fun h => h.2 hzero] at hne
      exact hne hzero
    have hself : (checkMp4SplitTotaltime repInfo n i).totaltime = alignedTime repInfo n := by
      rw [htime, if_pos ⟨hi, hold⟩]
    obtain ⟨hcases, hfirst, hall⟩ := alignedTime_spec (checkMp4SplitTotaltime repInfo n) n
    have hle : alignedTime (checkMp4SplitTotaltime repInfo n) n ≤ alignedTime repInfo n := by
      rw [← hself]
      exact hall i hi hne
    have hge : alignedTime repInfo n ≤ alignedTime (checkMp4SplitTotaltime repInfo n) n := by
      obtain hseed | ⟨j, hj, heq, hjne⟩ := hcases
      · rw [hseed, htime]
        split_ifs
        · exact le_rfl
        · exact (alignedTime_spec repInfo n).2.1
      · rw [heq, htime]
        rw [htime] at hjne
        split_ifs with h
        · exact le_rfl
        · rw [if_neg h] at hjne
          exact absurd ⟨hj, hjne⟩ h
    rw [le_antisymm hle hge, ← hself]
  · rw [if_neg hagain]

/-! ### The total times that are not 0 -/

/-- Every total time that is not 0 becomes the least of them, 0 stays, and a second call changes
nothing. -/
structure Aligned (repInfo : ℕ → RecordReportInfo) (mindexSum : ℕ) : Prop where
  least : ∀ i < mindexSum, (repInfo i).totaltime ≠ 0 →
    IsLeast {t | t ≠ 0 ∧ ∃ j < mindexSum, (repInfo j).totaltime = t}
      (checkMp4SplitTotaltime repInfo mindexSum i).totaltime
  zero : ∀ i < mindexSum, (repInfo i).totaltime = 0 →
    (checkMp4SplitTotaltime repInfo mindexSum i).totaltime = 0
  again : checkMp4SplitTotaltime (checkMp4SplitTotaltime repInfo mindexSum) mindexSum =
    checkMp4SplitTotaltime repInfo mindexSum

/-- The streams in another order have the same total times. -/
def OrderFree (repInfo : ℕ → RecordReportInfo) (mindexSum : ℕ) : Prop :=
  ∀ σ : Equiv.Perm ℕ, (∀ i, σ i < mindexSum ↔ i < mindexSum) →
    checkMp4SplitTotaltime (repInfo ∘ σ) mindexSum = checkMp4SplitTotaltime repInfo mindexSum ∘ σ

/-- No stream has reported, or the first one has. -/
def FirstReported (repInfo : ℕ → RecordReportInfo) (mindexSum : ℕ) : Prop :=
  (∀ i < mindexSum, (repInfo i).totaltime = 0) ∨ (repInfo 0).totaltime ≠ 0

/-- When the first stream has reported, the search finds the least total time that is not 0. -/
theorem isLeast_alignedTime (hn : 0 < n) (hfirst : (repInfo 0).totaltime ≠ 0) :
    IsLeast {t | t ≠ 0 ∧ ∃ j < n, (repInfo j).totaltime = t} (alignedTime repInfo n) := by
  obtain ⟨hcases, -, hall⟩ := alignedTime_spec repInfo n
  constructor
  · obtain hseed | ⟨i, hi, heq, hne⟩ := hcases
    · rw [hseed]
      exact ⟨hfirst, 0, hn, rfl⟩
    · rw [heq]
      exact ⟨hne, i, hi, rfl⟩
  · rintro t ⟨hne, j, hj, rfl⟩
    exact hall j hj hne

variable (hnonneg : ∀ i < n, 0 ≤ (repInfo i).totaltime)

include hnonneg

/-- Otherwise it finds 0. -/
theorem alignedTime_eq_zero (hfirst : (repInfo 0).totaltime = 0) :
    alignedTime repInfo n = 0 := by
  obtain ⟨hcases, hle, -⟩ := alignedTime_spec repInfo n
  rw [hfirst] at hcases hle
  obtain hseed | ⟨i, hi, heq, -⟩ := hcases
  · exact hseed
  · exact le_antisymm hle (heq ▸ hnonneg i hi)

theorem alignedTime_eq_zero_iff (hn : 0 < n) :
    alignedTime repInfo n = 0 ↔ (repInfo 0).totaltime = 0 := by
  refine ⟨fun hzero => ?_, alignedTime_eq_zero hnonneg⟩
  by_contra hfirst
  exact (isLeast_alignedTime hn hfirst).1.1 hzero

/-- **When the total times are aligned**: no stream has reported, or the first one has. -/
theorem aligned_iff : Aligned repInfo n ↔ FirstReported repInfo n := by
  constructor
  · intro h
    by_contra hnot
    obtain ⟨hsome, hfirst⟩ := not_or.mp hnot
    have hfirst : (repInfo 0).totaltime = 0 := not_not.mp hfirst
    push Not at hsome
    obtain ⟨i, hi, hne⟩ := hsome
    have hleast := (h.least i hi hne).1.1
    rw [totaltime_check, if_pos ⟨hi, hne⟩,
      alignedTime_eq_zero hnonneg hfirst] at hleast
    exact hleast rfl
  · intro h
    refine ⟨fun i hi hne => ?_, fun i hi hzero => ?_, checkMp4SplitTotaltime_idem repInfo n⟩
    · have hfirst : (repInfo 0).totaltime ≠ 0 := h.resolve_left fun hall => hne (hall i hi)
      rw [totaltime_check, if_pos ⟨hi, hne⟩]
      exact isLeast_alignedTime (Nat.zero_lt_of_lt hi) hfirst
    · rw [totaltime_check, if_neg fun h => h.2 hzero, hzero]

/-! ### The order of the streams -/

omit hnonneg in
/-- The streams in another order have the same least total time. -/
theorem OrderFree.alignedTime_eq (h : OrderFree repInfo n) {σ : Equiv.Perm ℕ}
    (hσ : ∀ i, σ i < n ↔ i < n) (hi : i < n) (hne : (repInfo i).totaltime ≠ 0) :
    alignedTime (repInfo ∘ σ) n = alignedTime repInfo n := by
  have hback : σ (σ.symm i) = i := σ.apply_symm_apply i
  have hlt : σ.symm i < n := (hσ _).mp (hback.symm ▸ hi)
  have hread := congrArg RecordReportInfo.totaltime (congrFun (h σ hσ) (σ.symm i))
  rw [Function.comp_apply, totaltime_check, totaltime_check, Function.comp_apply, hback,
    if_pos ⟨hlt, hne⟩, if_pos ⟨hi, hne⟩] at hread
  exact hread

omit hnonneg in
theorem swap_lt_iff (hi : i < n) (k : ℕ) : Equiv.swap 0 i k < n ↔ k < n := by
  rw [Equiv.swap_apply_def]
  split_ifs <;> omega

omit hnonneg in
/-- Streams that have all reported: only their least total time counts. -/
theorem orderFree_of_ne (hne : ∀ i < n, (repInfo i).totaltime ≠ 0) : OrderFree repInfo n := by
  intro σ hσ
  funext i
  rw [Function.comp_apply, checkMp4SplitTotaltime_apply, checkMp4SplitTotaltime_apply,
    Function.comp_apply]
  by_cases hi : i < n
  · have hσi : σ i < n := (hσ i).mpr hi
    have hn : 0 < n := Nat.zero_lt_of_lt hi
    have hset : {t | t ≠ 0 ∧ ∃ j < n, ((repInfo ∘ σ) j).totaltime = t} =
        {t | t ≠ 0 ∧ ∃ j < n, (repInfo j).totaltime = t} := by
      ext t
      refine and_congr_right fun _ => ⟨?_, ?_⟩
      · rintro ⟨j, hj, ht⟩
        exact ⟨σ j, (hσ j).mpr hj, ht⟩
      · rintro ⟨j, hj, ht⟩
        have hback : σ (σ.symm j) = j := σ.apply_symm_apply j
        refine ⟨σ.symm j, (hσ _).mp (hback.symm ▸ hj), ?_⟩
        rw [Function.comp_apply, hback, ht]
    have hpermuted := @isLeast_alignedTime (repInfo ∘ σ) _ hn (hne _ ((hσ 0).mpr hn))
    rw [hset] at hpermuted
    rw [if_pos ⟨hi, hne _ hσi⟩, if_pos ⟨hσi, hne _ hσi⟩,
      hpermuted.unique (isLeast_alignedTime hn (hne 0 hn))]
  · have hσi : ¬ σ i < n := fun h => hi ((hσ i).mp h)
    rw [if_neg fun h => hi h.1, if_neg fun h => hσi h.1]

/-- **When the order of the streams does not matter**: no stream has reported, or all have. -/
theorem orderFree_iff : OrderFree repInfo n ↔
    (∀ i < n, (repInfo i).totaltime = 0) ∨ ∀ i < n, (repInfo i).totaltime ≠ 0 := by
  constructor
  · intro h
    by_cases hall : ∀ i < n, (repInfo i).totaltime = 0
    · exact .inl hall
    · push Not at hall
      obtain ⟨i, hi, hne⟩ := hall
      have hn : 0 < n := Nat.zero_lt_of_lt hi
      -- a swap with the first stream shows that the two agree on having reported
      have hagree : ∀ k < n, (repInfo k).totaltime = 0 ↔ (repInfo 0).totaltime = 0 := by
        intro k hk
        have heq := h.alignedTime_eq (swap_lt_iff hk) hi hne
        have hnonneg' : ∀ j < n, 0 ≤ ((repInfo ∘ Equiv.swap 0 k) j).totaltime :=
          fun j hj => hnonneg _ ((swap_lt_iff hk j).mpr hj)
        rw [← alignedTime_eq_zero_iff hnonneg hn, ← heq, alignedTime_eq_zero_iff hnonneg' hn,
          Function.comp_apply, Equiv.swap_apply_left]
      exact .inr fun k hk hzero => hne ((hagree i hi).mpr ((hagree k hk).mp hzero))
  · rintro (hzero | hne)
    · intro σ hσ
      funext i
      rw [Function.comp_apply, checkMp4SplitTotaltime_apply, checkMp4SplitTotaltime_apply,
        Function.comp_apply]
      have hnot : ¬ (σ i < n ∧ (repInfo (σ i)).totaltime ≠ 0) := fun h => h.2 (hzero _ h.1)
      have hnot' : ¬ (i < n ∧ (repInfo (σ i)).totaltime ≠ 0) :=
        fun h => h.2 (hzero _ ((hσ i).mpr h.1))
      rw [if_neg hnot', if_neg hnot]
    · exact orderFree_of_ne hne

/-- **The total times at a split**: they are aligned when no stream has reported or the first one has,
and the order of the streams does not matter when no stream has reported or all have. -/
theorem splitTotaltime_iff :
    (Aligned repInfo n ↔ FirstReported repInfo n) ∧
      (OrderFree repInfo n ↔
        (∀ i < n, (repInfo i).totaltime = 0) ∨ ∀ i < n, (repInfo i).totaltime ≠ 0) :=
  ⟨aligned_iff hnonneg, orderFree_iff hnonneg⟩

omit hnonneg

/-- The report of a stream with a total time, and nothing else. -/
def reportOf (totaltime : ℤ) : RecordReportInfo := { RecordReportInfo.zero with totaltime := totaltime }

theorem splitTotaltime_iff_pair :
    let repInfo := fun i => reportOf (if i = 0 then 5 else 3)
    (Aligned repInfo 2 ↔ FirstReported repInfo 2) ∧
      (OrderFree repInfo 2 ↔
        (∀ i < 2, (repInfo i).totaltime = 0) ∨ ∀ i < 2, (repInfo i).totaltime ≠ 0) :=
  splitTotaltime_iff fun i _ => by
    change 0 ≤ if i = 0 then (5 : ℤ) else 3
    split_ifs <;> decide

/-- The first stream has not reported, and the second loses its total time. -/
theorem first_unreported :
    let repInfo := fun i => reportOf (if i = 0 then 0 else 5)
    (∀ i, 0 ≤ (repInfo i).totaltime) ∧ (checkMp4SplitTotaltime repInfo 2 1).totaltime = 0 ∧
      ¬ Aligned repInfo 2 ∧ ¬ OrderFree repInfo 2 := by
  intro repInfo
  have hlost : (checkMp4SplitTotaltime repInfo 2 1).totaltime = 0 := by decide
  refine ⟨fun i => ?_, hlost, fun h => ?_, fun h => ?_⟩
  · change 0 ≤ if i = 0 then (0 : ℤ) else 5
    split_ifs <;> decide
  · exact (h.least 1 (by decide) (by decide)).1.1 hlost
  · have hread := congrArg RecordReportInfo.totaltime
      (congrFun (h (Equiv.swap 0 1) (swap_lt_iff (by decide))) 0)
    rw [Function.comp_apply, Equiv.swap_apply_left, hlost] at hread
    exact absurd hread (by decide)

end Course

end ReachEdukit
