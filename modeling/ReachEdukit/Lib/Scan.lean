import Mathlib.Data.List.Infix
import Mathlib.Data.Vector.Basic

/-!
# Scanners with checked indices

A scanner reads a buffer from some place on and copies what it reads into arrays of fixed size. Here
the buffer is what is left of it, so a read behind its end finds an empty list, and an array is a
vector, so a write knows its bound. Every operation answers `none` when an index leaves its buffer
or its array.

A text in such a buffer ends with a terminator. Looking for words that do not contain it never
reads behind it, whatever the text.

## Main definitions

* `Scan.startsWith`, `Scan.find` — look for a word
* `Scan.write`, `Scan.copyLine`, `Scan.writeAll` — fill an array
* `Scan.firstIndex` — where a word stands first, with nothing to check

## Main results

* `Scan.find_terminated` — the search in a terminated text stays inside and finds the first place
* `Scan.firstIndex_eq_some_iff` — the first place of a word
* `Scan.firstIndex_append` — a word behind a text
* `Scan.writeAll_isSome_iff` — when a copy stays inside
* `Scan.take_writeAll_add` — what a copy leaves
-/

namespace Scan

variable {α : Type*}

section Search

variable [DecidableEq α]

/-! ### Looking for a word -/

/-- The buffer goes on with the word. It is read up to the first difference. -/
def startsWith : List α → List α → Option Bool
  | _, [] => some true
  | [], _ :: _ => none
  | a :: rest, c :: word => if a = c then startsWith rest word else some false

/-- The first of `n` places at which the word stands. -/
def find (word : List α) : ℕ → List α → Option (Option ℕ)
  | 0, _ => some none
  | n + 1, rest => do
    if ← startsWith rest word then return some 0
    let later ← find word n rest.tail
    return later.map (· + 1)

/-- The first place of a text at which the word stands. -/
def firstIndex (word : List α) : List α → Option ℕ
  | [] => none
  | a :: text => if word <+: a :: text then some 0 else (firstIndex word text).map (· + 1)

variable {z : α} {word : List α}

/-- The terminator is the last that is read. -/
theorem startsWith_terminated (hz : z ∉ word) (text tail : List α) :
    startsWith (text ++ z :: tail) word = some (decide (word <+: text)) := by
  induction word generalizing text with
  | nil => simp [startsWith]
  | cons c word ih =>
    obtain ⟨hc, hword⟩ : z ≠ c ∧ z ∉ word := by simpa using hz
    cases text with
    | nil => simp [startsWith, hc]
    | cons a text =>
      rw [List.cons_append, startsWith, ih hword]
      by_cases h : a = c
      · simp [h]
      · simp [h, Ne.symm h, List.cons_prefix_cons]

/-- **A search in a terminated text** stays inside the buffer. -/
theorem find_terminated (hz : z ∉ word) (text tail : List α) :
    find word text.length (text ++ z :: tail) = some (firstIndex word text) := by
  induction text with
  | nil => rfl
  | cons a text ih =>
    rw [List.length_cons, find, startsWith_terminated hz, firstIndex]
    by_cases h : word <+: a :: text
    · simp [h]
    · simp [h, ih]

/-- The first place of a word. -/
theorem firstIndex_eq_some_iff {text : List α} {m : ℕ} (hword : word ≠ []) :
    firstIndex word text = some m ↔ word <+: text.drop m ∧ ∀ j < m, ¬ word <+: text.drop j := by
  induction text generalizing m with
  | nil =>
    refine iff_of_false (Option.some_ne_none m).symm fun h => hword ?_
    rw [List.drop_nil] at h
    exact List.prefix_nil.mp h.1
  | cons a text ih =>
    rw [firstIndex]
    split_ifs with hhere
    · constructor
      · intro h
        obtain rfl := Option.some.inj h
        exact ⟨hhere, fun j hj => absurd hj (Nat.not_lt_zero j)⟩
      · rintro ⟨-, hfirst⟩
        obtain rfl | hm := Nat.eq_zero_or_pos m
        · rfl
        · exact absurd hhere (hfirst 0 hm)
    · cases m with
      | zero =>
        refine iff_of_false (fun h => ?_) fun h => hhere h.1
        obtain ⟨j, -, hj⟩ := Option.map_eq_some_iff.mp h
        exact Nat.succ_ne_zero j hj
      | succ m =>
        have hlater : (firstIndex word text).map (· + 1) = some (m + 1) ↔
            firstIndex word text = some m := by
          rw [Option.map_eq_some_iff]
          simp
        rw [hlater, ih, List.drop_succ_cons]
        refine and_congr_right fun _ => ⟨fun h j hj => ?_, fun h j hj => h (j + 1) (by omega)⟩
        cases j with
        | zero => exact hhere
        | succ j => exact h j (by omega)

/-- It stays the first one whatever comes behind. -/
theorem firstIndex_append_right {text : List α} {m : ℕ} (hword : word ≠ [])
    (h : firstIndex word text = some m) (more : List α) :
    firstIndex word (text ++ more) = some m := by
  obtain ⟨hat, hfirst⟩ := (firstIndex_eq_some_iff hword).mp h
  have hlength := hat.length_le
  have hpos := List.length_pos_iff.mpr hword
  rw [List.length_drop] at hlength
  refine (firstIndex_eq_some_iff hword).mpr ⟨?_, fun j hj hprefix => hfirst j hj ?_⟩
  · rw [List.drop_append_of_le_length (by omega)]
    exact hat.trans (List.prefix_append _ _)
  · rw [List.drop_append_of_le_length (by omega)] at hprefix
    refine List.prefix_of_prefix_length_le hprefix (List.prefix_append _ _) ?_
    rw [List.length_drop]
    omega

/-- A word whose first item comes once is found behind a text without it. -/
theorem firstIndex_append {c : α} {tail text : List α} (hc : c ∉ tail) (htext : ¬ (c :: tail) <:+: text) :
    firstIndex (c :: tail) (text ++ c :: tail) = some text.length := by
  induction text with
  | nil => exact if_pos (List.prefix_refl _)
  | cons a text ih =>
    have hnot : ¬ c :: tail <+: a :: (text ++ c :: tail) := by
      intro hprefix
      have hself : a :: text <+: a :: (text ++ c :: tail) := List.prefix_append (a :: text) (c :: tail)
      obtain hin | ⟨s, hs⟩ := List.prefix_or_prefix_of_prefix hprefix hself
      · exact htext hin.isInfix
      · -- the word would reach over the end of the text, and begin again there
        cases s with
        | nil => exact htext (by rw [← hs, List.append_nil])
        | cons x s =>
          have hover : (a :: text) ++ x :: s <+: (a :: text) ++ c :: tail := by
            rw [hs]
            exact hprefix
          have hx : x :: s <+: c :: tail := (List.prefix_append_right_inj (a :: text)).mp hover
          obtain rfl : x = c := (List.cons_prefix_cons.mp hx).1
          obtain ⟨-, htail⟩ := List.cons.inj hs
          exact hc (htail ▸ List.mem_append_right _ List.mem_cons_self)
    rw [List.cons_append, firstIndex, if_neg hnot, ih fun h => htext (h.trans (List.suffix_cons _ _).isInfix)]
    rfl

end Search

/-! ### Filling an array -/

variable {k : ℕ}

/-- A write, when the index is inside. -/
def write (v : Vector α k) (i : ℕ) (a : α) : Option (Vector α k) :=
  if h : i < k then some (v.set i a) else none

theorem write_isSome_iff {v : Vector α k} {i : ℕ} {a : α} : (write v i a).isSome ↔ i < k := by
  rw [write]
  split_ifs with h <;> simp [h]

/-- Writes a list from index `i` on. -/
def writeAll (v : Vector α k) : ℕ → List α → Option (Vector α k)
  | _, [] => some v
  | i, a :: l => do
    let v ← write v i a
    writeAll v (i + 1) l

theorem writeAll_isSome_iff {v : Vector α k} {i : ℕ} {l : List α} (hi : i ≤ k) :
    (writeAll v i l).isSome ↔ i + l.length ≤ k := by
  induction l generalizing v i with
  | nil => simp [writeAll, hi]
  | cons a l ih =>
    rw [writeAll, write]
    by_cases hk : i < k
    · rw [dif_pos hk, Option.bind_eq_bind, Option.bind_some, ih (by omega), List.length_cons]
      omega
    · rw [dif_neg hk]
      simp only [Option.bind_eq_bind, Option.bind_none, Option.isSome_none, List.length_cons,
        Bool.false_eq_true, false_iff]
      omega

/-- What a list was written to, value by value. -/
theorem getElem?_writeAll {v w : Vector α k} {i : ℕ} {l : List α} (h : writeAll v i l = some w)
    (j : ℕ) : w[j]? = if i ≤ j ∧ j < i + l.length then l[j - i]? else v[j]? := by
  induction l generalizing v i with
  | nil =>
    obtain rfl : v = w := by simpa [writeAll] using h
    rw [if_neg (by simp)]
  | cons a l ih =>
    obtain ⟨v', hv', h⟩ := Option.bind_eq_some_iff.mp h
    rw [write] at hv'
    split at hv'
    · next hk =>
      obtain rfl := Option.some.inj hv'
      rw [ih h, List.length_cons]
      by_cases hj : i = j
      · subst hj
        rw [if_neg (by omega), if_pos (by omega)]
        simp [hk]
      · by_cases hlt : i + 1 ≤ j ∧ j < i + 1 + l.length
        · rw [if_pos hlt, if_pos (by omega), show j - i = (j - (i + 1)) + 1 by omega]
          rfl
        · rw [if_neg hlt, if_neg (by omega)]
          simp [hj]
    · cases hv'

/-- What stands in front of a place that was written to, and what was written there. -/
theorem take_writeAll_add {v w : Vector α k} {i : ℕ} {l : List α} (h : writeAll v i l = some w) :
    w.toList.take (i + l.length) = v.toList.take i ++ l := by
  by_cases hnil : l = []
  · subst hnil
    obtain rfl : v = w := Option.some.inj h
    rw [List.length_nil, Nat.add_zero, List.append_nil]
  have hroom : i + l.length ≤ k := by
    by_contra hlong
    obtain ⟨a, ha⟩ : ∃ a, l[l.length - 1]? = some a :=
      ⟨_, List.getElem?_eq_getElem (by have := List.length_pos_iff.mpr hnil; omega)⟩
    have hpos := List.length_pos_iff.mpr hnil
    have hget := getElem?_writeAll h (i + (l.length - 1))
    rw [if_pos (by omega), Nat.add_sub_cancel_left, ha, Vector.getElem?_eq_none (by omega)] at hget
    exact Option.some_ne_none a hget.symm
  refine List.ext_getElem? fun j => ?_
  have hlen : (v.toList.take i).length = i := by
    rw [List.length_take, Vector.length_toList]
    omega
  have hget := getElem?_writeAll h j
  rw [List.getElem?_take]
  split_ifs with hj
  · have hw : w.toList[j]? = w[j]? := by simp
    rw [hw, hget]
    by_cases hi : i ≤ j
    · rw [if_pos ⟨hi, hj⟩, List.getElem?_append_right (by omega), hlen]
    · have hv : v.toList[j]? = v[j]? := by simp
      rw [if_neg (by omega), List.getElem?_append_left (by omega), List.getElem?_take, if_pos (by omega), hv]
  · rw [List.getElem?_eq_none (by rw [List.length_append, hlen]; omega)]

/-- What was written first is read first. -/
theorem take_writeAll {v w : Vector α k} {l : List α} (h : writeAll v 0 l = some w) :
    w.toList.take l.length = l := by
  have htake := take_writeAll_add h
  rwa [Nat.zero_add, List.take_zero, List.nil_append] at htake

section Copy

variable [DecidableEq α]

/-- Copies up to `n` values from the buffer into the array, from index `i` on, and stops in front
of `stop`. Answers the index behind the last one written. -/
def copyLine (stop : α) : ℕ → List α → ℕ → Vector α k → Option (ℕ × Vector α k)
  | 0, _, i, v => some (i, v)
  | _ + 1, [], _, _ => none
  | n + 1, a :: rest, i, v =>
    if a = stop then some (i, v)
    else do
      let v ← write v i a
      copyLine stop n rest (i + 1) v

/-- What `copyLine` copies. -/
def line (stop : α) (n : ℕ) (rest : List α) : List α := (rest.take n).takeWhile (· ≠ stop)

/-- **A copy of a line** writes the line, when the buffer has the stop or enough values. -/
theorem copyLine_eq (stop : α) (n : ℕ) (rest : List α) (i : ℕ) (v : Vector α k) :
    copyLine stop n rest i v =
      if stop ∈ rest.take n ∨ n ≤ rest.length then
        (writeAll v i (line stop n rest)).map fun w => (i + (line stop n rest).length, w)
      else none := by
  induction n generalizing rest i v with
  | zero => simp [copyLine, line, writeAll]
  | succ n ih =>
    cases rest with
    | nil => simp [copyLine]
    | cons a rest =>
      rw [copyLine]
      by_cases ha : a = stop
      · simp [ha, line, writeAll]
      · have hline : line stop (n + 1) (a :: rest) = a :: line stop n rest := by
          simp [line, ha]
        have hroom : stop ∈ (a :: rest).take (n + 1) ∨ n + 1 ≤ (a :: rest).length ↔
            stop ∈ rest.take n ∨ n ≤ rest.length := by
          simp [Ne.symm ha]
        rw [if_neg ha, hline, if_congr hroom rfl rfl, writeAll]
        cases hw : write v i a with
        | none => simp
        | some v' =>
          simp only [Option.bind_eq_bind, Option.bind_some, ih, List.length_cons]
          rw [show i + 1 + (line stop n rest).length = i + ((line stop n rest).length + 1) by omega]

/-- A line that has room. -/
theorem line_append {stop : α} {n : ℕ} {l : List α} (hl : stop ∉ l) (hn : l.length ≤ n)
    (more : List α) : line stop n (l ++ stop :: more) = l := by
  have hall : ∀ a ∈ l, decide (a ≠ stop) = true := by
    intro a ha
    exact decide_eq_true fun h => hl (h ▸ ha)
  rw [line, List.take_append, List.take_of_length_le hn, List.takeWhile_append_of_pos hall]
  cases n - l.length with
  | zero => rw [List.take_zero, List.takeWhile_nil, List.append_nil]
  | succ n =>
    rw [List.take_succ_cons, List.takeWhile_cons_of_neg (by simp), List.append_nil]

end Copy

end Scan
