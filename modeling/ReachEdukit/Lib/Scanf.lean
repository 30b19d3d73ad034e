import Mathlib.Data.List.Basic
import Mathlib.Data.Int.Basic

/-!
# Formatted input

What `scanf` makes of a text, for formats of plain characters, blanks, `%d`, `%s` and `%[^c]`. A scan
ends at the first part of the format that does not fit; what was converted before that stays, and the
text is left where the scan stopped. There is no bound on a number or on a word.

## Main definitions

* `Scanf.decimal` — what `%d` prints
* `Scanf.scan` — the scan of a text
* `Scanf.atoi` — a number at the front of a text

## Main results

* `Scanf.scan_int`, `Scanf.scan_word`, `Scanf.scan_notIn`, `Scanf.scan_lits` — the parts of a format
* `Scanf.scan_suffix` — what is left is the end of the text
* `Scanf.atoi_decimal` — a number that was printed is read back
-/

namespace Scanf

/-- `isspace`. -/
def isSpace (c : Char) : Bool := c = ' ' || (0x09 ≤ c.toNat && c.toNat ≤ 0x0d)

/-- What `%d` prints. -/
def decimal (n : ℤ) : List Char :=
  if n < 0 then '-' :: Nat.toDigits 10 n.natAbs else Nat.toDigits 10 n.natAbs

/-- A number without its sign, and what is left. -/
def scanDigits (text : List Char) : Option ℤ × List Char :=
  let digits := text.takeWhile Char.isDigit
  (if digits = [] then none else some (Nat.ofDigitChars 10 digits 0), text.dropWhile Char.isDigit)

/-- A number behind blanks, and what is left. -/
def scanInt (text : List Char) : Option ℤ × List Char :=
  let text := text.dropWhile isSpace
  if text.head? = some '-' then
    ((scanDigits text.tail).1.map fun n => -n, (scanDigits text.tail).2)
  else if text.head? = some '+' then scanDigits text.tail
  else scanDigits text

/-- `atoi`, 0 for a text without a number. -/
def atoi (text : List Char) : ℤ := (scanInt text).1.getD 0

/-- A part of a format. -/
inductive Item where
  /-- A character that is not a blank. -/
  | lit (c : Char)
  /-- A blank, for any number of them. -/
  | blank
  /-- `%d`. -/
  | int
  /-- `%s`. -/
  | word
  /-- `%[^c]`. -/
  | notIn (c : Char)
  deriving DecidableEq, Repr

/-- What a part of a format is converted to. -/
inductive Value where
  | int (n : ℤ)
  | text (s : List Char)
  deriving DecidableEq, Repr

/-- The number of a conversion. -/
def Value.int? : Value → Option ℤ
  | .int n => some n
  | .text _ => none

/-- The text of a conversion. -/
def Value.text? : Value → Option (List Char)
  | .int _ => none
  | .text s => some s

/-- The scan goes on behind a conversion. -/
def convert (v : Value) (r : List Value × List Char) : List Value × List Char := (v :: r.1, r.2)

/-- `scanf`: the conversions, and the text that is left. -/
def scan : List Item → List Char → List Value × List Char
  | [], text => ([], text)
  | .lit c :: format, text =>
    if text.head? = some c then scan format text.tail else ([], text)
  | .blank :: format, text => scan format (text.dropWhile isSpace)
  | .int :: format, text =>
    (scanInt text).1.elim ([], (scanInt text).2) fun n =>
      convert (.int n) (scan format (scanInt text).2)
  | .word :: format, text =>
    let text := text.dropWhile isSpace
    let s := text.takeWhile fun c => !isSpace c
    if s = [] then ([], text)
    else convert (.text s) (scan format (text.dropWhile fun c => !isSpace c))
  | .notIn c :: format, text =>
    let s := text.takeWhile (· ≠ c)
    if s = [] then ([], text) else convert (.text s) (scan format (text.dropWhile (· ≠ c)))

/-- Characters that are not blanks, as a format. -/
def lits (word : List Char) : List Item := word.map .lit

variable {format : List Item} {word rest text : List Char} {c : Char} {n : ℤ}

/-! ### Taking from the front -/

/-- A word ends where the next character is not of its kind, or the text ends. -/
theorem takeWhile_append {p : Char → Bool} (word rest : List Char)
    (hword : ∀ d ∈ word, p d = true) (hrest : ∀ d ∈ rest.head?, p d = false) :
    (word ++ rest).takeWhile p = word ∧ (word ++ rest).dropWhile p = rest := by
  rw [List.takeWhile_append_of_pos hword, List.dropWhile_append_of_pos hword]
  cases rest with
  | nil => exact ⟨List.append_nil _, rfl⟩
  | cons d rest =>
    have hd : ¬ p d := by
      rw [hrest d rfl]
      exact Bool.false_ne_true
    rw [List.takeWhile_cons_of_neg hd, List.dropWhile_cons_of_neg hd]
    exact ⟨List.append_nil _, rfl⟩

/-! ### Numbers -/

theorem isSpace_of_isDigit (h : c.isDigit = true) : isSpace c = false := by
  rw [Char.isDigit_iff_toNat] at h
  have hc : c ≠ ' ' := by
    rintro rfl
    exact absurd h (by decide)
  rw [isSpace, Bool.or_eq_false_iff, decide_eq_false_iff_not, Bool.and_eq_false_iff,
    decide_eq_false_iff_not, decide_eq_false_iff_not]
  have hzero : '0'.toNat = 48 := rfl
  refine ⟨hc, Or.inr ?_⟩
  omega

theorem isDigit_of_mem {m : ℕ} (h : c ∈ Nat.toDigits 10 m) : c.isDigit = true :=
  Nat.isDigit_of_mem_toDigits (by decide) (by decide) h

theorem toDigits_ne_nil (n : ℕ) : Nat.toDigits 10 n ≠ [] :=
  List.ne_nil_of_length_pos Nat.length_toDigits_pos

/-- The digits of a number, in front of something else. -/
theorem scanDigits_toDigits (n : ℕ) (hrest : ∀ d ∈ rest.head?, d.isDigit = false) :
    scanDigits (Nat.toDigits 10 n ++ rest) = (some (n : ℤ), rest) := by
  obtain ⟨htake, hdrop⟩ := takeWhile_append _ rest (fun d hd => isDigit_of_mem hd) hrest
  rw [scanDigits, htake, hdrop, if_neg (toDigits_ne_nil n), Nat.ofDigitChars_ten_toDigits]

/-- **A number that was printed** is read back. -/
theorem scanInt_decimal (n : ℤ) (hrest : ∀ d ∈ rest.head?, d.isDigit = false) :
    scanInt (decimal n ++ rest) = (some n, rest) := by
  rw [decimal]
  split_ifs with hneg
  · have hskip : (('-' :: Nat.toDigits 10 n.natAbs) ++ rest).dropWhile isSpace =
        '-' :: (Nat.toDigits 10 n.natAbs ++ rest) := rfl
    rw [scanInt, hskip, List.head?_cons, if_pos rfl, List.tail_cons, scanDigits_toDigits _ hrest]
    have hback : -(n.natAbs : ℤ) = n := by omega
    exact Prod.ext (congrArg some hback) rfl
  · obtain ⟨d, digits, hdigits⟩ := List.exists_cons_of_ne_nil (toDigits_ne_nil n.natAbs)
    have hd : d.isDigit = true := isDigit_of_mem (hdigits ▸ List.mem_cons_self)
    have hskip : (Nat.toDigits 10 n.natAbs ++ rest).dropWhile isSpace =
        Nat.toDigits 10 n.natAbs ++ rest := by
      rw [hdigits, List.cons_append, List.dropWhile_cons_of_neg]
      rw [isSpace_of_isDigit hd]
      exact Bool.false_ne_true
    have hhead : (Nat.toDigits 10 n.natAbs ++ rest).head? = some d := by
      rw [hdigits]
      rfl
    have hsign : ∀ s : Char, s.isDigit = false → ¬ some d = some s := by
      rintro s hs heq
      rw [Option.some.inj heq, hs] at hd
      exact Bool.false_ne_true hd
    rw [scanInt, hskip, hhead, if_neg (hsign '-' rfl), if_neg (hsign '+' rfl), scanDigits_toDigits _ hrest]
    exact Prod.ext (congrArg some (by omega)) rfl

theorem atoi_decimal (n : ℤ) : atoi (decimal n) = n := by
  have h : scanInt (decimal n ++ []) = (some n, []) :=
    scanInt_decimal n fun d hd => absurd hd (Option.not_mem_none d)
  rw [List.append_nil] at h
  rw [atoi, h]
  rfl

/-! ### What is left -/

theorem scanInt_suffix (text : List Char) : (scanInt text).2 <:+ text := by
  have hdigits : ∀ rest, (scanDigits rest).2 <:+ rest := fun rest => List.dropWhile_suffix _
  have hskip : text.dropWhile isSpace <:+ text := List.dropWhile_suffix _
  rw [scanInt]
  split_ifs
  · exact (hdigits _).trans ((List.tail_suffix _).trans hskip)
  · exact (hdigits _).trans ((List.tail_suffix _).trans hskip)
  · exact (hdigits _).trans hskip

/-- A scan takes from the front. -/
theorem scan_suffix (format : List Item) (text : List Char) : (scan format text).2 <:+ text := by
  induction format generalizing text with
  | nil => exact List.suffix_refl _
  | cons item format ih =>
    cases item with
    | lit c =>
      rw [scan]
      split_ifs
      · exact (ih _).trans (List.tail_suffix _)
      · exact List.suffix_refl _
    | blank => exact (ih _).trans (List.dropWhile_suffix _)
    | int =>
      rw [scan]
      cases (scanInt text).1 with
      | none => exact scanInt_suffix text
      | some n => exact (ih _).trans (scanInt_suffix text)
    | word =>
      rw [scan]
      split_ifs
      · exact List.dropWhile_suffix _
      · exact (ih _).trans ((List.dropWhile_suffix _).trans (List.dropWhile_suffix _))
    | notIn c =>
      rw [scan]
      split_ifs
      · exact List.suffix_refl _
      · exact (ih _).trans (List.dropWhile_suffix _)

/-! ### The parts of a format -/

@[simp] theorem scan_nil (text : List Char) : scan [] text = ([], text) := rfl

@[simp] theorem scan_lit_cons (c : Char) (format : List Item) (text : List Char) :
    scan (.lit c :: format) (c :: text) = scan format text := if_pos rfl

theorem scan_lits (word : List Char) (format : List Item) (rest : List Char) :
    scan (lits word ++ format) (word ++ rest) = scan format rest := by
  induction word with
  | nil => rfl
  | cons c word ih => exact (scan_lit_cons c _ _).trans ih

theorem scan_blank (h : ∀ d ∈ text.head?, isSpace d = false) :
    scan (.blank :: format) (' ' :: text) = scan format text := by
  have hdrop := (takeWhile_append (p := isSpace) [' '] text
    (fun d hd => by rw [List.mem_singleton.mp hd]; rfl) h).2
  exact congrArg (scan format) hdrop

theorem scan_int (n : ℤ) (hrest : ∀ d ∈ rest.head?, d.isDigit = false) :
    scan (.int :: format) (decimal n ++ rest) = convert (.int n) (scan format rest) := by
  rw [scan, scanInt_decimal n hrest]
  rfl

theorem scan_word (hne : word ≠ []) (hword : ∀ d ∈ word, isSpace d = false)
    (hrest : ∀ d ∈ rest.head?, isSpace d = true) :
    scan (.word :: format) (word ++ rest) = convert (.text word) (scan format rest) := by
  have hskip : (word ++ rest).dropWhile isSpace = word ++ rest := by
    obtain ⟨d, word, rfl⟩ := List.exists_cons_of_ne_nil hne
    rw [List.cons_append, List.dropWhile_cons_of_neg]
    rw [hword d List.mem_cons_self]
    exact Bool.false_ne_true
  obtain ⟨htake, hdrop⟩ := takeWhile_append (p := fun c => !isSpace c) word rest
    (fun d hd => by rw [hword d hd]; rfl) (fun d hd => by rw [hrest d hd]; rfl)
  rw [scan, hskip, htake, hdrop, if_neg hne]

theorem scan_notIn (hne : word ≠ []) (hword : c ∉ word) (hrest : ∀ d ∈ rest.head?, d = c) :
    scan (.notIn c :: format) (word ++ rest) = convert (.text word) (scan format rest) := by
  obtain ⟨htake, hdrop⟩ := takeWhile_append (p := fun d => d ≠ c) word rest
    (fun d hd => decide_eq_true fun h => hword (h ▸ hd))
    (fun d hd => decide_eq_false (not_not.mpr (hrest d hd)))
  rw [scan, htake, hdrop, if_neg hne]

end Scanf
