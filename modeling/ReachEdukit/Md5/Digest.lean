import ReachEdukit.Lib.Loop
import ReachEdukit.Lib.Memory
import ReachEdukit.Lib.Turns
import ReachEdukit.Md5.Context

/-!
# The digests of texts and files

`our_md5hl.c` makes a digest of a text or of a file, which it reads in pieces of 255 bytes. `md5lib.c`
reads pieces of 1024 bytes, and has keyed digests too. Both print the digest in hexadecimal: the one
looks the characters up, the other prints two characters and a zero, then two and a zero again, one
place further on. So the other writes two bytes behind its array of 32, at the last byte of every digest:
they are given here beside the 32 characters that it returns.

The lengths of a key and of a text are those of strings, in an `int`: a key of `2 ^ 31` bytes has a
negative length, and none of it is used.

## What is left out

A file that is not opened, for which the functions return `0`, a read that fails, and the memory of a
result that is not given. What the two bytes behind the array of 32 hit is not read again.

## Main definitions

* `ourMD5Data`, `ourMD5File`, `mdString`, `mdFile`, `hmacMd5`, `mdFileKey`, `mdFileKeyLen` — the functions
* `Printed` — what a function of `md5lib.c` writes

## Main results

* `output_eq` — what is printed is the digest, and two bytes behind the array
* `ourMD5End_eq`, `file_digests` — the digest of what is fed, and of a file
* `keyed_digests` — the digests of `md5lib.c`
-/

namespace ReachEdukit

namespace Md5

open Memory MessageDigest

/-! ### Hexadecimal -/

/-- `hex` of `our_MD5End`, and the digits of `%02x`. -/
def hexDigits : Vector Byte 16 :=
  #v[0x30, 0x31, 0x32, 0x33, 0x34, 0x35, 0x36, 0x37, 0x38, 0x39, 0x61, 0x62, 0x63, 0x64, 0x65, 0x66]

/-- The digits of `%02X`. -/
def upperDigits : Vector Byte 16 :=
  #v[0x30, 0x31, 0x32, 0x33, 0x34, 0x35, 0x36, 0x37, 0x38, 0x39, 0x41, 0x42, 0x43, 0x44, 0x45, 0x46]

/-- The character of a digit. -/
def hexDigit (digits : Vector Byte 16) (b : Byte) : Byte := (digits[b.toNat]?).getD 0

/-- The two characters of a byte. -/
def hexByte (digits : Vector Byte 16) (b : Byte) : List Byte :=
  [hexDigit digits (b >>> 4), hexDigit digits (b &&& 0x0f)]

/-- The characters of some bytes. -/
def hex (digits : Vector Byte 16) (bs : List Byte) : List Byte := bs.flatMap (hexByte digits)

/-- The string that `sprintf` writes for a byte, with its terminator. -/
def sprintfHex (digits : Vector Byte 16) (b : Byte) : List Byte := hexByte digits b ++ [0]

/-- One turn of the loop that prints a digest to `output1`. -/
def printByte (digits : Vector Byte 16) (m : ℕ → Byte) (i : ℕ) (b : Byte) : ℕ → Byte :=
  blit (blit m (2 * i) (sprintfHex digits b)) (2 * i + 1) (sprintfHex digits (b <<< 4))

/-- The loop. -/
def printHex (digits : Vector Byte 16) (m : ℕ → Byte) : ℕ → List Byte → (ℕ → Byte)
  | _, [] => m
  | i, b :: bs => printHex digits (printByte digits m i b) (i + 1) bs

/-! ### Reading a file -/

/-- `fread` of up to `n` bytes, from what is left of a file. -/
def fread (n : ℕ) (file : List Byte) : Option (List Byte × List Byte) :=
  if file.take n = [] then none else some (file.take n, file.drop n)

/-- The pieces of a file that is read with a buffer of `n` bytes. -/
def pieces (n : ℕ) (file : List Byte) : List (List Byte) := Turns.all (fread n) file

/-- One turn of the loop of `MDFile_key_len`, on `uiLen` and what is left of the file. -/
def freadLen (s : ℕ × List Byte) : Option (List Byte × (ℕ × List Byte)) :=
  if s.1 = 0 then none
  else (fread (min s.1 1024) s.2).map fun r => (r.1, (s.1 - r.1.length, r.2))

/-- The pieces of the first `uiLen` bytes of a file. -/
def piecesLen (uiLen : ℕ) (file : List Byte) : List (List Byte) :=
  Loop.outs freadLen (fun s => s.1) (uiLen, file)

/-! ### The functions -/

/-- A context on the stack. -/
def stackContext : Md5Ctx := ⟨⟨0, 0, 0, 0⟩, (0, 0), Vector.replicate 64 0⟩

/-- `our_MD5End` with the pieces that the context is fed with. -/
def ourMD5End (pieces : List (List Byte)) : Option (List Byte) :=
  (digestOf stackContext pieces).map (hex hexDigits)

/-- `our_MD5Data`. -/
def ourMD5Data (data : List Byte) : Option (List Byte) := ourMD5End [data]

/-- `our_MD5File`. -/
def ourMD5File (file : List Byte) : Option (List Byte) := ourMD5End (pieces 255 file)

/-- What a function of `md5lib.c` writes for a digest: `output1`, and what is behind it. -/
structure Printed where
  /-- The 32 characters of `output1`, which are copied to the result. -/
  output : List Byte
  /-- The two bytes behind the array. -/
  behind : List Byte
  deriving DecidableEq

/-- The loop that prints a digest, from the start of `output1` on. -/
def output (digits : Vector Byte 16) (digest : List Byte) : Printed :=
  let memory := printHex digits (fun _ => 0) 0 digest
  ⟨window memory 0 32, window memory 32 2⟩

/-- `MDString`. -/
def mdString (string : List Byte) : Option Printed :=
  (digestOf stackContext [string]).map (output hexDigits)

/-- `MDFile`. -/
def mdFile (file : List Byte) : Option Printed :=
  (digestOf stackContext (pieces 1024 file)).map (output hexDigits)

/-- `k_ipad` or `k_opad`: 64 bytes of the key and zeros, combined with `pad`. -/
def keyPad (pad : Byte) (key : List Byte) : List Byte :=
  (key ++ List.replicate (64 - key.length) 0).map (· ^^^ pad)

/-- The length of a string in an `int`. -/
def intLen (string : List Byte) : ℤ := Int.bmod string.length (2 ^ 32)

/-- The `key_len` bytes of the key, or their digest when they are more than 64. -/
def shortKey (key : List Byte) : Option (List Byte) :=
  let bytes := key.take (intLen key).toNat
  if 64 < intLen key then digestOf stackContext [bytes] else some bytes

/-- The two passes of the keyed digests. -/
def keyed (key : List Byte) (pieces : List (List Byte)) : Option (List Byte) := do
  let key ← shortKey key
  let inner ← digestOf stackContext (keyPad 0x36 key :: pieces)
  digestOf stackContext [keyPad 0x5c key, inner]

/-- `hmac_md5`. The `int` length of the text is taken as an `unsigned int`. -/
def hmacMd5 (text key : List Byte) : Option Printed :=
  (keyed key [text.take (text.length % 2 ^ 32)]).map (output hexDigits)

/-- `MDFile_key`. -/
def mdFileKey (file key : List Byte) : Option Printed :=
  (keyed key (pieces 1024 file)).map (output upperDigits)

/-- `MDFile_key_len`. -/
def mdFileKeyLen (file key : List Byte) (uiLen : Word) : Option Printed :=
  (keyed key (piecesLen uiLen.toNat file)).map (output upperDigits)

variable {digits : Vector Byte 16} {file key msg bs : List Byte} {m : ℕ → Byte}

/-! ### Printing -/

@[simp] theorem length_hex (digits : Vector Byte 16) (bs : List Byte) :
    (hex digits bs).length = 2 * bs.length := by
  induction bs with
  | nil => rfl
  | cons b bs ih =>
    have hbyte : (hexByte digits b).length = 2 := rfl
    rw [hex, List.flatMap_cons, List.length_append, ← hex, ih, hbyte, List.length_cons]
    omega

@[simp] theorem length_digest (msg : List Byte) : (digest msg).length = 16 := length_encode _

/-- The second `sprintf` leaves the low digit. -/
theorem sprintfHex_shiftLeft (digits : Vector Byte 16) (b : Byte) :
    sprintfHex digits (b <<< 4) = [hexDigit digits (b &&& 0x0f), hexDigit digits 0, 0] := by
  have hlow : (b <<< 4) >>> 4 = b &&& 0x0f := by
    revert b
    decide
  have hzero : (b <<< 4) &&& 0x0f = 0 := by
    revert b
    decide
  rw [sprintfHex, hexByte, hlow, hzero]
  rfl

/-- What one turn leaves: the two characters, and a zero digit and a terminator behind them. -/
theorem window_printByte (digits : Vector Byte 16) (m : ℕ → Byte) (i : ℕ) (b : Byte) :
    window (printByte digits m i b) 0 (2 * i + 2) = window m 0 (2 * i) ++ hexByte digits b ∧
      window (printByte digits m i b) (2 * i + 2) 2 = [hexDigit digits 0, 0] := by
  have hfirst : window (blit m (2 * i) (sprintfHex digits b)) 0 (2 * i + 1) =
      window m 0 (2 * i) ++ [hexDigit digits (b >>> 4)] := by
    have hcell : window (blit m (2 * i) (sprintfHex digits b)) (2 * i) 1 = [hexDigit digits (b >>> 4)] :=
      congrArg (fun c => [c]) (blit_cons_self m (2 * i) _ _)
    rw [window_add, window_blit_of_le (by omega), Nat.zero_add, hcell]
  have hall : window (printByte digits m i b) 0 (2 * i + 2 + 2) =
      (window m 0 (2 * i) ++ hexByte digits b) ++ [hexDigit digits 0, 0] := by
    have hbehind := window_blit_behind (blit m (2 * i) (sprintfHex digits b)) 0 (2 * i + 1)
      [hexDigit digits (b &&& 0x0f), hexDigit digits 0, 0]
    rw [Nat.zero_add, hfirst] at hbehind
    rw [printByte, sprintfHex_shiftLeft, hexByte, List.append_assoc]
    rw [List.append_assoc] at hbehind
    exact hbehind
  rw [window_add, Nat.zero_add] at hall
  exact List.append_inj hall (by simp [hexByte])

/-- **What is printed is the digest**: the characters, and a zero digit and a terminator behind them. -/
theorem window_printHex (digits : Vector Byte 16) (m : ℕ → Byte) (i : ℕ) (bs : List Byte) (hne : bs ≠ []) :
    window (printHex digits m i bs) 0 (2 * i + 2 * bs.length) = window m 0 (2 * i) ++ hex digits bs ∧
      window (printHex digits m i bs) (2 * i + 2 * bs.length) 2 = [hexDigit digits 0, 0] := by
  induction bs generalizing m i with
  | nil => exact absurd rfl hne
  | cons b bs ih =>
    obtain ⟨hread, hbehind⟩ := window_printByte digits m i b
    by_cases hlast : bs = []
    · subst hlast
      rw [hex, List.flatMap_singleton]
      exact ⟨hread, hbehind⟩
    · obtain ⟨hreads, hbehinds⟩ := ih (printByte digits m i b) (i + 1) hlast
      have hplace : 2 * (i + 1) + 2 * bs.length = 2 * i + 2 * (b :: bs).length := by
        rw [List.length_cons]
        omega
      rw [hplace] at hreads hbehinds
      refine ⟨?_, hbehinds⟩
      rw [printHex, hreads, Nat.mul_succ, hread, hex, hex, List.flatMap_cons, List.append_assoc]

/-- Nothing is written further on. -/
theorem printHex_of_le {i j : ℕ} (h : 2 * i + 2 * bs.length + 2 ≤ j) : printHex digits m i bs j = m j := by
  induction bs generalizing m i with
  | nil => rfl
  | cons b bs ih =>
    rw [List.length_cons] at h
    have hcell : printByte digits m i b j = m j := by
      have hlength : ∀ b, (sprintfHex digits b).length = 3 := fun _ => rfl
      rw [printByte, blit, if_pos (by omega), List.getElem?_eq_none (by rw [hlength]; omega), Option.getD_none,
        blit, if_pos (by omega), List.getElem?_eq_none (by rw [hlength]; omega), Option.getD_none]
    rw [printHex, ih (by omega), hcell]

/-- **A function of `md5lib.c` returns the digest in hexadecimal**, and writes a zero digit and a terminator
behind its array. -/
theorem output_eq {digest : List Byte} (h : digest.length = 16) :
    output digits digest = ⟨hex digits digest, [hexDigit digits 0, 0]⟩ := by
  have hne : digest ≠ [] := List.ne_nil_of_length_pos (by omega)
  obtain ⟨hread, hbehind⟩ := window_printHex digits (fun _ => 0) 0 digest hne
  rw [Nat.mul_zero, window_zero, List.nil_append, Nat.zero_add, h] at hread
  rw [Nat.mul_zero, Nat.zero_add, h] at hbehind
  rw [output, hread, hbehind]

/-! ### Reading -/

theorem fread_shrinks (n : ℕ) : Turns.Shrinks (fread n) := by
  intro file piece rest h
  rw [fread] at h
  split_ifs at h with htake
  obtain ⟨-, rfl⟩ := Prod.mk.inj (Option.some.inj h)
  rw [List.take_eq_nil_iff, not_or] at htake
  have hfile := List.length_pos_iff.mpr htake.2
  have hn := Nat.pos_of_ne_zero htake.1
  rw [List.length_drop]
  omega

/-- **The pieces are the file**, and none is longer than the buffer. -/
theorem pieces_spec {n : ℕ} (hn : n ≠ 0) (file : List Byte) :
    (pieces n file).flatten = file ∧ ∀ piece ∈ pieces n file, piece.length ≤ n := by
  induction file using Turns.all_induction (fread_shrinks n) with
  | hend file hend =>
    have hempty : file = [] := by
      rw [fread] at hend
      split_ifs at hend with htake
      exact (List.take_eq_nil_iff.mp htake).resolve_left hn
    rw [pieces, Turns.all_of_none hend, hempty]
    exact ⟨rfl, fun _ h => absurd h List.not_mem_nil⟩
  | hturn file piece rest hturn ih =>
    obtain ⟨hflat, hle⟩ := ih
    rw [pieces, Turns.all_of_some (fread_shrinks n) hturn, ← pieces]
    rw [fread] at hturn
    split_ifs at hturn with htake
    obtain ⟨rfl, rfl⟩ := Prod.mk.inj (Option.some.inj hturn)
    refine ⟨?_, List.forall_mem_cons.mpr ⟨List.length_take_le _ _, hle⟩⟩
    rw [List.flatten_cons, hflat, List.take_append_drop]

theorem freadLen_some {s s' : ℕ × List Byte} {piece : List Byte} (h : freadLen s = some (piece, s')) :
    piece = s.2.take (min s.1 1024) ∧ piece ≠ [] ∧ s' = (s.1 - piece.length, s.2.drop (min s.1 1024)) := by
  rw [freadLen] at h
  split_ifs at h with hzero
  obtain ⟨r, hr, h⟩ := Option.map_eq_some_iff.mp h
  rw [fread] at hr
  split_ifs at hr with htake
  obtain rfl := Option.some.inj hr
  obtain ⟨rfl, rfl⟩ := Prod.mk.inj h
  exact ⟨rfl, htake, rfl⟩

theorem freadLen_decreases : Loop.Decreases freadLen fun s => s.1 := by
  intro s piece s' h
  obtain ⟨rfl, hne, rfl⟩ := freadLen_some h
  have hpos := List.length_pos_iff.mpr hne
  have hle := List.length_take_le (min s.1 1024) s.2
  change s.1 - _ < s.1
  omega

/-- The pieces of the start of a file. -/
theorem piecesLen_spec (s : ℕ × List Byte) :
    (piecesLen s.1 s.2).flatten = s.2.take s.1 ∧ ∀ piece ∈ piecesLen s.1 s.2, piece.length ≤ 1024 := by
  induction s using Loop.induction freadLen_decreases with
  | hend s hend =>
    have hempty : s.2.take s.1 = [] := by
      rw [freadLen] at hend
      split_ifs at hend with hzero
      · rw [hzero, List.take_zero]
      · rw [Option.map_eq_none_iff, fread] at hend
        split_ifs at hend with htake
        rw [(List.take_eq_nil_iff.mp htake).resolve_left (by omega), List.take_nil]
    rw [piecesLen, Loop.outs_of_none hend, hempty]
    exact ⟨rfl, fun _ h => absurd h List.not_mem_nil⟩
  | hstep s piece s' hturn ih =>
    obtain ⟨hflat, hle⟩ := ih
    rw [piecesLen, Loop.outs_of_some freadLen_decreases hturn]
    obtain ⟨rfl, hne, rfl⟩ := freadLen_some hturn
    refine ⟨?_, List.forall_mem_cons.mpr ⟨(List.length_take_le _ _).trans (min_le_right _ _), hle⟩⟩
    rw [piecesLen] at hflat
    rw [List.flatten_cons, hflat]
    by_cases hlong : min s.1 1024 ≤ s.2.length
    · rw [List.length_take_of_le hlong, ← List.take_add]
      congr 1
      omega
    · have hall : s.2.length ≤ min s.1 1024 := by omega
      rw [List.drop_of_length_le hall, List.take_nil, List.append_nil, List.take_of_length_le hall,
        List.take_of_length_le (hall.trans (min_le_left _ _))]

/-! ### The digests -/

theorem digestOf_pieces {n : ℕ} (hn : n ≠ 0) (hlong : n ≤ 2 ^ 32 - 64) (file : List Byte) :
    digestOf stackContext (pieces n file) = some (md5 file) := by
  obtain ⟨hflat, hle⟩ := pieces_spec hn file
  rw [digestOf_eq _ fun piece hpiece => (hle piece hpiece).trans hlong, hflat]

/-- The digest of one text. -/
theorem digestOf_text (hlong : msg.length ≤ 2 ^ 32 - 64) : digestOf stackContext [msg] = some (md5 msg) := by
  rw [digestOf_eq _ fun piece hpiece => (List.mem_singleton.mp hpiece) ▸ hlong, List.flatten_singleton]

/-! ### The keyed digests -/

theorem keyPad_eq (pad : Byte) (key : List Byte) : keyPad pad key = blockKey 64 key pad := rfl

/-- A key of less than `2 ^ 31` bytes is used as a whole. -/
theorem shortKey_eq (hkey : key.length < 2 ^ 31) :
    shortKey key = some (if 64 < key.length then md5 key else key) := by
  have hint : intLen key = key.length := Int.bmod_eq_of_le (by omega) (by omega)
  have htext : key.length ≤ 2 ^ 32 - 64 := by omega
  simp only [shortKey, hint, Int.toNat_natCast, List.take_length, Nat.ofNat_lt_cast]
  split_ifs with hlong
  · exact digestOf_text htext
  · rfl

/-- **The two passes are the keyed digest.** -/
theorem keyed_eq {parts : List (List Byte)} (hkey : key.length < 2 ^ 31)
    (hparts : ∀ piece ∈ parts, piece.length ≤ 2 ^ 32 - 64) :
    keyed key parts = some (hmac md5 64 key parts.flatten) := by
  set short := if 64 < key.length then md5 key else key with hshort
  have hle : short.length ≤ 64 := by
    rw [hshort]
    split_ifs with hlong
    · rw [length_md5]
      decide
    · exact Nat.not_lt.mp hlong
  have hpad : ∀ pad, (blockKey 64 short pad).length ≤ 2 ^ 32 - 64 := by
    intro pad
    rw [length_blockKey hle]
    decide
  have hinner : digestOf stackContext (blockKey 64 short 0x36 :: parts) =
      some (md5 (blockKey 64 short 0x36 ++ parts.flatten)) := by
    rw [digestOf_eq _ (List.forall_mem_cons.mpr ⟨hpad 0x36, hparts⟩), List.flatten_cons]
  have hdigest : ∀ piece ∈ [md5 (blockKey 64 short 0x36 ++ parts.flatten)], piece.length ≤ 2 ^ 32 - 64 := by
    intro piece hpiece
    rw [List.mem_singleton.mp hpiece, length_md5]
    decide
  rw [keyed, shortKey_eq hkey, Option.bind_eq_bind, Option.bind_some, keyPad_eq, keyPad_eq, hinner,
    Option.bind_some, digestOf_eq _ (List.forall_mem_cons.mpr ⟨hpad 0x5c, hdigest⟩), List.flatten_cons,
    List.flatten_singleton, hmac]

theorem length_hmac (key msg : List Byte) : (hmac md5 64 key msg).length = 16 := length_md5 _

/-! ### What the functions return -/

/-- **A digest does not depend on how the text comes**: it is MD5. -/
theorem ourMD5End_eq (parts : List (List Byte)) (hlong : ∀ piece ∈ parts, piece.length ≤ 2 ^ 32 - 64) :
    ourMD5End parts = some (hex hexDigits (md5 parts.flatten)) := by
  rw [ourMD5End, digestOf_eq _ hlong, Option.map_some]

/-- Three pieces, the second over the end of a block. -/
theorem ourMD5End_three :
    (∀ piece ∈ [List.replicate 60 1, List.replicate 70 2, ([3] : List Byte)], piece.length ≤ 2 ^ 32 - 64) ∧
      ourMD5End [List.replicate 60 1, List.replicate 70 2, [3]] =
        some (hex hexDigits (md5 (List.replicate 60 1 ++ List.replicate 70 2 ++ [3]))) := by
  have hlong : ∀ piece ∈ [List.replicate 60 1, List.replicate 70 2, ([3] : List Byte)],
      piece.length ≤ 2 ^ 32 - 64 := by
    decide
  exact ⟨hlong, ourMD5End_eq _ hlong⟩

/-- **A file and a text with the same bytes have the same digest.** -/
theorem file_digests (file : List Byte) :
    ourMD5File file = some (hex hexDigits (md5 file)) ∧
      (file.length ≤ 2 ^ 32 - 64 → ourMD5Data file = ourMD5File file) := by
  have hfile : ourMD5File file = some (hex hexDigits (md5 file)) := by
    rw [ourMD5File, ourMD5End, digestOf_pieces (by decide) (by decide), Option.map_some]
  refine ⟨hfile, fun hlong => ?_⟩
  rw [hfile, ourMD5Data, ourMD5End, digestOf_text hlong, Option.map_some]

/-- The digest of a file of a hundred bytes is that of the text in it. -/
theorem file_digests_hundred :
    ourMD5Data (List.replicate 100 7) = ourMD5File (List.replicate 100 7) := by
  have hlong : (List.replicate 100 (7 : Byte)).length ≤ 2 ^ 32 - 64 := by
    decide
  exact (file_digests (List.replicate 100 7)).2 hlong

/-- What is printed for a digest, with a zero digit and a terminator behind the array. -/
def printed (digits : Vector Byte 16) (digest : List Byte) : Printed := ⟨hex digits digest, [0x30, 0]⟩

/-- **The digests of `md5lib.c`**: of a file and of a text, and the keyed ones of a file, of the start of one
and of a text. -/
theorem keyed_digests (key file : List Byte) (uiLen : Word) (hkey : key.length < 2 ^ 31) :
    mdFile file = some (printed hexDigits (md5 file)) ∧
      mdFileKey file key = some (printed upperDigits (hmac md5 64 key file)) ∧
      mdFileKeyLen file key uiLen = some (printed upperDigits (hmac md5 64 key (file.take uiLen.toNat))) ∧
      (file.length ≤ 2 ^ 32 - 64 → mdString file = some (printed hexDigits (md5 file)) ∧
        hmacMd5 file key = some (printed hexDigits (hmac md5 64 key file))) := by
  have hprinted : ∀ (digits : Vector Byte 16) (digest : List Byte), digest.length = 16 →
      hexDigit digits 0 = 0x30 → output digits digest = printed digits digest := by
    intro digits digest hlength hzero
    rw [output_eq hlength, hzero, printed]
  refine ⟨?_, ?_, ?_, fun hlong => ⟨?_, ?_⟩⟩
  · rw [mdFile, digestOf_pieces (by decide) (by decide), Option.map_some, hprinted _ _ (length_md5 _) rfl]
  · obtain ⟨hflat, hle⟩ := pieces_spec (show 1024 ≠ 0 by decide) file
    rw [mdFileKey, keyed_eq hkey fun piece hpiece => (hle piece hpiece).trans (by decide), hflat,
      Option.map_some, hprinted _ _ (length_hmac _ _) rfl]
  · obtain ⟨hflat, hle⟩ := piecesLen_spec (uiLen.toNat, file)
    rw [mdFileKeyLen, keyed_eq hkey fun piece hpiece => (hle piece hpiece).trans (by decide), hflat,
      Option.map_some, hprinted _ _ (length_hmac _ _) rfl]
  · rw [mdString, digestOf_text hlong, Option.map_some, hprinted _ _ (length_md5 _) rfl]
  · have hwhole : file.take (file.length % 2 ^ 32) = file := by
      rw [Nat.mod_eq_of_lt (by omega), List.take_length]
    rw [hmacMd5, hwhole, keyed_eq hkey fun piece hpiece => (List.mem_singleton.mp hpiece) ▸ hlong,
      List.flatten_singleton, Option.map_some, hprinted _ _ (length_hmac _ _) rfl]

/-- A key of 65 bytes, of which the digest is taken. -/
theorem keyed_digests_long :
    (List.replicate 65 (0x6b : Byte)).length < 2 ^ 31 ∧
      mdFileKeyLen [1, 2, 3] (List.replicate 65 0x6b) 2 =
        some (printed upperDigits (hmac md5 64 (List.replicate 65 0x6b) [1, 2])) := by
  have hkey : (List.replicate 65 (0x6b : Byte)).length < 2 ^ 31 := by
    decide
  exact ⟨hkey, (keyed_digests (List.replicate 65 0x6b) [1, 2, 3] 2 hkey).2.2.1⟩

end Md5

end ReachEdukit
