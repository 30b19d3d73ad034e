import ReachEdukit.Lib.BlockHash
import ReachEdukit.Lib.Sines

/-!
# MD5 and HMAC

The message digest MD5, as the standard has it: a message is padded to blocks of sixteen words, and four
registers take the words of a block in sixty-four steps. A step adds a word of the block and a constant
to a register, turns it and adds its neighbour, and the registers change places. The constants are the
sines of whole numbers. Over any digest there is the keyed digest HMAC.

## Main definitions

* `MessageDigest.littleEndian`, `MessageDigest.ofLittleEndian` — a number as bytes, the low byte first
* `MessageDigest.sineWord` — the constants
* `MessageDigest.step`, `MessageDigest.compress`, `MessageDigest.md5` — the digest
* `MessageDigest.hmac` — the keyed digest

## Main results

* `MessageDigest.sineWord_eq` — a constant, by calculation
* `MessageDigest.length_md5` — a digest has sixteen bytes
-/

namespace MessageDigest

open BlockHash

/-- A byte. -/
abbrev Byte := BitVec 8

/-- A word. -/
abbrev Word := BitVec 32

/-! ### Words and bytes -/

/-- A number in `k` bytes, the low byte first. -/
def littleEndian (k n : ℕ) : List Byte := (List.range k).map fun i => BitVec.ofNat 8 (n / 256 ^ i)

/-- The number of some bytes, the low byte first. -/
def ofLittleEndian : List Byte → ℕ
  | [] => 0
  | b :: bs => b.toNat + 256 * ofLittleEndian bs

/-- Word `k` of a block. -/
def blockWord (block : List Byte) (k : ℕ) : Word :=
  BitVec.ofNat 32 (ofLittleEndian ((block.drop (4 * k)).take 4))

@[simp] theorem length_littleEndian (k n : ℕ) : (littleEndian k n).length = k := by
  rw [littleEndian, List.length_map, List.length_range]

/-- The low bytes, and those above them. -/
theorem littleEndian_add (j k n : ℕ) :
    littleEndian (j + k) n = littleEndian j n ++ littleEndian k (n / 256 ^ j) := by
  rw [littleEndian, littleEndian, littleEndian, List.range_add, List.map_append, List.map_map]
  congr 1
  refine List.map_congr_left fun i _ => ?_
  rw [Function.comp_apply, pow_add, Nat.div_div_eq_div_mul]

/-- What is above the bytes does not count. -/
theorem littleEndian_mod (k n : ℕ) : littleEndian k (n % 256 ^ k) = littleEndian k n := by
  refine List.map_congr_left fun i hi => BitVec.eq_of_toNat_eq ?_
  have hlt := List.mem_range.mp hi
  have hpow : 256 ^ k = 256 ^ i * (256 * 256 ^ (k - i - 1)) := by
    rw [← pow_succ', ← pow_add]
    congr 1
    omega
  have hmod : n % 256 ^ k / 256 ^ i = n / 256 ^ i % (256 * 256 ^ (k - i - 1)) := by
    rw [hpow, Nat.mod_mul_right_div_self]
  rw [BitVec.toNat_ofNat, BitVec.toNat_ofNat, hmod]
  exact Nat.mod_mul_right_mod _ 256 _

/-! ### The steps -/

/-- The four registers. -/
@[ext] structure Registers where
  a : Word
  b : Word
  c : Word
  d : Word

/-- The function of a round. -/
def auxiliary : ℕ → Word → Word → Word → Word
  | 0, x, y, z => (x &&& y) ||| (~~~x &&& z)
  | 1, x, y, z => (x &&& z) ||| (y &&& ~~~z)
  | 2, x, y, z => x ^^^ y ^^^ z
  | _, x, y, z => y ^^^ (x ||| ~~~z)

/-- How far a step turns. -/
def shift (t : ℕ) : ℕ :=
  match t / 16 with
  | 0 => [7, 12, 17, 22].getD (t % 4) 0
  | 1 => [5, 9, 14, 20].getD (t % 4) 0
  | 2 => [4, 11, 16, 23].getD (t % 4) 0
  | _ => [6, 10, 15, 21].getD (t % 4) 0

/-- The word of the block that a step takes. -/
def place (t : ℕ) : ℕ :=
  match t / 16 with
  | 0 => t % 16
  | 1 => (5 * t + 1) % 16
  | 2 => (3 * t + 5) % 16
  | _ => 7 * t % 16

/-- The constant `i`: what is before the point of `2 ^ 32 * |sin i|`. -/
noncomputable def sineWord (i : ℕ) : Word := BitVec.ofNat 32 ⌊(2 : ℝ) ^ 32 * |Real.sin i|⌋₊

/-- Step `t` with a word and a constant. -/
def stepWith (t : ℕ) (x constant : Word) (q : Registers) : Registers where
  a := q.d
  b := q.b + (q.a + auxiliary (t / 16) q.b q.c q.d + x + constant).rotateLeft (shift t)
  c := q.b
  d := q.c

/-- Step `t` on a block. -/
noncomputable def step (block : List Byte) (q : Registers) (t : ℕ) : Registers :=
  stepWith t (blockWord block (place t)) (sineWord (t + 1)) q

/-- What a block does to the registers. -/
noncomputable def compress (q : Registers) (block : List Byte) : Registers :=
  let r := (List.range 64).foldl (step block) q
  ⟨q.a + r.a, q.b + r.b, q.c + r.c, q.d + r.d⟩

/-- The registers at first: the bytes `01` to `ef`, and back. -/
def initial : Registers := ⟨0x67452301, 0xefcdab89, 0x98badcfe, 0x10325476⟩

/-- The registers as bytes. -/
def Registers.bytes (q : Registers) : List Byte :=
  [q.a, q.b, q.c, q.d].flatMap fun w => littleEndian 4 w.toNat

/-- A message with a one bit, zeros and the number of its bits behind it. -/
def paddedMessage (msg : List Byte) : List Byte :=
  padded 64 0x80 0 (fun n => littleEndian 8 (8 * n)) msg

/-- **The digest of a message.** -/
noncomputable def md5 (msg : List Byte) : List Byte :=
  (absorb compress 64 initial (paddedMessage msg)).bytes

/-- A key, with zeros up to the size of a block, combined with a byte. -/
def blockKey (size : ℕ) (key : List Byte) (pad : Byte) : List Byte := (key.rightpad size 0).map (· ^^^ pad)

/-- **The keyed digest of a message**, over a digest with blocks of `size` bytes. -/
def hmac (hash : List Byte → List Byte) (size : ℕ) (key msg : List Byte) : List Byte :=
  let key := if size < key.length then hash key else key
  hash (blockKey size key 0x5c ++ hash (blockKey size key 0x36 ++ msg))

/-! ### Their values -/

/-- **A constant, by calculation** with a point near `exp i`. -/
theorem sineWord_eq {i : ℕ} {w : Word}
    (h : Sines.Enclosed 540302305868139717 841470984807896506 (10 ^ 18) (5 * 10 ^ 17) (2 ^ 32) i w.toNat) :
    sineWord i = w := by
  have hfloor := h.floor_eq Sines.near_exp
  rw [Nat.cast_pow, Nat.cast_ofNat] at hfloor
  rw [sineWord, hfloor, BitVec.ofNat_toNat, BitVec.setWidth_eq]

theorem length_bytes (q : Registers) : q.bytes.length = 16 := by
  simp [Registers.bytes]

@[simp] theorem length_md5 (msg : List Byte) : (md5 msg).length = 16 := length_bytes _

theorem length_blockKey {size : ℕ} {key : List Byte} (h : key.length ≤ size) (pad : Byte) :
    (blockKey size key pad).length = size := by
  rw [blockKey, List.length_map, List.length_rightpad, max_eq_left h]

example : sineWord 1 = 0xd76aa478 := sineWord_eq (by decide +kernel)

end MessageDigest
