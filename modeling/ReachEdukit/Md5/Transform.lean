import ReachEdukit.Lib.MessageDigest

/-!
# The transformation of MD5

`our_md5.c` and `md5lib.c` have the same digest, each with its own copy. `MD5Transform` takes four
words through a block of 64 bytes, in four rounds of sixteen steps that are all written out; a step
is a row here. The standard has one step for all of them: its registers change places, where the source
turns the names of its variables.

## Main definitions

* `encode`, `decode` — words as bytes, the low byte first
* `md5Transform` — the transformation

## Main results

* `steps_schedule`, `steps_constants` — the rows follow the schedule of the standard, and their constants
  are the sines
* `registers_md5Transform` — the transformation is that of the standard
-/

namespace ReachEdukit

namespace Md5

open MessageDigest

/-! ### Words and bytes -/

/-- One turn of `Encode`. -/
def wordBytes (w : Word) : List Byte :=
  [(w &&& 0xff).setWidth 8, (w >>> 8 &&& 0xff).setWidth 8, (w >>> 16 &&& 0xff).setWidth 8,
    (w >>> 24 &&& 0xff).setWidth 8]

/-- `Encode`. -/
def encode (input : List Word) : List Byte := input.flatMap wordBytes

/-- `Decode`. -/
def decode : List Byte → List Word
  | b₀ :: b₁ :: b₂ :: b₃ :: input =>
    (b₀.setWidth 32 ||| b₁.setWidth 32 <<< 8 ||| b₂.setWidth 32 <<< 16 |||
      b₃.setWidth 32 <<< 24) :: decode input
  | _ => []

@[simp] theorem length_encode (input : List Word) : (encode input).length = 4 * input.length := by
  induction input with
  | nil => rfl
  | cons w input ih =>
    have hword : (wordBytes w).length = 4 := rfl
    rw [encode, List.flatMap_cons, List.length_append, ← encode, ih, hword, List.length_cons]
    omega

/-! ### The steps -/

/-- A step of each round. -/
inductive Macro
  | ff
  | gg
  | hh
  | ii
  deriving DecidableEq, Repr

/-- `F`, `G`, `H` and `I`. -/
def Macro.basic : Macro → Word → Word → Word → Word
  | .ff, x, y, z => (x &&& y) ||| (~~~x &&& z)
  | .gg, x, y, z => (x &&& z) ||| (y &&& ~~~z)
  | .hh, x, y, z => x ^^^ y ^^^ z
  | .ii, x, y, z => y ^^^ (x ||| ~~~z)

/-- `ROTATE_LEFT`. -/
def rotateLeft (x : Word) (n : ℕ) : Word := x <<< n ||| x >>> (32 - n)

/-- The four variables of `MD5Transform`. -/
inductive Reg
  | a
  | b
  | c
  | d
  deriving DecidableEq, Repr

/-- `state` of `MD5_CTX`, and the four variables. -/
structure State where
  a : Word
  b : Word
  c : Word
  d : Word
  deriving DecidableEq, Repr

/-- The words in their order. -/
def State.words (s : State) : List Word := [s.a, s.b, s.c, s.d]

/-- A variable. -/
def State.get (s : State) : Reg → Word
  | .a => s.a
  | .b => s.b
  | .c => s.c
  | .d => s.d

/-- An assignment. -/
def State.set (s : State) (r : Reg) (w : Word) : State :=
  match r with
  | .a => { s with a := w }
  | .b => { s with b := w }
  | .c => { s with c := w }
  | .d => { s with d := w }

/-- `FF (a, b, c, d, x[k], s, ac)`, or one of the three others. -/
structure Step where
  /-- Which. -/
  op : Macro
  a : Reg
  b : Reg
  c : Reg
  d : Reg
  /-- The word of the block. -/
  k : ℕ
  /-- The shift. -/
  s : ℕ
  /-- The constant. -/
  ac : Word
  deriving DecidableEq, Repr

/-- What `FF` and the others do. -/
def Step.run (x : ℕ → Word) (v : State) (t : Step) : State :=
  v.set t.a
    (rotateLeft (v.get t.a + t.op.basic (v.get t.b) (v.get t.c) (v.get t.d) + x t.k + t.ac) t.s +
      v.get t.b)

/-- Round 1. -/
def round1 : List Step :=
  [
    ⟨.ff, .a, .b, .c, .d, 0, 7, 0xd76aa478⟩, ⟨.ff, .d, .a, .b, .c, 1, 12, 0xe8c7b756⟩,
    ⟨.ff, .c, .d, .a, .b, 2, 17, 0x242070db⟩, ⟨.ff, .b, .c, .d, .a, 3, 22, 0xc1bdceee⟩,
    ⟨.ff, .a, .b, .c, .d, 4, 7, 0xf57c0faf⟩, ⟨.ff, .d, .a, .b, .c, 5, 12, 0x4787c62a⟩,
    ⟨.ff, .c, .d, .a, .b, 6, 17, 0xa8304613⟩, ⟨.ff, .b, .c, .d, .a, 7, 22, 0xfd469501⟩,
    ⟨.ff, .a, .b, .c, .d, 8, 7, 0x698098d8⟩, ⟨.ff, .d, .a, .b, .c, 9, 12, 0x8b44f7af⟩,
    ⟨.ff, .c, .d, .a, .b, 10, 17, 0xffff5bb1⟩, ⟨.ff, .b, .c, .d, .a, 11, 22, 0x895cd7be⟩,
    ⟨.ff, .a, .b, .c, .d, 12, 7, 0x6b901122⟩, ⟨.ff, .d, .a, .b, .c, 13, 12, 0xfd987193⟩,
    ⟨.ff, .c, .d, .a, .b, 14, 17, 0xa679438e⟩, ⟨.ff, .b, .c, .d, .a, 15, 22, 0x49b40821⟩]

/-- Round 2. -/
def round2 : List Step :=
  [
    ⟨.gg, .a, .b, .c, .d, 1, 5, 0xf61e2562⟩, ⟨.gg, .d, .a, .b, .c, 6, 9, 0xc040b340⟩,
    ⟨.gg, .c, .d, .a, .b, 11, 14, 0x265e5a51⟩, ⟨.gg, .b, .c, .d, .a, 0, 20, 0xe9b6c7aa⟩,
    ⟨.gg, .a, .b, .c, .d, 5, 5, 0xd62f105d⟩, ⟨.gg, .d, .a, .b, .c, 10, 9, 0x2441453⟩,
    ⟨.gg, .c, .d, .a, .b, 15, 14, 0xd8a1e681⟩, ⟨.gg, .b, .c, .d, .a, 4, 20, 0xe7d3fbc8⟩,
    ⟨.gg, .a, .b, .c, .d, 9, 5, 0x21e1cde6⟩, ⟨.gg, .d, .a, .b, .c, 14, 9, 0xc33707d6⟩,
    ⟨.gg, .c, .d, .a, .b, 3, 14, 0xf4d50d87⟩, ⟨.gg, .b, .c, .d, .a, 8, 20, 0x455a14ed⟩,
    ⟨.gg, .a, .b, .c, .d, 13, 5, 0xa9e3e905⟩, ⟨.gg, .d, .a, .b, .c, 2, 9, 0xfcefa3f8⟩,
    ⟨.gg, .c, .d, .a, .b, 7, 14, 0x676f02d9⟩, ⟨.gg, .b, .c, .d, .a, 12, 20, 0x8d2a4c8a⟩]

/-- Round 3. -/
def round3 : List Step :=
  [
    ⟨.hh, .a, .b, .c, .d, 5, 4, 0xfffa3942⟩, ⟨.hh, .d, .a, .b, .c, 8, 11, 0x8771f681⟩,
    ⟨.hh, .c, .d, .a, .b, 11, 16, 0x6d9d6122⟩, ⟨.hh, .b, .c, .d, .a, 14, 23, 0xfde5380c⟩,
    ⟨.hh, .a, .b, .c, .d, 1, 4, 0xa4beea44⟩, ⟨.hh, .d, .a, .b, .c, 4, 11, 0x4bdecfa9⟩,
    ⟨.hh, .c, .d, .a, .b, 7, 16, 0xf6bb4b60⟩, ⟨.hh, .b, .c, .d, .a, 10, 23, 0xbebfbc70⟩,
    ⟨.hh, .a, .b, .c, .d, 13, 4, 0x289b7ec6⟩, ⟨.hh, .d, .a, .b, .c, 0, 11, 0xeaa127fa⟩,
    ⟨.hh, .c, .d, .a, .b, 3, 16, 0xd4ef3085⟩, ⟨.hh, .b, .c, .d, .a, 6, 23, 0x4881d05⟩,
    ⟨.hh, .a, .b, .c, .d, 9, 4, 0xd9d4d039⟩, ⟨.hh, .d, .a, .b, .c, 12, 11, 0xe6db99e5⟩,
    ⟨.hh, .c, .d, .a, .b, 15, 16, 0x1fa27cf8⟩, ⟨.hh, .b, .c, .d, .a, 2, 23, 0xc4ac5665⟩]

/-- Round 4. -/
def round4 : List Step :=
  [
    ⟨.ii, .a, .b, .c, .d, 0, 6, 0xf4292244⟩, ⟨.ii, .d, .a, .b, .c, 7, 10, 0x432aff97⟩,
    ⟨.ii, .c, .d, .a, .b, 14, 15, 0xab9423a7⟩, ⟨.ii, .b, .c, .d, .a, 5, 21, 0xfc93a039⟩,
    ⟨.ii, .a, .b, .c, .d, 12, 6, 0x655b59c3⟩, ⟨.ii, .d, .a, .b, .c, 3, 10, 0x8f0ccc92⟩,
    ⟨.ii, .c, .d, .a, .b, 10, 15, 0xffeff47d⟩, ⟨.ii, .b, .c, .d, .a, 1, 21, 0x85845dd1⟩,
    ⟨.ii, .a, .b, .c, .d, 8, 6, 0x6fa87e4f⟩, ⟨.ii, .d, .a, .b, .c, 15, 10, 0xfe2ce6e0⟩,
    ⟨.ii, .c, .d, .a, .b, 6, 15, 0xa3014314⟩, ⟨.ii, .b, .c, .d, .a, 13, 21, 0x4e0811a1⟩,
    ⟨.ii, .a, .b, .c, .d, 4, 6, 0xf7537e82⟩, ⟨.ii, .d, .a, .b, .c, 11, 10, 0xbd3af235⟩,
    ⟨.ii, .c, .d, .a, .b, 2, 15, 0x2ad7d2bb⟩, ⟨.ii, .b, .c, .d, .a, 9, 21, 0xeb86d391⟩]

/-- The steps of `MD5Transform`. -/
def steps : List Step := round1 ++ round2 ++ round3 ++ round4

/-- `MD5Transform`. -/
def md5Transform (state : State) (block : List Byte) : State :=
  let x := decode block
  let v := steps.foldl (Step.run fun k => (x[k]?).getD 0) state
  ⟨state.a + v.a, state.b + v.b, state.c + v.c, state.d + v.d⟩

/-! ### The schedule -/

/-- What a step is without its constant. -/
def Step.schedule (t : Step) : Macro × List Reg × ℕ × ℕ := (t.op, [t.a, t.b, t.c, t.d], t.k, t.s)

/-- The step of a round. -/
def Macro.ofRound : ℕ → Macro
  | 0 => .ff
  | 1 => .gg
  | 2 => .hh
  | _ => .ii

/-- Step `t` by its number. -/
def scheduleAt (t : ℕ) : Macro × List Reg × ℕ × ℕ :=
  (.ofRound (t / 16), [Reg.a, .b, .c, .d].rotateRight (t % 4), place t, shift t)

/-- **The rows follow the schedule** of the standard. -/
theorem steps_schedule : steps.map Step.schedule = (List.range 64).map scheduleAt := by
  decide

/-- **The constants are the sines.** -/
theorem steps_constants : ∀ t (h : t < steps.length), (steps.get ⟨t, h⟩).ac = sineWord (t + 1) := by
  have hsines : ∀ t (h : t < steps.length), Sines.Enclosed 540302305868139717 841470984807896506 (10 ^ 18)
      (5 * 10 ^ 17) (2 ^ 32) (t + 1) (steps.get ⟨t, h⟩).ac.toNat := by
    decide +kernel
  intro t h
  exact (sineWord_eq (hsines t h)).symm

/-! ### The standard -/

/-- The variables as registers. -/
def State.registers (v : State) : Registers := ⟨v.a, v.b, v.c, v.d⟩

/-- The variables in the places that the registers have before step `t`. -/
def State.turned (v : State) (t : ℕ) : Registers :=
  match t % 4 with
  | 0 => ⟨v.a, v.b, v.c, v.d⟩
  | 1 => ⟨v.d, v.a, v.b, v.c⟩
  | 2 => ⟨v.c, v.d, v.a, v.b⟩
  | _ => ⟨v.b, v.c, v.d, v.a⟩

theorem basic_ofRound (r : ℕ) : (Macro.ofRound r).basic = auxiliary r := by
  match r with
  | 0 | 1 | 2 | _ + 3 => rfl

/-- `ROTATE_LEFT`. -/
theorem rotateLeft_eq (x : Word) {n : ℕ} (h : n < 32) : rotateLeft x n = x.rotateLeft n := by
  rw [rotateLeft, BitVec.rotateLeft_eq_rotateLeftAux_of_lt h]
  rfl

theorem shift_lt (t : ℕ) : shift t < 32 := by
  have hrow : ∀ l ∈ [[7, 12, 17, 22], [5, 9, 14, 20], [4, 11, 16, 23], [6, 10, 15, 21]],
      ∀ i < 4, List.getD l i 0 < 32 := by
    decide
  have hturn := Nat.mod_lt t (show 4 > 0 by decide)
  rw [shift]
  split <;> exact hrow _ (by decide) _ hturn

/-- **A step on the variables is a step on the registers**, which change places. -/
theorem turned_run {s : Step} {t : ℕ} (h : s.schedule = scheduleAt t) (x : ℕ → Word) (v : State) :
    (s.run x v).turned (t + 1) = stepWith t (x (place t)) s.ac (v.turned t) := by
  obtain ⟨op, ra, rb, rc, rd, k, n, ac⟩ := s
  obtain ⟨rfl, hregs, rfl, rfl⟩ : op = .ofRound (t / 16) ∧
      [ra, rb, rc, rd] = [Reg.a, .b, .c, .d].rotateRight (t % 4) ∧ k = place t ∧ n = shift t := by
    simpa [Step.schedule, scheduleAt] using h
  have hturn := Nat.mod_lt t (show 4 > 0 by decide)
  have hnext : (t + 1) % 4 = (t % 4 + 1) % 4 := by omega
  rw [Step.run, rotateLeft_eq _ (shift_lt t), basic_ofRound, BitVec.add_comm _ (v.get rb)]
  simp only [State.turned, hnext]
  generalize t % 4 = i at hregs hturn ⊢
  match i, hturn with
  | 0, _ | 1, _ | 2, _ | 3, _ =>
    cases hregs
    rfl

/-- The first `n` rows. -/
theorem turned_foldl (x : ℕ → Word) (v : State) {n : ℕ} (hn : n ≤ 64) :
    ((steps.take n).foldl (Step.run x) v).turned n =
      (List.range n).foldl (fun q t => stepWith t (x (place t)) (sineWord (t + 1)) q) v.registers := by
  induction n with
  | zero => rfl
  | succ n ih =>
    have hlt : n < steps.length := hn
    have hrow : (steps.get ⟨n, hlt⟩).schedule = scheduleAt n := by
      have hcell := congrArg (·[n]?) steps_schedule
      simpa [hlt, show n < 64 from hn] using hcell
    rw [List.range_succ, List.foldl_append, List.foldl_cons, List.foldl_nil, ← ih (by omega),
      List.take_succ_eq_append_getElem hlt, List.foldl_append, List.foldl_cons, List.foldl_nil]
    exact (turned_run hrow x _).trans (congrArg (stepWith _ _ · _) (steps_constants n hlt))

/-! ### The words of a block -/

/-- `Decode` of four bytes. -/
theorem decode_word (b₀ b₁ b₂ b₃ : Byte) :
    (b₀.setWidth 32 ||| b₁.setWidth 32 <<< 8 ||| b₂.setWidth 32 <<< 16 ||| b₃.setWidth 32 <<< 24 : Word) =
      BitVec.ofNat 32 (ofLittleEndian [b₀, b₁, b₂, b₃]) := by
  have h₀ := b₀.isLt
  have h₁ := b₁.isLt
  have h₂ := b₂.isLt
  have h₃ := b₃.isLt
  have hor : ∀ (w y : Word) (n : ℕ), w.toNat < 2 ^ n → y.toNat * 2 ^ n < 2 ^ 32 →
      (w ||| y <<< n).toNat = w.toNat + y.toNat * 2 ^ n := by
    intro w y n hw hy
    rw [BitVec.toNat_or, BitVec.toNat_shiftLeft, Nat.shiftLeft_eq, Nat.mod_eq_of_lt hy, Nat.or_comm,
      ← Nat.shiftLeft_eq, ← Nat.shiftLeft_add_eq_or_of_lt hw, Nat.add_comm]
  have hbyte : ∀ b : Byte, (b.setWidth 32).toNat = b.toNat := by
    intro b
    rw [BitVec.toNat_setWidth, Nat.mod_eq_of_lt (b.isLt.trans (by decide))]
  -- each byte comes above those that are there
  have h₀₁ := hor (b₀.setWidth 32) (b₁.setWidth 32) 8 (by rwa [hbyte]) (by rw [hbyte]; omega)
  have h₀₂ := hor _ (b₂.setWidth 32) 16 (by rw [h₀₁, hbyte, hbyte]; omega) (by rw [hbyte]; omega)
  have h₀₃ := hor _ (b₃.setWidth 32) 24 (by rw [h₀₂, h₀₁, hbyte, hbyte, hbyte]; omega) (by rw [hbyte]; omega)
  apply BitVec.eq_of_toNat_eq
  rw [h₀₃, h₀₂, h₀₁, hbyte, hbyte, hbyte, hbyte, BitVec.toNat_ofNat]
  simp only [ofLittleEndian]
  omega

/-- **`Decode` takes the words of the block.** -/
theorem decode_get {block : List Byte} {k : ℕ} (h : 4 * k + 4 ≤ block.length) :
    ((decode block)[k]?).getD 0 = blockWord block k := by
  induction k generalizing block with
  | zero =>
    match block, h with
    | b₀ :: b₁ :: b₂ :: b₃ :: block, _ => exact decode_word b₀ b₁ b₂ b₃
  | succ k ih =>
    match block, h with
    | b₀ :: b₁ :: b₂ :: b₃ :: block, h =>
      rw [decode, List.getElem?_cons_succ, ih (by simp only [List.length_cons] at h; omega), blockWord,
        blockWord, Nat.mul_succ]
      rfl

/-- `Encode` of a word. -/
theorem wordBytes_eq (w : Word) : wordBytes w = littleEndian 4 w.toNat := by
  have hbyte : ∀ n, (w >>> n &&& 0xff).setWidth 8 = BitVec.ofNat 8 (w.toNat / 2 ^ n) := by
    intro n
    apply BitVec.eq_of_toNat_eq
    have hmask : ((0xff : Word)).toNat = 2 ^ 8 - 1 := rfl
    rw [BitVec.toNat_setWidth, BitVec.toNat_and, BitVec.toNat_ushiftRight, hmask,
      Nat.and_two_pow_sub_one_eq_mod, Nat.shiftRight_eq_div_pow, BitVec.toNat_ofNat, Nat.mod_mod]
  have hlow : (w &&& 0xff).setWidth 8 = BitVec.ofNat 8 (w.toNat / 2 ^ 0) := hbyte 0
  rw [wordBytes, hlow, hbyte, hbyte, hbyte]
  rfl

theorem place_lt (t : ℕ) : place t < 16 := by
  rw [place]
  split <;> exact Nat.mod_lt _ (by decide)

/-- **`MD5Transform` is what the standard does with a block.** -/
theorem registers_md5Transform (state : State) {block : List Byte} (h : block.length = 64) :
    (md5Transform state block).registers = compress state.registers block := by
  have hfold := turned_foldl (fun k => ((decode block)[k]?).getD 0) state le_rfl
  have hall : steps.take 64 = steps := rfl
  have hwords : ∀ (q : Registers), ∀ t ∈ List.range 64,
      stepWith t (((decode block)[place t]?).getD 0) (sineWord (t + 1)) q = step block q t := by
    intro q t _
    have hplace := place_lt t
    rw [decode_get (by omega), step]
  rw [hall, List.foldl_ext _ _ _ hwords] at hfold
  have hsum : ∀ v : State, State.registers ⟨state.a + v.a, state.b + v.b, state.c + v.c, state.d + v.d⟩ =
      ⟨state.registers.a + (v.turned 64).a, state.registers.b + (v.turned 64).b,
        state.registers.c + (v.turned 64).c, state.registers.d + (v.turned 64).d⟩ := fun _ => rfl
  rw [compress, ← hfold]
  exact hsum _

end Md5

end ReachEdukit
