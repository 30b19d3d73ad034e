import ReachEdukit.Lib.BlockHash
import ReachEdukit.Lib.Scan
import ReachEdukit.Md5.Transform

/-!
# The context of MD5

A context is fed piece by piece. It counts bits in two words, keeps the bytes that do not fill a
block in an array of 64, and finds the place in the array in the low word of the count. The low word
wraps around, and the carry into the high one is told from the sum being less than what was added.

`our_MD5Init` leaves the array as it is. Every copy is checked here against the array, and every block
against the piece that it is read from: the answer is `none` when one goes wrong.

## Main definitions

* `ourMD5Update`, `ourMD5Final` — the functions
* `digest` — the digest of a message, with the transformation of the source
* `Md5Ctx.Holds` — what a context has of a message

## Main results

* `Md5Ctx.Holds.update` — a piece is added to the message
* `ourMD5Final_eq` — the digest of what a context has
* `digest_eq` — it is MD5
* `digestOf_eq` — the digest of the pieces is the digest of the message, however it is cut
-/

namespace ReachEdukit

namespace Md5

open BlockHash MessageDigest Scan

/-- `MD5_CTX`. -/
structure Md5Ctx where
  state : State
  /-- The number of bits, the low word first. -/
  count : Word × Word
  buffer : Vector Byte 64

/-- The state of a new context. -/
def initState : State := ⟨0x67452301, 0xefcdab89, 0x98badcfe, 0x10325476⟩

/-- `our_MD5Init`. -/
def ourMD5Init (context : Md5Ctx) : Md5Ctx := { context with state := initState, count := (0, 0) }

/-- The place in the array: bytes mod 64. -/
def Md5Ctx.index (context : Md5Ctx) : Word := context.count.1 >>> 3 &&& 0x3f

/-- The number of bits behind a piece. -/
def Md5Ctx.countAfter (context : Md5Ctx) (inputLen : Word) : Word × Word :=
  let low := context.count.1 + inputLen <<< 3
  let high := if low < inputLen <<< 3 then context.count.2 + 1 else context.count.2
  (low, high + inputLen >>> 29)

/-- The loop of `ourMD5Update`: the state it ends in, and its `i`. -/
def transformFrom (input : List Byte) (inputLen : Word) : ℕ → State → Word → Option (State × Word)
  | 0, _, _ => none
  | fuel + 1, state, i =>
    if i + 63 < inputLen then
      if i.toNat + 64 ≤ input.length then
        transformFrom input inputLen fuel (md5Transform state ((input.drop i.toNat).take 64)) (i + 64)
      else none
    else some (state, i)

/-- `ourMD5Update`. Nothing is copied to the array when nothing is left. -/
def ourMD5Update (context : Md5Ctx) (input : List Byte) : Option Md5Ctx := do
  let inputLen := BitVec.ofNat 32 input.length
  let partLen := 64 - context.index
  let count := context.countAfter inputLen
  if partLen ≤ inputLen then
    let buffer ← writeAll context.buffer context.index.toNat (input.take partLen.toNat)
    let (state, i) ←
      transformFrom input inputLen input.length (md5Transform context.state buffer.toList) partLen
    let buffer ← writeAll buffer 0 ((input.drop i.toNat).take (inputLen - i).toNat)
    some ⟨state, count, buffer⟩
  else
    let buffer ← writeAll context.buffer context.index.toNat input
    some ⟨context.state, count, buffer⟩

/-- `PADDING`. -/
def padding : List Byte := 0x80 :: List.replicate 63 0

/-- `our_MD5Final`: the digest, and the context that is all zeros. -/
def ourMD5Final (context : Md5Ctx) : Option (List Byte × Md5Ctx) := do
  let bits := encode [context.count.1, context.count.2]
  let padLen := if context.index < 56 then 56 - context.index else 120 - context.index
  let context ← ourMD5Update context (padding.take padLen.toNat)
  let context ← ourMD5Update context bits
  some (encode context.state.words, ⟨⟨0, 0, 0, 0⟩, (0, 0), Vector.replicate 64 0⟩)

/-- A context that is initialised, fed with the pieces and finished. -/
def digestOf (context : Md5Ctx) (pieces : List (List Byte)) : Option (List Byte) := do
  let context ← pieces.foldlM ourMD5Update (ourMD5Init context)
  let (digest, _) ← ourMD5Final context
  some digest

/-! ### The digest of a message -/

/-- The number of bits of `n` bytes, modulo `2 ^ 64`. -/
def bitCount (n : ℕ) : Word × Word := (BitVec.ofNat 32 (8 * n), BitVec.ofNat 32 (8 * n / 2 ^ 32))

/-- The digest of a message, with the transformation of the source. -/
def digest (msg : List Byte) : List Byte :=
  encode (absorb md5Transform 64 initState (paddedMessage msg)).words

/-- What a context has of a message. -/
structure Md5Ctx.Holds (context : Md5Ctx) (msg : List Byte) : Prop where
  state : context.state = absorb md5Transform 64 initState msg
  count : context.count = bitCount msg.length
  buffer : context.buffer.toList.take (msg.length % 64) = rest 64 msg

variable {context : Md5Ctx} {msg input : List Byte} {n m : ℕ}

theorem holds_init (context : Md5Ctx) : (ourMD5Init context).Holds [] where
  state := rfl
  count := rfl
  buffer := rfl

/-! ### The count -/

/-- The place in the array is the number of bytes that wait. -/
theorem Md5Ctx.index_eq (h : context.count = bitCount n) : context.index.toNat = n % 64 := by
  have hmask : ((0x3f : Word)).toNat = 2 ^ 6 - 1 := rfl
  rw [Md5Ctx.index, h, bitCount, BitVec.toNat_and, BitVec.toNat_ushiftRight, BitVec.toNat_ofNat, hmask,
    Nat.and_two_pow_sub_one_eq_mod, Nat.shiftRight_eq_div_pow]
  omega

/-- **The carry is told from the sum.** -/
theorem Md5Ctx.countAfter_eq (h : context.count = bitCount n) (hm : m < 2 ^ 32) :
    context.countAfter (BitVec.ofNat 32 m) = bitCount (n + m) := by
  have hshift : (BitVec.ofNat 32 m <<< 3).toNat = 8 * m % 2 ^ 32 := by
    rw [BitVec.toNat_shiftLeft, BitVec.toNat_ofNat, Nat.shiftLeft_eq]
    omega
  have hlow : (BitVec.ofNat 32 (8 * n) + BitVec.ofNat 32 m <<< 3).toNat = 8 * (n + m) % 2 ^ 32 := by
    rw [BitVec.toNat_add, hshift, BitVec.toNat_ofNat]
    omega
  have hhigh : (BitVec.ofNat 32 m >>> 29).toNat = 8 * m / 2 ^ 32 := by
    rw [BitVec.toNat_ushiftRight, BitVec.toNat_ofNat, Nat.shiftRight_eq_div_pow]
    omega
  rw [Md5Ctx.countAfter, h, bitCount, bitCount]
  refine Prod.ext (BitVec.eq_of_toNat_eq ?_) (BitVec.eq_of_toNat_eq ?_)
  · rw [BitVec.toNat_ofNat]
    exact hlow
  · simp only [BitVec.lt_def, hlow, hshift, BitVec.toNat_ofNat, BitVec.toNat_add, hhigh]
    split_ifs with hcarry
    · have hone : (1 : Word).toNat = 1 := rfl
      rw [BitVec.toNat_add, BitVec.toNat_ofNat, hone]
      omega
    · rw [BitVec.toNat_ofNat]
      omega

/-! ### The blocks of a piece -/

/-- The length of a piece in a word. -/
theorem toNat_length (hlong : input.length ≤ 2 ^ 32 - 64) :
    (BitVec.ofNat 32 input.length).toNat = input.length := by
  rw [BitVec.toNat_ofNat]
  omega

/-- **The loop takes the whole blocks** from `i` on, and stops where less than one is left. -/
theorem transformFrom_eq (hlong : input.length ≤ 2 ^ 32 - 64) {fuel : ℕ} {i : Word} (state : State)
    (hi : i.toNat ≤ input.length) (hfuel : input.length < i.toNat + 64 * fuel) :
    ∃ j : Word, transformFrom input (BitVec.ofNat 32 input.length) fuel state i =
        some (absorb md5Transform 64 state (input.drop i.toNat), j) ∧
      j.toNat ≤ input.length ∧ input.drop j.toNat = rest 64 (input.drop i.toNat) := by
  have hlen : (BitVec.ofNat 32 input.length).toNat = input.length := toNat_length hlong
  induction fuel generalizing state i with
  | zero => omega
  | succ fuel ih =>
    have hdrop : (input.drop i.toNat).length = input.length - i.toNat := List.length_drop
    have hnext : (i + 63).toNat = i.toNat + 63 := by
      have hconst : (63 : Word).toNat = 63 := rfl
      rw [BitVec.toNat_add, hconst]
      omega
    rw [transformFrom]
    by_cases hmore : i + 63 < BitVec.ofNat 32 input.length
    · have hroom : i.toNat + 64 ≤ input.length := by
        rw [BitVec.lt_def, hnext, hlen] at hmore
        omega
      have hstep : (i + 64).toNat = i.toNat + 64 := by
        have hconst : (64 : Word).toNat = 64 := rfl
        rw [BitVec.toNat_add, hconst]
        omega
      have hblock : ((input.drop i.toNat).take 64).length = 64 := by
        rw [List.length_take, hdrop]
        omega
      have hcut : input.drop i.toNat = (input.drop i.toNat).take 64 ++ input.drop (i.toNat + 64) := by
        rw [← List.drop_drop, List.take_append_drop]
      rw [if_pos hmore, if_pos hroom]
      obtain ⟨j, hj, hle, hrest⟩ := ih (md5Transform state ((input.drop i.toNat).take 64))
        (hstep.trans_le hroom) (by omega)
      rw [hstep] at hj hrest
      refine ⟨j, ?_, hle, ?_⟩
      · rw [hj, ← absorb_cut (by decide) hblock, ← hcut]
      · rw [hrest, hcut, rest_cut (by decide) hblock]
    · have hshort : (input.drop i.toNat).length < 64 := by
        rw [BitVec.lt_def, hnext, hlen] at hmore
        omega
      rw [if_neg hmore]
      exact ⟨i, by rw [absorb_of_lt hshort], hi, (rest_of_lt hshort).symm⟩

/-! ### The message -/

/-- The gap in the array. -/
theorem Md5Ctx.Holds.toNat_partLen (h : context.Holds msg) :
    (64 - context.index).toNat = 64 - msg.length % 64 := by
  have hconst : (64 : Word).toNat = 64 := rfl
  have hindex := Md5Ctx.index_eq h.count
  rw [BitVec.toNat_sub, hconst, hindex]
  omega

/-- A piece that fits the gap is copied there. -/
theorem Md5Ctx.Holds.update_short (h : context.Holds msg) (hlong : input.length ≤ 2 ^ 32 - 64)
    (hshort : ¬ 64 - context.index ≤ BitVec.ofNat 32 input.length) :
    ∃ context', ourMD5Update context input = some context' ∧ context'.Holds (msg ++ input) := by
  have hindex : context.index.toNat = msg.length % 64 := index_eq h.count
  have hroom : msg.length % 64 + input.length < 64 := by
    rw [BitVec.le_def, h.toNat_partLen, toNat_length hlong] at hshort
    omega
  have hrest : (rest 64 msg ++ input).length < 64 := by
    rwa [List.length_append, length_rest]
  have hmod : (msg ++ input).length % 64 = msg.length % 64 + input.length := by
    rw [List.length_append]
    omega
  obtain ⟨buffer, hbuffer⟩ : ∃ buffer, writeAll context.buffer context.index.toNat input = some buffer := by
    refine Option.isSome_iff_exists.mp ((writeAll_isSome_iff (by omega)).mpr ?_)
    omega
  have htake := take_writeAll_add hbuffer
  have hupdate : ourMD5Update context input =
      some ⟨context.state, context.countAfter (BitVec.ofNat 32 input.length), buffer⟩ := by
    rw [ourMD5Update, if_neg hshort, hbuffer]
    rfl
  refine ⟨_, hupdate, ?_, ?_, ?_⟩
  · rw [absorb_append (by decide), absorb_of_lt hrest, h.state]
  · rw [countAfter_eq h.count (by omega), List.length_append]
  · rw [rest_append (by decide), rest_of_lt hrest, hmod, ← hindex, htake, hindex, h.buffer]

/-- A longer piece fills the array, then its whole blocks are taken, and what is left is copied. -/
theorem Md5Ctx.Holds.update_long (h : context.Holds msg) (hlong : input.length ≤ 2 ^ 32 - 64)
    (hfull : 64 - context.index ≤ BitVec.ofNat 32 input.length) :
    ∃ context', ourMD5Update context input = some context' ∧ context'.Holds (msg ++ input) := by
  have hindex : context.index.toNat = msg.length % 64 := index_eq h.count
  have hpart := h.toNat_partLen
  have hlen := toNat_length hlong
  have hwait : (rest 64 msg).length = msg.length % 64 := length_rest 64 msg
  have hroom : 64 - msg.length % 64 ≤ input.length := by
    rwa [BitVec.le_def, hpart, hlen] at hfull
  have hcopied : context.index.toNat + (input.take (64 - context.index).toNat).length = 64 := by
    rw [List.length_take, hpart, hindex]
    omega
  obtain ⟨buffer, hbuffer⟩ : ∃ buffer, writeAll context.buffer context.index.toNat
      (input.take (64 - context.index).toNat) = some buffer :=
    Option.isSome_iff_exists.mp ((writeAll_isSome_iff (by omega)).mpr hcopied.le)
  have hfirst : buffer.toList = rest 64 msg ++ input.take (64 - msg.length % 64) := by
    have htake := take_writeAll_add hbuffer
    rwa [hcopied, List.take_of_length_le (Vector.length_toList ..).le, hindex, h.buffer, hpart] at htake
  have hblock : (rest 64 msg ++ input.take (64 - msg.length % 64)).length = 64 := by
    rw [List.length_append, hwait, List.length_take]
    omega
  have hcut : rest 64 msg ++ input =
      (rest 64 msg ++ input.take (64 - msg.length % 64)) ++ input.drop (64 - msg.length % 64) := by
    rw [List.append_assoc, List.take_append_drop]
  obtain ⟨i, hloop, hi, hrest⟩ := transformFrom_eq hlong (md5Transform context.state buffer.toList)
    (hpart.trans_le hroom) (show input.length < _ + 64 * input.length by omega)
  rw [hpart] at hloop hrest
  have hleft : (input.drop i.toNat).take (BitVec.ofNat 32 input.length - i).toNat =
      rest 64 (input.drop (64 - msg.length % 64)) := by
    rw [← hrest, BitVec.toNat_sub_of_le (by rwa [BitVec.le_def, hlen]), hlen,
      List.take_of_length_le List.length_drop.le]
  obtain ⟨buffer', hbuffer'⟩ : ∃ buffer', writeAll buffer 0
      ((input.drop i.toNat).take (BitVec.ofNat 32 input.length - i).toNat) = some buffer' := by
    refine Option.isSome_iff_exists.mp ((writeAll_isSome_iff (Nat.zero_le _)).mpr ?_)
    rw [hleft, Nat.zero_add]
    exact (length_rest_lt (by decide) _).le
  have hupdate : ourMD5Update context input =
      some ⟨absorb md5Transform 64 (md5Transform context.state buffer.toList)
        (input.drop (64 - msg.length % 64)), context.countAfter (BitVec.ofNat 32 input.length), buffer'⟩ := by
    rw [ourMD5Update, if_pos hfull, hbuffer, Option.bind_eq_bind, Option.bind_some, hloop,
      Option.bind_eq_bind, Option.bind_some]
    exact congrArg (Option.bind · _) hbuffer'
  refine ⟨_, hupdate, ?_, ?_, ?_⟩
  · rw [absorb_append (by decide), hcut, absorb_cut (by decide) hblock, hfirst, h.state]
  · rw [countAfter_eq h.count (by omega), List.length_append]
  · have htake := take_writeAll hbuffer'
    have hall : rest 64 (msg ++ input) = rest 64 (input.drop (64 - msg.length % 64)) := by
      rw [rest_append (by decide), hcut, rest_cut (by decide) hblock]
    rwa [hleft, ← hall, length_rest] at htake

/-- **A piece is added to the message.** -/
theorem Md5Ctx.Holds.update (h : context.Holds msg) (hlong : input.length ≤ 2 ^ 32 - 64) :
    ∃ context', ourMD5Update context input = some context' ∧ context'.Holds (msg ++ input) := by
  by_cases hfull : 64 - context.index ≤ BitVec.ofNat 32 input.length
  · exact h.update_long hlong hfull
  · exact h.update_short hlong hfull

/-- The pieces, one behind the other. -/
theorem Md5Ctx.Holds.updates {pieces : List (List Byte)} (h : context.Holds msg)
    (hlong : ∀ piece ∈ pieces, piece.length ≤ 2 ^ 32 - 64) :
    ∃ context', pieces.foldlM ourMD5Update context = some context' ∧
      context'.Holds (msg ++ pieces.flatten) := by
  induction pieces generalizing context msg with
  | nil => exact ⟨context, rfl, by rwa [List.flatten_nil, List.append_nil]⟩
  | cons piece pieces ih =>
    obtain ⟨hpiece, hpieces⟩ := List.forall_mem_cons.mp hlong
    obtain ⟨next, hnext, hholds⟩ := h.update hpiece
    obtain ⟨last, hlast, hall⟩ := ih hholds hpieces
    refine ⟨last, ?_, ?_⟩
    · rw [List.foldlM_cons, hnext]
      exact hlast
    · rwa [List.flatten_cons, ← List.append_assoc]

/-! ### The padding -/

/-- The two words of the count are the eight bytes of the number of bits. -/
theorem encode_bitCount (n : ℕ) :
    encode [(bitCount n).1, (bitCount n).2] = littleEndian 8 (8 * n) := by
  have hlow : wordBytes (bitCount n).1 = littleEndian 4 (8 * n) := by
    rw [wordBytes_eq, bitCount, BitVec.toNat_ofNat]
    exact littleEndian_mod 4 (8 * n)
  have hhigh : wordBytes (bitCount n).2 = littleEndian 4 (8 * n / 2 ^ 32) := by
    rw [wordBytes_eq, bitCount, BitVec.toNat_ofNat]
    exact littleEndian_mod 4 _
  rw [encode, List.flatMap_cons, List.flatMap_singleton, hlow, hhigh]
  exact (littleEndian_add 4 4 (8 * n)).symm

/-- What `our_MD5Final` adds is the padding. -/
theorem padding_eq (msg : List Byte) (h : context.count = bitCount msg.length) :
    padding.take (if context.index < 56 then 56 - context.index else 120 - context.index).toNat ++
        encode [context.count.1, context.count.2] =
      0x80 :: List.replicate (zeros 64 8 msg.length) 0 ++ littleEndian 8 (8 * msg.length) := by
  have hindex : context.index.toNat = msg.length % 64 := Md5Ctx.index_eq h
  have h56 : (56 : Word).toNat = 56 := rfl
  have h120 : (120 : Word).toNat = 120 := rfl
  have hpad : (if context.index < 56 then 56 - context.index else 120 - context.index).toNat =
      zeros 64 8 msg.length + 1 := by
    rw [zeros]
    split_ifs with hlow
    · rw [BitVec.lt_def, hindex, h56] at hlow
      rw [BitVec.toNat_sub, h56, hindex]
      omega
    · rw [BitVec.lt_def, hindex, h56] at hlow
      rw [BitVec.toNat_sub, h120, hindex]
      omega
  have hzeros : zeros 64 8 msg.length ≤ 63 := Nat.le_of_lt_succ (Nat.mod_lt _ (by decide))
  rw [hpad, padding, List.take_succ_cons, List.take_replicate, min_eq_left hzeros, h, encode_bitCount]

/-- **The digest of what a context has.** -/
theorem ourMD5Final_eq (h : context.Holds msg) :
    ∃ context', ourMD5Final context = some (digest msg, context') := by
  have hpadding := padding_eq msg h.count
  set tail := padding.take (if context.index < 56 then 56 - context.index else 120 - context.index).toNat
    with htail
  have hshort : tail.length ≤ 64 := (List.length_take_le' _ _).trans (by decide)
  obtain ⟨padded₁, hfirst, hholds₁⟩ := h.update (hshort.trans (by decide))
  have hbits : (encode [context.count.1, context.count.2]).length ≤ 2 ^ 32 - 64 :=
    (length_encode _).trans_le (Nat.le_of_ble_eq_true rfl)
  obtain ⟨padded₂, hsecond, hholds₂⟩ := hholds₁.update hbits
  have hmessage : msg ++ tail ++ encode [context.count.1, context.count.2] = paddedMessage msg := by
    rw [List.append_assoc, hpadding, paddedMessage, padded, length_littleEndian]
  refine ⟨⟨⟨0, 0, 0, 0⟩, (0, 0), Vector.replicate 64 0⟩, ?_⟩
  rw [ourMD5Final, ← htail, hfirst, Option.bind_eq_bind, Option.bind_some, hsecond, Option.bind_some,
    hholds₂.state, hmessage, digest]

/-- **The digest is that of the standard.** -/
theorem digest_eq (msg : List Byte) : digest msg = md5 msg := by
  have hstate := absorb_congr (fun s block h => registers_md5Transform s h) initState (paddedMessage msg)
  have hwords : ∀ state : State, encode state.words = state.registers.bytes := by
    intro state
    rw [encode, Registers.bytes, ← funext wordBytes_eq]
    rfl
  rw [digest, hwords, hstate]
  rfl

/-- **The digest of the pieces is the digest of the message**, however it is cut. -/
theorem digestOf_eq (context : Md5Ctx) {pieces : List (List Byte)}
    (hlong : ∀ piece ∈ pieces, piece.length ≤ 2 ^ 32 - 64) :
    digestOf context pieces = some (md5 pieces.flatten) := by
  obtain ⟨fed, hfed, hholds⟩ := (holds_init context).updates hlong
  obtain ⟨done, hdone⟩ := ourMD5Final_eq hholds
  rw [digestOf, hfed, Option.bind_eq_bind, Option.bind_some, hdone, digest_eq]
  rfl

example : digest [0x61, 0x62, 0x63] = [0x90, 0x01, 0x50, 0x98, 0x3c, 0xd2, 0x4f, 0xb0, 0xd6, 0x96, 0x3f,
    0x7d, 0x28, 0xe1, 0x7f, 0x72] := by
  decide +kernel

end Md5

end ReachEdukit
