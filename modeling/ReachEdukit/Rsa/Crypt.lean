import Mathlib

/-!
# Texts under a key

The licences go under a key of `RSA_size` bytes. The library takes a piece of at most `RSA_size - 11`
bytes and makes a block of `RSA_size` bytes of it; `rsa_encrypt` and `rsa_decrypt` cut a longer text
into pieces. They are given a buffer for the result and check beforehand that it is long enough, but
the check of `rsa_encrypt` has the two sizes the wrong way round.

The check multiplies lengths as `int`s, so it says nothing about buffers of many megabytes: `Small`
bounds the two products.

The library is a parameter. `Openssl.Pair` says what its documentation says of two keys that belong
together.

## Main definitions

* `Openssl` — what is called of the library
* `rsaEncrypt`, `rsaDecrypt` — a text under a key, and back

## Main results

* `rsaEncrypt_pair` — when a text goes into the buffer, and what it comes to
* `decrypt_encrypt_iff` — the way there and back
-/

namespace ReachEdukit

namespace Rsa

/-- A byte. -/
abbrev Byte := BitVec 8

/-- What is called of the library. The flag tells the public key from the private one; a key is given
as it is stored. -/
structure Openssl where
  /-- `RSA_size`, if the key can be read. -/
  rsaSize : Bool → List Byte → Option ℕ
  /-- `RSA_public_encrypt`, `RSA_private_encrypt`. The padding differs from call to call. -/
  encrypt : Bool → List Byte → ℕ → List Byte → Option (List Byte)
  /-- `RSA_public_decrypt`, `RSA_private_decrypt`. -/
  decrypt : Bool → List Byte → List Byte → Option (List Byte)
  /-- `ERR_get_error`. -/
  errGetError : ℤ

/-- A fresh buffer. -/
def zeros (n : ℕ) : List Byte := List.replicate n 0

@[simp] theorem length_zeros (n : ℕ) : (zeros n).length = n := List.length_replicate

/-- The product of two `int`s. -/
def intMul (a b : ℤ) : ℤ := Int.bmod (a * b) (2 ^ 32)

/-- What `rsa_encrypt` and `rsa_decrypt` return, with the buffer and its length as they leave them. -/
structure Coded where
  ret : ℤ
  outData : List Byte
  outLen : ℕ

/-- The end of a call that has written `out` to a buffer of `room` bytes. -/
def finish (room : ℕ) (errGetError : ℤ) : Bool × List Byte → Coded
  | (true, out) => ⟨0, out ++ zeros (room - out.length), out.length⟩
  | (false, out) => ⟨errGetError, out ++ zeros (room - out.length), room⟩

section Code

variable (lib : Openssl) (isPub : Bool) (key : List Byte) (rsaSize room : ℕ)

/-- The loop of `rsa_encrypt`. Nothing if it leaves the buffer or does not end. -/
def encryptLoop : ℕ → List Byte → ℕ → List Byte → Option (Bool × List Byte)
  | _, [], _, out => some (true, out)
  | 0, _ :: _, _, _ => none
  | fuel + 1, b :: inData, call, out =>
    match lib.encrypt isPub key call ((b :: inData).take (rsaSize - 11)) with
    | none => some (false, out)
    | some block =>
      if out.length + block.length ≤ room then
        encryptLoop fuel ((b :: inData).drop (rsaSize - 11)) (call + 1) (out ++ block)
      else
        none

/-- The loop of `rsa_decrypt`. Nothing if it leaves one of the buffers or does not end. -/
def decryptLoop : ℕ → List Byte → List Byte → Option (Bool × List Byte)
  | _, [], out => some (true, out)
  | 0, _ :: _, _ => none
  | fuel + 1, b :: inData, out =>
    if (b :: inData).length < rsaSize then
      none
    else
      match lib.decrypt isPub key ((b :: inData).take rsaSize) with
      | none => some (false, out)
      | some piece =>
        if out.length + piece.length ≤ room then
          decryptLoop fuel ((b :: inData).drop rsaSize) (out ++ piece)
        else
          none

end Code

/-- `rsa_encrypt`. `call` is the number of its first call of the library. -/
def rsaEncrypt (lib : Openssl) (inData outData key : List Byte) (isPub : Bool) (call : ℕ) :
    Option Coded :=
  let outLen := outData.length
  if key = [] then
    some ⟨-1, outData, outLen⟩
  else
    match lib.rsaSize isPub key with
    | none => some ⟨lib.errGetError, outData, outLen⟩
    | some rsaSize =>
      if inData = [] ∨ outLen < 128 ∨
          intMul outLen rsaSize < intMul inData.length ((rsaSize : ℤ) - 11) then
        some ⟨-1, outData, outLen⟩
      else
        (encryptLoop lib isPub key rsaSize outLen inData.length inData call []).map
          (finish outLen lib.errGetError)

/-- `rsa_decrypt`. -/
def rsaDecrypt (lib : Openssl) (inData outData key : List Byte) (isPub : Bool) : Option Coded :=
  let outLen := outData.length
  if key = [] then
    some ⟨-1, outData, outLen⟩
  else
    match lib.rsaSize isPub key with
    | none => some ⟨lib.errGetError, outData, outLen⟩
    | some rsaSize =>
      if inData.length < rsaSize ∨ (outLen : ℤ) ≤ (rsaSize : ℤ) - 11 ∨
          intMul outLen rsaSize < intMul inData.length ((rsaSize : ℤ) - 11) then
        some ⟨-1, outData, outLen⟩
      else
        (decryptLoop lib isPub key rsaSize outLen inData.length inData []).map
          (finish outLen lib.errGetError)

/-! ### Two keys that belong together -/

/-- What goes under the public key can be read with the private one. -/
structure Openssl.Pair (lib : Openssl) (pub pri : List Byte) (rsaSize : ℕ) : Prop where
  room : 11 < rsaSize
  pub_ne : pub ≠ []
  pri_ne : pri ≠ []
  pub_size : lib.rsaSize true pub = some rsaSize
  pri_size : lib.rsaSize false pri = some rsaSize
  decrypt_encrypt : ∀ call data, data.length ≤ rsaSize - 11 →
    ∃ block, lib.encrypt true pub call data = some block ∧ block.length = rsaSize ∧
      lib.decrypt false pri block = some data

/-- How many blocks a text of `n` bytes takes. -/
def blockCount (rsaSize n : ℕ) : ℕ := (n + (rsaSize - 11) - 1) / (rsaSize - 11)

/-- The two products of a check for `n` bytes and a buffer of `room` bytes are `int`s. -/
def Small (rsaSize n room : ℕ) : Prop := n * (rsaSize - 11) < 2 ^ 31 ∧ room * rsaSize < 2 ^ 31

/-- The block can be read with the private key, and this is in it. -/
def Openssl.Holds (lib : Openssl) (pri : List Byte) (rsaSize : ℕ) (block piece : List Byte) : Prop :=
  block.length = rsaSize ∧ piece.length ≤ rsaSize - 11 ∧ lib.decrypt false pri block = some piece

/-- The blocks hold a text, piece by piece. -/
def Openssl.HoldAll (lib : Openssl) (pri : List Byte) (rsaSize : ℕ) (blocks : List (List Byte))
    (data : List Byte) : Prop :=
  blocks.length = blockCount rsaSize data.length ∧
    ∃ pieces, List.Forall₂ (lib.Holds pri rsaSize) blocks pieces ∧ pieces.flatten = data

theorem intMul_natCast {a b : ℕ} (h : a * b < 2 ^ 31) : intMul a b = (a * b : ℕ) := by
  rw [intMul, ← Nat.cast_mul]
  exact Int.bmod_eq_of_le (by omega) (by omega)

section Count

variable {rsaSize n : ℕ} (hroom : 11 < rsaSize)
include hroom

/-- A check of two products that are `int`s is the check of the products. -/
theorem intMul_lt_iff {room : ℕ} (h : Small rsaSize n room) :
    intMul room rsaSize < intMul n ((rsaSize : ℤ) - 11) ↔ room * rsaSize < n * (rsaSize - 11) := by
  have hcast : (rsaSize : ℤ) - 11 = ((rsaSize - 11 : ℕ) : ℤ) := by omega
  rw [hcast, intMul_natCast h.1, intMul_natCast h.2, Int.ofNat_lt]

theorem blockCount_zero : blockCount rsaSize 0 = 0 := by
  rw [blockCount]
  exact Nat.div_eq_of_lt (by omega)

theorem blockCount_pos (hn : 0 < n) :
    blockCount rsaSize n = blockCount rsaSize (n - (rsaSize - 11)) + 1 := by
  have hk : 0 < rsaSize - 11 := by omega
  rw [blockCount, blockCount]
  rcases le_total n (rsaSize - 11) with hle | hle
  · have hlast : n + (rsaSize - 11) - 1 = n - 1 + (rsaSize - 11) := by omega
    have hzero : n - (rsaSize - 11) + (rsaSize - 11) - 1 = rsaSize - 11 - 1 := by omega
    rw [hlast, Nat.add_div_right _ hk, hzero, Nat.div_eq_of_lt (by omega),
      Nat.div_eq_of_lt (by omega)]
  · have hmore : n + (rsaSize - 11) - 1 = n - (rsaSize - 11) + (rsaSize - 11) - 1 + (rsaSize - 11) := by
      omega
    rw [hmore, Nat.add_div_right _ hk]

/-- The blocks have room for the text. -/
theorem le_blockCount_mul (n : ℕ) : n ≤ blockCount rsaSize n * (rsaSize - 11) := by
  have hk : 0 < rsaSize - 11 := by omega
  have hdiv := Nat.div_add_mod (n + (rsaSize - 11) - 1) (rsaSize - 11)
  have hmod := Nat.mod_lt (n + (rsaSize - 11) - 1) hk
  rw [blockCount, mul_comm]
  omega

/-- When the blocks fit, the check of `rsa_encrypt` lets the text pass. -/
theorem mul_le_of_fits {room : ℕ} (hfits : blockCount rsaSize n * rsaSize ≤ room) :
    n * (rsaSize - 11) ≤ room * rsaSize := by
  have hsize : rsaSize - 11 ≤ rsaSize := Nat.sub_le ..
  calc
    n * (rsaSize - 11) ≤ blockCount rsaSize n * (rsaSize - 11) * (rsaSize - 11) :=
      Nat.mul_le_mul_right _ (le_blockCount_mul hroom n)
    _ ≤ blockCount rsaSize n * rsaSize * rsaSize :=
      Nat.mul_le_mul (Nat.mul_le_mul_left _ hsize) hsize
    _ ≤ room * rsaSize := Nat.mul_le_mul_right _ hfits

/-- The check of `rsa_decrypt` asks for room for full pieces. -/
theorem mul_lt_iff_short {room count : ℕ} :
    room * rsaSize < count * rsaSize * (rsaSize - 11) ↔ room < count * (rsaSize - 11) := by
  rw [mul_right_comm]
  exact Nat.mul_lt_mul_right (by omega)

end Count

section Pair

variable {lib : Openssl} {pub pri : List Byte} {rsaSize room : ℕ}

theorem length_flatten_of_holds {blocks pieces : List (List Byte)}
    (h : List.Forall₂ (lib.Holds pri rsaSize) blocks pieces) :
    blocks.flatten.length = blocks.length * rsaSize := by
  induction h with
  | nil => simp
  | cons hb _ ih =>
    rw [List.flatten_cons, List.length_append, ih, hb.1, List.length_cons]
    ring

theorem encryptLoop_nil (hroom : 11 < rsaSize) {fuel call : ℕ} {out : List Byte}
    (hout : out.length ≤ room) :
    if out.length + blockCount rsaSize ([] : List Byte).length * rsaSize ≤ room then
      ∃ blocks, lib.HoldAll pri rsaSize blocks [] ∧
        encryptLoop lib true pub rsaSize room fuel [] call out = some (true, out ++ blocks.flatten)
    else
      encryptLoop lib true pub rsaSize room fuel [] call out = none := by
  have hzero : out.length + blockCount rsaSize ([] : List Byte).length * rsaSize = out.length := by
    rw [List.length_nil, blockCount_zero hroom, zero_mul, add_zero]
  rw [hzero, if_pos hout]
  refine ⟨[], ⟨(blockCount_zero hroom).symm, [], .nil, rfl⟩, ?_⟩
  rw [encryptLoop, List.flatten_nil, List.append_nil]

/-- The loop of `rsa_encrypt` cuts the text and writes block after block, unless they leave the
buffer. -/
theorem encryptLoop_pair (h : lib.Pair pub pri rsaSize) (fuel : ℕ) (inData : List Byte) (call : ℕ)
    (out : List Byte) (hfuel : inData.length ≤ fuel) (hout : out.length ≤ room) :
    if out.length + blockCount rsaSize inData.length * rsaSize ≤ room then
      ∃ blocks, lib.HoldAll pri rsaSize blocks inData ∧
        encryptLoop lib true pub rsaSize room fuel inData call out = some (true, out ++ blocks.flatten)
    else
      encryptLoop lib true pub rsaSize room fuel inData call out = none := by
  induction fuel generalizing inData call out with
  | zero =>
    obtain rfl := List.length_eq_zero_iff.mp (Nat.le_zero.mp hfuel)
    exact encryptLoop_nil h.room hout
  | succ fuel ih =>
    rcases inData with _ | ⟨b, inData⟩
    · exact encryptLoop_nil h.room hout
    · obtain ⟨block, hblock, hlen, hback⟩ :=
        h.decrypt_encrypt call ((b :: inData).take (rsaSize - 11)) (List.length_take_le ..)
      have hcount := blockCount_pos h.room (List.length_pos_of_ne_nil (List.cons_ne_nil b inData))
      rw [← List.length_drop] at hcount
      rw [encryptLoop, hblock, hcount]
      dsimp only
      rw [hlen]
      have hroom := h.room
      have hshort : ((b :: inData).drop (rsaSize - 11)).length ≤ fuel := by
        rw [List.length_drop]
        rw [List.length_cons] at hfuel ⊢
        omega
      set rest := (b :: inData).drop (rsaSize - 11) with hrest
      by_cases hfits : out.length + rsaSize ≤ room
      · rw [if_pos hfits]
        have hnext := ih rest (call + 1) (out ++ block) hshort (by rwa [List.length_append, hlen])
        have hsum : (out ++ block).length + blockCount rsaSize rest.length * rsaSize =
            out.length + (blockCount rsaSize rest.length + 1) * rsaSize := by
          rw [List.length_append, hlen]
          ring
        rw [hsum] at hnext
        split_ifs at hnext ⊢ with hall
        · obtain ⟨blocks, ⟨hnum, pieces, hheld, hflat⟩, heq⟩ := hnext
          refine ⟨block :: blocks, ⟨?_, _ :: pieces, .cons ⟨hlen, List.length_take_le .., hback⟩ hheld, ?_⟩, ?_⟩
          · rw [List.length_cons, hnum, hcount]
          · rw [List.flatten_cons, hflat, hrest, List.take_append_drop]
          · rw [heq, List.flatten_cons, List.append_assoc]
        · exact hnext
      · rw [if_neg hfits, if_neg]
        intro hall
        refine hfits (le_trans ?_ hall)
        rw [Nat.add_le_add_iff_left]
        exact Nat.le_mul_of_pos_left _ (Nat.succ_pos _)

/-- The loop of `rsa_decrypt` reads such blocks. -/
theorem decryptLoop_pair (hroom : 11 < rsaSize) {blocks pieces : List (List Byte)}
    (h : List.Forall₂ (lib.Holds pri rsaSize) blocks pieces) (fuel : ℕ) (out : List Byte)
    (hfuel : blocks.flatten.length ≤ fuel) (hout : out.length + pieces.flatten.length ≤ room) :
    decryptLoop lib false pri rsaSize room fuel blocks.flatten out =
      some (true, out ++ pieces.flatten) := by
  induction h generalizing fuel out with
  | nil =>
    rw [List.flatten_nil, List.append_nil]
    cases fuel <;> rw [decryptLoop]
  | @cons block piece blocks pieces hb _ ih =>
    rw [List.flatten_cons, List.length_append, hb.1] at hfuel
    rw [List.flatten_cons, List.length_append] at hout
    obtain ⟨c, cs, hcons⟩ : ∃ c cs, block ++ blocks.flatten = c :: cs := by
      refine List.exists_cons_of_length_pos ?_
      rw [List.length_append, hb.1]
      omega
    obtain ⟨fuel, rfl⟩ : ∃ k, fuel = k + 1 := ⟨fuel - 1, by omega⟩
    have htake : (c :: cs).take rsaSize = block := by
      rw [← hcons, List.take_left' hb.1]
    have hdrop : (c :: cs).drop rsaSize = blocks.flatten := by
      rw [← hcons, List.drop_left' hb.1]
    have hlong : ¬ (c :: cs).length < rsaSize := by
      rw [← hcons, List.length_append, hb.1]
      omega
    rw [List.flatten_cons, hcons, decryptLoop, if_neg hlong, htake, hdrop, hb.2.2]
    dsimp only
    rw [if_pos (by omega), ih fuel (out ++ piece) (by omega) (by rw [List.length_append]; omega),
      List.flatten_cons, List.append_assoc]

/-- What `rsa_encrypt` makes of a text: blocks that hold it, if there is room for them; and if there is
not, it refuses or leaves the buffer. -/
theorem rsaEncrypt_pair (h : lib.Pair pub pri rsaSize) {inData outData : List Byte} (hne : inData ≠ [])
    (hsmall : Small rsaSize inData.length outData.length) (call : ℕ) :
    if 128 ≤ outData.length ∧ blockCount rsaSize inData.length * rsaSize ≤ outData.length then
      ∃ blocks, lib.HoldAll pri rsaSize blocks inData ∧
        rsaEncrypt lib inData outData pub true call =
          some (finish outData.length lib.errGetError (true, blocks.flatten))
    else
      rsaEncrypt lib inData outData pub true call = none ∨
        rsaEncrypt lib inData outData pub true call = some ⟨-1, outData, outData.length⟩ := by
  have hout : ([] : List Byte).length ≤ outData.length := Nat.zero_le _
  have hloop := encryptLoop_pair h inData.length inData call [] le_rfl hout
  rw [List.length_nil, Nat.zero_add] at hloop
  rw [rsaEncrypt, if_neg h.pub_ne, h.pub_size]
  dsimp only
  simp only [intMul_lt_iff h.room hsmall]
  by_cases hfits : 128 ≤ outData.length ∧ blockCount rsaSize inData.length * rsaSize ≤ outData.length
  · rw [if_pos hfits.2] at hloop
    obtain ⟨blocks, hblocks, heq⟩ := hloop
    have hcheck : ¬ (inData = [] ∨ outData.length < 128 ∨
        outData.length * rsaSize < inData.length * (rsaSize - 11)) := by
      rintro (hnil | hshort | hlong)
      · exact hne hnil
      · exact absurd hfits.1 (not_le.mpr hshort)
      · exact absurd (mul_le_of_fits h.room hfits.2) (not_le.mpr hlong)
    rw [if_pos hfits, if_neg hcheck, heq]
    exact ⟨blocks, hblocks, rfl⟩
  · rw [if_neg hfits]
    split_ifs with hcheck
    · exact .inr rfl
    · push Not at hcheck
      rw [if_neg fun hle => hfits ⟨hcheck.2.1, hle⟩] at hloop
      rw [hloop]
      exact .inl rfl

/-- `rsa_decrypt` reads blocks that hold a text whenever the buffer has room for full pieces, and else
refuses. -/
theorem rsaDecrypt_pair (h : lib.Pair pub pri rsaSize) {blocks : List (List Byte)} {data : List Byte}
    (hne : data ≠ []) (hblocks : lib.HoldAll pri rsaSize blocks data) {plain : List Byte}
    (hsmall : Small rsaSize (blockCount rsaSize data.length * rsaSize) plain.length) :
    rsaDecrypt lib blocks.flatten plain pri false =
      if rsaSize - 11 < plain.length ∧ blockCount rsaSize data.length * (rsaSize - 11) ≤ plain.length then
        some (finish plain.length lib.errGetError (true, data))
      else
        some ⟨-1, plain, plain.length⟩ := by
  obtain ⟨hnum, pieces, hheld, hflat⟩ := hblocks
  have hroom := h.room
  have hlen : blocks.flatten.length = blockCount rsaSize data.length * rsaSize := by
    rw [length_flatten_of_holds hheld, hnum]
  have hone : rsaSize ≤ blocks.flatten.length := by
    rw [hlen, blockCount_pos hroom (List.length_pos_of_ne_nil hne)]
    exact Nat.le_mul_of_pos_left _ (Nat.succ_pos _)
  rw [← hlen] at hsmall
  rw [rsaDecrypt, if_neg h.pri_ne, h.pri_size]
  dsimp only
  simp only [intMul_lt_iff hroom hsmall]
  by_cases hfits : rsaSize - 11 < plain.length ∧
      blockCount rsaSize data.length * (rsaSize - 11) ≤ plain.length
  · have hcheck : ¬ (blocks.flatten.length < rsaSize ∨ (plain.length : ℤ) ≤ (rsaSize : ℤ) - 11 ∨
        plain.length * rsaSize < blocks.flatten.length * (rsaSize - 11)) := by
      rw [hlen, mul_lt_iff_short hroom, ← hlen]
      omega
    have hall : ([] : List Byte).length + pieces.flatten.length ≤ plain.length := by
      rw [hflat, List.length_nil, Nat.zero_add]
      exact (le_blockCount_mul hroom _).trans hfits.2
    rw [if_pos hfits, if_neg hcheck, decryptLoop_pair hroom hheld _ _ le_rfl hall, hflat,
      List.nil_append, Option.map_some]
  · have hcheck : blocks.flatten.length < rsaSize ∨ (plain.length : ℤ) ≤ (rsaSize : ℤ) - 11 ∨
        plain.length * rsaSize < blocks.flatten.length * (rsaSize - 11) := by
      rw [hlen, mul_lt_iff_short hroom]
      omega
    rw [if_neg hfits, if_pos hcheck]

theorem take_finish (room : ℕ) (errGetError : ℤ) (out : List Byte) :
    (finish room errGetError (true, out)).outData.take
      (finish room errGetError (true, out)).outLen = out := by
  rw [finish]
  exact List.take_left

/-- A text that is not empty goes under the public key and comes back with the private one exactly when
the first buffer has room for all its blocks and for 128 bytes, and the second one for all pieces as if
they were full and for more than one; as long as no product of the checks leaves the `int`s. -/
theorem decrypt_encrypt_iff (h : lib.Pair pub pri rsaSize) {inData outData plain : List Byte}
    (hne : inData ≠ []) (hencrypted : Small rsaSize inData.length outData.length)
    (hdecrypted : Small rsaSize (blockCount rsaSize inData.length * rsaSize) plain.length) (call : ℕ) :
    (∃ coded, rsaEncrypt lib inData outData pub true call = some coded ∧ coded.ret = 0 ∧
      rsaDecrypt lib (coded.outData.take coded.outLen) plain pri false =
        some ⟨0, inData ++ zeros (plain.length - inData.length), inData.length⟩) ↔
      (128 ≤ outData.length ∧ blockCount rsaSize inData.length * rsaSize ≤ outData.length) ∧
        rsaSize - 11 < plain.length ∧
        blockCount rsaSize inData.length * (rsaSize - 11) ≤ plain.length := by
  have hencrypt := rsaEncrypt_pair h hne hencrypted call
  constructor
  · rintro ⟨coded, heq, hret, hback⟩
    split_ifs at hencrypt with hfits
    · obtain ⟨blocks, hblocks, hcoded⟩ := hencrypt
      obtain rfl := Option.some.inj (heq.symm.trans hcoded)
      rw [take_finish, rsaDecrypt_pair h hne hblocks hdecrypted] at hback
      split_ifs at hback with hplain
      · exact ⟨hfits, hplain⟩
      · simp at hback
    · rcases hencrypt with hnone | hrefused
      · exact absurd (heq.symm.trans hnone) (Option.some_ne_none _)
      · obtain rfl := Option.some.inj (heq.symm.trans hrefused)
        have hret : (-1 : ℤ) = 0 := hret
        exact absurd hret (by decide)
  · rintro ⟨hfits, hplain⟩
    rw [if_pos hfits] at hencrypt
    obtain ⟨blocks, hblocks, heq⟩ := hencrypt
    refine ⟨_, heq, rfl, ?_⟩
    rw [take_finish, rsaDecrypt_pair h hne hblocks hdecrypted, if_pos hplain]
    rfl

end Pair

/-! ### A key that hides nothing -/

/-- The padding of the library, with nothing done to the padded block. -/
def plainPad (data : List Byte) : List Byte :=
  [0, 2] ++ List.replicate (125 - data.length) 1 ++ 0 :: data

/-- The end of a padded block. -/
def plainUnpad (block : List Byte) : List Byte := (block.drop 2).dropWhile (· ≠ 0) |>.drop 1

/-- A library of keys that hide nothing. -/
def plainLib : Openssl where
  rsaSize _ key := if key = [] then none else some 128
  encrypt _ _ _ data := if data.length ≤ 117 then some (plainPad data) else none
  decrypt _ _ block := some (plainUnpad block)
  errGetError := 1

theorem plainUnpad_plainPad (data : List Byte) : plainUnpad (plainPad data) = data := by
  have hdrop : (plainPad data).drop 2 = List.replicate (125 - data.length) 1 ++ 0 :: data := rfl
  have hones : ∀ b ∈ List.replicate (125 - data.length) (1 : Byte), decide (b ≠ 0) = true := by
    intro b hb
    rw [List.eq_of_mem_replicate hb]
    rfl
  rw [plainUnpad, hdrop, List.dropWhile_append_of_pos hones]
  rfl

theorem plainLib_pair {pub pri : List Byte} (hpub : pub ≠ []) (hpri : pri ≠ []) :
    plainLib.Pair pub pri 128 where
  room := by decide
  pub_ne := hpub
  pri_ne := hpri
  pub_size := if_neg hpub
  pri_size := if_neg hpri
  decrypt_encrypt call data hdata := by
    refine ⟨plainPad data, if_pos hdata, ?_, congrArg some (plainUnpad_plainPad data)⟩
    simp only [plainPad, List.length_append, List.length_cons, List.length_nil, List.length_replicate]
    omega

/-- A text of three pieces. -/
def threePieces : List Byte := List.replicate 300 7

theorem decrypt_encrypt_threePieces :
    ∃ coded, rsaEncrypt plainLib threePieces (zeros 400) [1] true 0 = some coded ∧ coded.ret = 0 ∧
      rsaDecrypt plainLib (coded.outData.take coded.outLen) (zeros 351) [2] false =
        some ⟨0, threePieces ++ zeros ((zeros 351).length - threePieces.length), threePieces.length⟩ := by
  have hpair : plainLib.Pair [1] [2] 128 := plainLib_pair (List.cons_ne_nil _ _) (List.cons_ne_nil _ _)
  have hlen : threePieces.length = 300 := List.length_replicate
  have hne : threePieces ≠ [] := List.ne_nil_of_length_pos (by rw [hlen]; decide)
  have hencrypted : Small 128 threePieces.length (zeros 400).length := by
    rw [hlen, length_zeros, Small]
    decide
  have hdecrypted : Small 128 (blockCount 128 threePieces.length * 128) (zeros 351).length := by
    rw [hlen, length_zeros, Small]
    decide
  refine (decrypt_encrypt_iff hpair hne hencrypted hdecrypted 0).mpr ?_
  rw [hlen, length_zeros, length_zeros]
  decide

end Rsa

end ReachEdukit
