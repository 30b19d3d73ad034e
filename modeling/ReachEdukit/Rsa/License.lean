import ReachEdukit.Rsa.Crypt

/-!
# Licences

Three programs and four files. `cli_reg` runs on the device: it makes a pair of keys, keeps the private
one and puts what it can read of the hardware, with the public key, under the public key of the server.
`srv_build_key` runs on the server: it takes that apart and puts the hardware, with the set-up data,
under the device's public key. `check_hw_and_get_pri_data` is called on the device each time: it takes
that apart, reads the hardware again and gives the set-up data out if it is the same.

The server's buffer for the licence has four times the length of the device's public key, so the set-up
data have to be short.

## What is left out

* the programs that read the hardware: `sn` is what they have written to `/tmp/sn.txt`
* failures of `calloc` besides those for a negative length, and of writing a file
* `rsa_gen_key_pair`: `Keys` says what it gives

## Main definitions

* `cliReg`, `srvBuildKey`, `cliVerify` — the programs; nothing when they do not get to their file, or
  leave one of their buffers
* `Keys` — a pair of keys

## Main results

* `licence_iff` — which licences the server builds, and on which devices they are accepted
-/

namespace ReachEdukit

namespace Rsa

/-! ### Numbers and pieces of a buffer -/

/-- An `int` in memory. -/
def intBytes (n : ℤ) : List Byte :=
  let w := BitVec.ofInt 32 n
  [w.extractLsb' 0 8, w.extractLsb' 8 8, w.extractLsb' 16 8, w.extractLsb' 24 8]

/-- The `int` in four bytes. -/
def intOf : List Byte → ℤ
  | [a, b, c, d] => (d ++ c ++ b ++ a).toInt
  | _ => 0

/-- A part of a buffer, if it is in there. -/
def copy (buffer : List Byte) (off len : ℤ) : Option (List Byte) :=
  if 0 ≤ off ∧ 0 ≤ len ∧ off + len ≤ buffer.length then
    some ((buffer.drop off.toNat).take len.toNat)
  else
    none

/-- An `int` in a buffer. -/
def intAt (buffer : List Byte) (off : ℤ) : Option ℤ := (copy buffer off 4).map intOf

/-! ### Files -/

/-- `rsa_write_file`. -/
def rsaWriteFile (buf : List Byte) : List Byte := intBytes buf.length ++ buf

/-- The two calls of `rsa_read_file`, for the length and for the data. -/
def rsaReadFile (file : Option (List Byte)) : Option (List Byte) := do
  let file ← file
  let len ← intAt file 0
  copy file 4 len

/-- `rsa_read_hardware_info`, with a buffer of 256 bytes. -/
def rsaReadHardwareInfo (sn : List Byte) : Option (List Byte) :=
  if sn = [] then none else some (sn.take 256 ++ zeros (256 - sn.length))

/-! ### The programs -/

section Programs

variable (lib : Openssl)

/-- Two parts, each after its length. -/
def parts (hardwareInfo data : List Byte) : List Byte :=
  intBytes hardwareInfo.length ++ (hardwareInfo ++ (intBytes data.length ++ data))

/-- A text goes under a public key and to a file, in `write_client_reg` and `write_device_key`. -/
def writeEncrypted (data pubKey : List Byte) (outLen call : ℕ) : Option (List Byte) := do
  let coded ← rsaEncrypt lib data (zeros outLen) pubKey true call
  if coded.ret = -1 then none else some (rsaWriteFile (coded.outData.take coded.outLen))

/-- A file is read with a private key: the buffer and the length of what is in it. -/
def readEncrypted (data priKey : List Byte) : Option (List Byte × ℕ) := do
  let coded ← rsaDecrypt lib data (zeros (4 * data.length)) priKey false
  if coded.ret = -1 then none else some (coded.outData, coded.outLen)

/-- `cli_reg` with the keys it has made: `c_pri.key` and `c_device.reg`. -/
def cliReg (sn pubKey priKey : List Byte) (sPub : Option (List Byte)) (call : ℕ) :
    Option (List Byte × List Byte) := do
  let hardwareInfo ← rsaReadHardwareInfo sn
  let regData := parts hardwareInfo pubKey
  let sPubKey ← rsaReadFile sPub
  let reg ← writeEncrypted lib regData sPubKey (4 * regData.length) call
  some (rsaWriteFile priKey, reg)

/-- `srv_build_key`: `c_device.key`. -/
def srvBuildKey (reg sPri setup : Option (List Byte)) (call : ℕ) : Option (List Byte) := do
  let regData ← rsaReadFile reg
  let sPriKey ← rsaReadFile sPri
  let (outData, _) ← readEncrypted lib regData sPriKey
  let hdInfoLen ← intAt outData 0
  let hardwareInfo ← copy outData 4 hdInfoLen
  let keyLen ← intAt outData (4 + hdInfoLen)
  let pubKey ← copy outData (8 + hdInfoLen) keyLen
  let setup ← setup
  let deviceKey := parts hardwareInfo (setup.take 1024)
  writeEncrypted lib deviceKey pubKey (4 * pubKey.length) call

/-- `check_hw_and_get_pri_data`. -/
def cliVerify (deviceKey cPri : Option (List Byte)) (sn : List Byte) : Option (List Byte) := do
  let priKey ← rsaReadFile cPri
  let deviceKey ← rsaReadFile deviceKey
  let (outData, outLen) ← readEncrypted lib deviceKey priKey
  let hdInfoLen ← intAt outData 0
  let setupLen ← intAt outData (4 + hdInfoLen)
  if hdInfoLen + setupLen + 8 ≠ outLen then
    none
  else
    let curHardwareInfo ← rsaReadHardwareInfo sn
    let hardwareInfo ← copy outData 4 256
    if hardwareInfo = curHardwareInfo then copy outData (8 + hdInfoLen) setupLen else none

end Programs

/-- What `rsa_gen_key_pair` gives: keys of 1024 bits that belong together, each in a buffer of 1024
bytes. -/
structure Keys (lib : Openssl) (pub pri : List Byte) : Prop extends lib.Pair pub pri 128 where
  pub_fits : pub.length ≤ 1024
  pri_fits : pri.length ≤ 1024

/-! ### What is written is read -/

theorem append_bytes (w : BitVec 32) :
    w.extractLsb' 24 8 ++ w.extractLsb' 16 8 ++ w.extractLsb' 8 8 ++ w.extractLsb' 0 8 = w := by
  ext i hi
  simp only [BitVec.getElem_append, BitVec.getElem_extractLsb']
  rw [← BitVec.getLsbD_eq_getElem]
  split_ifs
  all_goals
    congr 1
    omega

theorem intOf_intBytes {n : ℤ} (hlow : -2 ^ 31 ≤ n) (hhigh : n < 2 ^ 31) :
    intOf (intBytes n) = n := by
  rw [intBytes, intOf, append_bytes]
  exact BitVec.toInt_ofInt_eq_self (by decide) hlow hhigh

theorem length_intBytes (n : ℤ) : (intBytes n).length = 4 := rfl

theorem copy_append {pre bs rest : List Byte} {off len : ℤ} (hoff : off = pre.length)
    (hlen : len = bs.length) : copy (pre ++ (bs ++ rest)) off len = some bs := by
  have hin : 0 ≤ off ∧ 0 ≤ len ∧ off + len ≤ (pre ++ (bs ++ rest)).length := by
    rw [List.length_append, List.length_append]
    omega
  rw [copy, if_pos hin, hoff, hlen, Int.toNat_natCast, Int.toNat_natCast, List.drop_left,
    List.take_left]

theorem intAt_append {pre rest : List Byte} {off : ℤ} (hoff : off = pre.length) {n : ℕ}
    (hn : n < 2 ^ 31) : intAt (pre ++ (intBytes n ++ rest)) off = some (n : ℤ) := by
  rw [intAt, copy_append hoff (by rw [length_intBytes]; rfl), Option.map_some,
    intOf_intBytes (by omega) (by exact_mod_cast hn)]

theorem rsaReadFile_rsaWriteFile {buf : List Byte} (h : buf.length < 2 ^ 31) :
    rsaReadFile (some (rsaWriteFile buf)) = some buf := by
  have hint : intAt (rsaWriteFile buf) 0 = some (buf.length : ℤ) := @intAt_append [] _ 0 rfl _ h
  have hcopy : copy (rsaWriteFile buf) 4 buf.length = some buf := by
    have hbuf := @copy_append (intBytes buf.length) buf [] 4 buf.length (by rw [length_intBytes]; rfl) rfl
    rwa [List.append_nil] at hbuf
  rw [rsaReadFile, Option.bind_eq_bind, Option.bind_some, hint, Option.bind_eq_bind, Option.bind_some,
    hcopy]

section Parts

variable {hardwareInfo data rest : List Byte}

theorem length_parts : (parts hardwareInfo data).length = 8 + hardwareInfo.length + data.length := by
  simp only [parts, List.length_append, length_intBytes]
  omega

/-- The two parts are found in a buffer that starts with them. -/
theorem read_parts (hh : hardwareInfo.length < 2 ^ 31) (hd : data.length < 2 ^ 31) :
    intAt (parts hardwareInfo data ++ rest) 0 = some (hardwareInfo.length : ℤ) ∧
      copy (parts hardwareInfo data ++ rest) 4 hardwareInfo.length = some hardwareInfo ∧
      intAt (parts hardwareInfo data ++ rest) (4 + hardwareInfo.length) = some (data.length : ℤ) ∧
      copy (parts hardwareInfo data ++ rest) (8 + hardwareInfo.length) data.length = some data := by
  have hfirst : parts hardwareInfo data ++ rest =
      intBytes hardwareInfo.length ++ (hardwareInfo ++ (intBytes data.length ++ (data ++ rest))) := by
    simp only [parts, List.append_assoc]
  have hsecond : parts hardwareInfo data ++ rest =
      (intBytes hardwareInfo.length ++ hardwareInfo) ++ (intBytes data.length ++ (data ++ rest)) := by
    simp only [parts, List.append_assoc]
  have hlast : parts hardwareInfo data ++ rest =
      (intBytes hardwareInfo.length ++ hardwareInfo ++ intBytes data.length) ++ (data ++ rest) := by
    simp only [parts, List.append_assoc]
  refine ⟨?_, ?_, ?_, ?_⟩
  · rw [hfirst]
    exact @intAt_append [] _ 0 rfl _ hh
  · rw [hfirst]
    exact copy_append (by rw [length_intBytes]; rfl) rfl
  · rw [hsecond]
    exact intAt_append (by rw [List.length_append, length_intBytes]; push_cast; rfl) hd
  · rw [hlast]
    refine copy_append ?_ rfl
    rw [List.length_append, List.length_append, length_intBytes, length_intBytes]
    push_cast
    ring

end Parts

section Exchange

variable {lib : Openssl} {pub pri data : List Byte}

theorem writeEncrypted_keys (h : Keys lib pub pri) (hne : data ≠ []) (hshort : data.length ≤ 4096)
    {outLen : ℕ} (hbuf : outLen ≤ 16384) (call : ℕ) :
    if 128 ≤ outLen ∧ blockCount 128 data.length * 128 ≤ outLen then
      ∃ blocks, lib.HoldAll pri 128 blocks data ∧
        writeEncrypted lib data pub outLen call = some (rsaWriteFile blocks.flatten)
    else
      writeEncrypted lib data pub outLen call = none := by
  have hsmall : Small 128 data.length (zeros outLen).length := by
    rw [length_zeros, Small]
    omega
  have hencrypt := rsaEncrypt_pair h.toPair hne hsmall call
  rw [length_zeros] at hencrypt
  split_ifs at hencrypt ⊢
  · obtain ⟨blocks, hblocks, heq⟩ := hencrypt
    refine ⟨blocks, hblocks, ?_⟩
    rw [writeEncrypted, heq, Option.bind_eq_bind, Option.bind_some, take_finish]
    exact if_neg (by decide : ¬ (0 : ℤ) = -1)
  · rcases hencrypt with hnone | hrefused
    · rw [writeEncrypted, hnone]
      rfl
    · rw [writeEncrypted, hrefused, Option.bind_eq_bind, Option.bind_some]
      exact if_pos rfl

theorem readEncrypted_keys (h : Keys lib pub pri) (hne : data ≠ []) (hshort : data.length ≤ 4096)
    {blocks : List (List Byte)} (hblocks : lib.HoldAll pri 128 blocks data) :
    ∃ rest, readEncrypted lib blocks.flatten pri = some (data ++ rest, data.length) := by
  obtain ⟨hnum, pieces, hheld, -⟩ := id hblocks
  have hlen : blocks.flatten.length = blockCount 128 data.length * 128 := by
    rw [length_flatten_of_holds hheld, hnum]
  have hpos : 0 < blockCount 128 data.length := by
    rw [blockCount_pos h.room (List.length_pos_of_ne_nil hne)]
    exact Nat.succ_pos _
  have hsmall : Small 128 (blockCount 128 data.length * 128)
      (zeros (4 * blocks.flatten.length)).length := by
    rw [length_zeros, hlen, blockCount, Small]
    omega
  have hplain := rsaDecrypt_pair h.toPair hne hblocks hsmall
  rw [length_zeros, if_pos (by omega)] at hplain
  refine ⟨zeros (4 * blocks.flatten.length - data.length), ?_⟩
  rw [readEncrypted, hplain, Option.bind_eq_bind, Option.bind_some]
  exact if_neg (by decide : ¬ (0 : ℤ) = -1)

end Exchange

theorem length_rsaReadHardwareInfo {sn hardwareInfo : List Byte}
    (h : rsaReadHardwareInfo sn = some hardwareInfo) : hardwareInfo.length = 256 := by
  rw [rsaReadHardwareInfo] at h
  split at h
  · cases h
  · obtain rfl := Option.some.inj h
    rw [List.length_append, List.length_take, length_zeros]
    omega

/-- The blocks of a short text make a file that can be read. -/
theorem rsaReadFile_blocks {lib : Openssl} {pri data : List Byte} {blocks : List (List Byte)}
    (hblocks : lib.HoldAll pri 128 blocks data) (hshort : data.length ≤ 4096) :
    rsaReadFile (some (rsaWriteFile blocks.flatten)) = some blocks.flatten := by
  obtain ⟨hnum, pieces, hheld, -⟩ := hblocks
  refine rsaReadFile_rsaWriteFile ?_
  rw [length_flatten_of_holds hheld, hnum, blockCount]
  omega

section Flow

variable {lib : Openssl} {sPub sPri cPub cPri sn hardwareInfo : List Byte}

/-- The device registers. -/
theorem cliReg_keys (hs : Keys lib sPub sPri) (hfits : cPub.length ≤ 1024)
    (hsn : rsaReadHardwareInfo sn = some hardwareInfo) (call : ℕ) :
    ∃ blocks, lib.HoldAll sPri 128 blocks (parts hardwareInfo cPub) ∧
      cliReg lib sn cPub cPri (some (rsaWriteFile sPub)) call =
        some (rsaWriteFile cPri, rsaWriteFile blocks.flatten) := by
  have hlen : (parts hardwareInfo cPub).length = 264 + cPub.length := by
    rw [length_parts, length_rsaReadHardwareInfo hsn]
  have hne : parts hardwareInfo cPub ≠ [] := List.ne_nil_of_length_pos (by omega)
  have hwrite := @writeEncrypted_keys _ _ _ _ hs hne (by omega)
    (4 * (parts hardwareInfo cPub).length) (by omega) call
  have hroom : 128 ≤ 4 * (parts hardwareInfo cPub).length ∧
      blockCount 128 (parts hardwareInfo cPub).length * 128 ≤ 4 * (parts hardwareInfo cPub).length := by
    rw [hlen, blockCount]
    omega
  rw [if_pos hroom] at hwrite
  obtain ⟨blocks, hblocks, heq⟩ := hwrite
  have hpub : rsaReadFile (some (rsaWriteFile sPub)) = some sPub :=
    rsaReadFile_rsaWriteFile (hs.pub_fits.trans_lt (by decide))
  refine ⟨blocks, hblocks, ?_⟩
  simp only [cliReg, hsn, hpub, heq, Option.bind_eq_bind, Option.bind_some]

/-- The server takes the registration apart. -/
theorem srvBuildKey_keys (hs : Keys lib sPub sPri) (hfits : cPub.length ≤ 1024)
    (hhw : hardwareInfo.length = 256) {blocks : List (List Byte)}
    (hblocks : lib.HoldAll sPri 128 blocks (parts hardwareInfo cPub)) (setup : List Byte) (call : ℕ) :
    srvBuildKey lib (some (rsaWriteFile blocks.flatten)) (some (rsaWriteFile sPri)) (some setup) call =
      writeEncrypted lib (parts hardwareInfo (setup.take 1024)) cPub (4 * cPub.length) call := by
  have hlen : (parts hardwareInfo cPub).length = 264 + cPub.length := by
    rw [length_parts, hhw]
  have hne : parts hardwareInfo cPub ≠ [] := List.ne_nil_of_length_pos (by omega)
  have hreg := rsaReadFile_blocks hblocks (by omega)
  have hpri : rsaReadFile (some (rsaWriteFile sPri)) = some sPri :=
    rsaReadFile_rsaWriteFile (hs.pri_fits.trans_lt (by decide))
  obtain ⟨rest, hread⟩ := readEncrypted_keys hs hne (by omega) hblocks
  obtain ⟨hhdLen, hhardware, hkeyLen, hkey⟩ :=
    @read_parts hardwareInfo cPub rest (by omega) (by omega)
  simp only [srvBuildKey, hreg, hpri, hread, hhdLen, hhardware, hkeyLen, hkey, Option.bind_eq_bind,
    Option.bind_some]

/-- The device looks at its licence. -/
theorem cliVerify_keys (hc : Keys lib cPub cPri) (hhw : hardwareInfo.length = 256)
    {data : List Byte} (hdata : data.length ≤ 1024) {blocks : List (List Byte)}
    (hblocks : lib.HoldAll cPri 128 blocks (parts hardwareInfo data)) (sn' : List Byte) :
    cliVerify lib (some (rsaWriteFile blocks.flatten)) (some (rsaWriteFile cPri)) sn' =
      if rsaReadHardwareInfo sn' = some hardwareInfo then some data else none := by
  have hlen : (parts hardwareInfo data).length = 264 + data.length := by
    rw [length_parts, hhw]
  have hne : parts hardwareInfo data ≠ [] := List.ne_nil_of_length_pos (by omega)
  have hdevice := rsaReadFile_blocks hblocks (by omega)
  have hpri : rsaReadFile (some (rsaWriteFile cPri)) = some cPri :=
    rsaReadFile_rsaWriteFile (hc.pri_fits.trans_lt (by decide))
  obtain ⟨rest, hread⟩ := readEncrypted_keys hc hne (by omega) hblocks
  obtain ⟨hhdLen, hhardware, hsetupLen, hsetup⟩ :=
    @read_parts hardwareInfo data rest (by omega) (by omega)
  have hsum : ¬ (hardwareInfo.length : ℤ) + data.length + 8 ≠ (parts hardwareInfo data).length := by
    rw [hlen, hhw]
    push_cast
    omega
  have hhardware256 : copy (parts hardwareInfo data ++ rest) 4 256 = some hardwareInfo := by
    rw [hhw] at hhardware
    exact hhardware
  simp only [cliVerify, hdevice, hpri, hread, hhdLen, hsetupLen, Option.bind_eq_bind, Option.bind_some,
    if_neg hsum, hhardware256, hsetup]
  rcases rsaReadHardwareInfo sn' with _ | cur
  · rfl
  · simp only [Option.bind_some, Option.some.injEq, eq_comm]

/-- **The life of a licence.** A device registers with whatever it can read of its hardware. The server
builds the licence exactly when it goes into four times the length of the device's public key; and
such a licence gives the set-up data on every device with that hardware and on no other. -/
theorem licence_iff (hs : Keys lib sPub sPri) (hc : Keys lib cPub cPri) (hsn : sn ≠ [])
    (setup : List Byte) (regCall keyCall : ℕ) :
    ∃ reg, cliReg lib sn cPub cPri (some (rsaWriteFile sPub)) regCall = some (rsaWriteFile cPri, reg) ∧
      ((srvBuildKey lib (some reg) (some (rsaWriteFile sPri)) (some setup) keyCall).isSome ↔
        128 ≤ 4 * cPub.length ∧
          blockCount 128 (264 + (setup.take 1024).length) * 128 ≤ 4 * cPub.length) ∧
      ∀ key, srvBuildKey lib (some reg) (some (rsaWriteFile sPri)) (some setup) keyCall = some key →
        ∀ sn', cliVerify lib (some key) (some (rsaWriteFile cPri)) sn' =
          if rsaReadHardwareInfo sn' = rsaReadHardwareInfo sn then some (setup.take 1024) else none := by
  obtain ⟨hardwareInfo, hinfo⟩ : ∃ hardwareInfo, rsaReadHardwareInfo sn = some hardwareInfo :=
    ⟨_, if_neg hsn⟩
  have hhw := length_rsaReadHardwareInfo hinfo
  have hlen : (parts hardwareInfo (setup.take 1024)).length = 264 + (setup.take 1024).length := by
    rw [length_parts, hhw]
  have hne : parts hardwareInfo (setup.take 1024) ≠ [] := List.ne_nil_of_length_pos (by omega)
  obtain ⟨regBlocks, hreg, hcliReg⟩ :=
    @cliReg_keys lib sPub sPri cPub cPri sn hardwareInfo hs hc.pub_fits hinfo regCall
  have hsetup : (setup.take 1024).length ≤ 1024 := List.length_take_le ..
  have hkeyFits := hc.pub_fits
  have hwrite := @writeEncrypted_keys _ _ _ _ hc hne (by omega) (4 * cPub.length) (by omega) keyCall
  refine ⟨_, hcliReg, ?_⟩
  rw [srvBuildKey_keys hs hc.pub_fits hhw hreg setup keyCall, ← hlen]
  split_ifs at hwrite with hroom
  · obtain ⟨blocks, hblocks, heq⟩ := hwrite
    rw [heq]
    refine ⟨iff_of_true rfl hroom, fun key hkey sn' => ?_⟩
    obtain rfl := Option.some.inj hkey
    rw [hinfo]
    exact cliVerify_keys hc hhw hsetup hblocks sn'
  · rw [hwrite]
    refine ⟨iff_of_false Bool.false_ne_true hroom, fun key hkey => ?_⟩
    cases hkey

end Flow

/-- A key as long as a stored one of 1024 bits. -/
def someKey (b : Byte) : List Byte := List.replicate 140 b

theorem length_someKey (b : Byte) : (someKey b).length = 140 := List.length_replicate

theorem keys_someKey (b c : Byte) : Keys plainLib (someKey b) (someKey c) where
  toPair := plainLib_pair (List.cons_ne_nil _ _) (List.cons_ne_nil _ _)
  pub_fits := by
    rw [length_someKey]
    decide
  pri_fits := by
    rw [length_someKey]
    decide

/-- Two bytes of set-up data, on the device they are for and on another one. -/
theorem licence_iff_two :
    ∃ reg key, cliReg plainLib [1] (someKey 3) (someKey 4) (some (rsaWriteFile (someKey 1))) 0 =
        some (rsaWriteFile (someKey 4), reg) ∧
      srvBuildKey plainLib (some reg) (some (rsaWriteFile (someKey 2))) (some [0x38, 0x0a]) 0 = some key ∧
      cliVerify plainLib (some key) (some (rsaWriteFile (someKey 4))) [1] = some [0x38, 0x0a] ∧
      cliVerify plainLib (some key) (some (rsaWriteFile (someKey 4))) [2] = none := by
  obtain ⟨reg, hreg, hbuilt, hverify⟩ := licence_iff (keys_someKey 1 2) (keys_someKey 3 4)
    (List.cons_ne_nil 1 []) [0x38, 0x0a] 0 0
  rw [length_someKey] at hbuilt
  obtain ⟨key, hkey⟩ := Option.isSome_iff_exists.mp (hbuilt.mpr (by decide))
  refine ⟨reg, key, hreg, hkey, ?_, ?_⟩
  · rw [hverify key hkey, if_pos rfl]
    rfl
  · rw [hverify key hkey, if_neg (by decide)]

end Rsa

end ReachEdukit
