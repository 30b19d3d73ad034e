import ReachEdukit.Rtp.RoundTrip

/-!
# The parameter sets of a key frame

For every key frame of the encoder, `rtsp_porting_video_filter_sdp_info` looks for three start codes and
keeps what stands behind the first two for the session descriptions: a sequence and a picture parameter
set, of 64 bytes at most.

The length of the first is the place of the second code. The length of the second is counted to the place
of the third; but if this is above 64, the function uses 24 in its place. Then what it keeps of the second
set is too short, or the length is negative and the copy runs away.

## Main definitions

* `codePlaces` — where the start codes are
* `rtspPortingVideoFilterSdpInfo` — the function
* `KeyFrame` — a buffer of two parameter sets and a slice
* `Extracts` — what is asked of the function

## Main results

* `scanCodes_eq` — the loop finds the places of the codes
* `extracts_iff` — when the function does what is asked of it
-/

namespace ReachEdukit

namespace Enc

open Memory

open Rtp (Byte Buffer startsWithCode startCode startsWithCode_append)

/-! ### The store -/

/-- `MAX_SPS_INFO_LEN`. -/
def maxSpsInfoLen : ℕ := 64

/-- `MAX_VIDEO_SDP_NUM`. -/
def maxVideoSdpNum : ℕ := 4

/-- `H264_HEADER_LEN`. -/
def h264HeaderLen : ℕ := 0x40

/-- The two kinds of parameter sets. -/
inductive SetKind
  | sps
  | pps
  deriving DecidableEq, Repr

/-- A parameter set that is kept: `sps_info` and `sps_info_len`, or those of the other kind. -/
structure ParameterSet where
  info : Buffer
  len : ℕ

/-- `RTSP_SDP_VINFO`. -/
structure VideoSdpInfo where
  width : BitVec 32
  height : BitVec 32
  sdpFlag : BitVec 32
  sets : SetKind → ParameterSet

/-- `g_video_sinfo`, and whether `g_rtsp_video_sdp_mutex` has been made. -/
structure SdpStore where
  mutex : Bool
  info : ℕ → VideoSdpInfo

/-- An entry is changed, under the mutex. -/
def SdpStore.modify (s : SdpStore) (id : ℕ) (f : VideoSdpInfo → VideoSdpInfo) : SdpStore :=
  if s.mutex then { s with info := Function.update s.info id (f (s.info id)) } else s

/-- Keep `len` bytes from `start` on; `none` when the copy leaves the buffer or the array. -/
def setInfo (kind : SetKind) (pdata : List Byte) (start : ℕ) (len : ℤ) (id : ℕ) (s : SdpStore) :
    Option SdpStore :=
  if ¬ s.mutex ∨ maxSpsInfoLen < len then some s
  else
    (memcpy ((s.info id).sets kind).info maxSpsInfoLen 0 (ofList 0 pdata) pdata.length start len).map
      fun m => s.modify id fun v => { v with sets := Function.update v.sets kind ⟨m, len.toNat⟩ }

/-- `rtsp_porting_set_sps_info`. -/
def rtspPortingSetSpsInfo : List Byte → ℕ → ℤ → ℕ → SdpStore → Option SdpStore := setInfo .sps

/-- `rtsp_porting_set_pps_info`. -/
def rtspPortingSetPpsInfo : List Byte → ℕ → ℤ → ℕ → SdpStore → Option SdpStore := setInfo .pps

/-- The function for a kind. -/
def setOf : SetKind → List Byte → ℕ → ℤ → ℕ → SdpStore → Option SdpStore
  | .sps => rtspPortingSetSpsInfo
  | .pps => rtspPortingSetPpsInfo

theorem setOf_eq (kind : SetKind) : setOf kind = setInfo kind := by
  cases kind <;> rfl

/-- `rtsp_porting_set_sdp_flag`. -/
def rtspPortingSetSdpFlag (flag : BitVec 32) (id : ℕ) (s : SdpStore) : SdpStore :=
  s.modify id fun v => { v with sdpFlag := flag }

/-- `rtsp_porting_set_width_height`. -/
def rtspPortingSetWidthHeight (width height : BitVec 32) (id : ℕ) (s : SdpStore) : SdpStore :=
  s.modify id fun v => { v with width := width, height := height }

/-- `rtsp_porting_get_nal_unit_type`. -/
def rtspPortingGetNalUnitType (nalCode : Byte) : ℤ :=
  let nalUnitType := (nalCode &&& 0x1f).toNat
  if (nalUnitType = 7 ∨ nalUnitType = 8) ∧ nalCode &&& 0x60 = 0 then -1 else nalUnitType

/-! ### The function -/

/-- What the loop ends with: the place of `find`, `I_frame_header_length` and `temp_len`. -/
structure Scanned where
  find : ℕ
  count : ℕ
  tempLen : ℕ
  deriving DecidableEq, Repr

/-- The loop over the start codes, with what is left of the buffer. -/
def scanCodes : ℕ → Scanned → List Byte → Scanned
  | 0, r, _ => r
  | fuel + 1, r, rest =>
    if 3 < rest.length then
      if startsWithCode rest then
        let tempLen := if r.count + 1 = 2 then r.find else r.tempLen
        if 3 ≤ r.count + 1 then ⟨r.find, r.count + 1, tempLen⟩
        else scanCodes fuel ⟨r.find + 4, r.count + 1, tempLen⟩ (rest.drop 4)
      else scanCodes fuel ⟨r.find + 1, r.count, r.tempLen⟩ (rest.drop 1)
    else r

/-- What the loop finds in a buffer. -/
def scanned (pdata : List Byte) : Scanned := scanCodes pdata.length ⟨0, 0, 0⟩ pdata

/-- The length that the function goes on with. -/
def headerLen (pdata : List Byte) : ℕ :=
  if h264HeaderLen < (scanned pdata).find then 0x18 else (scanned pdata).find

/-- A parameter set that the function keeps, or tries to. -/
structure SdpCall where
  kind : SetKind
  start : ℕ
  len : ℤ
  deriving DecidableEq, Repr

/-- The call for the unit at a start code, with its length and that of the code. -/
def callFor (pdata : List Byte) (place : ℕ) (naluLen : ℤ) : List SdpCall :=
  if rtspPortingGetNalUnitType (pdata.getD (place + 4) 0) = 7 then [⟨.sps, place + 4, naluLen - 4⟩]
  else if rtspPortingGetNalUnitType (pdata.getD (place + 4) 0) = 8 then
    [⟨.pps, place + 4, naluLen - 4⟩]
  else []

/-- The calls of `rtsp_porting_set_sps_info` and `rtsp_porting_set_pps_info`. -/
def sdpCalls (pdata : List Byte) : List SdpCall :=
  if (scanned pdata).count < 3 then []
  else callFor pdata 0 (scanned pdata).tempLen ++
    callFor pdata (scanned pdata).tempLen (headerLen pdata - (scanned pdata).tempLen)

/-- `rtsp_porting_video_filter_sdp_info`, and what it returns. -/
def rtspPortingVideoFilterSdpInfo (pdata : List Byte) (width height : BitVec 32) (id : ℕ)
    (s : SdpStore) : Option (SdpStore × ℤ) :=
  if maxVideoSdpNum ≤ id then some (s, -1)
  else
    let s := if (s.info id).width ≠ width ∨ (s.info id).height ≠ height then
      rtspPortingSetWidthHeight width height id s else s
    if (scanned pdata).count < 3 then some (s, headerLen pdata)
    else
      ((sdpCalls pdata).foldlM (fun s c => setOf c.kind pdata c.start c.len id s) s).map fun s =>
        (rtspPortingSetSdpFlag 1 id s, headerLen pdata)

/-! ### What is asked of it -/

/-- The places of the start codes. -/
def codePlaces (pdata : List Byte) : List ℕ :=
  (List.range pdata.length).filter fun i => startsWithCode (pdata.drop i)

/-- A unit that is kept: its first byte has the type, and a reference idc that is not 0; it is not too
long, and there is no start code in it. -/
structure IsSet (type : Byte) (nal : List Byte) : Prop where
  /-- The first byte. -/
  head : ∃ b bs, nal = b :: bs ∧ b &&& 0x1f = type ∧ b &&& 0x60 ≠ 0
  /-- The length. -/
  short : nal.length ≤ maxSpsInfoLen
  /-- It is one unit. -/
  noCode : ¬ startCode <:+: nal

/-- A buffer of a sequence parameter set, a picture parameter set and a slice. -/
structure KeyFrame (pdata sps pps slice : List Byte) : Prop where
  /-- The bytes. -/
  bytes : pdata = startCode ++ sps ++ (startCode ++ pps) ++ (startCode ++ slice)
  /-- The first unit. -/
  isSps : IsSet 7 sps
  /-- The second one. -/
  isPps : IsSet 8 pps
  /-- The third one is one unit. -/
  noCode : ¬ startCode <:+: slice

/-- The bytes are kept, with their length. -/
def Stored (s : SdpStore) (id : ℕ) (kind : SetKind) (bs : List Byte) : Prop :=
  ((s.info id).sets kind).len = bs.length ∧ window ((s.info id).sets kind).info 0 bs.length = bs

/-- What is asked: the sets of a key frame are kept; the lengths of the sets are those of parts of the
buffer; and with fewer than three start codes nothing is kept. -/
structure Extracts (pdata : List Byte) (width height : BitVec 32) (id : ℕ) (s : SdpStore) :
    Prop where
  /-- A key frame. -/
  stored : ∀ sps pps slice, KeyFrame pdata sps pps slice →
    ∃ s' len, rtspPortingVideoFilterSdpInfo pdata width height id s = some (s', len) ∧
      Stored s' id .sps sps ∧ Stored s' id .pps pps
  /-- Any buffer. -/
  lengths : ∀ c ∈ sdpCalls pdata, 0 ≤ c.len ∧ c.len ≤ pdata.length
  /-- A buffer with fewer than three codes. -/
  few : (codePlaces pdata).length < 3 →
    ∃ s' len, rtspPortingVideoFilterSdpInfo pdata width height id s = some (s', len) ∧
      ∀ i, (s'.info i).sets = (s.info i).sets

/-! ### The places of the codes -/

variable {pdata rest sps pps slice : List Byte}

theorem codePlaces_nil : codePlaces [] = [] := rfl

theorem codePlaces_cons (x : Byte) (xs : List Byte) :
    codePlaces (x :: xs) =
      if startsWithCode (x :: xs) then 0 :: (codePlaces xs).map (· + 1)
      else (codePlaces xs).map (· + 1) := by
  have htail : (List.map Nat.succ (List.range xs.length)).filter
      (fun i => startsWithCode ((x :: xs).drop i)) = (codePlaces xs).map (· + 1) := by
    rw [List.filter_map]
    rfl
  rw [codePlaces, List.length_cons, List.range_succ_eq_map, List.filter_cons, htail]
  rfl

/-- Behind the start of a code there is none for three places. -/
theorem codePlaces_of_code (h : startsWithCode rest = true) :
    codePlaces rest = 0 :: (codePlaces (rest.drop 4)).map (· + 4) := by
  obtain ⟨tail, rfl⟩ : ∃ tail, rest = 0 :: 0 :: 0 :: 1 :: tail := by
    rw [startsWithCode, beq_iff_eq] at h
    refine ⟨rest.drop 4, ?_⟩
    rw [← List.take_append_drop 4 rest, h]
    rfl
  have htwo : startsWithCode (0 :: 0 :: 1 :: tail) = false := by
    cases tail <;> rfl
  have hone : startsWithCode (0 :: 1 :: tail) = false := by
    rcases tail with _ | ⟨_, _ | _⟩ <;> rfl
  have hzero : startsWithCode (1 :: tail) = false := by
    rcases tail with _ | ⟨_, _ | ⟨_, _ | _⟩⟩ <;> rfl
  rw [codePlaces_cons, if_pos h, codePlaces_cons, htwo, codePlaces_cons, hone, codePlaces_cons, hzero]
  simp [List.map_map, Function.comp_def]

/-- The places are four bytes apart, and a code ends in the buffer. -/
theorem codePlaces_apart (pdata : List Byte) :
    (codePlaces pdata).Pairwise (fun p q => p + 4 ≤ q) ∧
      ∀ p ∈ codePlaces pdata, p + 4 ≤ pdata.length := by
  induction hn : pdata.length using Nat.strong_induction_on generalizing pdata with
  | _ n ih =>
    subst hn
    cases pdata with
    | nil => exact ⟨List.Pairwise.nil, by simp [codePlaces_nil]⟩
    | cons x xs =>
      by_cases hcode : startsWithCode (x :: xs) = true
      · have hlong : 4 ≤ (x :: xs).length := by
          rw [startsWithCode, beq_iff_eq] at hcode
          have hlen := congrArg List.length hcode
          rw [List.length_take] at hlen
          simp only [List.length_cons, List.length_nil] at hlen ⊢
          omega
        have hdrop : ((x :: xs).drop 4).length = (x :: xs).length - 4 := List.length_drop
        obtain ⟨hapart, hinside⟩ := ih _ (by omega) ((x :: xs).drop 4) rfl
        rw [codePlaces_of_code hcode, List.pairwise_cons, List.forall_mem_cons]
        refine ⟨⟨?_, ?_⟩, by omega, ?_⟩
        · intro q hq
          obtain ⟨p, -, rfl⟩ := List.mem_map.mp hq
          omega
        · exact List.pairwise_map.mpr (hapart.imp fun h => by omega)
        · intro q hq
          obtain ⟨p, hp, rfl⟩ := List.mem_map.mp hq
          have hle := hinside p hp
          omega
      · obtain ⟨hapart, hinside⟩ := ih _ (by simp) xs rfl
        rw [codePlaces_cons, if_neg hcode]
        refine ⟨List.pairwise_map.mpr (hapart.imp fun h => by omega), fun q hq => ?_⟩
        obtain ⟨p, hp, rfl⟩ := List.mem_map.mp hq
        have hle := hinside p hp
        rw [List.length_cons]
        omega

/-- What does not hold a code moves the codes behind it. -/
theorem codePlaces_append {xs tail : List Byte} (h : ¬ startCode <:+: xs) :
    codePlaces (xs ++ (startCode ++ tail)) =
      (codePlaces (startCode ++ tail)).map (· + xs.length) := by
  induction xs with
  | nil => exact (List.map_id _).symm
  | cons x xs ih =>
    have hno : ¬ startCode <:+: xs := fun hi => h (hi.trans (List.suffix_cons x xs).isInfix)
    have hhere : startsWithCode (x :: xs ++ (startCode ++ tail)) = false :=
      startsWithCode_append (List.cons_ne_nil x xs) h
    rw [List.cons_append] at hhere ⊢
    rw [codePlaces_cons, hhere, if_neg Bool.false_ne_true, ih hno, List.map_map]
    refine List.map_congr_left fun p _ => ?_
    rw [Function.comp, List.length_cons]
    omega

theorem codePlaces_startCode (tail : List Byte) :
    codePlaces (startCode ++ tail) = 0 :: (codePlaces tail).map (· + 4) := by
  have hcode : startsWithCode (startCode ++ tail) = true := by
    simp [startsWithCode, startCode]
  rw [codePlaces_of_code hcode]
  rfl

/-- **The codes of a key frame.** -/
theorem KeyFrame.codePlaces (h : KeyFrame pdata sps pps slice) :
    ∃ ps, Enc.codePlaces pdata = 0 :: (4 + sps.length) :: (8 + sps.length + pps.length) :: ps := by
  have hbytes : pdata = startCode ++ (sps ++ (startCode ++ (pps ++ (startCode ++ slice)))) := by
    rw [h.bytes]
    simp only [List.append_assoc]
  rw [hbytes, codePlaces_startCode, codePlaces_append h.isSps.noCode, codePlaces_startCode,
    codePlaces_append h.isPps.noCode, codePlaces_startCode]
  simp only [List.map_cons, List.cons.injEq, true_and]
  exact ⟨_, by omega, by omega, rfl⟩

/-! ### The loop -/

/-- What the loop has to end with, for the places that it still finds; with too few of them it ends at
`stop`. -/
def afterPlaces (stop : ℕ) (r : Scanned) : List ℕ → Scanned
  | [] => { r with find := stop }
  | p :: ps =>
    let tempLen := if r.count + 1 = 2 then p else r.tempLen
    if 3 ≤ r.count + 1 then ⟨p, r.count + 1, tempLen⟩
    else afterPlaces stop ⟨p, r.count + 1, tempLen⟩ ps

/-- Where the loop is does not matter. -/
theorem afterPlaces_find (stop find find' count tempLen : ℕ) (ps : List ℕ) :
    afterPlaces stop ⟨find, count, tempLen⟩ ps = afterPlaces stop ⟨find', count, tempLen⟩ ps := by
  cases ps <;> rfl

/-- **The loop** finds the places of the codes. -/
theorem scanCodes_eq {fuel : ℕ} (r : Scanned) (hfuel : rest.length ≤ fuel) :
    ∃ stop, scanCodes fuel r rest = afterPlaces stop r ((codePlaces rest).map (r.find + ·)) := by
  induction fuel generalizing r rest with
  | zero =>
    rw [List.length_eq_zero_iff.mp (Nat.le_zero.mp hfuel)]
    exact ⟨r.find, rfl⟩
  | succ fuel ih =>
    rw [scanCodes]
    by_cases hlong : 3 < rest.length
    · rw [if_pos hlong]
      by_cases hcode : startsWithCode rest = true
      · obtain ⟨stop, hnext⟩ := @ih (rest.drop 4)
          ⟨r.find + 4, r.count + 1, if r.count + 1 = 2 then r.find else r.tempLen⟩
          (by rw [List.length_drop]; omega)
        refine ⟨stop, ?_⟩
        rw [if_pos hcode, codePlaces_of_code hcode, List.map_cons, afterPlaces]
        refine if_congr Iff.rfl rfl (hnext.trans ?_)
        rw [List.map_map, afterPlaces_find stop (r.find + 4) r.find]
        refine congrArg _ (List.map_congr_left fun p _ => ?_)
        change r.find + 4 + p = r.find + (p + 4)
        omega
      · have hpos : 0 < rest.length := by omega
        obtain ⟨x, xs, rfl⟩ := List.exists_cons_of_ne_nil (List.ne_nil_of_length_pos hpos)
        obtain ⟨stop, hnext⟩ := @ih xs ⟨r.find + 1, r.count, r.tempLen⟩ (Nat.le_of_succ_le_succ hfuel)
        refine ⟨stop, ?_⟩
        rw [if_neg hcode, codePlaces_cons, if_neg hcode]
        refine hnext.trans ?_
        rw [List.map_map, afterPlaces_find stop (r.find + 1) r.find]
        refine congrArg _ (List.map_congr_left fun p _ => ?_)
        change r.find + 1 + p = r.find + (p + 1)
        omega
    · -- No code fits what is left.
      have hnone : codePlaces rest = [] := by
        rw [List.eq_nil_iff_forall_not_mem]
        intro p hp
        have hle := (codePlaces_apart rest).2 p hp
        omega
      rw [if_neg hlong, hnone]
      exact ⟨r.find, rfl⟩

/-- With three codes the loop ends at the third. -/
theorem scanned_of_three {p₁ p₂ p₃ : ℕ} {ps : List ℕ} (h : codePlaces pdata = p₁ :: p₂ :: p₃ :: ps) :
    scanned pdata = ⟨p₃, 3, p₂⟩ := by
  obtain ⟨stop, hstop⟩ := scanCodes_eq ⟨0, 0, 0⟩ (le_refl pdata.length)
  rw [scanned, hstop, h]
  simp [afterPlaces]

/-- With fewer it counts them. -/
theorem scanned_of_few (h : (codePlaces pdata).length < 3) : (scanned pdata).count < 3 := by
  obtain ⟨stop, hstop⟩ := scanCodes_eq ⟨0, 0, 0⟩ (le_refl pdata.length)
  rw [scanned, hstop]
  rcases hplaces : codePlaces pdata with _ | ⟨p₁, _ | ⟨p₂, _ | ⟨p₃, ps⟩⟩⟩
  · simp [afterPlaces]
  · simp [afterPlaces]
  · simp [afterPlaces]
  · rw [hplaces] at h
    simp only [List.length_cons] at h
    omega

/-! ### The calls -/

variable {p₁ p₂ p₃ : ℕ} {ps : List ℕ} {s : SdpStore} {id : ℕ} {width height : BitVec 32}

/-- The length that the function takes for the place of the third code. -/
def endOf (p₃ : ℕ) : ℕ := if h264HeaderLen < p₃ then 0x18 else p₃

theorem sdpCalls_of_three (h : codePlaces pdata = p₁ :: p₂ :: p₃ :: ps) :
    sdpCalls pdata = callFor pdata 0 p₂ ++ callFor pdata p₂ (endOf p₃ - p₂) := by
  rw [sdpCalls, headerLen, scanned_of_three h]
  exact if_neg (Nat.lt_irrefl 3)

theorem sdpCalls_of_few (h : (codePlaces pdata).length < 3) : sdpCalls pdata = [] :=
  if_pos (scanned_of_few h)

/-- The unit at a start code is a parameter set with a reference idc that is not 0. -/
def SetAt (pdata : List Byte) (place : ℕ) : Prop :=
  rtspPortingGetNalUnitType (pdata.getD (place + 4) 0) = 7 ∨
    rtspPortingGetNalUnitType (pdata.getD (place + 4) 0) = 8

instance (pdata : List Byte) (place : ℕ) : Decidable (SetAt pdata place) :=
  inferInstanceAs (Decidable (_ ∨ _))

/-- There is a call for such a unit, with its length. -/
theorem forall_mem_callFor {place : ℕ} {naluLen : ℤ} {P : ℤ → Prop} :
    (∀ c ∈ callFor pdata place naluLen, P c.len) ↔ (SetAt pdata place → P (naluLen - 4)) := by
  rw [callFor, SetAt]
  generalize rtspPortingGetNalUnitType (pdata.getD (place + 4) 0) = type
  split_ifs with hsps hpps
  · simp [hsps]
  · simp [hpps]
  · simp [hsps, hpps]

/-- **The lengths** are those of parts of the buffer exactly when the end is not taken for a place before
that of the second unit. -/
theorem lengths_iff (h : codePlaces pdata = p₁ :: p₂ :: p₃ :: ps) :
    (∀ c ∈ sdpCalls pdata, 0 ≤ c.len ∧ c.len ≤ pdata.length) ↔
      (p₃ ≤ h264HeaderLen ∨ p₂ ≤ 20 ∨ ¬ SetAt pdata p₂) := by
  obtain ⟨hapart, hinside⟩ := codePlaces_apart pdata
  rw [h] at hapart hinside
  have hone : p₁ + 4 ≤ p₂ := (List.pairwise_cons.mp hapart).1 p₂ (List.mem_cons_self ..)
  have htwo : p₂ + 4 ≤ p₃ :=
    (List.pairwise_cons.mp (List.pairwise_cons.mp hapart).2).1 p₃ (List.mem_cons_self ..)
  have hthree : p₃ + 4 ≤ pdata.length := hinside p₃ (by simp)
  have hlimit : h264HeaderLen = 64 := rfl
  rw [sdpCalls_of_three h, List.forall_mem_append,
    forall_mem_callFor (P := fun len => 0 ≤ len ∧ len ≤ pdata.length),
    forall_mem_callFor (P := fun len => 0 ≤ len ∧ len ≤ pdata.length), endOf]
  constructor
  · rintro ⟨-, hsecond⟩
    by_contra hnot
    rw [not_or, not_or, not_not] at hnot
    have hlen := (hsecond hnot.2.2).1
    rw [if_pos (by omega)] at hlen
    omega
  · intro hcases
    refine ⟨fun _ => by omega, fun hset => ?_⟩
    split_ifs with hfar
    · obtain hnear | hnear | hnone := hcases
      · omega
      · omega
      · exact absurd hset hnone
    · omega

/-! ### What is kept -/

theorem modify_of_mutex (hmutex : s.mutex = true) (id : ℕ) (f : VideoSdpInfo → VideoSdpInfo) :
    s.modify id f = { s with info := Function.update s.info id (f (s.info id)) } :=
  if_pos hmutex

theorem mutex_modify (s : SdpStore) (id : ℕ) (f : VideoSdpInfo → VideoSdpInfo) :
    (s.modify id f).mutex = s.mutex := by
  rw [SdpStore.modify]
  split_ifs <;> rfl

theorem sets_modify (s : SdpStore) {f : VideoSdpInfo → VideoSdpInfo} (hf : ∀ v, (f v).sets = v.sets)
    (id i : ℕ) : ((s.modify id f).info i).sets = (s.info i).sets := by
  rw [SdpStore.modify]
  split_ifs
  · by_cases hi : i = id
    · subst hi
      simp only [Function.update_self, hf]
    · simp only [Function.update_of_ne hi]
  · rfl

theorem sets_setSdpFlag (flag : BitVec 32) (s : SdpStore) (id i : ℕ) :
    ((rtspPortingSetSdpFlag flag id s).info i).sets = (s.info i).sets := by
  rw [rtspPortingSetSdpFlag, sets_modify]
  exact fun _ => rfl

theorem sets_setWidthHeight (width height : BitVec 32) (s : SdpStore) (id i : ℕ) :
    ((rtspPortingSetWidthHeight width height id s).info i).sets = (s.info i).sets := by
  rw [rtspPortingSetWidthHeight, sets_modify]
  exact fun _ => rfl

/-- A set that is part of the buffer and not too long is kept. -/
theorem setInfo_of_le (hmutex : s.mutex = true) (kind : SetKind) {start len : ℕ}
    (hlen : len ≤ maxSpsInfoLen) (hpart : start + len ≤ pdata.length) (id : ℕ) :
    ∃ s', setInfo kind pdata start len id s = some s' ∧ s'.mutex = true ∧
      Stored s' id kind ((pdata.drop start).take len) ∧
      ∀ k, k ≠ kind → (s'.info id).sets k = (s.info id).sets k := by
  have hlength : ((pdata.drop start).take len).length = len := by
    rw [List.length_take, List.length_drop]
    omega
  have hcopy := @memcpy_natCast Byte ((s.info id).sets kind).info (ofList 0 pdata) maxSpsInfoLen 0
    pdata.length start len (by omega) hpart
  rw [window_ofList 0 hpart] at hcopy
  have hkept : setInfo kind pdata start len id s = some (s.modify id fun v =>
      { v with sets := Function.update v.sets kind (.mk
          (blit ((s.info id).sets kind).info 0 ((pdata.drop start).take len)) (len : ℤ).toNat) }) := by
    have hright : ¬ (¬ s.mutex ∨ (maxSpsInfoLen : ℤ) < len) := by
      rw [hmutex]
      simp only [not_true_eq_false, false_or]
      omega
    rw [setInfo, if_neg hright, hcopy]
    rfl
  refine ⟨_, hkept, (mutex_modify ..).trans hmutex, ?_, ?_⟩
  · rw [Stored, hlength, modify_of_mutex hmutex]
    simp only [Function.update_self]
    refine ⟨Int.toNat_natCast len, ?_⟩
    have hread := window_blit_self ((s.info id).sets kind).info 0 ((pdata.drop start).take len)
    rwa [hlength] at hread
  · intro k hk
    rw [modify_of_mutex hmutex]
    simp only [Function.update_self]
    exact Function.update_of_ne hk ..

/-- What is kept has the length that it was given, and that is not negative. -/
theorem len_of_setInfo (hmutex : s.mutex = true) {kind : SetKind} {start : ℕ} {len : ℤ}
    (hlen : len ≤ maxSpsInfoLen) {s' : SdpStore} (h : setInfo kind pdata start len id s = some s') :
    0 ≤ len ∧ ((s'.info id).sets kind).len = len.toNat := by
  have hright : ¬ (¬ s.mutex ∨ (maxSpsInfoLen : ℤ) < len) := by
    rw [hmutex]
    simp only [not_true_eq_false, false_or]
    omega
  rw [setInfo, if_neg hright] at h
  obtain ⟨m, hcopy, rfl⟩ := Option.map_eq_some_iff.mp h
  obtain ⟨⟨hpos, -⟩, -⟩ := memcpy_eq_some hcopy
  rw [modify_of_mutex hmutex]
  simp only [Function.update_self]
  exact ⟨hpos, trivial⟩

/-- The function, for an entry that there is. -/
theorem filter_of_lt (hid : id < maxVideoSdpNum) (pdata : List Byte) (width height : BitVec 32)
    (s : SdpStore) :
    ∃ s₁, (s₁.mutex = s.mutex ∧ ∀ i, (s₁.info i).sets = (s.info i).sets) ∧
      rtspPortingVideoFilterSdpInfo pdata width height id s =
        if (scanned pdata).count < 3 then some (s₁, (headerLen pdata : ℤ))
        else ((sdpCalls pdata).foldlM (fun s c => setInfo c.kind pdata c.start c.len id s) s₁).map
          fun s => (rtspPortingSetSdpFlag 1 id s, (headerLen pdata : ℤ)) := by
  simp only [← setOf_eq]
  refine ⟨_, ?_, by rw [rtspPortingVideoFilterSdpInfo, if_neg (Nat.not_le.mpr hid)]⟩
  split_ifs
  · exact ⟨mutex_modify .., fun i => sets_setWidthHeight width height s id i⟩
  · exact ⟨rfl, fun _ => rfl⟩

/-- Nothing is kept with fewer than three codes. -/
theorem few_of_lt (hid : id < maxVideoSdpNum) (h : (codePlaces pdata).length < 3) :
    ∃ s' len, rtspPortingVideoFilterSdpInfo pdata width height id s = some (s', len) ∧
      ∀ i, (s'.info i).sets = (s.info i).sets := by
  obtain ⟨s₁, ⟨-, hsets⟩, heq⟩ := filter_of_lt hid pdata width height s
  rw [if_pos (scanned_of_few h)] at heq
  exact ⟨s₁, _, heq, hsets⟩

/-! ### Key frames -/

theorem IsSet.nalUnitType {type : Byte} {nal : List Byte} (h : IsSet type nal) (tail : List Byte) :
    rtspPortingGetNalUnitType ((nal ++ tail).getD 0 0) = type.toNat := by
  obtain ⟨b, bs, rfl, hb, hidc⟩ := h.head
  change rtspPortingGetNalUnitType b = _
  rw [rtspPortingGetNalUnitType, hb]
  exact if_neg fun hbad => hidc hbad.2

/-- The calls for a key frame. -/
theorem KeyFrame.sdpCalls (h : KeyFrame pdata sps pps slice) :
    Enc.sdpCalls pdata = [⟨.sps, 4, sps.length⟩,
      ⟨.pps, 8 + sps.length, endOf (8 + sps.length + pps.length) - (8 + sps.length : ℕ)⟩] := by
  obtain ⟨ps, hplaces⟩ := h.codePlaces
  have hfirst : pdata.getD (0 + 4) 0 = (sps ++ (startCode ++ pps ++ (startCode ++ slice))).getD 0 0 := by
    rw [h.bytes, List.append_assoc, List.append_assoc]
    rfl
  have hsecond : pdata.getD (4 + sps.length + 4) 0 = (pps ++ (startCode ++ slice)).getD 0 0 := by
    have hlen : (startCode ++ sps ++ startCode).length = 4 + sps.length + 4 := by
      simp only [List.length_append]
      rfl
    rw [h.bytes, List.getD_eq_getElem?_getD, List.getD_eq_getElem?_getD, ← hlen]
    have hsplit : startCode ++ sps ++ (startCode ++ pps) ++ (startCode ++ slice) =
        startCode ++ sps ++ startCode ++ (pps ++ (startCode ++ slice)) := by
      simp only [List.append_assoc]
    rw [hsplit, List.getElem?_append_right le_rfl, Nat.sub_self]
  rw [sdpCalls_of_three hplaces, callFor, callFor, hfirst, hsecond,
    h.isSps.nalUnitType, h.isPps.nalUnitType]
  have hseven : (((7 : Byte).toNat : ℕ) : ℤ) = 7 := rfl
  have height : (((8 : Byte).toNat : ℕ) : ℤ) = 8 := rfl
  rw [hseven, height, if_pos rfl, if_neg (by norm_num), if_pos rfl, List.singleton_append]
  simp only [List.cons.injEq, SdpCall.mk.injEq, true_and, and_true]
  push_cast
  omega

theorem KeyFrame.length (h : KeyFrame pdata sps pps slice) :
    pdata.length = 8 + sps.length + pps.length + (4 + slice.length) := by
  rw [h.bytes]
  simp only [List.length_append]
  change 4 + sps.length + (4 + pps.length) + (4 + slice.length) = _
  omega

/-- The first unit of a key frame. -/
theorem KeyFrame.take_sps (h : KeyFrame pdata sps pps slice) :
    (pdata.drop 4).take sps.length = sps := by
  rw [h.bytes, List.append_assoc, List.append_assoc]
  exact List.take_left' rfl

/-- The second one. -/
theorem KeyFrame.take_pps (h : KeyFrame pdata sps pps slice) :
    (pdata.drop (8 + sps.length)).take pps.length = pps := by
  have hsplit : pdata = startCode ++ sps ++ startCode ++ (pps ++ (startCode ++ slice)) := by
    rw [h.bytes]
    simp only [List.append_assoc]
  have hlen : (startCode ++ sps ++ startCode).length = 8 + sps.length := by
    simp only [List.length_append]
    change 4 + sps.length + 4 = _
    omega
  rw [hsplit, List.drop_left' hlen]
  exact List.take_left' rfl

/-- **A key frame** is kept exactly when its third code is not too far. -/
theorem KeyFrame.stored_iff (h : KeyFrame pdata sps pps slice) (hid : id < maxVideoSdpNum)
    (hmutex : s.mutex = true) :
    (∃ s' len, rtspPortingVideoFilterSdpInfo pdata width height id s = some (s', len) ∧
      Stored s' id .sps sps ∧ Stored s' id .pps pps) ↔
      8 + sps.length + pps.length ≤ h264HeaderLen := by
  obtain ⟨ps, hplaces⟩ := h.codePlaces
  obtain ⟨s₁, ⟨hmutex₁, -⟩, heq⟩ := filter_of_lt hid pdata width height s
  rw [hmutex] at hmutex₁
  rw [scanned_of_three hplaces, if_neg (Nat.lt_irrefl 3), h.sdpCalls, List.foldlM_cons] at heq
  simp only [List.foldlM_cons, List.foldlM_nil, bind_pure] at heq
  have hlength := h.length
  obtain ⟨s₂, hsps, hmutex₂, hstored, -⟩ :=
    setInfo_of_le hmutex₁ .sps h.isSps.short (by omega : 4 + sps.length ≤ pdata.length) id
  rw [h.take_sps] at hstored
  rw [hsps, Option.bind_eq_bind, Option.bind_some] at heq
  have hlimit : h264HeaderLen = 64 := rfl
  constructor
  · rintro ⟨s', len, hrun, -, hpps, -⟩
    by_contra hfar
    rw [hrun] at heq
    obtain ⟨s₃, hcall, hs'⟩ := Option.map_eq_some_iff.mp heq.symm
    have hend : endOf (8 + sps.length + pps.length) = 24 := if_pos (by omega)
    rw [hend] at hcall
    obtain ⟨hpos, hlen⟩ := len_of_setInfo hmutex₂ (by rw [maxSpsInfoLen]; omega) hcall
    have hkept : ((s'.info id).sets .pps).len = ((s₃.info id).sets .pps).len := by
      rw [← (Prod.mk.inj hs').1, sets_setSdpFlag]
    rw [hkept, hlen] at hpps
    omega
  · intro hnear
    have hend : endOf (8 + sps.length + pps.length) = 8 + sps.length + pps.length :=
      if_neg (by omega)
    have hdiff : ((endOf (8 + sps.length + pps.length) : ℕ) : ℤ) - (8 + sps.length : ℕ) =
        pps.length := by
      rw [hend]
      push_cast
      omega
    obtain ⟨s₃, hpps, -, hstored', hother⟩ :=
      setInfo_of_le hmutex₂ .pps h.isPps.short (by omega : 8 + sps.length + pps.length ≤ pdata.length) id
    rw [h.take_pps] at hstored'
    rw [hdiff, hpps] at heq
    refine ⟨_, _, heq, ?_, ?_⟩
    · rw [Stored, sets_setSdpFlag, hother .sps (by decide)]
      exact hstored
    · rw [Stored, sets_setSdpFlag]
      exact hstored'

/-! ### The result -/

/-- The buffer has fewer than three codes, or the third one is not too far; or, if it is, the second
one is near the start or has no parameter set, and the buffer is no key frame. -/
def Extractable (pdata : List Byte) : Prop :=
  ∀ p₁ p₂ p₃ ps, codePlaces pdata = p₁ :: p₂ :: p₃ :: ps →
    p₃ ≤ h264HeaderLen ∨
      (p₂ ≤ 20 ∨ ¬ SetAt pdata p₂) ∧ ¬ ∃ sps pps slice, KeyFrame pdata sps pps slice

/-- **The parameter sets** are kept as they should be exactly when the buffer is of that kind. -/
theorem extracts_iff (pdata : List Byte) (width height : BitVec 32) (hid : id < maxVideoSdpNum)
    (hmutex : s.mutex = true) : Extracts pdata width height id s ↔ Extractable pdata := by
  constructor
  · intro h p₁ p₂ p₃ ps hplaces
    obtain hnear | hrest := (lengths_iff hplaces).mp h.lengths
    · exact Or.inl hnear
    · by_cases hkey : ∃ sps pps slice, KeyFrame pdata sps pps slice
      · left
        obtain ⟨sps, pps, slice, hkey⟩ := hkey
        obtain ⟨ps', hplaces'⟩ := hkey.codePlaces
        rw [hplaces] at hplaces'
        simp only [List.cons.injEq] at hplaces'
        rw [hplaces'.2.2.1]
        exact (hkey.stored_iff hid hmutex).mp (h.stored sps pps slice hkey)
      · exact Or.inr ⟨hrest, hkey⟩
  · intro h
    refine ⟨fun sps pps slice hkey => ?_, ?_, few_of_lt hid⟩
    · obtain ⟨ps, hplaces⟩ := hkey.codePlaces
      obtain hnear | hnone := h _ _ _ _ hplaces
      · exact (hkey.stored_iff hid hmutex).mpr hnear
      · exact absurd ⟨sps, pps, slice, hkey⟩ hnone.2
    · rcases hplaces : codePlaces pdata with _ | ⟨p₁, _ | ⟨p₂, _ | ⟨p₃, ps⟩⟩⟩
      · rw [sdpCalls_of_few (by rw [hplaces]; decide)]
        simp
      · rw [sdpCalls_of_few (by rw [hplaces]; exact (by decide : 1 < 3))]
        simp
      · rw [sdpCalls_of_few (by rw [hplaces]; exact (by decide : 2 < 3))]
        simp
      · refine (lengths_iff hplaces).mpr ?_
        obtain hnear | hnone := h _ _ _ _ hplaces
        · exact Or.inl hnear
        · exact Or.inr hnone.1

/-- A key frame with parameter sets of the given lengths, and one more byte each. -/
def sampleFrame (spsLen ppsLen : ℕ) : List Byte :=
  startCode ++ (0x67 :: List.replicate spsLen 0x64) ++ (startCode ++ (0x68 :: List.replicate ppsLen 0xee)) ++
    (startCode ++ [0x65, 0x88])

/-- An empty store. -/
def sampleStore : SdpStore := ⟨true, fun _ => ⟨0, 0, 0, fun _ => ⟨fun _ => 0, 0⟩⟩⟩

/-- Parameter sets of 8 and 4 bytes. -/
theorem extracts_iff_sample :
    Extracts (sampleFrame 7 3) 1280 720 1 sampleStore ↔ Extractable (sampleFrame 7 3) :=
  extracts_iff (sampleFrame 7 3) 1280 720 (by decide) rfl

theorem keyFrame_sampleFrame :
    KeyFrame (sampleFrame 20 36) (0x67 :: List.replicate 20 0x64) (0x68 :: List.replicate 36 0xee)
      [0x65, 0x88] where
  bytes := rfl
  isSps := ⟨⟨0x67, _, rfl, by decide, by decide⟩, by decide, by decide +kernel⟩
  isPps := ⟨⟨0x68, _, rfl, by decide, by decide⟩, by decide, by decide +kernel⟩
  noCode := by decide +kernel

/-- **Parameter sets of 21 and 37 bytes** are not kept as they should be: the length of the second is
negative. -/
theorem not_extracts_sample :
    ¬ Extracts (sampleFrame 20 36) 1280 720 1 sampleStore ∧
      ⟨.pps, 29, -5⟩ ∈ sdpCalls (sampleFrame 20 36) := by
  have hcall : (⟨.pps, 29, -5⟩ : SdpCall) ∈ sdpCalls (sampleFrame 20 36) := by
    rw [keyFrame_sampleFrame.sdpCalls]
    decide +kernel
  refine ⟨fun h => ?_, hcall⟩
  exact absurd (h.lengths _ hcall).1 (by decide)

end Enc

end ReachEdukit
