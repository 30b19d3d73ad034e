import ReachEdukit.Rtsp.Gate

/-!
# A `SETUP` request and its response

The response to `SETUP` has the `Transport` value of the request, which has its ports already, and behind
that a row of ports again: not the row that the request was stored in, but the one whose turn it is. The
turn goes from one row to the other with every `SETUP`.

A request is taken apart here by what its text is, and the scanners are read as what they find in it. So
what is stored and what is answered are texts, without the arrays in between.

## Main definitions

* `Setup` — a `SETUP` that is well formed
* `storedRow` — what is stored for a track

## Main results

* `Setup.getClientPort_eq`, `Setup.praseSetupMsg_eq` — what the scanners find
* `setupText_eq` — the response as a text
* `Setup.responseSetup_eq` — what a `SETUP` stores and answers
-/

namespace ReachEdukit

namespace Rtsp

open Scan

/-! ### Requests -/

/-- A decimal digit. -/
def isDigit (b : Byte) : Bool := 0x30 ≤ b && b ≤ 0x39

/-- The number of some digits. -/
def number (digits : Text) : ℕ := Nat.ofDigits 10 (digits.reverse.map fun b => b.toNat - 0x30)

/-- The tracks. -/
inductive Track
  | video
  | audio
  deriving DecidableEq, Repr

/-- `VIDEO_TRACKID` and `AUDIO_TRACKID`, as digits. -/
def Track.digit : Track → Byte
  | .video => 0x31
  | .audio => 0x32

/-- The row of a track. -/
def Track.row : Track → Fin 3
  | .video => videoRow
  | .audio => audioRow

/-- A range `a-b`. -/
structure Ports where
  first : Text
  second : Text
  first_ne : first ≠ []
  second_ne : second ≠ []
  first_digits : ∀ b ∈ first, isDigit b = true
  second_digits : ∀ b ∈ second, isDigit b = true
  length_le : first.length + 1 + second.length ≤ 19

/-- Its text. -/
def Ports.text (ports : Ports) : Text := ports.first ++ 0x2d :: ports.second

/-- The word in front of the track. -/
def trackWord : Text := ascii "/trackID="

variable (env : Env)

/-- A request that `RtspVlcContact` takes for `SETUP`. -/
def Request.IsSetup (r : Request) : Prop :=
  CseqFits r.text ∧ requestType (r.text.length - 7) r.text = some .setup ∧
    cseqNumber env.conv r.text ≤ 65535

/-- A `SETUP` that is well formed: a track, and a `Transport` value with one range. -/
structure Setup where
  arrival : Arrival
  isSetup : arrival.request.IsSetup env
  track : Track
  ports : Ports
  /-- What stands in front of the header line. -/
  head : Text
  /-- The value in front of `client_port=`. -/
  front : Text
  /-- The value behind the ports. -/
  back : Text
  /-- What stands behind the header line. -/
  tail : Text
  text_eq : arrival.request.text = head ++ (transportWord ++ 0x20 ::
    (front ++ (portWord ++ (ports.text ++ (back ++ cr :: lf :: tail)))))
  /-- The track is the one of the address. -/
  track_eq : ∃ m, firstIndex trackWord arrival.request.text = some m ∧
    arrival.request.text[m + 9]? = some track.digit ∧
    ∀ b, arrival.request.text[m + 10]? = some b → isDigit b = false
  /-- There is no header line in front of it. -/
  transport_first : firstIndex transportWord arrival.request.text = some head.length
  /-- There is one range. -/
  ports_once : portPlaces arrival.request.text = [head.length + 11 + front.length]
  oneLine : ∀ b ∈ front ++ back, b ≠ cr ∧ b ≠ lf
  length_le : (front ++ (portWord ++ (ports.text ++ back))).length ≤ 99
  range_ends : ∀ b ∈ back.head?, isDigit b = false

variable {env}

/-- The `Transport` value. -/
def Setup.value (s : Setup env) : Text := s.front ++ (portWord ++ (s.ports.text ++ s.back))

/-- The range, and what stands behind it up to a semicolon. -/
def Setup.range (s : Setup env) : Text := s.ports.text ++ s.back.takeWhile (· ≠ 0x3b)

/-- That has room in a row, and the request in `tempbuff` of `rtsp_find_trackid`. -/
def Setup.Fits (s : Setup env) : Prop :=
  s.range.length ≤ 20 ∧ s.arrival.request.text.length < 1024

/-- The track whose turn it is after some `SETUP` requests. -/
def turn (n : ℕ) : Track := if n % 2 = 0 then .video else .audio

/-- The value of the `Transport` header of a response. -/
def transportValue (response : Text) : Option Text :=
  (firstIndex transportWord response).map fun m => (response.drop (m + 11)).takeWhile (· ≠ cr)

/-- What stands behind `client_port=`. -/
def behindPortWord (value : Text) : Option Text :=
  (firstIndex portWord value).map fun m => value.drop (m + 12)

/-! ### Numbers -/

theorem isDigit_iff {b : Byte} : isDigit b = true ↔ 48 ≤ b.toNat ∧ b.toNat ≤ 57 := by
  rw [isDigit, Bool.and_eq_true, decide_eq_true_iff, decide_eq_true_iff, BitVec.le_def, BitVec.le_def]
  rfl

theorem number_cons (b : Byte) (digits : Text) :
    number (b :: digits) = (b.toNat - 0x30) * 10 ^ digits.length + number digits := by
  rw [number, List.reverse_cons, List.map_append, Nat.ofDigits_append, List.length_map, List.length_reverse,
    List.map_singleton, Nat.ofDigits_singleton, number]
  ring

/-- A number that is in range at the end is in range all along. -/
theorem decimal_digits (conv : Conversion) {digits : Text} (hdigits : ∀ b ∈ digits, isDigit b = true)
    {acc : ℤ} (hacc : 0 ≤ acc) (hlt : acc + number digits < 2 ^ 31) :
    decimal conv.toInt acc (digits.map fun b => (b.toNat : ℤ) - 0x30) = acc + number digits := by
  induction digits generalizing acc with
  | nil =>
    change acc = acc + ((0 : ℕ) : ℤ)
    rw [Nat.cast_zero, add_zero]
  | cons b digits ih =>
    obtain ⟨hlow, -⟩ := isDigit_iff.mp (hdigits b List.mem_cons_self)
    have hnumber : (number (b :: digits) : ℤ) =
        ((b.toNat : ℤ) - 0x30) * 10 ^ digits.length + number digits := by
      rw [number_cons, Nat.cast_add, Nat.cast_mul, Nat.cast_sub hlow, Nat.cast_pow]
      rfl
    have hstep : 0 ≤ ((b.toNat : ℤ) - 0x30) * 10 ^ digits.length := by
      refine mul_nonneg ?_ (pow_nonneg (by decide) _)
      omega
    have hrest : 0 ≤ (number digits : ℤ) := Nat.cast_nonneg _
    rw [hnumber] at hlt ⊢
    rw [List.map_cons, decimal, List.length_map, conv.toInt_of_range _ (by omega) (by omega),
      ih (fun d hd => hdigits d (List.mem_cons_of_mem _ hd)) (by omega) (by omega)]
    omega

/-! ### The ports in a row -/

/-- What is stored for a track. -/
def storedRow (strMsg : StrClientMsg) (track : Track) : Text :=
  (strMsg.aucClientport track.row).toList.take (strMsg.ucClientportLen track.row)

theorem Ports.mem_ne (ports : Ports) {b c : Byte} (hb : b ∈ ports.text) (hc : isDigit c = false)
    (hdash : c ≠ 0x2d) : b ≠ c := by
  rintro rfl
  obtain hfirst | hrest := List.mem_append.mp hb
  · rw [ports.first_digits b hfirst] at hc
    exact Bool.noConfusion hc
  · obtain rfl | hsecond := List.mem_cons.mp hrest
    · exact hdash rfl
    · rw [ports.second_digits b hsecond] at hc
      exact Bool.noConfusion hc

theorem Ports.first_eq (ports : Ports) (more : Text) :
    (ports.text ++ more).takeWhile (· ≠ 0x2d) = ports.first := by
  have hfirst : ∀ b ∈ ports.first, decide (b ≠ 0x2d) = true := by
    intro b hb
    refine decide_eq_true ?_
    rintro rfl
    exact absurd (ports.first_digits _ hb) (by decide)
  rw [Ports.text, List.append_assoc, List.takeWhile_append_of_pos hfirst, List.cons_append,
    List.takeWhile_cons_of_neg (by decide), List.append_nil]

/-- The digits of a port are those of the row. -/
theorem portDigits_eq (strMsg : StrClientMsg) (track : Track) :
    portDigits strMsg track.row = (storedRow strMsg track).takeWhile (· ≠ 0x2d) := rfl

/-- The number of a port that came last. -/
theorem portNumber_eq {strMsg : StrClientMsg} {track : Track} {s : Setup env}
    (hrow : storedRow strMsg track = s.range) (hlt : number s.ports.first < 2 ^ 16) :
    portNumber env strMsg track.row = number s.ports.first := by
  have hdecimal := @decimal_digits env.conv _ s.ports.first_digits 0 le_rfl (by omega)
  rw [portNumber, portDigits_eq, hrow, Setup.range, Ports.first_eq, hdecimal, zero_add]

/-! ### The scanners -/

/-- The `while` of `GetClientPort` copies what has no end in it. -/
theorem copyPort_append {text : Text} {stop : Byte} (htext : ∀ b ∈ text, b ≠ 0x3b ∧ b ≠ cr ∧ b ≠ lf)
    (hstop : stop = 0x3b ∨ stop = cr) (more : Text) (i : ℕ) (row : Vector Byte 20) :
    copyPort (text ++ stop :: more) i row = (writeAll row i text).map fun w => (i + text.length, w) := by
  induction text generalizing i row with
  | nil =>
    rw [List.nil_append, copyPort, if_pos hstop]
    rfl
  | cons b text ih =>
    obtain ⟨hsemi, hcr, -⟩ := htext b List.mem_cons_self
    have hlater : ∀ c ∈ text, c ≠ 0x3b ∧ c ≠ cr ∧ c ≠ lf := fun c hc => htext c (List.mem_cons_of_mem _ hc)
    -- the next byte is not a line feed
    obtain ⟨c, hc, hlf⟩ : ∃ c, (text ++ stop :: more).head? = some c ∧ c ≠ lf := by
      cases text with
      | nil =>
        refine ⟨stop, rfl, ?_⟩
        obtain rfl | rfl := hstop <;> decide
      | cons c text => exact ⟨c, rfl, (hlater c List.mem_cons_self).2.2⟩
    rw [List.cons_append, copyPort, if_neg (not_or.mpr ⟨hsemi, hcr⟩), hc, writeAll]
    simp only [Option.bind_eq_bind, Option.bind_some, if_neg hlf]
    cases write row i b with
    | none => rfl
    | some row' =>
      rw [Option.bind_some, Option.bind_some, ih hlater, List.length_cons, Nat.add_assoc, Nat.add_comm 1]

/-- The `for` of `GetClientPort` goes from one place of the word to the next. -/
theorem portLoop_eq_foldlM (r : Request) {n m : ℕ} (hn : m + n = r.text.length) (i : ℕ)
    (row : Vector Byte 20) :
    portLoop n ((pRecv r.text).drop m) i row =
      ((List.range' m n).filter fun m => decide (portWord <+: r.text.drop m)).foldlM
        (fun p m => copyPort ((pRecv r.text).drop (m + (12 + p.1))) p.1 p.2) (i, row) := by
  induction n generalizing m i row with
  | zero => rfl
  | succ n ih =>
    obtain ⟨tail, htail⟩ := drop_pRecv r (m := m) (by omega)
    have hword : startsWith ((pRecv r.text).drop m) portWord =
        some (decide (portWord <+: r.text.drop m)) := by
      rw [htail]
      exact startsWith_terminated (by decide) ..
    rw [portLoop, hword, List.range'_succ, List.filter_cons]
    simp only [Option.bind_eq_bind, Option.bind_some, List.tail_drop, List.drop_drop]
    by_cases hhere : portWord <+: r.text.drop m
    · simp only [hhere, decide_true, if_true, List.foldlM_cons]
      cases copyPort ((pRecv r.text).drop (m + (12 + i))) i row with
      | none => rfl
      | some p => exact ih (by omega) p.1 p.2
    · simp only [hhere, decide_false, Bool.false_eq_true, if_false, Option.bind_some]
      exact ih (by omega) i row

namespace Setup

variable (s : Setup env)

/-- The text, in front of the value and behind it. -/
theorem drop_head (more : Text) : (s.arrival.request.text ++ more).drop (s.head.length + 11) =
    s.value ++ cr :: lf :: (s.tail ++ more) := by
  have hsplit : s.arrival.request.text ++ more =
      (s.head ++ (transportWord ++ [0x20])) ++ (s.value ++ cr :: lf :: (s.tail ++ more)) := by
    rw [s.text_eq, Setup.value]
    simp only [List.append_assoc, List.cons_append, List.nil_append]
  have hlength : (s.head ++ (transportWord ++ [0x20])).length = s.head.length + 11 := List.length_append
  rw [hsplit, ← hlength, List.drop_left]

/-- The range ends at a semicolon or at the end of the line. -/
theorem range_append (more : Text) : ∃ stop rest, (stop = 0x3b ∨ stop = cr) ∧
    s.ports.text ++ (s.back ++ cr :: more) = s.range ++ stop :: rest := by
  have hback : s.back.takeWhile (· ≠ 0x3b) ++ s.back.dropWhile (· ≠ 0x3b) = s.back :=
    List.takeWhile_append_dropWhile
  cases hrest : s.back.dropWhile (· ≠ 0x3b) with
  | nil =>
    rw [hrest, List.append_nil] at hback
    exact ⟨cr, more, .inr rfl, by rw [Setup.range, hback, List.append_assoc]⟩
  | cons c rest =>
    have hc : c = 0x3b := by
      have hnot := List.head?_dropWhile_not (fun b => decide (b ≠ 0x3b)) s.back
      rw [hrest, List.head?_cons] at hnot
      exact not_not.mp (of_decide_eq_false hnot)
    refine ⟨c, rest ++ cr :: more, .inl hc, ?_⟩
    rw [hrest] at hback
    rw [Setup.range, List.append_assoc, ← List.cons_append, ← List.append_assoc _ (c :: rest), hback]

theorem mem_range {b : Byte} (hb : b ∈ s.range) : b ≠ 0x3b ∧ b ≠ cr ∧ b ≠ lf := by
  obtain hports | hback := List.mem_append.mp hb
  · exact ⟨s.ports.mem_ne hports rfl (by decide), s.ports.mem_ne hports rfl (by decide),
      s.ports.mem_ne hports rfl (by decide)⟩
  · obtain ⟨hcr, hlf⟩ := s.oneLine b (List.mem_append_right _ ((List.takeWhile_prefix _).mem hback))
    exact ⟨of_decide_eq_true (List.mem_takeWhile_imp (p := fun b => decide (b ≠ 0x3b)) hback), hcr, hlf⟩

/-- The value is one line. -/
theorem mem_value {b : Byte} (hb : b ∈ s.value) : b ≠ cr ∧ b ≠ lf := by
  rw [Setup.value, List.mem_append, List.mem_append, List.mem_append] at hb
  obtain hfront | hword | hports | hback := hb
  · exact s.oneLine b (List.mem_append_left _ hfront)
  · have hletters : ∀ c ∈ portWord, c ≠ cr ∧ c ≠ lf := by decide
    exact hletters b hword
  · exact ⟨s.ports.mem_ne hports rfl (by decide), s.ports.mem_ne hports rfl (by decide)⟩
  · exact s.oneLine b (List.mem_append_right _ hback)

/-- What `GetClientPort` stores. -/
theorem getClientPort_eq (strMsg : StrClientMsg) (row : Fin 3) :
    getClientPort s.arrival.request.text strMsg row =
      (writeAll (strMsg.aucClientport row) 0 s.range).map fun w =>
        { strMsg with
          aucClientport := Function.update strMsg.aucClientport row w
          ucClientportLen := Function.update strMsg.ucClientportLen row s.range.length } := by
  have hloop := portLoop_eq_foldlM s.arrival.request (Nat.zero_add _) 0 (strMsg.aucClientport row)
  have hplaces := s.ports_once
  rw [portPlaces, List.range_eq_range'] at hplaces
  rw [hplaces, List.drop_zero, List.foldlM_cons] at hloop
  -- what stands behind the word
  obtain ⟨stop, rest, hstop, hrange⟩ := s.range_append
    (lf :: (s.tail ++ List.replicate (2 * tcpBuffLen - s.arrival.request.text.length) 0))
  have hdrop : (pRecv s.arrival.request.text).drop (s.head.length + 11 + s.front.length + (12 + 0)) =
      s.range ++ stop :: rest := by
    have hfront : (s.front ++ portWord).length = s.front.length + 12 := List.length_append
    rw [← hrange, pRecv, Nat.add_zero, Nat.add_assoc, ← List.drop_drop, s.drop_head, Setup.value,
      ← List.append_assoc s.front, List.append_assoc (s.front ++ portWord), ← hfront, List.drop_left,
      List.append_assoc]
  rw [hdrop, copyPort_append (fun b hb => s.mem_range hb) hstop] at hloop
  rw [getClientPort, hloop]
  cases writeAll (strMsg.aucClientport row) 0 s.range with
  | none => rfl
  | some w =>
    simp only [Option.map_some, Option.bind_eq_bind, Option.bind_some, List.foldlM_nil, Nat.zero_add]
    rfl

/-- What `PraseSETUPMsg` stores. -/
theorem praseSetupMsg_eq (strMsg : StrClientMsg) : ∃ aucTrans : Vector Byte 200,
    praseSetupMsg s.arrival.request.text strMsg =
        some { strMsg with aucTrans := aucTrans, ucTransNum := s.value.length } ∧
      aucTrans.toList.take s.value.length = s.value := by
  have hlength : s.value.length ≤ 99 := s.length_le
  have hlf : lf ∉ s.value ++ [cr] := by
    intro hmem
    obtain hvalue | hcr := List.mem_append.mp hmem
    · exact (s.mem_value hvalue).2 rfl
    · exact absurd (List.mem_singleton.mp hcr) (by decide)
  have hroom : (s.value ++ [cr]).length ≤ 100 := by
    rw [List.length_append, List.length_singleton]
    omega
  obtain ⟨w, hw⟩ : ∃ w, writeAll strMsg.aucTrans 0 (s.value ++ [cr]) = some w :=
    Option.isSome_iff_exists.mp ((writeAll_isSome_iff (Nat.zero_le _)).mpr (by omega))
  have hrest : (pRecv s.arrival.request.text).drop (s.head.length + 11) = (s.value ++ [cr]) ++ lf ::
      (s.tail ++ List.replicate (2 * tcpBuffLen - s.arrival.request.text.length) 0) := by
    rw [pRecv, s.drop_head, List.append_assoc]
    rfl
  refine ⟨w, ?_, ?_⟩
  · have hmem : lf ∈ ((s.value ++ [cr]) ++ lf ::
        (s.tail ++ List.replicate (2 * tcpBuffLen - s.arrival.request.text.length) 0)).take 100 ∨
        100 ≤ ((s.value ++ [cr]) ++ lf ::
        (s.tail ++ List.replicate (2 * tcpBuffLen - s.arrival.request.text.length) 0)).length := by
      obtain hlt | heq := hroom.lt_or_eq
      · refine .inl ?_
        rw [List.take_append, List.take_of_length_le hroom]
        refine List.mem_append_right _ ?_
        obtain ⟨k, hk⟩ := Nat.exists_eq_succ_of_ne_zero (Nat.sub_pos_of_lt hlt).ne'
        rw [hk, List.take_succ_cons]
        exact List.mem_cons_self
      · refine .inr ?_
        rw [List.length_append]
        omega
    rw [praseSetupMsg, find_pRecv s.arrival.request (by decide), s.transport_first]
    simp only [Option.bind_eq_bind, Option.bind_some]
    rw [hrest, copyLine_eq, if_pos hmem, line_append hlf hroom, hw]
    simp
  · have htake := congrArg (List.take s.value.length) (take_writeAll hw)
    rw [List.take_take, List.take_left, Nat.min_eq_left (by simp)] at htake
    exact htake

/-- The row is the one of the track. -/
theorem trickId_eq : trickId s.arrival.request.text = s.track.row := by
  obtain ⟨m, hm, hdigit, -⟩ := s.track_eq
  have hget : s.arrival.request.text.getD (m + 9) 0 = s.track.digit := by
    rw [List.getD_eq_getElem?_getD, hdigit, Option.getD_some]
  have hid : rtspFindTrackid s.arrival.request.text = s.track.digit.toNat - 48 := by
    have hword : ascii "/trackID=" = trackWord := rfl
    simp only [rtspFindTrackid, hword, hm, hget]
    cases s.track <;> rfl
  rw [trickId, hid]
  cases s.track <;> rfl

end Setup

/-! ### The response -/

/-- A copy loop writes what it reads. -/
theorem copyOut_eq_writeAll {j k : ℕ} (src : Vector Byte j) (off : ℕ) {n i : ℕ} (v : Vector Byte k)
    (hsrc : i + n ≤ j) : copyOut src off n i v = writeAll v (off + i) ((src.toList.drop i).take n) := by
  induction n generalizing i v with
  | zero => rfl
  | succ n ih =>
    have hi : i < src.toList.length := by
      rw [Vector.length_toList]
      omega
    have hread : src[i]? = some src.toList[i] := by
      rw [Vector.getElem?_eq_getElem (by omega)]
      rfl
    rw [copyOut, hread, List.drop_eq_getElem_cons hi, List.take_succ_cons, writeAll]
    simp only [Option.bind_eq_bind, Option.bind_some]
    cases write v (off + i) src.toList[i] with
    | none => rfl
    | some v' =>
      rw [Option.bind_some, Option.bind_some, ih v' (by omega)]
      rfl

/-- An array begins with what was written first. -/
theorem take_of_take_append {l first more : Text} (h : l.take (first ++ more).length = first ++ more) :
    l.take first.length = first := by
  have htake := congrArg (List.take first.length) h
  rwa [List.take_take, List.take_left, List.length_append, Nat.min_eq_left (Nat.le_add_right _ _)] at htake

/-- And goes on with what is written behind that. -/
theorem take_append_of_writeAll {k i : ℕ} {v w : Vector Byte k} {first more : Text}
    (hv : v.toList.take first.length = first) (h : writeAll v i more = some w) (hi : i = first.length) :
    w.toList.take (first ++ more).length = first ++ more := by
  rw [List.length_append, ← hi, take_writeAll_add h, hi, hv]

/-- The length of a string in an array. -/
theorem strlen_eq {k : ℕ} {v : Vector Byte k} {text : Text} (htext : (0 : Byte) ∉ text)
    (hv : v.toList.take (text ++ [0]).length = text ++ [0]) : strlen v = text.length := by
  have hall : ∀ b ∈ text, decide (b ≠ (0 : Byte)) = true := by
    intro b hb
    exact decide_eq_true fun h => htext (h ▸ hb)
  rw [strlen, ← List.take_append_drop (text ++ [0]).length v.toList, hv, List.append_assoc,
    List.takeWhile_append_of_pos hall, List.singleton_append, List.takeWhile_cons_of_neg (by simp),
    List.append_nil]

/-- It begins with what the array begins with. -/
theorem take_strlen {k : ℕ} {v : Vector Byte k} {text : Text} (htext : (0 : Byte) ∉ text)
    (hv : v.toList.take text.length = text) : ∃ more, v.toList.take (strlen v) = text ++ more := by
  have hall : ∀ b ∈ text, decide (b ≠ (0 : Byte)) = true := by
    intro b hb
    exact decide_eq_true fun h => htext (h ▸ hb)
  have hprefix : v.toList.takeWhile (· ≠ 0) <+: v.toList := List.takeWhile_prefix _
  have hsplit : v.toList = text ++ v.toList.drop text.length := by
    nth_rewrite 1 [← List.take_append_drop text.length v.toList]
    rw [hv]
  refine ⟨(v.toList.drop text.length).takeWhile (· ≠ 0), ?_⟩
  rw [strlen, ← List.prefix_iff_eq_take.mp hprefix, hsplit, List.takeWhile_append_of_pos hall,
    ← hsplit]

/-- The fields behind the transport begin with the end of its line. -/
theorem sessionText_eq (timeout : Timeout) :
    ∃ session, sessionText timeout = cr :: session ∧ (0 : Byte) ∉ cr :: session := by
  have hhead : (sessionText timeout).head? = some cr := by
    rw [sessionText]
    split_ifs
    · decide
    · rw [List.append_assoc, List.head?_append]
      have hcr : (ascii
          "\r\nContent-Length: 0\r\nCache-Control: no-cache\r\nSession: 11478; timeout=").head? =
            some cr := by
        decide
      rw [hcr, Option.some_or]
  have hnul : (0 : Byte) ∉ sessionText timeout := by
    rw [sessionText]
    split_ifs
    · decide
    · rw [List.mem_append, List.mem_append, not_or, not_or]
      refine ⟨⟨by decide, fun hmem => ?_⟩, by decide⟩
      obtain ⟨d, hd, hzero⟩ := List.mem_map.mp hmem
      have hlt : d < 10 := Nat.digits_lt_base (by decide) (List.mem_reverse.mp hd)
      have hnat := congrArg BitVec.toNat hzero
      rw [BitVec.toNat_ofNat, Nat.mod_eq_of_lt (by omega)] at hnat
      change 48 + d = 0 at hnat
      omega
  obtain ⟨session, hsession⟩ := List.head?_eq_some_iff.mp hhead
  exact ⟨session, hsession, hsession ▸ hnul⟩

/-- The first lines of a response to `SETUP`. -/
def responseHead : Text := ascii "RTSP/1.0 200 OK\r\nServer: RRS 0.1\r\nTransport: "

/-- **The response to `SETUP`** has the `Transport` value, and a row behind it. -/
theorem setupText_eq (timeout : Timeout) {strMsg : StrClientMsg} (hb : strMsg.Bounded)
    (hnum : strMsg.ucTransNum ≤ 100) {value row : Text}
    (hvalue : strMsg.aucTrans.toList.take strMsg.ucTransNum = value)
    (hrow : (strMsg.aucClientport strMsg.timeused.castSucc).toList.take
      (strMsg.ucClientportLen strMsg.timeused.castSucc) = row)
    (hnul : (0 : Byte) ∉ value ++ row) : ∃ more, setupText timeout strMsg =
      some (responseHead ++ (value ++ (row ++ cr :: more))) := by
  obtain ⟨response, hresponse⟩ := Option.isSome_iff_exists.mp (setupText_isSome timeout hb hnum)
  have hport := hb.ports strMsg.timeused.castSucc
  have hcseq := hb.cseq
  have hvalueLength : value.length = strMsg.ucTransNum := by
    rw [← hvalue, List.length_take, Vector.length_toList]
    omega
  have hrowLength : row.length = strMsg.ucClientportLen strMsg.timeused.castSucc := by
    rw [← hrow, List.length_take, Vector.length_toList]
    omega
  obtain ⟨session, hsession, hsessionNul⟩ := sessionText_eq timeout
  -- the array, one write after another
  have hwrites := hresponse
  rw [setupText] at hwrites
  obtain ⟨v₁, h₁, hwrites⟩ := Option.bind_eq_some_iff.mp hwrites
  obtain ⟨v₂, h₂, hwrites⟩ := Option.bind_eq_some_iff.mp hwrites
  obtain ⟨v₃, h₃, hwrites⟩ := Option.bind_eq_some_iff.mp hwrites
  obtain ⟨v₄, h₄, hwrites⟩ := Option.bind_eq_some_iff.mp hwrites
  obtain ⟨v₅, h₅, hwrites⟩ := Option.bind_eq_some_iff.mp hwrites
  obtain ⟨v₆, h₆, hwrites⟩ := Option.bind_eq_some_iff.mp hwrites
  have hfull₁ : v₁.toList.take (responseHead ++ [0]).length = responseHead ++ [0] := take_writeAll h₁
  have hlen₁ : strlen v₁ = responseHead.length := strlen_eq (by decide) hfull₁
  rw [hlen₁, copyOut_eq_writeAll _ _ _ (by omega), List.drop_zero, hvalue] at h₂
  rw [hlen₁, copyOut_eq_writeAll _ _ _ (by omega), List.drop_zero, hrow] at h₃
  rw [hlen₁, strcpy, hsession] at h₄
  have hstarts₁ := take_of_take_append hfull₁
  have hstarts₂ := take_append_of_writeAll hstarts₁ h₂ rfl
  have hstarts₃ := take_append_of_writeAll hstarts₂ h₃ (by rw [List.length_append]; omega)
  have hfull₄ := take_append_of_writeAll hstarts₃ h₄ (by rw [List.length_append, List.length_append]; omega)
  -- the rest is written behind the fields of the session
  have hnul₄ : (0 : Byte) ∉ ((responseHead ++ value) ++ row) ++ cr :: session := by
    have hhead : (0 : Byte) ∉ responseHead := by decide
    rw [List.mem_append, not_or] at hnul
    rw [List.mem_append, List.mem_append, List.mem_append, not_or, not_or, not_or]
    exact ⟨⟨⟨hhead, hnul.1⟩, hnul.2⟩, hsessionNul⟩
  rw [← List.append_assoc] at hfull₄
  have hlen₄ := strlen_eq hnul₄ hfull₄
  rw [hlen₄, copyOut_eq_writeAll _ _ _ (by omega)] at h₅
  rw [hlen₄] at h₆
  have hfull₅ := take_append_of_writeAll (take_of_take_append hfull₄) h₅ rfl
  have hfull₆ := take_append_of_writeAll hfull₅ h₆ (by simp [List.length_take]; omega)
  rw [List.append_assoc] at hfull₆
  obtain ⟨more, hmore⟩ := take_strlen hnul₄ (take_of_take_append hfull₆)
  refine ⟨session ++ more, ?_⟩
  have hwritten : v₆.toList.take (strlen v₆) = response := Option.some.inj hwrites
  rw [hresponse, ← hwritten, hmore]
  simp only [List.append_assoc, List.cons_append]

/-! ### One request -/

theorem row_turn (n : Fin 2) : (turn n).row = n.castSucc := by
  fin_cases n <;> rfl

theorem Track.row_injective : Function.Injective Track.row := by
  intro a b h
  cases a <;> cases b <;> first | rfl | exact absurd h (by decide)

namespace Setup

variable (s : Setup env)

theorem mem_text {b : Byte} (hb : b ∈ s.value) : b ∈ s.arrival.request.text := by
  have hdrop := s.drop_head []
  rw [List.append_nil] at hdrop
  refine List.mem_of_mem_drop (i := s.head.length + 11) ?_
  rw [hdrop]
  exact List.mem_append_left _ hb

theorem range_subset {b : Byte} (hb : b ∈ s.range) : b ∈ s.value := by
  refine List.mem_append_right _ (List.mem_append_right _ ?_)
  obtain hports | hback := List.mem_append.mp hb
  · exact List.mem_append_left _ hports
  · exact List.mem_append_right _ ((List.takeWhile_prefix _).mem hback)

theorem nul_notMem_range : (0 : Byte) ∉ s.range :=
  fun h => s.arrival.request.noNul (s.mem_text (s.range_subset h))

/-- **`ResponseSetup`** stores the range in the row of the track, and puts the row whose turn it is behind
the value. -/
theorem responseSetup_eq (timeout : Timeout) {strMsg : StrClientMsg} (hb : strMsg.Bounded)
    (hnul : ∀ track, (0 : Byte) ∉ storedRow strMsg track) (hfits : s.range.length ≤ 20) :
    ∃ strMsg' more, responseSetup s.arrival.request.text timeout strMsg = some (strMsg',
        responseHead ++ (s.value ++ (storedRow strMsg' (turn strMsg.timeused) ++ cr :: more))) ∧
      strMsg'.Bounded ∧ strMsg'.timeused = strMsg.timeused + 1 ∧
      ∀ track, storedRow strMsg' track = if track = s.track then s.range else storedRow strMsg track := by
  obtain ⟨aucTrans, htrans, hvalue⟩ := s.praseSetupMsg_eq strMsg
  obtain ⟨row, hrow⟩ : ∃ row, writeAll (strMsg.aucClientport s.track.row) 0 s.range = some row :=
    Option.isSome_iff_exists.mp ((writeAll_isSome_iff (Nat.zero_le _)).mpr (by omega))
  obtain ⟨strMsg₂, h₂⟩ : ∃ strMsg₂, strMsg₂ = { strMsg with
      aucTrans := aucTrans
      ucTransNum := s.value.length
      aucClientport := Function.update strMsg.aucClientport s.track.row row
      ucClientportLen := Function.update strMsg.ucClientportLen s.track.row s.range.length } := ⟨_, rfl⟩
  have hports : getClientPort s.arrival.request.text
      { strMsg with aucTrans := aucTrans, ucTransNum := s.value.length } s.track.row = some strMsg₂ := by
    rw [s.getClientPort_eq, hrow, h₂]
    rfl
  have hrows : strMsg₂.aucClientport = Function.update strMsg.aucClientport s.track.row row := by rw [h₂]
  have hlens : strMsg₂.ucClientportLen =
      Function.update strMsg.ucClientportLen s.track.row s.range.length := by rw [h₂]
  have hstored : ∀ track, storedRow strMsg₂ track =
      if track = s.track then s.range else storedRow strMsg track := by
    intro track
    rw [storedRow, hrows, hlens]
    split_ifs with htrack
    · subst htrack
      rw [Function.update_self, Function.update_self, take_writeAll hrow]
    · have hne : track.row ≠ s.track.row := fun h => htrack (Track.row_injective h)
      rw [Function.update_of_ne hne, Function.update_of_ne hne]
      rfl
  have hbounded : strMsg₂.Bounded := by
    refine ⟨by rw [h₂]; exact hb.cseq, fun row => ?_⟩
    rw [hlens, Function.update_apply]
    split_ifs
    · exact hfits
    · exact hb.ports row
  have hvalueNul : (0 : Byte) ∉ s.value ++ storedRow strMsg₂ (turn strMsg.timeused) := by
    rw [List.mem_append, not_or, hstored]
    refine ⟨fun h => s.arrival.request.noNul (s.mem_text h), ?_⟩
    split_ifs
    · exact s.nul_notMem_range
    · exact hnul _
  have hnum : strMsg₂.ucTransNum ≤ 100 := by
    rw [h₂]
    exact s.length_le.trans (by decide)
  have htimeused : strMsg₂.timeused = strMsg.timeused := by rw [h₂]
  have hvalue₂ : strMsg₂.aucTrans.toList.take strMsg₂.ucTransNum = s.value := by
    rw [h₂]
    exact hvalue
  have hrow₂ : (strMsg₂.aucClientport strMsg₂.timeused.castSucc).toList.take
      (strMsg₂.ucClientportLen strMsg₂.timeused.castSucc) = storedRow strMsg₂ (turn strMsg.timeused) := by
    rw [storedRow, row_turn, htimeused]
  obtain ⟨more, htext⟩ := setupText_eq timeout hbounded hnum hvalue₂ hrow₂ hvalueNul
  refine ⟨{ strMsg₂ with timeused := strMsg₂.timeused + 1 }, more, ?_, ⟨hbounded.cseq, hbounded.ports⟩, ?_,
    hstored⟩
  · rw [responseSetup, htrans, s.trickId_eq]
    simp only [Option.bind_eq_bind, Option.bind_some, hports, htext]
    rfl
  · rw [htimeused]

/-- A range that has no room. -/
theorem responseSetup_eq_none (timeout : Timeout) (strMsg : StrClientMsg) (hlong : ¬ s.range.length ≤ 20) :
    responseSetup s.arrival.request.text timeout strMsg = none := by
  obtain ⟨aucTrans, htrans, -⟩ := s.praseSetupMsg_eq strMsg
  have hrow : writeAll (strMsg.aucClientport s.track.row) 0 s.range = none := by
    rw [← Option.not_isSome_iff_eq_none, writeAll_isSome_iff (Nat.zero_le _), Nat.zero_add]
    exact hlong
  rw [responseSetup, htrans, s.trickId_eq]
  simp only [Option.bind_eq_bind, Option.bind_some, s.getClientPort_eq, hrow]
  rfl

end Setup

/-! ### What a response has -/

namespace Setup

variable (s : Setup env)

/-- The range is the first of the value. -/
theorem firstIndex_value : firstIndex portWord s.value = some s.front.length := by
  have hdrop := s.drop_head []
  rw [List.append_nil] at hdrop
  refine (firstIndex_eq_some_iff (by decide)).mpr ⟨?_, fun j hj hprefix => ?_⟩
  · rw [Setup.value, List.drop_left]
    exact List.prefix_append _ _
  · -- the word would stand at another place of the request
    have hle : j ≤ s.value.length := by
      rw [Setup.value, List.length_append]
      omega
    have hplace : s.head.length + 11 + j ∈ portPlaces s.arrival.request.text := by
      rw [portPlaces, List.mem_filter, List.mem_range]
      have htext : portWord <+: s.arrival.request.text.drop (s.head.length + 11 + j) := by
        rw [← List.drop_drop, hdrop, List.drop_append_of_le_length hle]
        exact hprefix.trans (List.prefix_append _ _)
      refine ⟨?_, decide_eq_true htext⟩
      have hlength := htext.length_le
      have hword : portWord.length = 12 := rfl
      rw [List.length_drop, hword] at hlength
      omega
    rw [s.ports_once, List.mem_singleton] at hplace
    omega

/-- What stands behind `client_port=` in a response. -/
theorem behind_response (row more : Text) (hrow : cr ∉ row) :
    (transportValue (responseHead ++ (s.value ++ (row ++ cr :: more)))).bind behindPortWord =
      some (s.ports.text ++ (s.back ++ row)) := by
  have hline : ∀ b ∈ s.value ++ row, decide (b ≠ cr) = true := by
    intro b hb
    refine decide_eq_true fun h => ?_
    obtain hvalue | hmem := List.mem_append.mp hb
    · exact (s.mem_value hvalue).1 h
    · exact hrow (h ▸ hmem)
  have hhead : firstIndex transportWord responseHead = some 34 := by decide
  have hvalue : transportValue (responseHead ++ (s.value ++ (row ++ cr :: more))) =
      some (s.value ++ row) := by
    have hlength : responseHead.length = 34 + 11 := by decide
    rw [transportValue, firstIndex_append_right (by decide) hhead, Option.map_some, ← hlength, List.drop_left,
      ← List.append_assoc, List.takeWhile_append_of_pos hline, List.takeWhile_cons_of_neg (by simp),
      List.append_nil]
  have hdrop : (s.value ++ row).drop (s.front.length + 12) = s.ports.text ++ (s.back ++ row) := by
    have hfront : (s.front ++ portWord).length = s.front.length + 12 := List.length_append
    rw [Setup.value, ← List.append_assoc s.front, List.append_assoc (s.front ++ portWord), ← hfront,
      List.drop_left, List.append_assoc]
  rw [hvalue, Option.bind_some, behindPortWord, firstIndex_append_right (by decide) s.firstIndex_value,
    Option.map_some, hdrop]

end Setup

end Rtsp

end ReachEdukit
