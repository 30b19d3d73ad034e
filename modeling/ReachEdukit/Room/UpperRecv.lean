import ReachEdukit.Lib.Turns
import ReachEdukit.Room.TimeQueue
import ReachEdukit.Rtp.Packet

/-!
# The messages of the upper connection

`upper_msg_recv` takes a TCP stream apart into messages: a header of eight bytes with the length of
the whole message, then the body. A header that is rejected, for its length or for its version, ends
the turn at once, and the body that belongs to it is still in the stream: the next turn reads its first
eight bytes as a header. The messages behind are found again only if the whole body can be read as
headers that are rejected too.

The length of a body is never too large; it is negative when a header that is not rejected gives a
length below eight.

## What is left out

`select` and the work that is done while it waits; that the program is told to quit. The connection
ends behind the bytes. The fields of a header are the numbers of the wire.

## Main definitions

* `upperMsgTurn` — one turn of the loop
* `handed`, `bodyLengths` — what is given to `upper_msg_deal`, and the lengths of the bodies
* `PassedOver` — a body that does no harm

## Main results

* `handed_passedOver_iff` — a body does no harm exactly when it can be read as rejected headers
* `framed_iff` — when the messages of a stream are found
-/

namespace ReachEdukit

namespace Room

open Rtp (Byte be16 be16_append)

/-- `sizeof(MsgHeader)`. -/
def sizeofMsgHeader : ℕ := 8

/-- `ROOM_MSG_MAX_LEN`. -/
def roomMsgMaxLen : ℕ := 4096 * 2

/-- `MSG_HEAD_VER`. -/
def msgHeadVer : ℕ := 2012

/-- What `recv_long_tcp_data` leaves behind. -/
structure RecvLong where
  /-- What it returns. -/
  ret : ℤ
  /-- The bytes that are stored. -/
  stored : List Byte
  /-- The bytes that are still to come. -/
  rest : List Byte

/-- `recv_long_tcp_data`; with a length that is not positive it receives nothing. -/
def recvLongTcpData (bytes : List Byte) (buflen : ℤ) : RecvLong :=
  if buflen ≤ 0 then ⟨0, [], bytes⟩
  else if (bytes.length : ℤ) < buflen then ⟨0, bytes, []⟩
  else ⟨buflen, bytes.take buflen.toNat, bytes.drop buflen.toNat⟩

/-- The header in the first eight bytes. -/
def MsgHeader.read (l : List Byte) : MsgHeader where
  sLen := l.getD 0 0 ++ l.getD 1 0
  sVer := l.getD 2 0 ++ l.getD 3 0
  sMsgType := l.getD 4 0 ++ l.getD 5 0
  sData := l.getD 6 0 ++ l.getD 7 0

/-- The header on the wire. -/
def MsgHeader.bytes (head : MsgHeader) : List Byte :=
  be16 head.sLen ++ be16 head.sVer ++ be16 head.sMsgType ++ be16 head.sData

/-- `upper_msg_head_checkout`. -/
def upperMsgHeadCheckout (head : MsgHeader) : Bool := head.sVer.toNat = msgHeadVer

/-- A turn of the loop. -/
structure UpperTurn where
  /-- The header. -/
  head : MsgHeader
  /-- The length with which the body is received. -/
  bodyLength : Option ℤ
  /-- `recv_data_buf`, when it is given to `upper_msg_deal`. -/
  dealt : Option (List Byte)

/-- The header is not rejected. -/
def MsgHeader.accepted (head : MsgHeader) : Bool :=
  head.sLen.toNat ≤ roomMsgMaxLen && upperMsgHeadCheckout head

/-- `recv_data_buf` with a body at its front. -/
def recvDataBuf (body : List Byte) : List Byte :=
  body ++ List.replicate (roomMsgMaxLen - body.length) 0

/-- One turn of the loop in `upper_msg_recv`: what is done, and the bytes that are left, none when the
loop is left. -/
def upperMsgTurn (bytes : List Byte) : Option (UpperTurn × List Byte) :=
  let head := recvLongTcpData bytes sizeofMsgHeader
  if head.ret ≤ 0 then none
  else
    let msgHead := MsgHeader.read head.stored
    if msgHead.sLen.toNat > roomMsgMaxLen then some (⟨msgHead, none, none⟩, head.rest)
    else if !upperMsgHeadCheckout msgHead then some (⟨msgHead, none, none⟩, head.rest)
    else
      let len : ℤ := msgHead.sLen.toNat - sizeofMsgHeader
      let body := recvLongTcpData head.rest len
      if body.ret ≤ 0 then some (⟨msgHead, some len, none⟩, [])
      else some (⟨msgHead, some len, some (recvDataBuf body.stored)⟩, body.rest)

/-- The messages that are given to `upper_msg_deal`: the header, and `recv_data_buf`. -/
def handed (bytes : List Byte) : List (MsgHeader × List Byte) :=
  (Turns.all upperMsgTurn bytes).filterMap fun turn => turn.dealt.map fun buf => (turn.head, buf)

/-- The lengths with which bodies are received. -/
def bodyLengths (bytes : List Byte) : List ℤ :=
  (Turns.all upperMsgTurn bytes).filterMap UpperTurn.bodyLength

/-- A message: the header gives the length of the whole, and there is a body. -/
structure UpperMsg where
  head : MsgHeader
  body : List Byte
  /-- The length of the whole message. -/
  length_eq : head.sLen.toNat = sizeofMsgHeader + body.length
  /-- There is a body. -/
  body_ne : body ≠ []

/-- The message on the wire. -/
def UpperMsg.bytes (m : UpperMsg) : List Byte := m.head.bytes ++ m.body

/-- A message as `upper_msg_deal` should get it. -/
def UpperMsg.dealt (m : UpperMsg) : MsgHeader × List Byte := (m.head, recvDataBuf m.body)

/-- A list of messages on the wire. -/
def wire (ms : List UpperMsg) : List Byte := ms.flatMap UpperMsg.bytes

/-- The messages that are to be dealt with. -/
def toDeal (ms : List UpperMsg) : List (MsgHeader × List Byte) :=
  (ms.filter fun m => m.head.accepted).map UpperMsg.dealt

/-- The bytes can be read as headers that are all rejected. -/
def PassedOver : List Byte → Bool
  | [] => true
  | b₀ :: b₁ :: b₂ :: b₃ :: b₄ :: b₅ :: b₆ :: b₇ :: rest =>
    !(MsgHeader.read [b₀, b₁, b₂, b₃, b₄, b₅, b₆, b₇]).accepted && PassedOver rest
  | _ => false

/-! ### One turn -/

variable {bytes rest : List Byte} {head : MsgHeader}

theorem read_bytes (head : MsgHeader) : MsgHeader.read head.bytes = head := by
  have hread : MsgHeader.read head.bytes =
      ⟨head.sLen.extractLsb' 8 8 ++ head.sLen.extractLsb' 0 8,
        head.sVer.extractLsb' 8 8 ++ head.sVer.extractLsb' 0 8,
        head.sMsgType.extractLsb' 8 8 ++ head.sMsgType.extractLsb' 0 8,
        head.sData.extractLsb' 8 8 ++ head.sData.extractLsb' 0 8⟩ := rfl
  rw [hread, be16_append, be16_append, be16_append, be16_append]

theorem length_bytes (head : MsgHeader) : head.bytes.length = sizeofMsgHeader := rfl

theorem recvLongTcpData_append {l : List Byte} (hl : l ≠ []) (rest : List Byte) :
    recvLongTcpData (l ++ rest) l.length = ⟨l.length, l, rest⟩ := by
  have hpos := List.length_pos_iff.mpr hl
  rw [recvLongTcpData, if_neg (by omega), if_neg (by rw [List.length_append]; omega),
    Int.toNat_natCast, List.take_left, List.drop_left]

/-- Fewer bytes than a header has end the loop. -/
theorem upperMsgTurn_of_short (h : bytes.length < sizeofMsgHeader) : upperMsgTurn bytes = none := by
  have hrecv : recvLongTcpData bytes sizeofMsgHeader = ⟨0, bytes, []⟩ := by
    rw [recvLongTcpData, if_neg (by decide), if_pos (by omega)]
  rw [upperMsgTurn, hrecv]
  rfl

/-- A header that is rejected: the turn leaves all that comes behind it. -/
theorem upperMsgTurn_of_rejected {l : List Byte} (hl : l.length = sizeofMsgHeader)
    (h : (MsgHeader.read l).accepted = false) (rest : List Byte) :
    upperMsgTurn (l ++ rest) = some (⟨MsgHeader.read l, none, none⟩, rest) := by
  have hrecv := recvLongTcpData_append (l := l) (by rintro rfl; exact absurd hl (by decide)) rest
  rw [hl] at hrecv
  rw [upperMsgTurn, hrecv]
  change (if (8 : ℤ) ≤ 0 then _ else _) = _
  rw [if_neg (by decide)]
  change (if (MsgHeader.read l).sLen.toNat > roomMsgMaxLen then _ else if !upperMsgHeadCheckout
    (MsgHeader.read l) then _ else _) = _
  by_cases hlong : (MsgHeader.read l).sLen.toNat > roomMsgMaxLen
  · rw [if_pos hlong]
  · rw [MsgHeader.accepted, decide_eq_true (Nat.not_lt.mp hlong), Bool.true_and] at h
    rw [if_neg hlong, h]
    rfl

/-- A header that is not rejected: the body is received. -/
theorem upperMsgTurn_of_accepted {l : List Byte} (hl : l.length = sizeofMsgHeader)
    (h : (MsgHeader.read l).accepted = true) (rest : List Byte) :
    upperMsgTurn (l ++ rest) =
      let len : ℤ := (MsgHeader.read l).sLen.toNat - sizeofMsgHeader
      let body := recvLongTcpData rest len
      if body.ret ≤ 0 then some (⟨MsgHeader.read l, some len, none⟩, [])
      else some (⟨MsgHeader.read l, some len, some (recvDataBuf body.stored)⟩, body.rest) := by
  have hrecv := recvLongTcpData_append (l := l) (by rintro rfl; exact absurd hl (by decide)) rest
  rw [hl] at hrecv
  rw [MsgHeader.accepted, Bool.and_eq_true, decide_eq_true_eq] at h
  rw [upperMsgTurn, hrecv]
  change (if (8 : ℤ) ≤ 0 then _ else _) = _
  rw [if_neg (by decide)]
  change (if (MsgHeader.read l).sLen.toNat > roomMsgMaxLen then _ else if !upperMsgHeadCheckout
    (MsgHeader.read l) then _ else _) = _
  rw [if_neg (Nat.not_lt.mpr h.1), h.2]
  rfl

/-- A turn finds too few bytes for a header, or a header in the first eight. -/
theorem short_or_head (bytes : List Byte) : bytes.length < sizeofMsgHeader ∨
    ∃ l rest, bytes = l ++ rest ∧ l.length = sizeofMsgHeader := by
  obtain h | h := Nat.lt_or_ge bytes.length sizeofMsgHeader
  · exact Or.inl h
  · refine Or.inr ⟨bytes.take sizeofMsgHeader, bytes.drop sizeofMsgHeader,
      (List.take_append_drop ..).symm, ?_⟩
    rw [List.length_take, Nat.min_eq_left h]

theorem length_rest_recvLongTcpData_le (bytes : List Byte) (buflen : ℤ) :
    (recvLongTcpData bytes buflen).rest.length ≤ bytes.length := by
  rw [recvLongTcpData]
  split_ifs
  · exact le_rfl
  · exact Nat.zero_le _
  · exact (List.length_drop ..).trans_le (Nat.sub_le ..)

theorem shrinks_upperMsgTurn : Turns.Shrinks upperMsgTurn := by
  intro bytes turn rest' h
  obtain hshort | ⟨l, rest, rfl, hl⟩ := short_or_head bytes
  · rw [upperMsgTurn_of_short hshort] at h
    exact absurd h (by simp)
  · have hpos : 0 < l.length := hl ▸ Nat.zero_lt_succ _
    rw [List.length_append]
    obtain haccepted | hrejected := Bool.eq_false_or_eq_true (MsgHeader.read l).accepted
    · rw [upperMsgTurn_of_accepted hl haccepted] at h
      have hle := length_rest_recvLongTcpData_le rest
        ((MsgHeader.read l).sLen.toNat - sizeofMsgHeader)
      dsimp only at h
      split_ifs at h
      · obtain ⟨-, rfl⟩ := Prod.mk.inj (Option.some.inj h)
        exact Nat.add_pos_left hpos _
      · obtain ⟨-, rfl⟩ := Prod.mk.inj (Option.some.inj h)
        omega
    · rw [upperMsgTurn_of_rejected hl hrejected] at h
      obtain ⟨-, rfl⟩ := Prod.mk.inj (Option.some.inj h)
      omega

/-! ### What is handed on -/

theorem handed_of_short (h : bytes.length < sizeofMsgHeader) : handed bytes = [] := by
  rw [handed, Turns.all_of_none (upperMsgTurn_of_short h)]
  rfl

theorem handed_nil : handed [] = [] :=
  handed_of_short (Nat.zero_lt_succ _)

theorem handed_of_rejected {l : List Byte} (hl : l.length = sizeofMsgHeader)
    (h : (MsgHeader.read l).accepted = false) (rest : List Byte) :
    handed (l ++ rest) = handed rest := by
  rw [handed, Turns.all_of_some shrinks_upperMsgTurn (upperMsgTurn_of_rejected hl h rest)]
  rfl

/-- A header that is not rejected ends the loop, or its message is handed on. -/
theorem handed_of_accepted {l : List Byte} (hl : l.length = sizeofMsgHeader)
    (h : (MsgHeader.read l).accepted = true) (rest : List Byte) :
    handed (l ++ rest) = [] ∨ ∃ buf tl, handed (l ++ rest) = (MsgHeader.read l, buf) :: tl := by
  have hturn := upperMsgTurn_of_accepted hl h rest
  dsimp only at hturn
  split_ifs at hturn
  · rw [handed, Turns.all_of_some shrinks_upperMsgTurn hturn]
    have hend : Turns.all upperMsgTurn [] = [] :=
      Turns.all_of_none (upperMsgTurn_of_short (Nat.zero_lt_succ _))
    rw [hend]
    exact Or.inl rfl
  · rw [handed, Turns.all_of_some shrinks_upperMsgTurn hturn]
    exact Or.inr ⟨_, _, rfl⟩

/-- A message that is to be dealt with. -/
theorem handed_message {m : UpperMsg} (h : m.head.accepted = true) (rest : List Byte) :
    handed (m.bytes ++ rest) = m.dealt :: handed rest := by
  have hturn := upperMsgTurn_of_accepted (length_bytes m.head) (by rwa [read_bytes]) (m.body ++ rest)
  have hlen : ((m.head.sLen.toNat : ℤ) - sizeofMsgHeader) = m.body.length := by
    rw [m.length_eq]
    push_cast
    ring
  have hpos := List.length_pos_iff.mpr m.body_ne
  rw [read_bytes] at hturn
  dsimp only at hturn
  rw [hlen, recvLongTcpData_append m.body_ne, if_neg (by change ¬ (m.body.length : ℤ) ≤ 0; omega)]
    at hturn
  rw [UpperMsg.bytes, List.append_assoc, handed, Turns.all_of_some shrinks_upperMsgTurn hturn]
  rfl

/-- A body that is read as headers that are rejected. -/
theorem handed_passedOver {body : List Byte} (h : PassedOver body = true) (rest : List Byte) :
    handed (body ++ rest) = handed rest := by
  fun_induction PassedOver body with
  | case1 => rfl
  | case2 b₀ b₁ b₂ b₃ b₄ b₅ b₆ b₇ body ih =>
    rw [Bool.and_eq_true, Bool.not_eq_true'] at h
    have hread := handed_of_rejected (l := [b₀, b₁, b₂, b₃, b₄, b₅, b₆, b₇]) rfl h.1 (body ++ rest)
    exact hread.trans (ih h.2)
  | case3 => exact absurd h (by simp)

/-- The messages of a stream are found while the bodies of the rejected ones do no harm. -/
theorem handed_wire {ms : List UpperMsg}
    (h : ∀ m ∈ ms, m.head.accepted = false → PassedOver m.body = true) (rest : List Byte) :
    handed (wire ms ++ rest) = toDeal ms ++ handed rest := by
  induction ms with
  | nil => rfl
  | cons m ms ih =>
    have ih := ih fun m hm => h m (List.mem_cons_of_mem _ hm)
    have hwire : wire (m :: ms) ++ rest = m.bytes ++ (wire ms ++ rest) := by
      rw [wire, List.flatMap_cons, List.append_assoc]
      rfl
    rw [hwire]
    obtain haccepted | hrejected := Bool.eq_false_or_eq_true m.head.accepted
    · have hdeal : toDeal (m :: ms) = m.dealt :: toDeal ms := by
        rw [toDeal, List.filter_cons_of_pos (by exact haccepted)]
        rfl
      rw [handed_message haccepted, ih, hdeal]
      rfl
    · have hbody := h m (List.mem_cons_self ..) hrejected
      have hdeal : toDeal (m :: ms) = toDeal ms := by
        rw [toDeal, List.filter_cons_of_neg (by simp [hrejected]), toDeal]
      rw [UpperMsg.bytes, List.append_assoc, handed_of_rejected (length_bytes m.head)
        (by rwa [read_bytes]), handed_passedOver hbody, ih, hdeal]

/-! ### A body that does harm -/

/-- A message with a body of `n + 1` zeros. -/
def probe (n : ℕ) (hn : n < 2) (data : BitVec 16) : UpperMsg where
  head := ⟨BitVec.ofNat 16 (sizeofMsgHeader + (n + 1)), 2012, 0, data⟩
  body := List.replicate (n + 1) 0
  length_eq := by
    rw [List.length_replicate, BitVec.toNat_ofNat]
    exact Nat.mod_eq_of_lt (by simp only [sizeofMsgHeader]; omega)
  body_ne := by simp

theorem accepted_probe (n : ℕ) (hn : n < 2) (data : BitVec 16) :
    (probe n hn data).head.accepted = true := by
  have hlen := (probe n hn data).length_eq
  rw [MsgHeader.accepted, hlen]
  change (decide (sizeofMsgHeader + (List.replicate (n + 1) (0 : Byte)).length ≤ _) && _) = true
  rw [List.length_replicate, decide_eq_true (by simp only [sizeofMsgHeader, roomMsgMaxLen]; omega)]
  rfl

/-- What is handed on first has the first header that is not rejected. -/
theorem handed_ne_of_head_ne {l : List Byte} (hl : l.length = sizeofMsgHeader)
    (h : (MsgHeader.read l).accepted = true) (rest : List Byte) {m : UpperMsg}
    (hne : MsgHeader.read l ≠ m.head) : handed (l ++ rest) ≠ [m.dealt] := by
  intro heq
  obtain hnil | ⟨buf, tl, hcons⟩ := handed_of_accepted hl h rest
  · rw [hnil] at heq
    exact absurd heq (by simp)
  · rw [hcons, UpperMsg.dealt] at heq
    exact hne (Prod.mk.inj (List.cons.inj heq).1).1

/-- A body that ends within a header: with the right length of the message behind it, the header that
is read there is not the one of the message. -/
theorem exists_sLen_ne {l : List Byte} (hpos : l ≠ []) (hlt : l.length < sizeofMsgHeader) :
    ∃ (n : ℕ) (hn : n < 2), MsgHeader.read (l ++ (probe n hn 0).head.bytes.take
      (sizeofMsgHeader - l.length)) ≠ (probe n hn 0).head := by
  obtain _ | ⟨b₀, _ | ⟨b₁, l⟩⟩ := l
  · exact absurd rfl hpos
  · refine ⟨0, by decide, fun h => ?_⟩
    have hlen : b₀ ++ (0 : Byte) = (9 : BitVec 16) := congrArg MsgHeader.sLen h
    revert hlen
    revert b₀
    decide
  · obtain ⟨n, hn, hne⟩ : ∃ (n : ℕ) (hn : n < 2), (b₀ ++ b₁ : BitVec 16) ≠ (probe n hn 0).head.sLen := by
      by_cases h : (b₀ ++ b₁ : BitVec 16) = (probe 0 (by decide) 0).head.sLen
      · exact ⟨1, by decide, by rw [h]; decide⟩
      · exact ⟨0, by decide, h⟩
    refine ⟨n, hn, fun h => hne ?_⟩
    rw [← h]
    rfl

/-- What is left of the message then is not a message. -/
theorem handed_rest_probe (k : Fin sizeofMsgHeader) (n : Fin 2) (hk : 0 < k.val) :
    handed ((probe n.val n.isLt 0).head.bytes.drop k.val ++ (probe n.val n.isLt 0).body) = [] := by
  revert k n
  decide +kernel

/-- **A body that does harm**: a message behind it is not found. -/
theorem exists_probe {body : List Byte} (h : PassedOver body = false) :
    ∃ m : UpperMsg, m.head.accepted = true ∧ handed (body ++ m.bytes) ≠ [m.dealt] := by
  fun_induction PassedOver body with
  | case1 => exact absurd h (by simp)
  | case2 b₀ b₁ b₂ b₃ b₄ b₅ b₆ b₇ body ih =>
    obtain ⟨l, hl⟩ : ∃ l : List Byte, l = [b₀, b₁, b₂, b₃, b₄, b₅, b₆, b₇] := ⟨_, rfl⟩
    have hlen : l.length = sizeofMsgHeader := by rw [hl]; rfl
    have hbody : ∀ rest, b₀ :: b₁ :: b₂ :: b₃ :: b₄ :: b₅ :: b₆ :: b₇ :: body ++ rest =
        l ++ (body ++ rest) := by
      intro rest
      rw [hl]
      rfl
    rw [← hl] at h
    obtain haccepted | hrejected := Bool.eq_false_or_eq_true (MsgHeader.read l).accepted
    · obtain ⟨data, hdata⟩ : ∃ data : BitVec 16, (MsgHeader.read l).sData ≠ data := by
        by_cases hzero : (MsgHeader.read l).sData = 0
        · exact ⟨1, by rw [hzero]; decide⟩
        · exact ⟨0, hzero⟩
      refine ⟨probe 0 (by decide) data, accepted_probe 0 (by decide) data, ?_⟩
      rw [hbody]
      refine handed_ne_of_head_ne hlen haccepted _ fun heq => hdata ?_
      rw [heq]
      rfl
    · rw [hrejected, Bool.not_false, Bool.true_and] at h
      obtain ⟨m, hm, hne⟩ := ih h
      refine ⟨m, hm, ?_⟩
      rw [hbody, handed_of_rejected hlen hrejected]
      exact hne
  | case3 body hnil hcons =>
    have hlt : body.length < sizeofMsgHeader := by
      obtain hlt | ⟨l, rest, rfl, hl⟩ := short_or_head body
      · exact hlt
      · obtain _ | ⟨b₀, _ | ⟨b₁, _ | ⟨b₂, _ | ⟨b₃, _ | ⟨b₄, _ | ⟨b₅, _ | ⟨b₆, _ | ⟨b₇, l⟩⟩⟩⟩⟩⟩⟩⟩ := l
        all_goals simp only [List.length_cons, List.length_nil, sizeofMsgHeader] at hl
        all_goals first
          | omega
          | exact absurd rfl (hcons b₀ b₁ b₂ b₃ b₄ b₅ b₆ b₇ (l ++ rest))
    have hpos := List.length_pos_iff.mpr hnil
    obtain ⟨n, hn, hne⟩ := exists_sLen_ne hnil hlt
    refine ⟨probe n hn 0, accepted_probe n hn 0, ?_⟩
    obtain ⟨k, hk⟩ : ∃ k, sizeofMsgHeader - body.length = k := ⟨_, rfl⟩
    obtain ⟨head, hhead⟩ : ∃ head, body ++ (probe n hn 0).head.bytes.take k = head := ⟨_, rfl⟩
    rw [hk, hhead] at hne
    have hlen : head.length = sizeofMsgHeader := by
      rw [← hhead, List.length_append, List.length_take, length_bytes]
      omega
    have hsplit : body ++ (probe n hn 0).bytes =
        head ++ ((probe n hn 0).head.bytes.drop k ++ (probe n hn 0).body) := by
      rw [← hhead, List.append_assoc, ← List.append_assoc (List.take _ _), List.take_append_drop]
      rfl
    have hnone : handed ((probe n hn 0).head.bytes.drop k ++ (probe n hn 0).body) = [] :=
      handed_rest_probe ⟨k, by omega⟩ ⟨n, hn⟩ (by change 0 < k; omega)
    rw [hsplit]
    obtain haccepted | hrejected := Bool.eq_false_or_eq_true (MsgHeader.read head).accepted
    · exact handed_ne_of_head_ne hlen haccepted _ hne
    · rw [handed_of_rejected hlen hrejected, hnone]
      simp

/-- A body does no harm exactly when it can be read as headers that are rejected. -/
theorem handed_passedOver_iff (body : List Byte) :
    (∀ rest, handed (body ++ rest) = handed rest) ↔ PassedOver body = true := by
  refine ⟨fun h => ?_, fun h rest => handed_passedOver h rest⟩
  by_contra hnot
  obtain ⟨m, hm, hne⟩ := exists_probe (Bool.eq_false_iff.mpr hnot)
  refine hne ((h m.bytes).trans ?_)
  have hmessage := handed_message hm []
  rw [List.append_nil, handed_nil] at hmessage
  exact hmessage

/-! ### The lengths of the bodies -/

/-- The length with which the body of a turn is received, if its header is not rejected. -/
theorem bodyLength_of_turn {turn : UpperTurn} (h : upperMsgTurn bytes = some (turn, rest)) :
    turn.bodyLength = if turn.head.accepted then
      some ((turn.head.sLen.toNat : ℤ) - sizeofMsgHeader) else none := by
  obtain hshort | ⟨l, rest', rfl, hl⟩ := short_or_head bytes
  · rw [upperMsgTurn_of_short hshort] at h
    exact absurd h (by simp)
  · obtain haccepted | hrejected := Bool.eq_false_or_eq_true (MsgHeader.read l).accepted
    · rw [upperMsgTurn_of_accepted hl haccepted] at h
      dsimp only at h
      split_ifs at h
      · obtain ⟨rfl, -⟩ := Prod.mk.inj (Option.some.inj h)
        exact (if_pos haccepted).symm
      · obtain ⟨rfl, -⟩ := Prod.mk.inj (Option.some.inj h)
        exact (if_pos haccepted).symm
    · rw [upperMsgTurn_of_rejected hl hrejected] at h
      obtain ⟨rfl, -⟩ := Prod.mk.inj (Option.some.inj h)
      exact (if_neg (by simp [hrejected])).symm

theorem bodyLength_of_mem (bytes : List Byte) : ∀ turn ∈ Turns.all upperMsgTurn bytes,
    turn.bodyLength = if turn.head.accepted then
      some ((turn.head.sLen.toNat : ℤ) - sizeofMsgHeader) else none := by
  refine Turns.all_induction (P := fun l => ∀ turn ∈ Turns.all upperMsgTurn l, turn.bodyLength =
    if turn.head.accepted then some ((turn.head.sLen.toNat : ℤ) - sizeofMsgHeader) else none)
    shrinks_upperMsgTurn (fun l hnone => ?_) (fun l turn rest hsome ih => ?_) bytes
  · rw [Turns.all_of_none hnone]
    exact fun turn hturn => absurd hturn List.not_mem_nil
  · rw [Turns.all_of_some shrinks_upperMsgTurn hsome]
    intro turn' hturn
    obtain rfl | hturn := List.mem_cons.mp hturn
    · exact bodyLength_of_turn hsome
    · exact ih turn' hturn

/-- A body is received with a length that is not negative and fits, unless the length in a header that
is not rejected is below eight. -/
theorem bodyLengths_iff (bytes : List Byte) :
    (∀ len ∈ bodyLengths bytes, 0 ≤ len ∧ len ≤ roomMsgMaxLen) ↔
      ∀ turn ∈ Turns.all upperMsgTurn bytes, turn.head.accepted = true →
        sizeofMsgHeader ≤ turn.head.sLen.toNat := by
  constructor
  · intro h turn hturn haccepted
    have hlen := bodyLength_of_mem bytes turn hturn
    rw [if_pos haccepted] at hlen
    have hle := (h _ (List.mem_filterMap.mpr ⟨turn, hturn, hlen⟩)).1
    omega
  · intro h len hlen
    obtain ⟨turn, hturn, hsome⟩ := List.mem_filterMap.mp hlen
    rw [bodyLength_of_mem bytes turn hturn] at hsome
    split_ifs at hsome with haccepted
    have hle := h turn hturn haccepted
    rw [MsgHeader.accepted, Bool.and_eq_true, decide_eq_true_eq] at haccepted
    have hmax := haccepted.1
    obtain rfl := Option.some.inj hsome
    omega

/-! ### When the messages are found -/

/-- **The messages of the upper connection.** However a stream goes on with messages that are not
rejected, all of them are handed on, once and in order, exactly when the bodies of the rejected ones
can be read as headers that are rejected too. And in any stream of bytes the length of a body lies
between 0 and the size of the buffer exactly when no header that is not rejected gives a length below
eight. -/
theorem framed_iff (ms : List UpperMsg) (bytes : List Byte) :
    ((∀ pre, pre <+: ms → ∀ more : List UpperMsg, (∀ m ∈ more, m.head.accepted = true) →
        handed (wire (pre ++ more)) = toDeal (pre ++ more)) ↔
      ∀ m ∈ ms, m.head.accepted = false → PassedOver m.body = true) ∧
    ((∀ len ∈ bodyLengths bytes, 0 ≤ len ∧ len ≤ roomMsgMaxLen) ↔
      ∀ turn ∈ Turns.all upperMsgTurn bytes, turn.head.accepted = true →
        sizeofMsgHeader ≤ turn.head.sLen.toNat) := by
  refine ⟨⟨fun h => ?_, fun h pre hpre more hmore => ?_⟩, bodyLengths_iff bytes⟩
  · -- the first message with a harmful body, with a message behind it that is not found
    intro m hm hrejected
    by_contra hnot
    obtain ⟨l₁, m₀, l₂, hms, hm₀, hbefore⟩ : ∃ l₁ m₀ l₂, ms = l₁ ++ m₀ :: l₂ ∧
        (m₀.head.accepted = false ∧ PassedOver m₀.body = false) ∧
        ∀ m' ∈ l₁, m'.head.accepted = false → PassedOver m'.body = true := by
      have hharm : (!m.head.accepted && !PassedOver m.body) = true := by simp [hrejected, hnot]
      obtain ⟨m₀, hfind⟩ := Option.isSome_iff_exists.mp (List.find?_isSome
        (p := fun m => !m.head.accepted && !PassedOver m.body).mpr ⟨m, hm, hharm⟩)
      obtain ⟨hm₀, l₁, l₂, hms, hbefore⟩ := List.find?_eq_some_iff_append.mp hfind
      refine ⟨l₁, m₀, l₂, hms, by simpa using hm₀, fun m' hm' hrej => ?_⟩
      have hno := hbefore m' hm'
      rw [hrej] at hno
      simpa using hno
    obtain ⟨g, hg, hne⟩ := exists_probe hm₀.2
    have hall := h (l₁ ++ [m₀]) ⟨l₂, by rw [hms]; simp⟩ [g] fun m' hm' => by
      rw [List.mem_singleton.mp hm']
      exact hg
    have hwire : wire (l₁ ++ [m₀] ++ [g]) = wire l₁ ++ (m₀.head.bytes ++ (m₀.body ++ g.bytes)) := by
      simp [wire, UpperMsg.bytes]
    have hdeal : toDeal (l₁ ++ [m₀] ++ [g]) = toDeal l₁ ++ [g.dealt] := by
      simp [toDeal, List.filter_append, hm₀.1, hg]
    rw [hwire, hdeal, handed_wire hbefore, handed_of_rejected (length_bytes m₀.head)
      (by rw [read_bytes]; exact hm₀.1)] at hall
    exact hne (List.append_cancel_left hall)
  · have hharmless : ∀ m ∈ pre ++ more, m.head.accepted = false → PassedOver m.body = true := by
      intro m hm hrejected
      obtain hm | hm := List.mem_append.mp hm
      · exact h m (hpre.subset hm) hrejected
      · rw [hmore m hm] at hrejected
        exact absurd hrejected (by decide)
    have hread := handed_wire hharmless []
    rwa [List.append_nil, handed_nil, List.append_nil] at hread

/-- A message of an old version with one byte, and one that is to be dealt with. -/
def oldAndNew : List UpperMsg :=
  [⟨⟨9, 2011, 0, 0⟩, [1], by decide, by decide⟩, ⟨⟨9, 2012, 0, 0⟩, [2], by decide, by decide⟩]

/-- The message behind one that is rejected is lost; and a header with the length 4 makes the length of
the body -4. -/
theorem message_behind_rejected_lost :
    handed (wire oldAndNew) = [] ∧ (toDeal oldAndNew).length = 1 ∧
      handed (wire oldAndNew) ≠ toDeal oldAndNew ∧
      bodyLengths [0, 4, 0x07, 0xdc, 0, 0, 0, 0] = [-4] := by
  have hlost : handed (wire oldAndNew) = [] := by decide +kernel
  have hone : (toDeal oldAndNew).length = 1 := by decide +kernel
  refine ⟨hlost, hone, fun heq => ?_, by decide +kernel⟩
  rw [← heq, hlost] at hone
  exact absurd hone (by decide)

end Room

end ReachEdukit
