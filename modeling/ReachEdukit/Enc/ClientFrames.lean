import ReachEdukit.Enc.TcpRecv
import ReachEdukit.Lib.Turns

/-!
# The frames of the encoder's control connection

A message is a header of eight bytes, which gives the length of the whole in 16 bits, and an XML text.
`recv_client_msg_thread` receives the text into `szData`, of 2048 bytes, and looks only that there is a
text: a header may announce up to 65535 bytes. `tcp_send_data` builds a message in `tmpbuf`, of 2050
bytes, and does not look at the length of the text at all. So the longest message that may be sent has
2050 bytes, and the longest that may be received 2056.

## What is left out

What is done with a text, the state of the client, and `gRunStatus`, which ends the loop between two
messages. The connection ends behind the bytes.

## Main definitions

* `clientMsgTurn`, `requests` — one turn of the receiving loop, and the lengths with which texts are
  received
* `AnnouncesTooMuch` — a header that announces more than `szData` takes, behind complete messages
* `tcpSendData`, `SendsFramed` — sending a text, and what is asked of it

## Main results

* `recvTcp_eq` — what a call of `tcp_recv` takes off the stream
* `requestsFit_iff` — when the texts fit `szData`
* `sendsFramed_iff` — when a text can be sent
* `requests_sent` — what is sent is received
* `framing_iff` — both sides
-/

namespace ReachEdukit

namespace Enc

open Memory

open Rtp (Byte Buffer be16 be16_append extract_two)

/-! ### Headers -/

/-- `sizeof(MsgHead)`. -/
def sizeofMsgHead : ℕ := 8

/-- `sizeof(szData)`. -/
def sizeofSzData : ℕ := 2048

/-- `sizeof(tmpbuf)`. -/
def sizeofTmpbuf : ℕ := 2050

/-- The version that both sides know. -/
def msgHeadVer : BitVec 16 := 2012

/-- `MsgHead`. The length and the version are in network order on the wire, the other two in the order
of the machine. -/
structure MsgHead where
  sLen : BitVec 16
  sVer : BitVec 16
  sMsgCode : BitVec 16
  sData : BitVec 16
  deriving DecidableEq, Repr

/-- A 16-bit value in the order of the machine. -/
def le16 (w : BitVec 16) : List Byte := [w.extractLsb' 0 8, w.extractLsb' 8 8]

/-- The header on the wire. -/
def MsgHead.bytes (head : MsgHead) : List Byte :=
  be16 head.sLen ++ be16 head.sVer ++ le16 head.sMsgCode ++ le16 head.sData

/-- The header in the first eight bytes. -/
def MsgHead.read (l : List Byte) : MsgHead where
  sLen := l.getD 0 0 ++ l.getD 1 0
  sVer := l.getD 2 0 ++ l.getD 3 0
  sMsgCode := l.getD 5 0 ++ l.getD 4 0
  sData := l.getD 7 0 ++ l.getD 6 0

theorem MsgHead.read_bytes (head : MsgHead) : MsgHead.read head.bytes = head := by
  have hread : MsgHead.read head.bytes =
      ⟨head.sLen.extractLsb' 8 8 ++ head.sLen.extractLsb' 0 8,
        head.sVer.extractLsb' 8 8 ++ head.sVer.extractLsb' 0 8,
        head.sMsgCode.extractLsb' 8 8 ++ head.sMsgCode.extractLsb' 0 8,
        head.sData.extractLsb' 8 8 ++ head.sData.extractLsb' 0 8⟩ := rfl
  rw [hread, be16_append, be16_append, be16_append, be16_append]

theorem MsgHead.length_bytes (head : MsgHead) : head.bytes.length = sizeofMsgHead := rfl

/-- The first eight bytes are the header that is read from them. -/
theorem MsgHead.bytes_read {l : List Byte} (h : l.length = sizeofMsgHead) :
    (MsgHead.read l).bytes = l := by
  have hbe : ∀ a b : Byte, be16 (a ++ b) = [a, b] := by
    intro a b
    rw [be16, (extract_two a b).1, (extract_two a b).2]
  have hle : ∀ a b : Byte, le16 (b ++ a) = [a, b] := by
    intro a b
    rw [le16, (extract_two b a).1, (extract_two b a).2]
  have hcons : ∀ {n : ℕ} {l : List Byte}, l.length = n + 1 → ∃ b rest, l = b :: rest ∧ rest.length = n := by
    intro n l h
    obtain ⟨b, rest, rfl⟩ := List.exists_cons_of_length_eq_add_one h
    exact ⟨b, rest, rfl, Nat.succ.inj h⟩
  obtain ⟨b₀, l₁, rfl, h₁⟩ := hcons h
  obtain ⟨b₁, l₂, rfl, h₂⟩ := hcons h₁
  obtain ⟨b₂, l₃, rfl, h₃⟩ := hcons h₂
  obtain ⟨b₃, l₄, rfl, h₄⟩ := hcons h₃
  obtain ⟨b₄, l₅, rfl, h₅⟩ := hcons h₄
  obtain ⟨b₅, l₆, rfl, h₆⟩ := hcons h₅
  obtain ⟨b₆, l₇, rfl, h₇⟩ := hcons h₆
  obtain ⟨b₇, l₈, rfl, h₈⟩ := hcons h₇
  obtain rfl := List.length_eq_zero_iff.mp h₈
  change be16 (b₀ ++ b₁) ++ be16 (b₂ ++ b₃) ++ le16 (b₅ ++ b₄) ++ le16 (b₇ ++ b₆) = _
  rw [hbe, hbe, hle, hle]
  rfl

/-! ### Receiving -/

/-- What `tcp_recv` leaves behind. -/
structure RecvTcp where
  /-- What it returns. -/
  ret : ℤ
  /-- The bytes that are stored. -/
  stored : List Byte
  /-- The bytes that are still to come. -/
  rest : List Byte

/-- `tcp_recv` on a stream that ends behind the bytes. -/
def recvTcp (bytes : List Byte) (len : ℤ) : RecvTcp :=
  if (bytes.length : ℤ) < len then ⟨-1, bytes, []⟩
  else ⟨len.toNat, bytes.take len.toNat, bytes.drop len.toNat⟩

/-- A turn of the loop that gets to the text of a message. -/
structure ClientTurn where
  /-- The length with which the text is received. -/
  requested : ℤ
  /-- `szData`, when it is given to `parse_cli_xml_msg`. -/
  parsed : Option (List Byte)
  deriving DecidableEq, Repr

/-- `szData` with a text at its front. -/
def szData (text : List Byte) : List Byte := text ++ List.replicate (sizeofSzData - text.length) 0

/-- One turn of the loop in `recv_client_msg_thread`, and the bytes that are left, none when the loop is
left before a text. -/
def clientMsgTurn (bytes : List Byte) : Option (ClientTurn × List Byte) :=
  let head := recvTcp bytes sizeofMsgHead
  if head.ret = -1 then none
  else
    let msgInfo := MsgHead.read head.stored
    if msgInfo.sVer ≠ msgHeadVer then none
    else
      let totalLen : ℤ := msgInfo.sLen.toNat - sizeofMsgHead
      if totalLen ≤ 0 then none
      else
        let text := recvTcp head.rest totalLen
        -- a text that is too long has left `szData`: there is nothing to say of what comes then
        if text.ret = -1 ∨ text.ret < totalLen ∨ sizeofSzData < totalLen then some (⟨totalLen, none⟩, [])
        else some (⟨totalLen, some (szData text.stored)⟩, text.rest)

/-- The lengths with which texts are received. -/
def requests (bytes : List Byte) : List ℤ :=
  (Turns.all clientMsgTurn bytes).map ClientTurn.requested

/-- The texts fit `szData`, and no length is negative. -/
def RequestsFit (bytes : List Byte) : Prop := ∀ len ∈ requests bytes, 0 ≤ len ∧ len ≤ sizeofSzData

/-- A message of the right version with a text that fits `szData`. -/
structure ClientMsg where
  head : MsgHead
  text : List Byte
  version : head.sVer = msgHeadVer
  /-- The length of the whole message. -/
  length_eq : head.sLen.toNat = sizeofMsgHead + text.length
  /-- There is a text. -/
  text_ne : text ≠ []
  fits : text.length ≤ sizeofSzData

/-- The message on the wire. -/
def ClientMsg.bytes (m : ClientMsg) : List Byte := m.head.bytes ++ m.text

/-- Behind complete messages there is a header of the right version that announces more than `szData`
takes. -/
def AnnouncesTooMuch (bytes : List Byte) : Prop :=
  ∃ (ms : List ClientMsg) (head : MsgHead) (rest : List Byte),
    bytes = ms.flatMap ClientMsg.bytes ++ (head.bytes ++ rest) ∧ head.sVer = msgHeadVer ∧
      sizeofMsgHead + sizeofSzData < head.sLen.toNat

variable {bytes rest : List Byte} {head : MsgHead} {len : ℤ}

/-- **A call of `tcp_recv`** that returns the length has stored the bytes that come first in the
stream. -/
theorem recvTcp_eq {buff : Buffer} {errno : ℤ} {results : RecvResults len} {n : ℕ} (hlen : 0 < len)
    (hret : (tcpRecv len buff errno results.result n).ret = some len)
    (hbytes : ∀ n, received results.result n <+: bytes) :
    (recvTcp bytes len).ret = len ∧
      window (tcpRecv len buff errno results.result n).buff 0 len.toNat = (recvTcp bytes len).stored := by
  obtain h | ⟨m, hm, r, hr⟩ :=
    receiving_or_returns eagain (-1) errno buff results hlen (by decide) n
  · exact absurd (hret.symm.trans h.ret) (Option.some_ne_none len)
  · have hsame : tcpRecv len buff errno results.result n = tcpRecv len buff errno results.result m :=
      recvLoop_of_returned hr.ret hm
    rw [hsame] at hret ⊢
    obtain rfl := Option.some.inj (hr.ret.symm.trans hret)
    obtain ⟨hlength, hstored⟩ := hr.exact rfl
    obtain ⟨tail, rfl⟩ := hbytes m
    have hnat : r.toNat = (received results.result m).length := by omega
    rw [recvTcp, if_neg (by rw [List.length_append]; omega), hnat, List.take_left]
    exact ⟨hlength, hstored⟩

theorem recvTcp_append (l rest : List Byte) : recvTcp (l ++ rest) l.length = ⟨l.length, l, rest⟩ := by
  rw [recvTcp, if_neg (by rw [List.length_append]; omega), Int.toNat_natCast, List.take_left,
    List.drop_left]

theorem recvTcp_of_lt (h : (bytes.length : ℤ) < len) : recvTcp bytes len = ⟨-1, bytes, []⟩ := if_pos h

/-- Fewer bytes than a header has end the loop. -/
theorem clientMsgTurn_of_short (h : bytes.length < sizeofMsgHead) : clientMsgTurn bytes = none := by
  rw [clientMsgTurn, recvTcp_of_lt (by omega)]
  rfl

/-- What a turn does behind the header. -/
theorem clientMsgTurn_head (head : MsgHead) (rest : List Byte) :
    clientMsgTurn (head.bytes ++ rest) =
      if head.sVer ≠ msgHeadVer then none
      else if head.sLen.toNat ≤ sizeofMsgHead then none
      else if (recvTcp rest (head.sLen.toNat - sizeofMsgHead)).ret = -1 ∨
          (recvTcp rest (head.sLen.toNat - sizeofMsgHead)).ret < head.sLen.toNat - sizeofMsgHead ∨
          sizeofMsgHead + sizeofSzData < head.sLen.toNat then
        some (⟨head.sLen.toNat - sizeofMsgHead, none⟩, [])
      else some (⟨head.sLen.toNat - sizeofMsgHead,
        some (szData (recvTcp rest (head.sLen.toNat - sizeofMsgHead)).stored)⟩,
        (recvTcp rest (head.sLen.toNat - sizeofMsgHead)).rest) := by
  have hrecv := recvTcp_append head.bytes rest
  rw [head.length_bytes] at hrecv
  rw [clientMsgTurn, hrecv]
  change (if (8 : ℤ) = -1 then _ else _) = _
  rw [if_neg (by decide)]
  change (if (MsgHead.read head.bytes).sVer ≠ msgHeadVer then _ else _) = _
  rw [head.read_bytes]
  have hle : ((head.sLen.toNat : ℤ) - sizeofMsgHead ≤ 0) = (head.sLen.toNat ≤ sizeofMsgHead) := by
    rw [eq_iff_iff]
    omega
  have hlong : ((sizeofSzData : ℤ) < head.sLen.toNat - sizeofMsgHead) =
      (sizeofMsgHead + sizeofSzData < head.sLen.toNat) := by
    rw [eq_iff_iff]
    omega
  simp only [hle, hlong]

/-- A complete message is received, and its text is given to the parser. -/
theorem clientMsgTurn_message (m : ClientMsg) (rest : List Byte) :
    clientMsgTurn (m.bytes ++ rest) = some (⟨m.text.length, some (szData m.text)⟩, rest) := by
  have hpos := List.length_pos_iff.mpr m.text_ne
  have hfits := m.fits
  have hlen : (m.head.sLen.toNat : ℤ) - sizeofMsgHead = m.text.length := by
    rw [m.length_eq]
    push_cast
    ring
  rw [ClientMsg.bytes, List.append_assoc, clientMsgTurn_head, if_neg (not_not_intro m.version),
    if_neg (by rw [m.length_eq]; omega), hlen, recvTcp_append, m.length_eq]
  rw [if_neg]
  rintro (h | h | h)
  · change (m.text.length : ℤ) = -1 at h
    omega
  · exact absurd h (lt_irrefl _)
  · omega

/-- A header that announces too much. -/
theorem clientMsgTurn_tooMuch (hver : head.sVer = msgHeadVer)
    (hlong : sizeofMsgHead + sizeofSzData < head.sLen.toNat) (rest : List Byte) :
    clientMsgTurn (head.bytes ++ rest) = some (⟨head.sLen.toNat - sizeofMsgHead, none⟩, []) := by
  rw [clientMsgTurn_head, if_neg (not_not_intro hver), if_neg (by omega), if_pos (.inr (.inr hlong))]

/-- **A turn of the loop**: a complete message; a header that announces too much; or the loop is left, and
a length with which a text was received fitted. -/
theorem clientMsgTurn_cases {turn : ClientTurn} (h : clientMsgTurn bytes = some (turn, rest)) :
    (∃ m : ClientMsg, bytes = m.bytes ++ rest ∧ turn.requested = m.text.length) ∨
      rest = [] ∧ ((∃ (head : MsgHead) (tail : List Byte), bytes = head.bytes ++ tail ∧
          head.sVer = msgHeadVer ∧ sizeofMsgHead + sizeofSzData < head.sLen.toNat) ∨
        0 ≤ turn.requested ∧ turn.requested ≤ sizeofSzData) := by
  obtain hshort | hlong := Nat.lt_or_ge bytes.length sizeofMsgHead
  · rw [clientMsgTurn_of_short hshort] at h
    exact absurd h.symm (Option.some_ne_none _)
  · have htake : (bytes.take sizeofMsgHead).length = sizeofMsgHead := List.length_take_of_le hlong
    obtain ⟨head, tail, rfl⟩ : ∃ (head : MsgHead) (tail : List Byte), bytes = head.bytes ++ tail :=
      ⟨MsgHead.read (bytes.take sizeofMsgHead), bytes.drop sizeofMsgHead, by
        rw [MsgHead.bytes_read htake, List.take_append_drop]⟩
    rw [clientMsgTurn_head] at h
    by_cases hver : head.sVer = msgHeadVer
    · rw [if_neg (not_not_intro hver)] at h
      by_cases hpos : head.sLen.toNat ≤ sizeofMsgHead
      · rw [if_pos hpos] at h
        exact absurd h.symm (Option.some_ne_none _)
      · rw [if_neg hpos] at h
        by_cases hmuch : sizeofMsgHead + sizeofSzData < head.sLen.toNat
        · rw [if_pos (.inr (.inr hmuch))] at h
          obtain ⟨-, rfl⟩ := Prod.mk.inj (Option.some.inj h)
          exact .inr ⟨rfl, .inl ⟨head, tail, rfl, hver, hmuch⟩⟩
        · by_cases hall : (tail.length : ℤ) < head.sLen.toNat - sizeofMsgHead
          · rw [recvTcp_of_lt hall, if_pos (.inl rfl)] at h
            obtain ⟨rfl, rfl⟩ := Prod.mk.inj (Option.some.inj h)
            exact .inr ⟨rfl, .inr ⟨by change (0 : ℤ) ≤ _ - _; omega, by change (_ : ℤ) - _ ≤ _; omega⟩⟩
          · obtain ⟨text, tail, rfl, htext⟩ : ∃ text rest', tail = text ++ rest' ∧
                (head.sLen.toNat : ℤ) - sizeofMsgHead = text.length := by
              refine ⟨tail.take (head.sLen.toNat - sizeofMsgHead),
                tail.drop (head.sLen.toNat - sizeofMsgHead), (List.take_append_drop ..).symm, ?_⟩
              rw [List.length_take_of_le (by omega)]
              omega
            have hne : text ≠ [] := by
              rintro rfl
              change _ = (0 : ℤ) at htext
              omega
            obtain ⟨m, rfl, rfl⟩ : ∃ m : ClientMsg, m.head = head ∧ m.text = text :=
              ⟨⟨head, text, hver, by omega, hne, by omega⟩, rfl, rfl⟩
            have hmessage := clientMsgTurn_message m tail
            rw [ClientMsg.bytes, List.append_assoc, clientMsgTurn_head, if_neg (not_not_intro hver),
              if_neg hpos] at hmessage
            obtain ⟨rfl, rfl⟩ := Prod.mk.inj (Option.some.inj (h.symm.trans hmessage))
            exact .inl ⟨m, (List.append_assoc ..).symm, rfl⟩
    · rw [if_pos hver] at h
      exact absurd h.symm (Option.some_ne_none _)

theorem shrinks_clientMsgTurn : Turns.Shrinks clientMsgTurn := by
  intro bytes turn rest h
  have hbytes : 0 < bytes.length := by
    by_contra hnil
    rw [clientMsgTurn_of_short (by simp only [sizeofMsgHead]; omega)] at h
    exact Option.some_ne_none _ h.symm
  obtain ⟨m, rfl, -⟩ | ⟨rfl, -⟩ := clientMsgTurn_cases h
  · rw [ClientMsg.bytes, List.length_append, List.length_append, m.head.length_bytes, sizeofMsgHead]
    omega
  · exact hbytes

theorem requests_of_none (h : clientMsgTurn bytes = none) : requests bytes = [] := by
  rw [requests, Turns.all_of_none h]
  rfl

theorem requests_nil : requests [] = [] := requests_of_none (clientMsgTurn_of_short (by decide))

theorem requests_of_some {turn : ClientTurn} (h : clientMsgTurn bytes = some (turn, rest)) :
    requests bytes = turn.requested :: requests rest := by
  rw [requests, Turns.all_of_some shrinks_clientMsgTurn h]
  rfl

/-- Complete messages are received one after the other. -/
theorem requests_messages (ms : List ClientMsg) (rest : List Byte) :
    requests (ms.flatMap ClientMsg.bytes ++ rest) =
      (ms.map fun m => (m.text.length : ℤ)) ++ requests rest := by
  induction ms with
  | nil => rfl
  | cons m ms ih =>
    rw [List.flatMap_cons, List.append_assoc, requests_of_some (clientMsgTurn_message m _), ih]
    rfl

/-- **The receiving side.** The texts fit `szData` exactly when no header announces more. -/
theorem requestsFit_iff (bytes : List Byte) : RequestsFit bytes ↔ ¬ AnnouncesTooMuch bytes := by
  constructor
  · rintro hfit ⟨ms, head, rest, rfl, hver, hlong⟩
    have hmem : (head.sLen.toNat - sizeofMsgHead : ℤ) ∈
        requests (ms.flatMap ClientMsg.bytes ++ (head.bytes ++ rest)) := by
      rw [requests_messages, requests_of_some (clientMsgTurn_tooMuch hver hlong rest)]
      exact List.mem_append_right _ (List.mem_cons_self ..)
    have hle := (hfit _ hmem).2
    omega
  · induction bytes using Turns.all_induction shrinks_clientMsgTurn with
    | hend bytes hnone =>
      intro _ len hlen
      rw [requests_of_none hnone] at hlen
      exact absurd hlen List.not_mem_nil
    | hturn bytes turn rest hsome ih =>
      intro hmuch len hlen
      rw [requests_of_some hsome] at hlen
      obtain ⟨m, rfl, hrequested⟩ | ⟨rfl, hcases⟩ := clientMsgTurn_cases hsome
      · rcases List.mem_cons.mp hlen with rfl | hlen
        · have hfits := m.fits
          omega
        · refine ih ?_ len hlen
          rintro ⟨ms, head, rest', rfl, hver, hlong⟩
          exact hmuch ⟨m :: ms, head, rest', by rw [List.flatMap_cons, List.append_assoc], hver, hlong⟩
      · obtain ⟨head, tail, rfl, hver, hlong⟩ | hfits := hcases
        · exact absurd ⟨[], head, tail, rfl, hver, hlong⟩ hmuch
        · rcases List.mem_cons.mp hlen with rfl | hlen
          · exact hfits
          · rw [requests_nil] at hlen
            exact absurd hlen List.not_mem_nil

/-! ### Sending -/

/-- A text: its bytes up to the terminator. -/
abbrev Text := { s : List Byte // 0 ∉ s }

/-- `send_len`. -/
def sendLen (s : Text) : ℕ := s.val.length + sizeofMsgHead

/-- The header of the message. -/
def sendHead (s : Text) : MsgHead where
  sLen := BitVec.ofNat 16 (sendLen s)
  sVer := msgHeadVer
  sMsgCode := 1
  sData := 0

/-- `tmpbuf` with the header and the text, none when the text leaves it. -/
def tmpbuf (s : Text) : Option Buffer := do
  let buf ← memcpy (fun _ => 0) sizeofTmpbuf 0 (ofList 0 (sendHead s).bytes) sizeofMsgHead 0 sizeofMsgHead
  memcpy buf sizeofTmpbuf sizeofMsgHead (ofList 0 s.val) s.val.length 0 s.val.length

/-- What a call of `send` returns. -/
inductive SendResult
  /-- The kernel takes so many bytes, or all that are left. -/
  | room (count : ℕ)
  /-- -1, with `errno`. -/
  | error (errno : ℤ)
  deriving DecidableEq, Repr

/-- `ENOBUFS`. -/
def enobufs : ℤ := 105

/-- The loop of `WriteData`: what it returns and how many bytes are sent, none when it has not returned
after these calls of `send`. -/
def writeData (nSize nWriteLen nCount : ℕ) : List SendResult → Option (ℤ × ℕ)
  | [] => if nWriteLen < nSize then none else some (nWriteLen, nWriteLen)
  | .room count :: rs =>
    if nWriteLen < nSize then
      if count = 0 then writeData nSize nWriteLen nCount rs
      else writeData nSize (nWriteLen + min count (nSize - nWriteLen)) 0 rs
    else some (nWriteLen, nWriteLen)
  | .error errno :: rs =>
    if nWriteLen < nSize then
      if (errno = enobufs ∨ errno = 11) ∧ nCount < 10 then writeData nSize nWriteLen (nCount + 1) rs
      else some (-1, nWriteLen)
    else some (nWriteLen, nWriteLen)

/-- `tcp_send_data`: what it returns, and the bytes that are sent. -/
def tcpSendData (s : Text) (results : List SendResult) : Option (ℤ × List Byte) := do
  let buf ← tmpbuf s
  let r ← writeData (sendLen s) 0 0 results
  some (if r.1 < 0 then -1 else 0, window buf 0 r.2)

/-- The message stays in `tmpbuf`; the header announces the length with which it is sent; and when the
function does not return an error, the bytes that have been sent are as many, the header and the text. -/
structure SendsFramed (s : Text) : Prop where
  fits : (tmpbuf s).isSome = true
  announced : (sendHead s).sLen.toNat = sendLen s
  sent : ∀ results bytes, tcpSendData s results = some (0, bytes) →
    bytes.length = (sendHead s).sLen.toNat ∧ bytes = (sendHead s).bytes ++ s.val

variable {s : Text}

/-- A `WriteData` that does not fail sends all. -/
theorem writeData_eq_some {nSize nWriteLen nCount k : ℕ} {results : List SendResult} {r : ℤ}
    (hle : nWriteLen ≤ nSize) (h : writeData nSize nWriteLen nCount results = some (r, k)) :
    r = -1 ∨ k = nSize := by
  have hend : ∀ {w : ℕ}, w ≤ nSize → ¬ w < nSize → some ((w : ℤ), w) = some (r, k) → k = nSize := by
    intro w hw hlt heq
    obtain ⟨-, rfl⟩ := Prod.mk.inj (Option.some.inj heq)
    omega
  induction results generalizing nWriteLen nCount with
  | nil =>
    rw [writeData] at h
    by_cases hlt : nWriteLen < nSize
    · rw [if_pos hlt] at h
      exact absurd h.symm (Option.some_ne_none _)
    · rw [if_neg hlt] at h
      exact .inr (hend hle hlt h)
  | cons x results ih =>
    cases x with
    | room count =>
      rw [writeData] at h
      by_cases hlt : nWriteLen < nSize
      · rw [if_pos hlt] at h
        by_cases hcount : count = 0
        · rw [if_pos hcount] at h
          exact ih hle h
        · rw [if_neg hcount] at h
          exact ih (by omega) h
      · rw [if_neg hlt] at h
        exact .inr (hend hle hlt h)
    | error errno =>
      rw [writeData] at h
      by_cases hlt : nWriteLen < nSize
      · rw [if_pos hlt] at h
        by_cases hagain : (errno = enobufs ∨ errno = 11) ∧ nCount < 10
        · rw [if_pos hagain] at h
          exact ih hle h
        · rw [if_neg hagain] at h
          obtain ⟨rfl, -⟩ := Prod.mk.inj (Option.some.inj h)
          exact .inl rfl
      · rw [if_neg hlt] at h
        exact .inr (hend hle hlt h)

/-- The header in `tmpbuf`. -/
theorem memcpy_head (s : Text) :
    memcpy (fun _ => 0) sizeofTmpbuf 0 (ofList 0 (sendHead s).bytes) sizeofMsgHead 0 sizeofMsgHead =
      some (blit (fun _ => 0) 0 (sendHead s).bytes) := by
  have hlength := (sendHead s).length_bytes
  have hroom : 0 + sizeofMsgHead ≤ sizeofMsgHead := (Nat.zero_add _).le
  rw [memcpy_natCast (by decide) hroom, window_ofList 0 (by rw [hlength, Nat.zero_add]), List.drop_zero,
    ← hlength, List.take_length]

/-- The text behind it, when it is not too long: then the message is at the front of `tmpbuf`. -/
theorem tmpbuf_of_le (h : sendLen s ≤ sizeofTmpbuf) :
    ∃ buf, tmpbuf s = some buf ∧ window buf 0 (sendLen s) = (sendHead s).bytes ++ s.val := by
  have hroom : sizeofMsgHead + s.val.length ≤ sizeofTmpbuf := by
    rw [sendLen] at h
    omega
  refine ⟨blit (blit (fun _ => 0) 0 (sendHead s).bytes) sizeofMsgHead s.val, ?_, ?_⟩
  · rw [tmpbuf, memcpy_head]
    change memcpy _ _ _ _ _ _ _ = _
    rw [memcpy_natCast hroom (by rw [Nat.zero_add]), window_ofList 0 (by rw [Nat.zero_add]),
      List.drop_zero, List.take_length]
  · have hhead : window (blit (fun _ => (0 : Byte)) 0 (sendHead s).bytes) 0 (sendHead s).bytes.length =
        (sendHead s).bytes := window_blit_self ..
    have hall : window (blit (blit (fun _ => 0) 0 (sendHead s).bytes) (sendHead s).bytes.length s.val) 0
        ((sendHead s).bytes.length + s.val.length) = (sendHead s).bytes ++ s.val :=
      window_blit_append hhead
    rwa [MsgHead.length_bytes, Nat.add_comm] at hall

/-- A text that is too long leaves `tmpbuf`. -/
theorem tmpbuf_of_lt (h : sizeofTmpbuf < sendLen s) : tmpbuf s = none := by
  rw [tmpbuf, memcpy_head]
  change memcpy _ _ _ _ _ _ _ = _
  rw [memcpy_eq_none_iff]
  rintro ⟨-, hroom, -⟩
  rw [sendLen] at h
  omega

/-- **The sending side.** A text can be sent exactly when it fits `tmpbuf` behind the header. -/
theorem sendsFramed_iff (s : Text) : SendsFramed s ↔ sendLen s ≤ sizeofTmpbuf := by
  constructor
  · intro h
    by_contra hlong
    have hfits := h.fits
    rw [tmpbuf_of_lt (not_le.mp hlong)] at hfits
    exact Bool.false_ne_true hfits
  · intro h
    obtain ⟨buf, hbuf, hwindow⟩ := tmpbuf_of_le h
    have hannounced : (sendHead s).sLen.toNat = sendLen s := by
      change (BitVec.ofNat 16 (sendLen s)).toNat = sendLen s
      rw [BitVec.toNat_ofNat]
      exact Nat.mod_eq_of_lt (h.trans_lt (by decide))
    refine ⟨by rw [hbuf]; rfl, hannounced, fun results bytes hsend => ?_⟩
    obtain ⟨buf', hbuf', hsend⟩ := Option.bind_eq_some_iff.mp hsend
    obtain rfl := Option.some.inj (hbuf.symm.trans hbuf')
    obtain ⟨⟨r, k⟩, hwrite, hsend⟩ := Option.bind_eq_some_iff.mp hsend
    obtain ⟨hret, rfl⟩ := Prod.mk.inj (Option.some.inj hsend)
    obtain rfl | rfl := writeData_eq_some (Nat.zero_le _) hwrite
    · change (-1 : ℤ) = 0 at hret
      exact absurd hret (by decide)
    · exact ⟨(length_window ..).trans hannounced.symm, hwindow⟩

/-! ### Both sides -/

/-- A text that can be sent is a message that can be received. -/
def msgOf (s : Text) (hne : s.val ≠ []) (h : sendLen s ≤ sizeofTmpbuf) : ClientMsg where
  head := sendHead s
  text := s.val
  version := rfl
  length_eq := by
    rw [((sendsFramed_iff s).mpr h).announced, sendLen, Nat.add_comm]
  text_ne := hne
  fits := by
    rw [sendLen] at h
    simp only [sizeofTmpbuf, sizeofMsgHead, sizeofSzData] at h ⊢
    omega

/-- **What is sent is received**: the texts that come first on the stream are received with their
lengths. -/
theorem requests_sent {texts : List Text}
    (h : ∀ s ∈ texts, s.val ≠ [] ∧ sendLen s ≤ sizeofTmpbuf) (rest : List Byte) :
    requests (texts.flatMap (fun s => (sendHead s).bytes ++ s.val) ++ rest) =
      (texts.map fun s => (s.val.length : ℤ)) ++ requests rest := by
  induction texts with
  | nil => rfl
  | cons s texts ih =>
    obtain ⟨hne, hle⟩ := h s (List.mem_cons_self ..)
    have hturn := clientMsgTurn_message (msgOf s hne hle)
      (texts.flatMap (fun s => (sendHead s).bytes ++ s.val) ++ rest)
    rw [List.flatMap_cons, List.append_assoc]
    refine (requests_of_some hturn).trans ?_
    rw [ih fun s hs => h s (List.mem_cons_of_mem _ hs)]
    rfl

/-- **The frames stay in their buffers.** On a stream, the texts fit `szData` exactly when no header
announces more; and a text is sent as it should be exactly when it fits `tmpbuf` behind the header. -/
theorem framing_iff (bytes : List Byte) (s : Text) :
    (RequestsFit bytes ↔ ¬ AnnouncesTooMuch bytes) ∧ (SendsFramed s ↔ sendLen s ≤ sizeofTmpbuf) :=
  ⟨requestsFit_iff bytes, sendsFramed_iff s⟩

/-- A header that announces 2057 bytes. -/
theorem requested_too_much :
    ¬ ((∀ bytes, RequestsFit bytes) ∧ ∀ s, SendsFramed s) := by
  rintro ⟨hfit, -⟩
  have hmem : (2049 : ℤ) ∈ requests (MsgHead.bytes ⟨2057, 2012, 1, 0⟩) := by decide +kernel
  exact absurd (hfit _ _ hmem).2 (by decide)

end Enc

end ReachEdukit
