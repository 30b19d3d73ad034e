import ReachEdukit.Lib.Memory
import ReachEdukit.Rtp.Packet

/-!
# Receiving an exact number of bytes

`tcp_recv` and `recv_enc_tcp_data` call `recv` until all bytes are there. When `recv` returns 0 or -1
both read `errno` to decide if they try again. But a `recv` that returns 0 does not set `errno`: what
they read is left over from an earlier call, of this loop or of anything before it. If this is the value
for which they try again, they never return, since a peer that has closed stays closed.

The two functions differ in the value for which they try again, and in what they return for a peer that
has closed.

## What is left out

The log lines and `usleep`, which are taken to leave `errno` as it is.

## Main definitions

* `RecvResults` — what the calls of `recv` return
* `recvStep` — one turn of the loop
* `tcpRecv`, `recvEncTcpData` — the two functions
* `ExactReceive` — what is asked of them
* `ClosesInRetry` — the peer closes while `errno` has the value for trying again

## Main results

* `Receiving.step` — what a turn keeps
* `RecvResults.exactReceive_iff` — when one function does what is asked of it
* `receive_iff` — when the two do
-/

namespace ReachEdukit

namespace Enc

open Memory

open Rtp (Byte Buffer)

/-- `EAGAIN`. -/
def eagain : ℤ := 11

/-- `EINTR`. -/
def eintr : ℤ := 4

/-- What a call of `recv` returns. -/
inductive RecvResult
  /-- A positive count, and these bytes. -/
  | data (bytes : List Byte)
  /-- 0. -/
  | closed
  /-- -1, with `errno`. -/
  | error (errno : ℤ)
  deriving DecidableEq, Repr

/-- The bytes of a result. -/
def RecvResult.bytes : RecvResult → List Byte
  | .data bytes => bytes
  | _ => []

/-- The bytes of the first `n` results. -/
def received (result : ℕ → RecvResult) (n : ℕ) : List Byte :=
  (List.range n).flatMap fun k => (result k).bytes

/-- The results of the calls that are made to receive `len` bytes. -/
structure RecvResults (len : ℤ) where
  result : ℕ → RecvResult
  /-- A count is positive, and not above what was asked for. -/
  counts : ∀ n bytes, result n = .data bytes →
    bytes ≠ [] ∧ ((received result n).length + bytes.length : ℤ) ≤ len
  /-- A peer that has closed stays closed. -/
  closed : ∀ n m, result n = .closed → n ≤ m → result m = .closed

/-! ### The loop -/

/-- The state of the loop. -/
structure RecvState where
  toplen : ℕ
  buff : Buffer
  errno : ℤ
  /-- What the function has returned. -/
  ret : Option ℤ

/-- The head of the loop: with all bytes there, their number is returned. -/
def RecvState.loopHead (s : RecvState) (len : ℤ) : RecvState :=
  if len - s.toplen > 0 then s else { s with ret := some s.toplen }

/-- One turn: `retry` is the value of `errno` for which the function tries again, and `onClosed` what it
returns for a peer that has closed. -/
def recvTurn (retry onClosed len : ℤ) (s : RecvState) : RecvResult → RecvState
  | .data bytes =>
    RecvState.loopHead { s with
      buff := blit s.buff s.toplen bytes, toplen := s.toplen + bytes.length } len
  | .closed => if s.errno = retry then s else { s with ret := some onClosed }
  | .error errno =>
    if errno = retry then { s with errno := errno } else { s with errno := errno, ret := some (-1) }

/-- One call of `recv`, unless the function has returned. -/
def recvStep (retry onClosed len : ℤ) (s : RecvState) (r : RecvResult) : RecvState :=
  if s.ret.isSome then s else recvTurn retry onClosed len s r

/-- The loop after `n` calls of `recv`. -/
def recvLoop (retry onClosed len : ℤ) (buff : Buffer) (errno : ℤ) (result : ℕ → RecvResult) :
    ℕ → RecvState
  | 0 => RecvState.loopHead ⟨0, buff, errno, none⟩ len
  | n + 1 => recvStep retry onClosed len (recvLoop retry onClosed len buff errno result n) (result n)

/-- `tcp_recv`. -/
def tcpRecv (len : ℤ) (buff : Buffer) (errno : ℤ) (result : ℕ → RecvResult) : ℕ → RecvState :=
  recvLoop eagain (-1) len buff errno result

/-- `recv_enc_tcp_data`. -/
def recvEncTcpData (buflen : ℤ) (buf : Buffer) (errno : ℤ) (result : ℕ → RecvResult) :
    ℕ → RecvState :=
  recvLoop eintr 0 buflen buf errno result

/-! ### What is asked of the two functions -/

/-- The peer has closed, or there is an error for which the function does not try again. -/
def RecvResult.Ends (retry : ℤ) : RecvResult → Prop
  | .data _ => False
  | .closed => True
  | .error errno => errno ≠ retry

/-- The function returns when the peer has closed or there was an error that ends it; and it returns the
length only when the calls up to its return have received exactly so many bytes, and these are in the
buffer in this order. -/
structure ExactReceive (state : ℕ → RecvState) (retry len : ℤ) (result : ℕ → RecvResult) : Prop where
  returns : (∃ n, (result n).Ends retry) → ∃ n r, (state n).ret = some r
  exact : ∀ n, (state n).ret = some len → ∃ m ≤ n, (∀ k < m, (state k).ret = none) ∧
    (state m).ret = some len ∧ (state n).buff = (state m).buff ∧
    ((received result m).length : ℤ) = len ∧
    window (state m).buff 0 (received result m).length = received result m

/-- The peer closes before all bytes are there and before another error, and `errno` has the value for
trying again: from the start, or from a call that failed with it. -/
def ClosesInRetry (retry len errno : ℤ) (result : ℕ → RecvResult) : Prop :=
  ∃ n, result n = .closed ∧ ((received result n).length : ℤ) < len ∧
    (∀ m < n, ∀ e, result m = .error e → e = retry) ∧
    (errno = retry ∨ ∃ m < n, result m = .error retry)

variable {retry onClosed len errno : ℤ} {buff : Buffer} {result : ℕ → RecvResult} {n m : ℕ}
  {s : RecvState}

theorem received_succ (result : ℕ → RecvResult) (n : ℕ) :
    received result (n + 1) = received result n ++ (result n).bytes := by
  rw [received, List.range_succ, List.flatMap_append, List.flatMap_singleton]
  rfl

theorem length_received_le (result : ℕ → RecvResult) (h : n ≤ m) :
    (received result n).length ≤ (received result m).length := by
  induction m, h using Nat.le_induction with
  | base => exact le_rfl
  | succ m _ ih =>
    rw [received_succ, List.length_append]
    exact ih.trans (Nat.le_add_right _ _)

/-! ### A turn -/

theorem recvStep_of_returned {r : ℤ} (h : s.ret = some r) (x : RecvResult) :
    recvStep retry onClosed len s x = s := by
  rw [recvStep, h]
  rfl

theorem recvStep_of_none (h : s.ret = none) (x : RecvResult) :
    recvStep retry onClosed len s x = recvTurn retry onClosed len s x :=
  if_neg (by simp [h])

/-- A function that has returned stays returned, with the buffer as it is. -/
theorem recvLoop_of_returned {r : ℤ}
    (h : (recvLoop retry onClosed len buff errno result n).ret = some r) (hm : n ≤ m) :
    recvLoop retry onClosed len buff errno result m =
      recvLoop retry onClosed len buff errno result n := by
  induction m, hm using Nat.le_induction with
  | base => rfl
  | succ m _ ih => rw [recvLoop, ih, recvStep_of_returned h]

/-- After `n` calls the function has not returned: what has been received is in the buffer, and the calls
that failed did so with the value for trying again. -/
structure Receiving (retry len errno : ℤ) (result : ℕ → RecvResult) (n : ℕ) (s : RecvState) :
    Prop where
  ret : s.ret = none
  toplen : s.toplen = (received result n).length
  lt : ((received result n).length : ℤ) < len
  stored : window s.buff 0 (received result n).length = received result n
  errors : ∀ m < n, ∀ e, result m = .error e → e = retry
  /-- `errno` has the value for trying again, if it had it at the start or a call has failed. -/
  errno : s.errno = retry ↔ errno = retry ∨ ∃ m < n, result m = .error retry

/-- The function has just returned the length. -/
structure Received (len : ℤ) (result : ℕ → RecvResult) (n : ℕ) (s : RecvState) : Prop where
  length : ((received result n).length : ℤ) = len
  stored : window s.buff 0 (received result n).length = received result n

/-- A call that does not fail leaves what is known of the errors. -/
theorem errors_succ (hno : ∀ e, result n ≠ .error e) :
    ((∀ m < n + 1, ∀ e, result m = .error e → e = retry) ↔
      ∀ m < n, ∀ e, result m = .error e → e = retry) ∧
    ((∃ m < n + 1, result m = .error retry) ↔ ∃ m < n, result m = .error retry) := by
  rw [Nat.forall_lt_succ_right, Nat.exists_lt_succ_right]
  exact ⟨and_iff_left fun e he => absurd he (hno e), or_iff_left (hno retry)⟩

/-- **Bytes are received**: the function goes on, or it returns what it was asked for. -/
theorem Receiving.data (h : Receiving retry len errno result n s) {bytes : List Byte}
    (hr : result n = .data bytes)
    (hle : ((received result n).length + bytes.length : ℤ) ≤ len) :
    Receiving retry len errno result (n + 1) (recvStep retry onClosed len s (result n)) ∨
      (recvStep retry onClosed len s (result n)).ret = some len ∧
        Received len result (n + 1) (recvStep retry onClosed len s (result n)) := by
  have hnext : received result (n + 1) = received result n ++ bytes := by
    rw [received_succ, hr]
    rfl
  have hlength : (received result (n + 1)).length = s.toplen + bytes.length := by
    rw [hnext, List.length_append, h.toplen]
  have hstored : window (blit s.buff s.toplen bytes) 0 (received result (n + 1)).length =
      received result (n + 1) := by
    rw [hnext, List.length_append, h.toplen]
    exact window_blit_append h.stored
  have hno : ∀ e, result n ≠ .error e := fun e he => RecvResult.noConfusion (hr.symm.trans he)
  obtain ⟨herrors, hexists⟩ := errors_succ hno
  have hstep : recvStep retry onClosed len s (result n) = RecvState.loopHead
      { s with buff := blit s.buff s.toplen bytes, toplen := s.toplen + bytes.length } len := by
    rw [recvStep_of_none h.ret, hr]
    rfl
  rw [hstep, RecvState.loopHead]
  by_cases hmore : len - (s.toplen + bytes.length : ℕ) > 0
  · left
    rw [if_pos hmore]
    refine ⟨h.ret, hlength.symm, by omega, hstored, herrors.mpr h.errors, ?_⟩
    rw [hexists]
    exact h.errno
  · right
    rw [if_neg hmore]
    have hall : ((s.toplen + bytes.length : ℕ) : ℤ) = len := by
      rw [h.toplen] at hmore ⊢
      push_cast at hmore ⊢
      omega
    exact ⟨congrArg some hall, by rw [hlength, hall], hstored⟩

/-- **The peer has closed**: the function goes on if `errno` has the value for trying again. -/
theorem Receiving.closed (h : Receiving retry len errno result n s) (hr : result n = .closed) :
    (s.errno = retry →
      Receiving retry len errno result (n + 1) (recvStep retry onClosed len s (result n))) ∧
    (s.errno ≠ retry → (recvStep retry onClosed len s (result n)).ret = some onClosed) := by
  have hstep : recvStep retry onClosed len s (result n) =
      if s.errno = retry then s else { s with ret := some onClosed } := by
    rw [recvStep_of_none h.ret, hr]
    rfl
  have hnext : received result (n + 1) = received result n := by
    rw [received_succ, hr]
    exact List.append_nil _
  have hno : ∀ e, result n ≠ .error e := fun e he => RecvResult.noConfusion (hr.symm.trans he)
  obtain ⟨herrors, hexists⟩ := errors_succ hno
  constructor
  · intro hretry
    rw [hstep, if_pos hretry]
    constructor
    · exact h.ret
    · rw [hnext, h.toplen]
    · rw [hnext]
      exact h.lt
    · rw [hnext]
      exact h.stored
    · exact herrors.mpr h.errors
    · rw [hexists]
      exact h.errno
  · intro hretry
    rw [hstep, if_neg hretry]

/-- **A call fails**: the function goes on if this is the error for which it tries again. -/
theorem Receiving.error (h : Receiving retry len errno result n s) {e : ℤ} (hr : result n = .error e) :
    (e = retry →
      Receiving retry len errno result (n + 1) (recvStep retry onClosed len s (result n))) ∧
    (e ≠ retry → (recvStep retry onClosed len s (result n)).ret = some (-1)) := by
  have hstep : recvStep retry onClosed len s (result n) =
      if e = retry then { s with errno := e } else { s with errno := e, ret := some (-1) } := by
    rw [recvStep_of_none h.ret, hr]
    rfl
  have hnext : received result (n + 1) = received result n := by
    rw [received_succ, hr]
    exact List.append_nil _
  constructor
  · intro hretry
    rw [hstep, if_pos hretry]
    constructor
    · exact h.ret
    · rw [hnext]
      exact h.toplen
    · rw [hnext]
      exact h.lt
    · rw [hnext]
      exact h.stored
    · rw [Nat.forall_lt_succ_right]
      refine ⟨h.errors, fun e' he' => ?_⟩
      obtain rfl : e = e' := RecvResult.error.inj (hr.symm.trans he')
      exact hretry
    · rw [Nat.exists_lt_succ_right]
      exact iff_of_true hretry (.inr (.inr (hretry ▸ hr)))
  · intro hretry
    rw [hstep, if_neg hretry]

/-! ### A call of the function -/

theorem recvLoop_zero (h : 0 < len) : Receiving retry len errno result 0
    (recvLoop retry onClosed len buff errno result 0) := by
  have hhead : recvLoop retry onClosed len buff errno result 0 = ⟨0, buff, errno, none⟩ := by
    rw [recvLoop, RecvState.loopHead, if_pos (by simpa using h)]
  rw [hhead]
  exact ⟨rfl, rfl, h, rfl, fun m hm => absurd hm (Nat.not_lt_zero m), by simp⟩

/-- With nothing to receive the function returns at once. -/
theorem ret_recvLoop_zero (h : len ≤ 0) :
    (recvLoop retry onClosed len buff errno result 0).ret = some 0 := by
  rw [recvLoop, RecvState.loopHead, if_neg (by simpa using h)]
  rfl

/-- The function returns `r` after exactly `m` calls; if this is the length, it has received so many
bytes. -/
structure ReturnsAt (state : ℕ → RecvState) (len : ℤ) (result : ℕ → RecvResult) (m : ℕ) (r : ℤ) :
    Prop where
  before : ∀ k < m, (state k).ret = none
  ret : (state m).ret = some r
  exact : r = len → Received len result m (state m)

section Call

variable (retry onClosed errno : ℤ) (buff : Buffer) (results : RecvResults len)

theorem ret_of_receiving
    (h : Receiving retry len errno result n (recvLoop retry onClosed len buff errno result n)) :
    ∀ k ≤ n, (recvLoop retry onClosed len buff errno result k).ret = none := by
  intro k hk
  by_contra hsome
  obtain ⟨r, hr⟩ := Option.ne_none_iff_exists'.mp hsome
  have hsame := recvLoop_of_returned hr hk
  rw [← hsame, h.ret] at hr
  exact Option.some_ne_none r hr.symm

/-- **A run of the loop.** After `n` calls the function is still receiving, or it has returned. -/
theorem receiving_or_returns (hlen : 0 < len) (honClosed : onClosed ≤ 0) (n : ℕ) :
    Receiving retry len errno results.result n
        (recvLoop retry onClosed len buff errno results.result n) ∨
      ∃ m ≤ n, ∃ r,
        ReturnsAt (recvLoop retry onClosed len buff errno results.result) len results.result m r := by
  induction n with
  | zero => exact .inl (recvLoop_zero hlen)
  | succ n ih =>
    rcases ih with h | ⟨m, hm, r, hr⟩
    · have hbefore := ret_of_receiving retry onClosed errno buff h
      have hreturns : ∀ r, (recvLoop retry onClosed len buff errno results.result (n + 1)).ret = some r →
          (r = len → Received len results.result (n + 1)
            (recvLoop retry onClosed len buff errno results.result (n + 1))) →
          ∃ m ≤ n + 1, ∃ r, ReturnsAt (recvLoop retry onClosed len buff errno results.result) len
            results.result m r :=
        fun r hr hexact => ⟨n + 1, le_rfl, r, fun k hk => hbefore k (by omega), hr, hexact⟩
      cases hresult : results.result n with
      | data bytes =>
        rcases h.data hresult (results.counts n bytes hresult).2 with hnext | ⟨hret, hreceived⟩
        · exact .inl hnext
        · exact .inr (hreturns len hret fun _ => hreceived)
      | closed =>
        by_cases hretry : (recvLoop retry onClosed len buff errno results.result n).errno = retry
        · exact .inl ((h.closed hresult).1 hretry)
        · exact .inr (hreturns onClosed ((h.closed hresult).2 hretry) fun heq => by omega)
      | error e =>
        by_cases hretry : e = retry
        · exact .inl ((h.error hresult).1 hretry)
        · exact .inr (hreturns (-1) ((h.error hresult).2 hretry) fun heq => by omega)
    · exact .inr ⟨m, Nat.le_succ_of_le hm, r, hr⟩

/-- **As long as the peer closes in this way the function does not return.** -/
theorem receiving_of_closesInRetry (h : ClosesInRetry retry len errno results.result) (n : ℕ) :
    Receiving retry len errno results.result n
      (recvLoop retry onClosed len buff errno results.result n) := by
  obtain ⟨c, hclosed, hlt, herrors, hretry⟩ := h
  have hlen : 0 < len := by omega
  induction n with
  | zero => exact recvLoop_zero hlen
  | succ n ih =>
    have hopen : ∀ {k}, results.result k ≠ .closed → k < c := by
      intro k hk
      by_contra hge
      exact hk (results.closed c k hclosed (not_lt.mp hge))
    cases hresult : results.result n with
    | data bytes =>
      have hn : n < c := hopen (by simp [hresult])
      rcases ih.data hresult (results.counts n bytes hresult).2 with hnext | ⟨-, hreceived⟩
      · exact hnext
      · have hle : (received results.result (n + 1)).length ≤ (received results.result c).length :=
          length_received_le results.result hn
        have hall := hreceived.length
        omega
    | closed =>
      refine (ih.closed hresult).1 (ih.errno.mpr (hretry.imp_right ?_))
      rintro ⟨m, -, hm⟩
      have hmn : m < n := by
        by_contra hge
        exact RecvResult.noConfusion (hm.symm.trans (results.closed n m hresult (not_lt.mp hge)))
      exact ⟨m, hmn, hm⟩
    | error e =>
      exact (ih.error hresult).1 (herrors n (hopen (by simp [hresult])) e hresult)

/-- **Exact receive**: the function returns, and only with what it was asked for, exactly when the peer
does not close while `errno` has the value for trying again. -/
theorem exactReceive_iff (honClosed : onClosed ≤ 0) :
    ExactReceive (recvLoop retry onClosed len buff errno results.result) retry len results.result ↔
      ¬ ClosesInRetry retry len errno results.result := by
  constructor
  · intro h hcloses
    obtain ⟨c, hclosed, -⟩ := id hcloses
    have hends : (results.result c).Ends retry := by
      rw [hclosed]
      trivial
    obtain ⟨n, r, hr⟩ := h.returns ⟨c, hends⟩
    have hreceiving := receiving_of_closesInRetry retry onClosed errno buff results hcloses n
    exact Option.some_ne_none r (hr.symm.trans hreceiving.ret)
  · intro hcloses
    by_cases hlen : 0 < len
    · constructor
      · rintro ⟨n, hn⟩
        obtain h | ⟨m, -, r, hr⟩ :=
          receiving_or_returns retry onClosed errno buff results hlen honClosed n
        · cases hresult : results.result n with
          | data bytes =>
            rw [hresult] at hn
            exact hn.elim
          | closed =>
            refine ⟨n + 1, onClosed, (h.closed hresult).2 fun hretry => hcloses ?_⟩
            exact ⟨n, hresult, h.lt, h.errors, h.errno.mp hretry⟩
          | error e =>
            rw [hresult] at hn
            exact ⟨n + 1, -1, (h.error hresult).2 hn⟩
        · exact ⟨m, r, hr.ret⟩
      · intro n hret
        obtain h | ⟨m, hm, r, hr⟩ :=
          receiving_or_returns retry onClosed errno buff results hlen honClosed n
        · exact absurd (hret.symm.trans h.ret) (Option.some_ne_none len)
        · have hsame := recvLoop_of_returned hr.ret hm
          rw [hsame, hr.ret] at hret
          obtain rfl := Option.some.inj hret
          have hexact := hr.exact rfl
          exact ⟨m, hm, hr.before, hr.ret, congrArg RecvState.buff hsame, hexact.length,
            hexact.stored⟩
    · have hzero : (recvLoop retry onClosed len buff errno results.result 0).ret = some 0 :=
        ret_recvLoop_zero (not_lt.mp hlen)
      constructor
      · exact fun _ => ⟨0, 0, hzero⟩
      · intro n hret
        have hsame := recvLoop_of_returned hzero (Nat.zero_le n)
        rw [hsame, hzero] at hret
        obtain rfl := Option.some.inj hret
        exact ⟨0, Nat.zero_le n, fun k hk => absurd hk (Nat.not_lt_zero k), hzero,
          congrArg RecvState.buff hsame, rfl, rfl⟩

end Call

/-- **The two functions** do what is asked of them exactly when the peer does not close while `errno`
has the value for which they try again. -/
theorem receive_iff (len : ℤ) (buff : Buffer) (errno : ℤ) (results : RecvResults len) :
    (ExactReceive (tcpRecv len buff errno results.result) eagain len results.result ↔
      ¬ ClosesInRetry eagain len errno results.result) ∧
    (ExactReceive (recvEncTcpData len buff errno results.result) eintr len results.result ↔
      ¬ ClosesInRetry eintr len errno results.result) :=
  ⟨exactReceive_iff eagain (-1) errno buff results (by decide),
    exactReceive_iff eintr 0 errno buff results le_rfl⟩

/-- A peer that closes at once. -/
def closedAtOnce (len : ℤ) : RecvResults len where
  result _ := .closed
  counts _ _ h := RecvResult.noConfusion h
  closed _ _ _ _ := rfl

/-- A peer that closes before the eight bytes of a header, with `EAGAIN` or `EINTR` left over. -/
theorem not_exactReceive_closed :
    ¬ ∀ len buff errno (results : RecvResults len),
      ExactReceive (tcpRecv len buff errno results.result) eagain len results.result ∧
      ExactReceive (recvEncTcpData len buff errno results.result) eintr len results.result := by
  intro h
  obtain ⟨n, r, hr⟩ := (h 8 (fun _ => 0) eagain (closedAtOnce 8)).1.returns ⟨0, trivial⟩
  have hcloses : ClosesInRetry eagain 8 eagain (closedAtOnce 8).result :=
    ⟨0, rfl, by decide, fun m hm => absurd hm (Nat.not_lt_zero m), .inl rfl⟩
  have hreceiving :=
    receiving_of_closesInRetry eagain (-1) eagain (fun _ => 0) (closedAtOnce 8) hcloses n
  exact Option.some_ne_none r (hr.symm.trans hreceiving.ret)

end Enc

end ReachEdukit
