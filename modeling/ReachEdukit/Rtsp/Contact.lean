import ReachEdukit.Lib.Run
import ReachEdukit.Rtsp.Request

/-!
# The receive loop of a connection

`RtspVlcContact` looks for the end of a request in the piece it has just received. A piece without
it takes the place of what is in `pRecv`; a piece with it is put behind that, and all of it is one
request, after which `pRecv` is empty. So at most two pieces make a request, and all requests that
end in one piece are one.

What is done with a request is a parameter here: `serve` answers what becomes of the connection, or
`none` when it goes to its exit.

## What is left out

A `recv` that fails or times out, which leaves `pRecv` as it is, and the clients that are shut down
from outside. A piece that does not fit behind what is in `pRecv` ends the run: `strcat` then leaves
the buffer.

## Main definitions

* `contact`, `dispatched` — the loop, and the requests it dispatches
* `Cut` — requests cut at their ends, or once before their last four bytes

## Main results

* `dispatched_whole` — requests that arrive whole are dispatched
* `dispatched_iff_cut` — so are exactly the requests that are cut like this
-/

namespace ReachEdukit

namespace Rtsp

variable {σ : Type*}

/-- The end of a request, twice carriage return and line feed. -/
def crlf2 : Text := [cr, lf, cr, lf]

/-- What one piece does to `pRecv` and the connection, and the requests that are dispatched. -/
def contact (serve : σ → Text → Option σ) :
    Option (Text × σ) → Text → Option (Text × σ) × List Text
  | none, _ => (none, [])
  | some (recv, conn), piece =>
    if ¬ crlf2 <:+: piece then (some (piece, conn), [])
    else if 2 * tcpBuffLen ≤ (recv ++ piece).length then (none, [])
    else ((serve conn (recv ++ piece)).map ([], ·), [recv ++ piece])

/-- The requests that are dispatched over the pieces. -/
def dispatched (serve : σ → Text → Option σ) (conn : σ) (pieces : List Text) : List Text :=
  (Run.outs (contact serve) (some ([], conn)) pieces).flatten

/-- A request as it is sent: without a body. -/
structure Sent (r : Text) : Prop where
  /-- It is a string. -/
  noNul : (0 : Byte) ∉ r
  /-- It fits the buffer of one `recv`. -/
  short : r.length < tcpBuffLen
  /-- It has an end. -/
  ends : crlf2 <:+ r
  /-- There is no end inside. -/
  once : ¬ crlf2 <:+: r.dropLast

/-- A piece, as `recv` gives it. -/
def IsPiece (p : Text) : Prop := p ≠ [] ∧ p.length ≤ tcpBuffLen

/-- Requests in pieces: each is one piece, or two of which the second has its end. -/
inductive Cut : List Text → List Text → Prop
  | nil : Cut [] []
  | whole {r : Text} {rs ps : List Text} : Cut rs ps → Cut (r :: rs) (r :: ps)
  | halves {a b : Text} {rs ps : List Text} :
    4 ≤ b.length → Cut rs ps → Cut ((a ++ b) :: rs) (a :: b :: ps)

/-- The connection goes on after every request but the last. -/
def StaysOn (serve : σ → Text → Option σ) : σ → List Text → Prop
  | _, [] => True
  | conn, r :: rs => rs ≠ [] → ∃ conn', serve conn r = some conn' ∧ StaysOn serve conn' rs

variable {serve : σ → Text → Option σ}

theorem Sent.infix {r : Text} (h : Sent r) : crlf2 <:+: r := h.ends.isInfix

/-- A first half has no end of a request, and a second one of four bytes has. -/
theorem Sent.halves {a b : Text} (h : Sent (a ++ b)) (hb : 4 ≤ b.length) :
    ¬ crlf2 <:+: a ∧ crlf2 <:+: b := by
  have hne : b ≠ [] := by
    rintro rfl
    simp at hb
  constructor
  · intro ha
    refine h.once (ha.trans ?_)
    rw [List.dropLast_append_of_ne_nil hne]
    exact (List.prefix_append a b.dropLast).isInfix
  · exact (List.suffix_of_suffix_length_le h.ends (List.suffix_append a b) hb).isInfix

/-! ### One request -/

theorem contact_without {recv piece : Text} (conn : σ) (h : ¬ crlf2 <:+: piece) :
    contact serve (some (recv, conn)) piece = (some (piece, conn), []) :=
  if_pos h

theorem contact_with {recv piece : Text} (conn : σ) (h : crlf2 <:+: piece)
    (hroom : (recv ++ piece).length < 2 * tcpBuffLen) :
    contact serve (some (recv, conn)) piece =
      ((serve conn (recv ++ piece)).map ([], ·), [recv ++ piece]) := by
  rw [contact, if_neg (not_not_intro h), if_neg (Nat.not_le.mpr hroom)]

/-- What is dispatched from a state of the loop on. -/
def dispatchedFrom (serve : σ → Text → Option σ) (state : Option (Text × σ)) (pieces : List Text) :
    List Text :=
  (Run.outs (contact serve) state pieces).flatten

theorem dispatchedFrom_cons (state : Option (Text × σ)) (p : Text) (ps : List Text) :
    dispatchedFrom serve state (p :: ps) =
      (contact serve state p).2 ++ dispatchedFrom serve (contact serve state p).1 ps := rfl

/-- Nothing is dispatched after the exit. -/
theorem dispatchedFrom_none (pieces : List Text) : dispatchedFrom serve none pieces = [] := by
  induction pieces with
  | nil => rfl
  | cons p ps ih => exact ih

/-! ### Requests that are cut at their ends -/

theorem Cut.eq_nil {ps : List Text} (h : Cut [] ps) : ps = [] := by
  cases h
  rfl

/-- A request that is dispatched, and those behind it. -/
theorem dispatchedFrom_served {conn : σ} {r : Text} {rs ps : List Text} (hcut : Cut rs ps)
    (hon : StaysOn serve conn (r :: rs))
    (hrest : ∀ conn', StaysOn serve conn' rs → dispatched serve conn' ps = rs) :
    dispatchedFrom serve ((serve conn r).map ([], ·)) ps = rs := by
  by_cases hrs : rs = []
  · subst hrs
    rw [hcut.eq_nil]
    rfl
  · obtain ⟨conn', hserve, hon'⟩ := hon hrs
    rw [hserve]
    exact hrest conn' hon'

/-- **Requests that are cut like this** are dispatched. -/
theorem dispatched_of_cut {conn : σ} {requests pieces : List Text}
    (hsent : ∀ r ∈ requests, Sent r) (hcut : Cut requests pieces)
    (hon : StaysOn serve conn requests) : dispatched serve conn pieces = requests := by
  induction hcut generalizing conn with
  | nil => rfl
  | @whole r rs ps hcut ih =>
    obtain ⟨hr, hrs⟩ := List.forall_mem_cons.mp hsent
    have hroom : ([] ++ r).length < 2 * tcpBuffLen := by
      have hshort := hr.short
      rw [List.nil_append]
      omega
    show dispatchedFrom serve (some ([], conn)) (r :: ps) = r :: rs
    rw [dispatchedFrom_cons, contact_with conn hr.infix hroom, List.nil_append,
      dispatchedFrom_served hcut hon fun conn' hon' => ih hrs hon']
    rfl
  | @halves a b rs ps hb hcut ih =>
    obtain ⟨hr, hrs⟩ := List.forall_mem_cons.mp hsent
    obtain ⟨ha, hend⟩ := hr.halves hb
    have hroom : (a ++ b).length < 2 * tcpBuffLen := by
      have hshort := hr.short
      omega
    show dispatchedFrom serve (some ([], conn)) (a :: b :: ps) = (a ++ b) :: rs
    rw [dispatchedFrom_cons, contact_without conn ha, dispatchedFrom_cons,
      contact_with conn hend hroom,
      dispatchedFrom_served hcut hon fun conn' hon' => ih hrs hon']
    rfl

theorem cut_self (requests : List Text) : Cut requests requests := by
  induction requests with
  | nil => exact .nil
  | cons r rs ih => exact .whole ih

/-- Requests that arrive whole are dispatched. -/
theorem dispatched_whole {conn : σ} {requests : List Text} (hsent : ∀ r ∈ requests, Sent r)
    (hon : StaysOn serve conn requests) : dispatched serve conn requests = requests :=
  dispatched_of_cut hsent (cut_self requests) hon

/-! ### Nothing else is dispatched -/

/-- Every byte is dispatched at most once. -/
theorem length_dispatchedFrom_le (recv : Text) (conn : σ) (pieces : List Text) :
    (dispatchedFrom serve (some (recv, conn)) pieces).flatten.length ≤
      recv.length + pieces.flatten.length := by
  induction pieces generalizing recv conn with
  | nil => exact Nat.zero_le _
  | cons p ps ih =>
    rw [dispatchedFrom_cons, List.flatten_append, List.length_append, List.flatten_cons,
      List.length_append]
    by_cases hp : crlf2 <:+: p
    · by_cases hroom : (recv ++ p).length < 2 * tcpBuffLen
      · rw [contact_with conn hp hroom]
        have hrest : (dispatchedFrom serve ((serve conn (recv ++ p)).map ([], ·)) ps).flatten.length ≤
            ps.flatten.length := by
          cases hserve : serve conn (recv ++ p) with
          | none =>
            show (dispatchedFrom serve none ps).flatten.length ≤ _
            rw [dispatchedFrom_none]
            exact Nat.zero_le _
          | some conn' => simpa using ih [] conn'
        simp only [List.flatten_singleton, List.length_append]
        omega
      · rw [contact, if_neg (not_not_intro hp), if_pos (Nat.not_lt.mp hroom), dispatchedFrom_none]
        exact Nat.zero_le _
    · rw [contact_without conn hp]
      have hrest := ih p conn
      simp only [List.flatten_nil, List.length_nil]
      omega

/-- **When every byte is dispatched**, the requests are cut at their ends: what is in `pRecv` is the
first piece of the next one. -/
theorem cut_of_dispatchedFrom {recv : Text} {conn : σ} {pieces : List Text}
    (hpieces : ∀ p ∈ pieces, p ≠ [])
    (hall : (dispatchedFrom serve (some (recv, conn)) pieces).flatten.length =
      recv.length + pieces.flatten.length) :
    Cut (dispatchedFrom serve (some (recv, conn)) pieces)
        (if recv = [] then pieces else recv :: pieces) ∧
      StaysOn serve conn (dispatchedFrom serve (some (recv, conn)) pieces) := by
  induction pieces generalizing recv conn with
  | nil =>
    have hzero : 0 = recv.length := by simpa [dispatchedFrom] using hall
    rw [if_pos (List.length_eq_zero_iff.mp hzero.symm)]
    exact ⟨.nil, trivial⟩
  | cons p ps ih =>
    obtain ⟨hp, hps⟩ := List.forall_mem_cons.mp hpieces
    rw [dispatchedFrom_cons] at hall ⊢
    by_cases hend : crlf2 <:+: p
    · by_cases hroom : (recv ++ p).length < 2 * tcpBuffLen
      · rw [contact_with conn hend hroom] at hall ⊢
        -- what is behind the request is dispatched, too
        have hrest : (dispatchedFrom serve ((serve conn (recv ++ p)).map ([], ·)) ps).flatten.length =
            ps.flatten.length := by
          simp only [List.singleton_append, List.flatten_cons, List.length_append] at hall
          omega
        have hcut : Cut (dispatchedFrom serve ((serve conn (recv ++ p)).map ([], ·)) ps) ps ∧
            StaysOn serve conn
              ((recv ++ p) :: dispatchedFrom serve ((serve conn (recv ++ p)).map ([], ·)) ps) := by
          cases hserve : serve conn (recv ++ p) with
          | none =>
            rw [hserve] at hrest
            have hnone : dispatchedFrom serve (Option.map ([], ·) (none : Option σ)) ps = [] :=
              dispatchedFrom_none ps
            rw [hnone] at hrest ⊢
            have hnil : ps = [] := by
              cases ps with
              | nil => rfl
              | cons q qs =>
                have hq := List.length_pos_iff.mpr (hps q (List.mem_cons_self ..))
                simp only [List.flatten_nil, List.length_nil, List.flatten_cons,
                  List.length_append] at hrest
                omega
            rw [hnil]
            exact ⟨.nil, fun h => absurd rfl h⟩
          | some conn' =>
            rw [hserve] at hrest
            obtain ⟨hcut, hon⟩ := @ih [] conn' hps (by simpa using hrest)
            exact ⟨hcut, fun _ => ⟨conn', hserve, hon⟩⟩
        refine ⟨?_, hcut.2⟩
        split_ifs with hrecv
        · subst hrecv
          exact .whole hcut.1
        · have hlen : 4 ≤ p.length := hend.length_le
          exact .halves hlen hcut.1
      · rw [contact, if_neg (not_not_intro hend), if_pos (Nat.not_lt.mp hroom),
          dispatchedFrom_none] at hall
        have hpos := List.length_pos_iff.mpr hp
        simp only [List.append_nil, List.flatten_nil, List.length_nil, List.flatten_cons,
          List.length_append] at hall
        omega
    · rw [contact_without conn hend] at hall ⊢
      have hle : (dispatchedFrom serve (some (p, conn)) ps).flatten.length ≤
          p.length + ps.flatten.length := length_dispatchedFrom_le p conn ps
      simp only [List.nil_append, List.flatten_cons, List.length_append] at hall
      have hrecv : recv = [] := List.length_eq_zero_iff.mp (by omega)
      obtain ⟨hcut, hon⟩ := @ih p conn hps (by omega)
      rw [if_neg hp] at hcut
      rw [if_pos hrecv]
      exact ⟨hcut, hon⟩

/-- **Requests do not depend on how they are cut** exactly when each arrives in one piece, or in two
of which the second has its last four bytes, and none but the last ends the connection. -/
theorem dispatched_iff_cut {serve : σ → Text → Option σ} {conn : σ} {requests pieces : List Text}
    (hsent : ∀ r ∈ requests, Sent r) (hpieces : ∀ p ∈ pieces, IsPiece p)
    (hsame : pieces.flatten = requests.flatten) :
    dispatched serve conn pieces = requests ↔
      Cut requests pieces ∧ StaysOn serve conn requests := by
  constructor
  · intro h
    have hall : (dispatchedFrom serve (some ([], conn)) pieces).flatten.length =
        ([] : Text).length + pieces.flatten.length := by
      show (dispatched serve conn pieces).flatten.length = _
      rw [h, hsame, List.length_nil, Nat.zero_add]
    have hcut := cut_of_dispatchedFrom (fun p hp => (hpieces p hp).1) hall
    rw [if_pos rfl] at hcut
    change Cut (dispatched serve conn pieces) pieces ∧
      StaysOn serve conn (dispatched serve conn pieces) at hcut
    rwa [h] at hcut
  · rintro ⟨hcut, hon⟩
    exact dispatched_of_cut hsent hcut hon

/-- A request in two pieces, the second of which is its end. -/
theorem dispatched_iff_cut_sample :
    dispatched (fun (_ : Unit) _ => some ()) ()
        [ascii "OPTIONS * RTSP/1.0\r\nCSeq: 1", ascii "\r\n\r\n"] =
      [ascii "OPTIONS * RTSP/1.0\r\nCSeq: 1\r\n\r\n"] := by
  refine (dispatched_iff_cut ?_ ?_ (by decide)).mpr ⟨?_, fun h => absurd rfl h⟩
  · intro r hr
    obtain rfl := List.mem_singleton.mp hr
    exact ⟨by decide, by decide, by decide, by decide⟩
  · intro p hp
    have hmem : p = ascii "OPTIONS * RTSP/1.0\r\nCSeq: 1" ∨ p = ascii "\r\n\r\n" := by simpa using hp
    rcases hmem with rfl | rfl
    · exact ⟨by decide, by decide⟩
    · exact ⟨by decide, by decide⟩
  · show Cut [ascii "OPTIONS * RTSP/1.0\r\nCSeq: 1" ++ ascii "\r\n\r\n"] _
    exact .halves (by decide) .nil

/-- Two requests that arrive together are dispatched as one. -/
theorem requests_joined :
    let options := ascii "OPTIONS * RTSP/1.0\r\nCSeq: 1\r\n\r\n"
    let setup := ascii "SETUP * RTSP/1.0\r\nCSeq: 2\r\n\r\n"
    Sent options ∧ Sent setup ∧ IsPiece (options ++ setup) ∧
      dispatched (fun (_ : Unit) _ => some ()) () [options ++ setup] ≠ [options, setup] := by
  refine ⟨⟨by decide, by decide, by decide, by decide⟩,
    ⟨by decide, by decide, by decide, by decide⟩, ⟨by decide, by decide⟩, by decide⟩

end Rtsp

end ReachEdukit
