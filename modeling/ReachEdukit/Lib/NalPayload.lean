import Mathlib.Data.List.Forall2
import Mathlib.Data.List.Basic

/-!
# The RTP payload format of H.264

The part of RFC 6184 that has neither aggregation nor interleaving: a payload is a NAL unit, of
type 1 to 23, or an FU-A fragment, of type 28. A fragment has an
indicator, with the forbidden bit and the reference idc of its NAL unit, a header with a start bit,
an end bit, a reserved bit and the type of the unit, and a part of what follows the NAL header.

The receiver here is a strict one. It answers `none` to whatever the format forbids: a fragment
that starts inside another train or does not start its own, a train that changes its NAL header or
is cut off, a fragment with both bits or with the reserved one.

## Main definitions

* `Payload`, `Payload.ofBytes` — a payload, as its first bytes say
* `decode` — the NAL units of a sequence of payloads
* `Conveys` — payloads that are one NAL unit, with the start bit on exactly the first fragment and
  the end bit on exactly the last

## Main results

* `decode_of_conveys` — payloads that convey NAL units, one after the other, decode to these
-/

namespace NalPayload

/-- A byte. -/
abbrev Byte := BitVec 8

/-- The type of a NAL header, or of an indicator. -/
def unitType (b : Byte) : Byte := b &&& 0x1f

/-- A payload. -/
inductive Payload
  /-- A NAL unit alone. -/
  | single (nal : List Byte)
  /-- A fragment: its start bit, its end bit, the NAL header it stands for, its part. -/
  | fragment (s e : Bool) (header : Byte) (part : List Byte)
  deriving DecidableEq, Repr

/-- The payload of some bytes. -/
def Payload.ofBytes : List Byte → Option Payload
  | [] => none
  | b :: rest =>
    if 1 ≤ unitType b ∧ unitType b ≤ 23 then some (.single (b :: rest))
    else
      match rest with
      | [] => none
      | h :: part =>
        if unitType b = 28 ∧ h &&& 0x20 = 0 then
          some (.fragment (decide (h &&& 0x80 ≠ 0)) (decide (h &&& 0x40 ≠ 0))
            (b &&& 0xe0 ||| unitType h) part)
        else none

/-- What a payload does to the unit that is being put together, and the units it completes. -/
def receive : Option (List Byte) → Payload → Option (Option (List Byte) × List (List Byte))
  | none, .single nal => some (none, [nal])
  | none, .fragment true false header part => some (some (header :: part), [])
  | some unit, .fragment false e header part =>
    if unit.head? ≠ some header then none
    else if e then some (none, [unit ++ part])
    else some (some (unit ++ part), [])
  | _, _ => none

/-- The NAL units of a sequence of payloads, from the unit that is being put together. -/
def decode : Option (List Byte) → List (List Byte) → Option (List (List Byte))
  | none, [] => some []
  | some _, [] => none
  | unit, bytes :: rest => do
    let payload ← Payload.ofBytes bytes
    let (unit, nals) ← receive unit payload
    let more ← decode unit rest
    return nals ++ more

/-- Payloads that convey one NAL unit: the unit itself, or a train of fragments of it. -/
def Conveys (nal : List Byte) (payloads : List (List Byte)) : Prop :=
  payloads.map Payload.ofBytes = [some (.single nal)] ∨
    ∃ (header : Byte) (first last : List Byte) (mids : List (List Byte)),
      nal = header :: (first ++ mids.flatten ++ last) ∧
      payloads.map Payload.ofBytes =
        some (.fragment true false header first) ::
          ((mids.map fun part => some (.fragment false false header part)) ++
            [some (.fragment false true header last)])

theorem Payload.ofBytes_single {b : Byte} (rest : List Byte)
    (hb : 1 ≤ unitType b ∧ unitType b ≤ 23) :
    Payload.ofBytes (b :: rest) = some (.single (b :: rest)) :=
  if_pos hb

theorem Payload.ofBytes_fragment {indicator header : Byte} (part : List Byte)
    (htype : unitType indicator = 28) (hres : header &&& 0x20 = 0) :
    Payload.ofBytes (indicator :: header :: part) =
      some (.fragment (decide (header &&& 0x80 ≠ 0)) (decide (header &&& 0x40 ≠ 0))
        (indicator &&& 0xe0 ||| unitType header) part) := by
  have hsingle : ¬ (1 ≤ unitType indicator ∧ unitType indicator ≤ 23) := by
    rw [htype]
    decide
  exact (if_neg hsingle).trans (if_pos ⟨htype, hres⟩)

/-- Only what the bytes say matters. -/
theorem decode_cons {unit unit' : Option (List Byte)} {bytes : List Byte} {payload : Payload}
    {nals : List (List Byte)} (rest : List (List Byte))
    (hbytes : Payload.ofBytes bytes = some payload)
    (hunit : receive unit payload = some (unit', nals)) :
    decode unit (bytes :: rest) = (decode unit' rest).map (nals ++ ·) := by
  rw [decode, hbytes]
  simp only [Option.bind_eq_bind, Option.bind_some, hunit]
  cases decode unit' rest <;> rfl

/-- A train from its second fragment on. -/
theorem decode_fragments {header : Byte} {unit last : List Byte} {mids : List (List Byte)}
    {payloads : List (List Byte)} (rest : List (List Byte)) (hhead : unit.head? = some header)
    (h : payloads.map Payload.ofBytes =
      (mids.map fun part => some (.fragment false false header part)) ++
        [some (.fragment false true header last)]) :
    decode (some unit) (payloads ++ rest) =
      (decode none rest).map ([unit ++ mids.flatten ++ last] ++ ·) := by
  induction mids generalizing unit payloads with
  | nil =>
    obtain ⟨bytes, rfl, hbytes⟩ := List.map_eq_singleton_iff.mp h
    have hunit : receive (some unit) (.fragment false true header last) =
        some (none, [unit ++ last]) := by
      simp [receive, hhead]
    rw [List.singleton_append, decode_cons rest hbytes hunit, List.flatten_nil, List.append_nil]
  | cons part mids ih =>
    obtain ⟨bytes, payloads, rfl, hbytes, hmore⟩ := List.map_eq_cons_iff.mp h
    have hunit : receive (some unit) (.fragment false false header part) =
        some (some (unit ++ part), []) := by
      simp [receive, hhead]
    have hhead' : (unit ++ part).head? = some header := by
      rw [List.head?_append, hhead]
      rfl
    rw [List.cons_append, decode_cons _ hbytes hunit, ih hhead' hmore]
    simp [Function.comp_def]

/-- The payloads of a NAL unit decode to it. -/
theorem decode_append {nal : List Byte} {payloads : List (List Byte)} (rest : List (List Byte))
    (h : Conveys nal payloads) :
    decode none (payloads ++ rest) = (decode none rest).map ([nal] ++ ·) := by
  rcases h with h | ⟨header, first, last, mids, rfl, h⟩
  · obtain ⟨bytes, rfl, hbytes⟩ := List.map_eq_singleton_iff.mp h
    rw [List.singleton_append, decode_cons rest hbytes rfl]
  · obtain ⟨bytes, payloads, rfl, hbytes, hmore⟩ := List.map_eq_cons_iff.mp h
    rw [List.cons_append, decode_cons _ hbytes rfl, decode_fragments rest rfl hmore]
    simp [Function.comp_def]

/-- **Payloads that convey NAL units**, one after the other, decode to these. -/
theorem decode_of_conveys {nals : List (List Byte)} {groups : List (List (List Byte))}
    (h : List.Forall₂ Conveys nals groups) : decode none groups.flatten = some nals := by
  induction h with
  | nil => rfl
  | cons hgroup _ ih =>
    rw [List.flatten_cons, decode_append _ hgroup, ih]
    rfl

end NalPayload
