import Mathlib

/-!
# The encoders of a room

A room has nine slots for encoders, and a slot is in use when its `ID` is not `0`. An encoder has
two streams, a high and a low one, and each stream a queue type by which its messages are told
apart. When the room is connected the slots are numbered through: slot `i` has the streams
`2 * i + 1` and `2 * i + 2`. The table carries that numbering, so no two streams of a room are
alike.

## Main definitions

* `EncInfo`, `EncTable` — an encoder, and those of a room
* `EncTable.getEncInfoById` — an encoder by its id

## Main results

* `EncTable.disjoint` — two encoders in use have no stream in common
-/

namespace ReachEdukit

namespace Room

/-- `ROOM_ENC_NUM`. -/
def roomEncNum : ℕ := 9

/-- `EncodeType`. -/
inductive EncodeType
  | h264
  | jpeg
  deriving DecidableEq, Repr

/-- `quality_info`, a stream. -/
structure QualityInfo where
  /-- The queue type. -/
  msgQueType : ℕ
  /-- The socket; it is open when it is positive. -/
  socket : ℤ
  deriving DecidableEq, Repr

/-- `enc_info`. -/
structure EncInfo where
  /-- The id; `0` in a slot that is not in use. -/
  id : ℕ
  /-- The high stream. -/
  hdQuaInfo : QualityInfo
  /-- The low stream. -/
  sdQuaInfo : QualityInfo
  /-- The type of the pictures. -/
  encodeType : EncodeType
  deriving DecidableEq, Repr

/-- `EncInfo`, the encoders of a connected room. -/
structure EncTable where
  /-- The slots. -/
  encs : List EncInfo
  /-- There are nine. -/
  length_encs : encs.length = roomEncNum
  /-- The streams are numbered through. -/
  numbered : ∀ i e, encs[i]? = some e → e.id ≠ 0 →
    e.hdQuaInfo.msgQueType = 2 * i + 1 ∧ e.sdQuaInfo.msgQueType = 2 * i + 2

/-- Number the streams of slot `i`, as `upper_msg_resp_room_info_deal` does. -/
def numberStreams (i : ℕ) (e : EncInfo) : EncInfo :=
  if e.id = 0 then e
  else { e with
    hdQuaInfo := { e.hdQuaInfo with msgQueType := 2 * i + 1 }
    sdQuaInfo := { e.sdQuaInfo with msgQueType := 2 * i + 2 } }

/-- The table of a room when it has been connected. -/
def EncTable.connect (encs : List EncInfo) (h : encs.length = roomEncNum) : EncTable where
  encs := encs.mapIdx numberStreams
  length_encs := List.length_mapIdx.trans h
  numbered := by
    intro i e he hid
    rw [List.getElem?_mapIdx] at he
    obtain ⟨e', -, rfl⟩ := Option.map_eq_some_iff.mp he
    rw [numberStreams] at hid ⊢
    split at hid
    · exact absurd ‹e'.id = 0› hid
    · rw [if_neg ‹_›]
      exact ⟨rfl, rfl⟩

/-- `upper_msg_get_enc_info_by_id`. -/
def EncTable.getEncInfoById (t : EncTable) (encId : ℕ) : Option EncInfo :=
  if encId = 0 then none else t.encs.find? fun e => e.id ≠ 0 ∧ e.id = encId

/-- The queue types of an encoder. -/
def EncInfo.streams (e : EncInfo) : List ℕ := [e.hdQuaInfo.msgQueType, e.sdQuaInfo.msgQueType]

variable {t : EncTable} {e : EncInfo}

theorem EncTable.mem_of_getEncInfoById {encId : ℕ} (h : t.getEncInfoById encId = some e) :
    e ∈ t.encs ∧ e.id ≠ 0 ∧ e.id = encId := by
  rw [EncTable.getEncInfoById] at h
  split at h
  · exact absurd h (by simp)
  · have hprop := List.find?_some h
    exact ⟨List.mem_of_find?_eq_some h, of_decide_eq_true hprop⟩

/-- A stream of an encoder in use fits a request mask, and its two streams differ. -/
theorem EncTable.streams_spec (he : e ∈ t.encs) (hid : e.id ≠ 0) :
    (∀ i ∈ e.streams, i < 24) ∧ e.streams.Nodup := by
  obtain ⟨i, hi⟩ := List.getElem?_of_mem he
  have hlt : i < roomEncNum := by
    rw [← t.length_encs]
    exact (List.getElem?_eq_some_iff.mp hi).1
  obtain ⟨hhd, hsd⟩ := t.numbered i e hi hid
  rw [EncInfo.streams, hhd, hsd]
  rw [roomEncNum] at hlt
  refine ⟨?_, ?_⟩
  · simp only [List.mem_cons, List.not_mem_nil, or_false]
    omega
  · simp

/-- **No stream in common**: encoders in use at different places. -/
theorem EncTable.disjoint (t : EncTable) :
    t.encs.Pairwise fun a b => a.id ≠ 0 → b.id ≠ 0 → a.streams.Disjoint b.streams := by
  rw [List.pairwise_iff_getElem]
  intro i j hi hj hij ha hb s hs hs'
  obtain ⟨ha₁, ha₂⟩ := t.numbered i _ (List.getElem?_eq_getElem hi) ha
  obtain ⟨hb₁, hb₂⟩ := t.numbered j _ (List.getElem?_eq_getElem hj) hb
  rw [EncInfo.streams, ha₁, ha₂] at hs
  rw [EncInfo.streams, hb₁, hb₂] at hs'
  simp only [List.mem_cons, List.not_mem_nil, or_false] at hs hs'
  omega

/-- Two encoders with different ids have no stream in common. -/
theorem EncTable.disjoint_of_id_ne {a b : EncInfo} (ha : a ∈ t.encs) (hb : b ∈ t.encs)
    (ha₀ : a.id ≠ 0) (hb₀ : b.id ≠ 0) (hne : a.id ≠ b.id) : a.streams.Disjoint b.streams := by
  have hsymm : Std.Symm (α := EncInfo) fun a b =>
      a.id ≠ 0 → b.id ≠ 0 → a.streams.Disjoint b.streams :=
    ⟨fun a b h hb ha s hs hs' => h ha hb hs' hs⟩
  exact t.disjoint.forall ha hb (fun h => hne (congrArg EncInfo.id h)) ha₀ hb₀

end Room

end ReachEdukit
