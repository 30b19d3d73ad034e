import ReachEdukit.Lib.Run
import ReachEdukit.Lib.Slots

/-!
# The queue of the files to upload

A request for a file takes one of 64 slots, and the index of the slot is how its user names it later.
When there is no free slot `file_que_add_user` returns 0, which is the index of the first slot, where
`timeout_que_add_user` returns -1. The user that is told 0 deletes the request of another one.

The four strings of a request are copied with `strcpy` into arrays of the slot. A request whose strings
do not fit writes past them: that is the answer `none` of the model.

## What is left out

The mutexes, the logs, and the checks for null pointers, which return -1 and change nothing.

## Main definitions

* `FileQue` — the queue
* `AddRight` — what the index that a request gets has to mean
* `RemovesOnly` — a deletion takes this request away, and no other
* `fileStep` — one operation, with the requests that the indices stand for

## Main results

* `addRight_iff` — in every state
* `addAndDelete_iff` — in every state, and along every run
-/

namespace ReachEdukit

namespace Control

open Slots

/-- `FILE_QUE_LENGTH`. -/
def fileQueLength : ℕ := 64

/-- A string: its bytes up to the terminator. -/
abbrev CString := { s : List (BitVec 8) // 0 ∉ s }

/-- An array of `n` bytes with a string in it. -/
structure Chars (n : ℕ) where
  val : CString
  /-- The terminator is in the array. -/
  lt : val.val.length < n
  deriving DecidableEq

/-- `memset` to 0. -/
def Chars.zeros {n : ℕ} (h : 0 < n) : Chars n := ⟨⟨[], by simp⟩, h⟩

/-- `strcpy`. -/
def strcpy {n : ℕ} (src : CString) : Option (Chars n) :=
  if h : src.val.length < n then some ⟨src, h⟩ else none

/-- The arguments of `file_que_add_user`. -/
structure FileReq where
  filename : CString
  recordid : CString
  path : CString
  serverip : CString
  deriving DecidableEq

/-- `file_user`: the lengths are `FTP_COM_MAX_FILENAME_LENGTH`, `RECORD_ID_MAX_LENGTH` and
`FTP_MAX_FTPPATH_LENGTH`. -/
structure FileUser where
  enable : Bool
  filename : Chars 1024
  recordid : Chars 130
  path : Chars 512
  serverip : Chars 24
  deriving DecidableEq

/-- A slot of the queue. -/
abbrev FileIndex := Fin fileQueLength

/-- `file_que`. -/
structure FileQue where
  /-- How many slots are taken. -/
  usercnt : BitVec 32
  /-- The slot is taken. -/
  conLink : FileIndex → Bool
  /-- The requests. -/
  user : FileIndex → FileUser

/-- A slot without a request. -/
def FileUser.cleared : FileUser :=
  ⟨false, .zeros (by decide), .zeros (by decide), .zeros (by decide), .zeros (by decide)⟩

/-- `file_que_init`. -/
def fileQueInit : FileQue := ⟨0, fun _ => false, fun _ => .cleared⟩

/-- The first slot that is not taken. -/
def FileQue.firstIdle (q : FileQue) : Option FileIndex :=
  (List.finRange _).find? fun i => !q.conLink i

/-- `file_que_add_user`: without a free slot the answer is 0. -/
def fileQueAddUser (q : FileQue) (req : FileReq) : Option (FileQue × ℤ) :=
  match q.firstIdle with
  | none => some (q, 0)
  | some i => do
    let filename ← strcpy req.filename
    let recordid ← strcpy req.recordid
    let path ← strcpy req.path
    let serverip ← strcpy req.serverip
    some ({ usercnt := q.usercnt + 1
            conLink := Function.update q.conLink i true
            user := Function.update q.user i ⟨true, filename, recordid, path, serverip⟩ }, i.val)

/-- `file_que_del_user`: it does not look whether the slot is taken. -/
def fileQueDelUser (q : FileQue) (userIndex : ℤ) : FileQue × ℤ :=
  if h : 0 ≤ userIndex ∧ userIndex < fileQueLength then
    let i : FileIndex := ⟨userIndex.toNat, by omega⟩
    ({ usercnt := q.usercnt - 1
       conLink := Function.update q.conLink i false
       user := Function.update q.user i .cleared }, 0)
  else (q, -1)

/-- `file_que_find_user`. -/
def fileQueFindUser (q : FileQue) (recordid : CString) : ℤ :=
  ((List.finRange _).find? fun i =>
    (q.user i).enable && (q.user i).recordid.val = recordid).elim (-1) fun i => i.val

/-! ### A request is added -/

/-- The slot holds the request. -/
structure FileUser.Holds (u : FileUser) (req : FileReq) : Prop where
  enable : u.enable = true
  filename : u.filename.val = req.filename
  recordid : u.recordid.val = req.recordid
  path : u.path.val = req.path
  serverip : u.serverip.val = req.serverip

/-- The strings of the request fit the arrays of a slot. -/
structure FileReq.Fits (req : FileReq) : Prop where
  filename : req.filename.val.length < 1024
  recordid : req.recordid.val.length < 130
  path : req.path.val.length < 512
  serverip : req.serverip.val.length < 24

/-- The slot `i` was free, it is occupied by this request, and the other slots are as they were. -/
structure TakesOnly (q q' : FileQue) (i : FileIndex) (req : FileReq) : Prop where
  idle : q.conLink i = false
  taken : q'.conLink i = true
  holds : (q'.user i).Holds req
  others : ∀ j, j ≠ i → q'.conLink j = q.conLink j ∧ q'.user j = q.user j

/-- An index that is returned is the slot of this request. A queue that is full is not changed, and the
answer is negative. -/
def AddRight (q : FileQue) (req : FileReq) : Prop :=
  ∃ q' r, fileQueAddUser q req = some (q', r) ∧
    (0 ≤ r → ∃ i : FileIndex, (i.val : ℤ) = r ∧ TakesOnly q q' i req) ∧
    ((∀ i, q.conLink i = true) → r < 0 ∧ q' = q)

/-- A slot is free, and the strings of the request fit it. -/
def HasRoom (q : FileQue) (req : FileReq) : Prop := (∃ i, q.conLink i = false) ∧ req.Fits

variable {q : FileQue} {req : FileReq} {i : FileIndex}

theorem strcpy_eq_some {n : ℕ} {src : CString} {dest : Chars n} (h : strcpy src = some dest) :
    src.val.length < n ∧ dest.val = src := by
  rw [strcpy] at h
  split_ifs at h with hlt
  obtain rfl := Option.some.inj h
  exact ⟨hlt, rfl⟩

theorem strcpy_of_lt {n : ℕ} {src : CString} (h : src.val.length < n) :
    strcpy src = some (⟨src, h⟩ : Chars n) :=
  dif_pos h

/-- Without a free slot nothing happens, and 0 is returned. -/
theorem fileQueAddUser_of_full (h : ∀ i, q.conLink i = true) :
    fileQueAddUser q req = some (q, 0) := by
  have hnone : q.firstIdle = none := by
    rw [FileQue.firstIdle, List.find?_eq_none]
    intro i _
    simp [h i]
  rw [fileQueAddUser, hnone]

theorem exists_firstIdle (h : ∃ i, q.conLink i = false) : ∃ i, q.firstIdle = some i := by
  obtain ⟨i, hi⟩ := h
  rw [← Option.isSome_iff_exists, FileQue.firstIdle, List.find?_isSome]
  exact ⟨i, List.mem_finRange i, by simp [hi]⟩

/-- A request that does not fault holds the first free slot. -/
theorem takesOnly_of_firstIdle (hi : q.firstIdle = some i) {q' : FileQue} {r : ℤ}
    (h : fileQueAddUser q req = some (q', r)) : r = i.val ∧ req.Fits ∧ TakesOnly q q' i req := by
  rw [fileQueAddUser, hi] at h
  simp only [Option.bind_eq_bind, Option.bind_eq_some_iff] at h
  obtain ⟨filename, hfilename, recordid, hrecordid, path, hpath, serverip, hserverip, heq⟩ := h
  obtain ⟨rfl, rfl⟩ := Prod.mk.inj (Option.some.inj heq)
  obtain ⟨hfilename, hf⟩ := strcpy_eq_some hfilename
  obtain ⟨hrecordid, hr⟩ := strcpy_eq_some hrecordid
  obtain ⟨hpath, hp⟩ := strcpy_eq_some hpath
  obtain ⟨hserverip, hs⟩ := strcpy_eq_some hserverip
  refine ⟨rfl, ⟨hfilename, hrecordid, hpath, hserverip⟩, ?_⟩
  constructor
  · simpa using List.find?_some hi
  · exact Function.update_self ..
  · change (Function.update q.user i _ i).Holds req
    rw [Function.update_self]
    exact ⟨rfl, hf, hr, hp, hs⟩
  · intro j hj
    exact ⟨Function.update_of_ne hj .., Function.update_of_ne hj ..⟩

theorem exists_fileQueAddUser (h : req.Fits) (hi : q.firstIdle = some i) :
    ∃ q' r, fileQueAddUser q req = some (q', r) := by
  rw [fileQueAddUser, hi]
  simp only [strcpy_of_lt h.filename, strcpy_of_lt h.recordid, strcpy_of_lt h.path,
    strcpy_of_lt h.serverip]
  exact ⟨_, _, rfl⟩

/-- **The index of a request is its slot exactly when there is room for it.** -/
theorem addRight_iff (q : FileQue) (req : FileReq) : AddRight q req ↔ HasRoom q req := by
  constructor
  · rintro ⟨q', r, h, -, hfull⟩
    by_cases hidle : ∃ i, q.conLink i = false
    · obtain ⟨i, hi⟩ := exists_firstIdle hidle
      exact ⟨hidle, (takesOnly_of_firstIdle hi h).2.1⟩
    · have hall : ∀ i, q.conLink i = true := by simpa using hidle
      rw [fileQueAddUser_of_full hall] at h
      obtain ⟨-, rfl⟩ := Prod.mk.inj (Option.some.inj h)
      exact absurd (hfull hall).1 (lt_irrefl 0)
  · rintro ⟨hidle, hfits⟩
    obtain ⟨i, hi⟩ := exists_firstIdle hidle
    obtain ⟨q', r, h⟩ := exists_fileQueAddUser hfits hi
    obtain ⟨hr, -, htakes⟩ := takesOnly_of_firstIdle hi h
    refine ⟨q', r, h, fun _ => ⟨i, hr.symm, htakes⟩, fun hall => ?_⟩
    obtain ⟨j, hj⟩ := hidle
    exact absurd ((hall j).symm.trans hj) (by decide)

/-! ### Sequences of operations -/

/-- The operations. -/
inductive FileOp
  | add (req : FileReq)
  | find (recordid : CString)
  | del (userIndex : ℤ)
  deriving DecidableEq

/-- The queue, and the requests that the indices stand for. -/
structure FileHist where
  que : FileQue
  /-- The request that was told this index last, unless the index has been deleted since. -/
  issued : FileIndex → Option FileReq

def fileHistInit : FileHist := ⟨fileQueInit, fun _ => none⟩

/-- One operation; none when a string leaves its array. -/
def fileStep (s : FileHist) : FileOp → Option FileHist
  | .add req => (fileQueAddUser s.que req).map fun r =>
      { que := r.1, issued i := if (i.val : ℤ) = r.2 then some req else s.issued i }
  | .find _ => some s
  | .del userIndex => some
      { que := (fileQueDelUser s.que userIndex).1
        issued i := if (i.val : ℤ) = userIndex then none else s.issued i }

/-- The deletion of the slot `i` removes this request and no other. -/
structure RemovesOnly (q : FileQue) (i : FileIndex) (req : FileReq) : Prop where
  taken : q.conLink i = true
  holds : (q.user i).Holds req
  idle : (fileQueDelUser q i.val).1.conLink i = false
  cleared : (fileQueDelUser q i.val).1.user i = .cleared
  others : ∀ j, j ≠ i → (fileQueDelUser q i.val).1.conLink j = q.conLink j ∧
    (fileQueDelUser q i.val).1.user j = q.user j

/-- An index that is returned is the slot of the request, and the deletion of an index removes the
request that was told this index. -/
def StepRight (s : FileHist) : FileOp → Prop
  | .add req => AddRight s.que req
  | .find _ => True
  | .del userIndex => ∀ i : FileIndex, (i.val : ℤ) = userIndex → ∀ req ∈ s.issued i,
      RemovesOnly s.que i req

/-- There is room for a request that is added. -/
def StepHasRoom (s : FileHist) : FileOp → Prop
  | .add req => HasRoom s.que req
  | _ => True

/-- The requests are in the slots that they were told. -/
def FileHist.Sound (s : FileHist) : Prop :=
  ∀ i, ∀ req ∈ s.issued i, s.que.conLink i = true ∧ (s.que.user i).Holds req

variable {s s' : FileHist} {op : FileOp}

theorem fileQueDelUser_val (q : FileQue) (i : FileIndex) :
    fileQueDelUser q i.val =
      ({ usercnt := q.usercnt - 1, conLink := Function.update q.conLink i false,
         user := Function.update q.user i .cleared }, 0) := by
  have hlt := i.isLt
  exact dif_pos ⟨by omega, by omega⟩

/-- The slots that a deletion does not name are as they were. -/
theorem fileQueDelUser_of_ne {userIndex : ℤ} (h : (i.val : ℤ) ≠ userIndex) :
    (fileQueDelUser q userIndex).1.conLink i = q.conLink i ∧
      (fileQueDelUser q userIndex).1.user i = q.user i := by
  rw [fileQueDelUser]
  split_ifs with hrange
  · have hne : i ≠ ⟨userIndex.toNat, by omega⟩ := by
      rintro rfl
      exact h (Int.toNat_of_nonneg hrange.1)
    exact ⟨Function.update_of_ne hne .., Function.update_of_ne hne ..⟩
  · exact ⟨rfl, rfl⟩

theorem removesOnly (htaken : q.conLink i = true) (hholds : (q.user i).Holds req) :
    RemovesOnly q i req where
  taken := htaken
  holds := hholds
  idle := by
    rw [fileQueDelUser_val]
    exact Function.update_self ..
  cleared := by
    rw [fileQueDelUser_val]
    exact Function.update_self ..
  others j hj := fileQueDelUser_of_ne fun h => hj (Fin.ext (by omega))

/-- **What a step keeps**, when there is room for the request that it adds. -/
theorem FileHist.Sound.step (h : s.Sound) (hroom : StepHasRoom s op) (hs' : fileStep s op = some s') :
    s'.Sound := by
  cases op with
  | add req =>
    obtain ⟨⟨q', r⟩, hadd, rfl⟩ := Option.map_eq_some_iff.mp hs'
    obtain ⟨i, hi⟩ := exists_firstIdle hroom.1
    obtain ⟨rfl, -, htakes⟩ := takesOnly_of_firstIdle hi hadd
    intro j req' hreq'
    by_cases hj : j = i
    · subst hj
      obtain rfl : req = req' := by simpa using hreq'
      exact ⟨htakes.taken, htakes.holds⟩
    · have hne : (j.val : ℤ) ≠ i.val := fun hval => hj (Fin.ext (by omega))
      obtain ⟨hlink, huser⟩ := htakes.others j hj
      change q'.conLink j = true ∧ (q'.user j).Holds req'
      rw [hlink, huser]
      exact h j req' (by simpa [hne] using hreq')
  | find recordid =>
    obtain rfl := Option.some.inj hs'
    exact h
  | del userIndex =>
    obtain rfl := Option.some.inj hs'
    intro j req hreq
    by_cases hj : (j.val : ℤ) = userIndex
    · exact absurd hreq (by simp [hj])
    · obtain ⟨hlink, huser⟩ := fileQueDelUser_of_ne (q := s.que) hj
      change (fileQueDelUser s.que userIndex).1.conLink j = true ∧
        ((fileQueDelUser s.que userIndex).1.user j).Holds req
      rw [hlink, huser]
      exact h j req (by simpa [hj] using hreq)

theorem FileHist.Sound.stepRight_iff (h : s.Sound) : StepRight s op ↔ StepHasRoom s op := by
  cases op with
  | add req => exact addRight_iff s.que req
  | find recordid => exact Iff.rfl
  | del userIndex =>
    refine iff_of_true (fun i _ req hreq => ?_) trivial
    obtain ⟨htaken, hholds⟩ := h i req hreq
    exact removesOnly htaken hholds

/-- **The file queue.** An index that is returned is the slot of the request exactly when there is room
for it. Along a run this holds, and every deletion of an index removes the request that was told this
index and no other, exactly when there is room for every request that is added. -/
theorem addAndDelete_iff (q : FileQue) (req : FileReq) (ops : List FileOp) :
    (AddRight q req ↔ HasRoom q req) ∧
      (Run.AlongSome fileStep StepRight fileHistInit ops ↔
        Run.AlongSome fileStep StepHasRoom fileHistInit ops) := by
  refine ⟨addRight_iff q req, ?_⟩
  refine Run.alongSome_iff_of_invariant (I := FileHist.Sound) (fun s op h => h.stepRight_iff)
    (fun s op h hroom s' hs' => h.step hroom hs') ?_ ops
  intro i req hreq
  exact absurd hreq (by simp [fileHistInit])

/-- A request with the record id `[b]`. -/
def reqOf (b : BitVec 8) (h : 0 ≠ b) : FileReq :=
  ⟨⟨[], by simp⟩, ⟨[b], by simpa using h⟩, ⟨[], by simp⟩, ⟨[], by simp⟩⟩

/-- A queue with a request for the record 1 in every slot, which tells a request for the record 2 the
index 0. -/
theorem added_to_full_queue :
    ¬ ((∀ q req, AddRight q req) ∧ ∀ ops, Run.AlongSome fileStep StepRight fileHistInit ops) := by
  rintro ⟨hall, -⟩
  let q : FileQue := ⟨64, fun _ => true, fun _ => ⟨true, .zeros (by decide),
    ⟨(reqOf 1 (by decide)).recordid, by decide⟩, .zeros (by decide), .zeros (by decide)⟩⟩
  obtain ⟨q', r, h, -, hfull⟩ := hall q (reqOf 2 (by decide))
  rw [fileQueAddUser_of_full fun _ => rfl] at h
  obtain ⟨-, rfl⟩ := Prod.mk.inj (Option.some.inj h)
  exact absurd (hfull fun _ => rfl).1 (lt_irrefl 0)

end Control

end ReachEdukit
