import Mathlib

/-!
# Uploading a directory

`ScnDir` walks through a course's directory and uploads its files one by one, each with up to three
tries, and stops at the first file or directory that fails. What it returns decides whether the course
is done with: `CURLE_OK`, or the code of the last try, or `REACH_UPLOAD_DIRECTORY_INVALID` when a
directory cannot be opened, be it the course's own or one somewhere below.

The transfers are calls of `Ftp_UpLoadFile`; the `n`-th call of a scan returns `ftp n`, whatever the
server makes of it.

## What is left out

* the bounds of the paths, `MAX_FILE_PATH_LEN` each
* the login and the speed of a transfer, the breakpoint in a file that has been sent in part

## Main definitions

* `Dirent` — what is found under a name
* `scnDir`, `detectionFile` — the scan
* `wanted` — the files that have to be there in the end, with their places on the server

## Main results

* `scnDir_good` — what the calls of a scan come to
* `scnDir_eq_ok_iff` — a scan returns `CURLE_OK` exactly when every wanted file has been sent
-/

namespace ReachEdukit

namespace Ftp

/-- A text of the source. -/
abbrev Text := List Char

/-- `CURLE_OK`. -/
def curleOk : ℤ := 0

/-- `REACH_UPLOAD_DIRECTORY_INVALID`. -/
def reachUploadDirectoryInvalid : ℤ := 0x1004

/-- `TRYNUM`. -/
def trynum : ℕ := 3

/-- `DT_DIR`. -/
def dtDir : ℕ := 4

/-- `struct dirent`: a name, what kind of thing it stands for, whether it can be opened as a directory,
and what is in there. -/
inductive Dirent
  | entry (dName : Text) (dType : ℕ) (opens : Bool) (entries : List Dirent)

/-- `Ftp_UpLoadParam`: a file and its place on the server. -/
structure UpLoadParam where
  localFilePath : Text
  upFilePath : Text
  deriving DecidableEq

/-- A call of `Ftp_UpLoadFile` and what it has returned. -/
structure Call where
  param : UpLoadParam
  ret : ℤ
  deriving DecidableEq

/-- The calls of a scan and its result. -/
structure Scan where
  calls : List Call
  ret : ℤ
  deriving DecidableEq

/-- Where the files go: the server's path, and how much of a local path is cut off. -/
structure Target where
  romteFilePath : Text
  dirLen : ℕ

/-- The files that are not uploaded. -/
def skipped (dName : Text) : Bool :=
  dName.head? = some '.' || dName = "download.info".toList ||
    (decide (".mp4".toList <:+: dName) &&
      (decide ("HD".toList <:+: dName) || decide ("SD".toList <:+: dName)))

/-- The parameters of a file in a directory. -/
def upconfig (target : Target) (dirPath dName : Text) : UpLoadParam :=
  let localFilePath := dirPath ++ '/' :: dName
  ⟨localFilePath, target.romteFilePath ++ '/' :: localFilePath.drop target.dirLen⟩

/-- The tries for one file, with `num` of them left, and how many are left then. -/
def upLoadTries (ftp : ℕ → ℤ) (param : UpLoadParam) : ℕ → ℕ → ℤ → Scan × ℕ
  | 0, _, ret => (⟨[], ret⟩, 0)
  | num + 1, n, _ =>
    if ftp n = curleOk then
      (⟨[⟨param, ftp n⟩], ftp n⟩, num + 1)
    else
      let rest := upLoadTries ftp param num (n + 1) (ftp n)
      (⟨⟨param, ftp n⟩ :: rest.1.calls, rest.1.ret⟩, rest.2)

mutual

/-- The loop of `ScnDir`, after `n` calls and with `ret` so far. -/
def readdirLoop (ftp : ℕ → ℤ) (target : Target) : List Dirent → Text → ℕ → ℤ → Scan
  | [], _, _, ret => ⟨[], ret⟩
  | ent :: rest, dirPath, n, ret =>
    let (s, broken) := scnEntry ftp target ent dirPath n ret
    if broken then
      s
    else
      let s' := readdirLoop ftp target rest dirPath (n + s.calls.length) s.ret
      ⟨s.calls ++ s'.calls, s'.ret⟩

/-- One pass of the loop, and whether it breaks. -/
def scnEntry (ftp : ℕ → ℤ) (target : Target) : Dirent → Text → ℕ → ℤ → Scan × Bool
  | .entry dName dType opens entries, dirPath, n, ret =>
    if dType &&& dtDir ≠ 0 then
      if dName = ".".toList ∨ dName = "..".toList then
        (⟨[], ret⟩, false)
      else if opens then
        let s := readdirLoop ftp target entries (dirPath ++ '/' :: dName) n curleOk
        (s, decide (s.ret ≠ curleOk))
      else
        (⟨[], reachUploadDirectoryInvalid⟩, decide (reachUploadDirectoryInvalid ≠ curleOk))
    else if skipped dName then
      (⟨[], ret⟩, false)
    else
      let (s, num) := upLoadTries ftp (upconfig target dirPath dName) trynum n ret
      (s, decide (s.ret ≠ curleOk ∧ num = 0))

end

/-- `ScnDir`. -/
def scnDir (ftp : ℕ → ℤ) (target : Target) (dirPath : Text) (opens : Bool) (entries : List Dirent) :
    Scan :=
  if opens then readdirLoop ftp target entries dirPath 0 curleOk
  else ⟨[], reachUploadDirectoryInvalid⟩

/-- `basename`. -/
def basename (path : Text) : Text :=
  (path.reverse.takeWhile fun c => c ≠ '/' && c ≠ '\\').reverse

/-- `DetectionFile`. -/
def detectionFile (ftp : ℕ → ℤ) (upLoadFilePath romteFilePath : Text) (opens : Bool)
    (entries : List Dirent) : Scan :=
  let len := upLoadFilePath.length - (basename upLoadFilePath).length
  scnDir ftp ⟨romteFilePath, len⟩ upLoadFilePath opens entries

/-! ### What has to be uploaded -/

mutual

/-- The files to upload among the entries of a directory. -/
def wanted (target : Target) : List Dirent → Text → List UpLoadParam
  | [], _ => []
  | ent :: rest, dirPath => wantedOf target ent dirPath ++ wanted target rest dirPath

/-- The files to upload under one name. -/
def wantedOf (target : Target) : Dirent → Text → List UpLoadParam
  | .entry dName dType _ entries, dirPath =>
    if dType &&& dtDir ≠ 0 then
      if dName = ".".toList ∨ dName = "..".toList then []
      else wanted target entries (dirPath ++ '/' :: dName)
    else if skipped dName then
      []
    else
      [upconfig target dirPath dName]

end

mutual

/-- Every directory among the entries can be opened, and so can those below it. -/
def AllOpen : List Dirent → Prop
  | [] => True
  | ent :: rest => ent.Opens ∧ AllOpen rest

/-- If this is a directory, it can be opened with all that is in it. -/
def Dirent.Opens : Dirent → Prop
  | .entry dName dType opens entries =>
    dType &&& dtDir ≠ 0 → ¬ (dName = ".".toList ∨ dName = "..".toList) → opens = true ∧ AllOpen entries

end

/-- The files that have been uploaded, in their order. -/
def Scan.uploaded (s : Scan) : List UpLoadParam :=
  (s.calls.filter fun c => c.ret = curleOk).map Call.param

/-- What a scan comes to that had to upload `files`, when `opens` says that all directories can be
opened. -/
structure Scan.Good (s : Scan) (ftp : ℕ → ℤ) (opens : Prop) (files : List UpLoadParam) : Prop where
  ok : s.ret = curleOk → opens ∧ s.uploaded = files
  sent : s.uploaded <+: files
  short : s.ret ≠ curleOk → opens → s.uploaded.length < files.length
  ret : s.ret = curleOk ∨ s.ret = reachUploadDirectoryInvalid ∧ ¬ opens ∨
    ∃ n, s.ret = ftp n

section Tries

variable {ftp : ℕ → ℤ} {param : UpLoadParam}

@[simp] theorem uploaded_nil (ret : ℤ) : (⟨[], ret⟩ : Scan).uploaded = [] := rfl

theorem uploaded_append (cs cs' : List Call) (ret : ℤ) :
    (⟨cs ++ cs', ret⟩ : Scan).uploaded = (⟨cs, ret⟩ : Scan).uploaded ++ (⟨cs', ret⟩ : Scan).uploaded := by
  simp [Scan.uploaded]

/-- The tries for a file: either the last one goes well, and no other, or none does. -/
theorem upLoadTries_good (num n : ℕ) (hnum : 0 < num) (ret : ℤ) :
    let r := upLoadTries ftp param num n ret
    r.1.Good ftp True [param] ∧ (r.1.ret ≠ curleOk → r.2 = 0) := by
  induction num generalizing n ret with
  | zero => cases hnum
  | succ num ih =>
    rw [upLoadTries]
    by_cases hok : ftp n = curleOk
    · rw [if_pos hok]
      have huploaded : (⟨[⟨param, ftp n⟩], ftp n⟩ : Scan).uploaded = [param] := by
        simp [Scan.uploaded, hok]
      refine ⟨⟨fun _ => ⟨trivial, huploaded⟩, ?_, fun hne => absurd hok hne, .inl hok⟩,
        fun hne => absurd hok hne⟩
      rw [huploaded]
    · rw [if_neg hok]
      have hskip : ∀ s : Scan, (⟨⟨param, ftp n⟩ :: s.calls, s.ret⟩ : Scan).uploaded = s.uploaded := by
        intro s
        simp [Scan.uploaded, hok]
      rcases Nat.eq_zero_or_pos num with rfl | hpos
      · refine ⟨⟨fun hret => absurd hret hok, ?_, fun _ _ => ?_, ?_⟩, fun _ => rfl⟩
        · rw [hskip]
          exact List.nil_prefix
        · rw [hskip]
          exact Nat.zero_lt_one
        · exact .inr (.inr ⟨n, rfl⟩)
      · obtain ⟨hgood, hzero⟩ := ih (n + 1) hpos (ftp n)
        refine ⟨⟨?_, ?_, ?_, ?_⟩, hzero⟩
        · rw [hskip]
          exact hgood.ok
        · rw [hskip]
          exact hgood.sent
        · rw [hskip]
          exact hgood.short
        · exact hgood.ret

end Tries

/-! ### The scan -/

/-- Two parts of a scan, the second one only if the first one went well. -/
theorem Scan.Good.append {ftp : ℕ → ℤ} {s s' : Scan} {opens opens' : Prop} {files files' : List UpLoadParam}
    (h : s.Good ftp opens files) (hok : s.ret = curleOk) (h' : s'.Good ftp opens' files') :
    (⟨s.calls ++ s'.calls, s'.ret⟩ : Scan).Good ftp (opens ∧ opens') (files ++ files') := by
  have huploaded : (⟨s.calls ++ s'.calls, s'.ret⟩ : Scan).uploaded = files ++ s'.uploaded := by
    rw [uploaded_append]
    exact congrArg (· ++ s'.uploaded) (h.ok hok).2
  refine ⟨fun hret => ?_, ?_, fun hret hopens => ?_, ?_⟩
  · rw [huploaded]
    exact ⟨⟨(h.ok hok).1, (h'.ok hret).1⟩, by rw [(h'.ok hret).2]⟩
  · rw [huploaded]
    exact (List.prefix_append_right_inj files).mpr h'.sent
  · rw [huploaded, List.length_append, List.length_append]
    exact Nat.add_lt_add_left (h'.short hret hopens.2) _
  · exact h'.ret.imp id (Or.imp (And.imp id fun hno hopens => hno hopens.2) id)

/-- A scan that breaks off leaves out what comes after. -/
theorem Scan.Good.broken {ftp : ℕ → ℤ} {s : Scan} {opens : Prop} {files : List UpLoadParam}
    (h : s.Good ftp opens files) (hret : s.ret ≠ curleOk) (opens' : Prop) (files' : List UpLoadParam) :
    s.Good ftp (opens ∧ opens') (files ++ files') where
  ok hok := absurd hok hret
  sent := h.sent.trans (List.prefix_append ..)
  short _ hopens := by
    have hlt := h.short hret hopens.1
    rw [List.length_append]
    omega
  ret := h.ret.imp id (Or.imp (And.imp id fun hno hopens => hno hopens.1) id)

theorem good_nil {ftp : ℕ → ℤ} {opens : Prop} (hopens : opens) :
    (⟨[], curleOk⟩ : Scan).Good ftp opens [] where
  ok _ := ⟨hopens, rfl⟩
  sent := List.nil_prefix
  short hret := absurd rfl hret
  ret := .inl rfl

theorem good_closed {ftp : ℕ → ℤ} {opens : Prop} (hopens : ¬ opens) (files : List UpLoadParam) :
    (⟨[], reachUploadDirectoryInvalid⟩ : Scan).Good ftp opens files where
  ok hret := absurd hret (by decide)
  sent := List.nil_prefix
  short _ h := absurd h hopens
  ret := .inr (.inl ⟨rfl, hopens⟩)

section Loop

variable {ftp : ℕ → ℤ} {target : Target}

mutual

theorem readdirLoop_good : ∀ (entries : List Dirent) (dirPath : Text) (n : ℕ),
    (readdirLoop ftp target entries dirPath n curleOk).Good ftp (AllOpen entries)
      (wanted target entries dirPath)
  | [], _, _ => good_nil trivial
  | ent :: rest, dirPath, n => by
    obtain ⟨hgood, hbroken⟩ := scnEntry_good ent dirPath n
    rw [readdirLoop, AllOpen, wanted]
    dsimp only
    split
    · next hb => exact hgood.broken (hbroken.mp hb) _ _
    · next hb =>
      have hok : (scnEntry ftp target ent dirPath n curleOk).1.ret = curleOk := by
        by_contra hret
        exact hb (hbroken.mpr hret)
      rw [hok]
      exact hgood.append hok (readdirLoop_good rest dirPath _)

theorem scnEntry_good : ∀ (ent : Dirent) (dirPath : Text) (n : ℕ),
    (scnEntry ftp target ent dirPath n curleOk).1.Good ftp ent.Opens (wantedOf target ent dirPath) ∧
      ((scnEntry ftp target ent dirPath n curleOk).2 = true ↔
        (scnEntry ftp target ent dirPath n curleOk).1.ret ≠ curleOk)
  | .entry dName dType opens entries, dirPath, n => by
    rw [scnEntry, wantedOf, Dirent.Opens]
    split_ifs with hdir hdots hopens hskipped
    · exact ⟨good_nil fun _ hno => absurd hdots hno, by simp⟩
    · have hgood := readdirLoop_good entries (dirPath ++ '/' :: dName) n
      have hiff : (dType &&& dtDir ≠ 0 → ¬ (dName = ".".toList ∨ dName = "..".toList) →
          opens = true ∧ AllOpen entries) ↔ AllOpen entries :=
        ⟨fun h => (h hdir hdots).2, fun h _ _ => ⟨hopens, h⟩⟩
      rw [hiff]
      exact ⟨hgood, decide_eq_true_iff⟩
    · refine ⟨good_closed (fun h => hopens (h hdir hdots).1) _, ?_⟩
      simp [reachUploadDirectoryInvalid, curleOk]
    · exact ⟨good_nil fun h => absurd h hdir, by simp⟩
    · obtain ⟨hgood, hzero⟩ :=
        @upLoadTries_good ftp (upconfig target dirPath dName) trynum n (by decide) curleOk
      have hiff : (dType &&& dtDir ≠ 0 → ¬ (dName = ".".toList ∨ dName = "..".toList) →
          opens = true ∧ AllOpen entries) ↔ True := iff_true_intro fun h => absurd h hdir
      rw [hiff]
      refine ⟨hgood, decide_eq_true_iff.trans ⟨And.left, fun hret => ⟨hret, hzero hret⟩⟩⟩

end

/-- What the calls of a scan come to. -/
theorem scnDir_good (dirPath : Text) (opens : Bool) (entries : List Dirent) :
    (scnDir ftp target dirPath opens entries).Good ftp (opens = true ∧ AllOpen entries)
      (wanted target entries dirPath) := by
  rw [scnDir]
  split
  · next hopens =>
    have hgood := @readdirLoop_good ftp target entries dirPath 0
    rwa [hopens, eq_self, true_and]
  · next hopens => exact good_closed (fun h => hopens h.1) _

/-- A scan returns `CURLE_OK` exactly when all directories can be opened and every wanted file has been
sent, each once, in the order of the directory; and whatever it returns, the files that have been sent
are the first ones of these. -/
theorem scnDir_eq_ok_iff (dirPath : Text) (opens : Bool) (entries : List Dirent) :
    let s := scnDir ftp target dirPath opens entries
    let files := wanted target entries dirPath
    (s.ret = curleOk ↔ (opens = true ∧ AllOpen entries) ∧ s.uploaded = files) ∧
      s.uploaded <+: files := by
  intro s files
  have hgood : s.Good ftp (opens = true ∧ AllOpen entries) files := scnDir_good dirPath opens entries
  refine ⟨⟨hgood.ok, fun h => ?_⟩, hgood.sent⟩
  by_contra hret
  exact absurd (congrArg List.length h.2) (hgood.short hret h.1).ne

end Loop

end Ftp

end ReachEdukit
