import Mathlib
import ReachEdukit.Control.Params

/-!
# What a restart gives back

The server has its rooms in its memory and in the parameter table file. Between two starts it changes
both, one room at a time, and the file only where the new value is not the one in the memory; the
addresses of the cameras, set from the web, go into the file alone, and whether there is a recording stays
in the memory. At a start the memory is filled with
default values and then from the file, and what a recording has left in it is wiped out.

Two things of an encoder never get into the file after it has been created: its status and its second
quality.

## What is left out

* the sections of the table that are not about rooms: the file has them, and a start appends those that
  are missing, but what is in them is not looked at
* what only reads the rooms, such as the report of the heart beat, which is made of a copy of them

## Main definitions

* `State`, `Act`, `step` — the memory and the file
* `State.Follows` — the file is what `add_room_info` writes for a list of rooms, and what it has of a room
  agrees with the memory

## Main results

* `State.Follows.step` — every step keeps this
* `restart_keeps` — what a restart makes of a room, whatever has been set before
* `cameras_after_restart` — when the addresses of the cameras are seen
-/

namespace ReachEdukit

namespace Control

namespace Params

open XmlTree

/-- `CONTROL_ROOM_SERVER_MAX_USER`. -/
abbrev controlRoomServerMaxUser : ℕ := 16

/-- `CONTROL_DEFAULT_ROOM_COUNT`. -/
def controlDefaultRoomCount : ℕ := 1

/-- `FIRST_IPCAMERA_INDEX`. -/
def firstIpcameraIndex : ℕ := 5

/-- `MAX_IPCAMERA_NUM`. -/
abbrev maxIpcameraNum : ℕ := 4

local instance neZero_controlRoomServerMaxUser : NeZero controlRoomServerMaxUser := ⟨by decide⟩

local instance neZero_maxIpcameraNum : NeZero maxIpcameraNum := ⟨by decide⟩

/-! ### The default values -/

/-- `init_audio_info`. -/
def initAudioInfo : AudioInfo := ⟨0, 44100, 64000, 80, 80, "1111".toList⟩

/-- `init_quality_info`. -/
def initQualityInfo : QualityInfo := ⟨1, 0, 2048, 1920, 1080, 30⟩

/-- `init_SDquality_info`, with the rate type `init_enc_info` gives it. -/
def initSDqualityInfo : QualityInfo := ⟨1, 1, 512, 352, 288, 30⟩

/-- The address an encoder has at first. -/
def initEncIP (index : ℕ) : Text :=
  if index ∈ [1, 2, 3] then "169.254.0.4".toList
  else if index ∈ [4, 5] then "169.254.0.3".toList
  else "0.0.0.0".toList

/-- `init_enc_info`. -/
def initEncInfo (index : ℕ) : EncInfo :=
  ⟨BitVec.ofNat 32 index, initEncIP index, 1, initQualityInfo, initSDqualityInfo⟩

/-- `init_room_info`; `IfMark` stays as `malloc` has left it. -/
def initRoomInfo (mark : BitVec 32) (index : ℕ) : RoomInfo where
  roomID := BitVec.ofNat 32 index
  roomName := "KR9000_Name".toList
  connStatus := 1
  recordMaxTime := 8
  recStatus := 0
  ifMark := mark
  recName := []
  mode := 0
  audioInfo := initAudioInfo
  encInfo := fun i => initEncInfo (i + 1)

/-! ### The server -/

/-- The index of a room in the memory. -/
abbrev RoomIndex := Fin controlRoomServerMaxUser

/-- The rooms in the memory, how many of them there are to be, and the file: the children of its root. -/
structure State where
  roomInfo : RoomIndex → RoomInfo
  maxRoom : ℕ
  doc : List Node

/-- How many rooms are read and written. -/
def roomCount (maxRoom : ℕ) : ℕ := min maxRoom controlRoomServerMaxUser

/-- The rooms in the file. -/
def State.rooms (s : State) : List Node := tagged "room_info" s.doc

/-- `create_params_table_file`, with what it has written for the other sections. -/
def createParamsTableFile (lib : Libxml) (sections : List Node) (roomInfo : RoomIndex → RoomInfo)
    (maxRoom : ℕ) : List Node :=
  sections ++ (List.ofFn fun index => roomNode lib (roomInfo index)).take (roomCount maxRoom)

/-- A start without a file. -/
def start (lib : Libxml) (sections : List Node) (mark : RoomIndex → BitVec 32) : State :=
  let roomInfo : RoomIndex → RoomInfo := fun index => initRoomInfo (mark index) index
  ⟨roomInfo, controlDefaultRoomCount, createParamsTableFile lib sections roomInfo controlDefaultRoomCount⟩

/-- A room of `read_params_table_file`: it is read from the next room of the file, and appended where
there is none. -/
def readRoom (lib : Libxml) (s : State) (index : RoomIndex) : State :=
  match s.rooms[index.val]? with
  | some node =>
    { s with
      roomInfo := Function.update s.roomInfo index (readRoomInfo node.children (s.roomInfo index)) }
  | none => { s with doc := s.doc ++ [roomNode lib (s.roomInfo index)] }

/-- `reset_record_params`. -/
def resetRecordParams (s : State) : State :=
  { s with
    roomInfo := fun index =>
      if index.val < roomCount s.maxRoom then { s.roomInfo index with recStatus := 0, recName := [] }
      else s.roomInfo index }

/-- `init_all_server_info`, `read_params_table_file` and `reset_record_params`: a start with a file, for
`spec` rooms, with the sections `missing` appended. -/
def restart (lib : Libxml) (s : State) (spec : ℕ) (mark : RoomIndex → BitVec 32) (missing : List Node) :
    State :=
  let initial : State := ⟨fun index => initRoomInfo (mark index) index, spec, s.doc ++ missing⟩
  resetRecordParams (((List.finRange controlRoomServerMaxUser).take (roomCount spec)).foldl (readRoom lib)
    initial)

/-- A node of the file is that of a room. -/
def isRoom (roomID : BitVec 32) (node : Node) : Bool :=
  roomID = atoiU (((child? "RoomID" node.children).map value).getD [])

/-- `modify_room_info_only`: the first room with the ID of the new one is changed. -/
def modifyRoomInfoOnly (lib : Libxml) (old new : RoomInfo) (doc : List Node) : List Node :=
  modifyFirst (fun node => node.hasTag "room_info" && isRoom new.roomID node)
    (fun node => node.mapChildren (modifyRoomInfo lib old new)) doc

/-- `modify_room_name_only`. -/
def modifyRoomNameOnly (lib : Libxml) (old new : RoomInfo) (doc : List Node) : List Node :=
  modifyFirst (fun node => node.hasTag "room_info" && isRoom new.roomID node)
    (fun node => node.mapChildren (modifyRoomName lib old new)) doc

/-- Which camera an encoder's number stands for; other numbers stand for the last one. -/
def cameraOf (id : ℤ) (last : Fin maxIpcameraNum) : Fin maxIpcameraNum :=
  if id = 6 then 2 else if id = 7 then 1 else if id = 8 then 0 else if id = 9 then 3 else last

/-- The encoders of `modify_ipcamera_ip_only`, one after the other. -/
def modifyCameras (lib : Libxml) (ip : Fin maxIpcameraNum → Text) :
    Fin maxIpcameraNum → List Node → List Node
  | _, [] => []
  | last, child :: rest =>
    let id := Scanf.atoi (((child? "ID" child.children).map value).getD [])
    if child.hasTag "enc_info" && (firstIpcameraIndex + 1 : ℤ) ≤ id then
      child.mapChildren (putLeaf lib "EncIP" (ip (cameraOf id last))) ::
        modifyCameras lib ip (cameraOf id last) rest
    else child :: modifyCameras lib ip last rest

/-- `clean_invalid_ipcamera_ip`. -/
def cleanInvalidIpcameraIp (num : ℕ) (ip : Fin maxIpcameraNum → Text) : Fin maxIpcameraNum → Text :=
  fun i => if num ≤ i.val then "0.0.0.0".toList else ip i

/-- `modify_ipcamera_ip_only`: the cameras of the first room. -/
def modifyIpcameraIpOnly (lib : Libxml) (num : ℕ) (ip : Fin maxIpcameraNum → Text) (doc : List Node) :
    List Node :=
  modifyTagged "room_info"
    [fun node => node.mapChildren (modifyCameras lib (cleanInvalidIpcameraIp num ip) 0)] doc

/-- What happens to the server. -/
inductive Act
  /-- A request or a report about a room. -/
  | setRoom (index : RoomIndex) (new : RoomInfo)
  /-- `SetRoomName`, with a name that ends in the part of the record it copies. -/
  | setRoomName (name : Text)
  /-- `WEB_SET_TRACER_INFO`. -/
  | setCameras (num : ℕ) (ip : Fin maxIpcameraNum → Text)
  /-- `report_record_status_process`: a recording has been started or stopped. -/
  | recordStatus (index : RoomIndex) (optType : Bool)
  | restart (spec : ℕ) (mark : RoomIndex → BitVec 32) (missing : List Node)

/-- One of these. -/
def step (lib : Libxml) (s : State) : Act → State
  | .setRoom index new =>
    { s with
      doc := modifyRoomInfoOnly lib (s.roomInfo index) new s.doc
      roomInfo := Function.update s.roomInfo index new }
  | .setRoomName name =>
    let old := s.roomInfo 0
    let new := { old with roomName := name }
    -- the memory is changed where the room was found in the file
    if s.rooms.any (isRoom new.roomID) then
      { s with
        doc := modifyRoomNameOnly lib old new s.doc
        roomInfo := Function.update s.roomInfo 0 new }
    else s
  | .setCameras num ip => { s with doc := modifyIpcameraIpOnly lib num ip s.doc }
  | .recordStatus index optType =>
    { s with
      roomInfo := fun i =>
        if i = index ∧ i.val < s.maxRoom then { s.roomInfo i with recStatus := if optType then 1 else 0 }
        else s.roomInfo i }
  | .restart spec mark missing => restart lib s spec mark missing

/-! ### The file and the memory -/

/-- libxml2 keeps numbers and the default values. -/
structure Libxml.KeepsDefaults (lib : Libxml) : Prop where
  numbers : lib.KeepsNumbers
  texts : ∀ mark index, lib.KeepsTexts (initRoomInfo mark index)

/-- A room as the file has it: it fits, and of an encoder the number, the status and the second quality are
those it was created with. -/
structure RoomInfo.Saved (lib : Libxml) (info : RoomInfo) : Prop extends info.Fits lib where
  id : ∀ index, (info.encInfo index).id = BitVec.ofNat 32 (index + 1)
  status : ∀ index, (info.encInfo index).status = 1
  sdQuaInfo : ∀ index, (info.encInfo index).sdQuaInfo = initSDqualityInfo

/-- A room of the memory is the one in the file, but for what a recording leaves in it and what of an
encoder is never saved; the addresses of the encoders only where they are asked for. -/
structure RoomInfo.Agrees (addresses : Prop) (info inFile : RoomInfo) : Prop where
  roomName : info.roomName = inFile.roomName
  connStatus : info.connStatus = inFile.connStatus
  recordMaxTime : info.recordMaxTime = inFile.recordMaxTime
  ifMark : info.ifMark = inFile.ifMark
  mode : info.mode = inFile.mode
  audioInfo : info.audioInfo = inFile.audioInfo
  id : ∀ index, (info.encInfo index).id = (inFile.encInfo index).id
  hdQuaInfo : ∀ index, (info.encInfo index).hdQuaInfo = (inFile.encInfo index).hdQuaInfo
  encIP : addresses → ∀ index, (info.encInfo index).encIP = (inFile.encInfo index).encIP

/-- The file is what `add_room_info` writes for the rooms of `table`, each under its own number, and the
rooms in use agree with the memory, their addresses where `addresses` asks for them. -/
structure State.Follows (lib : Libxml) (addresses : RoomIndex → Prop) (s : State) (table : List RoomInfo) :
    Prop where
  rooms : s.rooms = table.map (roomNode lib)
  pos : 0 < table.length
  length_le : table.length ≤ controlRoomServerMaxUser
  count_le : roomCount s.maxRoom ≤ table.length
  saved : ∀ info ∈ table, info.Saved lib
  roomID : ∀ index info, table[index]? = some info → info.roomID = BitVec.ofNat 32 index
  memID : ∀ index, (s.roomInfo index).roomID = BitVec.ofNat 32 index
  agrees : ∀ index : RoomIndex, index.val < roomCount s.maxRoom → ∀ info, table[index.val]? = some info →
    (s.roomInfo index).Agrees (addresses index) info

/-- A request that can be answered and kept: a room is set under its own number, with the numbers of its
encoders, texts come back and have room, and a section is not a room. -/
def Act.Fits (lib : Libxml) : Act → Prop
  | .setRoom index new =>
    new.roomID = BitVec.ofNat 32 index ∧ (∀ i, (new.encInfo i).id = BitVec.ofNat 32 (i + 1)) ∧ new.Fits lib
  | .setRoomName name => lib.Keeps name ∧ name.length < xmlValueMaxLength
  | .setCameras num ip => ∀ i, lib.Keeps (cleanInvalidIpcameraIp num ip i) ∧
      (cleanInvalidIpcameraIp num ip i).length < ipinfoMaxLength
  | .recordStatus _ _ => True
  | .restart _ _ missing => ∀ node ∈ missing, node.hasTag "room_info" = false

theorem changed_of_eq {α : Type} [DecidableEq α] {old new inFile : α} (h : old = inFile) :
    changed old new inFile = new := by
  rw [changed, ← h]
  split_ifs with heq
  · exact heq
  · rfl

/-- What holds of both values holds of the changed one. -/
theorem changed_of_forall {α : Type} [DecidableEq α] {p : α → Prop} {old new inFile : α} (hnew : p new)
    (hfile : p inFile) : p (changed old new inFile) := by
  rw [changed]
  split_ifs
  · exact hfile
  · exact hnew

theorem AudioInfo.changed_of_eq {old new inFile : AudioInfo} (h : old = inFile) :
    old.changed new inFile = new := by
  subst h
  simp only [AudioInfo.changed, Params.changed_of_eq]

theorem QualityInfo.changed_of_eq {old new inFile : QualityInfo} (h : old = inFile) :
    old.changed new inFile = new := by
  subst h
  simp only [QualityInfo.changed, Params.changed_of_eq]

section

variable {lib : Libxml} {addresses : RoomIndex → Prop} {s : State} {table : List RoomInfo}

/-- A change of a saved room leaves a saved room. -/
theorem RoomInfo.Saved.changed {old new inFile : RoomInfo} (h : inFile.Saved lib) (hnew : new.Fits lib)
    (hid : ∀ i, (new.encInfo i).id = BitVec.ofNat 32 (i + 1)) : (old.changed new inFile).Saved lib where
  roomName := changed_of_forall hnew.roomName h.roomName
  recName := changed_of_forall hnew.recName h.recName
  inputIndex := changed_of_forall hnew.inputIndex h.inputIndex
  encIP := fun index => changed_of_forall (hnew.encIP index) (h.encIP index)
  roomName_length := changed_of_forall (p := fun s => List.length s < _) hnew.roomName_length
    h.roomName_length
  recName_length := changed_of_forall (p := fun s => List.length s < _) hnew.recName_length h.recName_length
  inputIndex_length := changed_of_forall (p := fun s => List.length s ≤ _) hnew.inputIndex_length
    h.inputIndex_length
  encIP_length := fun index => changed_of_forall (p := fun s => List.length s < _) (hnew.encIP_length index)
    (h.encIP_length index)
  hdRateType := fun index => changed_of_forall (p := fun n => n = 0) (hnew.hdRateType index)
    (h.hdRateType index)
  id := fun index => changed_of_forall (p := fun n => n = _) (hid index) (h.id index)
  status := h.status
  sdQuaInfo := h.sdQuaInfo

/-- Where the memory agreed with the file, the new room does after the change. -/
theorem RoomInfo.Agrees.changed {addrs : Prop} {old new inFile : RoomInfo}
    (h : old.Agrees addrs inFile) : new.Agrees addrs (old.changed new inFile) where
  roomName := (changed_of_eq h.roomName).symm
  connStatus := (changed_of_eq h.connStatus).symm
  recordMaxTime := (changed_of_eq h.recordMaxTime).symm
  ifMark := (changed_of_eq h.ifMark).symm
  mode := (changed_of_eq h.mode).symm
  audioInfo := (AudioInfo.changed_of_eq h.audioInfo).symm
  id := fun index => (changed_of_eq (h.id index)).symm
  hdQuaInfo := fun index => (QualityInfo.changed_of_eq (h.hdQuaInfo index)).symm
  encIP := fun haddrs index => (changed_of_eq (h.encIP haddrs index)).symm

theorem Libxml.KeepsDefaults.saved (hlib : lib.KeepsDefaults) (mark : BitVec 32) (index : ℕ) :
    (initRoomInfo mark index).Saved lib where
  toKeepsTexts := hlib.texts mark index
  roomName_length := show "KR9000_Name".toList.length < xmlValueMaxLength by decide
  recName_length := show 0 < xmlValueMaxLength by decide
  inputIndex_length := show "1111".toList.length ≤ 4 by decide
  encIP_length := by
    intro i
    change (initEncIP (i + 1)).length < ipinfoMaxLength
    rw [initEncIP]
    split_ifs <;> decide
  hdRateType := fun _ => rfl
  id := fun _ => rfl
  status := fun _ => rfl
  sdQuaInfo := fun _ => rfl

theorem RoomInfo.Agrees.refl (addrs : Prop) (info : RoomInfo) : info.Agrees addrs info where
  roomName := rfl
  connStatus := rfl
  recordMaxTime := rfl
  ifMark := rfl
  mode := rfl
  audioInfo := rfl
  id := fun _ => rfl
  hdQuaInfo := fun _ => rfl
  encIP := fun _ _ => rfl

/-! ### Finding a room -/

theorem isRoom_roomNode (hlib : lib.KeepsNumbers) (roomID : BitVec 32) (info : RoomInfo) :
    isRoom roomID (roomNode lib info) = decide (roomID = info.roomID) := by
  have hchild : child? "RoomID" (roomNode lib info).children = some (numberLeaf lib "RoomID" info.roomID) :=
    child?_cons_of_tag rfl
  rw [isRoom, hchild, Option.map_some, Option.getD_some, atoiU_value_numberLeaf hlib]

/-- The numbers of the rooms are told apart. -/
theorem roomID_inj {i j : ℕ} (hi : i < controlRoomServerMaxUser) (hj : j < controlRoomServerMaxUser) :
    BitVec.ofNat 32 i = BitVec.ofNat 32 j ↔ j = i := by
  refine ⟨fun h => ?_, fun h => by rw [h]⟩
  have h := congrArg BitVec.toNat h
  have hmax : controlRoomServerMaxUser = 16 := rfl
  rw [BitVec.toNat_ofNat, BitVec.toNat_ofNat, Nat.mod_eq_of_lt (by omega), Nat.mod_eq_of_lt (by omega)] at h
  exact h.symm

theorem State.Follows.isRoom_iff (h : s.Follows lib addresses table) (index : RoomIndex) {j : ℕ}
    {info : RoomInfo} (hj : table[j]? = some info) :
    decide (BitVec.ofNat 32 index = info.roomID) = true ↔ j = index := by
  have hlt : j < table.length := (List.getElem?_eq_some_iff.mp hj).1
  rw [decide_eq_true_iff, h.roomID j info hj]
  exact roomID_inj index.isLt (hlt.trans_le h.length_le)

/-- A change of the room with a number is a change at this place of the table. -/
theorem State.Follows.rooms_modify (hlib : lib.KeepsNumbers) (h : s.Follows lib addresses table)
    (index : RoomIndex) {g : List Node → List Node} {f : RoomInfo → RoomInfo}
    (hg : ∀ info ∈ table, g (addRoomInfo lib info) = addRoomInfo lib (f info)) :
    tagged "room_info" (modifyFirst
        (fun node => node.hasTag "room_info" && isRoom (BitVec.ofNat 32 index) node)
        (fun node => node.mapChildren g) s.doc)
      = (table.modify index f).map (roomNode lib) := by
  have hnode : ∀ info ∈ table, (roomNode lib info).mapChildren g = roomNode lib (f info) :=
    fun info hinfo => congrArg (Node.element "room_info") (hg info hinfo)
  have hrooms : tagged "room_info" s.doc = table.map (roomNode lib) := h.rooms
  rw [tagged_modifyFirst (fun node => hasTag_mapChildren g node), hrooms,
    modifyFirst_map (fun info _ => isRoom_roomNode hlib _ info) hnode,
    modifyFirst_eq_modify fun j info hj => h.isRoom_iff index hj]

/-- A room is changed in the memory and in the file. -/
theorem State.Follows.update (h : s.Follows lib addresses table) (index : RoomIndex) {new : RoomInfo}
    {doc : List Node} {f : RoomInfo → RoomInfo}
    (hdoc : tagged "room_info" doc = (table.modify index f).map (roomNode lib))
    (hnew : new.roomID = BitVec.ofNat 32 index)
    (hroomID : ∀ info, info.roomID = BitVec.ofNat 32 index → (f info).roomID = BitVec.ofNat 32 index)
    (hsaved : ∀ info, info.Saved lib → (f info).Saved lib)
    (hagrees : ∀ info, (s.roomInfo index).Agrees (addresses index) info →
      new.Agrees (addresses index) (f info)) :
    State.Follows lib addresses
      { s with doc := doc, roomInfo := Function.update s.roomInfo index new } (table.modify index f) := by
  have hget (j : ℕ) (info : RoomInfo) (hj : (table.modify index f)[j]? = some info) :
      ∃ old, table[j]? = some old ∧ info = if index.val = j then f old else old := by
    rw [List.getElem?_modify, Option.map_eq_map, Option.map_eq_some_iff] at hj
    obtain ⟨old, hold, rfl⟩ := hj
    exact ⟨old, hold, rfl⟩
  refine ⟨hdoc, ?_, ?_, ?_, ?_, ?_, ?_, ?_⟩
  · rw [List.length_modify]
    exact h.pos
  · rw [List.length_modify]
    exact h.length_le
  · rw [List.length_modify]
    exact h.count_le
  · intro info hinfo
    obtain ⟨j, hj⟩ := List.getElem?_of_mem hinfo
    obtain ⟨old, hold, rfl⟩ := hget j info hj
    have hsave := h.saved old (List.mem_of_getElem? hold)
    split_ifs
    · exact hsaved old hsave
    · exact hsave
  · intro j info hj
    obtain ⟨old, hold, rfl⟩ := hget j info hj
    have hid := h.roomID j old hold
    split_ifs with hindex
    · rw [← hindex] at hid ⊢
      exact hroomID old hid
    · exact hid
  · intro j
    change (Function.update s.roomInfo index new j).roomID = _
    rcases eq_or_ne j index with rfl | hne
    · rw [Function.update_self]
      exact hnew
    · rw [Function.update_of_ne hne]
      exact h.memID j
  · intro j hj info hget'
    obtain ⟨old, hold, rfl⟩ := hget j info hget'
    have hagree := h.agrees j hj old hold
    change (Function.update s.roomInfo index new j).Agrees _ _
    rcases eq_or_ne j index with rfl | hne
    · rw [Function.update_self, if_pos rfl]
      exact hagrees old hagree
    · rw [Function.update_of_ne hne, if_neg fun heq => hne (Fin.ext heq.symm)]
      exact hagree

/-- A room is set. -/
theorem State.Follows.setRoom (hlib : lib.KeepsNumbers) (h : s.Follows lib addresses table)
    {index : RoomIndex} {new : RoomInfo} (hfits : (Act.setRoom index new).Fits lib) :
    State.Follows lib addresses (step lib s (.setRoom index new))
      (table.modify index ((s.roomInfo index).changed new)) := by
  obtain ⟨hid, hencs, hnew⟩ := hfits
  have hdoc : tagged "room_info" (modifyRoomInfoOnly lib (s.roomInfo index) new s.doc)
      = (table.modify index ((s.roomInfo index).changed new)).map (roomNode lib) := by
    rw [modifyRoomInfoOnly, hid]
    exact h.rooms_modify hlib index fun info _ => modifyRoomInfo_add hlib hnew.toKeepsTexts info
  exact h.update index hdoc hid
    (fun info hinfo => changed_of_forall (p := fun n => n = BitVec.ofNat 32 index) hid hinfo)
    (fun info hsaved => hsaved.changed hnew hencs) fun info hagrees => hagrees.changed

/-- The first room is renamed. -/
theorem State.Follows.setRoomName (hlib : lib.KeepsNumbers) (h : s.Follows lib addresses table)
    {name : Text} (hname : lib.Keeps name) (hlen : name.length < xmlValueMaxLength) :
    ∃ table', State.Follows lib addresses (step lib s (.setRoomName name)) table' := by
  have hid : (s.roomInfo 0).roomID = BitVec.ofNat 32 (0 : RoomIndex) := h.memID 0
  rw [step]
  dsimp only
  split_ifs
  · refine ⟨table.modify (0 : RoomIndex) fun info =>
      { info with roomName := changed (s.roomInfo 0).roomName name info.roomName }, ?_⟩
    refine h.update 0 ?_ hid (fun _ hinfo => hinfo) ?_ ?_
    · rw [modifyRoomNameOnly, hid]
      exact h.rooms_modify hlib 0 fun info _ => modifyRoomName_add hname info
    · intro info hsaved
      exact { hsaved with
        roomName := changed_of_forall hname hsaved.roomName
        roomName_length := changed_of_forall (p := fun s => List.length s < _) hlen hsaved.roomName_length }
    · intro info hagrees
      exact { hagrees with roomName := (changed_of_eq hagrees.roomName).symm }
  · exact ⟨table, h⟩

/-! ### The cameras -/

/-- A room with the addresses of the cameras. -/
def RoomInfo.withCameras (ip : Fin maxIpcameraNum → Text) (info : RoomInfo) : RoomInfo :=
  { info with
    encInfo := fun index =>
      if firstIpcameraIndex ≤ index.val then
        { info.encInfo index with encIP := ip (cameraOf (index.val + 1) 0) }
      else info.encInfo index }

variable {ip : Fin maxIpcameraNum → Text}

theorem modifyCameras_cons_of_not {child : Node} (h : child.hasTag "enc_info" = false)
    (last : Fin maxIpcameraNum) (rest : List Node) :
    modifyCameras lib ip last (child :: rest) = child :: modifyCameras lib ip last rest := by
  rw [modifyCameras, h, Bool.false_and]
  rfl

/-- The four cameras have numbers of their own. -/
theorem cameraOf_eq {k : ℕ} (hfirst : firstIpcameraIndex ≤ k) (hlt : k < recordRoomMaxEncNum)
    (last : Fin maxIpcameraNum) : cameraOf (k + 1) last = cameraOf (k + 1) 0 := by
  have hindex : firstIpcameraIndex = 5 := rfl
  have hnum : recordRoomMaxEncNum = 9 := rfl
  obtain rfl | rfl | rfl | rfl : k = 5 ∨ k = 6 ∨ k = 7 ∨ k = 8 := by omega
  all_goals rfl

theorem putEncIP_add {t : Text} (ht : lib.Keeps t) (info : EncInfo) :
    (encNode lib info).mapChildren (putLeaf lib "EncIP" t) = encNode lib { info with encIP := t } := by
  refine congrArg (Node.element "enc_info") ?_
  rw [addEncInfo, putLeaf_cons_of_not rfl, putLeaf_cons_self ht]
  rfl

theorem modifyCameras_encNode (hlib : lib.KeepsNumbers) (hip : ∀ i, lib.Keeps (ip i)) {k : ℕ}
    {info : EncInfo} (hid : info.id = BitVec.ofNat 32 (k + 1)) (hk : k < recordRoomMaxEncNum)
    (last : Fin maxIpcameraNum) (rest : List Node) :
    ∃ last', modifyCameras lib ip last (encNode lib info :: rest)
      = encNode lib (if firstIpcameraIndex ≤ k then { info with encIP := ip (cameraOf (k + 1) 0) } else info)
        :: modifyCameras lib ip last' rest := by
  have hchild : child? "ID" (encNode lib info).children = some (numberLeaf lib "ID" info.id) :=
    child?_cons_of_tag rfl
  have hnumber : Scanf.atoi (sprintfD (BitVec.ofNat 32 (k + 1))) = (k + 1 : ℤ) := by
    have hnum : recordRoomMaxEncNum = 9 := rfl
    have hmod : (k + 1) % 2 ^ 32 = k + 1 := Nat.mod_eq_of_lt (by omega)
    rw [sprintfD, Scanf.atoi_decimal, BitVec.toInt_eq_toNat_of_lt, BitVec.toNat_ofNat, hmod]
    · exact Int.natCast_succ k
    · rw [BitVec.toNat_ofNat, hmod]
      omega
  have hvalue : Scanf.atoi (value (numberLeaf lib "ID" info.id)) = (k + 1 : ℤ) := by
    rw [value_numberLeaf hlib, hid, hnumber]
  rw [modifyCameras, hchild, Option.map_some, Option.getD_some, hvalue]
  by_cases hfirst : firstIpcameraIndex ≤ k
  · have hle : (firstIpcameraIndex + 1 : ℤ) ≤ (k + 1 : ℤ) := by omega
    refine ⟨cameraOf (k + 1) last, ?_⟩
    rw [if_pos hfirst, hasTag_encNode, decide_eq_true rfl, decide_eq_true hle, Bool.true_and, if_pos rfl,
      putEncIP_add (hip _), cameraOf_eq hfirst hk last]
  · have hle : ¬ (firstIpcameraIndex + 1 : ℤ) ≤ (k + 1 : ℤ) := by omega
    refine ⟨last, ?_⟩
    rw [if_neg hfirst, decide_eq_false hle, Bool.and_false]
    rfl

/-- The encoders from one on; the induction is on how many there are. -/
theorem modifyCameras_ofFn (hlib : lib.KeepsNumbers) (hip : ∀ i, lib.Keeps (ip i)) {n m : ℕ}
    (hmn : m + n ≤ recordRoomMaxEncNum) {encs : Fin n → EncInfo}
    (hids : ∀ i, (encs i).id = BitVec.ofNat 32 (m + i + 1)) (last : Fin maxIpcameraNum) :
    modifyCameras lib ip last (List.ofFn fun i => encNode lib (encs i))
      = List.ofFn fun i => encNode lib
        (if firstIpcameraIndex ≤ m + i.val then
          { encs i with encIP := ip (cameraOf ((m + i.val : ℕ) + 1) 0) } else encs i) := by
  induction n generalizing m last with
  | zero => rfl
  | succ n ih =>
    have hid : (encs 0).id = BitVec.ofNat 32 (m + 1) := hids 0
    obtain ⟨last', hfirst⟩ := modifyCameras_encNode hlib hip hid (by omega) last
      (List.ofFn fun i : Fin n => encNode lib (encs i.succ))
    have hids' (i : Fin n) : (encs i.succ).id = BitVec.ofNat 32 (m + 1 + i + 1) := by
      rw [hids i.succ, Fin.val_succ]
      exact congrArg (BitVec.ofNat 32) (by omega)
    have hrest := ih (by omega) hids' last'
    rw [List.ofFn_succ, List.ofFn_succ, hfirst, hrest]
    refine congrArg₂ List.cons rfl (congrArg List.ofFn (funext fun i => ?_))
    have hindex : m + 1 + i.val = m + i.succ.val := by
      rw [Fin.val_succ]
      omega
    rw [hindex]

theorem modifyCameras_add (hlib : lib.KeepsNumbers) (hip : ∀ i, lib.Keeps (ip i)) {info : RoomInfo}
    (hids : ∀ i, (info.encInfo i).id = BitVec.ofNat 32 (i + 1)) :
    modifyCameras lib ip 0 (addRoomInfo lib info) = addRoomInfo lib (info.withCameras ip) := by
  have hids' (i : Fin recordRoomMaxEncNum) : (info.encInfo i).id = BitVec.ofNat 32 (0 + i + 1) := by
    rw [Nat.zero_add]
    exact hids i
  have hencs := modifyCameras_ofFn hlib hip (by omega) hids' 0
  simp only [Nat.zero_add] at hencs
  rw [addRoomInfo, addRoomInfo, RoomInfo.withCameras]
  simp only [List.cons_append, List.nil_append]
  repeat rw [modifyCameras_cons_of_not rfl]
  rw [hencs]

theorem withCameras_id (info : RoomInfo) (i : Fin recordRoomMaxEncNum) :
    ((info.withCameras ip).encInfo i).id = (info.encInfo i).id := by
  rw [RoomInfo.withCameras]
  dsimp only
  split_ifs <;> rfl

theorem withCameras_hdQuaInfo (info : RoomInfo) (i : Fin recordRoomMaxEncNum) :
    ((info.withCameras ip).encInfo i).hdQuaInfo = (info.encInfo i).hdQuaInfo := by
  rw [RoomInfo.withCameras]
  dsimp only
  split_ifs <;> rfl

/-- Addresses that can be kept leave a saved room. -/
theorem RoomInfo.Saved.withCameras {info : RoomInfo} (h : info.Saved lib) (hip : ∀ i, lib.Keeps (ip i))
    (hlen : ∀ i, (ip i).length < ipinfoMaxLength) : (info.withCameras ip).Saved lib := by
  have henc (i : Fin recordRoomMaxEncNum) : lib.Keeps ((info.withCameras ip).encInfo i).encIP ∧
      ((info.withCameras ip).encInfo i).encIP.length < ipinfoMaxLength ∧
      ((info.withCameras ip).encInfo i).status = 1 ∧
      ((info.withCameras ip).encInfo i).sdQuaInfo = initSDqualityInfo := by
    rw [RoomInfo.withCameras]
    dsimp only
    split_ifs
    · exact ⟨hip _, hlen _, h.status i, h.sdQuaInfo i⟩
    · exact ⟨h.encIP i, h.encIP_length i, h.status i, h.sdQuaInfo i⟩
  exact {
    roomName := h.roomName
    recName := h.recName
    inputIndex := h.inputIndex
    encIP := fun i => (henc i).1
    roomName_length := h.roomName_length
    recName_length := h.recName_length
    inputIndex_length := h.inputIndex_length
    encIP_length := fun i => (henc i).2.1
    hdRateType := fun i => by
      rw [withCameras_hdQuaInfo]
      exact h.hdRateType i
    id := fun i => (withCameras_id info i).trans (h.id i)
    status := fun i => (henc i).2.2.1
    sdQuaInfo := fun i => (henc i).2.2.2 }

/-- The addresses of the cameras go into the first room of the file; in the memory nothing changes. -/
theorem State.Follows.setCameras (hlib : lib.KeepsNumbers) (h : s.Follows lib addresses table)
    {num : ℕ} (hfits : (Act.setCameras num ip).Fits lib) (haddresses : ¬ addresses 0) :
    State.Follows lib addresses (step lib s (.setCameras num ip))
      (table.modify (0 : RoomIndex) (RoomInfo.withCameras (cleanInvalidIpcameraIp num ip))) := by
  have hkeep (i : Fin maxIpcameraNum) := (hfits i).1
  have hdoc : tagged "room_info" (modifyIpcameraIpOnly lib num ip s.doc)
      = (table.modify (0 : RoomIndex) (RoomInfo.withCameras (cleanInvalidIpcameraIp num ip))).map
        (roomNode lib) := by
    have hrooms : tagged "room_info" s.doc = table.map (roomNode lib) := h.rooms
    rw [modifyIpcameraIpOnly, tagged_modifyTagged, hrooms]
    · obtain ⟨info, rest, rfl⟩ := List.exists_cons_of_length_pos h.pos
      have hinfo := h.saved info List.mem_cons_self
      rw [List.map_cons, modifyTagged_cons_of_tag rfl, modifyTagged_nil]
      refine congrArg₂ List.cons (congrArg (Node.element "room_info") ?_) rfl
      exact modifyCameras_add hlib hkeep hinfo.id
    · intro f hf node
      rw [List.mem_singleton.mp hf]
      exact hasTag_mapChildren _ node
  have hupdate := h.update 0 hdoc (h.memID 0) (fun _ hinfo => hinfo)
    (fun info hsaved => hsaved.withCameras hkeep fun i => (hfits i).2) fun info hagrees =>
      { roomName := hagrees.roomName
        connStatus := hagrees.connStatus
        recordMaxTime := hagrees.recordMaxTime
        ifMark := hagrees.ifMark
        mode := hagrees.mode
        audioInfo := hagrees.audioInfo
        id := fun i => (hagrees.id i).trans (withCameras_id info i).symm
        hdQuaInfo := fun i => (hagrees.hdQuaInfo i).trans (withCameras_hdQuaInfo info i).symm
        encIP := fun haddrs => absurd haddrs haddresses }
  rw [Function.update_eq_self] at hupdate
  exact hupdate

/-! ### Only the memory -/

/-- A change of the memory alone that the file need not be told. -/
theorem State.Follows.memory (h : s.Follows lib addresses table) {roomInfo : RoomIndex → RoomInfo}
    (hid : ∀ index, (roomInfo index).roomID = (s.roomInfo index).roomID)
    (hagrees : ∀ index inFile, (s.roomInfo index).Agrees (addresses index) inFile →
      (roomInfo index).Agrees (addresses index) inFile) :
    State.Follows lib addresses { s with roomInfo := roomInfo } table :=
  { h with
    memID := fun index => (hid index).trans (h.memID index)
    agrees := fun index hindex info hget => hagrees index info (h.agrees index hindex info hget) }

/-- Whether there is a recording is wiped out at a start anyway. -/
theorem State.Follows.recordStatus (h : s.Follows lib addresses table) (index : RoomIndex)
    (optType : Bool) : State.Follows lib addresses (step lib s (.recordStatus index optType)) table := by
  refine h.memory (fun i => ?_) fun i inFile hagrees => ?_
  · split_ifs <;> rfl
  · split_ifs
    all_goals exact { hagrees with }

/-! ### A start -/

/-- The rooms of the file after a start for `n` rooms: those that were missing have been appended. -/
def filled (table : List RoomInfo) (initial : RoomIndex → RoomInfo) (n : ℕ) : List RoomInfo :=
  table ++ ((List.ofFn initial).take n).drop table.length

variable {initial : RoomIndex → RoomInfo} {n : ℕ}

theorem length_filled (hn : n ≤ controlRoomServerMaxUser) :
    (filled table initial n).length = max table.length n := by
  rw [filled, List.length_append, List.length_drop, List.length_take, List.length_ofFn]
  omega

theorem filled_succ_of_lt (hlt : n < table.length) :
    filled table initial (n + 1) = filled table initial n := by
  rw [filled, filled, List.drop_eq_nil_of_le, List.drop_eq_nil_of_le]
  · exact (List.length_take_le n _).trans hlt.le
  · exact (List.length_take_le (n + 1) _).trans hlt

theorem filled_succ_of_le (hle : table.length ≤ n) (hn : n < controlRoomServerMaxUser) :
    filled table initial (n + 1) = filled table initial n ++ [initial ⟨n, hn⟩] := by
  have hget : (List.ofFn initial)[n]? = some (initial ⟨n, hn⟩) := by
    rw [List.getElem?_ofFn, dif_pos hn]
  have hlen : table.length ≤ ((List.ofFn initial).take n).length := by
    rw [List.length_take, List.length_ofFn]
    omega
  rw [filled, filled, List.take_add_one, hget, Option.toList_some, List.drop_append_of_le_length hlen,
    List.append_assoc]

/-- A room of the file after a start is one that was there or one with default values. -/
theorem getElem?_filled {j : ℕ} {info : RoomInfo} (h : (filled table initial n)[j]? = some info) :
    table[j]? = some info ∨
      table[j]? = none ∧ ∃ index : RoomIndex, index.val = j ∧ info = initial index := by
  rw [filled, List.getElem?_append] at h
  split_ifs at h with hlt
  · exact .inl h
  · rw [List.getElem?_drop, List.getElem?_take] at h
    split_ifs at h with hn
    have hj : table.length + (j - table.length) = j := by omega
    rw [hj, List.getElem?_ofFn] at h
    split_ifs at h with hmax
    exact .inr ⟨List.getElem?_eq_none (by omega), ⟨j, hmax⟩, rfl, (Option.some.inj h).symm⟩

/-- The loop over the rooms; the induction is on how many have been read. -/
theorem readRooms (hlib : lib.KeepsNumbers) (hrooms : s.rooms = table.map (roomNode lib))
    (hsaved : ∀ info ∈ table, info.Saved lib) (hname : ∀ index, (s.roomInfo index).recName = []) {n : ℕ}
    (hn : n ≤ controlRoomServerMaxUser) :
    let t := ((List.finRange controlRoomServerMaxUser).take n).foldl (readRoom lib) s
    t.rooms = (filled table s.roomInfo n).map (roomNode lib) ∧ t.maxRoom = s.maxRoom ∧
      ∀ index : RoomIndex, t.roomInfo index =
        if index.val < n then table[index.val]?.getD (s.roomInfo index) else s.roomInfo index := by
  induction n with
  | zero =>
    have hfilled : filled table s.roomInfo 0 = table := by
      rw [filled, List.take_zero, List.drop_nil, List.append_nil]
    refine ⟨?_, rfl, fun index => (if_neg (Nat.not_lt_zero _)).symm⟩
    rw [hfilled]
    exact hrooms
  | succ n ih =>
    have hlt : n < controlRoomServerMaxUser := hn
    have htake : (List.finRange controlRoomServerMaxUser).take (n + 1)
        = (List.finRange controlRoomServerMaxUser).take n ++ [⟨n, hlt⟩] := by
      rw [List.take_add_one, List.getElem?_eq_getElem (by rw [List.length_finRange]; exact hlt),
        List.getElem_finRange, Option.toList_some]
      rfl
    obtain ⟨htrooms, htmax, htinfo⟩ := ih hlt.le
    rw [htake, List.foldl_append, List.foldl_cons, List.foldl_nil]
    generalize ((List.finRange controlRoomServerMaxUser).take n).foldl (readRoom lib) s = t
      at htrooms htmax htinfo
    have hold : t.roomInfo ⟨n, hlt⟩ = s.roomInfo ⟨n, hlt⟩ := by
      rw [htinfo, if_neg (Nat.lt_irrefl n)]
    have hnext (index : RoomIndex) (hne : index ≠ ⟨n, hlt⟩) : index.val < n + 1 ↔ index.val < n := by
      have hval : index.val ≠ n := fun heq => hne (Fin.ext heq)
      omega
    by_cases hlast : n < table.length
    · -- the room is in the file
      have hget : t.rooms[n]? = some (roomNode lib table[n]) := by
        rw [htrooms, List.getElem?_map, filled, List.getElem?_append_left hlast,
          List.getElem?_eq_getElem hlast, Option.map_some]
      have hread : readRoomInfo (addRoomInfo lib table[n]) (t.roomInfo ⟨n, hlt⟩) = table[n] := by
        have hsave := hsaved table[n] (List.getElem_mem hlast)
        refine readRoomInfo_add hlib hsave.toFits (fun i => ?_) ?_
        · rw [hsave.sdQuaInfo i]
          decide
        · rw [hold]
          exact hname _
      have hstep : readRoom lib t ⟨n, hlt⟩
          = { t with roomInfo := Function.update t.roomInfo ⟨n, hlt⟩ table[n] } := by
        rw [readRoom, hget]
        dsimp only
        rw [roomNode, Node.children, hread]
      rw [hstep]
      refine ⟨?_, htmax, fun index => ?_⟩
      · rw [filled_succ_of_lt hlast]
        exact htrooms
      · change Function.update t.roomInfo ⟨n, hlt⟩ table[n] index = _
        rcases eq_or_ne index ⟨n, hlt⟩ with rfl | hne
        · rw [Function.update_self, if_pos (Nat.lt_succ_self n), List.getElem?_eq_getElem hlast,
            Option.getD_some]
        · rw [Function.update_of_ne hne, htinfo]
          simp only [hnext index hne]
    · -- the room is missing
      have hlast : table.length ≤ n := Nat.le_of_not_lt hlast
      have hget : t.rooms[n]? = none := by
        rw [htrooms, List.getElem?_eq_none]
        rw [List.length_map, length_filled hlt.le]
        omega
      have hstep : readRoom lib t ⟨n, hlt⟩ = { t with doc := t.doc ++ [roomNode lib (s.roomInfo ⟨n, hlt⟩)] } := by
        rw [readRoom, hget, hold]
      rw [hstep]
      refine ⟨?_, htmax, fun index => ?_⟩
      · have hdoc : tagged "room_info" t.doc = (filled table s.roomInfo n).map (roomNode lib) := htrooms
        rw [filled_succ_of_le hlast hlt, List.map_append, State.rooms, tagged_append, hdoc]
        rfl
      · change t.roomInfo index = _
        rcases eq_or_ne index ⟨n, hlt⟩ with rfl | hne
        · rw [hold, if_pos (Nat.lt_succ_self n), List.getElem?_eq_none hlast, Option.getD_none]
        · rw [htinfo]
          simp only [hnext index hne]

/-- A room of the memory after a start. -/
theorem roomInfo_restart {s' : State} (hmax : s'.maxRoom = n) (index : RoomIndex) :
    (resetRecordParams s').roomInfo index
      = if index.val < roomCount n then { s'.roomInfo index with recStatus := 0, recName := [] }
        else s'.roomInfo index := by
  rw [← hmax]
  rfl

/-- A start reads what the file has and appends what it has not. -/
theorem State.Follows.restart (hlib : lib.KeepsDefaults) (h : s.Follows lib addresses table) {spec : ℕ}
    {mark : RoomIndex → BitVec 32} {missing : List Node}
    (hmissing : ∀ node ∈ missing, node.hasTag "room_info" = false) :
    let initial : RoomIndex → RoomInfo := fun index => initRoomInfo (mark index) index
    let s' := step lib s (.restart spec mark missing)
    State.Follows lib addresses s' (filled table initial (roomCount spec)) ∧
      ∀ index : RoomIndex, index.val < roomCount spec → ∀ info, table[index.val]? = some info →
        s'.roomInfo index = { info with recStatus := 0, recName := [] } := by
  intro initial s'
  have hcount : roomCount spec ≤ controlRoomServerMaxUser := Nat.min_le_right _ _
  have hrooms : State.rooms ⟨initial, spec, s.doc ++ missing⟩ = table.map (roomNode lib) := by
    have hdoc : tagged "room_info" s.doc = table.map (roomNode lib) := h.rooms
    rw [State.rooms, tagged_append, hdoc, tagged_eq_nil hmissing, List.append_nil]
  obtain ⟨hread, hmax, hinfo⟩ := readRooms hlib.numbers hrooms h.saved (fun _ => rfl) hcount
  have hmem (index : RoomIndex) : s'.roomInfo index
      = if index.val < roomCount spec then
          { table[index.val]?.getD (initial index) with recStatus := 0, recName := [] }
        else initial index := by
    refine (roomInfo_restart hmax index).trans ?_
    rw [hinfo index]
    split_ifs <;> rfl
  have hlen : (filled table initial (roomCount spec)).length = max table.length (roomCount spec) :=
    length_filled hcount
  have hpos := h.pos
  have hle := h.length_le
  have hmax' : s'.maxRoom = spec := hmax
  refine ⟨⟨hread, ?_, ?_, ?_, ?_, ?_, ?_, ?_⟩, ?_⟩
  · omega
  · omega
  · rw [hmax']
    omega
  · intro info hmem'
    obtain ⟨j, hj⟩ := List.getElem?_of_mem hmem'
    rcases getElem?_filled hj with hold | ⟨-, index, -, rfl⟩
    · exact h.saved info (List.mem_of_getElem? hold)
    · exact hlib.saved _ _
  · intro j info hj
    rcases getElem?_filled hj with hold | ⟨-, index, rfl, rfl⟩
    · exact h.roomID j info hold
    · rfl
  · intro index
    rw [hmem]
    split_ifs
    · rcases hget : table[index.val]? with _ | info
      · rfl
      · exact h.roomID index info hget
    · rfl
  · intro index hindex info hj
    rw [hmax'] at hindex
    have hboth : table[index.val]?.getD (initial index) = info := by
      rcases getElem?_filled hj with hold | ⟨hnone, index', hval, rfl⟩
      · rw [hold, Option.getD_some]
      · rw [hnone, Option.getD_none, Fin.ext hval]
    rw [hmem, if_pos hindex, hboth]
    exact { RoomInfo.Agrees.refl (addresses index) info with }
  · intro index hindex info hget
    rw [hmem, if_pos hindex, hget, Option.getD_some]

/-! ### Runs -/

/-- Every step keeps what the file and the memory have to do with each other. -/
theorem State.Follows.step (hlib : lib.KeepsDefaults) (h : s.Follows lib addresses table) {act : Act}
    (hfits : act.Fits lib) (haddresses : ∀ num ip, act = .setCameras num ip → ¬ addresses 0) :
    ∃ table', State.Follows lib addresses (step lib s act) table' := by
  cases act with
  | setRoom index new => exact ⟨_, h.setRoom hlib.numbers hfits⟩
  | setRoomName name => exact h.setRoomName hlib.numbers hfits.1 hfits.2
  | setCameras num ip => exact ⟨_, h.setCameras hlib.numbers hfits (haddresses num ip rfl)⟩
  | recordStatus index optType => exact ⟨_, h.recordStatus index optType⟩
  | restart spec mark missing => exact ⟨_, (h.restart hlib hfits).1⟩

theorem State.Follows.run (hlib : lib.KeepsDefaults) {acts : List Act} (hfits : ∀ act ∈ acts, act.Fits lib)
    (haddresses : ∀ act ∈ acts, ∀ num ip, act = .setCameras num ip → ¬ addresses 0)
    (h : s.Follows lib addresses table) :
    ∃ table', State.Follows lib addresses (acts.foldl (Params.step lib) s) table' := by
  induction acts generalizing s table with
  | nil => exact ⟨table, h⟩
  | cons act acts ih =>
    obtain ⟨table', h'⟩ := h.step hlib (hfits act List.mem_cons_self) (haddresses act List.mem_cons_self)
    exact ih (fun a ha => hfits a (List.mem_cons_of_mem _ ha))
      (fun a ha => haddresses a (List.mem_cons_of_mem _ ha)) h'

theorem follows_start (hlib : lib.KeepsDefaults) {sections : List Node}
    (hsections : ∀ node ∈ sections, node.hasTag "room_info" = false) (mark : RoomIndex → BitVec 32) :
    State.Follows lib addresses (start lib sections mark) [initRoomInfo (mark 0) 0] := by
  have hone : (List.ofFn fun index : RoomIndex => roomNode lib (initRoomInfo (mark index) index)).take
      (roomCount controlDefaultRoomCount) = [roomNode lib (initRoomInfo (mark 0) 0)] := by
    rw [List.ofFn_succ]
    rfl
  refine ⟨?_, Nat.one_pos, show 1 ≤ 16 by decide, show roomCount controlDefaultRoomCount ≤ 1 by decide, ?_,
    ?_, fun _ => rfl, ?_⟩
  · change tagged "room_info" (sections ++ _) = _
    rw [tagged_append, tagged_eq_nil hsections, hone]
    rfl
  · intro info hinfo
    rw [List.mem_singleton.mp hinfo]
    exact hlib.saved _ _
  · intro index info hget
    cases index with
    | zero =>
      rw [← Option.some.inj hget]
      rfl
    | succ index => exact absurd hget (by simp)
  · intro index hindex info hget
    have hzero : index = 0 := Fin.ext (Nat.lt_one_iff.mp hindex)
    subst hzero
    rw [← Option.some.inj hget]
    exact RoomInfo.Agrees.refl _ _

/-- What a restart leaves of a room: what a recording has left in it is gone, and of an encoder the status
and the second quality are the default ones. -/
def RoomInfo.kept (encIP : Fin recordRoomMaxEncNum → Text) (info : RoomInfo) : RoomInfo :=
  { info with
    recStatus := 0
    recName := []
    encInfo := fun i =>
      { info.encInfo i with encIP := encIP i, status := 1, sdQuaInfo := initSDqualityInfo } }

/-- A saved room that agrees with the memory is what is kept of the room in the memory. -/
theorem RoomInfo.Agrees.kept {addrs : Prop} {info inFile : RoomInfo} (h : info.Agrees addrs inFile)
    (hsaved : inFile.Saved lib) (hroomID : info.roomID = inFile.roomID) :
    { inFile with recStatus := 0, recName := [] }
      = info.kept fun i => (inFile.encInfo i).encIP := by
  refine RoomInfo.ext hroomID.symm h.roomName.symm h.connStatus.symm h.recordMaxTime.symm rfl h.ifMark.symm
    rfl h.mode.symm h.audioInfo.symm (funext fun i => ?_)
  exact EncInfo.ext (h.id i).symm rfl (hsaved.status i) (h.hdQuaInfo i).symm (hsaved.sdQuaInfo i)

/-- Whatever has been set in the rooms, and however often the server has been started, a restart gives
back every room in use as it was last set, with the encoders' addresses; only the addresses of the first
room may be others, when cameras have been set. What a recording has left is gone, and the status and the
second quality of an encoder are the default ones. -/
theorem restart_keeps (hlib : lib.KeepsDefaults) {sections : List Node}
    (hsections : ∀ node ∈ sections, node.hasTag "room_info" = false) (mark : RoomIndex → BitVec 32)
    {acts : List Act} (hfits : ∀ act ∈ acts, act.Fits lib) (spec : ℕ) (mark' : RoomIndex → BitVec 32)
    {missing : List Node} (hmissing : ∀ node ∈ missing, node.hasTag "room_info" = false)
    {index : RoomIndex} :
    let s := acts.foldl (step lib) (start lib sections mark)
    let s' := step lib s (.restart spec mark' missing)
    index.val < roomCount s.maxRoom → index.val < roomCount spec →
      ∃ encIP, s'.roomInfo index = (s.roomInfo index).kept encIP ∧
        (index ≠ 0 ∨ (∀ act ∈ acts, ∀ num ip, act ≠ .setCameras num ip) →
          ∀ i, encIP i = ((s.roomInfo index).encInfo i).encIP) := by
  intro s s' hcount hspec
  have haddresses (act : Act) (hact : act ∈ acts) (num : ℕ) (ip : Fin maxIpcameraNum → Text)
      (heq : act = .setCameras num ip) :
      ¬ ((0 : RoomIndex) ≠ 0 ∨ ∀ act ∈ acts, ∀ num ip, act ≠ .setCameras num ip) := by
    rintro (hne | hnone)
    · exact hne rfl
    · exact hnone act hact num ip heq
  have hstart : State.Follows lib
      (fun index => index ≠ 0 ∨ ∀ act ∈ acts, ∀ num ip, act ≠ .setCameras num ip) (start lib sections mark)
      [initRoomInfo (mark 0) 0] := follows_start hlib hsections mark
  obtain ⟨table, h⟩ := State.Follows.run hlib hfits haddresses hstart
  have hlt : index.val < table.length := hcount.trans_le h.count_le
  have hget : table[index.val]? = some table[index.val] := List.getElem?_eq_getElem hlt
  have hagrees := h.agrees index hcount _ hget
  have hsaved := h.saved _ (List.getElem_mem hlt)
  have hroomID := (h.memID index).trans (h.roomID index _ hget).symm
  refine ⟨fun i => (table[index.val].encInfo i).encIP, ?_, fun haddrs i => (hagrees.encIP haddrs i).symm⟩
  rw [(h.restart hlib hmissing).2 index hspec _ hget]
  exact hagrees.kept hsaved hroomID

/-- The first room under another name. -/
def renamedRoom : RoomInfo := { initRoomInfo 0 0 with roomName := "Hall".toList }

/-- A libxml2 that keeps every text, as it does those without markup. -/
def plainLibxml : Libxml := ⟨id, id⟩

theorem keepsDefaults_plainLibxml : plainLibxml.KeepsDefaults where
  numbers := fun _ => ⟨rfl, rfl⟩
  texts := fun _ _ => ⟨⟨rfl, rfl⟩, ⟨rfl, rfl⟩, ⟨rfl, rfl⟩, fun _ => ⟨rfl, rfl⟩⟩

theorem restart_keeps_renamedRoom :
    let s := step plainLibxml (start plainLibxml [] fun _ => 0) (.setRoom 0 renamedRoom)
    ((step plainLibxml s (.restart 1 (fun _ => 0) [])).roomInfo 0).roomName = "Hall".toList := by
  intro s
  have hfits : ∀ act ∈ [Act.setRoom 0 renamedRoom], act.Fits plainLibxml := by
    intro act hact
    rw [List.mem_singleton.mp hact]
    have hsaved := keepsDefaults_plainLibxml.saved 0 0
    exact ⟨rfl, fun _ => rfl, { hsaved.toFits with
      roomName := ⟨rfl, rfl⟩
      roomName_length := show 4 < 256 by decide }⟩
  have hsections : ∀ node ∈ ([] : List Node), node.hasTag "room_info" = false :=
    fun node hnode => absurd hnode List.not_mem_nil
  have hcount : (0 : RoomIndex).val < roomCount s.maxRoom := show 0 < roomCount 1 by decide
  have hspec : (0 : RoomIndex).val < roomCount 1 := by decide
  obtain ⟨encIP, hinfo, -⟩ := restart_keeps keepsDefaults_plainLibxml hsections (fun _ => 0) hfits 1
    (fun _ => 0) hsections hcount hspec
  exact congrArg RoomInfo.roomName hinfo

/-- The addresses of the cameras are not seen before the next start, and then each camera's encoder has
its own, with no address for the cameras that are missing. -/
theorem cameras_after_restart (hlib : lib.KeepsDefaults) {sections : List Node}
    (hsections : ∀ node ∈ sections, node.hasTag "room_info" = false) (mark : RoomIndex → BitVec 32)
    {acts : List Act} (hfits : ∀ act ∈ acts, act.Fits lib) {num : ℕ} {ip : Fin maxIpcameraNum → Text}
    (hcameras : (Act.setCameras num ip).Fits lib) (spec : ℕ) (mark' : RoomIndex → BitVec 32)
    {missing : List Node} (hmissing : ∀ node ∈ missing, node.hasTag "room_info" = false) :
    let s := acts.foldl (step lib) (start lib sections mark)
    let s' := step lib s (.setCameras num ip)
    s'.roomInfo = s.roomInfo ∧
      (0 < roomCount spec → ∀ i : Fin recordRoomMaxEncNum, firstIpcameraIndex ≤ i.val →
        (((step lib s' (.restart spec mark' missing)).roomInfo 0).encInfo i).encIP
          = cleanInvalidIpcameraIp num ip (cameraOf (i.val + 1) 0)) := by
  intro s s'
  refine ⟨rfl, fun hspec i hi => ?_⟩
  have hstart : State.Follows lib (fun _ => False) (start lib sections mark)
      [initRoomInfo (mark 0) 0] := follows_start hlib hsections mark
  obtain ⟨table, h⟩ := State.Follows.run hlib hfits (fun _ _ _ _ _ => not_false) hstart
  obtain ⟨info, rest, rfl⟩ := List.exists_cons_of_length_pos h.pos
  have h' := h.setCameras hlib.numbers hcameras not_false
  have hroom : (step lib s' (.restart spec mark' missing)).roomInfo 0
      = { info.withCameras (cleanInvalidIpcameraIp num ip) with recStatus := 0, recName := [] } :=
    (h'.restart hlib hmissing).2 0 hspec _ rfl
  have hinfo := congrArg (fun info => (info.encInfo i).encIP) hroom
  exact hinfo.trans (congrArg EncInfo.encIP (if_pos hi))

/-- Three cameras. -/
def threeCameras (i : Fin maxIpcameraNum) : Text :=
  if i = 0 then "192.168.0.11".toList else if i = 1 then "192.168.0.12".toList else "192.168.0.13".toList

theorem cameras_after_restart_threeCameras :
    let s := step plainLibxml (start plainLibxml [] fun _ => 0) (.setCameras 3 threeCameras)
    let room := (step plainLibxml s (.restart 1 (fun _ => 0) [])).roomInfo 0
    (room.encInfo (Fin.castSucc (Fin.last 7))).encIP = "192.168.0.11".toList ∧
      (room.encInfo (Fin.last 8)).encIP = "0.0.0.0".toList := by
  intro s room
  have hnone : ∀ node ∈ ([] : List Node), node.hasTag "room_info" = false :=
    fun node hnode => absurd hnode List.not_mem_nil
  have hfits : ∀ act ∈ ([] : List Act), act.Fits plainLibxml :=
    fun act hact => absurd hact List.not_mem_nil
  have hcameras : (Act.setCameras 3 threeCameras).Fits plainLibxml := by
    intro i
    refine ⟨⟨rfl, rfl⟩, ?_⟩
    revert i
    decide
  have hrestart := (cameras_after_restart keepsDefaults_plainLibxml hnone (fun _ => 0) hfits hcameras 1
    (fun _ => 0) hnone).2 (show 0 < roomCount 1 by decide)
  exact ⟨hrestart (Fin.castSucc (Fin.last 7)) (show 5 ≤ 7 by decide),
    hrestart (Fin.last 8) (show 5 ≤ 8 by decide)⟩

end

end Params

end Control

end ReachEdukit
