import Mathlib
import ReachEdukit.Lib.KeyedLeaves
import ReachEdukit.Lib.Scanf

/-!
# The parameter table file

The control server keeps what is set for its rooms in `control_config.xml`. `add_room_info` writes a room
down, `read_room_info` reads it back when the server starts, and `modify_room_info` puts a change into the
file, one value at a time and only where the new value is not the one the server has in its memory.

A document is what a parse of the file gives. The text of a leaf comes back as libxml2 makes it; a text
that comes back as it was put in is one libxml2 keeps.

## What is left out

* the other sections of the table, and what a room has that is never written into the file: `mute`,
  `vstatus`, `RecTime`, `RecStartTime`, `RecordID`, `PicSyntInfo`
* files that cannot be opened, parsed or written

## Main definitions

* `RoomInfo`, `EncInfo`, `AudioInfo`, `QualityInfo` — what is kept
* `addRoomInfo`, `readRoomInfo`, `modifyRoomInfo` — the three ways through the file, and those of the
  records inside
* `changed` — a value in the file after a change

## Main results

* `modifyRoomInfo_add` — a change of a room that `add_room_info` has written gives what it writes for the
  changed room
* `readRoomInfo_add` — what reading such a room gives
-/

namespace ReachEdukit

namespace Control

namespace Params

open XmlTree

/-- The bytes of a C string. -/
abbrev Text := List Char

/-- A node of the document. -/
abbrev Node := XmlTree.Node String Char

/-- libxml2: the text of a leaf when the file has been saved and parsed again. -/
structure Libxml where
  /-- A leaf of `xml_add_new_child` or `package_add_xml_leaf`. -/
  newText : Text → Text
  /-- A leaf that `modify_node_value` has changed. -/
  setContent : Text → Text

/-- A text that comes back as it was put in: one without markup that is not only blanks. -/
structure Libxml.Keeps (lib : Libxml) (s : Text) : Prop where
  new : lib.newText s = s
  set : lib.setContent s = s

/-- `XML_VALUE_MAX_LENGTH`. -/
def xmlValueMaxLength : ℕ := 256

/-- `IPINFO_MAX_LENGTH`. -/
def ipinfoMaxLength : ℕ := 24

/-- `RECORD_ROOM_MAX_ENC_NUM`. -/
abbrev recordRoomMaxEncNum : ℕ := 9

/-! ### The records -/

/-- `audio_info`. -/
structure AudioInfo where
  inputMode : BitVec 32
  sampleRate : BitVec 32
  bitrate : BitVec 32
  lvolume : BitVec 32
  rvolume : BitVec 32
  inputIndex : Text
  deriving DecidableEq

/-- `quality_info`. -/
structure QualityInfo where
  enable : BitVec 32
  rateType : BitVec 32
  encBitrate : BitVec 32
  encWidth : BitVec 32
  encHeight : BitVec 32
  encFrameRate : BitVec 32
  deriving DecidableEq

/-- `enc_info`. -/
@[ext] structure EncInfo where
  id : BitVec 32
  encIP : Text
  status : BitVec 32
  hdQuaInfo : QualityInfo
  sdQuaInfo : QualityInfo
  deriving DecidableEq

/-- `room_info`. -/
@[ext] structure RoomInfo where
  roomID : BitVec 32
  roomName : Text
  connStatus : BitVec 32
  recordMaxTime : BitVec 32
  recStatus : BitVec 32
  ifMark : BitVec 32
  recName : Text
  mode : BitVec 32
  audioInfo : AudioInfo
  encInfo : Fin recordRoomMaxEncNum → EncInfo

/-! ### Leaves -/

/-- `sprintf(buf, "%d", n)` of a `uint32_t`. -/
def sprintfD (n : BitVec 32) : Text := Scanf.decimal n.toInt

/-- `atoi` into a `uint32_t`. -/
def atoiU (s : Text) : BitVec 32 := BitVec.ofInt 32 (Scanf.atoi s)

/-- `xml_add_new_child` with a text. -/
def textLeaf (lib : Libxml) (key : String) (s : Text) : Node := leaf key (lib.newText s)

/-- `xml_add_new_child` with a number. -/
def numberLeaf (lib : Libxml) (key : String) (n : BitVec 32) : Node := textLeaf lib key (sprintfD n)

/-- `xmlNodeListGetString`: the texts among the children, not those further down. -/
def nodeText (node : Node) : Text :=
  node.children.flatMap fun child =>
    match child with
    | .text s => s
    | .element _ _ => []

/-- `get_current_node_value`: nothing when the text is empty or does not leave room for its end. -/
def getCurrentNodeValue (valueLen : ℕ) (node : Node) : Option Text :=
  if nodeText node = [] ∨ valueLen ≤ (nodeText node).length then none else some (nodeText node)

/-- The buffer, all zeros before, that `get_current_node_value` fills. -/
def value (node : Node) : Text := (getCurrentNodeValue xmlValueMaxLength node).getD []

/-- `modify_node_value`. -/
def modifyNodeValue (lib : Libxml) (s : Text) (node : Node) : Node :=
  node.mapChildren fun _ => [.text (lib.setContent s)]

/-- The leaf of a key gets a new text, and is appended where there was none. -/
def putLeaf (lib : Libxml) (key : String) (s : Text) (children : List Node) : List Node :=
  if (child? key children).isSome then modifyTagged key [modifyNodeValue lib s] children
  else children ++ [textLeaf lib key s]

/-- `modify_uint32_value`. -/
def modifyUint32Value (lib : Libxml) (key : String) (uint32Old uint32New : BitVec 32)
    (children : List Node) : List Node :=
  if uint32Old = uint32New then children else putLeaf lib key (sprintfD uint32New) children

/-- `modify_int8_value`. -/
def modifyInt8Value (lib : Libxml) (key : String) (int8Old int8New : Text) (children : List Node) :
    List Node :=
  if int8Old = int8New then children else putLeaf lib key int8New children

/-- A number read from the leaf of a key, the old one where there is no such leaf. -/
def readUint32 (key : String) (children : List Node) (old : BitVec 32) : BitVec 32 :=
  match child? key children with
  | none => old
  | some node => atoiU (value node)

/-! ### Writing down -/

/-- `add_audio_info`. -/
def addAudioInfo (lib : Libxml) (info : AudioInfo) : List Node :=
  [numberLeaf lib "InputMode" info.inputMode, numberLeaf lib "SampleRate" info.sampleRate,
    numberLeaf lib "Bitrate" info.bitrate, numberLeaf lib "Lvolume" info.lvolume,
    numberLeaf lib "Rvolume" info.rvolume, textLeaf lib "InputIndex" info.inputIndex]

/-- `add_quality_info`. -/
def addQualityInfo (lib : Libxml) (info : QualityInfo) : List Node :=
  [numberLeaf lib "quality_enable" info.enable, numberLeaf lib "RateType" info.rateType,
    numberLeaf lib "EncBitrate" info.encBitrate, numberLeaf lib "EncWidth" info.encWidth,
    numberLeaf lib "EncHeight" info.encHeight, numberLeaf lib "EncFrameRate" info.encFrameRate]

/-- `add_enc_info`. -/
def addEncInfo (lib : Libxml) (info : EncInfo) : List Node :=
  [numberLeaf lib "ID" info.id, textLeaf lib "EncIP" info.encIP, numberLeaf lib "Status" info.status,
    .element "quality_info" (addQualityInfo lib info.hdQuaInfo),
    .element "quality_info" (addQualityInfo lib info.sdQuaInfo)]

/-- The element of an encoder. -/
def encNode (lib : Libxml) (info : EncInfo) : Node := .element "enc_info" (addEncInfo lib info)

/-- `add_room_info`. -/
def addRoomInfo (lib : Libxml) (info : RoomInfo) : List Node :=
  [numberLeaf lib "RoomID" info.roomID, textLeaf lib "RoomName" info.roomName,
    numberLeaf lib "ConnStatus" info.connStatus, numberLeaf lib "RecordMaxTime" info.recordMaxTime,
    numberLeaf lib "RecStatus" info.recStatus, numberLeaf lib "IfMark" info.ifMark,
    textLeaf lib "RecName" info.recName, numberLeaf lib "Model" info.mode,
    .element "audio_info" (addAudioInfo lib info.audioInfo)] ++
  List.ofFn fun index => encNode lib (info.encInfo index)

/-- The element of a room. -/
def roomNode (lib : Libxml) (info : RoomInfo) : Node := .element "room_info" (addRoomInfo lib info)

/-! ### Reading -/

/-- `read_audio_info`: the last value is copied as four bytes. -/
def readAudioInfo (children : List Node) (info : AudioInfo) : AudioInfo where
  inputMode := readUint32 "InputMode" children info.inputMode
  sampleRate := readUint32 "SampleRate" children info.sampleRate
  bitrate := readUint32 "Bitrate" children info.bitrate
  lvolume := readUint32 "Lvolume" children info.lvolume
  rvolume := readUint32 "Rvolume" children info.rvolume
  inputIndex := (child? "InputIndex" children).elim info.inputIndex fun node => (value node).take 4

/-- `read_quality_info`. -/
def readQualityInfo (children : List Node) (info : QualityInfo) : QualityInfo where
  enable := readUint32 "quality_enable" children info.enable
  rateType := readUint32 "RateType" children info.rateType
  encBitrate := readUint32 "EncBitrate" children info.encBitrate
  encWidth := readUint32 "EncWidth" children info.encWidth
  encHeight := readUint32 "EncHeight" children info.encHeight
  encFrameRate := readUint32 "EncFrameRate" children info.encFrameRate

/-- The rate type in a quality node says which of the two qualities it is. -/
def readQuality (node : Option Node) (info : EncInfo) : EncInfo :=
  match node with
  | none => info
  | some node =>
    if atoiU (((child? "RateType" node.children).map value).getD []) = 0 then
      { info with hdQuaInfo := readQualityInfo node.children info.hdQuaInfo }
    else { info with sdQuaInfo := readQualityInfo node.children info.sdQuaInfo }

/-- `read_enc_info`. -/
def readEncInfo (node : Option Node) (info : EncInfo) : EncInfo :=
  match node with
  | none => info
  | some node =>
    let children := node.children
    let qualities := tagged "quality_info" children
    readQuality qualities[1]? (readQuality qualities[0]?
      { info with
        id := readUint32 "ID" children info.id
        encIP := (child? "EncIP" children).elim [] fun node => (value node).take ipinfoMaxLength
        status := readUint32 "Status" children info.status })

/-- A value that is copied over an older text without its end. -/
def memcpyOver (s old : Text) : Text := s ++ old.drop s.length

/-- `read_room_info`. -/
def readRoomInfo (children : List Node) (info : RoomInfo) : RoomInfo where
  roomID := readUint32 "RoomID" children info.roomID
  roomName := (child? "RoomName" children).elim info.roomName value
  connStatus := readUint32 "ConnStatus" children info.connStatus
  recordMaxTime := readUint32 "RecordMaxTime" children info.recordMaxTime
  recStatus := readUint32 "RecStatus" children info.recStatus
  ifMark := readUint32 "IfMark" children info.ifMark
  recName := (child? "RecName" children).elim info.recName fun node => memcpyOver (value node) info.recName
  mode := readUint32 "Model" children info.mode
  audioInfo := (child? "audio_info" children).elim info.audioInfo fun node =>
    readAudioInfo node.children info.audioInfo
  encInfo := fun index => readEncInfo (tagged "enc_info" children)[index.val]? (info.encInfo index)

/-! ### Changing -/

/-- `modify_audio_info`. -/
def modifyAudioInfo (lib : Libxml) (old new : AudioInfo) (children : List Node) : List Node :=
  children
    |> modifyUint32Value lib "InputMode" old.inputMode new.inputMode
    |> modifyUint32Value lib "SampleRate" old.sampleRate new.sampleRate
    |> modifyUint32Value lib "Bitrate" old.bitrate new.bitrate
    |> modifyUint32Value lib "Lvolume" old.lvolume new.lvolume
    |> modifyUint32Value lib "Rvolume" old.rvolume new.rvolume
    |> modifyInt8Value lib "InputIndex" old.inputIndex new.inputIndex

/-- `modify_quality_info`. -/
def modifyQualityInfo (lib : Libxml) (old new : QualityInfo) (children : List Node) : List Node :=
  children
    |> modifyUint32Value lib "quality_enable" old.enable new.enable
    |> modifyUint32Value lib "RateType" old.rateType new.rateType
    |> modifyUint32Value lib "EncBitrate" old.encBitrate new.encBitrate
    |> modifyUint32Value lib "EncWidth" old.encWidth new.encWidth
    |> modifyUint32Value lib "EncHeight" old.encHeight new.encHeight
    |> modifyUint32Value lib "EncFrameRate" old.encFrameRate new.encFrameRate

/-- `modify_enc_info`: the status and the second quality are left alone. -/
def modifyEncInfo (lib : Libxml) (old new : EncInfo) (children : List Node) : List Node :=
  children
    |> modifyUint32Value lib "ID" old.id new.id
    |> modifyInt8Value lib "EncIP" old.encIP new.encIP
    |> modifyTagged "quality_info"
        [fun node => node.mapChildren (modifyQualityInfo lib old.hdQuaInfo new.hdQuaInfo)]

/-- `modify_room_info`. -/
def modifyRoomInfo (lib : Libxml) (old new : RoomInfo) (children : List Node) : List Node :=
  children
    |> modifyUint32Value lib "RoomID" old.roomID new.roomID
    |> modifyInt8Value lib "RoomName" old.roomName new.roomName
    |> modifyUint32Value lib "ConnStatus" old.connStatus new.connStatus
    |> modifyUint32Value lib "RecordMaxTime" old.recordMaxTime new.recordMaxTime
    |> modifyUint32Value lib "RecStatus" old.recStatus new.recStatus
    |> modifyUint32Value lib "IfMark" old.ifMark new.ifMark
    |> modifyInt8Value lib "RecName" old.recName new.recName
    |> modifyUint32Value lib "Model" old.mode new.mode
    |> modifyTagged "audio_info"
        [fun node => node.mapChildren (modifyAudioInfo lib old.audioInfo new.audioInfo)]
    |> modifyTagged "enc_info" (List.ofFn fun index node =>
        node.mapChildren (modifyEncInfo lib (old.encInfo index) (new.encInfo index)))

/-- `modify_room_name`. -/
def modifyRoomName (lib : Libxml) (old new : RoomInfo) (children : List Node) : List Node :=
  modifyInt8Value lib "RoomName" old.roomName new.roomName children

/-! ### Numbers and texts in the file -/

/-- Numbers are texts that libxml2 keeps. -/
def Libxml.KeepsNumbers (lib : Libxml) : Prop := ∀ n : BitVec 32, lib.Keeps (sprintfD n)

/-- What the file has after a change: the new value, unless it was the one in the memory. -/
def changed {α : Type} [DecidableEq α] (old new inFile : α) : α := if old = new then inFile else new

theorem atoiU_sprintfD (n : BitVec 32) : atoiU (sprintfD n) = n := by
  rw [atoiU, sprintfD, Scanf.atoi_decimal, BitVec.ofInt_toInt]

theorem length_sprintfD_lt (n : BitVec 32) : (sprintfD n).length < xmlValueMaxLength := by
  have hlow := BitVec.le_toInt n
  have hhigh := BitVec.toInt_lt (x := n)
  have habs : n.toInt.natAbs < 10 ^ 10 := by omega
  have hdigits := Nat.toDigits_length 10 n.toInt.natAbs 10 (by decide) habs
  have hmax : xmlValueMaxLength = 256 := rfl
  rw [sprintfD, Scanf.decimal]
  split_ifs
  · rw [List.length_cons]
    omega
  · omega

section

variable {lib : Libxml} {key : String} {s t : Text} {n : BitVec 32} {child : Node} {rest : List Node}

@[simp] theorem hasTag_textLeaf (tag : String) :
    (textLeaf lib tag s).hasTag key = decide (tag = key) := rfl

@[simp] theorem hasTag_numberLeaf (tag : String) :
    (numberLeaf lib tag n).hasTag key = decide (tag = key) := rfl

@[simp] theorem hasTag_encNode (info : EncInfo) :
    (encNode lib info).hasTag key = decide ("enc_info" = key) := rfl

@[simp] theorem hasTag_roomNode (info : RoomInfo) :
    (roomNode lib info).hasTag key = decide ("room_info" = key) := rfl

theorem nodeText_textLeaf : nodeText (textLeaf lib key s) = lib.newText s := List.append_nil _

/-- A text that has room comes back. -/
theorem value_textLeaf (hs : lib.Keeps s) (hlen : s.length < xmlValueMaxLength) :
    value (textLeaf lib key s) = s := by
  rw [value, getCurrentNodeValue, nodeText_textLeaf, hs.new]
  split_ifs with h
  · rcases h with rfl | h
    · rfl
    · exact absurd h (Nat.not_le_of_lt hlen)
  · rfl

theorem value_numberLeaf (hlib : lib.KeepsNumbers) : value (numberLeaf lib key n) = sprintfD n :=
  value_textLeaf (hlib n) (length_sprintfD_lt n)

theorem atoiU_value_numberLeaf (hlib : lib.KeepsNumbers) : atoiU (value (numberLeaf lib key n)) = n := by
  rw [value_numberLeaf hlib, atoiU_sprintfD]

theorem readUint32_cons_self (hlib : lib.KeepsNumbers) (old : BitVec 32) :
    readUint32 key (numberLeaf lib key n :: rest) old = n := by
  have htag : (numberLeaf lib key n).hasTag key = true := decide_eq_true rfl
  rw [readUint32, child?_cons_of_tag htag]
  exact atoiU_value_numberLeaf hlib

theorem readUint32_cons_of_not (h : child.hasTag key = false) (old : BitVec 32) :
    readUint32 key (child :: rest) old = readUint32 key rest old := by
  rw [readUint32, child?_cons_of_not h, readUint32]

theorem modifyNodeValue_textLeaf (hs : lib.Keeps s) :
    modifyNodeValue lib s (textLeaf lib key t) = textLeaf lib key s := by
  rw [textLeaf, textLeaf, hs.new]
  change leaf key (lib.setContent s) = leaf key s
  rw [hs.set]

theorem putLeaf_cons_self (hs : lib.Keeps s) :
    putLeaf lib key s (textLeaf lib key t :: rest) = textLeaf lib key s :: rest := by
  have htag : (textLeaf lib key t).hasTag key = true := decide_eq_true rfl
  rw [putLeaf, child?_cons_of_tag htag, Option.isSome_some, if_pos rfl, modifyTagged_cons_of_tag htag,
    modifyTagged_nil, modifyNodeValue_textLeaf hs]

theorem putLeaf_cons_of_not (h : child.hasTag key = false) :
    putLeaf lib key s (child :: rest) = child :: putLeaf lib key s rest := by
  rw [putLeaf, putLeaf, child?_cons_of_not h, modifyTagged_cons_of_not h]
  split_ifs
  · rfl
  · exact List.cons_append

theorem modifyUint32Value_cons_self (hlib : lib.KeepsNumbers) (old new : BitVec 32) :
    modifyUint32Value lib key old new (numberLeaf lib key n :: rest)
      = numberLeaf lib key (changed old new n) :: rest := by
  rw [modifyUint32Value, changed, numberLeaf]
  split_ifs
  · rfl
  · exact putLeaf_cons_self (hlib new)

theorem modifyUint32Value_cons_of_not (h : child.hasTag key = false) (old new : BitVec 32) :
    modifyUint32Value lib key old new (child :: rest)
      = child :: modifyUint32Value lib key old new rest := by
  rw [modifyUint32Value, modifyUint32Value]
  split_ifs
  · rfl
  · exact putLeaf_cons_of_not h

theorem modifyInt8Value_cons_self {new : Text} (hnew : lib.Keeps new) (old : Text) :
    modifyInt8Value lib key old new (textLeaf lib key s :: rest)
      = textLeaf lib key (changed old new s) :: rest := by
  rw [modifyInt8Value, changed]
  split_ifs
  · rfl
  · exact putLeaf_cons_self hnew

theorem modifyInt8Value_cons_of_not (h : child.hasTag key = false) (old new : Text) :
    modifyInt8Value lib key old new (child :: rest) = child :: modifyInt8Value lib key old new rest := by
  rw [modifyInt8Value, modifyInt8Value]
  split_ifs
  · rfl
  · exact putLeaf_cons_of_not h

end

/-! ### A change of what has been written down -/

/-- `audio_info` in the file after a change. -/
def AudioInfo.changed (old new inFile : AudioInfo) : AudioInfo where
  inputMode := Params.changed old.inputMode new.inputMode inFile.inputMode
  sampleRate := Params.changed old.sampleRate new.sampleRate inFile.sampleRate
  bitrate := Params.changed old.bitrate new.bitrate inFile.bitrate
  lvolume := Params.changed old.lvolume new.lvolume inFile.lvolume
  rvolume := Params.changed old.rvolume new.rvolume inFile.rvolume
  inputIndex := Params.changed old.inputIndex new.inputIndex inFile.inputIndex

/-- `quality_info` in the file after a change. -/
def QualityInfo.changed (old new inFile : QualityInfo) : QualityInfo where
  enable := Params.changed old.enable new.enable inFile.enable
  rateType := Params.changed old.rateType new.rateType inFile.rateType
  encBitrate := Params.changed old.encBitrate new.encBitrate inFile.encBitrate
  encWidth := Params.changed old.encWidth new.encWidth inFile.encWidth
  encHeight := Params.changed old.encHeight new.encHeight inFile.encHeight
  encFrameRate := Params.changed old.encFrameRate new.encFrameRate inFile.encFrameRate

/-- `enc_info` in the file after a change. -/
def EncInfo.changed (old new inFile : EncInfo) : EncInfo :=
  { inFile with
    id := Params.changed old.id new.id inFile.id
    encIP := Params.changed old.encIP new.encIP inFile.encIP
    hdQuaInfo := old.hdQuaInfo.changed new.hdQuaInfo inFile.hdQuaInfo }

/-- `room_info` in the file after a change. -/
def RoomInfo.changed (old new inFile : RoomInfo) : RoomInfo where
  roomID := Params.changed old.roomID new.roomID inFile.roomID
  roomName := Params.changed old.roomName new.roomName inFile.roomName
  connStatus := Params.changed old.connStatus new.connStatus inFile.connStatus
  recordMaxTime := Params.changed old.recordMaxTime new.recordMaxTime inFile.recordMaxTime
  recStatus := Params.changed old.recStatus new.recStatus inFile.recStatus
  ifMark := Params.changed old.ifMark new.ifMark inFile.ifMark
  recName := Params.changed old.recName new.recName inFile.recName
  mode := Params.changed old.mode new.mode inFile.mode
  audioInfo := old.audioInfo.changed new.audioInfo inFile.audioInfo
  encInfo := fun index => (old.encInfo index).changed (new.encInfo index) (inFile.encInfo index)

/-- The texts of a room are texts that libxml2 keeps. -/
structure Libxml.KeepsTexts (lib : Libxml) (info : RoomInfo) : Prop where
  roomName : lib.Keeps info.roomName
  recName : lib.Keeps info.recName
  inputIndex : lib.Keeps info.audioInfo.inputIndex
  encIP : ∀ index, lib.Keeps (info.encInfo index).encIP

section

variable {lib : Libxml}

theorem modifyAudioInfo_add (hlib : lib.KeepsNumbers) {old new : AudioInfo}
    (hnew : lib.Keeps new.inputIndex) (inFile : AudioInfo) :
    modifyAudioInfo lib old new (addAudioInfo lib inFile)
      = addAudioInfo lib (old.changed new inFile) := by
  simp [modifyAudioInfo, addAudioInfo, AudioInfo.changed, modifyUint32Value_cons_self hlib,
    modifyUint32Value_cons_of_not, modifyInt8Value_cons_self hnew, modifyInt8Value_cons_of_not]

theorem modifyQualityInfo_add (hlib : lib.KeepsNumbers) (old new inFile : QualityInfo) :
    modifyQualityInfo lib old new (addQualityInfo lib inFile)
      = addQualityInfo lib (old.changed new inFile) := by
  simp [modifyQualityInfo, addQualityInfo, QualityInfo.changed, modifyUint32Value_cons_self hlib,
    modifyUint32Value_cons_of_not]

/-- Only the first quality is changed. -/
theorem modifyEncInfo_add (hlib : lib.KeepsNumbers) {old new : EncInfo} (hnew : lib.Keeps new.encIP)
    (inFile : EncInfo) :
    modifyEncInfo lib old new (addEncInfo lib inFile) = addEncInfo lib (old.changed new inFile) := by
  simp [modifyEncInfo, addEncInfo, EncInfo.changed, modifyUint32Value_cons_self hlib,
    modifyInt8Value_cons_self hnew, modifyInt8Value_cons_of_not, modifyTagged_cons_of_tag,
    modifyTagged_cons_of_not, Node.mapChildren, modifyQualityInfo_add hlib]

/-- A change of a room that has been written down gives what is written for the changed room. -/
theorem modifyRoomInfo_add (hlib : lib.KeepsNumbers) {old new : RoomInfo} (hnew : lib.KeepsTexts new)
    (inFile : RoomInfo) :
    modifyRoomInfo lib old new (addRoomInfo lib inFile) = addRoomInfo lib (old.changed new inFile) := by
  have henc : modifyTagged "enc_info" (List.ofFn fun index node =>
        node.mapChildren (modifyEncInfo lib (old.encInfo index) (new.encInfo index)))
        (List.ofFn fun index => encNode lib (inFile.encInfo index))
      = List.ofFn fun index =>
        encNode lib ((old.encInfo index).changed (new.encInfo index) (inFile.encInfo index)) := by
    have htag (index : Fin recordRoomMaxEncNum) :
        (encNode lib (inFile.encInfo index)).hasTag "enc_info" = true := rfl
    rw [modifyTagged_ofFn htag]
    refine congrArg List.ofFn (funext fun index => ?_)
    exact congrArg (Node.element "enc_info") (modifyEncInfo_add hlib (hnew.encIP index) _)
  have haudio : (Node.element "audio_info" (addAudioInfo lib inFile.audioInfo)).mapChildren
        (modifyAudioInfo lib old.audioInfo new.audioInfo)
      = .element "audio_info" (addAudioInfo lib (old.audioInfo.changed new.audioInfo inFile.audioInfo)) :=
    congrArg (Node.element "audio_info") (modifyAudioInfo_add hlib hnew.inputIndex _)
  rw [modifyRoomInfo, addRoomInfo, addRoomInfo, RoomInfo.changed]
  simp only [List.cons_append, List.nil_append, modifyUint32Value_cons_self hlib,
    modifyUint32Value_cons_of_not, modifyInt8Value_cons_self hnew.roomName,
    modifyInt8Value_cons_self hnew.recName, modifyInt8Value_cons_of_not, modifyTagged_cons_of_tag,
    modifyTagged_cons_of_not, modifyTagged_nil, hasTag_numberLeaf, hasTag_textLeaf, hasTag_element,
    String.reduceEq, decide_false, decide_true, haudio, henc]

theorem modifyRoomName_add {old new : RoomInfo} (hnew : lib.Keeps new.roomName) (inFile : RoomInfo) :
    modifyRoomName lib old new (addRoomInfo lib inFile)
      = addRoomInfo lib
        { inFile with roomName := changed old.roomName new.roomName inFile.roomName } := by
  rw [modifyRoomName, addRoomInfo, List.cons_append, List.cons_append, modifyInt8Value_cons_of_not rfl,
    modifyInt8Value_cons_self hnew]
  rfl

end

/-! ### Reading what has been written down -/

/-- A room that the file can hold: its texts are kept and have room in the buffers they are read into,
and the first quality of an encoder is a high one. -/
structure RoomInfo.Fits (lib : Libxml) (info : RoomInfo) : Prop extends lib.KeepsTexts info where
  roomName_length : info.roomName.length < xmlValueMaxLength
  recName_length : info.recName.length < xmlValueMaxLength
  inputIndex_length : info.audioInfo.inputIndex.length ≤ 4
  encIP_length : ∀ index, (info.encInfo index).encIP.length < ipinfoMaxLength
  hdRateType : ∀ index, (info.encInfo index).hdQuaInfo.rateType = 0

section

variable {lib : Libxml}

theorem readAudioInfo_add (hlib : lib.KeepsNumbers) {info : AudioInfo} (hkeeps : lib.Keeps info.inputIndex)
    (hlen : info.inputIndex.length ≤ 4) (old : AudioInfo) :
    readAudioInfo (addAudioInfo lib info) old = info := by
  have hvalue : value (textLeaf lib "InputIndex" info.inputIndex) = info.inputIndex :=
    value_textLeaf hkeeps (hlen.trans_lt (by decide))
  simp [readAudioInfo, addAudioInfo, readUint32_cons_self hlib, readUint32_cons_of_not,
    child?_cons_of_tag, child?_cons_of_not, hvalue, List.take_of_length_le hlen]

theorem readQualityInfo_add (hlib : lib.KeepsNumbers) (info old : QualityInfo) :
    readQualityInfo (addQualityInfo lib info) old = info := by
  simp [readQualityInfo, addQualityInfo, readUint32_cons_self hlib, readUint32_cons_of_not]

theorem readQuality_add (hlib : lib.KeepsNumbers) (quality : QualityInfo) (info : EncInfo) :
    readQuality (some (.element "quality_info" (addQualityInfo lib quality))) info
      = if quality.rateType = 0 then { info with hdQuaInfo := quality }
        else { info with sdQuaInfo := quality } := by
  have hrate : (child? "RateType" (addQualityInfo lib quality)).map value
      = some (value (numberLeaf lib "RateType" quality.rateType)) := by
    simp [addQualityInfo, child?_cons_of_tag, child?_cons_of_not]
  rw [readQuality]
  simp only [Node.children, hrate, Option.getD_some, atoiU_value_numberLeaf hlib,
    readQualityInfo_add hlib]

/-- An encoder comes back where the rate types tell its two qualities apart. -/
theorem readEncInfo_add (hlib : lib.KeepsNumbers) {info : EncInfo} (hkeeps : lib.Keeps info.encIP)
    (hlen : info.encIP.length < ipinfoMaxLength) (hhd : info.hdQuaInfo.rateType = 0)
    (hsd : info.sdQuaInfo.rateType ≠ 0) (old : EncInfo) :
    readEncInfo (some (encNode lib info)) old = info := by
  have hvalue : value (textLeaf lib "EncIP" info.encIP) = info.encIP :=
    value_textLeaf hkeeps (hlen.trans (by decide))
  have hqualities : tagged "quality_info" (addEncInfo lib info)
      = [.element "quality_info" (addQualityInfo lib info.hdQuaInfo),
        .element "quality_info" (addQualityInfo lib info.sdQuaInfo)] := by
    simp [addEncInfo, tagged]
  have hid : readUint32 "ID" (addEncInfo lib info) old.id = info.id := readUint32_cons_self hlib _
  have hip : child? "EncIP" (addEncInfo lib info) = some (textLeaf lib "EncIP" info.encIP) := by
    simp [addEncInfo, child?_cons_of_tag, child?_cons_of_not]
  have hstatus : readUint32 "Status" (addEncInfo lib info) old.status = info.status := by
    simp [addEncInfo, readUint32_cons_self hlib, readUint32_cons_of_not]
  rw [readEncInfo]
  simp only [encNode, Node.children, hqualities, List.getElem?_cons_zero, List.getElem?_cons_succ,
    readQuality_add hlib, if_pos hhd, if_neg hsd, hid, hip, hstatus, Option.elim_some, hvalue,
    List.take_of_length_le hlen.le]

/-- A room comes back, into a memory whose record name is empty. -/
theorem readRoomInfo_add (hlib : lib.KeepsNumbers) {info old : RoomInfo} (hinfo : info.Fits lib)
    (hsd : ∀ index, (info.encInfo index).sdQuaInfo.rateType ≠ 0) (hold : old.recName = []) :
    readRoomInfo (addRoomInfo lib info) old = info := by
  have hencs : tagged "enc_info" (addRoomInfo lib info)
      = List.ofFn fun index => encNode lib (info.encInfo index) := by
    rw [addRoomInfo, tagged_append, tagged_eq_nil, List.nil_append, tagged_of_forall]
    · intro child hmem
      obtain ⟨index, rfl⟩ := (List.mem_ofFn' _ _).mp hmem
      rfl
    · simp
  have henc (index : Fin recordRoomMaxEncNum) :
      readEncInfo (tagged "enc_info" (addRoomInfo lib info))[index.val]? (old.encInfo index)
        = info.encInfo index := by
    rw [hencs, List.getElem?_ofFn, dif_pos index.isLt]
    exact readEncInfo_add hlib (hinfo.encIP index) (hinfo.encIP_length index) (hinfo.hdRateType index)
      (hsd index) _
  rw [readRoomInfo]
  simp only [henc, hold]
  simp [addRoomInfo, readUint32_cons_self hlib, readUint32_cons_of_not, child?_cons_of_tag,
    child?_cons_of_not, value_textLeaf hinfo.roomName hinfo.roomName_length,
    value_textLeaf hinfo.recName hinfo.recName_length, memcpyOver, Node.children,
    readAudioInfo_add hlib hinfo.inputIndex hinfo.inputIndex_length]

end

end Params

end Control

end ReachEdukit
