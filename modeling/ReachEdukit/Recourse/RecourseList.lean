import ReachEdukit.Lib.Scanf
import ReachEdukit.Lib.XmlTree
import Mathlib.Data.List.InsertIdx

/-!
# The list of courses

The courses on the disk are listed in a document, an element `FileInfo` for each below `FileList`, with
their number in `TotalCount` there. The document is built once from the directories. Then a course is
added or deleted by changing the document: the place is found by a search through the tree for the name
of an element, and for a deletion also for its content; what is deleted is the parent of what is found.

## What is left out

That the document is saved and read again is an argument, with the law that nothing is lost. The paths
of the files fit their buffers. What is looked up on the disk and in the settings for a course is an
argument too.

## Main definitions

* `xmlNodeFindKey`, `xmlNodeMod`, `xmlNodeDel` — the steps on the tree
* `initRecourseListXml` — the document as it is built
* `addRecourseListFileinfo`, `delRecourseListFileinfo` — a course is added or deleted
* `Shows` — a document shows these courses

## Main results

* `shows_add`, `shows_del` — what a step does to the courses shown
* `recourseList_consistent` — what a document shows after any steps
-/

namespace ReachEdukit

namespace Recourse

open Scanf (decimal atoi)
open XmlTree (contents findIn)

/-- The names of the elements. -/
inductive Tag where
  | requestMsg
  | msgHead
  | returnCode
  | passKey
  | msgBody
  | loginResp
  | result
  | ftpServer
  | option
  | groupList
  | group
  | fileList
  | fileInfo
  | fileName
  | fileCName
  | duration
  | fileSize
  | rcdTime
  | notes
  | ftpInfo
  | totalPage
  | totalCount
  deriving DecidableEq, Repr

/-- A text. -/
abbrev Text := List Char

/-- A node of the document. -/
abbrev Node := XmlTree.Node Tag Char

/-! ### Steps on the tree -/

/-- What `xmlNewTextChild` adds. -/
def textChild (tag : Tag) (content : Text) : Node := .element tag [.text content]

/-- The comparison of `xml_node_find_key`, of the name and then of the content. -/
def matchesKey (keyname : Tag) (keyvalue : Option Text) (cur : Node) : Bool :=
  cur.hasTag keyname && keyvalue.elim true fun value => cur.content = value

/-- `xml_node_find_key`. -/
def xmlNodeFindKey (cur : Node) (keyname : Tag) (keyvalue : Option Text) : Option (List ℕ) :=
  cur.find (matchesKey keyname keyvalue)

/-- `xmlNodeSetContent`. -/
def setContent (content : Text) (node : Node) : Node := node.mapChildren fun _ => [.text content]

/-- `xml_node_mod`. -/
def xmlNodeMod (root : Node) (keyname : Tag) (addSub : ℤ) : Node :=
  (xmlNodeFindKey root keyname none).elim root fun path =>
    root.modifyAt path fun node => setContent (decimal (atoi node.content + addSub)) node

/-- `xml_node_del`. The root cannot be taken out of its tree. -/
def xmlNodeDel (root : Node) (path : List ℕ) : Option Node :=
  path.getLast?.map fun i => root.modifyAt path.dropLast fun node => node.mapChildren (·.eraseIdx i)

/-! ### Courses -/

/-- What is listed of a course. -/
structure FileInfo where
  fileName : Text
  fileCName : Text
  duration : Text
  fileSize : Text
  rcdTime : Text
  group : Text
  notes : Text
  ftpInfo : Text
  deriving DecidableEq, Repr

/-- What is listed of a course with this name. -/
def newFileInfo (name fileSize rcdTime ftpInfo : Text) : FileInfo :=
  ⟨name, name, ['0', '0'], fileSize, rcdTime, "null".toList, "null".toList, ftpInfo⟩

/-- The element of a course. -/
def FileInfo.node (info : FileInfo) : Node :=
  .element .fileInfo [textChild .fileName info.fileName, textChild .fileCName info.fileCName,
    textChild .duration info.duration, textChild .fileSize info.fileSize,
    textChild .rcdTime info.rcdTime, textChild .group info.group, textChild .notes info.notes,
    textChild .ftpInfo info.ftpInfo]

/-- A directory, with what is found out about it. -/
structure DirEntry where
  dName : Text
  isDir : Bool
  /-- What `rec_dir_check` finds, if it does not fail. -/
  rcdTime : Option Text
  fileSize : Text
  ftpInfo : Text
  deriving DecidableEq, Repr

/-- What is listed of a directory. -/
def DirEntry.info (entry : DirEntry) : Option FileInfo :=
  if entry.dName.head? ≠ some '.' ∧ entry.isDir then
    entry.rcdTime.map fun rcdTime => newFileInfo entry.dName entry.fileSize rcdTime entry.ftpInfo
  else none

/-- `xml_init`, with what it leaves in `son3`, the element `FileList`, to be filled. -/
def xmlInit (ftpInfo : Text) (son3 : Node) : Node :=
  .element .requestMsg [
    .element .msgHead [textChild .returnCode ['0'], textChild .passKey ['1']],
    .element .msgBody [
      .element .loginResp [textChild .result ['0'], textChild .ftpServer ftpInfo,
        textChild .option ['0'], .element .groupList [textChild .group ['1']], son3]]]

/-- `rec_dir_ergodic2`, for a directory that can be opened. -/
def recDirErgodic2 (son3 : Node) (entries : List DirEntry) : Node :=
  let infos := entries.filterMap DirEntry.info
  son3.mapChildren fun children => children ++ infos.map FileInfo.node ++
    [textChild .totalPage ['1'], textChild .totalCount (decimal infos.length)]

/-- `init_recourse_list_xml`. -/
def initRecourseListXml (ftpInfo : Text) (entries : List DirEntry) : Node :=
  xmlInit ftpInfo (recDirErgodic2 (.element .fileList []) entries)

/-- The document after `add_recourse_list_fileinfo`. -/
def addFileinfo (info : FileInfo) (root : Node) : Node :=
  let root := (xmlNodeFindKey root .fileList none).elim root fun path =>
    root.modifyAt path fun node => node.mapChildren (· ++ [info.node])
  xmlNodeMod root .totalCount 1

/-- The document after `del_recourse_list_fileinfo`, and what it returns. -/
def delFileinfo (name : Text) (root : Node) : Option (Node × ℤ) :=
  (xmlNodeFindKey root .fileName (some name)).elim (some (root, -1)) fun path =>
    (xmlNodeDel root path.dropLast).map fun root => (xmlNodeMod root .totalCount (-1), 0)

/-! ### The file -/

/-- What is relied on: a document that was saved is read as it was. -/
structure XmlFile (File : Type) where
  save : Node → File
  read : File → Option Node
  read_save : ∀ root, read (save root) = some root

instance : Inhabited (XmlFile Node) := ⟨⟨id, some, fun _ => rfl⟩⟩

/-- A call, with what is looked up for a course. -/
inductive Call where
  | add (name fileSize rcdTime ftpInfo : Text)
  | del (name : Text)
  deriving DecidableEq, Repr

variable {File : Type} (xml : XmlFile File)

/-- `add_recourse_list_fileinfo`. -/
def addRecourseListFileinfo (file : File) (info : FileInfo) : File × ℤ :=
  (xml.read file).elim (file, -1) fun root => (xml.save (addFileinfo info root), 0)

/-- `del_recourse_list_fileinfo`. -/
def delRecourseListFileinfo (file : File) (name : Text) : Option (File × ℤ) :=
  (xml.read file).elim (some (file, -1)) fun root =>
    (delFileinfo name root).map fun r => (xml.save r.1, r.2)

/-- One call, and what it returns. -/
def call (file : File) : Call → Option (File × ℤ)
  | .add name fileSize rcdTime ftpInfo =>
    some (addRecourseListFileinfo xml file (newFileInfo name fileSize rcdTime ftpInfo))
  | .del name => delRecourseListFileinfo xml file name

/-- The file after several calls. -/
def run (file : File) (calls : List Call) : Option File :=
  calls.foldlM (fun file c => (call xml file c).map Prod.fst) file

/-! ### What is asked -/

/-- The children of `FileList`. -/
def fileList (root : Node) : List Node :=
  (((root.children.find? (·.hasTag .msgBody)).bind fun body =>
    body.children.find? (·.hasTag .loginResp)).bind fun resp =>
      resp.children.find? (·.hasTag .fileList)).elim [] XmlTree.Node.children

/-- The elements `FileInfo` of `FileList`. -/
def fileInfos (root : Node) : List Node := (fileList root).filter (·.hasTag .fileInfo)

/-- The content of `TotalCount`. -/
def totalCount (root : Node) : Option Text :=
  ((fileList root).find? (·.hasTag .totalCount)).map XmlTree.Node.content

/-- The content of `FileName`. -/
def fileNameOf (node : Node) : Option Text :=
  (node.children.find? (·.hasTag .fileName)).map XmlTree.Node.content

/-- The names after a call: one is appended, or the first equal one is removed. -/
def namesStep (names : List Text) : Call → List Text
  | .add name _ _ _ => names ++ [name]
  | .del name => names.erase name

/-- The names in the directories, in their order. -/
def namesInit (entries : List DirEntry) : List Text :=
  (entries.filterMap DirEntry.info).map FileInfo.fileName

/-- What a call does to the file, whose document is `root`: an element is appended, or the first one with
the name is removed; and a deletion returns -1 and changes nothing just when there is none. -/
def Does (file : File) (root : Node) : Call → Prop
  | .add name fileSize rcdTime ftpInfo => ∃ file' root',
      call xml file (.add name fileSize rcdTime ftpInfo) = some (file', 0) ∧
        xml.read file' = some root' ∧
        fileInfos root' = fileInfos root ++ [(newFileInfo name fileSize rcdTime ftpInfo).node]
  | .del name => ∃ file' root' ret, call xml file (.del name) = some (file', ret) ∧
      xml.read file' = some root' ∧
      fileInfos root' = (fileInfos root).eraseP (fileNameOf · = some name) ∧
      ((ret = -1 ∧ root' = root) ↔ ∀ node ∈ fileInfos root, fileNameOf node ≠ some name)

/-! ### The document -/

/-- The children of `FileList`, some courses in front of the two totals and some behind. -/
def items (before after : List FileInfo) (count : ℤ) : List Node :=
  before.map FileInfo.node ++ textChild .totalPage ['1'] :: textChild .totalCount (decimal count) ::
    after.map FileInfo.node

/-- The document with these children of `FileList`. -/
def listDoc (ftpServer : Text) (children : List Node) : Node :=
  xmlInit ftpServer (.element .fileList children)

/-- The document shows the courses, and their number. -/
def Shows (root : Node) (infos : List FileInfo) : Prop :=
  ∃ ftpServer before after, infos = before ++ after ∧
    root = listDoc ftpServer (items before after infos.length)

section Document

variable {ftpServer name : Text} {children : List Node} {before after infos : List FileInfo}
  {count addSub : ℤ} {root : Node}

/-! Where the searches end. -/

theorem findKey_fileList : xmlNodeFindKey (listDoc ftpServer children) .fileList none = some [1, 0, 4] :=
  rfl

theorem findKey_totalCount : xmlNodeFindKey (listDoc ftpServer children) .totalCount none =
    (findIn (matchesKey .totalCount none) 0 children).map fun path => 1 :: 0 :: 4 :: path := by
  cases h : findIn (matchesKey .totalCount none) 0 children <;>
    simp [xmlNodeFindKey, listDoc, xmlInit, XmlTree.Node.find, findIn, matchesKey, XmlTree.Node.hasTag,
      textChild, h]

theorem findKey_fileName : xmlNodeFindKey (listDoc ftpServer children) .fileName (some name) =
    (findIn (matchesKey .fileName (some name)) 0 children).map fun path => 1 :: 0 :: 4 :: path := by
  cases h : findIn (matchesKey .fileName (some name)) 0 children <;>
    simp [xmlNodeFindKey, listDoc, xmlInit, XmlTree.Node.find, findIn, matchesKey, XmlTree.Node.hasTag,
      textChild, h]

/-- The course has this name. -/
def isNamed (name : Text) (info : FileInfo) : Bool := info.fileName = name

theorem find_node_totalCount (info : FileInfo) : info.node.find (matchesKey .totalCount none) = none := by
  simp [FileInfo.node, XmlTree.Node.find, findIn, matchesKey, XmlTree.Node.hasTag, textChild]

theorem find_node_fileName (name : Text) (info : FileInfo) :
    info.node.find (matchesKey .fileName (some name)) =
      if isNamed name info then some [0] else none := by
  by_cases h : info.fileName = name <;>
    simp [FileInfo.node, XmlTree.Node.find, findIn, matchesKey, XmlTree.Node.hasTag, textChild, isNamed,
      XmlTree.Node.content, contents, h]

/-- `TotalCount` stands behind `TotalPage`. -/
theorem findIn_totalCount :
    findIn (matchesKey .totalCount none) 0 (items before after count) = some [before.length + 1] := by
  rw [items, XmlTree.findIn_append, XmlTree.findIn_map_none (fun _ _ => rfl)
    (fun info _ => find_node_totalCount info), Option.none_or,
    XmlTree.findIn_cons_of_none rfl rfl, List.length_map, Nat.zero_add]
  rfl

/-- The first course with the name, in front of the totals or behind. -/
theorem findIn_fileName (before after : List FileInfo) (count : ℤ) (name : Text) :
    findIn (matchesKey .fileName (some name)) 0 (items before after count) =
      ((before.findIdx? (isNamed name)).map fun j => [j, 0]).or
        ((after.findIdx? (isNamed name)).map fun j => [before.length + 2 + j, 0]) := by
  rw [items, XmlTree.findIn_append, XmlTree.findIn_map (fun _ _ => rfl)
    (fun info _ => find_node_fileName name info), XmlTree.findIn_cons_of_none rfl rfl,
    XmlTree.findIn_cons_of_none rfl rfl, XmlTree.findIn_map (fun _ _ => rfl)
    (fun info _ => find_node_fileName name info), List.length_map]
  simp only [Nat.zero_add]

/-! What the changes make. -/

theorem xmlNodeMod_totalCount (addSub : ℤ) :
    xmlNodeMod (listDoc ftpServer (items before after count)) .totalCount addSub =
      listDoc ftpServer (items before after (count + addSub)) := by
  rw [xmlNodeMod, findKey_totalCount, findIn_totalCount, Option.map_some, Option.elim_some]
  change listDoc ftpServer ((items before after count).modify (before.length + 1) fun node =>
    setContent (decimal (atoi node.content + addSub)) node) = _
  have hsplit : ∀ n : ℤ, items before after n =
      (before.map FileInfo.node ++ [textChild .totalPage ['1']]) ++
        textChild .totalCount (decimal n) :: after.map FileInfo.node := by
    intro n
    rw [items, List.append_assoc]
    rfl
  have hcontent : (textChild .totalCount (decimal count)).content = decimal count := by
    rw [textChild, XmlTree.Node.content, contents, XmlTree.Node.content, contents, List.append_nil]
  rw [hsplit, XmlTree.modify_append_cons (by simp), hcontent, Scanf.atoi_decimal, hsplit]
  rfl

/-- A course is appended behind all others. -/
theorem shows_add (h : Shows root infos) (info : FileInfo) :
    Shows (addFileinfo info root) (infos ++ [info]) := by
  obtain ⟨ftpServer, before, after, rfl, rfl⟩ := h
  refine ⟨ftpServer, before, after ++ [info], (List.append_assoc ..), ?_⟩
  have happend : items before after ((before ++ after).length : ℕ) ++ [info.node] =
      items before (after ++ [info]) ((before ++ after).length : ℕ) := by
    rw [items, items, List.map_append, List.append_assoc]
    rfl
  rw [addFileinfo, findKey_fileList, Option.elim_some]
  change xmlNodeMod (listDoc ftpServer (items before after _ ++ [info.node])) .totalCount 1 = _
  rw [happend, xmlNodeMod_totalCount, @List.length_append _ (before ++ after) [info]]
  rfl

/-- The `i`-th child of `FileList` is taken out. -/
theorem xmlNodeDel_item (i : ℕ) :
    xmlNodeDel (listDoc ftpServer children) [1, 0, 4, i] =
      some (listDoc ftpServer (children.eraseIdx i)) := rfl

/-- What a deletion does when the search ends in the `i`-th child of `FileList`. -/
theorem delFileinfo_of_findIn {i : ℕ}
    (hfind : findIn (matchesKey .fileName (some name)) 0 children = some [i, 0])
    (herase : children.eraseIdx i = items before after count) :
    delFileinfo name (listDoc ftpServer children) =
      some (listDoc ftpServer (items before after (count - 1)), 0) := by
  rw [delFileinfo, findKey_fileName, hfind, Option.map_some, Option.elim_some]
  change (xmlNodeDel (listDoc ftpServer children) [1, 0, 4, i]).map _ = _
  rw [xmlNodeDel_item, Option.map_some, herase, xmlNodeMod_totalCount]
  rfl

theorem eraseP_of_findIdx {l : List FileInfo} {q : FileInfo → Bool} {i : ℕ}
    (h : l.findIdx? q = some i) : l.eraseP q = l.eraseIdx i ∧ i < l.length ∧ l.any q = true := by
  obtain ⟨hi, hq, -⟩ := List.findIdx?_eq_some_iff_getElem.mp h
  exact ⟨by rw [List.eraseP_eq_eraseIdx, h], hi, List.any_eq_true.mpr ⟨_, List.getElem_mem hi, hq⟩⟩

theorem not_any_of_findIdx {l : List FileInfo} {q : FileInfo → Bool} (h : l.findIdx? q = none) :
    ¬ l.any q = true := by
  rw [List.any_eq_true]
  rintro ⟨info, hinfo, hq⟩
  rw [List.findIdx?_eq_none_iff.mp h info hinfo] at hq
  exact Bool.false_ne_true hq

/-- **A deletion.** The first course with the name is taken out, and -1 says that there is none. -/
theorem shows_del (h : Shows root infos) (name : Text) :
    ∃ root' ret, delFileinfo name root = some (root', ret) ∧
      Shows root' (infos.eraseP (isNamed name)) ∧
      if infos.any (isNamed name) then ret = 0 else ret = -1 ∧ root' = root := by
  obtain ⟨ftpServer, before, after, rfl, rfl⟩ := h
  have hfind := findIn_fileName before after ((before ++ after).length : ℕ) name
  have hlength : ∀ infos : List FileInfo, infos.any (isNamed name) = true →
      ((infos.eraseP (isNamed name)).length : ℤ) = infos.length - 1 := by
    intro infos hany
    obtain ⟨info, hinfo, hname⟩ := List.any_eq_true.mp hany
    have hpos := List.length_pos_of_mem hinfo
    rw [List.length_eraseP_of_mem hinfo hname]
    omega
  cases hbefore : before.findIdx? (isNamed name) with
  | some i =>
    -- it stands in front of the totals
    obtain ⟨herase, hi, hany⟩ := eraseP_of_findIdx hbefore
    have hall : (before ++ after).any (isNamed name) = true := by
      rw [List.any_append, hany, Bool.true_or]
    have hitems : (items before after ((before ++ after).length : ℕ)).eraseIdx i =
        items (before.eraseIdx i) after ((before ++ after).length : ℕ) := by
      rw [items, List.eraseIdx_append_of_lt_length (by rwa [List.length_map]), List.eraseIdx_map]
      rfl
    rw [hbefore, Option.map_some, Option.some_or] at hfind
    have hlist : (before ++ after).eraseP (isNamed name) = before.eraseIdx i ++ after := by
      rw [List.eraseP_append, if_pos hany, herase]
    refine ⟨_, _, delFileinfo_of_findIn hfind hitems, ⟨ftpServer, _, _, hlist, ?_⟩, ?_⟩
    · rw [hlength _ hall]
    · rw [if_pos hall]
  | none =>
    have hnone := not_any_of_findIdx hbefore
    rw [hbefore, Option.map_none, Option.none_or] at hfind
    have hlist : (before ++ after).eraseP (isNamed name) =
        before ++ after.eraseP (isNamed name) := by
      rw [List.eraseP_append, if_neg hnone]
    cases hafter : after.findIdx? (isNamed name) with
    | some i =>
      -- or behind them
      obtain ⟨herase, hi, hany⟩ := eraseP_of_findIdx hafter
      have hall : (before ++ after).any (isNamed name) = true := by
        rw [List.any_append, hany, Bool.or_true]
      have hitems : (items before after ((before ++ after).length : ℕ)).eraseIdx (before.length + 2 + i) =
          items before (after.eraseIdx i) ((before ++ after).length : ℕ) := by
        have hplace : before.length + 2 + i - (before.map FileInfo.node).length = i + 1 + 1 := by
          rw [List.length_map]
          omega
        rw [items, List.eraseIdx_append_of_length_le (by rw [List.length_map]; omega), hplace,
          List.eraseIdx_cons_succ, List.eraseIdx_cons_succ, List.eraseIdx_map]
        rfl
      rw [hafter, Option.map_some] at hfind
      refine ⟨_, _, delFileinfo_of_findIn hfind hitems, ⟨ftpServer, _, _, hlist.trans (by rw [herase]), ?_⟩,
        ?_⟩
      · rw [hlength _ hall]
      · rw [if_pos hall]
    | none =>
      have hall : ¬ (before ++ after).any (isNamed name) = true := by
        rw [List.any_append, Bool.or_eq_true, not_or]
        exact ⟨hnone, not_any_of_findIdx hafter⟩
      have hsame : (before ++ after).eraseP (isNamed name) = before ++ after :=
        List.eraseP_of_forall_not fun info hinfo hname => hall (List.any_eq_true.mpr ⟨info, hinfo, hname⟩)
      rw [hafter, Option.map_none] at hfind
      refine ⟨_, -1, ?_, ⟨ftpServer, before, after, hsame, by rw [hsame]⟩, ?_⟩
      · rw [delFileinfo, findKey_fileName, hfind, Option.map_none, Option.elim_none]
      · rw [if_neg hall]
        exact ⟨rfl, rfl⟩

/-! What is seen of the courses. -/

theorem fileNameOf_node (info : FileInfo) : fileNameOf info.node = some info.fileName :=
  congrArg some (List.append_nil _)

theorem fileInfos_of_shows (h : Shows root infos) : fileInfos root = infos.map FileInfo.node := by
  obtain ⟨ftpServer, before, after, rfl, rfl⟩ := h
  have hall : ∀ l : List FileInfo, (l.map FileInfo.node).filter (·.hasTag .fileInfo) =
      l.map FileInfo.node := by
    intro l
    rw [List.filter_eq_self]
    intro node hnode
    obtain ⟨info, -, rfl⟩ := List.mem_map.mp hnode
    rfl
  change (items before after _).filter (·.hasTag .fileInfo) = _
  rw [items, List.filter_append, hall, List.map_append]
  exact congrArg _ (hall after)

theorem totalCount_of_shows (h : Shows root infos) :
    totalCount root = some (decimal (fileInfos root).length) := by
  rw [fileInfos_of_shows h, List.length_map]
  obtain ⟨ftpServer, before, after, rfl, rfl⟩ := h
  have hnone : (before.map FileInfo.node).find? (·.hasTag .totalCount) = none := by
    rw [List.find?_eq_none]
    intro node hnode
    obtain ⟨info, -, rfl⟩ := List.mem_map.mp hnode
    exact Bool.false_ne_true
  change ((items before after _).find? (·.hasTag .totalCount)).map XmlTree.Node.content = _
  rw [items, List.find?_append, hnone, Option.none_or]
  exact congrArg some (List.append_nil _)

/-- The document as it is built shows the courses in the directories. -/
theorem shows_init (ftpServer : Text) (entries : List DirEntry) :
    Shows (initRecourseListXml ftpServer entries) (entries.filterMap DirEntry.info) := by
  refine ⟨ftpServer, entries.filterMap DirEntry.info, [], (List.append_nil _).symm, ?_⟩
  rw [items, List.map_nil]
  rfl

end Document

/-! ### The calls -/

section Calls

variable {xml} {file : File} {root : Node} {infos : List FileInfo}

/-- **A call does what it should** to a document that shows courses. -/
theorem does_of_shows (hread : xml.read file = some root) (h : Shows root infos) (c : Call) :
    Does xml file root c := by
  cases c with
  | add name fileSize rcdTime ftpInfo =>
    refine ⟨_, addFileinfo (newFileInfo name fileSize rcdTime ftpInfo) root, ?_, xml.read_save _, ?_⟩
    · rw [call, addRecourseListFileinfo, hread, Option.elim_some]
    · rw [fileInfos_of_shows (shows_add h _), fileInfos_of_shows h, List.map_append]
      rfl
  | del name =>
    obtain ⟨root', ret, hdel, hshows, hret⟩ := shows_del h name
    refine ⟨xml.save root', root', ret, ?_, xml.read_save _, ?_, ?_⟩
    · rw [call, delRecourseListFileinfo, hread, Option.elim_some, hdel, Option.map_some]
    · rw [fileInfos_of_shows hshows, fileInfos_of_shows h, List.eraseP_map]
      congr 2
      funext info
      rw [Function.comp_apply, fileNameOf_node, isNamed]
      exact decide_eq_decide.mpr Option.some_inj.symm
    · have hnodes : (∀ node ∈ fileInfos root, fileNameOf node ≠ some name) ↔
          ¬ infos.any (isNamed name) = true := by
        rw [fileInfos_of_shows h, List.forall_mem_map, List.any_eq_true]
        push Not
        refine forall₂_congr fun info _ => ?_
        rw [fileNameOf_node, isNamed, Ne, Option.some_inj, Ne, decide_eq_true_iff]
      rw [hnodes]
      split_ifs at hret with hany
      · rw [hret]
        exact ⟨fun hfound => absurd hfound.1 (by decide), fun hnone => absurd hany hnone⟩
      · exact ⟨fun _ => hany, fun _ => hret⟩

/-- One call keeps the document in order, and changes the names as it should. -/
theorem shows_call (hread : xml.read file = some root) (h : Shows root infos) (c : Call) :
    ∃ file' ret root' infos', call xml file c = some (file', ret) ∧ xml.read file' = some root' ∧
      Shows root' infos' ∧ infos'.map FileInfo.fileName = namesStep (infos.map FileInfo.fileName) c := by
  cases c with
  | add name fileSize rcdTime ftpInfo =>
    refine ⟨_, 0, _, _, ?_, xml.read_save _, shows_add h (newFileInfo name fileSize rcdTime ftpInfo), ?_⟩
    · rw [call, addRecourseListFileinfo, hread, Option.elim_some]
    · rw [List.map_append]
      rfl
  | del name =>
    obtain ⟨root', ret, hdel, hshows, -⟩ := shows_del h name
    refine ⟨xml.save root', ret, root', _, ?_, xml.read_save _, hshows, ?_⟩
    · rw [call, delRecourseListFileinfo, hread, Option.elim_some, hdel, Option.map_some]
    · rw [namesStep, List.erase_eq_eraseP, List.eraseP_map]
      congr 2
      funext info
      rw [Function.comp_apply, isNamed, beq_eq_decide]
      exact decide_eq_decide.mpr eq_comm

theorem shows_run (calls : List Call) (hread : xml.read file = some root) (h : Shows root infos) :
    ∃ file' root' infos', run xml file calls = some file' ∧ xml.read file' = some root' ∧
      Shows root' infos' ∧
      infos'.map FileInfo.fileName = calls.foldl namesStep (infos.map FileInfo.fileName) := by
  induction calls generalizing file root infos with
  | nil => exact ⟨file, root, infos, rfl, hread, h, rfl⟩
  | cons c calls ih =>
    obtain ⟨file₁, ret, root₁, infos₁, hcall, hread₁, hshows₁, hnames₁⟩ := shows_call hread h c
    obtain ⟨file', root', infos', hrun, hread', hshows', hnames'⟩ := ih hread₁ hshows₁
    refine ⟨file', root', infos', ?_, hread', hshows', ?_⟩
    · rw [run, List.foldlM_cons, hcall]
      exact hrun
    · rw [hnames', hnames₁, List.foldl_cons]

end Calls

/-- **The list of courses**, after any additions and deletions: the number is right, the names are those
that were added and not deleted, in order, and the next call does what it should. -/
theorem recourseList_consistent (xml : XmlFile File) (ftpServer : Text) (entries : List DirEntry)
    (calls : List Call) :
    ∃ file root, run xml (xml.save (initRecourseListXml ftpServer entries)) calls = some file ∧
      xml.read file = some root ∧
      totalCount root = some (decimal (fileInfos root).length) ∧
      (fileInfos root).map fileNameOf = (calls.foldl namesStep (namesInit entries)).map some ∧
      ∀ c, Does xml file root c := by
  obtain ⟨file, root, infos, hrun, hread, hshows, hnames⟩ :=
    shows_run calls (xml.read_save _) (shows_init ftpServer entries)
  refine ⟨file, root, hrun, hread, totalCount_of_shows hshows, ?_, does_of_shows hread hshows⟩
  rw [namesInit, ← hnames, fileInfos_of_shows hshows, List.map_map, List.map_map]
  exact List.map_congr_left fun info _ => fileNameOf_node info

end Recourse

end ReachEdukit
