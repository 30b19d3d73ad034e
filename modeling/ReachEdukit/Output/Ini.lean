import ReachEdukit.Lib.Store
import ReachEdukit.Output.Multicast

/-!
# The configuration files of the stream output

The servers keep their configuration in files, which `app_ini_read_int` and its three companions read
and write by the name of a section and of a key. A file is written under another name first, and takes
the place of the old one when every write has succeeded.

The four functions are an argument here, and so is what a file is. What is assumed of them is that a
number, or a text without blanks, is read back after it was written, and that a write leaves the other
keys as they are.

## Main definitions

* `AppIni` — the four functions
* `AppIni.ReadsBack` — what they are assumed to do
* `AppIni.save` — the new file takes the place of the old one
* `iniInMemory` — files that are lists of entries
-/

namespace ReachEdukit

namespace Output

/-- A section and a key. -/
abbrev IniPlace := String × String

/-- A value that is written. -/
inductive IniValue
  | int (value : ℤ)
  | string (value : Text)
  deriving DecidableEq, Repr

/-- A text without blanks; a number is always plain. -/
def IniValue.Plain (v : IniValue) : Prop :=
  match v with
  | .int _ => True
  | .string value => ' ' ∉ value

/-- The functions that read and write files. A function that reads gives `none`, and one that writes
`false`, where the source gives `-1`. -/
structure AppIni (F : Type*) where
  /-- `app_ini_read_int`. -/
  readInt : F → String → String → Option ℤ
  /-- `app_ini_read_string`. -/
  readString : F → String → String → Option Text
  /-- `app_ini_write_int`. -/
  writeInt : F → String → String → ℤ → F × Bool
  /-- `app_ini_write_string`. -/
  writeString : F → String → String → Text → F × Bool
  /-- A file that is not there. -/
  removed : F

variable {F : Type*}

/-- One write. -/
def AppIni.write (ini : AppIni F) (file : F) (place : IniPlace) (v : IniValue) : F × Bool :=
  match v with
  | .int value => ini.writeInt file place.1 place.2 value
  | .string value => ini.writeString file place.1 place.2 value

/-- The value is read. -/
def AppIni.Reads (ini : AppIni F) (file : F) (place : IniPlace) (v : IniValue) : Prop :=
  match v with
  | .int value => ini.readInt file place.1 place.2 = some value
  | .string value => ini.readString file place.1 place.2 = some value

/-- What was written is read back. -/
def AppIni.ReadsBack (ini : AppIni F) : Prop :=
  Store.ReadsBack ini.write IniValue.Plain ini.Reads

/-- The file of a server, and the one that is written first. -/
structure IniFiles (F : Type*) where
  ini : F
  bak : F

/-- The file that was written takes the place of the old one, if every write has succeeded. -/
def AppIni.save (ini : AppIni F) (written : F × Bool) (files : IniFiles F) : IniFiles F × ℤ :=
  if written.2 then (⟨written.1, ini.removed⟩, 0) else (⟨files.ini, written.1⟩, -1)

theorem AppIni.save_eq {ini : AppIni F} {written : F × Bool} {files : IniFiles F}
    (h : (ini.save written files).2 ≠ -1) :
    written.2 = true ∧ (ini.save written files).1.ini = written.1 := by
  by_cases hok : written.2 = true
  · refine ⟨hok, ?_⟩
    rw [AppIni.save, if_pos hok]
  · rw [AppIni.save, if_neg hok] at h
    exact absurd rfl h

/-! ### Files in memory -/

/-- A file that is a list of its entries, the last one first. -/
abbrev IniMemory := List (IniPlace × IniValue)

/-- The last value that was written at a place. -/
def IniMemory.lookup (file : IniMemory) (place : IniPlace) : Option IniValue :=
  (file.find? fun e => e.1 = place).map Prod.snd

/-- Files in memory; they can always be written. -/
def iniInMemory : AppIni IniMemory where
  readInt file table key := (file.lookup (table, key)).bind fun v =>
    match v with
    | .int value => some value
    | .string _ => none
  readString file table key := (file.lookup (table, key)).bind fun v =>
    match v with
    | .int _ => none
    | .string value => some value
  writeInt file table key value := (((table, key), .int value) :: file, true)
  writeString file table key value := (((table, key), .string value) :: file, true)
  removed := []

theorem iniInMemory_reads {file : IniMemory} {place : IniPlace} {v : IniValue} :
    iniInMemory.Reads file place v ↔ file.lookup place = some v := by
  cases v with
  | int value =>
    change Option.bind _ _ = _ ↔ _
    obtain hnone | ⟨w, hw⟩ := Option.eq_none_or_eq_some (file.lookup place)
    · simp [hnone]
    · cases w <;> simp [hw]
  | string value =>
    change Option.bind _ _ = _ ↔ _
    obtain hnone | ⟨w, hw⟩ := Option.eq_none_or_eq_some (file.lookup place)
    · simp [hnone]
    · cases w <;> simp [hw]

theorem iniInMemory_write (file : IniMemory) (place : IniPlace) (v : IniValue) :
    iniInMemory.write file place v = ((place, v) :: file, true) := by
  cases v <;> rfl

theorem iniInMemory_readsBack : iniInMemory.ReadsBack where
  written := by
    intro file place v _ _
    rw [iniInMemory_reads, iniInMemory_write]
    simp [IniMemory.lookup]
  kept := by
    intro file place v place' v' _ hne hread
    rw [iniInMemory_reads] at hread ⊢
    rw [iniInMemory_write, IniMemory.lookup, List.find?_cons_of_neg (by simpa using hne.symm)]
    exact hread

end Output

end ReachEdukit
