import ReachEdukit.Output.Ini

/-!
# The RTSP server after a restart

`app_rtsp_config_fwrite` writes the section of the RTSP server, `app_rtsp_config_fread` reads it. The
reader looks for every key that is written but one, `permissions`. It checks the packet size with
`value > 228 || value < 1500`, which is true of every number; so the default for a size that is out of
range is never taken.

## Main definitions

* `RtspHandle` — the part of the handle that is kept in the file
* `appRtspConfigFwrite`, `appRtspConfigFread` — the writer and the reader

## Main results

* `appRtspConfigFread_of_reads` — a section that was written is read
* `rtspConfig_kept_iff` — when the configuration comes back, and when the packet size is checked
-/

namespace ReachEdukit

namespace Output

variable {F : Type*} {ini : AppIni F} {file : F}

/-- `NOTUSED`. -/
def notUsed : ℤ := 0

/-- `TYPE_RTSP`. -/
def typeRtsp : ℤ := 3

/-- `RTSP_Output_Server_Handle`, as far as it is kept in the file. -/
structure RtspHandle where
  sUsed : ℤ
  config : StreamOutputServerConfig
  deriving DecidableEq, Repr

/-- A handle that is all zeros. -/
def RtspHandle.zero : RtspHandle := ⟨0, multicastNodeCreate.config⟩

/-- What `app_rtsp_config_fwrite` writes, in this order. -/
def rtspEntries (reset : ℤ) (handle : RtspHandle) : List (IniPlace × IniValue) :=
  [(("rtsp", "tc"), .int handle.config.tcFlag),
   (("rtsp", "tos"), .int handle.config.tos),
   (("rtsp", "ttl"), .int handle.config.ttl),
   (("rtsp", "mtu"), .int handle.config.mtu),
   (("rtsp", "permissions"), .int handle.config.rtspPermissions),
   (("rtsp", "audio_port"), .int handle.config.audioPort),
   (("rtsp", "video_port"), .int handle.config.videoPort),
   (("rtsp", "main_ip"), .string handle.config.mainIp),
   (("rtsp", "type"), .int handle.config.type),
   (("rtsp", "status"), .int handle.config.status),
   (("rtsp", "used"), .int (if reset = 1 then 0 else handle.sUsed)),
   (("rtsp", "tc_rate"), .int handle.config.tcRate)]

/-- `app_rtsp_config_fwrite`. -/
def appRtspConfigFwrite (ini : AppIni F) (reset : ℤ) (handle : RtspHandle) (files : IniFiles F) :
    IniFiles F × ℤ :=
  ini.save (Store.writeAll ini.write (rtspEntries reset handle) files.bak) files

/-- The type that is taken for one that was read. -/
def rtspTypeRead (value : ℤ) : ℤ := if value = typeRtsp then value else typeRtsp

/-- The packet size that is taken for one that was read. -/
def rtspMtuRead (value : ℤ) : ℤ := if value > 228 ∨ value < 1500 then value else 1500

/-- `app_rtsp_config_fread`; a key that is not there leaves its field as it is. -/
def appRtspConfigFread (ini : AppIni F) (file : F) (handle : RtspHandle) : RtspHandle × ℤ :=
  match ini.readInt file "rtsp" "used" with
  | none => (handle, -1)
  | some used =>
    if used = notUsed then (handle, -1)
    else (⟨used, { handle.config with
      status := (ini.readInt file "rtsp" "status").getD handle.config.status
      type := ((ini.readInt file "rtsp" "type").map rtspTypeRead).getD handle.config.type
      mainIp := (ini.readString file "rtsp" "main_ip").getD handle.config.mainIp
      videoPort := (ini.readInt file "rtsp" "video_port").getD handle.config.videoPort
      audioPort := (ini.readInt file "rtsp" "audio_port").getD handle.config.audioPort
      mtu := ((ini.readInt file "rtsp" "mtu").map rtspMtuRead).getD handle.config.mtu
      ttl := (ini.readInt file "rtsp" "ttl").getD handle.config.ttl
      tos := (ini.readInt file "rtsp" "tos").getD handle.config.tos
      tcFlag := (ini.readInt file "rtsp" "tc").getD handle.config.tcFlag
      tcRate := (ini.readInt file "rtsp" "tc_rate").getD handle.config.tcRate }⟩, 0)

/-- What is read of a handle that was written. -/
def RtspHandle.readBack (handle : RtspHandle) : RtspHandle :=
  ⟨handle.sUsed, { handle.config with num := 0, streamChannel := 0, rtspPermissions := 0 }⟩

/-- The fields that are written. -/
def RtspHandle.written (handle : RtspHandle) : RtspHandle :=
  ⟨handle.sUsed, { handle.config with num := 0, streamChannel := 0 }⟩

/-- Every packet size is taken. -/
theorem rtspMtuRead_eq (value : ℤ) : rtspMtuRead value = value :=
  if_pos (by omega)

theorem rtspTypeRead_eq (value : ℤ) : rtspTypeRead value = typeRtsp := by
  rw [rtspTypeRead]
  split_ifs with h
  · exact h
  · rfl

variable {handle : RtspHandle}

theorem rtspEntries_plain (reset : ℤ) (h : ' ' ∉ handle.config.mainIp) :
    ∀ e ∈ rtspEntries reset handle, e.2.Plain := by
  simp [rtspEntries, IniValue.Plain, h]

theorem rtspEntries_nodup (reset : ℤ) (handle : RtspHandle) :
    ((rtspEntries reset handle).map Prod.fst).Nodup := by
  simp only [rtspEntries, List.map_cons, List.map_nil]
  decide

/-- **A section that was written is read**, but for the permissions. -/
theorem appRtspConfigFread_of_reads (hused : handle.sUsed ≠ notUsed)
    (htype : handle.config.type = typeRtsp)
    (h : ∀ e ∈ rtspEntries 0 handle, ini.Reads file e.1 e.2) :
    appRtspConfigFread ini file .zero = (handle.readBack, 0) := by
  simp only [rtspEntries, List.forall_mem_cons, AppIni.Reads] at h
  obtain ⟨htc, htos, httl, hmtu, -, haudio, hvideo, hip, htype', hstatus, hused', hrate, -⟩ := h
  rw [if_neg (by decide)] at hused'
  simp only [appRtspConfigFread, htc, htos, httl, hmtu, haudio, hvideo, hip, htype', hstatus, hused',
    hrate, if_neg hused, Option.map_some, Option.getD_some, rtspMtuRead_eq, rtspTypeRead_eq,
    ← htype]
  rfl

/-- What is read into an empty handle after a handle was written. -/
theorem appRtspConfigFread_of_fwrite (hini : ini.ReadsBack) (hused : handle.sUsed ≠ notUsed)
    (htype : handle.config.type = typeRtsp) (hplain : ' ' ∉ handle.config.mainIp)
    {files : IniFiles F} (hok : (appRtspConfigFwrite ini 0 handle files).2 ≠ -1) :
    appRtspConfigFread ini (appRtspConfigFwrite ini 0 handle files).1.ini .zero =
      (handle.readBack, 0) := by
  obtain ⟨hwritten, hsaved⟩ := AppIni.save_eq hok
  have hread := hini.written_all hwritten (rtspEntries_nodup 0 handle)
  rw [← hsaved] at hread
  exact appRtspConfigFread_of_reads hused htype fun e he =>
    hread e he (rtspEntries_plain 0 hplain e he)

/-- The configuration comes back after a restart. -/
def RtspHandle.ComesBack (ini : AppIni F) (files : IniFiles F) (handle : RtspHandle) : Prop :=
  ∃ loaded, appRtspConfigFread ini (appRtspConfigFwrite ini 0 handle files).1.ini .zero =
    (loaded, 0) ∧ loaded.written = handle.written

/-- The packet size that is stored is replaced by 1500 when it is out of range. -/
def MtuChecked (ini : AppIni F) (file : F) (handle : RtspHandle) (mtu : ℤ) : Prop :=
  ¬ (228 ≤ mtu ∧ mtu ≤ 1500) → (appRtspConfigFread ini file handle).1.config.mtu = 1500

/-- **The RTSP server after a restart.** The configuration comes back exactly when it has no
permissions; and the packet size is checked only where there is nothing to check. -/
theorem rtspConfig_kept_iff (hini : ini.ReadsBack) :
    (∀ (handle : RtspHandle) (files : IniFiles F), handle.sUsed ≠ notUsed →
      handle.config.type = typeRtsp → 228 ≤ handle.config.mtu → handle.config.mtu ≤ 1500 →
      ' ' ∉ handle.config.mainIp → (appRtspConfigFwrite ini 0 handle files).2 ≠ -1 →
      (handle.ComesBack ini files ↔ handle.config.rtspPermissions = 0)) ∧
    ∀ (file : F) (handle : RtspHandle) (used mtu : ℤ),
      ini.readInt file "rtsp" "used" = some used → used ≠ notUsed →
      ini.readInt file "rtsp" "mtu" = some mtu →
      (MtuChecked ini file handle mtu ↔ 228 ≤ mtu ∧ mtu ≤ 1500) := by
  refine ⟨fun handle files hused htype _ _ hplain hok => ?_,
    fun file handle used mtu hused hne hmtu => ?_⟩
  · rw [RtspHandle.ComesBack, appRtspConfigFread_of_fwrite hini hused htype hplain hok]
    constructor
    · rintro ⟨loaded, heq, hwritten⟩
      obtain ⟨hloaded, -⟩ := Prod.mk.inj heq
      rw [← hloaded] at hwritten
      exact (congrArg (fun handle => handle.config.rtspPermissions) hwritten).symm
    · intro hpermissions
      refine ⟨_, rfl, ?_⟩
      simp only [RtspHandle.written, RtspHandle.readBack, hpermissions]
  · have hread : (appRtspConfigFread ini file handle).1.config.mtu = mtu := by
      simp only [appRtspConfigFread, hused, if_neg hne, hmtu, Option.map_some, Option.getD_some,
        rtspMtuRead_eq]
    rw [MtuChecked, hread]
    omega

/-- A server that is used, with permissions. -/
def rtspHandleOf (permissions : ℤ) : RtspHandle :=
  ⟨1, { multicastNodeCreate.config with
    type := typeRtsp, mtu := 1400, rtspPermissions := permissions }⟩

/-- A server without permissions that is written and read, and a packet size of 1400. -/
theorem rtspConfig_kept_iff_sample :
    ((rtspHandleOf 0).ComesBack iniInMemory ⟨[], []⟩ ↔
      (rtspHandleOf 0).config.rtspPermissions = 0) ∧
    (MtuChecked iniInMemory [(("rtsp", "used"), .int 1), (("rtsp", "mtu"), .int 1400)] .zero 1400 ↔
      (228 : ℤ) ≤ 1400 ∧ (1400 : ℤ) ≤ 1500) :=
  ⟨(rtspConfig_kept_iff iniInMemory_readsBack).1 (rtspHandleOf 0) ⟨[], []⟩ (by decide) rfl
      (by decide) (by decide) (by decide) (by decide),
    (rtspConfig_kept_iff iniInMemory_readsBack).2 _ .zero 1 1400 rfl (by decide) rfl⟩

/-- The permissions are lost, and a packet size of 9000 is taken. -/
theorem permissions_are_lost :
    (appRtspConfigFwrite iniInMemory 0 (rtspHandleOf 1) ⟨[], []⟩).2 ≠ -1 ∧
      ¬ (rtspHandleOf 1).ComesBack iniInMemory ⟨[], []⟩ ∧
      ¬ MtuChecked iniInMemory [(("rtsp", "used"), .int 1), (("rtsp", "mtu"), .int 9000)] .zero
        9000 := by
  have hrun : (appRtspConfigFread iniInMemory (appRtspConfigFwrite iniInMemory 0 (rtspHandleOf 1)
      ⟨[], []⟩).1.ini .zero).1.written = (rtspHandleOf 0).written := by
    decide +kernel
  refine ⟨by decide, ?_, fun hchecked => ?_⟩
  · rintro ⟨loaded, hread, hsame⟩
    rw [hread, hsame] at hrun
    exact absurd hrun (by decide)
  · exact absurd (hchecked (by decide)) (by decide)

end Output

end ReachEdukit
