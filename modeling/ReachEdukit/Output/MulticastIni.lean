import ReachEdukit.Output.Ini

/-!
# The multicast servers after a restart

`app_mult_config_fwrite` writes the number of the servers, and a section for each of them;
`app_mult_config_fread` reads them into an empty list. The two name the keys on their own.

A field comes back if its key is written, if it is read, and if what is read passes the checks of the
reader. The rate of the traffic control fails at the first of these: no key is written for it, and the
configuration that is read into is all zeros. The type and the channel fail at the last one: the writer
takes them as they are, but the reader makes an RTP server of a type that it does not know, and passes
over a server with a channel that is not one of the four.

## What is left out

`app_check_list_mult_status`, which sets the packet sizes of the encoders before either of the two, and
the mutex.

## Main definitions

* `appMultNodeConfigFwrite`, `appMultConfigFwrite` — the writer
* `appMultNodeConfigFread`, `appMultConfigFread` — the reader
* `StreamOutputServerConfig.persisted` — what should come back

## Main results

* `appMultNodeConfigFread_of_reads` — a section that was written is read
* `appMultNodesFread_eq` — the sections are read one after another
* `multConfig_kept_iff` — when the list comes back
-/

namespace ReachEdukit

namespace Output

variable {F : Type*} {ini : AppIni F} {file : F}

/-- A configuration that is all zeros. -/
def StreamOutputServerConfig.zero : StreamOutputServerConfig := multicastNodeCreate.config

/-- The section of the server `i`. -/
def serverTable (i : ℕ) : String := s!"server{i}"

/-! ### The writer -/

/-- What `app_mult_node_config_fwrite` writes, in this order. -/
def nodeEntries (config : StreamOutputServerConfig) (table : String) : List (IniPlace × IniValue) :=
  [((table, "tc"), .int config.tcFlag),
   ((table, "tos"), .int config.tos),
   ((table, "ttl"), .int config.ttl),
   ((table, "mtu"), .int config.mtu),
   ((table, "audio_port"), .int config.audioPort),
   ((table, "video_port"), .int config.videoPort),
   ((table, "main_ip"), .string config.mainIp),
   ((table, "type"), .int config.type),
   ((table, "status"), .int config.status),
   ((table, "stream_channel"), .int config.streamChannel)]

/-- `app_mult_node_config_fwrite`. -/
def appMultNodeConfigFwrite (ini : AppIni F) (file : F) (config : StreamOutputServerConfig)
    (table : String) : F × Bool :=
  Store.writeAll ini.write (nodeEntries config table) file

/-- The loop over the nodes, from the section `i` on. -/
def appMultNodesFwrite (ini : AppIni F) : List MulticastNode → ℕ → F → F × Bool
  | [], _, file => (file, true)
  | node :: nodes, i, file =>
    if (appMultNodeConfigFwrite ini file node.config (serverTable i)).2 then
      appMultNodesFwrite ini nodes (i + 1)
        (appMultNodeConfigFwrite ini file node.config (serverTable i)).1
    else ((appMultNodeConfigFwrite ini file node.config (serverTable i)).1, false)

/-- The entry with the number of the servers. -/
def totalEntry (reset : ℤ) (nodes : List MulticastNode) : IniPlace × IniValue :=
  (("total", "num"), .int (if reset = 1 then 0 else nodes.length))

/-- The entry at the end. -/
def endEntry : IniPlace × IniValue := (("end", "flag"), .int 1)

/-- `app_mult_config_fwrite`, up to the copy of the file. -/
def appMultBakFwrite (ini : AppIni F) (reset : ℤ) (nodes : List MulticastNode) (bak : F) :
    F × Bool :=
  let total := Store.writeAll ini.write [totalEntry reset nodes] bak
  if total.2 then
    let written := appMultNodesFwrite ini nodes 0 total.1
    if written.2 then Store.writeAll ini.write [endEntry] written.1 else written
  else total

/-- `app_mult_config_fwrite`. -/
def appMultConfigFwrite (ini : AppIni F) (reset : ℤ) (nodes : List MulticastNode)
    (files : IniFiles F) : IniFiles F × ℤ :=
  ini.save (appMultBakFwrite ini reset nodes files.bak) files

/-! ### The reader -/

/-- `app_mult_node_config_fread`, with the configuration that is read into. -/
def appMultNodeConfigFread (ini : AppIni F) (file : F) (config : StreamOutputServerConfig)
    (table : String) : Option StreamOutputServerConfig := do
  let status ← ini.readInt file table "status"
  let type ← ini.readInt file table "type"
  let mainIp ← ini.readString file table "main_ip"
  let videoPort ← ini.readInt file table "video_port"
  let audioPort ← ini.readInt file table "audio_port"
  let tcFlag ← ini.readInt file table "tc"
  let streamChannel ← ini.readInt file table "stream_channel"
  if streamChannel < 0 ∨ streamChannel ≥ streamMaxChannel then none
  else some { config with
    status := status
    type := if type = typeTs ∨ type = typeRtp ∨ type = typeTsOverRtp then type else typeRtp
    mainIp := mainIp
    videoPort := videoPort
    audioPort := audioPort
    mtu := (ini.readInt file table "mtu").getD config.mtu
    ttl := (ini.readInt file table "ttl").getD config.ttl
    tos := (ini.readInt file table "tos").getD config.tos
    tcFlag := tcFlag
    streamChannel := streamChannel }

/-- The loop over the sections, `n` of them from the section `i` on. A server that cannot be read is
passed over, one that cannot be added ends the loop. -/
def appMultNodesFread (ini : AppIni F) (file : F) (env : ℕ → OpenEnv) :
    ℕ → ℕ → MulticastServer → Option (MulticastServer × ℤ)
  | 0, _, s => some (s, 0)
  | n + 1, i, s =>
    match appMultNodeConfigFread ini file .zero (serverTable i) with
    | none => appMultNodesFread ini file env n (i + 1) s
    | some config => (multicastListInsetNode config (env i) s).bind fun r =>
        if r.2 = -1 then some (r.1, -1) else appMultNodesFread ini file env n (i + 1) r.1

/-- `app_mult_config_fread`. -/
def appMultConfigFread (ini : AppIni F) (file : F) (env : ℕ → OpenEnv) (s : MulticastServer) :
    Option (MulticastServer × ℤ) :=
  match ini.readInt file "total" "num" with
  | none => some (s, -1)
  | some value =>
    if value = 0 ∨ value > multicastMaxServerNum then some (s, -1)
    else appMultNodesFread ini file env value.toNat 0 s

/-! ### What is written -/

/-- The entries of the nodes, from the section `i` on. -/
def nodesEntries (nodes : List MulticastNode) (i : ℕ) : List (IniPlace × IniValue) :=
  (nodes.zipIdx i).flatMap fun p => nodeEntries p.1.config (serverTable p.2)

theorem nodesEntries_cons (node : MulticastNode) (nodes : List MulticastNode) (i : ℕ) :
    nodesEntries (node :: nodes) i =
      nodeEntries node.config (serverTable i) ++ nodesEntries nodes (i + 1) := by
  rw [nodesEntries, List.zipIdx_cons, List.flatMap_cons]
  rfl

theorem appMultNodesFwrite_eq (nodes : List MulticastNode) (i : ℕ) (file : F) :
    appMultNodesFwrite ini nodes i file =
      Store.writeAll ini.write (nodesEntries nodes i) file := by
  induction nodes generalizing i file with
  | nil => rfl
  | cons node nodes ih =>
    rw [nodesEntries_cons, Store.writeAll_append, appMultNodesFwrite, ih]
    rfl

/-- All that is written. -/
def multEntries (reset : ℤ) (nodes : List MulticastNode) : List (IniPlace × IniValue) :=
  totalEntry reset nodes :: (nodesEntries nodes 0 ++ [endEntry])

/-- The writer writes one entry after another. -/
theorem appMultBakFwrite_eq (reset : ℤ) (nodes : List MulticastNode) (bak : F) :
    appMultBakFwrite ini reset nodes bak =
      Store.writeAll ini.write (multEntries reset nodes) bak := by
  rw [multEntries, ← List.singleton_append, Store.writeAll_append, Store.writeAll_append,
    appMultBakFwrite]
  simp only [appMultNodesFwrite_eq]
  split_ifs <;> grind

/-- The keys of a section. -/
def nodeKeys : List String :=
  ["tc", "tos", "ttl", "mtu", "audio_port", "video_port", "main_ip", "type", "status",
   "stream_channel"]

theorem nodeEntries_places (config : StreamOutputServerConfig) (table : String) :
    (nodeEntries config table).map Prod.fst = nodeKeys.map fun key => (table, key) :=
  rfl

/-- Only the address can have blanks. -/
theorem nodeEntries_plain {config : StreamOutputServerConfig} {table : String}
    (h : ' ' ∉ config.mainIp) : ∀ e ∈ nodeEntries config table, e.2.Plain := by
  simp [nodeEntries, IniValue.Plain, h]

theorem nodesEntries_places (nodes : List MulticastNode) (i : ℕ) :
    (nodesEntries nodes i).map Prod.fst =
      (List.range' i nodes.length).flatMap fun j => nodeKeys.map fun key => (serverTable j, key) := by
  induction nodes generalizing i with
  | nil => rfl
  | cons node nodes ih =>
    rw [nodesEntries_cons, List.map_append, nodeEntries_places, ih]
    rfl

/-- The places of a file with `n` servers. -/
def multPlaces (n : ℕ) : List IniPlace :=
  ("total", "num") ::
    ((List.range' 0 n).flatMap (fun j => nodeKeys.map fun key => (serverTable j, key)) ++
      [("end", "flag")])

/-- No two entries have the same place. -/
theorem multPlaces_nodup : ∀ n ≤ multicastMaxServerNum, (multPlaces n).Nodup := by
  decide +kernel

theorem multEntries_places (reset : ℤ) (nodes : List MulticastNode) :
    (multEntries reset nodes).map Prod.fst = multPlaces nodes.length := by
  rw [multEntries, List.map_cons, List.map_append, nodesEntries_places]
  rfl

/-! ### A section that is read -/

variable {config : StreamOutputServerConfig}

/-- What is read of a configuration that was written. -/
def StreamOutputServerConfig.readBack (config : StreamOutputServerConfig) :
    StreamOutputServerConfig :=
  { config with
    num := 0
    type := if config.type = typeTs ∨ config.type = typeRtp ∨ config.type = typeTsOverRtp
      then config.type else typeRtp
    tcRate := 0
    rtspPermissions := 0 }

/-- **A section that was written is read**, unless the reader refuses the channel. -/
theorem appMultNodeConfigFread_of_reads {table : String}
    (h : ∀ e ∈ nodeEntries config table, ini.Reads file e.1 e.2) :
    appMultNodeConfigFread ini file .zero table =
      if HasCounters config.streamChannel then some config.readBack else none := by
  simp only [nodeEntries, List.forall_mem_cons, AppIni.Reads] at h
  obtain ⟨htc, htos, httl, hmtu, hvideo, haudio, hip, htype, hstatus, hchannel, -⟩ := h
  simp only [appMultNodeConfigFread, htc, htos, httl, hmtu, hvideo, haudio, hip, htype, hstatus,
    hchannel, Option.bind_eq_bind, Option.bind_some, Option.getD_some]
  by_cases hhas : HasCounters config.streamChannel
  · have hok : ¬ (config.streamChannel < 0 ∨ config.streamChannel ≥ streamMaxChannel) := by
      obtain ⟨h₁, h₂⟩ := hhas
      omega
    rw [if_pos hhas, if_neg hok]
    rfl
  · have hbad : config.streamChannel < 0 ∨ config.streamChannel ≥ streamMaxChannel := by
      rw [HasCounters] at hhas
      omega
    rw [if_neg hhas, if_pos hbad]

/-! ### A server that is added -/

variable {s : StreamClients} {k : ℕ}

/-- At most `k` clients are in use. -/
def FewUsed (s : StreamClients) (k : ℕ) : Prop :=
  ∃ held : List ClientSlot, held.length ≤ k ∧ ∀ i, (s.client i).cUsed = true → i ∈ held

theorem fewUsed_init : FewUsed .init 0 :=
  ⟨[], le_rfl, fun _ hused => absurd hused Bool.false_ne_true⟩

/-- While fewer clients are in use than there are, one is free. -/
theorem FewUsed.getFree (h : FewUsed s k) (hk : k < outputServerMaxNum) :
    ∃ i, streamClientGetFree s = some i := by
  obtain ⟨held, hlen, hheld⟩ := h
  exact exists_getFree hheld (hlen.trans_lt hk)

/-- One more client may be in use when one slot was set. -/
theorem FewUsed.put (h : FewUsed s k) (i : ClientSlot) {s' : StreamClients}
    (hothers : ∀ j, j ≠ i → s'.client j = s.client j) : FewUsed s' (k + 1) := by
  obtain ⟨held, hlen, hheld⟩ := h
  refine ⟨i :: held, Nat.succ_le_succ hlen, fun j hused => ?_⟩
  by_cases hji : j = i
  · rw [hji]
    exact List.mem_cons_self ..
  · rw [hothers j hji] at hused
    exact List.mem_cons_of_mem _ (hheld j hused)

/-- A client is opened, or its sockets are not: the other slots stay. -/
theorem streamClientOpen_others (s : StreamClients) (videoAddr audioAddr : SockaddrIn) (type : ℤ)
    (i : ClientSlot) {channel : ℤ} (env : OpenEnv) (hchannel : HasCounters channel) :
    ∃ r, streamClientOpen videoAddr audioAddr type i channel env s = some r ∧
      ∀ j, j ≠ i → r.1.client j = s.client j := by
  have hput : ∀ c j, j ≠ i → (s.put i c).client j = s.client j := by
    intro c j hji
    exact Function.update_of_ne hji _ _
  have hlt := hchannel.2
  simp only [streamClientOpen, if_neg (show ¬ channel ≥ streamMaxChannel by omega)]
  split_ifs with hvideo haudio
  · exact ⟨_, rfl, hput _⟩
  · exact ⟨_, rfl, hput _⟩
  · obtain ⟨s', heq, hclient, -⟩ := multSetActive_eq_some type 1 (s.put i (openedClient videoAddr
      audioAddr type (s.client i).num channel env)) hchannel
    refine ⟨(s', 0), by rw [heq]; rfl, fun j hji => ?_⟩
    rw [hclient]
    exact hput _ j hji

/-- A new node is configured, with a client or without one. -/
theorem multicastNodeConfig_create (h : FewUsed s k) (hk : k < outputServerMaxNum) (env : OpenEnv)
    (hchannel : HasCounters config.streamChannel) :
    ∃ s' node, multicastNodeConfig config env multicastNodeCreate s = some (s', node, 0) ∧
      node.config = multicastCheckConfig config ∧ FewUsed s' (k + 1) := by
  by_cases hactive : config.status = sActive
  · obtain ⟨i, hget⟩ := h.getFree hk
    obtain ⟨r, hopen, hothers⟩ := streamClientOpen_others s config.videoAddr config.audioAddr
      config.type i env hchannel
    refine ⟨r.1, ⟨true, multicastCheckConfig config, some i⟩, ?_, rfl, h.put i hothers⟩
    rw [multicastNodeConfig, if_neg (not_not.mpr hactive)]
    change multicastNodeActivate config env _ s = _
    rw [multicastNodeActivate, hget]
    change Option.map _ (streamClientOpen _ _ _ i config.streamChannel env s) = _
    rw [hopen]
    rfl
  · obtain ⟨held, hlen, hheld⟩ := h
    exact ⟨s, _, if_pos hactive, rfl, held, hlen.trans k.le_succ, hheld⟩

variable {t : MulticastServer}

/-- **A server is added** at the end. -/
theorem multicastListInsetNode_of_fewUsed (h : FewUsed t.clients k) (hk : k < outputServerMaxNum)
    (hlen : t.nodes.length < multicastMaxServerNum) (env : OpenEnv)
    (hchannel : HasCounters config.streamChannel) :
    ∃ t', multicastListInsetNode config env t = some (t', 0) ∧
      t'.nodes.map MulticastNode.config =
        t.nodes.map MulticastNode.config ++ [multicastCheckConfig config] ∧
      FewUsed t'.clients (k + 1) := by
  obtain ⟨s', node, heq, hnode, hfew⟩ := multicastNodeConfig_create h hk env hchannel
  refine ⟨⟨s', t.nodes ++ [node]⟩, ?_, ?_, hfew⟩
  · rw [multicastListInsetNode, if_neg (Nat.not_le.mpr hlen), heq]
    rfl
  · rw [List.map_append, List.map_singleton, hnode]

/-! ### The list that is read -/

/-- The configuration is one that the reader does not refuse. -/
def readable (node : MulticastNode) : Bool := HasCounters node.config.streamChannel

/-- **The sections are read** one after another. -/
theorem appMultNodesFread_eq (env : ℕ → OpenEnv) {nodes : List MulticastNode} {i : ℕ}
    (hreads : ∀ e ∈ nodesEntries nodes i, ini.Reads file e.1 e.2)
    (hfew : FewUsed t.clients k) (hk : k + nodes.length ≤ outputServerMaxNum)
    (hlen : t.nodes.length + nodes.length ≤ multicastMaxServerNum) :
    ∃ t', appMultNodesFread ini file env nodes.length i t = some (t', 0) ∧
      t'.nodes.map MulticastNode.config = t.nodes.map MulticastNode.config ++
        (nodes.filter readable).map fun node => multicastCheckConfig node.config.readBack := by
  induction nodes generalizing i t k with
  | nil => exact ⟨t, rfl, (List.append_nil _).symm⟩
  | cons node nodes ih =>
    rw [nodesEntries_cons, List.forall_mem_append] at hreads
    rw [List.length_cons] at hk hlen
    have hread := appMultNodeConfigFread_of_reads hreads.1
    rw [List.length_cons, appMultNodesFread]
    by_cases hhas : HasCounters node.config.streamChannel
    · rw [hread, if_pos hhas, List.filter_cons_of_pos (by exact decide_eq_true hhas)]
      have hback : HasCounters node.config.readBack.streamChannel := hhas
      obtain ⟨t₁, hinset, hnodes, hfew₁⟩ :=
        multicastListInsetNode_of_fewUsed hfew (by omega) (by omega) (env i) hback
      have hlen₁ : t₁.nodes.length = t.nodes.length + 1 := by
        simpa using congrArg List.length hnodes
      obtain ⟨t', heq, ht'⟩ := ih hreads.2 hfew₁ (by omega) (by omega)
      refine ⟨t', ?_, ?_⟩
      · change Option.bind (multicastListInsetNode _ _ _) _ = _
        rw [hinset]
        exact heq
      · rw [ht', hnodes, List.append_assoc, List.map_cons]
        rfl
    · rw [hread, if_neg hhas, List.filter_cons_of_neg (by simpa [readable] using hhas)]
      obtain ⟨t', heq, ht'⟩ := ih hreads.2 hfew (by omega) (by omega)
      exact ⟨t', heq, ht'⟩

/-- The fields that `multicast_node_config` uses. -/
def StreamOutputServerConfig.persisted (config : StreamOutputServerConfig) :
    StreamOutputServerConfig :=
  { config with num := 0, rtspPermissions := 0 }

/-- The configuration comes back: it has no rate, a type that the reader knows, and a channel. -/
def StreamOutputServerConfig.Kept (config : StreamOutputServerConfig) : Prop :=
  config.tcRate = 0 ∧
    (config.type = typeTs ∨ config.type = typeRtp ∨ config.type = typeTsOverRtp) ∧
    HasCounters config.streamChannel

instance (config : StreamOutputServerConfig) : Decidable config.Kept :=
  inferInstanceAs (Decidable (_ ∧ _ ∧ _))

theorem persisted_readBack_iff (hchannel : HasCounters config.streamChannel) :
    config.readBack.persisted = config.persisted ↔ config.Kept := by
  constructor
  · intro heq
    have hrate : 0 = config.tcRate := congrArg StreamOutputServerConfig.tcRate heq
    have htype : (if config.type = typeTs ∨ config.type = typeRtp ∨ config.type = typeTsOverRtp
        then config.type else typeRtp) = config.type := congrArg StreamOutputServerConfig.type heq
    refine ⟨hrate.symm, ?_, hchannel⟩
    by_contra hother
    rw [if_neg hother] at htype
    exact hother (Or.inr (Or.inl htype.symm))
  · intro hkept
    rw [StreamOutputServerConfig.readBack, if_pos hkept.2.1]
    simp only [StreamOutputServerConfig.persisted, hkept.1]

/-- What is read passes the check that what was written has passed. -/
theorem multicastCheckConfig_readBack (h : multicastCheckConfig config = config) :
    multicastCheckConfig config.readBack = config.readBack := by
  change { config.readBack with
    mtu := (multicastCheckConfig config).mtu
    tos := (multicastCheckConfig config).tos
    ttl := (multicastCheckConfig config).ttl } = config.readBack
  rw [h]
  rfl

/-- A list of which some are left out is the same list exactly when none is. -/
theorem map_filter_eq_map_iff {α β : Type*} {l : List α} {p : α → Bool} {f g : α → β} :
    (l.filter p).map f = l.map g ↔ ∀ a ∈ l, p a = true ∧ f a = g a := by
  constructor
  · intro heq
    have hlen : (l.filter p).length = l.length := by
      simpa using congrArg List.length heq
    have hall := List.length_filter_eq_length_iff.mp hlen
    rw [List.filter_eq_self.mpr hall] at heq
    exact fun a ha => ⟨hall a ha, List.map_inj_left.mp heq a ha⟩
  · intro hall
    rw [List.filter_eq_self.mpr fun a ha => (hall a ha).1]
    exact List.map_inj_left.mpr fun a ha => (hall a ha).2

/-- What the reader makes of a file that was written. -/
theorem appMultConfigFread_of_fwrite (hini : ini.ReadsBack) {nodes : List MulticastNode}
    (hlen : nodes.length ≤ multicastMaxServerNum) (hplain : ∀ node ∈ nodes, ' ' ∉ node.config.mainIp)
    {files : IniFiles F} (hok : (appMultConfigFwrite ini 0 nodes files).2 ≠ -1)
    (env : ℕ → OpenEnv) :
    ∃ r, appMultConfigFread ini (appMultConfigFwrite ini 0 nodes files).1.ini env .init = some r ∧
      r.1.nodes.map MulticastNode.config =
        (nodes.filter readable).map fun node => multicastCheckConfig node.config.readBack := by
  obtain ⟨hwritten, hsaved⟩ := AppIni.save_eq hok
  have hfile : (appMultConfigFwrite ini 0 nodes files).1.ini =
      (Store.writeAll ini.write (multEntries 0 nodes) files.bak).1 := by
    rw [← appMultBakFwrite_eq]
    exact hsaved
  rw [appMultBakFwrite_eq] at hwritten
  have hplaces : ((multEntries 0 nodes).map Prod.fst).Nodup := by
    rw [multEntries_places]
    exact multPlaces_nodup nodes.length hlen
  have hread := hini.written_all hwritten hplaces
  rw [← hfile, multEntries, List.forall_mem_cons, List.forall_mem_append] at hread
  have htotal : ini.readInt (appMultConfigFwrite ini 0 nodes files).1.ini "total" "num" =
      some (nodes.length : ℤ) := hread.1 trivial
  have hnodes : ∀ e ∈ nodesEntries nodes 0,
      ini.Reads (appMultConfigFwrite ini 0 nodes files).1.ini e.1 e.2 := by
    intro e he
    refine hread.2.1 e he ?_
    rw [nodesEntries, List.mem_flatMap] at he
    obtain ⟨p, hp, he⟩ := he
    exact nodeEntries_plain (hplain p.1 (List.fst_mem_of_mem_zipIdx hp)) e he
  rw [appMultConfigFread, htotal]
  by_cases hnil : nodes = []
  · subst hnil
    exact ⟨_, rfl, rfl⟩
  · have hpos := List.length_pos_iff.mpr hnil
    have hvalid : ¬ ((nodes.length : ℤ) = 0 ∨ (nodes.length : ℤ) > multicastMaxServerNum) := by
      omega
    obtain ⟨t, heq, ht⟩ := appMultNodesFread_eq (t := .init) env hnodes fewUsed_init
      (by rw [Nat.zero_add]; exact hlen) (by simpa [MulticastServer.init] using hlen)
    refine ⟨(t, 0), ?_, ht⟩
    simp only [if_neg hvalid]
    exact heq

/-- **The list after a restart.** When every write succeeds, the list that is read has the servers that
were written, with the same values in the fields that are used, exactly when every one of them has no
rate, a type that the reader knows, and a channel. -/
theorem multConfig_kept_iff (hini : ini.ReadsBack) {nodes : List MulticastNode}
    (hlen : nodes.length ≤ multicastMaxServerNum)
    (hchecked : ∀ node ∈ nodes, multicastCheckConfig node.config = node.config)
    (hplain : ∀ node ∈ nodes, ' ' ∉ node.config.mainIp) {files : IniFiles F}
    (hok : (appMultConfigFwrite ini 0 nodes files).2 ≠ -1) (env : ℕ → OpenEnv) :
    (∃ r, appMultConfigFread ini (appMultConfigFwrite ini 0 nodes files).1.ini env .init = some r ∧
      r.1.nodes.map (fun node => node.config.persisted) =
        nodes.map fun node => node.config.persisted) ↔
      ∀ node ∈ nodes, node.config.Kept := by
  obtain ⟨r, hread, hr⟩ := appMultConfigFread_of_fwrite hini hlen hplain hok env
  have hmap : r.1.nodes.map (fun node => node.config.persisted) = (nodes.filter readable).map
      fun node => (multicastCheckConfig node.config.readBack).persisted := by
    have hcongr := congrArg (List.map StreamOutputServerConfig.persisted) hr
    rwa [List.map_map, List.map_map] at hcongr
  have hnode : ∀ node ∈ nodes, (readable node = true ∧
      (multicastCheckConfig node.config.readBack).persisted = node.config.persisted ↔
        node.config.Kept) := by
    intro node hmem
    rw [multicastCheckConfig_readBack (hchecked node hmem), readable, decide_eq_true_iff]
    constructor
    · intro h
      exact (persisted_readBack_iff h.1).mp h.2
    · intro h
      exact ⟨h.2.2, (persisted_readBack_iff h.2.2).mpr h⟩
  constructor
  · rintro ⟨r', hread', heq⟩
    obtain rfl := Option.some.inj (hread.symm.trans hread')
    rw [hmap, map_filter_eq_map_iff] at heq
    exact fun node hmem => (hnode node hmem).mp (heq node hmem)
  · intro hkept
    refine ⟨r, hread, ?_⟩
    rw [hmap, map_filter_eq_map_iff]
    exact fun node hmem => (hnode node hmem).mpr (hkept node hmem)

/-- The configuration of a server that sends TS, with a rate for its traffic control. -/
def ratedConfig (rate : ℤ) : StreamOutputServerConfig :=
  { tsConfig 1 with tcFlag := 1, tcRate := rate }

/-- A server without a rate that is written and read. -/
theorem multConfig_kept_iff_sample :
    (∃ r, appMultConfigFread iniInMemory (appMultConfigFwrite iniInMemory 0
        [⟨true, ratedConfig 0, none⟩] ⟨[], []⟩).1.ini (fun _ => someSockets) .init = some r ∧
      r.1.nodes.map (fun node => node.config.persisted) =
        [⟨true, ratedConfig 0, none⟩].map fun node : MulticastNode => node.config.persisted) ↔
      ∀ node ∈ [(⟨true, ratedConfig 0, none⟩ : MulticastNode)], node.config.Kept :=
  multConfig_kept_iff iniInMemory_readsBack (by decide) (by decide) (by decide) (by decide) _

/-- A server with a rate of 2000 comes back with a rate of 0. -/
theorem rate_is_lost :
    let nodes : List MulticastNode := [⟨true, ratedConfig 2000, none⟩]
    (∀ node ∈ nodes, multicastCheckConfig node.config = node.config ∧ ' ' ∉ node.config.mainIp) ∧
      (appMultConfigFwrite iniInMemory 0 nodes ⟨[], []⟩).2 ≠ -1 ∧
      ¬ ∃ r, appMultConfigFread iniInMemory
          (appMultConfigFwrite iniInMemory 0 nodes ⟨[], []⟩).1.ini (fun _ => someSockets) .init =
            some r ∧
        r.1.nodes.map (fun node => node.config.persisted) =
          nodes.map fun node => node.config.persisted := by
  intro nodes
  have hrun : (appMultConfigFread iniInMemory
      (appMultConfigFwrite iniInMemory 0 nodes ⟨[], []⟩).1.ini (fun _ => someSockets) .init).map
        (fun r => r.1.nodes.map fun node => node.config.persisted) =
      some [(ratedConfig 0).persisted] := by
    decide +kernel
  refine ⟨by decide, by decide, ?_⟩
  rintro ⟨r, hread, hsame⟩
  rw [hread, Option.map_some, hsame] at hrun
  exact absurd hrun (by decide)

end Output

end ReachEdukit
