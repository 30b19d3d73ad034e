import ReachEdukit.Lib.Run
import ReachEdukit.Output.Client

/-!
# The multicast servers

A multicast server is a node of a list. A node whose configuration is active holds one of the clients
of the stream output; a configuration that is not active is stored, and the client stays as it is.

`multicast_list_delete_node` closes the client of the node, and then lets `multicast_node_delete`
close it again. The first call has set the channel to `-1`, for which there is no counter.

## What is left out

The traffic control, `tos` and `ttl` of the sockets, and the mutexes. The list is a list of nodes, and
a node is found by its place in it.

## Main definitions

* `multicastNodeConfig` — a node is configured
* `multicastListInsetNode`, `multicastListDeleteNode`, `multicastNodeDelete` — the list
* `multicastStep` — one operation

## Main results

* `Holds.configNode` — what a configuration does to the clients that are held
* `counted_iff_noClientDeleted` — when the counters are right after every operation
-/

namespace ReachEdukit

namespace Output

/-- `MULTICAST_MAX_SERVER_NUM`. -/
def multicastMaxServerNum : ℕ := 8

/-- `S_ACTIVE`. -/
def sActive : ℤ := 1

/-- `AF_INET`. -/
def afInet : ℕ := 2

/-- A text, without its terminating zero. -/
abbrev Text := List Char

/-- `inet_pton` of an IPv4 address: the numbers that are complete, the last one first, and the one that
is read. -/
def inetPtonFrom : List ℕ → Option ℕ → Text → Option (List ℕ)
  | octets, current, [] => current.map fun n => n :: octets
  | octets, current, ch :: src =>
    if ch.isDigit then
      match current with
      | none =>
        if octets.length = 4 then none else inetPtonFrom octets (some (ch.toNat - 48)) src
      | some n =>
        if n = 0 ∨ n * 10 + (ch.toNat - 48) > 255 then none
        else inetPtonFrom octets (some (n * 10 + (ch.toNat - 48))) src
    else if ch = '.' then
      match current with
      | none => none
      | some n => if octets.length = 3 then none else inetPtonFrom (n :: octets) none src
    else none

/-- The address that `inet_pton` reads, `0` when it fails. -/
def inetPton (ip : Text) : ℕ :=
  match inetPtonFrom [] none ip with
  | some [d, c, b, a] => ((a * 256 + b) * 256 + c) * 256 + d
  | _ => 0

/-- `stream_output_server_config`. -/
structure StreamOutputServerConfig where
  num : ℤ
  /-- `SERVER_TYPE`. -/
  type : ℤ
  /-- `S_STATUS`. -/
  status : ℤ
  /-- The address that is sent to. -/
  mainIp : Text
  videoPort : ℤ
  audioPort : ℤ
  mtu : ℤ
  ttl : ℤ
  tos : ℤ
  tcFlag : ℤ
  tcRate : ℤ
  streamChannel : ℤ
  rtspPermissions : ℤ
  deriving DecidableEq, Repr

/-- `MULTICAST_Output_Server_NODE`. -/
structure MulticastNode where
  sUsed : Bool
  config : StreamOutputServerConfig
  /-- The client that it sends with. -/
  client : Option ClientSlot
  deriving DecidableEq, Repr

/-- A new node is all zeros. -/
def multicastNodeCreate : MulticastNode := ⟨false, ⟨0, 0, 0, [], 0, 0, 0, 0, 0, 0, 0, 0, 0⟩, none⟩

/-- `multicast_check_config`. -/
def multicastCheckConfig (config : StreamOutputServerConfig) : StreamOutputServerConfig :=
  { config with
    mtu := if config.mtu < 0 ∨ config.mtu > 1500 then 1500 else config.mtu
    tos := if config.tos > 0xff then 0 else config.tos
    ttl := if config.ttl > 128 then 128 else config.ttl }

/-- The address of a port; `htons` keeps sixteen bits of it. -/
def sockaddrOf (ip : Text) (port : ℤ) : SockaddrIn := ⟨afInet, (port % 65536).toNat, inetPton ip⟩

/-- The port that the audio is sent to; TS has audio and video on one. -/
def StreamOutputServerConfig.aport (config : StreamOutputServerConfig) : ℤ :=
  if config.type = typeTs ∨ config.type = typeTsOverRtp then config.videoPort else config.audioPort

/-- The address that the video is sent to. -/
def StreamOutputServerConfig.videoAddr (config : StreamOutputServerConfig) : SockaddrIn :=
  sockaddrOf config.mainIp config.videoPort

/-- The address that the audio is sent to, all zeros when there is none. -/
def StreamOutputServerConfig.audioAddr (config : StreamOutputServerConfig) : SockaddrIn :=
  if config.aport ≠ 0 then sockaddrOf config.mainIp config.aport else .zero

/-- The end of `multicast_node_config`: the node, which has no client, gets one. What
`stream_client_open` answers is not looked at. -/
def multicastNodeActivate (config : StreamOutputServerConfig) (env : OpenEnv) (node : MulticastNode)
    (s : StreamClients) : Option (StreamClients × MulticastNode × ℤ) :=
  match streamClientGetFree s with
  | none => some (s, node, -1)
  | some i =>
    (streamClientOpen config.videoAddr config.audioAddr config.type i node.config.streamChannel
      env s).map fun r => (r.1, { node with client := some i, sUsed := true }, 0)

/-- `multicast_node_config`. -/
def multicastNodeConfig (config : StreamOutputServerConfig) (env : OpenEnv) (node : MulticastNode)
    (s : StreamClients) : Option (StreamClients × MulticastNode × ℤ) :=
  let node := { node with config := multicastCheckConfig config }
  if config.status ≠ sActive then some (s, node, 0)
  else (streamClientClose node.client s).bind
    (multicastNodeActivate config env { node with client := none })

/-- `multicast_node_delete`. -/
def multicastNodeDelete (node : MulticastNode) (s : StreamClients) : Option StreamClients :=
  streamClientClose node.client s

/-- The clients and the list of the nodes. -/
structure MulticastServer where
  clients : StreamClients
  nodes : List MulticastNode

/-- No node yet. -/
def MulticastServer.init : MulticastServer := ⟨.init, []⟩

/-- `multicast_list_inset_node`. -/
def multicastListInsetNode (config : StreamOutputServerConfig) (env : OpenEnv)
    (s : MulticastServer) : Option (MulticastServer × ℤ) :=
  if multicastMaxServerNum ≤ s.nodes.length then some (s, -1)
  else (multicastNodeConfig config env multicastNodeCreate s.clients).bind fun r =>
    if r.2.2 = -1 then
      (multicastNodeDelete r.2.1 r.1).map fun clients => (⟨clients, s.nodes⟩, -1)
    else some (⟨r.1, s.nodes ++ [r.2.1]⟩, 0)

/-- `multicast_node_config` of the node at a place of the list. -/
def multicastListConfigNode (idx : ℕ) (config : StreamOutputServerConfig) (env : OpenEnv)
    (s : MulticastServer) : Option (MulticastServer × ℤ) :=
  match s.nodes[idx]? with
  | none => some (s, -1)
  | some node => (multicastNodeConfig config env node s.clients).map fun r =>
      (⟨r.1, s.nodes.set idx r.2.1⟩, r.2.2)

/-- `multicast_list_delete_node`: the client is closed here, and once more with the node. -/
def multicastListDeleteNode (idx : ℕ) (s : MulticastServer) : Option (MulticastServer × ℤ) :=
  match s.nodes[idx]? with
  | none => some (s, -1)
  | some node => (streamClientClose node.client s.clients).bind fun clients =>
      (multicastNodeDelete node clients).map fun clients => (⟨clients, s.nodes.eraseIdx idx⟩, 0)

/-- The operations. -/
inductive MulticastOp
  | inset (config : StreamOutputServerConfig) (env : OpenEnv)
  | reconfig (idx : ℕ) (config : StreamOutputServerConfig) (env : OpenEnv)
  | delete (idx : ℕ)
  deriving Repr

/-- One operation; it has no answer when it counts for a channel without counters. -/
def multicastStep (s : MulticastServer) (op : MulticastOp) : Option MulticastServer :=
  match op with
  | .inset config env => (multicastListInsetNode config env s).map Prod.fst
  | .reconfig idx config env => (multicastListConfigNode idx config env s).map Prod.fst
  | .delete idx => (multicastListDeleteNode idx s).map Prod.fst

/-- The channel is below the bound, and the sockets open. -/
def MulticastOp.Proper (op : MulticastOp) : Prop :=
  match op with
  | .inset config env => config.streamChannel < streamMaxChannel ∧ env.Opens
  | .reconfig _ config env => config.streamChannel < streamMaxChannel ∧ env.Opens
  | .delete _ => True

instance decidableProper : (op : MulticastOp) → Decidable op.Proper
  | .inset _ _ => inferInstanceAs (Decidable (_ ∧ _))
  | .reconfig _ _ _ => inferInstanceAs (Decidable (_ ∧ _))
  | .delete _ => .isTrue trivial

/-- The configuration does not open a client on a channel below zero. -/
def StreamOutputServerConfig.Opens (config : StreamOutputServerConfig) : Prop :=
  config.status = sActive → 0 ≤ config.streamChannel

instance (config : StreamOutputServerConfig) : Decidable config.Opens :=
  inferInstanceAs (Decidable (_ → _))

/-- No node is deleted that has a client, and no client is opened on a channel below zero. -/
def NoClientDeleted (s : MulticastServer) (op : MulticastOp) : Prop :=
  match op with
  | .inset config _ => s.nodes.length < multicastMaxServerNum → config.Opens
  | .reconfig idx config _ => idx < s.nodes.length → config.Opens
  | .delete idx => ∀ node ∈ s.nodes[idx]?, node.client = none

/-! ### The clients that are held -/

variable {s : StreamClients} {held : List ClientSlot} {i : ClientSlot}

/-- The clients in use are the ones in the list, each on a channel that has counters. -/
structure Holds (s : StreamClients) (held : List ClientSlot) : Prop where
  counted : s.Counted
  nodup : held.Nodup
  used : ∀ i, (s.client i).cUsed = true ↔ i ∈ held
  channel : ∀ i ∈ held, HasCounters (s.client i).streamChannel

theorem Holds.perm (h : Holds s held) {held' : List ClientSlot} (hperm : held.Perm held') :
    Holds s held' where
  counted := h.counted
  nodup := hperm.nodup_iff.mp h.nodup
  used i := (h.used i).trans hperm.mem_iff
  channel i hi := h.channel i (hperm.mem_iff.mpr hi)

theorem holds_init : Holds .init [] where
  counted k c := (congrArg Nat.cast (Slots.count_eq_zero fun _ => rfl)).symm
  nodup := List.nodup_nil
  used i := by simp [StreamClients.init, StreamOutputClient.zero]
  channel i hi := absurd hi List.not_mem_nil

/-- While fewer clients are held than there are slots, one is free. -/
theorem Holds.getFree (h : Holds s held) (hfew : held.length < outputServerMaxNum) :
    ∃ i, streamClientGetFree s = some i ∧ i ∉ held := by
  obtain ⟨i, hi⟩ := exists_getFree (fun i => (h.used i).mp) hfew
  refine ⟨i, hi, fun hmem => ?_⟩
  have hused := (h.used i).mpr hmem
  rw [getFree_spec hi] at hused
  exact absurd hused (by simp)

/-- A client is opened in a free slot. -/
theorem Holds.open (h : Holds s held) (hi : i ∉ held) {env : OpenEnv} (henv : env.Opens)
    {channel : ℤ} (hchannel : HasCounters channel) (videoAddr audioAddr : SockaddrIn) (type : ℤ) :
    ∃ s', streamClientOpen videoAddr audioAddr type i channel env s = some (s', 0) ∧
      Holds s' (i :: held) := by
  have hfree : (s.client i).cUsed = false := by simpa [← h.used i] using hi
  obtain ⟨s', heq, hclient, hcounted⟩ :=
    h.counted.open hfree henv hchannel videoAddr audioAddr type
  refine ⟨s', heq, hcounted, List.nodup_cons.mpr ⟨hi, h.nodup⟩, fun j => ?_, fun j hj => ?_⟩
  · rw [hclient, List.mem_cons]
    by_cases hji : j = i
    · rw [hji, Function.update_self]
      exact iff_of_true rfl (Or.inl rfl)
    · rw [Function.update_of_ne hji, h.used j, or_iff_right hji]
  · rw [hclient]
    by_cases hji : j = i
    · rw [hji, Function.update_self]
      exact hchannel
    · rw [Function.update_of_ne hji]
      exact h.channel j (List.mem_of_ne_of_mem hji hj)

/-- A client that is held is closed; it has no channel then. -/
theorem Holds.close (h : Holds s (i :: held)) :
    ∃ s', streamClientClose (some i) s = some s' ∧ Holds s' held ∧
      (s'.client i).streamChannel = -1 := by
  have hi := (h.used i).mpr (List.mem_cons_self ..)
  obtain ⟨hnot, hnodup⟩ := List.nodup_cons.mp h.nodup
  obtain ⟨s', heq, hclient, hcounted⟩ := h.counted.close hi (h.channel i (List.mem_cons_self ..))
  refine ⟨s', heq, ⟨hcounted, hnodup, fun j => ?_, fun j hj => ?_⟩, ?_⟩
  · rw [hclient]
    by_cases hji : j = i
    · rw [hji, Function.update_self]
      exact iff_of_false (by simp [StreamOutputClient.closed]) hnot
    · rw [Function.update_of_ne hji, h.used j, List.mem_cons, or_iff_right hji]
  · have hji : j ≠ i := fun heq => hnot (heq ▸ hj)
    rw [hclient, Function.update_of_ne hji]
    exact h.channel j (List.mem_cons_of_mem _ hj)
  · rw [hclient, Function.update_self]
    rfl

/-! ### One node among the others -/

variable {others : List ClientSlot} {node : MulticastNode} {config : StreamOutputServerConfig}
  {env : OpenEnv}

/-- The client of a node is closed, if it has one. -/
theorem Holds.closeNode {client : Option ClientSlot} (h : Holds s (client.toList ++ others)) :
    ∃ s', streamClientClose client s = some s' ∧ Holds s' others := by
  obtain rfl | ⟨i, rfl⟩ := Option.eq_none_or_eq_some client
  · exact ⟨s, rfl, h⟩
  · obtain ⟨s', heq, hholds, -⟩ := Holds.close h
    exact ⟨s', heq, hholds⟩

/-- The client of a node cannot be closed and then closed again. -/
theorem Holds.closeTwice (h : Holds s (i :: others)) :
    (streamClientClose (some i) s).bind (streamClientClose (some i)) = none := by
  obtain ⟨s', heq, -, hchannel⟩ := h.close
  rw [heq]
  refine streamClientClose_eq_none fun hhas => ?_
  rw [hchannel] at hhas
  exact absurd hhas (by decide)

/-- **A node is configured**: it keeps its client or gets one in its place. -/
theorem Holds.configNode (h : Holds s (node.client.toList ++ others))
    (hfew : others.length < outputServerMaxNum) (henv : env.Opens)
    (hlt : config.streamChannel < streamMaxChannel) (hopens : config.Opens) :
    ∃ s' node', multicastNodeConfig config env node s = some (s', node', 0) ∧
      Holds s' (node'.client.toList ++ others) := by
  rw [multicastNodeConfig]
  by_cases hactive : config.status = sActive
  · obtain ⟨s₁, hclose, h₁⟩ := h.closeNode
    obtain ⟨i, hget, hi⟩ := h₁.getFree hfew
    obtain ⟨s', hopen, hs'⟩ := h₁.open hi henv ⟨hopens hactive, hlt⟩ config.videoAddr
      config.audioAddr config.type
    refine ⟨s', ⟨true, multicastCheckConfig config, some i⟩, ?_, hs'⟩
    rw [if_neg (not_not.mpr hactive), hclose, Option.bind_some, multicastNodeActivate, hget]
    change Option.map _ (streamClientOpen _ _ _ i config.streamChannel env s₁) = _
    rw [hopen]
    rfl
  · exact ⟨s, _, if_pos hactive, h⟩

/-- A client that is opened on a channel below zero has no counter. -/
theorem Holds.configNode_eq_none (h : Holds s (node.client.toList ++ others))
    (hfew : others.length < outputServerMaxNum) (henv : env.Opens)
    (hlt : config.streamChannel < streamMaxChannel) (hopens : ¬ config.Opens) :
    multicastNodeConfig config env node s = none := by
  rw [StreamOutputServerConfig.Opens, Classical.not_imp] at hopens
  obtain ⟨hactive, hneg⟩ := hopens
  obtain ⟨s₁, hclose, h₁⟩ := h.closeNode
  obtain ⟨i, hget, hi⟩ := h₁.getFree hfew
  rw [multicastNodeConfig, if_neg (not_not.mpr hactive), hclose, Option.bind_some,
    multicastNodeActivate, hget]
  change Option.map _ (streamClientOpen _ _ _ i config.streamChannel env s₁) = _
  rw [streamClientOpen, if_neg (by omega), if_neg (by have hle := henv.1; omega),
    if_neg (by have hle := henv.2; omega), multSetActive_eq_none fun hhas => hneg hhas.1]
  rfl

/-! ### The list -/

/-- The clients that the nodes hold. -/
def MulticastServer.heldClients (t : MulticastServer) : List ClientSlot :=
  t.nodes.filterMap MulticastNode.client

/-- The nodes hold the clients in use, and there are not more of them than clients. -/
structure MulticastServer.Sound (t : MulticastServer) : Prop where
  holds : Holds t.clients t.heldClients
  few : t.nodes.length ≤ multicastMaxServerNum

variable {t : MulticastServer}

theorem perm_clients (node : MulticastNode) (l₁ l₂ : List MulticastNode) :
    ((l₁ ++ node :: l₂).filterMap MulticastNode.client).Perm
      (node.client.toList ++ (l₁ ++ l₂).filterMap MulticastNode.client) := by
  refine (List.perm_middle.filterMap _).trans ?_
  rw [List.filterMap_cons]
  obtain hnone | ⟨i, hi⟩ := Option.eq_none_or_eq_some node.client
  · rw [hnone]
    exact List.Perm.refl _
  · rw [hi]
    exact List.Perm.refl _

theorem length_clients_le (l : List MulticastNode) :
    (l.filterMap MulticastNode.client).length ≤ l.length :=
  List.length_filterMap_le _ _

/-- A new node is configured beside the others. -/
theorem MulticastServer.Sound.create (h : t.Sound) :
    Holds t.clients (multicastNodeCreate.client.toList ++ t.heldClients) :=
  h.holds

/-- A node of the list among the others. -/
theorem MulticastServer.Sound.split (h : t.Sound) {idx : ℕ} {node : MulticastNode}
    (hnode : t.nodes[idx]? = some node) :
    ∃ l₁ l₂, t.nodes = l₁ ++ node :: l₂ ∧ l₁.length = idx ∧
      Holds t.clients (node.client.toList ++ (l₁ ++ l₂).filterMap MulticastNode.client) ∧
      (l₁ ++ l₂).length < multicastMaxServerNum := by
  obtain ⟨hlt, hget⟩ := List.getElem?_eq_some_iff.mp hnode
  obtain ⟨l₁, l₂, heq, hlen, -⟩ := @List.exists_of_set _ idx node _ hlt
  rw [hget] at heq
  refine ⟨l₁, l₂, heq, hlen, ?_, ?_⟩
  · refine h.holds.perm ?_
    rw [MulticastServer.heldClients, heq]
    exact perm_clients node l₁ l₂
  · have hfew := h.few
    rw [heq, List.length_append, List.length_cons] at hfew
    rw [List.length_append]
    omega

/-- The list after the node at a place has changed. -/
theorem sound_of_split {clients : StreamClients} {l₁ l₂ : List MulticastNode}
    (h : Holds clients (node.client.toList ++ (l₁ ++ l₂).filterMap MulticastNode.client))
    (hfew : (l₁ ++ l₂).length < multicastMaxServerNum) :
    MulticastServer.Sound ⟨clients, l₁ ++ node :: l₂⟩ where
  holds := h.perm (perm_clients node l₁ l₂).symm
  few := by
    change (l₁ ++ node :: l₂).length ≤ _
    rw [List.length_append] at hfew ⊢
    rw [List.length_cons]
    omega

/-- **A node is added.** -/
theorem MulticastServer.Sound.inset (h : t.Sound) (henv : env.Opens)
    (hlt : config.streamChannel < streamMaxChannel) :
    ((t.nodes.length < multicastMaxServerNum → config.Opens) →
        ∃ t', (multicastListInsetNode config env t).map Prod.fst = some t' ∧ t'.Sound) ∧
      (¬ (t.nodes.length < multicastMaxServerNum → config.Opens) →
        (multicastListInsetNode config env t).map Prod.fst = none) := by
  by_cases hfull : t.nodes.length < multicastMaxServerNum
  · rw [forall_prop_of_true hfull, multicastListInsetNode, if_neg (Nat.not_le.mpr hfull)]
    have hfew := (length_clients_le t.nodes).trans_lt hfull
    refine ⟨fun hopens => ?_, fun hopens => ?_⟩
    · obtain ⟨clients, node, heq, hholds⟩ := h.create.configNode hfew henv hlt hopens
      rw [heq]
      refine ⟨⟨clients, t.nodes ++ [node]⟩, rfl, sound_of_split ?_ ?_⟩
      · rw [List.append_nil]
        exact hholds
      · rwa [List.append_nil]
    · rw [h.create.configNode_eq_none hfew henv hlt hopens]
      rfl
  · have heq : multicastListInsetNode config env t = some (t, -1) :=
      if_pos (Nat.not_lt.mp hfull)
    rw [heq]
    exact ⟨fun _ => ⟨t, rfl, h⟩, fun hnot => absurd (fun hlt => absurd hlt hfull) hnot⟩

/-- **A node of the list is configured.** -/
theorem MulticastServer.Sound.reconfig (h : t.Sound) (idx : ℕ) (henv : env.Opens)
    (hlt : config.streamChannel < streamMaxChannel) :
    ((idx < t.nodes.length → config.Opens) →
        ∃ t', (multicastListConfigNode idx config env t).map Prod.fst = some t' ∧ t'.Sound) ∧
      (¬ (idx < t.nodes.length → config.Opens) →
        (multicastListConfigNode idx config env t).map Prod.fst = none) := by
  obtain hnone | ⟨node, hnode⟩ := Option.eq_none_or_eq_some t.nodes[idx]?
  · have hout : ¬ idx < t.nodes.length := Nat.not_lt.mpr (List.getElem?_eq_none_iff.mp hnone)
    rw [multicastListConfigNode, hnone]
    exact ⟨fun _ => ⟨t, rfl, h⟩, fun hnot => absurd (fun hin => absurd hin hout) hnot⟩
  · obtain ⟨hin, -⟩ := List.getElem?_eq_some_iff.mp hnode
    obtain ⟨l₁, l₂, hnodes, hlen, hholds, hfew⟩ := h.split hnode
    have hless := (length_clients_le (l₁ ++ l₂)).trans_lt hfew
    rw [forall_prop_of_true hin, multicastListConfigNode, hnode]
    refine ⟨fun hopens => ?_, fun hopens => ?_⟩
    · obtain ⟨clients, node', heq, hholds'⟩ := hholds.configNode hless henv hlt hopens
      have hset : t.nodes.set idx node' = l₁ ++ node' :: l₂ := by
        rw [hnodes, ← hlen, List.set_append_right _ _ le_rfl, Nat.sub_self]
        rfl
      refine ⟨⟨clients, l₁ ++ node' :: l₂⟩, ?_, sound_of_split hholds' hfew⟩
      rw [← hset]
      change Option.map _ (Option.map _ (multicastNodeConfig config env node t.clients)) = _
      rw [heq]
      rfl
    · change Option.map _ (Option.map _ (multicastNodeConfig config env node t.clients)) = _
      rw [hholds.configNode_eq_none hless henv hlt hopens]
      rfl

/-- **A node is deleted.** -/
theorem MulticastServer.Sound.delete (h : t.Sound) (idx : ℕ) :
    ((∀ node ∈ t.nodes[idx]?, node.client = none) →
        ∃ t', (multicastListDeleteNode idx t).map Prod.fst = some t' ∧ t'.Sound) ∧
      (¬ (∀ node ∈ t.nodes[idx]?, node.client = none) →
        (multicastListDeleteNode idx t).map Prod.fst = none) := by
  rw [multicastListDeleteNode]
  obtain hnone | ⟨node, hnode⟩ := Option.eq_none_or_eq_some t.nodes[idx]?
  · rw [hnone]
    exact ⟨fun _ => ⟨t, rfl, h⟩, fun hnot => absurd (fun _ hmem => absurd hmem (by simp)) hnot⟩
  · obtain ⟨l₁, l₂, hnodes, hlen, hholds, hfew⟩ := h.split hnode
    have hclient : (∀ node ∈ t.nodes[idx]?, node.client = none) ↔ node.client = none := by
      rw [hnode]
      simp
    rw [hclient, hnode]
    change (_ → ∃ t', Option.map _ ((streamClientClose node.client t.clients).bind fun clients =>
      (streamClientClose node.client clients).map _) = some t' ∧ _) ∧ (_ → Option.map _
      ((streamClientClose node.client t.clients).bind fun clients =>
      (streamClientClose node.client clients).map _) = none)
    obtain hfree | ⟨i, hi⟩ := Option.eq_none_or_eq_some node.client
    · rw [hfree] at hholds ⊢
      have herase : t.nodes.eraseIdx idx = l₁ ++ l₂ := by
        rw [hnodes, ← hlen, List.eraseIdx_append_of_length_le le_rfl, Nat.sub_self]
        rfl
      refine ⟨fun _ => ⟨⟨t.clients, l₁ ++ l₂⟩, ?_, hholds, hfew.le⟩, fun hnot => absurd rfl hnot⟩
      rw [← herase]
      rfl
    · rw [hi] at hholds ⊢
      refine ⟨fun hfree => absurd hfree (by simp), fun _ => ?_⟩
      have htwice := Holds.closeTwice hholds
      obtain ⟨s', heq, -, -⟩ := Holds.close hholds
      rw [heq, Option.bind_some] at htwice ⊢
      rw [htwice]
      rfl

/-- **One operation.** -/
theorem MulticastServer.Sound.step (h : t.Sound) {op : MulticastOp} (hop : op.Proper) :
    (NoClientDeleted t op → ∃ t', multicastStep t op = some t' ∧ t'.Sound) ∧
      (¬ NoClientDeleted t op → multicastStep t op = none) := by
  cases op with
  | inset config env => exact h.inset hop.2 hop.1
  | reconfig idx config env => exact h.reconfig idx hop.2 hop.1
  | delete idx => exact h.delete idx

/-- **The counters of the clients.** With channels below the bound and sockets that open, the counters
are right after every operation, and none was looked for that does not exist, exactly when no node is
deleted that has a client and no client is opened on a channel below zero. -/
theorem counted_iff_noClientDeleted {ops : List MulticastOp} (hops : ∀ op ∈ ops, op.Proper) :
    (∀ pre, pre <+: ops → ∃ t, pre.foldlM multicastStep .init = some t ∧ t.clients.Counted) ↔
      Run.AlongSome multicastStep NoClientDeleted .init ops := by
  have hinit : MulticastServer.init.Sound := ⟨holds_init, Nat.zero_le _⟩
  refine Run.forall_prefix_iff (I := MulticastServer.Sound) (fun t ht => ht.holds.counted)
    (fun t ht op hop hfine => (ht.step (hops op hop)).1 hfine) (fun t ht op hop hnot t' heq => ?_)
    hinit
  rw [(ht.step (hops op hop)).2 hnot] at heq
  exact absurd heq (by simp)

/-- An active server that sends TS on a channel. -/
def tsConfig (channel : ℤ) : StreamOutputServerConfig :=
  ⟨0, typeTs, sActive, ['2', '2', '4', '.', '0', '.', '0', '.', '1'], 4000, 4000, 1500, 64, 0, 0, 0, channel, 0⟩

/-- Sockets that open. -/
def someSockets : OpenEnv := ⟨5, 6, some (1920, 1080, 48000)⟩

/-- A server that is added and moved to another channel. -/
theorem counted_iff_noClientDeleted_sample :
    (∀ pre, pre <+: [.inset (tsConfig 1) someSockets, .reconfig 0 (tsConfig 2) someSockets] →
      ∃ t, pre.foldlM multicastStep .init = some t ∧ t.clients.Counted) ↔
      Run.AlongSome multicastStep NoClientDeleted .init
        [.inset (tsConfig 1) someSockets, .reconfig 0 (tsConfig 2) someSockets] :=
  counted_iff_noClientDeleted (by decide)

/-- The server that is deleted after it was added: its client is closed for a channel that is `-1`. -/
theorem deleted_client_is_closed_twice :
    let ops : List MulticastOp := [.inset (tsConfig 1) someSockets, .delete 0]
    (∀ op ∈ ops, op.Proper) ∧ ops.foldlM multicastStep .init = none ∧
      ¬ ∀ pre, pre <+: ops → ∃ t, pre.foldlM multicastStep .init = some t ∧ t.clients.Counted := by
  have hnone : ([.inset (tsConfig 1) someSockets, .delete 0] : List MulticastOp).foldlM
      multicastStep .init = none := by
    decide +kernel
  refine ⟨by decide, hnone, fun h => ?_⟩
  obtain ⟨t, heq, -⟩ := h _ List.prefix_rfl
  exact absurd (heq.symm.trans hnone) (by simp)

end Output

end ReachEdukit
