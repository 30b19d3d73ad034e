import ReachEdukit.Lib.Slots

/-!
# The clients of the stream output

The encoder sends its streams to eight clients: multicast servers and RTSP sessions, which share one
table. For each channel three counters say how many clients there are that get plain TS, RTP, and TS
over RTP; `stream_client_open` and `stream_client_close` keep them by hand.

A channel that is not one of the four has no counter. The answer of a function that would count it is
`none`.

## What is left out

Sending, what is set in the sockets that are open, and closing them. Whether the sockets open, and
what `app_get_media_info` answers, are arguments.

## Main definitions

* `StreamClients` — the table and the counters
* `streamClientGetFree`, `streamClientIsRepeat` — looking for a slot
* `streamClientOpen`, `streamClientClose`, `multSetActive` — what is counted
* `StreamClients.Counted` — the counters are right

## Main results

* `StreamClients.Counted.open`, `StreamClients.Counted.close` — they stay right
-/

namespace ReachEdukit

namespace Output

/-- `OUTPUT_SERVER_MAX_NUM`. -/
def outputServerMaxNum : ℕ := 8

/-- `STREAM_MAX_CHANNEL`. -/
def streamMaxChannel : ℕ := 4

/-- `TYPE_TS`. -/
def typeTs : ℤ := 1

/-- `TYPE_RTP`. -/
def typeRtp : ℤ := 2

/-- `TYPE_TS_OVER_RTP`. -/
def typeTsOverRtp : ℤ := 4

/-- `struct sockaddr_in`. -/
structure SockaddrIn where
  sinFamily : ℕ
  sinPort : ℕ
  sinAddr : ℕ
  deriving DecidableEq, Repr

/-- An address that is all zeros. -/
def SockaddrIn.zero : SockaddrIn := ⟨0, 0, 0⟩

/-- `Stream_Output_Client`. -/
structure StreamOutputClient where
  /-- The number of the slot. -/
  num : ℕ
  /-- `SERVER_TYPE`. -/
  type : ℤ
  /-- The slot is in use. -/
  cUsed : Bool
  /-- How many sessions use it. -/
  usenum : ℤ
  videoAddr : SockaddrIn
  audioAddr : SockaddrIn
  videoSocket : ℤ
  audioSocket : ℤ
  width : ℤ
  height : ℤ
  samplerate : ℤ
  /-- The three above are known. -/
  mediaStatus : ℤ
  /-- How much video was sent, up to fifty. -/
  videoSend : ℤ
  /-- `-1` after the client is closed. -/
  streamChannel : ℤ
  deriving DecidableEq, Repr

/-- A client that is all zeros, but for its number. -/
def StreamOutputClient.zero (num : ℕ) : StreamOutputClient :=
  ⟨num, 0, false, 0, .zero, .zero, 0, 0, 0, 0, 0, 0, 0, 0⟩

/-- The three counters: `g_direct_ts_active`, `g_direct_rtp_active`, `g_rtp_over_ts_active`. -/
inductive Counter
  | directTs
  | directRtp
  | rtpOverTs
  deriving DecidableEq, Repr

/-- The counter of a type. -/
def counterOf (type : ℤ) : Option Counter :=
  if type = typeTs then some .directTs
  else if type = typeRtp then some .directRtp
  else if type = typeTsOverRtp then some .rtpOverTs
  else none

/-- A slot of the table. -/
abbrev ClientSlot := Fin outputServerMaxNum

/-- `g_stream_client` and the counters. -/
structure StreamClients where
  /-- The clients. -/
  client : ClientSlot → StreamOutputClient
  /-- The counters of each channel. -/
  active : Counter → Fin streamMaxChannel → ℤ

/-- `stream_client_init`. -/
def StreamClients.init : StreamClients := ⟨fun i => .zero i.val, fun _ _ => 0⟩

/-- The slot `i` is set. -/
def StreamClients.put (s : StreamClients) (i : ClientSlot) (c : StreamOutputClient) :
    StreamClients :=
  { s with client := Function.update s.client i c }

/-- `mult_set_active`; a channel without a counter has no answer. -/
def multSetActive (type status channel : ℤ) (s : StreamClients) : Option StreamClients :=
  if h : 0 ≤ channel ∧ channel < streamMaxChannel then
    some { s with active := fun k c =>
      if counterOf type = some k ∧ c = ⟨channel.toNat, by omega⟩ then s.active k c + status
      else s.active k c }
  else none

/-- `stream_client_get_free`. -/
def streamClientGetFree (s : StreamClients) : Option ClientSlot :=
  (List.finRange _).find? fun i => !(s.client i).cUsed

/-- `stream_client_is_repeat`. -/
def streamClientIsRepeat (videoAddr : SockaddrIn) (s : StreamClients) : Option ClientSlot :=
  (List.finRange _).find? fun i => (s.client i).cUsed && (s.client i).videoAddr = videoAddr

/-- What a client is opened with: the sockets that `socket` gives, and what `app_get_media_info`
answers. -/
structure OpenEnv where
  videoSocket : ℤ
  audioSocket : ℤ
  /-- Width, height and sample rate, `none` when it fails. -/
  media : Option (ℤ × ℤ × ℤ)
  deriving Repr

/-- The sockets open. -/
def OpenEnv.Opens (env : OpenEnv) : Prop := 0 ≤ env.videoSocket ∧ 0 ≤ env.audioSocket

instance (env : OpenEnv) : Decidable env.Opens := inferInstanceAs (Decidable (_ ∧ _))

/-- The client that `stream_client_open` leaves in its slot. -/
def openedClient (videoAddr audioAddr : SockaddrIn) (type : ℤ) (num : ℕ) (channel : ℤ)
    (env : OpenEnv) : StreamOutputClient where
  num := num
  type := type
  cUsed := true
  usenum := 1
  videoAddr := videoAddr
  audioAddr := if audioAddr.sinPort ≠ 0 then audioAddr else .zero
  videoSocket := env.videoSocket
  audioSocket := if audioAddr.sinPort ≠ 0 then env.audioSocket else 0
  width := env.media.elim 0 fun m => m.1
  height := env.media.elim 0 fun m => m.2.1
  samplerate := env.media.elim 0 fun m => m.2.2
  mediaStatus := if env.media.isSome then 1 else 0
  videoSend := 0
  streamChannel := channel

/-- `stream_client_open`: the slot is cleared before the sockets are made. -/
def streamClientOpen (videoAddr audioAddr : SockaddrIn) (type : ℤ) (i : ClientSlot) (channel : ℤ)
    (env : OpenEnv) (s : StreamClients) : Option (StreamClients × ℤ) :=
  let cleared := StreamOutputClient.zero (s.client i).num
  if channel ≥ streamMaxChannel then some (s, -1)
  else if env.videoSocket < 0 then some (s.put i cleared, -1)
  else if audioAddr.sinPort ≠ 0 ∧ env.audioSocket < 0 then
    some (s.put i { cleared with videoAddr := videoAddr, videoSocket := env.videoSocket }, -1)
  else
    (multSetActive type 1 channel (s.put i
      (openedClient videoAddr audioAddr type (s.client i).num channel env))).map fun s' => (s', 0)

/-- The client that `stream_client_close` leaves in its slot. -/
def StreamOutputClient.closed (client : StreamOutputClient) : StreamOutputClient :=
  { client with
    cUsed := false
    usenum := 0
    width := 0
    height := 0
    samplerate := 0
    mediaStatus := 0
    videoSend := 0
    streamChannel := -1 }

/-- `stream_client_close`, `none` for a client that is `NULL`. -/
def streamClientClose (client : Option ClientSlot) (s : StreamClients) : Option StreamClients :=
  match client with
  | none => some s
  | some i =>
    (multSetActive (s.client i).type (-1) (s.client i).streamChannel s).map fun s' =>
      s'.put i (s.client i).closed

/-! ### What is counted -/

/-- The client is one that the counter `k` of the channel `c` counts. -/
def StreamOutputClient.counts (k : Counter) (c : Fin streamMaxChannel) (client : StreamOutputClient) :
    Bool :=
  client.cUsed && counterOf client.type = some k && client.streamChannel = c.val

/-- Every counter is the number of the clients in use of its type on its channel. -/
def StreamClients.Counted (s : StreamClients) : Prop :=
  ∀ k c, s.active k c = Slots.count (StreamOutputClient.counts k c) s.client

instance (s : StreamClients) : Decidable s.Counted :=
  have : Fintype Counter := ⟨{.directTs, .directRtp, .rtpOverTs}, fun k => by cases k <;> simp⟩
  inferInstanceAs (Decidable (∀ k c, _ = _))

variable {s s' : StreamClients} {i : ClientSlot}

/-- The channel has counters. -/
def HasCounters (channel : ℤ) : Prop := 0 ≤ channel ∧ channel < streamMaxChannel

instance (channel : ℤ) : Decidable (HasCounters channel) := inferInstanceAs (Decidable (_ ∧ _))

theorem multSetActive_eq_none {type status channel : ℤ} (h : ¬ HasCounters channel) :
    multSetActive type status channel s = none :=
  dif_neg h

/-- One counter of the channel is changed, or none. -/
theorem multSetActive_eq_some {channel : ℤ} (type status : ℤ) (s : StreamClients)
    (h : HasCounters channel) :
    ∃ s', multSetActive type status channel s = some s' ∧ s'.client = s.client ∧
      ∀ k c, s'.active k c =
        s.active k c + if counterOf type = some k ∧ channel = c.val then status else 0 := by
  refine ⟨_, dif_pos h, rfl, fun k c => ?_⟩
  have hc : c = ⟨channel.toNat, by obtain ⟨h₁, h₂⟩ := h; omega⟩ ↔ channel = c.val := by
    obtain ⟨h₁, h₂⟩ := h
    rw [Fin.ext_iff]
    change c.val = channel.toNat ↔ _
    omega
  simp only [hc]
  split_ifs
  · rfl
  · rw [add_zero]

theorem counts_of_not_used {k : Counter} {c : Fin streamMaxChannel} {client : StreamOutputClient}
    (h : client.cUsed = false) : client.counts k c = false := by
  rw [StreamOutputClient.counts, h]
  rfl

theorem counts_eq {k : Counter} {c : Fin streamMaxChannel} {client : StreamOutputClient}
    (h : client.cUsed = true) : ((client.counts k c).toNat : ℤ) =
      if counterOf client.type = some k ∧ client.streamChannel = c.val then 1 else 0 := by
  rw [StreamOutputClient.counts, h, Bool.true_and]
  split_ifs with hcounts
  · simp [hcounts.1, hcounts.2]
  · rcases Decidable.not_and_iff_or_not.mp hcounts with hnot | hnot <;> simp [hnot]

/-- The counters and the table after one slot has changed, and the counter of its type with it. -/
theorem StreamClients.Counted.of_put (h : s.Counted) {client : StreamOutputClient}
    (hclient : s'.client = Function.update s.client i client)
    (hactive : ∀ k c, s'.active k c + ((s.client i).counts k c).toNat =
      s.active k c + (client.counts k c).toNat) : s'.Counted := by
  intro k c
  have hcount := Slots.count_update (StreamOutputClient.counts k c) s.client i client
  rw [← hclient] at hcount
  have hs := h k c
  have hs' := hactive k c
  omega

/-- **A client is opened** in a free slot. -/
theorem StreamClients.Counted.open (h : s.Counted) (hfree : (s.client i).cUsed = false)
    {env : OpenEnv} (henv : env.Opens) {channel : ℤ} (hchannel : HasCounters channel)
    (videoAddr audioAddr : SockaddrIn) (type : ℤ) :
    ∃ s', streamClientOpen videoAddr audioAddr type i channel env s = some (s', 0) ∧
      s'.client = Function.update s.client i
        (openedClient videoAddr audioAddr type (s.client i).num channel env) ∧ s'.Counted := by
  obtain ⟨client, hopened⟩ : ∃ client,
      openedClient videoAddr audioAddr type (s.client i).num channel env = client := ⟨_, rfl⟩
  obtain ⟨s', heq, hclient, hactive⟩ := multSetActive_eq_some type 1 (s.put i client) hchannel
  refine ⟨s', ?_, by rw [hclient, hopened]; rfl, h.of_put (hclient.trans rfl) fun k c => ?_⟩
  · rw [streamClientOpen, if_neg (by have hlt := hchannel.2; omega),
      if_neg (by have hle := henv.1; omega), if_neg (by have hle := henv.2; omega), hopened, heq]
    rfl
  · have hused : client.cUsed = true := by rw [← hopened]; rfl
    rw [hactive, counts_of_not_used hfree, counts_eq hused, ← hopened]
    change s.active k c + _ + 0 = s.active k c + _
    rw [add_zero]
    rfl

/-- **A client is closed.** -/
theorem StreamClients.Counted.close (h : s.Counted) (hused : (s.client i).cUsed = true)
    (hchannel : HasCounters (s.client i).streamChannel) :
    ∃ s', streamClientClose (some i) s = some s' ∧
      s'.client = Function.update s.client i (s.client i).closed ∧ s'.Counted := by
  obtain ⟨s', heq, hclient, hactive⟩ := multSetActive_eq_some (s.client i).type (-1) s hchannel
  have hput : (s'.put i (s.client i).closed).client =
      Function.update s.client i (s.client i).closed := by
    rw [← hclient]
    rfl
  refine ⟨s'.put i (s.client i).closed, ?_, hput, h.of_put hput fun k c => ?_⟩
  · rw [streamClientClose, heq]
    rfl
  · change s'.active k c + _ = _
    have hclosed : (s.client i).closed.cUsed = false := rfl
    rw [hactive, counts_of_not_used hclosed, counts_eq hused]
    split_ifs <;> simp

/-- A client whose channel has no counter cannot be closed. -/
theorem streamClientClose_eq_none (h : ¬ HasCounters (s.client i).streamChannel) :
    streamClientClose (some i) s = none := by
  rw [streamClientClose, multSetActive_eq_none h]
  rfl

theorem getFree_spec (h : streamClientGetFree s = some i) : (s.client i).cUsed = false := by
  simpa using List.find?_some h

theorem getFree_eq_none (h : streamClientGetFree s = none) (i : ClientSlot) :
    (s.client i).cUsed = true := by
  simpa using List.find?_eq_none.mp h i (List.mem_finRange i)

/-- While fewer clients are in use than there are slots, one is free. -/
theorem exists_getFree {held : List ClientSlot} (hused : ∀ i, (s.client i).cUsed = true → i ∈ held)
    (hfew : held.length < outputServerMaxNum) : ∃ i, streamClientGetFree s = some i := by
  obtain hnone | hsome := Option.eq_none_or_eq_some (streamClientGetFree s)
  · have hle : (List.finRange outputServerMaxNum).length ≤ held.length :=
      ((List.nodup_finRange _).subperm fun i _ => hused i (getFree_eq_none hnone i)).length_le
    rw [List.length_finRange] at hle
    omega
  · exact hsome

theorem isRepeat_spec {videoAddr : SockaddrIn} (h : streamClientIsRepeat videoAddr s = some i) :
    (s.client i).cUsed = true ∧ (s.client i).videoAddr = videoAddr := by
  simpa using List.find?_some h

theorem isRepeat_eq_none {videoAddr : SockaddrIn} (h : streamClientIsRepeat videoAddr s = none)
    (i : ClientSlot) (hused : (s.client i).cUsed = true) : (s.client i).videoAddr ≠ videoAddr := by
  have hnot := List.find?_eq_none.mp h i (List.mem_finRange i)
  simpa [hused] using hnot

end Output

end ReachEdukit
