import Glopfile.Relay.Positions
import Mathlib.Data.List.Nodup

/-!
# What the relay delivers

The history of a session is read off its trace: what was sent on each downloader's
channel, which buffers were delivered, where each uploader has got to. An uploader sends
`content` when each chunk it sends is the content at its own offset; a chunk the session
refuses does not count, so it may be offered again or given up. The invariant joins the
downloader's position, the uploader's position and the held chunk to this history.
-/

namespace Glopfile.Relay

open EventMachine (Trace)

variable {content : List UInt8} {tr : Trace Command Effect} {s t : State} {c : Command}
  {os os' : List Effect} {events : Sender}

def DownloadEvent.payload : DownloadEvent → List UInt8
  | .more data | .final data => data.data
  | .connectionReplaced => []

def DownloadEvent.buffers : DownloadEvent → List ℕ
  | .more data | .final data => [data.buffer]
  | .connectionReplaced => []

def Effect.payloadOn (events : Sender) : Effect → List UInt8
  | .event e sent => if e = events then sent.payload else []
  | _ => []

def Effect.buffers : Effect → List ℕ
  | .event _ sent => sent.buffers
  | _ => []

def payloadOn (events : Sender) (os : List Effect) : List UInt8 :=
  os.flatMap (Effect.payloadOn events)

def buffersIn (os : List Effect) : List ℕ := os.flatMap Effect.buffers

def received (events : Sender) (tr : Trace Command Effect) : List UInt8 :=
  tr.flatMap fun x => payloadOn events x.2

def delivered (tr : Trace Command Effect) : List ℕ := tr.flatMap fun x => buffersIn x.2

def Command.opening : Command → List (Sender × Position)
  | .startDownload downloader _ => [(downloader.events, downloader.position)]
  | _ => []

def Command.buffers : Command → List ℕ
  | .uploadData _ chunk _ => [chunk.data.buffer]
  | _ => []

def openings (tr : Trace Command Effect) : List (Sender × Position) :=
  tr.flatMap fun x => x.1.opening

def uploaded (tr : Trace Command Effect) : List ℕ := tr.flatMap fun x => x.1.buffers

def Effect.refuses (reply : Waiter) : Effect → Bool
  | .reply waiter (.upload (.error _)) => waiter = reply
  | _ => false

def refused (reply : Waiter) (os : List Effect) : Bool := os.any (Effect.refuses reply)

def Effect.grants (reply : Waiter) : Effect → Bool
  | .reply waiter (.upload (.ok _)) => waiter = reply
  | _ => false

def granted (reply : Waiter) (os : List Effect) : Bool := os.any (Effect.grants reply)

/-- The offset of an uploader after one more step: set where it was allowed to start,
advanced by each chunk that was not refused. -/
def advanceOffset (token : Token) (offset : Option Position) :
    Command × List Effect → Option Position
  | (.startUpload token' position reply, os) =>
    if token' = token ∧ granted reply os then some position else offset
  | (.uploadData token' chunk reply, os) =>
    if token' = token ∧ refused reply os = false then offset.map (· + chunk.len) else offset
  | _ => offset

def uploadOffset (token : Token) (tr : Trace Command Effect) : Option Position :=
  tr.foldl (advanceOffset token) none

/-- Every uploader started at a position sends, in successive chunks, the successive
bytes of `content` from there. -/
def UploadsContent (content : List UInt8) (tr : Trace Command Effect) : Prop :=
  Trace.Each (fun pre c os => ∀ token chunk reply offset,
    c = .uploadData token chunk reply → refused reply os = false →
    uploadOffset token pre = some offset → chunk.data.data <+: content.drop offset) tr

/-- No position plus the length of the chunk sent there reaches `2 ^ 64`. -/
def NoOverflow (tr : Trace Command Effect) : Prop :=
  Trace.Each (fun pre c os => ∀ token chunk reply offset,
    c = .uploadData token chunk reply → refused reply os = false →
    uploadOffset token pre = some offset → offset + chunk.len < 2 ^ 64) tr

def Pending.buffers : Pending → List ℕ
  | .data chunk _ _ _ => [chunk.data.buffer]
  | _ => []

@[simp] theorem payloadOn_nil : payloadOn events [] = [] := rfl

@[simp] theorem payloadOn_cons {o : Effect} :
    payloadOn events (o :: os) = o.payloadOn events ++ payloadOn events os := rfl

@[simp] theorem payloadOn_append :
    payloadOn events (os ++ os') = payloadOn events os ++ payloadOn events os' := by
  simp [payloadOn]

@[simp] theorem buffersIn_nil : buffersIn [] = [] := rfl

@[simp] theorem buffersIn_cons {o : Effect} :
    buffersIn (o :: os) = o.buffers ++ buffersIn os := rfl

@[simp] theorem buffersIn_append : buffersIn (os ++ os') = buffersIn os ++ buffersIn os' := by
  simp [buffersIn]

@[simp] theorem received_snoc :
    received events (tr ++ [(c, os)]) = received events tr ++ payloadOn events os := by
  simp [received]

@[simp] theorem delivered_snoc : delivered (tr ++ [(c, os)]) = delivered tr ++ buffersIn os := by
  simp [delivered]

@[simp] theorem openings_snoc : openings (tr ++ [(c, os)]) = openings tr ++ c.opening := by
  simp [openings]

@[simp] theorem uploaded_snoc : uploaded (tr ++ [(c, os)]) = uploaded tr ++ c.buffers := by
  simp [uploaded]

@[simp] theorem uploadOffset_snoc {token : Token} :
    uploadOffset token (tr ++ [(c, os)]) =
      advanceOffset token (uploadOffset token tr) (c, os) := by
  simp [uploadOffset]

def NoContent (os : List Effect) : Prop :=
  (∀ events, payloadOn events os = []) ∧ buffersIn os = []

@[simp] theorem noContent_nil : NoContent [] := by simp [NoContent]

@[simp] theorem noContent_append : NoContent (os ++ os') ↔ NoContent os ∧ NoContent os' := by
  simp only [NoContent, payloadOn_append, buffersIn_append, List.append_eq_nil_iff]
  grind

@[simp] theorem noContent_reply {waiter : Waiter} {r : Reply} :
    NoContent (.reply waiter r :: os) ↔ NoContent os := by
  simp [NoContent, Effect.payloadOn, Effect.buffers]

@[simp] theorem noContent_websocket {commands : Sender} {command : WebsocketCommand} :
    NoContent (.websocket commands command :: os) ↔ NoContent os := by
  simp [NoContent, Effect.payloadOn, Effect.buffers]

@[simp] theorem noContent_replyUpload {waiter : Waiter} {result : UploadResult} :
    NoContent (replyUpload waiter result :: os) ↔ NoContent os := noContent_reply

@[simp] theorem noContent_replyTo {waiter : Option Waiter} {result : UploadResult} :
    NoContent (replyTo waiter result) := by
  cases waiter <;> simp [replyTo]

@[simp] theorem noContent_sendUploadProgress {peer : Option WebsocketPeer} {position : Position} :
    NoContent (sendUploadProgress peer position) := by
  cases peer <;> simp [sendUploadProgress]

@[simp] theorem noContent_replaceDownloader : NoContent s.replaceDownloader := by
  unfold State.replaceDownloader
  split <;> simp [NoContent, Effect.payloadOn, Effect.buffers, DownloadEvent.payload,
    DownloadEvent.buffers]

@[simp] theorem noContent_evictUploader : NoContent s.evictUploader.2 := by
  obtain ⟨waiter, hw⟩ := s.evictUploader_effects
  rw [hw]
  exact noContent_replyTo

@[simp] theorem noContent_frames {commands : Sender} {frames : List Frame} :
    NoContent (frames.map fun frame => Effect.websocket commands (.send frame)) := by
  induction frames with
  | nil => simp
  | cons frame frames ih => simpa using ih

def SendsTo (e : Sender) (chunk : Chunk) (os : List Effect) : Prop :=
  (∀ events, payloadOn events os = if events = e then chunk.data.data else []) ∧
    buffersIn os = [chunk.data.buffer]

theorem SendsTo.event {e : Sender} {chunk : Chunk} (hos : NoContent os) :
    SendsTo e chunk (.event e chunk.intoEvent :: os) := by
  refine ⟨fun events => ?_, ?_⟩
  · cases chunk <;>
      simp [hos.1, Effect.payloadOn, Chunk.intoEvent, DownloadEvent.payload, Chunk.data, eq_comm]
  · cases chunk <;>
      simp [hos.2, Effect.buffers, Chunk.intoEvent, DownloadEvent.buffers, Chunk.data]

theorem SendsTo.append {e : Sender} {chunk : Chunk} {before after : List Effect}
    (h : SendsTo e chunk os) (hbefore : NoContent before) (hafter : NoContent after) :
    SendsTo e chunk (before ++ os ++ after) := by
  refine ⟨fun events => ?_, ?_⟩
  · simp [hbefore.1, hafter.1, h.1]
  · simp [hbefore.2, hafter.2, h.2]

structure Streams (content : List UInt8) (tr : Trace Command Effect) (s : State) : Prop where
  agree : PositionsAgree s
  source : ∀ u, s.uploader = some u → uploadOffset u.token tr = some u.position
  held : ∀ chunk waiter position size, s.pending = .data chunk waiter position size →
    chunk.data.data <+: content.drop position ∧ size = chunk.len ∧ position + size < 2 ^ 64
  current : ∀ d, s.downloader = .connected d → ∃ start, (d.events, start) ∈ openings tr ∧
    d.position = start + (received d.events tr).length
  streams : ∀ events start, (events, start) ∈ openings tr →
    received events tr <+: content.drop start
  unopened : ∀ events, events ∉ (openings tr).map Prod.fst → received events tr = []
  once : (delivered tr ++ s.pending.buffers).Sublist (uploaded tr)

theorem prefix_append_of_drop {a b l : List UInt8} {start : ℕ} (ha : a <+: l.drop start)
    (hb : b <+: l.drop (start + a.length)) : a ++ b <+: l.drop start := by
  obtain ⟨rest, hrest⟩ := ha
  have hdrop : l.drop (start + a.length) = rest := by
    rw [← List.drop_drop, ← hrest, List.drop_left]
  rw [← hrest, List.prefix_append_right_inj, ← hdrop]
  exact hb

theorem opening_unique {start start' : Position} (hfresh : ((openings tr).map Prod.fst).Nodup)
    (h : (events, start) ∈ openings tr) (h' : (events, start') ∈ openings tr) :
    start = start' :=
  congrArg Prod.snd (List.inj_on_of_nodup_map hfresh h h' rfl)

namespace Streams

theorem spawn {metadata : String} : Streams content [] (Session.spawn metadata).state where
  agree := .spawn
  source := by simp [Session.spawn]
  held := by simp [Session.spawn]
  current := by simp [Session.spawn]
  streams := by simp [openings]
  unopened := by simp [received]
  once := by simp [delivered, uploaded, Session.spawn, Pending.buffers]

theorem frame (h : Streams content tr s) (hagree : PositionsAgree t) (hos : NoContent os)
    (hopen : c.opening = [])
    (hoffset : ∀ u, t.uploader = some u → s.uploader = some u ∧
      ∀ offset, advanceOffset u.token offset (c, os) = offset)
    (hdown : ∀ d, t.downloader = .connected d → s.downloader = .connected d)
    (hpend : ∀ chunk waiter position size, t.pending = .data chunk waiter position size →
      ∃ waiter', s.pending = .data chunk waiter' position size) :
    Streams content (tr ++ [(c, os)]) t where
  agree := hagree
  source u hu := by
    obtain ⟨hu', hadv⟩ := hoffset u hu
    rw [uploadOffset_snoc, hadv]
    exact h.source u hu'
  held chunk waiter position size hp := by
    obtain ⟨waiter', hp'⟩ := hpend _ _ _ _ hp
    exact h.held _ _ _ _ hp'
  current d hd := by
    simpa [hopen, hos.1] using h.current d (hdown d hd)
  streams events start hmem := by
    simp only [openings_snoc, hopen, List.append_nil] at hmem
    simpa [hos.1] using h.streams events start hmem
  unopened events hmem := by
    simp only [openings_snoc, hopen, List.append_nil] at hmem
    simpa [hos.1] using h.unopened events hmem
  once := by
    have hsub : t.pending.buffers.Sublist s.pending.buffers := by
      cases hp : t.pending with
      | none => simp [Pending.buffers]
      | error e => simp [Pending.buffers]
      | data chunk waiter position size =>
        obtain ⟨waiter', hp'⟩ := hpend _ _ _ _ hp
        simp [hp', Pending.buffers]
    rw [delivered_snoc, hos.2, List.append_nil, uploaded_snoc]
    exact ((hsub.append_left _).trans h.once).trans (List.sublist_append_left _ _)

theorem startDownload (h : Streams content tr s) {downloader : Downloader} {reply : Waiter}
    (hfresh : downloader.events ∉ (openings tr).map Prod.fst) :
    Streams content
      (tr ++ [(.startDownload downloader reply,
        (s.handle (.startDownload downloader reply)).effects)])
      (s.startDownload downloader).1 := by
  have hnew : received downloader.events tr = [] := h.unopened _ hfresh
  have hpend : (s.startDownload downloader).1.pending.buffers = [] := by
    rcases s.startDownload_pending downloader with ⟨hp, _⟩ | hp <;> rw [hp] <;> rfl
  have hother : ∀ events start, (events, start) ∈ openings tr → events ≠ downloader.events := by
    rintro events start hmem rfl
    exact hfresh (List.mem_map_of_mem hmem)
  have hno : ∀ chunk waiter position size,
      (s.startDownload downloader).1.pending ≠ .data chunk waiter position size := by
    intro chunk waiter position size hp
    simp [hp, Pending.buffers] at hpend
  -- What the step sends to `downloader`, and nothing to anybody else.
  obtain ⟨sent, hpay, hbuf, hprefix, hpos⟩ : ∃ sent,
      (∀ events, payloadOn events (s.handle (.startDownload downloader reply)).effects =
        if events = downloader.events then sent else []) ∧
      (delivered tr ++ buffersIn (s.handle (.startDownload downloader reply)).effects).Sublist
        (uploaded tr) ∧
      sent <+: content.drop downloader.position ∧
      (s.releasePending downloader).1.position = downloader.position + sent.length := by
    have hdone : NoContent [Effect.reply reply .done] := by simp
    simp only [State.handle, State.startDownload_effects]
    rcases s.releasePending_cases downloader with
      ⟨chunk, waiter, size, hp, hr⟩ | hr
    · obtain ⟨hchunk, rfl, hlt⟩ := h.held _ _ _ _ hp
      have honce := h.once
      rw [hp] at honce
      have hsends : SendsTo downloader.events chunk
          (s.replaceDownloader ++ (s.releasePending downloader).2 ++ [.reply reply .done]) := by
        rw [hr]
        exact (SendsTo.event (by simp)).append noContent_replaceDownloader hdone
      refine ⟨chunk.data.data, hsends.1, by rwa [hsends.2], hchunk, ?_⟩
      rw [hr]
      exact Nat.mod_eq_of_lt hlt
    · have hnone : NoContent
          (s.replaceDownloader ++ (s.releasePending downloader).2 ++ [.reply reply .done]) := by
        simp [hr]
      refine ⟨[], fun events => (hnone.1 events).trans (ite_self _).symm, ?_, List.nil_prefix,
        by simp [hr]⟩
      rw [hnone.2, List.append_nil]
      exact (List.sublist_append_left _ _).trans h.once
  constructor
  · exact .startDownload
  · intro u hu
    rw [State.startDownload_uploader] at hu
    simpa [advanceOffset] using h.source u hu
  · intro chunk waiter position size hp
    exact absurd hp (hno _ _ _ _)
  · intro d hd
    simp only [State.startDownload_downloader, DownloaderSlot.connected.injEq] at hd
    subst hd
    exact ⟨downloader.position, by simp [Command.opening], by simp [hpay, hnew, hpos]⟩
  · intro events start hmem
    simp only [openings_snoc, Command.opening, List.mem_append, List.mem_singleton,
      Prod.mk.injEq] at hmem
    rcases hmem with hmem | ⟨rfl, rfl⟩
    · simpa [hpay, hother _ _ hmem] using h.streams _ _ hmem
    · simpa [hpay, hnew] using hprefix
  · intro events hmem
    simp only [openings_snoc, Command.opening, List.map_append, List.map_cons, List.map_nil,
      List.mem_append, List.mem_singleton, not_or] at hmem
    simpa [hpay, hmem.2] using h.unopened _ hmem.1
  · simpa [hpend, Command.buffers] using hbuf

theorem startUpload (h : Streams content tr s) {token : Token} {position : Position}
    {reply : Waiter} :
    Streams content
      (tr ++ [(.startUpload token position reply,
        (s.handle (.startUpload token position reply)).effects)])
      (s.startUpload token position reply).1 := by
  have hagree := h.agree.startUpload token position reply
  simp only [State.handle]
  rcases s.startUpload_cases token position reply with
    ⟨error, _, hs⟩ | ⟨_, hs⟩
  · refine h.frame hagree (by simp [hs]) rfl (by simp [hs]) (by simp [hs]) ?_
    intro chunk waiter p n hp
    rw [hs] at hp
    exact s.evictUploader_data hp
  · rw [hs] at hagree ⊢
    have hpend : ∀ chunk waiter p n,
        s.evictUploader.1.pending.clearError = .data chunk waiter p n →
        ∃ waiter', s.pending = .data chunk waiter' p n := fun _ _ _ _ hp =>
      s.evictUploader_data (Pending.eq_data_of_clearError hp)
    -- The uploader gone, this is a frame step; then the new one is at its own offset.
    have hframe : Streams content
        (tr ++ [(.startUpload token position reply,
          s.evictUploader.2 ++ sendUploadProgress s.evictUploader.1.uploaderWs position ++
            [replyUpload reply (.ok ())])])
        { s.evictUploader.1 with pending := s.evictUploader.1.pending.clearError } :=
      h.frame { no_data := hagree.no_data, level := by simp, held := by simp, resume := by simp }
        (by simp) rfl (by simp) (by simp) hpend
    refine ⟨hagree, ?_, hframe.held, hframe.current, hframe.streams, hframe.unopened,
      hframe.once⟩
    rintro u ⟨rfl⟩
    simp [advanceOffset, granted, Effect.grants, replyUpload]

theorem forwards (h : Streams content tr s) {u : Uploader} {d : Downloader} {chunk : Chunk}
    {reply : Waiter} {t : State} (hfresh : ((openings tr).map Prod.fst).Nodup)
    (hu : s.uploader = some u) (hd : s.downloader = .connected d) (hp : s.pending = .none)
    (ht : t = { s with
      uploader := some { u with position := u.position + chunk.len }
      downloader := .connected { d with position := u.position + chunk.len } })
    (hagree : PositionsAgree t) (hrefused : refused reply os = false)
    (hsends : SendsTo d.events chunk os) (hchunk : chunk.data.data <+: content.drop u.position) :
    Streams content (tr ++ [(.uploadData u.token chunk reply, os)]) t := by
  have hsource := h.source u hu
  have hlevel := h.agree.level d u hd hu hp
  obtain ⟨start, hopen, hpos⟩ := h.current d hd
  have honce := h.once
  subst ht
  constructor
  · exact hagree
  · rintro u' ⟨rfl⟩
    simp [advanceOffset, hrefused, hsource]
  · simp [hp]
  · rintro d' ⟨rfl⟩
    refine ⟨start, by simp [Command.opening, hopen], ?_⟩
    simp only [received_snoc, hsends.1, ↓reduceIte, List.length_append]
    rw [hlevel, hpos, Nat.add_assoc]
    rfl
  · intro events start' hmem
    simp only [openings_snoc, Command.opening, List.append_nil] at hmem
    by_cases he : events = d.events
    · subst he
      obtain rfl := opening_unique hfresh hmem hopen
      simp only [received_snoc, hsends.1, ↓reduceIte]
      refine prefix_append_of_drop (h.streams _ _ hopen) ?_
      rwa [← hpos, ← hlevel]
    · simpa [hsends.1, he] using h.streams _ _ hmem
  · intro events hmem
    simp only [openings_snoc, Command.opening, List.append_nil] at hmem
    have he : events ≠ d.events := by
      rintro rfl
      exact hmem (List.mem_map_of_mem hopen)
    simpa [hsends.1, he] using h.unopened _ hmem
  · simp only [hp, Pending.buffers, List.append_nil] at honce
    simpa [hp, Pending.buffers, hsends.2, Command.buffers] using honce

theorem holds (h : Streams content tr s) {u : Uploader} {chunk : Chunk} {reply : Waiter}
    {t : State} (hu : s.uploader = some u) (hd : ∀ d, s.downloader ≠ .connected d)
    (hp : s.pending = .none)
    (ht : t = { s with
      uploader := some { u with position := u.position + chunk.len }
      pending := .data chunk (some reply) u.position chunk.len })
    (hagree : PositionsAgree t) (hchunk : chunk.data.data <+: content.drop u.position)
    (hlt : u.position + chunk.len < 2 ^ 64) :
    Streams content (tr ++ [(.uploadData u.token chunk reply, [])]) t := by
  have hsource := h.source u hu
  have hrefused : refused reply [] = false := rfl
  have honce := h.once
  subst ht
  constructor
  · exact hagree
  · rintro u' ⟨rfl⟩
    simp only [uploadOffset_snoc, advanceOffset, hrefused, and_self, ↓reduceIte, hsource,
      Option.map_some]
  · rintro _ _ _ _ ⟨rfl, rfl, rfl, rfl⟩
    exact ⟨hchunk, rfl, hlt⟩
  · intro d hd'
    exact absurd hd' (hd d)
  · intro events start hmem
    simpa [Command.opening] using h.streams events start (by simpa [Command.opening] using hmem)
  · intro events hmem
    simpa using h.unopened events (by simpa [Command.opening] using hmem)
  · simp only [hp, Pending.buffers, List.append_nil] at honce
    simpa [Pending.buffers, Command.buffers] using honce

theorem uploadData (h : Streams content tr s) {token : Token} {chunk : Chunk} {reply : Waiter}
    (hfresh : ((openings tr).map Prod.fst).Nodup)
    (hcontent : ∀ offset, refused reply (s.uploadData token chunk reply).2 = false →
      uploadOffset token tr = some offset →
        chunk.data.data <+: content.drop offset ∧ offset + chunk.len < 2 ^ 64) :
    Streams content
      (tr ++ [(.uploadData token chunk reply,
        (s.handle (.uploadData token chunk reply)).effects)])
      (s.uploadData token chunk reply).1 := by
  have hagree := h.agree.uploadData token chunk reply
  simp only [State.handle]
  rcases s.uploadData_cases token chunk reply with
    ⟨error, hs⟩ | ⟨u, hu, rfl, hp, ⟨d, hd, hs⟩ | ⟨hd, hs⟩⟩
  · rw [hs] at hagree ⊢
    refine h.frame hagree (by simp) rfl ?_ (by simp) (fun _ w _ _ hp => ⟨w, hp⟩)
    intro u hu
    refine ⟨hu, fun offset => ?_⟩
    simp [advanceOffset, refused, Effect.refuses, replyUpload]
  · have hrefused : refused reply (s.uploadData u.token chunk reply).2 = false := by
      rw [hs]
      cases s.uploaderWs <;> simp [refused, Effect.refuses, sendUploadProgress, replyUpload]
    obtain ⟨hchunk, hlt⟩ := hcontent _ hrefused (h.source u hu)
    have hadd : addU64 u.position chunk.len = u.position + chunk.len := Nat.mod_eq_of_lt hlt
    refine h.forwards hfresh hu hd hp (by rw [hs, hadd]) hagree hrefused ?_ hchunk
    rw [hs]
    exact .event (by simp)
  · have hrefused : refused reply (s.uploadData u.token chunk reply).2 = false := by
      simp [hs, refused]
    obtain ⟨hchunk, hlt⟩ := hcontent _ hrefused (h.source u hu)
    have hadd : addU64 u.position chunk.len = u.position + chunk.len := Nat.mod_eq_of_lt hlt
    have hnext : Streams content (tr ++ [(.uploadData u.token chunk reply, [])])
        (s.uploadData u.token chunk reply).1 :=
      h.holds hu hd hp (by rw [hs, hadd]) hagree hchunk hlt
    rw [hs] at hnext ⊢
    exact hnext

theorem finishDownload (h : Streams content tr s) {reply : Waiter} :
    Streams content (tr ++ [(.finishDownload reply, (s.handle (.finishDownload reply)).effects)])
      (s.handle (.finishDownload reply)).state := by
  have hagree := h.agree.handle (.finishDownload reply)
  simp only [State.handle] at hagree ⊢
  rcases s.finishDownload_cases reply with
    ⟨u, hu, _, hf⟩ | ⟨hu, hf⟩ | ⟨u, chunk, waiter, position, size, hu, hp, hf⟩
  · rw [hf] at hagree ⊢
    exact h.frame hagree (by simp) rfl (fun _ hu => ⟨hu, fun _ => rfl⟩) (by simp) (by simp)
  · rw [hf] at hagree ⊢
    exact h.frame hagree (by simp) rfl (fun _ hu => ⟨hu, fun _ => rfl⟩) (by simp)
      fun _ waiter _ _ hp => ⟨waiter, hp⟩
  · rw [hf] at hagree ⊢
    refine h.frame hagree (by simp) rfl (by simp) (by simp) ?_
    rintro _ _ _ _ ⟨rfl, rfl, rfl, rfl⟩
    exact ⟨waiter, hp⟩

theorem flushUpload (h : Streams content tr s) {token : Token} {reply : Waiter} :
    Streams content
      (tr ++ [(.flushUpload token reply, (s.handle (.flushUpload token reply)).effects)])
      (s.handle (.flushUpload token reply)).state := by
  have hagree := h.agree.handle (.flushUpload token reply)
  simp only [State.handle] at hagree ⊢
  rcases s.flushUpload_cases token reply with
    ⟨_, hs⟩ | ⟨chunk, waiter, position, size, _, hp, hs⟩
  · rw [hs] at hagree ⊢
    exact h.frame hagree (by simp) rfl (fun _ hu => ⟨hu, fun _ => rfl⟩)
      (fun _ hd => hd) fun _ waiter _ _ hp => ⟨waiter, hp⟩
  · rw [hs] at hagree ⊢
    refine h.frame hagree (by simp) rfl (fun _ hu => ⟨hu, fun _ => rfl⟩) (fun _ hd => hd) ?_
    rintro _ _ _ _ ⟨rfl, rfl, rfl, rfl⟩
    exact ⟨waiter, hp⟩

theorem disconnected (h : Streams content tr s) {token : Token} {peer : Peer} :
    Streams content
      (tr ++ [(.disconnected token peer, (s.handle (.disconnected token peer)).effects)])
      (s.handle (.disconnected token peer)).state := by
  have hagree := h.agree.handle (.disconnected token peer)
  simp only [State.handle] at hagree ⊢
  rcases s.disconnected_cases token peer with
    hs | ⟨_, _, _, ⟨_, hs⟩ | ⟨_, hs⟩⟩ | ⟨_, _, ⟨_, hs⟩ | ⟨_, hs⟩⟩ | ⟨direction, _, _, hs⟩
  · rw [hs] at hagree ⊢
    exact h.frame hagree (by simp) rfl (fun _ hu => ⟨hu, fun _ => rfl⟩)
      (fun _ hd => hd) fun _ waiter _ _ hp => ⟨waiter, hp⟩
  · rw [hs] at hagree ⊢
    exact h.frame hagree (by simp) rfl (fun _ hu => ⟨hu, fun _ => rfl⟩) (by simp)
      fun _ waiter _ _ hp => ⟨waiter, hp⟩
  · rw [hs] at hagree ⊢
    exact h.frame hagree (by simp) rfl (fun _ hu => ⟨hu, fun _ => rfl⟩) (by simp)
      fun _ waiter _ _ hp => ⟨waiter, hp⟩
  · rw [hs] at hagree ⊢
    exact h.frame hagree (by simp) rfl (by simp) (fun _ hd => hd)
      fun _ waiter _ _ hp => ⟨waiter, hp⟩
  · rw [hs] at hagree ⊢
    refine h.frame hagree (by simp) rfl (by simp) (fun _ hd => hd) fun chunk waiter p n hp => ?_
    exact ⟨waiter, Pending.eq_data_of_clearError hp⟩
  · rw [hs] at hagree ⊢
    obtain ⟨hd, hu, hp⟩ := s.setWebsocket_sameTransfer direction none
    exact h.frame hagree (by simp) rfl (fun u h' => ⟨hu ▸ h', fun _ => rfl⟩)
      (fun d h' => hd ▸ h') fun _ waiter _ _ h' => ⟨waiter, hp ▸ h'⟩

theorem handle (h : Streams content tr s) (c : Command)
    (hfresh : ((openings (tr ++ [(c, (s.handle c).effects)])).map Prod.fst).Nodup)
    (hcontent : ∀ token chunk reply offset, c = .uploadData token chunk reply →
      refused reply (s.handle c).effects = false → uploadOffset token tr = some offset →
        chunk.data.data <+: content.drop offset ∧ offset + chunk.len < 2 ^ 64) :
    Streams content (tr ++ [(c, (s.handle c).effects)]) (s.handle c).state := by
  have hagree := h.agree.handle c
  rw [openings_snoc, List.map_append, List.nodup_append] at hfresh
  obtain ⟨hfresh, -, hnew⟩ := hfresh
  cases c with
  | metadata reply =>
    exact h.frame hagree (by simp [State.handle]) rfl (fun _ hu => ⟨hu, fun _ => rfl⟩)
      (fun _ hd => hd) fun _ waiter _ _ hp => ⟨waiter, hp⟩
  | startDownload downloader reply =>
    exact h.startDownload fun hmem => hnew _ hmem downloader.events (by simp [Command.opening]) rfl
  | finishDownload reply => exact h.finishDownload
  | checkStartUpload position reply =>
    exact h.frame hagree (by simp [State.handle]) rfl (fun _ hu => ⟨hu, fun _ => rfl⟩)
      (fun _ hd => hd) fun _ waiter _ _ hp => ⟨waiter, hp⟩
  | startUpload token position reply => exact h.startUpload
  | uploadData token chunk reply =>
    exact h.uploadData hfresh fun offset => hcontent _ _ _ offset rfl
  | flushUpload token reply => exact h.flushUpload
  | startWebsocket direction peer reply =>
    obtain ⟨hd, hu, hp⟩ := s.startWebsocket_sameTransfer direction peer
    refine h.frame hagree ?_ rfl (fun u h' => ⟨hu ▸ h', fun _ => rfl⟩) (fun d h' => hd ▸ h')
      fun _ waiter _ _ h' => ⟨waiter, hp ▸ h'⟩
    simp only [State.handle, State.startWebsocket, noContent_append, noContent_frames, true_and,
      noContent_reply, noContent_nil, and_true]
    split <;> simp
  | websocketData direction frame =>
    obtain ⟨hd, hu, hp⟩ := s.relayFrame_sameTransfer direction frame
    refine h.frame hagree ?_ rfl (fun u h' => ⟨hu ▸ h', fun _ => rfl⟩) (fun d h' => hd ▸ h')
      fun _ waiter _ _ h' => ⟨waiter, hp ▸ h'⟩
    simp only [State.handle, State.relayFrame]
    split <;> simp
  | disconnected token peer => exact h.disconnected

theorem of_run {metadata : String} {session : Session}
    (hrun : (sessionTask metadata).Run tr session) (huploads : UploadsContent content tr)
    (hoverflow : NoOverflow tr) (hchannels : ((openings tr).map Prod.fst).Nodup) :
    Streams content tr session.state := by
  refine hrun.history (P := fun tr session => UploadsContent content tr → NoOverflow tr →
    ((openings tr).map Prod.fst).Nodup → Streams content tr session.state)
    (fun _ _ _ => spawn) ?_ huploads hoverflow hchannels
  intro tr session c next os _ ih _ hstep huploads hoverflow hchannels
  obtain ⟨_, rfl, rfl⟩ := Session.step_eq_some.mp hstep
  obtain ⟨huploads, hchunk⟩ := Trace.each_snoc.mp huploads
  obtain ⟨hoverflow, hlt⟩ := Trace.each_snoc.mp hoverflow
  have hbefore : ((openings tr).map Prod.fst).Nodup := by
    rw [openings_snoc, List.map_append] at hchannels
    exact hchannels.of_append_left
  exact (ih huploads hoverflow hbefore).handle c hchannels fun token chunk reply offset hc hr ho =>
    ⟨hchunk token chunk reply offset hc hr ho, hlt token chunk reply offset hc hr ho⟩

end Streams

/-- Stream integrity. Whatever uploaders and downloaders come, resume, are replaced and
leave, in whatever order: when every uploader sends `content` from where it started, each
downloader has been sent exactly a stretch of `content` beginning where it asked to begin,
and every chunk was sent to at most one downloader and at most once. Each download request
opens a channel of its own and each chunk arrives in a buffer of its own. -/
theorem relay_stream_integrity {metadata : String} {session : Session}
    (hrun : (sessionTask metadata).Run tr session) (huploads : UploadsContent content tr)
    (hoverflow : NoOverflow tr) (hchannels : ((openings tr).map Prod.fst).Nodup)
    (hbuffers : (uploaded tr).Nodup) :
    (∀ downloader reply os, (Command.startDownload downloader reply, os) ∈ tr →
      received downloader.events tr <+: content.drop downloader.position) ∧
      (delivered tr).Nodup := by
  have hstreams := Streams.of_run hrun huploads hoverflow hchannels
  constructor
  · intro downloader reply os hmem
    refine hstreams.streams _ _ (List.mem_flatMap.mpr ⟨_, hmem, ?_⟩)
    simp [Command.opening]
  · exact hbuffers.sublist ((List.sublist_append_left _ _).trans hstreams.once)

def chunkHeld : List Command :=
  [.startUpload 1 0 1, .uploadData 1 (.more ⟨0, [1, 2]⟩) 2, .startDownload ⟨2, 0, 20⟩ 3,
    .uploadData 1 (.final ⟨1, [3]⟩) 4]

theorem relay_stream_integrity_held : ∃ tr session,
    (sessionTask "").exec (sessionTask "").init chunkHeld = some (tr, session) ∧
      received 20 tr = [1, 2, 3] ∧
      (∀ downloader reply os, (Command.startDownload downloader reply, os) ∈ tr →
        received downloader.events tr <+: [1, 2, 3].drop downloader.position) ∧
      (delivered tr).Nodup := by
  obtain ⟨tr, session, hexec, hreceived, hopen, hup, huploads, hoverflow⟩ : ∃ tr session,
      (sessionTask "").exec (sessionTask "").init chunkHeld = some (tr, session) ∧
      received 20 tr = [1, 2, 3] ∧ openings tr = [(20, 0)] ∧ uploaded tr = [0, 1] ∧
      UploadsContent [1, 2, 3] tr ∧ NoOverflow tr := by
    refine ⟨_, _, rfl, rfl, rfl, rfl, ?_, ?_⟩
    all_goals
      simp only [UploadsContent, NoOverflow, Trace.each_cons, Trace.each_nil]
      refine ⟨by simp, ?_, by simp, ?_, trivial⟩
      all_goals
        rintro _ _ _ offset ⟨⟩ - hoffset
        obtain rfl := Option.some.inj hoffset
        decide
  exact ⟨tr, session, hexec, hreceived, relay_stream_integrity (EventMachine.exec_run _ hexec)
    huploads hoverflow (by simp [hopen]) (by simp [hup])⟩

end Glopfile.Relay
