import Glopfile.Relay.Commands
import Glopfile.Relay.SystemSteps

/-!
# Connections and their departures

A session slot is held by the token of a connection. A connection announces its departure
with a `Disconnected` command, sent by the drop guard of its handler. `upload` makes its
guard before it asks for the slot and `websocket::relay` is never cancelled, but
`download_content` makes its `Download` only after `start_download` has answered. Unless
that future is dropped while it waits for the answer, every slot is held by a connection
that is still there or has its departure queued.
-/

namespace Glopfile.Relay

inductive Role
  | downloader
  | uploader
  | websocket (direction : Direction)
  deriving DecidableEq, Repr

def Command.registers : Command → Option (Role × Token)
  | .startDownload downloader _ => some (.downloader, downloader.token)
  | .startUpload token _ _ => some (.uploader, token)
  | .startWebsocket direction peer _ => some (.websocket direction, peer.token)
  | _ => none

def Peer.role : Peer → Role
  | .downloader _ => .downloader
  | .uploader => .uploader
  | .websocket direction => .websocket direction

def Command.announces : Command → Option (Role × Token)
  | .disconnected token peer => some (peer.role, token)
  | _ => none

def State.holder (s : State) : Role → Option Token
  | .downloader =>
    match s.downloader with
    | .connected downloader => some downloader.token
    | _ => none
  | .uploader => s.uploaderToken
  | .websocket direction => (s.websocket direction).map WebsocketPeer.token

def WebsocketTask.direction : WebsocketTask → Option Direction
  | .starting direction _ | .relaying direction => some direction
  | .ended => none

def System.Alive (r : System) : Role → Token → Prop
  | .downloader, token => ∃ task, r.downloads token = some task ∧ task.alive = true
  | .uploader, token => ∃ task, r.uploads token = some task ∧ task.alive = true
  | .websocket direction, token =>
    ∃ task, r.websockets token = some task ∧ task.direction = some direction

def Announced (queue : List Command) (role : Role) (token : Token) : Prop :=
  ∃ c ∈ queue, c.announces = some (role, token)

/-- A slot of a running session is held by a connection that is still there, or whose
departure is in the queue. -/
def NoGhosts (r : System) : Prop :=
  r.session.running = true → ∀ role token, r.session.state.holder role = some token →
    r.Alive role token ∨ Announced r.queue role token

structure Covered (s : State) (queue : List Command) (alive : Role → Token → Prop) : Prop where
  slots : ∀ role token, s.holder role = some token → alive role token ∨ Announced queue role token
  queued : ∀ pre c suf role token, queue = pre ++ c :: suf → c.registers = some (role, token) →
    alive role token ∨ Announced suf role token

variable {metadata : String} {r r' : System} {e : SystemEvent} {os : List Output}
  {s : State} {c : Command} {role : Role} {token : Token} {queue : List Command}
  {alive alive' : Role → Token → Prop}

theorem announced_cons :
    Announced (c :: queue) role token ↔
      c.announces = some (role, token) ∨ Announced queue role token := by
  simp [Announced]

theorem announced_append {queue' : List Command} :
    Announced (queue ++ queue') role token ↔
      Announced queue role token ∨ Announced queue' role token := by
  simp only [Announced, List.mem_append]
  grind

theorem startWebsocket_websocket {direction other : Direction} {peer : WebsocketPeer} :
    (s.startWebsocket direction peer).1.websocket other =
      if other = direction then some peer else s.websocket other := by
  cases direction <;> cases other <;> rfl

theorem setWebsocket_websocket {direction other : Direction} {peer : Option WebsocketPeer} :
    (s.setWebsocket direction peer).websocket other =
      if other = direction then peer else s.websocket other := by
  cases direction <;> cases other <;> rfl

theorem holder_congr {t : State} (hd : role = .downloader → t.downloader = s.downloader)
    (hu : role = .uploader → t.uploader = s.uploader)
    (hws : ∀ direction, role = .websocket direction →
      t.websocket direction = s.websocket direction) : t.holder role = s.holder role := by
  cases role with
  | downloader => simp [State.holder, hd rfl]
  | uploader => simp [State.holder, State.uploaderToken, hu rfl]
  | websocket direction => simp [State.holder, hws direction rfl]

theorem disconnected_holder (s : State) (token : Token) (peer : Peer) (role : Role) :
    (s.disconnected token peer).1.holder role =
      if role = peer.role ∧ s.holder role = some token then none else s.holder role := by
  cases peer with
  | downloader completed =>
    by_cases hrole : role = .downloader
    · subst hrole
      cases hd : s.downloader with
      | connected d =>
        by_cases ht : d.token = token
        · cases completed <;> simp [State.disconnected, State.holder, Peer.role, hd, ht]
        · simp [State.disconnected, State.holder, Peer.role, hd, ht]
      | disconnected => simp [State.disconnected, State.holder, Peer.role, hd]
      | finished => simp [State.disconnected, State.holder, Peer.role, hd]
    · have hframe : ∀ slot, ({ s with downloader := slot } : State).holder role =
          s.holder role := fun slot =>
        holder_congr (fun h => absurd h hrole) (fun _ => rfl) fun direction _ => by
          cases direction <;> rfl
      simp only [Peer.role, hrole, false_and, ↓reduceIte, State.disconnected]
      split
      · split_ifs
        · rfl
        · exact hframe _
        · exact hframe _
      · rfl
  | uploader =>
    by_cases hrole : role = .uploader
    · subst hrole
      by_cases ht : s.uploaderToken = some token
      · simp only [State.disconnected, State.holder, Peer.role, ht, ne_eq, not_true_eq_false,
          ↓reduceIte, true_and]
        split <;> rfl
      · simp [State.disconnected, State.holder, Peer.role, ht]
    · have hframe : ∀ pending, ({ s with uploader := none, pending := pending } : State).holder role =
          s.holder role := fun pending =>
        holder_congr (fun _ => rfl) (fun h => absurd h hrole) fun direction _ => by
          cases direction <;> rfl
      simp only [Peer.role, hrole, false_and, ↓reduceIte, State.disconnected]
      split_ifs
      · rfl
      · split
        · exact hframe _
        · exact hframe _
  | websocket direction =>
    simp only [Peer.role, State.disconnected]
    obtain ⟨hd, hu, _⟩ := s.setWebsocket_sameTransfer direction none
    by_cases hrole : role = .websocket direction
    · subst hrole
      by_cases ht : (s.websocket direction).map WebsocketPeer.token = some token
      · simp [State.holder, ht, setWebsocket_websocket]
      · simp only [ht, ↓reduceIte, State.holder, and_false]
    · simp only [hrole, false_and, ↓reduceIte]
      split_ifs
      · refine holder_congr (fun _ => hd) (fun _ => hu) fun other h => ?_
        subst h
        rw [setWebsocket_websocket, if_neg fun h => hrole (congrArg Role.websocket h)]
      · rfl

theorem handle_downloader (hholder : (s.handle c).state.holder .downloader = some token) :
    c.registers = some (.downloader, token) ∨ s.holder .downloader = some token := by
  have ho := s.handled c
  generalize s.handle c = o at ho hholder
  cases ho with
  | answered | holds | flushes | uploaderLeft | uploaderDone | ignored => exact .inr hholder
  | released | downloads =>
    obtain rfl := Option.some.inj hholder
    exact .inl rfl
  | finishTold | finishIdle | finishHeld => cases hholder
  | startRefused | starts =>
    rw [State.holder, State.evictUploader_downloader] at hholder
    exact .inr hholder
  | relays _ _ hd =>
    right
    rw [State.holder, hd]
    exact hholder
  | signals hsame =>
    rw [State.holder, hsame.1] at hholder
    exact .inr hholder
  | @downloaderLeft _ completed => cases completed <;> cases hholder

theorem relayFrame_websocket {sender direction : Direction} {frame : Frame} :
    (s.relayFrame sender frame).1.websocket direction = s.websocket direction := by
  unfold State.relayFrame State.holdFrame
  split
  · rfl
  · split_ifs
    · rfl
    · cases sender <;> cases direction <;> rfl

theorem handle_websocket {direction : Direction} (hleft : c.announces = none)
    (hholder : (s.handle c).state.holder (.websocket direction) = some token) :
    c.registers = some (.websocket direction, token) ∨
      s.holder (.websocket direction) = some token := by
  cases c with
  | startWebsocket target peer reply =>
    simp only [State.handle, State.holder, startWebsocket_websocket] at hholder
    split_ifs at hholder with htarget
    · subst htarget
      exact .inl (congrArg _ (congrArg _ (Option.some.inj hholder)))
    · exact .inr hholder
  | websocketData sender frame =>
    simp only [State.handle, State.holder, relayFrame_websocket] at hholder
    exact .inr hholder
  | disconnected token peer => cases hleft
  | _ =>
    rw [State.holder, (handle_sameSignaling id).websocket] at hholder
    exact .inr hholder

theorem handle_holder (hholder : (s.handle c).state.holder role = some token) :
    c.registers = some (role, token) ∨
      s.holder role = some token ∧ c.announces ≠ some (role, token) := by
  cases hleft : c.announces with
  | some left =>
    cases c with
    | disconnected token' peer =>
      right
      simp only [State.handle, disconnected_holder] at hholder
      split_ifs at hholder with hleaves
      refine ⟨hholder, fun hannounces => hleaves ?_⟩
      obtain ⟨rfl, rfl⟩ := Prod.mk.inj (Option.some.inj (hleft.trans hannounces))
      exact ⟨rfl, hholder⟩
    | _ => cases hleft
  | none =>
    refine Or.imp_right (fun h => ⟨h, by simp⟩) ?_
    cases role with
    | downloader => exact handle_downloader hholder
    | uploader =>
      obtain ⟨uploader, hu, rfl⟩ := Option.map_eq_some_iff.mp hholder
      cases handle_uploader hu with
      | started hc => exact .inl (by rw [hc]; rfl)
      | kept hbefore | advanced _ hbefore =>
        right
        rw [State.holder, State.uploaderToken, hbefore]
        rfl
    | websocket direction => exact handle_websocket hleft hholder

namespace Covered

theorem mono (h : Covered s queue alive) (halive : ∀ role token, alive role token →
    alive' role token) : Covered s queue alive' where
  slots role token hholder := (h.slots role token hholder).imp_left (halive role token)
  queued pre c suf role token hq hc := (h.queued pre c suf role token hq hc).imp_left
    (halive role token)

theorem send (h : Covered s queue alive)
    (halive : ∀ role token, alive role token → alive' role token ∨
      c.announces = some (role, token))
    (hregisters : ∀ role token, c.registers = some (role, token) → alive' role token) :
    Covered s (queue ++ [c]) alive' where
  slots role token hholder := by
    rw [announced_append, announced_cons]
    rcases h.slots role token hholder with hthere | hannounced
    · rcases halive role token hthere with hthere | hlast
      · exact .inl hthere
      · exact .inr (.inr (.inl hlast))
    · exact .inr (.inl hannounced)
  queued pre d suf role token hq hd := by
    rcases List.eq_nil_or_concat suf with rfl | ⟨suf, last, rfl⟩
    · obtain ⟨-, hlast⟩ := List.append_inj' hq rfl
      obtain rfl := (List.cons.inj hlast).1
      exact .inl (hregisters role token hd)
    · rw [List.concat_eq_append, ← List.cons_append, ← List.append_assoc] at hq
      obtain ⟨rfl, hlast⟩ := List.append_inj' hq rfl
      obtain rfl := (List.cons.inj hlast).1
      rw [List.concat_eq_append, announced_append, announced_cons]
      rcases h.queued pre d suf role token rfl hd with hthere | hannounced
      · rcases halive role token hthere with hthere | hlast
        · exact .inl hthere
        · exact .inr (.inr (.inl hlast))
      · exact .inr (.inl hannounced)

theorem handle (h : Covered s (c :: queue) alive) : Covered (s.handle c).state queue alive where
  slots role token hholder := by
    rcases handle_holder hholder with hregisters | ⟨hbefore, hstays⟩
    · exact h.queued [] c queue role token rfl hregisters
    · rcases h.slots role token hbefore with hthere | hannounced
      · exact .inl hthere
      · rcases announced_cons.mp hannounced with hleaves | hannounced
        · exact absurd hleaves hstays
        · exact .inr hannounced
  queued pre d suf role token hq hd := h.queued (c :: pre) d suf role token (by rw [hq]; rfl) hd

end Covered

namespace System

theorem alive_setDownload {task : DownloadTask} {other : Token} :
    (r.setDownload token task).Alive role other ↔
      if role = .downloader ∧ other = token then task.alive = true else r.Alive role other := by
  cases role with
  | downloader =>
    by_cases h : other = token
    · subst h
      simp [Alive, setDownload]
    · simp [Alive, setDownload, h]
  | uploader => simp [Alive, setDownload]
  | websocket direction => simp [Alive, setDownload]

theorem alive_setUpload {task : UploadTask} {other : Token} :
    (r.setUpload token task).Alive role other ↔
      if role = .uploader ∧ other = token then task.alive = true else r.Alive role other := by
  cases role with
  | uploader =>
    by_cases h : other = token
    · subst h
      simp [Alive, setUpload]
    · simp [Alive, setUpload, h]
  | downloader => simp [Alive, setUpload]
  | websocket direction => simp [Alive, setUpload]

theorem alive_setWebsocket {task : WebsocketTask} {direction : Direction} {other : Token} :
    (r.setWebsocket token task).Alive (.websocket direction) other ↔
      if other = token then task.direction = some direction
      else r.Alive (.websocket direction) other := by
  by_cases h : other = token
  · subst h
    simp [Alive, setWebsocket]
  · simp [Alive, setWebsocket, h]

end System

def Command.connects : Command → Option Waiter
  | .startDownload _ reply | .startWebsocket _ _ reply => some reply
  | _ => none

theorem handle_connects {reply : Waiter} (h : c.connects = some reply) :
    Effect.reply reply .done ∈ (s.handle c).effects := by
  cases c with
  | startDownload downloader reply' =>
    obtain rfl := Option.some.inj h
    simp [State.handle]
  | startWebsocket direction peer reply' =>
    obtain rfl := Option.some.inj h
    simp [State.handle]
  | _ => cases h

def Due (r : System) (reply : Waiter) : Prop :=
  (r.replies reply).isSome = true ∨ ∃ c ∈ r.queue, c.connects = some reply

/-- The invariant behind `NoGhosts`. A handler that waits to be registered is answered, or
its command is in the queue: it never finds its sender dropped by a running session. -/
structure Accounted (r : System) : Prop where
  covered : Covered r.session.state r.queue r.Alive
  download : ∀ token reply, r.downloads token = some (.starting reply) → Due r reply
  websocket : ∀ token direction reply,
    r.websockets token = some (.starting direction reply) → Due r reply

/-- No `download_content` future is dropped while it waits for `start_download` and its
token holds the slot, or will once the queue is handled. -/
def KeepsStarting (r : System) : SystemEvent → Prop
  | .downloadDrop token => r.session.running = true →
    ∀ reply, r.downloads token = some (.starting reply) →
      r.session.state.holder .downloader ≠ some token ∧
        ∀ c ∈ r.queue, c.registers ≠ some (.downloader, token)
  | _ => True

namespace Accounted

theorem spawn : Accounted (System.spawn metadata) where
  covered :=
    { slots := by
        intro role token hholder
        cases role with
        | websocket direction => cases direction <;> cases hholder
        | _ => cases hholder
      queued := by simp [System.spawn] }
  download := by simp [System.spawn]
  websocket := by simp [System.spawn]

theorem turn {rest : List Command} {session : Session} {effects : List Effect}
    (h : Accounted r) (hqueue : r.queue = c :: rest)
    (hstep : r.session.step c = some (session, effects)) :
    Accounted (effects.foldl System.deliver { r with session := session, queue := rest }) := by
  obtain ⟨-, rfl, rfl⟩ := Session.step_eq_some.mp hstep
  have hdue : ∀ reply, Due r reply → Due ((r.session.state.handle c).effects.foldl System.deliver
      { r with
          session := ⟨(r.session.state.handle c).state, (r.session.state.handle c).flow = .cont⟩
          queue := rest }) reply := by
    intro reply hdue
    rcases hdue with hreply | ⟨d, hmem, hd⟩
    · exact .inl (System.deliverAll_replies_isSome (.inl hreply))
    · rw [hqueue] at hmem
      rcases List.mem_cons.mp hmem with rfl | hmem
      · exact .inl (System.deliverAll_replies_isSome (.inr ⟨.done, handle_connects hd⟩))
      · exact .inr ⟨d, by simpa using hmem, hd⟩
  constructor
  · have hcovered := h.covered
    rw [hqueue] at hcovered
    rw [System.deliverAll_session, System.deliverAll_queue]
    refine hcovered.handle.mono fun role token halive => ?_
    cases role <;> simpa [System.Alive] using halive
  · intro token reply htask
    rw [System.deliverAll_downloads] at htask
    exact hdue reply (h.download token reply htask)
  · intro token direction reply htask
    rw [System.deliverAll_websockets] at htask
    exact hdue reply (h.websocket token direction reply htask)

theorem send {t : System} (h : Accounted r) (hsession : t.session = r.session)
    (hqueue : t.queue = r.queue ++ [c]) (hreplies : t.replies = r.replies)
    (halive : ∀ role token, r.Alive role token → t.Alive role token ∨
      c.announces = some (role, token))
    (hregisters : ∀ role token, c.registers = some (role, token) → t.Alive role token)
    (hdownload : ∀ token reply, t.downloads token = some (.starting reply) →
      r.downloads token = some (.starting reply) ∨ c.connects = some reply)
    (hwebsocket : ∀ token direction reply,
      t.websockets token = some (.starting direction reply) →
        r.websockets token = some (.starting direction reply) ∨ c.connects = some reply) :
    Accounted t := by
  have hdue : ∀ reply, Due r reply ∨ c.connects = some reply → Due t reply := by
    rintro reply ((hreply | ⟨d, hmem, hd⟩) | hc)
    · exact .inl (by rwa [hreplies])
    · exact .inr ⟨d, by simp [hqueue, hmem], hd⟩
    · exact .inr ⟨c, by simp [hqueue], hc⟩
  constructor
  · rw [hsession, hqueue]
    exact h.covered.send halive hregisters
  · intro token reply htask
    exact hdue reply ((hdownload token reply htask).imp_left (h.download token reply))
  · intro token direction reply htask
    exact hdue reply ((hwebsocket token direction reply htask).imp_left
      (h.websocket token direction reply))

theorem quiet {t : System} (h : Accounted r) (hsession : t.session = r.session)
    (hqueue : t.queue = r.queue) (hreplies : t.replies = r.replies)
    (halive : ∀ role token, r.Alive role token → t.Alive role token)
    (hdownload : ∀ token reply, t.downloads token = some (.starting reply) →
      r.downloads token = some (.starting reply))
    (hwebsocket : ∀ token direction reply,
      t.websockets token = some (.starting direction reply) →
        r.websockets token = some (.starting direction reply)) :
    Accounted t := by
  have hdue : ∀ reply, Due r reply → Due t reply := by
    rintro reply (hreply | ⟨d, hmem, hd⟩)
    · exact .inl (by rwa [hreplies])
    · exact .inr ⟨d, by rwa [hqueue], hd⟩
  constructor
  · rw [hsession, hqueue]
    exact h.covered.mono halive
  · intro token reply htask
    exact hdue reply (h.download token reply (hdownload token reply htask))
  · intro token direction reply htask
    exact hdue reply (h.websocket token direction reply (hwebsocket token direction reply htask))

theorem setDownload {token : Token} {task : DownloadTask} (h : Accounted r)
    (halive : task.alive = true) (hstarting : ∀ reply, task ≠ .starting reply) :
    Accounted (r.setDownload token task) := by
  refine h.quiet rfl rfl rfl (fun role other hother => ?_) (fun other reply htask => ?_)
    fun _ _ _ htask => htask
  · rw [System.alive_setDownload]
    split_ifs
    · exact halive
    · exact hother
  · by_cases hsame : other = token
    · simp only [System.setDownload, hsame, Function.update_self, Option.some.injEq] at htask
      exact absurd htask (hstarting reply)
    · simpa [System.setDownload, hsame] using htask

theorem cancelDownload {token : Token} (h : Accounted r)
    (hslot : r.session.state.holder .downloader ≠ some token)
    (hqueue : ∀ c ∈ r.queue, c.registers ≠ some (.downloader, token)) :
    Accounted ((r.setDownload token .ended).setChannel token []) := by
  have halive : ∀ role other, ¬(role = .downloader ∧ other = token) → r.Alive role other →
      (r.setDownload token .ended).Alive role other := by
    intro role other hne hother
    rwa [System.alive_setDownload, if_neg hne]
  constructor
  · constructor
    · intro role other hholder
      refine (h.covered.slots role other hholder).imp_left (halive role other ?_)
      rintro ⟨rfl, rfl⟩
      exact hslot hholder
    · intro pre c suf role other hq hc
      refine (h.covered.queued pre c suf role other hq hc).imp_left (halive role other ?_)
      rintro ⟨rfl, rfl⟩
      have hmem : c ∈ r.queue := by
        rw [show r.queue = pre ++ c :: suf from hq]
        simp
      exact hqueue c hmem hc
  · intro other reply htask
    by_cases hsame : other = token
    · simp [System.setChannel, System.setDownload, hsame] at htask
    · refine h.download other reply ?_
      simpa [System.setChannel, System.setDownload, hsame] using htask
  · exact h.websocket

theorem dropDownload {token : Token} {completed : Bool} (h : Accounted r)
    (hrunning : r.session.running = true) : Accounted (r.dropDownload token completed) := by
  refine h.send rfl (System.send_queue hrunning) rfl (fun role other hother => ?_) nofun
    (fun other reply htask => ?_) fun _ _ _ htask => .inl htask
  · by_cases hsame : role = .downloader ∧ other = token
    · obtain ⟨rfl, rfl⟩ := hsame
      exact .inr rfl
    · left
      show (r.setDownload token .ended).Alive role other
      rwa [System.alive_setDownload, if_neg hsame]
  · left
    by_cases hsame : other = token
    · simp [System.dropDownload, System.send, System.setChannel, System.setDownload, hsame] at htask
    · simpa [System.dropDownload, System.send, System.setChannel, System.setDownload, hsame]
        using htask

theorem dropUpload {token : Token} (h : Accounted r) (hrunning : r.session.running = true) :
    Accounted (r.dropUpload token) := by
  refine h.send rfl (System.send_queue hrunning) rfl (fun role other hother => ?_) nofun
    (fun _ _ htask => .inl htask) fun _ _ _ htask => .inl htask
  by_cases hsame : role = .uploader ∧ other = token
  · obtain ⟨rfl, rfl⟩ := hsame
    exact .inr rfl
  · left
    show (r.setUpload token .ended).Alive role other
    rwa [System.alive_setUpload, if_neg hsame]

theorem setUpload {token : Token} {task : UploadTask} (h : Accounted r)
    (halive : task.alive = true) : Accounted (r.setUpload token task) := by
  refine h.quiet rfl rfl rfl (fun role other hother => ?_) (fun _ _ htask => htask)
    fun _ _ _ htask => htask
  rw [System.alive_setUpload]
  split_ifs
  · exact halive
  · exact hother

theorem uploadSend {token : Token} {task : UploadTask} (h : Accounted r)
    (hrunning : r.session.running = true) (halive : task.alive = true)
    (hregisters : ∀ role other, c.registers = some (role, other) →
      role = .uploader ∧ other = token) :
    Accounted ((r.setUpload token task).send c) := by
  have hset : Accounted (r.setUpload token task) := h.setUpload halive
  refine hset.send rfl (System.send_queue hrunning) rfl (fun _ _ hother => .inl hother)
    (fun role other hc => ?_) (fun _ _ htask => .inl htask) fun _ _ _ htask => .inl htask
  obtain ⟨rfl, rfl⟩ := hregisters role other hc
  show (r.setUpload other task).Alive .uploader other
  rw [System.alive_setUpload, if_pos ⟨rfl, rfl⟩]
  exact halive

theorem setWebsocket {token : Token} {direction : Direction} {reply : Waiter} (h : Accounted r)
    (hbefore : r.websockets token = some (.starting direction reply)) :
    Accounted (r.setWebsocket token (.relaying direction)) := by
  refine h.quiet rfl rfl rfl (fun role other hother => ?_) (fun _ _ htask => htask)
    fun other direction' reply' htask => ?_
  · cases role with
    | downloader => exact hother
    | uploader => exact hother
    | websocket direction' =>
      rw [System.alive_setWebsocket]
      split_ifs with hsame
      · obtain ⟨task, htask, hdirection⟩ := hother
        rw [hsame, hbefore] at htask
        obtain rfl := Option.some.inj htask
        exact hdirection
      · exact hother
  · by_cases hsame : other = token
    · simp [System.setWebsocket, hsame] at htask
    · simpa [System.setWebsocket, hsame] using htask

theorem dropWebsocket {token : Token} {direction : Direction} (h : Accounted r)
    (hrunning : r.session.running = true)
    (hbefore : r.websockets token = some (.relaying direction)) :
    Accounted (r.dropWebsocket token direction) := by
  refine h.send rfl (System.send_queue hrunning) rfl (fun role other hother => ?_) nofun
    (fun _ _ htask => .inl htask) fun other direction' reply htask => ?_
  · cases role with
    | downloader => exact .inl hother
    | uploader => exact .inl hother
    | websocket direction' =>
      by_cases hsame : other = token
      · right
        obtain ⟨task, htask, hdirection⟩ := hother
        rw [hsame, hbefore] at htask
        obtain rfl := Option.some.inj htask
        obtain rfl := Option.some.inj hdirection
        rw [hsame]
        rfl
      · left
        show (r.setWebsocket token .ended).Alive (.websocket direction') other
        rwa [System.alive_setWebsocket, if_neg hsame]
  · left
    by_cases hsame : other = token
    · simp [System.dropWebsocket, System.send, System.setInbox, System.setWebsocket, hsame] at htask
    · simpa [System.dropWebsocket, System.send, System.setInbox, System.setWebsocket, hsame]
        using htask

theorem startDownload {position : Position} (h : Accounted r) (hrunning : r.session.running = true) :
    Accounted (r.download position).1 := by
  refine h.send rfl (System.send_queue hrunning) rfl (fun role other hother => .inl ?_)
    (fun role other hc => ?_) (fun other reply htask => ?_) fun _ _ _ htask => .inl htask
  · show ((r.draw 2).setDownload r.fresh (.starting (r.fresh + 1))).Alive role other
    rw [System.alive_setDownload]
    split_ifs
    · rfl
    · exact hother
  · obtain ⟨rfl, rfl⟩ := Prod.mk.inj (Option.some.inj hc)
    exact ⟨.starting (r.fresh + 1), by simp [System.download, System.send, System.setDownload], rfl⟩
  · by_cases hsame : other = r.fresh
    · right
      simp only [System.download, System.send, System.setDownload, hsame, Function.update_self,
        Option.some.injEq, DownloadTask.starting.injEq] at htask
      rw [← htask]
      rfl
    · left
      simpa [System.download, System.send, System.setDownload, System.draw, hsame] using htask

theorem startWebsocket {direction : Direction} (h : Accounted r)
    (hrunning : r.session.running = true) (hfresh : r.websockets r.fresh = none) :
    Accounted (r.websocket direction).1 := by
  refine h.send rfl (System.send_queue hrunning) rfl (fun role other hother => .inl ?_)
    (fun role other hc => ?_) (fun _ _ htask => .inl htask) fun other direction' reply htask => ?_
  · cases role with
    | downloader => exact hother
    | uploader => exact hother
    | websocket direction' =>
      show ((r.draw 2).setWebsocket r.fresh (.starting direction (r.fresh + 1))).Alive
        (.websocket direction') other
      rw [System.alive_setWebsocket, if_neg]
      · exact hother
      · rintro rfl
        obtain ⟨task, htask, _⟩ := hother
        rw [hfresh] at htask
        cases htask
  · obtain ⟨rfl, rfl⟩ := Prod.mk.inj (Option.some.inj hc)
    exact ⟨.starting direction (r.fresh + 1),
      by simp [System.websocket, System.send, System.setWebsocket], rfl⟩
  · by_cases hsame : other = r.fresh
    · right
      simp only [System.websocket, System.send, System.setWebsocket, hsame, Function.update_self,
        Option.some.injEq, WebsocketTask.starting.injEq] at htask
      rw [← htask.2]
      rfl
    · left
      simpa [System.websocket, System.send, System.setWebsocket, System.draw, hsame] using htask

theorem change (h : Accounted r) (hfresh : r.Fresh) (hrunning : r.session.running = true)
    (hguard : KeepsStarting r e) (hchange : Change r e r' os)
    (hrunning' : r'.session.running = true) : Accounted r' := by
  have hdrawn : ∀ n, Accounted (r.draw n) := fun n => ⟨h.covered, h.download, h.websocket⟩
  have hchannel : ∀ token channel, Accounted (r.setChannel token channel) := fun _ _ =>
    ⟨h.covered, h.download, h.websocket⟩
  have hstreaming : ∀ completed reply, DownloadTask.streaming completed ≠ .starting reply :=
    fun _ _ => nofun
  -- A running session drops no reply sender of a handler that waits to be registered.
  have hanswered : ∀ {reply}, Due r reply → r.replies reply = none →
      r.replyHeld reply = false → False := by
    intro reply hdue hreply hheld
    rcases hdue with hsome | ⟨c, hmem, hc⟩
    · simp [hreply] at hsome
    · have hwaiter : c.waiter = some reply := by
        cases c <;> simp_all [Command.connects, Command.waiter]
      simp [System.replyHeld, hrunning] at hheld
      exact hheld.1 c hmem hwaiter
  cases hchange with
  | turn hqueue hstep =>
    rw [System.deliverAll_session] at hrunning'
    rw [if_pos hrunning']
    exact h.turn hqueue hstep
  | request hplain =>
    refine (hdrawn 1).send rfl (System.send_queue hrunning) rfl (fun _ _ hother => .inl hother)
      (fun role other hc => ?_) (fun _ _ htask => .inl htask) fun _ _ _ htask => .inl htask
    rcases hplain with rfl | rfl | ⟨position, rfl⟩ <;> cases hc
  | download => exact h.startDownload hrunning
  | downloadStarted htask hreply => exact h.setDownload rfl (hstreaming false)
  | downloadRefused htask hreply hheld =>
    exact (hanswered (h.download _ _ htask) hreply hheld).elim
  | downloadMore htask hevents => exact hchannel _ _
  | downloadFinal htask hevents => exact (hchannel _ _).setDownload rfl (hstreaming true)
  | downloadReplaced htask hevents => exact h.dropDownload hrunning
  | downloadEnded htask => exact h.dropDownload hrunning
  | downloadCancelled htask =>
    obtain ⟨hslot, hqueue⟩ := hguard hrunning _ htask
    exact h.cancelDownload hslot hqueue
  | upload =>
    exact (hdrawn 2).uploadSend hrunning rfl fun role other hc => by
      obtain ⟨rfl, rfl⟩ := Prod.mk.inj (Option.some.inj hc)
      exact ⟨rfl, rfl⟩
  | uploadFlushing htask hreply => exact (hdrawn 1).uploadSend hrunning rfl nofun
  | uploadReading htask hawaits hreply => exact h.setUpload rfl
  | uploadRead htask => exact (hdrawn 1).setUpload rfl
  | uploadEmpty htask => exact (hdrawn 2).uploadSend hrunning rfl nofun
  | uploadMore htask => exact (hdrawn 2).uploadSend hrunning rfl nofun
  | uploadFinal htask => exact (hdrawn 1).uploadSend hrunning rfl nofun
  | uploadResponded htask halive houtcome => exact h.dropUpload hrunning
  | uploadCancelled htask halive => exact h.dropUpload hrunning
  | websocket => exact h.startWebsocket hrunning (hfresh.websockets _ (Nat.le_refl _))
  | websocketStarted htask hreply => exact h.setWebsocket htask
  | websocketRefused htask hreply hheld =>
    exact (hanswered (h.websocket _ _ _ htask) hreply hheld).elim
  | websocketSent htask hinbox => exact ⟨h.covered, h.download, h.websocket⟩
  | websocketFrame htask =>
    exact h.send rfl (System.send_queue hrunning) rfl (fun _ _ hother => .inl hother) nofun
      (fun _ _ htask => .inl htask) fun _ _ _ htask => .inl htask
  | websocketEnded htask => exact h.dropWebsocket hrunning htask

end Accounted

/-- As long as no `download_content` future that is or will be registered is dropped while it
waits for `start_download`, no slot is ever held by a connection that will not announce its
departure. -/
theorem no_ghost_connections {tr : EventMachine.Trace SystemEvent Output}
    (hpath : (relaySystem metadata).Path KeepsStarting (System.spawn metadata) tr r) :
    NoGhosts r := by
  have hinvariant : r.Fresh ∧ (r.session.running = true → Accounted r) := by
    refine hpath.invariant (P := fun r => r.Fresh ∧ (r.session.running = true → Accounted r))
      ⟨.spawn, fun _ => .spawn⟩ ?_
    rintro r e r' os ⟨hfresh, h⟩ hguard hstep
    have hchange := System.step_change hstep
    refine ⟨hfresh.change hchange, fun hrunning' => ?_⟩
    have hrunning := hchange.running hrunning'
    exact (h hrunning).change hfresh hrunning hguard hchange hrunning'
  exact fun hrunning => (hinvariant.2 hrunning).covered.slots

theorem no_ghost_connections_announced : ∃ tr r,
    (relaySystem "").exec (System.spawn "")
      [.download 0, .turn, .downloadResume 0, .downloadDrop 0] = some (tr, r) ∧
      r.session.state.holder .downloader = some 0 ∧ NoGhosts r := by
  obtain ⟨tr, r, hexec, hholder, hpath⟩ : ∃ tr r,
      (relaySystem "").exec (System.spawn "")
        [.download 0, .turn, .downloadResume 0, .downloadDrop 0] = some (tr, r) ∧
        r.session.state.holder .downloader = some 0 ∧
        (relaySystem "").Path KeepsStarting (System.spawn "") tr r := by
    refine ⟨_, _, rfl, rfl, ?_⟩
    refine .snoc (.snoc (.snoc (.snoc (.refl : EventMachine.Path _ _ _ [] _) trivial rfl) trivial
      rfl) trivial rfl) ?_ rfl
    rintro - reply ⟨⟩
  exact ⟨tr, r, hexec, hholder, no_ghost_connections hpath⟩

/-- A `download_content` future dropped while its `StartDownload` is queued leaves a ghost. -/
theorem ghost_connection : ∃ tr r,
    (relaySystem "").exec (System.spawn "") [.download 0, .downloadDrop 0, .turn] =
        some (tr, r) ∧
      r.session.running = true ∧ r.session.state.holder .downloader = some 0 ∧
      r.downloads 0 = some .ended ∧ r.queue = [] ∧ ¬ NoGhosts r := by
  refine ⟨_, _, rfl, rfl, rfl, rfl, rfl, fun h => ?_⟩
  rcases h rfl .downloader 0 rfl with ⟨task, htask, halive⟩ | ⟨c, hmem, _⟩
  · obtain rfl := Option.some.inj htask
    cases halive
  · cases hmem

end Glopfile.Relay
