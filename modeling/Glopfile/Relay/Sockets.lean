import Glopfile.Relay.ReplacedPeers
import Glopfile.Simulation
import Mathlib.Data.List.Flatten

/-!
# Signaling from socket to socket

A frame that a websocket delivers waits in the queue of the session, is held for a peer or goes to
the inbox of one, and is sent from there on the peer's socket. A websocket may end with frames in
its inbox, and those are lost.
-/

namespace Glopfile.Relay

open EventMachine (Trace)

def System.Open (r : System) (token : Token) : Prop :=
  (r.websockets token).any WebsocketTask.alive = true

instance (r : System) (token : Token) : Decidable (r.Open token) :=
  inferInstanceAs (Decidable (_ = true))

def WebsocketCommand.frame : WebsocketCommand → Option Frame
  | .send frame => some frame
  | _ => none

def framesIn (inbox : List WebsocketCommand) : List Frame := inbox.filterMap WebsocketCommand.frame

def Command.frameFrom (direction : Direction) : Command → Option Frame
  | .websocketData sender frame => if sender = direction then some frame else none
  | _ => none

def framesFrom (direction : Direction) (cs : List Command) : List Frame :=
  cs.filterMap (Command.frameFrom direction)

/-- What went over the sockets of a session: the frames that came from those of a side, the frames
that each of them accepted, and those that were for it when it had ended. -/
structure Sockets where
  received : Direction → List Frame
  accepted : Token → List Frame
  lost : Token → List Frame

namespace Sockets

def empty : Sockets := ⟨fun _ => [], fun _ => [], fun _ => []⟩

def receive (k : Sockets) (direction : Direction) (frame : Frame) : Sockets :=
  { k with received := Function.update k.received direction (k.received direction ++ [frame]) }

def accept (k : Sockets) (token : Token) (frame : Frame) : Sockets :=
  { k with accepted := Function.update k.accepted token (k.accepted token ++ [frame]) }

def pass (r : System) (k : Sockets) : SystemEvent → Sockets
  | .websocketFrame token frame =>
    match r.websockets token with
    | some (.relaying direction) => k.receive direction frame
    | _ => k
  | .websocketInbox token true =>
    match r.inboxes token with
    | .send frame :: _ => k.accept token frame
    | _ => k
  | _ => k

/-- What is lost by now: a socket ends with its inbox, and what is sent to it later is dropped. -/
def losses (r : System) (k : Sockets) (e : SystemEvent) (os : List Output) (token : Token) :
    List Frame :=
  if r.Open token then
    if (r.step e).any fun x => x.1.Open token then k.lost token else framesIn (r.inboxes token)
  else k.lost token ++ (os.filterMap Output.handling).flatMap fun x => framesOn token x.2

def next (r : System) (k : Sockets) (e : SystemEvent) (os : List Output) : Sockets :=
  { pass r k e with lost := losses r k e os }

end Sockets

variable {metadata : String} {r r' t : System} {e : SystemEvent} {os : List Output}
  {tr : Trace SystemEvent Output} {token : Token} {direction : Direction} {c : Command}
  {effects : List Effect} {k k' : Sockets}

@[simp] theorem framesFrom_append {cs ds : List Command} :
    framesFrom direction (cs ++ ds) = framesFrom direction cs ++ framesFrom direction ds :=
  List.filterMap_append

@[simp] theorem framesIn_append {inbox inbox' : List WebsocketCommand} :
    framesIn (inbox ++ inbox') = framesIn inbox ++ framesIn inbox' := List.filterMap_append

@[simp] theorem framesIn_nil : framesIn [] = [] := rfl

def SystemEvent.ofWebsocket (token : Token) : SystemEvent → Prop
  | .websocketResume other | .websocketInbox other _ | .websocketFrame other _
  | .websocketEnd other => other = token
  | _ => False

instance (token : Token) : (e : SystemEvent) → Decidable (e.ofWebsocket token)
  | .websocketResume _ | .websocketInbox _ _ | .websocketFrame _ _ | .websocketEnd _ =>
    inferInstanceAs (Decidable (_ = _))
  | .turn | .metadata | .finishDownload | .checkStartUpload _ | .download _ | .downloadResume _
  | .downloadPoll _ | .downloadDrop _ | .upload _ | .uploadResume _ | .uploadBody _ _
  | .uploadDrop _ | .websocket _ => isFalse id

structure System.Elsewhere (r r' : System) (os : List Output) : Prop where
  session : r'.session = r.session
  websockets : r'.websockets = r.websockets
  inboxes : r'.inboxes = r.inboxes
  frames : ∀ direction, framesFrom direction r'.queue = framesFrom direction r.queue
  quiet : os.filterMap Output.handling = []

namespace System

theorem Elsewhere.of_same (hsession : r'.session = r.session)
    (hwebsockets : r'.websockets = r.websockets) (hinboxes : r'.inboxes = r.inboxes)
    (hqueue : r'.queue = r.queue) (hquiet : os.filterMap Output.handling = []) :
    r.Elsewhere r' os :=
  ⟨hsession, hwebsockets, hinboxes, fun _ => by rw [hqueue], hquiet⟩

theorem framesFrom_send (hc : c.frameFrom direction = none) :
    framesFrom direction (t.send c).queue = framesFrom direction t.queue := by
  have hsent : framesFrom direction [c] = [] := by simp [framesFrom, hc]
  simp only [System.send]
  split_ifs
  · rw [framesFrom_append, hsent, List.append_nil]
  · rfl

theorem Elsewhere.send (h : r.Elsewhere t os) (hc : ∀ direction, c.frameFrom direction = none) :
    r.Elsewhere (t.send c) os where
  session := h.session
  websockets := h.websockets
  inboxes := h.inboxes
  frames direction := (framesFrom_send (hc direction)).trans (h.frames direction)
  quiet := h.quiet

theorem elsewhere_respond {response : Response} : r.Elsewhere (r.dropUpload token)
    [.responded token response] :=
  Elsewhere.send (t := r.setUpload token .ended) (c := .disconnected token .uploader)
    (.of_same rfl rfl rfl rfl rfl) fun _ => rfl

theorem elsewhere_dropDownload {completed : Bool} (hquiet : os.filterMap Output.handling = []) :
    r.Elsewhere (r.dropDownload token completed) os :=
  Elsewhere.send (t := (r.setDownload token .ended).setChannel token [])
    (c := .disconnected token (.downloader completed)) (.of_same rfl rfl rfl rfl hquiet)
    fun _ => rfl

theorem elsewhere_downloadResume (h : r.downloadResume token = some (r', os)) :
    r.Elsewhere r' os := by
  unfold downloadResume at h
  split at h
  · split at h
    · cases h
    · cases h
      exact .of_same rfl rfl rfl rfl rfl
    · cases h
      exact .of_same rfl rfl rfl rfl rfl
  · cases h

theorem elsewhere_downloadPoll (h : r.downloadPoll token = some (r', os)) :
    r.Elsewhere r' os := by
  unfold downloadPoll at h
  split at h
  · cases h
    exact elsewhere_dropDownload rfl
  · split at h
    · cases h
      exact .of_same rfl rfl rfl rfl rfl
    · cases h
      exact .of_same rfl rfl rfl rfl rfl
    · cases h
      exact elsewhere_dropDownload rfl
    · split_ifs at h
      cases h
      exact elsewhere_dropDownload rfl
  · cases h

theorem elsewhere_downloadDrop (h : r.downloadDrop token = some (r', os)) :
    r.Elsewhere r' os := by
  unfold downloadDrop at h
  split at h
  · cases h
    exact .of_same rfl rfl rfl rfl rfl
  · cases h
    exact elsewhere_dropDownload rfl
  · cases h

theorem elsewhere_uploadResume (h : r.uploadResume token = some (r', os)) :
    r.Elsewhere r' os := by
  obtain ⟨task, waiter, answer, -, -, -, hresumed⟩ := uploadResume_resumed h
  generalize uploadAnswer answer = result at hresumed
  cases hresumed with
  | flushes =>
    exact Elsewhere.send (t := (r.draw 1).setUpload token (.flushing r.fresh))
      (c := .flushUpload token r.fresh) (.of_same rfl rfl rfl rfl rfl) fun _ => rfl
  | starts | goesOn => exact .of_same rfl rfl rfl rfl rfl
  | done | refused => exact elsewhere_respond

theorem elsewhere_uploadBody {item : BodyItem} (h : r.uploadBody token item = some (r', os)) :
    r.Elsewhere r' os := by
  have hchunk (n : ℕ) (chunk : Chunk) (next : Option Bytes) :
      r.Elsewhere ((r.draw n).sendChunk token chunk next).1 [] :=
    Elsewhere.send (c := .uploadData token chunk (r.draw n).fresh)
      (t := ((r.draw n).draw 1).setUpload token (.sending next (r.draw n).fresh))
      (.of_same rfl rfl rfl rfl rfl) fun _ => rfl
  unfold uploadBody at h
  split at h
  · cases h
    exact elsewhere_respond
  · cases h
    exact .of_same rfl rfl rfl rfl rfl
  · cases h
    exact hchunk 1 _ none
  · cases h
    exact hchunk 1 _ _
  · cases h
    exact hchunk 0 _ none
  · cases h

theorem elsewhere_uploadDrop (h : r.uploadDrop token = some (r', os)) : r.Elsewhere r' os := by
  unfold uploadDrop at h
  split_ifs at h
  cases h
  exact Elsewhere.send (t := r.setUpload token .ended) (c := .disconnected token .uploader)
    (.of_same rfl rfl rfl rfl rfl) fun _ => rfl

inductive Carries (r : System) : SystemEvent → System → List Output → Prop
  | elsewhere {e : SystemEvent} {r' : System} {os : List Output} (h : r.Elsewhere r' os)
      (he : ∀ k, Sockets.pass r k e = k) : Carries r e r' os
  | turn {c : Command} {rest : List Command} {session : Session} {effects : List Effect}
      (hqueue : r.queue = c :: rest) (hstep : r.session.step c = some (session, effects)) :
      Carries r .turn
        (effects.foldl System.deliver
          { r with session := session, queue := if session.running then rest else [] })
        [.handled c effects]
  | asks {direction : Direction} : Carries r (.websocket direction) (r.websocket direction).1 []
  | starts {token : Token} {direction : Direction} {reply : Waiter}
      (htask : r.websockets token = some (.starting direction reply)) :
      Carries r (.websocketResume token) (r.setWebsocket token (.relaying direction)) []
  | ends {e : SystemEvent} {token : Token} {r' : System} (hevent : e.ofWebsocket token)
      (hopen : r.Open token) (h : ((r.setWebsocket token .ended).setInbox token []).Elsewhere r' [])
      (he : ∀ k, Sockets.pass r k e = k) : Carries r e r' []
  | accepts {token : Token} {direction : Direction} {command : WebsocketCommand}
      {rest : List WebsocketCommand} (htask : r.websockets token = some (.relaying direction))
      (hinbox : r.inboxes token = command :: rest) :
      Carries r (.websocketInbox token true) (r.setInbox token rest) []
  | receives {token : Token} {direction : Direction} {frame : Frame}
      (htask : r.websockets token = some (.relaying direction)) :
      Carries r (.websocketFrame token frame) (r.send (.websocketData direction frame)) []

theorem open_of_relaying (htask : r.websockets token = some (.relaying direction)) :
    r.Open token := by
  simp [Open, htask, WebsocketTask.alive]

theorem elsewhere_dropWebsocket : ((r.setWebsocket token .ended).setInbox token []).Elsewhere
    (r.dropWebsocket token direction) [] :=
  Elsewhere.send (t := (r.setWebsocket token .ended).setInbox token [])
    (c := .disconnected token (.websocket direction)) (.of_same rfl rfl rfl rfl rfl) fun _ => rfl

theorem carries_websocketResume (h : r.websocketResume token = some (r', os)) :
    r.Carries (.websocketResume token) r' os := by
  unfold websocketResume at h
  split at h
  · next direction reply htask =>
    split at h
    · cases h
    · cases h
      exact .ends rfl (by simp [Open, htask, WebsocketTask.alive]) (.of_same rfl rfl rfl rfl rfl)
        fun _ => rfl
    · cases h
      exact .starts htask
  · cases h

theorem carries_websocketInbox {sent : Bool} (h : r.websocketInbox token sent = some (r', os)) :
    r.Carries (.websocketInbox token sent) r' os := by
  unfold websocketInbox at h
  split at h
  · next direction htask =>
    split at h
    · next rest hinbox =>
      cases h
      refine .ends rfl (open_of_relaying htask) elsewhere_dropWebsocket fun k => ?_
      cases sent <;> simp [Sockets.pass, hinbox]
    · next command rest _ hinbox =>
      cases sent with
      | false =>
        cases h
        exact .ends rfl (open_of_relaying htask) elsewhere_dropWebsocket fun _ => rfl
      | true =>
        cases h
        exact .accepts htask hinbox
    · next hinbox =>
      split_ifs at h
      cases h
      refine .ends rfl (open_of_relaying htask) elsewhere_dropWebsocket fun k => ?_
      cases sent <;> simp [Sockets.pass, hinbox]
  · cases h

theorem carries_websocketFrame {frame : Frame}
    (h : r.websocketFrame token frame = some (r', os)) :
    r.Carries (.websocketFrame token frame) r' os := by
  unfold websocketFrame at h
  split at h
  · next htask =>
    cases h
    exact .receives htask
  · cases h

theorem carries_websocketEnd (h : r.websocketEnd token = some (r', os)) :
    r.Carries (.websocketEnd token) r' os := by
  unfold websocketEnd at h
  split at h
  · next htask =>
    cases h
    exact .ends rfl (open_of_relaying htask) elsewhere_dropWebsocket fun _ => rfl
  · cases h

theorem elsewhere_request {command : Waiter → Command} (hplain : Command.Plain command) :
    r.Elsewhere (r.request command).1 [] := by
  refine Elsewhere.send (t := r.draw 1) (c := command r.fresh) (.of_same rfl rfl rfl rfl rfl) ?_
  rcases hplain with rfl | rfl | ⟨position, rfl⟩ <;> exact fun _ => rfl

theorem step_carries (h : r.step e = some (r', os)) : r.Carries e r' os := by
  cases e with
  | turn =>
    obtain ⟨c, rest, session, effects, hqueue, hstep, rfl, rfl⟩ := turn_eq_some h
    exact .turn hqueue hstep
  | metadata =>
    cases h
    exact .elsewhere (elsewhere_request (.inl rfl)) fun _ => rfl
  | finishDownload =>
    cases h
    exact .elsewhere (elsewhere_request (.inr (.inl rfl))) fun _ => rfl
  | checkStartUpload position =>
    cases h
    exact .elsewhere (elsewhere_request (.inr (.inr ⟨position, rfl⟩))) fun _ => rfl
  | download position =>
    cases h
    exact .elsewhere (Elsewhere.send
      (t := (r.draw 2).setDownload r.fresh (.starting (r.fresh + 1)))
      (c := .startDownload ⟨r.fresh, position, r.fresh⟩ (r.fresh + 1))
      (.of_same rfl rfl rfl rfl rfl) fun _ => rfl) fun _ => rfl
  | downloadResume token => exact .elsewhere (elsewhere_downloadResume h) fun _ => rfl
  | downloadPoll token => exact .elsewhere (elsewhere_downloadPoll h) fun _ => rfl
  | downloadDrop token => exact .elsewhere (elsewhere_downloadDrop h) fun _ => rfl
  | upload position =>
    cases h
    exact .elsewhere (Elsewhere.send
      (t := (r.draw 2).setUpload r.fresh (.starting (r.fresh + 1)))
      (c := .startUpload r.fresh position (r.fresh + 1))
      (.of_same rfl rfl rfl rfl rfl) fun _ => rfl) fun _ => rfl
  | uploadResume token => exact .elsewhere (elsewhere_uploadResume h) fun _ => rfl
  | uploadBody token item => exact .elsewhere (elsewhere_uploadBody h) fun _ => rfl
  | uploadDrop token => exact .elsewhere (elsewhere_uploadDrop h) fun _ => rfl
  | websocket direction =>
    cases h
    exact .asks
  | websocketResume token => exact carries_websocketResume h
  | websocketInbox token sent => exact carries_websocketInbox h
  | websocketFrame token frame => exact carries_websocketFrame h
  | websocketEnd token => exact carries_websocketEnd h

end System

/-! ### What a session sends to a channel -/

def commandsOn (token : Token) (effects : List Effect) : List WebsocketCommand :=
  effects.filterMap fun
    | .websocket commands command => if commands = token then some command else none
    | _ => none

theorem framesIn_commandsOn : framesIn (commandsOn token effects) = framesOn token effects := by
  unfold framesIn commandsOn framesOn
  rw [List.filterMap_filterMap]
  refine List.filterMap_congr fun o _ => ?_
  cases o with
  | websocket commands command =>
    by_cases hsame : commands = token
    · cases command <;> simp [Effect.frameOn, WebsocketCommand.frame, hsame]
    · cases command <;> simp [Effect.frameOn, hsame]
  | event events event => rfl
  | reply waiter reply => rfl

theorem deliver_inboxes (o : Effect) : (r.deliver o).inboxes token =
    if r.Open token then r.inboxes token ++ commandsOn token [o] else r.inboxes token := by
  cases o with
  | event events event =>
    simp only [System.deliver]
    split_ifs <;> simp [commandsOn, System.setChannel]
  | websocket commands command =>
    simp only [System.deliver]
    by_cases hsame : commands = token
    · subst hsame
      by_cases hopen : r.Open commands
      · have hany := hopen
        simp only [System.Open] at hany
        simp [hopen, hany, commandsOn, System.setInbox]
      · have hany := hopen
        simp only [System.Open] at hany
        simp [hopen, hany]
    · split_ifs <;> simp [commandsOn, System.setInbox, hsame, Ne.symm hsame]
  | reply waiter reply => simp [System.deliver, commandsOn]

theorem deliverAll_inboxes : (effects.foldl System.deliver r).inboxes token =
    if r.Open token then r.inboxes token ++ commandsOn token effects else r.inboxes token := by
  induction effects generalizing r with
  | nil => simp [commandsOn]
  | cons o effects ih =>
    have hopen : (r.deliver o).Open token ↔ r.Open token := by
      rw [System.Open, (r.deliver_frame o).2.2.2.2.2, System.Open]
    have hcons : commandsOn token (o :: effects) =
        commandsOn token [o] ++ commandsOn token effects := by
      simp [commandsOn, ← List.filterMap_append]
    rw [List.foldl_cons, ih, deliver_inboxes, hcons]
    simp only [hopen]
    split_ifs <;> simp

/-! ### The channels of the peers -/

theorem startWebsocket_commands (hrun : (relaySystem metadata).Run tr r) {peer : WebsocketPeer}
    {reply : Waiter} (hsent : Sent tr r (.startWebsocket direction peer reply)) :
    peer.commands = peer.token := by
  revert hsent
  refine hrun.history (P := fun tr r => Sent tr r (.startWebsocket direction peer reply) →
    peer.commands = peer.token) ?_ ?_
  · simp [Sent, handledIn, relaySystem, System.spawn]
  · intro tr r e r' os _ ih _ hstep hsent
    rcases sent_new (System.step_change hstep) hsent with hold | hsends
    · exact ih hold
    · generalize hc : Command.startWebsocket direction peer reply = c at hsends
      cases hsends with
      | plain hplain => rcases hplain with rfl | rfl | ⟨position, rfl⟩ <;> cases hc
      | websocket =>
        obtain ⟨-, rfl, -⟩ := Command.startWebsocket.inj hc
        rfl
      | download | upload | flush | chunk | frame | left => cases hc

theorem registrations_eq (hrun : (relaySystem metadata).Run tr r) (direction : Direction) :
    registrations direction (handledIn tr) = registered (.websocket direction) (handledIn tr) := by
  refine List.filterMap_congr fun x hmem => ?_
  obtain ⟨c, effects⟩ := x
  cases c with
  | startWebsocket target peer reply =>
    have hcommands := startWebsocket_commands hrun (.inl ⟨effects, hmem⟩)
    simp only [Command.asksFor, Command.registers, Role.websocket.injEq, hcommands]
  | startDownload downloader reply => simp [Command.asksFor, Command.registers]
  | startUpload token position reply => simp [Command.asksFor, Command.registers]
  | _ => rfl

theorem mem_registrations (hrun : (relaySystem metadata).Run tr r)
    (hmem : token ∈ registrations direction (handledIn tr)) :
    ∃ c effects, (c, effects) ∈ handledIn tr ∧
      c.registers = some (.websocket direction, token) ∧ c.waiter = some (token + 1) := by
  rw [registrations_eq hrun] at hmem
  obtain ⟨⟨c, effects⟩, hmem, hasks⟩ := List.mem_filterMap.mp hmem
  have hregisters := asksFor_eq_some.mp hasks
  exact ⟨c, effects, hmem, hregisters, registers_waiter hrun (.inl ⟨effects, hmem⟩) hregisters⟩

theorem distinct_channels (hrun : (relaySystem metadata).Run tr r) :
    DistinctChannels (handledIn tr) := by
  have hnodup (direction : Direction) : (registrations direction (handledIn tr)).Nodup := by
    rw [registrations_eq hrun]
    exact registered_nodup hrun _
  refine List.nodup_append.mpr ⟨hnodup .upload, hnodup .download, fun token hup _ hdown heq => ?_⟩
  subst heq
  obtain ⟨c, effects, hc, hregisters, hwaiter⟩ := mem_registrations hrun hup
  obtain ⟨d, effects', hd, hregisters', hwaiter'⟩ := mem_registrations hrun hdown
  have hwaiters : (waiters (handledIn tr)).Nodup :=
    (List.nodup_append.mp (Named.of_run hrun).nodup).1
  obtain rfl := waiter_unique hwaiters hc hd hwaiter hwaiter'
  rw [hregisters] at hregisters'
  cases hregisters'

theorem sentTo_fresh (hrun : (relaySystem metadata).Run tr r) (hfresh : r.fresh ≤ token) :
    sentTo (handledIn tr) token = [] := by
  have hnot (direction : Direction) : token ∉ registrations direction (handledIn tr) := by
    intro hmem
    obtain ⟨c, effects, hc, -, hwaiter⟩ := mem_registrations hrun hmem
    have hdrawn := (Named.of_run hrun).drawn (token + 1)
      (List.mem_append_left _ (mem_waiters.mpr ⟨c, effects, hc, hwaiter⟩))
    exact absurd hdrawn (Nat.not_lt.mpr (Nat.le_succ_of_le hfresh))
  exact (Signals.of_run (handledIn_run hrun) (distinct_channels hrun) .upload).unused token
    (hnot .upload) (hnot .download)

/-! ### One channel over a run -/

structure Passed (tr : Trace SystemEvent Output) (r : System) (k : Sockets) (token : Token) :
    Prop where
  sent : sentTo (handledIn tr) token =
    k.accepted token ++ k.lost token ++ framesIn (r.inboxes token)
  lost : r.Open token → k.lost token = []
  closed : ¬r.Open token → r.inboxes token = []

namespace Passed

theorem spawn : Passed [] (System.spawn metadata) .empty token where
  sent := rfl
  lost _ := rfl
  closed _ := rfl

theorem same {tr' : Trace SystemEvent Output} (h : Passed tr r k token)
    (hhandled : handledIn tr' = handledIn tr) (hinbox : r'.inboxes token = r.inboxes token)
    (hopen : r'.Open token ↔ r.Open token) (haccepted : k'.accepted token = k.accepted token)
    (hlost : k'.lost token = k.lost token) : Passed tr' r' k' token where
  sent := by rw [hhandled, haccepted, hlost, hinbox]; exact h.sent
  lost h' := by rw [hlost]; exact h.lost (hopen.mp h')
  closed h' := by rw [hinbox]; exact h.closed fun hr => h' (hopen.mpr hr)

section Losses
variable (hstep : r.step e = some (r', os))
include hstep

theorem losses_open (hopen : r.Open token) (hopen' : r'.Open token) :
    Sockets.losses r k e os token = k.lost token := by
  simp [Sockets.losses, hopen, hstep, hopen']

theorem losses_ended (hopen : r.Open token) (hopen' : ¬r'.Open token) :
    Sockets.losses r k e os token = framesIn (r.inboxes token) := by
  simp [Sockets.losses, hopen, hstep, hopen']

omit hstep in
theorem losses_closed (hclosed : ¬r.Open token) (hquiet : os.filterMap Output.handling = []) :
    Sockets.losses r k e os token = k.lost token := by
  simp [Sockets.losses, hclosed, hquiet]

theorem losses_same (hopen : r'.Open token ↔ r.Open token)
    (hquiet : os.filterMap Output.handling = []) :
    Sockets.losses r k e os token = k.lost token := by
  by_cases h : r.Open token
  · exact losses_open hstep h (hopen.mpr h)
  · exact losses_closed h hquiet

theorem quiet (h : Passed tr r k token) (hinbox : r'.inboxes token = r.inboxes token)
    (hwebsocket : r'.websockets token = r.websockets token)
    (haccepted : (Sockets.pass r k e).accepted token = k.accepted token)
    (hquiet : os.filterMap Output.handling = []) :
    Passed (tr ++ [(e, os)]) r' (.next r k e os) token := by
  have hopen : r'.Open token ↔ r.Open token := by rw [System.Open, hwebsocket, System.Open]
  exact h.same (by simp [hquiet]) hinbox hopen haccepted (losses_same hstep hopen hquiet)

end Losses

theorem turn (h : Passed tr r k token) (hstep : r.step .turn = some (r', [.handled c effects]))
    (hwebsockets : r'.websockets = r.websockets)
    (hinbox : r'.inboxes token =
      if r.Open token then r.inboxes token ++ commandsOn token effects else r.inboxes token) :
    Passed (tr ++ [(.turn, [.handled c effects])]) r' (.next r k .turn [.handled c effects])
      token := by
  have hopen : r'.Open token ↔ r.Open token := by rw [System.Open, hwebsockets, System.Open]
  have hsent : sentTo (handledIn (tr ++ [(.turn, [.handled c effects])])) token =
      k.accepted token ++ k.lost token ++ framesIn (r.inboxes token) ++ framesOn token effects := by
    rw [handledIn_turn, sentTo_snoc, h.sent]
  by_cases hr : r.Open token
  · have hlost : Sockets.losses r k .turn [.handled c effects] token = [] := by
      rw [losses_open hstep hr (hopen.mpr hr), h.lost hr]
    rw [if_pos hr] at hinbox
    refine ⟨?_, fun _ => hlost, fun hclosed => absurd (hopen.mpr hr) hclosed⟩
    show _ = k.accepted token ++ Sockets.losses r k .turn [.handled c effects] token ++ _
    rw [hsent, h.lost hr, hlost, hinbox, framesIn_append, framesIn_commandsOn, ← List.append_assoc]
  · have hlost : Sockets.losses r k .turn [.handled c effects] token =
        k.lost token ++ framesOn token effects := by
      simp [Sockets.losses, hr, Output.handling]
    rw [if_neg hr] at hinbox
    refine ⟨?_, fun hopened => absurd (hopen.mp hopened) hr, fun _ => hinbox.trans (h.closed hr)⟩
    show _ = k.accepted token ++ Sockets.losses r k .turn [.handled c effects] token ++ _
    rw [hsent, hlost, hinbox, h.closed hr]
    simp [framesIn]

theorem asked (h : Passed tr r k r.fresh) (hrun : (relaySystem metadata).Run tr r) :
    Passed (tr ++ [(.websocket direction, [])]) (r.websocket direction).1
      (.next r k (.websocket direction) []) r.fresh := by
  have hnone : r.websockets r.fresh = none :=
    (System.Fresh.of_run hrun).websockets r.fresh (Nat.le_refl _)
  have hclosed : ¬r.Open r.fresh := by simp [System.Open, hnone]
  have hempty := sentTo_fresh hrun (Nat.le_refl r.fresh)
  have hsent := h.sent
  rw [hempty, eq_comm, List.append_eq_nil_iff, List.append_eq_nil_iff] at hsent
  obtain ⟨⟨haccepted, hlost⟩, -⟩ := hsent
  have hlost' : Sockets.losses r k (.websocket direction) [] r.fresh = [] :=
    (losses_closed hclosed rfl).trans hlost
  have hinbox : (r.websocket direction).1.inboxes r.fresh = [] := h.closed hclosed
  refine ⟨?_, fun _ => hlost', fun _ => hinbox⟩
  show sentTo (handledIn (tr ++ [(.websocket direction, [])])) r.fresh =
    k.accepted r.fresh ++ Sockets.losses r k (.websocket direction) [] r.fresh ++ _
  rw [hlost', hinbox, haccepted]
  simpa using hempty

theorem ended (h : Passed tr r k token) (hstep : r.step e = some (r', []))
    (hopen : r.Open token)
    (hframe : ((r.setWebsocket token .ended).setInbox token []).Elsewhere r' [])
    (he : ∀ k, Sockets.pass r k e = k) : Passed (tr ++ [(e, [])]) r' (.next r k e []) token := by
  have hclosed : ¬r'.Open token := by
    rw [System.Open, hframe.websockets]
    simp [System.setInbox, System.setWebsocket, WebsocketTask.alive]
  have hinbox : r'.inboxes token = [] := by
    rw [hframe.inboxes]
    simp [System.setInbox]
  refine ⟨?_, fun hopened => absurd hopened hclosed, fun _ => hinbox⟩
  show _ = (Sockets.pass r k e).accepted token ++ Sockets.losses r k e [] token ++ _
  rw [he, losses_ended hstep hopen hclosed, hinbox]
  simpa [framesIn, h.lost hopen] using h.sent

theorem accepted {command : WebsocketCommand} {rest : List WebsocketCommand}
    (h : Passed tr r k token)
    (hstep : r.step (.websocketInbox token true) = some (r.setInbox token rest, []))
    (htask : r.websockets token = some (.relaying direction))
    (hinbox : r.inboxes token = command :: rest) :
    Passed (tr ++ [(.websocketInbox token true, [])]) (r.setInbox token rest)
      (.next r k (.websocketInbox token true) []) token := by
  have hopen : r.Open token := System.open_of_relaying htask
  have hrest : (r.setInbox token rest).inboxes token = rest := Function.update_self _ _ _
  have hlost : Sockets.losses r k (.websocketInbox token true) [] token = [] := by
    rw [losses_open hstep hopen hopen, h.lost hopen]
  have haccepted : (Sockets.pass r k (.websocketInbox token true)).accepted token =
      k.accepted token ++ framesIn [command] := by
    cases command <;> simp [Sockets.pass, hinbox, Sockets.accept, framesIn,
      WebsocketCommand.frame]
  have hsent := h.sent
  rw [hinbox, h.lost hopen, ← List.singleton_append, framesIn_append] at hsent
  refine ⟨?_, fun _ => hlost, fun hclosed => absurd hopen hclosed⟩
  show _ = (Sockets.pass r k (.websocketInbox token true)).accepted token ++
    Sockets.losses r k (.websocketInbox token true) [] token ++ _
  rw [haccepted, hlost, hrest]
  simpa using hsent

theorem step (h : ∀ token, Passed tr r k token) (hrun : (relaySystem metadata).Run tr r)
    (hstep : r.step e = some (r', os)) (token : Token) :
    Passed (tr ++ [(e, os)]) r' (.next r k e os) token := by
  cases System.step_carries hstep with
  | elsewhere hframe he =>
    exact (h token).quiet hstep (by rw [hframe.inboxes]) (by rw [hframe.websockets])
      (by rw [he]) hframe.quiet
  | turn hqueue hturn =>
    exact (h token).turn hstep System.deliverAll_websockets deliverAll_inboxes
  | @asks direction =>
    by_cases hsame : token = r.fresh
    · subst hsame
      exact (h r.fresh).asked hrun
    · refine (h token).quiet hstep rfl ?_ rfl rfl
      simp [System.websocket, System.send, System.setWebsocket, System.draw, hsame]
  | @starts started direction reply htask =>
    have hopen : (r.setWebsocket started (.relaying direction)).Open token ↔ r.Open token := by
      by_cases hsame : token = started
      · subst hsame
        simp [System.Open, System.setWebsocket, htask, WebsocketTask.alive]
      · simp [System.Open, System.setWebsocket, hsame]
    exact (h token).same (by simp) rfl hopen rfl (losses_same hstep hopen rfl)
  | @ends _ ended _ _ hopen hframe he =>
    by_cases hsame : token = ended
    · subst hsame
      exact (h token).ended hstep hopen hframe he
    · refine (h token).quiet hstep ?_ ?_ (by rw [he]) rfl
      · rw [hframe.inboxes]
        simp [System.setInbox, System.setWebsocket, hsame]
      · rw [hframe.websockets]
        simp [System.setInbox, System.setWebsocket, hsame]
  | @accepts accepting direction command rest htask hinbox =>
    by_cases hsame : token = accepting
    · subst hsame
      exact (h token).accepted hstep htask hinbox
    · refine (h token).quiet hstep (Function.update_of_ne hsame _ _) rfl ?_ rfl
      cases command <;> simp [Sockets.pass, hinbox, Sockets.accept, hsame]
  | @receives sender direction frame htask =>
    refine (h token).quiet hstep rfl rfl ?_ rfl
    simp [Sockets.pass, htask, Sockets.receive]

end Passed

/-! ### From the sockets of a side to the session -/

def Queued (tr : Trace SystemEvent Output) (r : System) (k : Sockets) (direction : Direction) :
    Prop :=
  ∃ rest, framesFrom direction ((handledIn tr).map Prod.fst) ++ framesFrom direction r.queue ++
      rest = k.received direction ∧ (r.session.running = true → rest = [])

theorem Queued.same (h : Queued tr r k direction) (hsession : r'.session = r.session)
    (hqueue : framesFrom direction r'.queue = framesFrom direction r.queue)
    (hquiet : os.filterMap Output.handling = [])
    (hreceived : k'.received direction = k.received direction) :
    Queued (tr ++ [(e, os)]) r' k' direction := by
  obtain ⟨rest, heq, hrest⟩ := h
  refine ⟨rest, ?_, by rwa [hsession]⟩
  rw [handledIn_snoc, hquiet, List.append_nil, hqueue, hreceived, heq]

theorem Queued.step (h : Queued tr r k direction) (hstep : r.step e = some (r', os)) :
    Queued (tr ++ [(e, os)]) r' (.next r k e os) direction := by
  cases System.step_carries hstep with
  | elsewhere hframe he =>
    exact h.same hframe.session (hframe.frames direction) hframe.quiet (by simp [Sockets.next, he])
  | @turn c queue session effects hqueue hturn =>
    obtain ⟨rest, heq, hrest⟩ := h
    obtain rfl := hrest (Session.step_eq_some.mp hturn).1
    have hreceived : k.received direction =
        framesFrom direction ((handledIn tr).map Prod.fst) ++ framesFrom direction [c] ++
          framesFrom direction queue := by
      rw [← heq, hqueue, ← List.singleton_append, framesFrom_append]
      simp
    refine ⟨if session.running then [] else framesFrom direction queue, ?_, ?_⟩
    · rw [handledIn_turn, System.deliverAll_queue]
      show _ = k.received direction
      rw [hreceived, List.map_append, framesFrom_append]
      split_ifs <;> simp [framesFrom]
    · rw [System.deliverAll_session]
      exact fun hrunning => if_pos hrunning
  | @asks target =>
    exact h.same rfl (System.framesFrom_send
      (t := (r.draw 2).setWebsocket r.fresh (.starting target (r.fresh + 1))) rfl) rfl rfl
  | starts htask => exact h.same rfl rfl rfl rfl
  | ends _ hopen hframe he =>
    exact h.same hframe.session (hframe.frames direction) rfl (by simp [Sockets.next, he])
  | @accepts token _ command _ htask hinbox =>
    refine h.same rfl rfl rfl ?_
    cases command <;> simp [Sockets.next, Sockets.pass, hinbox, Sockets.accept]
  | @receives token sender frame htask =>
    by_cases hsender : sender = direction
    · subst hsender
      obtain ⟨rest, heq, hrest⟩ := h
      have hreceived : (Sockets.next r k (.websocketFrame token frame) []).received sender =
          k.received sender ++ [frame] := by
        simp [Sockets.next, Sockets.pass, htask, Sockets.receive]
      refine ⟨if r.session.running then [] else rest ++ [frame], ?_,
        fun hrunning => if_pos hrunning⟩
      rw [handledIn_snoc, hreceived, ← heq]
      simp only [System.send]
      split_ifs with hrunning
      · simp [hrest hrunning, framesFrom, Command.frameFrom]
      · simp
    · refine h.same rfl (System.framesFrom_send ?_) rfl ?_
      · simp [Command.frameFrom, hsender]
      · simp [Sockets.next, Sockets.pass, htask, Sockets.receive, Ne.symm hsender]

/-! ### From socket to socket -/

theorem kept_sublist {s : State} : (s.kept direction c).Sublist
    (framesFrom direction.other [c]) := by
  cases c with
  | websocketData sender frame =>
    by_cases hsender : sender.other = direction
    · subst hsender
      have hframe : framesFrom sender.other.other [.websocketData sender frame] = [frame] := by
        simp [framesFrom, Command.frameFrom, Direction.other_other]
      rw [hframe]
      simp only [State.kept]
      split_ifs
      · exact List.Sublist.refl _
      · exact List.nil_sublist _
    · simp [State.kept, hsender]
  | _ => exact List.nil_sublist _

theorem keptFrames_sublist {s : State} {cs : List Command} :
    (keptFrames direction s cs).Sublist (framesFrom direction.other cs) := by
  induction cs generalizing s with
  | nil => exact List.Sublist.refl _
  | cons c cs ih =>
    rw [keptFrames, ← List.singleton_append, framesFrom_append]
    exact kept_sublist.append ih

/-- The frames held for a side are among those that came for it, so that a queue that is full has
seen as many. -/
theorem keptFrames_of_few {tr : Trace Command Effect} {session : Session}
    (hrun : (sessionTask metadata).Run tr session) (hdistinct : DistinctChannels tr)
    (hfew : (framesFrom direction.other (tr.map Prod.fst)).length ≤ maxHeldFrames) :
    keptFrames direction (Session.spawn metadata).state (tr.map Prod.fst) =
      framesFrom direction.other (tr.map Prod.fst) := by
  revert hdistinct hfew
  refine hrun.history (P := fun tr _ => DistinctChannels tr →
    (framesFrom direction.other (tr.map Prod.fst)).length ≤ maxHeldFrames →
    keptFrames direction (Session.spawn metadata).state (tr.map Prod.fst) =
      framesFrom direction.other (tr.map Prod.fst)) (fun _ _ => rfl) ?_
  intro tr session c next os hpath ih _ hstep hdistinct hfew
  obtain ⟨-, rfl, rfl⟩ := Session.step_eq_some.mp hstep
  have hsignals := Signals.of_run hpath hdistinct.init direction
  have hbefore := ih hdistinct.init (Nat.le_trans (by simp) hfew)
  have hheld : (session.state.heldFrames direction).length ≤
      (framesFrom direction.other (tr.map Prod.fst)).length := by
    rw [← hbefore, ← hsignals.ordered, List.length_append]
    exact Nat.le_add_left _ _
  rw [hsignals.kept_snoc, hbefore, List.map_append, framesFrom_append]
  congr 1
  cases c with
  | websocketData sender frame =>
    by_cases hsender : sender = direction.other
    · subst hsender
      have hroom : (session.state.heldFrames direction).length ≠ maxHeldFrames := by
        have hlast : framesFrom direction.other [.websocketData direction.other frame] =
            [frame] := by simp [framesFrom, Command.frameFrom]
        rw [List.map_append, framesFrom_append, List.length_append] at hfew
        simp only [List.map_cons, List.map_nil, hlast, List.length_singleton] at hfew
        omega
      simp [State.kept, Direction.other_other, hroom, framesFrom, Command.frameFrom]
    · have hother : sender.other ≠ direction := by
        rintro rfl
        exact hsender Direction.other_other.symm
      simp [State.kept, hother, framesFrom, Command.frameFrom, hsender]
  | _ => rfl

section Run
variable (hrun : ((relaySystem metadata).withGhost Sockets.empty Sockets.next).Run tr (r, k))
include hrun

theorem path_passed (token : Token) : Passed tr r k token := by
  refine hrun.history (P := fun tr p => ∀ token, Passed tr p.1 p.2 token)
    (fun _ => Passed.spawn) ?_ token
  rintro tr ⟨r, k⟩ e ⟨r', k'⟩ os hpath ih _ hstep
  obtain ⟨hnext, rfl⟩ := EventMachine.withGhost_step.mp hstep
  exact Passed.step ih hpath.forget hnext

theorem path_queued (direction : Direction) : Queued tr r k direction := by
  refine hrun.history (P := fun tr p => Queued tr p.1 p.2 direction) ⟨[], rfl, fun _ => rfl⟩ ?_
  rintro tr ⟨r, k⟩ e ⟨r', k'⟩ os _ ih _ hstep
  obtain ⟨hnext, rfl⟩ := EventMachine.withGhost_step.mp hstep
  exact Queued.step ih hnext

/-- What the sockets of a side accepted, one after the other in the order of their registration,
are frames that the sockets of the other side delivered, in order. As long as the session runs and
not more of them came than it holds, each of them is somewhere: accepted by a socket, lost with one,
in the inbox of one, held, or in the queue. -/
theorem sockets_carry_signaling (direction : Direction) :
    ((registrations direction (handledIn tr)).flatMap k.accepted).Sublist
        (k.received direction.other) ∧
      (r.session.running = true → (k.received direction.other).length ≤ maxHeldFrames →
        ((registrations direction (handledIn tr)).flatMap fun token =>
            k.accepted token ++ k.lost token ++ framesIn (r.inboxes token)) ++
          r.session.state.heldFrames direction ++ framesFrom direction.other r.queue =
            k.received direction.other) := by
  have hsession := handledIn_run hrun.forget
  have hdistinct := distinct_channels hrun.forget
  have hordered := (Signals.of_run hsession hdistinct direction).ordered
  obtain ⟨rest, hreceived, hrest⟩ := path_queued hrun direction.other
  constructor
  · have haccepted : ((registrations direction (handledIn tr)).flatMap k.accepted).Sublist
        ((registrations direction (handledIn tr)).flatMap (sentTo (handledIn tr))) := by
      refine List.Sublist.flatMap_right _ fun token _ => ?_
      rw [(path_passed hrun token).sent, List.append_assoc]
      exact List.sublist_append_left _ _
    have hkept := (List.sublist_append_left _ _).trans (hordered ▸ keptFrames_sublist)
    rw [← hreceived, List.append_assoc]
    exact haccepted.trans (hkept.trans (List.sublist_append_left _ _))
  · intro hrunning hfew
    obtain rfl := hrest hrunning
    rw [List.append_nil] at hreceived
    have hhandled : (framesFrom direction.other ((handledIn tr).map Prod.fst)).length ≤
        maxHeldFrames := by
      rw [← hreceived, List.length_append] at hfew
      exact Nat.le_of_add_right_le hfew
    have hsent : ((registrations direction (handledIn tr)).flatMap fun token =>
        k.accepted token ++ k.lost token ++ framesIn (r.inboxes token)) =
        (registrations direction (handledIn tr)).flatMap (sentTo (handledIn tr)) :=
      List.flatMap_congr fun token _ => (path_passed hrun token).sent.symm
    rw [hsent, hordered, keptFrames_of_few hsession hdistinct hhandled, hreceived]

end Run

def candidateLost : List SystemEvent :=
  [.websocket .download, .turn, .websocketResume 0, .websocketFrame 0 (.text "offer"), .turn,
    .websocket .upload, .turn, .websocketResume 2, .websocketInbox 2 true,
    .websocketFrame 0 (.text "candidate"), .turn, .websocketEnd 2]

theorem sockets_carry_signaling_lost : ∃ tr r k,
    ((relaySystem "").withGhost .empty Sockets.next).exec (.spawn "", .empty) candidateLost =
        some (tr, (r, k)) ∧
      k.accepted 2 = [.text "offer"] ∧ k.lost 2 = [.text "candidate"] ∧
      ((registrations .upload (handledIn tr)).flatMap k.accepted).Sublist
        (k.received .download) := by
  have hexec : ((relaySystem "").withGhost .empty Sockets.next).exec
      (.spawn "", .empty) candidateLost = some (_, (_, _)) := rfl
  exact ⟨_, _, _, hexec, rfl, rfl,
    (sockets_carry_signaling (EventMachine.exec_run _ hexec) .upload).1⟩

end Glopfile.Relay
