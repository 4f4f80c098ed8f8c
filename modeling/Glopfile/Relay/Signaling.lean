import Glopfile.Relay.Connections
import Mathlib.Data.List.Basic

/-!
# The relay of signaling frames

Each side of a session has at most one websocket peer registered, and a queue that holds
what the other side sends while there is none. Over a whole run the successive peers of a
side receive, each on a channel of its own, the frames of the other side in order; only
those are lost that come when nobody is registered and the queue is full. The progress acks
that share the channel of the uploader's peer are left out.
-/

namespace Glopfile.Relay

open EventMachine (Trace)

variable {metadata : String} {session : Session} {tr : Trace Command Effect} {s : State}
  {c : Command} {os os' : List Effect} {commands : Sender} {direction : Direction}

def registrations (direction : Direction) (tr : Trace Command Effect) : List Sender :=
  tr.filterMap fun x =>
    match x.1 with
    | .startWebsocket d peer _ => if d = direction then some peer.commands else none
    | _ => none

def Effect.frameOn (commands : Sender) : Effect → Option Frame
  | .websocket channel (.send frame) => if channel = commands then some frame else none
  | _ => none

def framesOn (commands : Sender) (os : List Effect) : List Frame :=
  os.filterMap (Effect.frameOn commands)

def sentTo (tr : Trace Command Effect) (commands : Sender) : List Frame :=
  tr.flatMap fun x => framesOn commands x.2

def State.kept (s : State) (direction : Direction) : Command → List Frame
  | .websocketData sender frame =>
    if sender.other = direction ∧
        ¬(s.websocket direction = none ∧ (s.heldFrames direction).length = maxHeldFrames) then
      [frame]
    else []
  | _ => []

def keptFrames (direction : Direction) : State → List Command → List Frame
  | _, [] => []
  | s, c :: cs => s.kept direction c ++ keptFrames direction (s.handle c).state cs

def State.after (s : State) (cs : List Command) : State :=
  cs.foldl (fun s c => (s.handle c).state) s

theorem keptFrames_append {cs ds : List Command} :
    keptFrames direction s (cs ++ ds) =
      keptFrames direction s cs ++ keptFrames direction (s.after cs) ds := by
  induction cs generalizing s with
  | nil => rfl
  | cons c cs ih =>
    simp only [List.cons_append, keptFrames, ih, List.append_assoc]
    rfl

@[simp] theorem framesOn_nil : framesOn commands [] = [] := rfl

@[simp] theorem framesOn_append :
    framesOn commands (os ++ os') = framesOn commands os ++ framesOn commands os' := by
  simp [framesOn]

@[simp] theorem framesOn_event {events : Sender} {event : DownloadEvent} :
    framesOn commands (.event events event :: os) = framesOn commands os := rfl

@[simp] theorem framesOn_reply {waiter : Waiter} {reply : Reply} :
    framesOn commands (.reply waiter reply :: os) = framesOn commands os := rfl

@[simp] theorem framesOn_replyUpload {waiter : Waiter} {result : UploadResult} :
    framesOn commands (replyUpload waiter result :: os) = framesOn commands os := rfl

@[simp] theorem framesOn_sessionError {channel : Sender} :
    framesOn commands (.websocket channel .sessionError :: os) = framesOn commands os := rfl

@[simp] theorem framesOn_send {channel : Sender} {frame : Frame} :
    framesOn commands [.websocket channel (.send frame)] =
      if channel = commands then [frame] else [] := by
  by_cases h : channel = commands <;> simp [framesOn, Effect.frameOn, h]

@[simp] theorem framesOn_sendAll {channel : Sender} {frames : List Frame} :
    framesOn commands (frames.map fun frame => Effect.websocket channel (.send frame)) =
      if channel = commands then frames else [] := by
  by_cases h : channel = commands
  · simp [framesOn, Effect.frameOn, Function.comp_def, h]
  · simp [framesOn, Effect.frameOn, Function.comp_def, h]

@[simp] theorem framesOn_replyTo {waiter : Option Waiter} {result : UploadResult} :
    framesOn commands (replyTo waiter result) = [] := by cases waiter <;> rfl

@[simp] theorem framesOn_sendUploadProgress {ws : Option WebsocketPeer} {position : Position} :
    framesOn commands (sendUploadProgress ws position) = [] := by cases ws <;> rfl

@[simp] theorem framesOn_replaceDownloader : framesOn commands s.replaceDownloader = [] := by
  unfold State.replaceDownloader
  split <;> rfl

@[simp] theorem framesOn_evictUploader : framesOn commands s.evictUploader.2 = [] := by
  obtain ⟨waiter, h⟩ := s.evictUploader_effects
  rw [h, framesOn_replyTo]

theorem State.SameSignaling.heldFrames {t : State} (h : s.SameSignaling t) (direction : Direction) :
    t.heldFrames direction = s.heldFrames direction := by
  cases direction with
  | upload => exact h.2.2.1
  | download => exact h.2.2.2

theorem holdFrame_websocket {target : Direction} {frame : Frame} :
    (s.holdFrame target frame).websocket direction = s.websocket direction := by
  unfold State.holdFrame
  split_ifs
  · rfl
  · cases target <;> cases direction <;> rfl

theorem holdFrame_heldFrames {target : Direction} {frame : Frame} :
    (s.holdFrame target frame).heldFrames direction =
      if target = direction ∧ (s.heldFrames direction).length ≠ maxHeldFrames then
        s.heldFrames direction ++ [frame]
      else s.heldFrames direction := by
  unfold State.holdFrame
  by_cases hd : target = direction
  · subst hd
    by_cases hfull : (s.heldFrames target).length = maxHeldFrames
    · simp [hfull]
    · simp only [hfull, if_false, ne_eq, not_false_eq_true, and_self, if_true]
      cases target <;> rfl
  · have hne : ¬(target = direction ∧ (s.heldFrames direction).length ≠ maxHeldFrames) :=
      fun h => hd h.1
    rw [if_neg hne]
    split_ifs
    · rfl
    · cases target <;> cases direction <;> first | rfl | exact absurd rfl hd

theorem startWebsocket_heldFrames {target : Direction} {peer : WebsocketPeer} :
    (s.startWebsocket target peer).1.heldFrames direction =
      if target = direction then [] else s.heldFrames direction := by
  cases target <;> cases direction <;> rfl

theorem setWebsocket_heldFrames {target : Direction} {peer : Option WebsocketPeer} :
    (s.setWebsocket target peer).heldFrames direction = s.heldFrames direction := by
  cases target <;> cases direction <;> rfl

theorem startWebsocket_frames {target : Direction} {peer : WebsocketPeer} :
    framesOn commands (s.startWebsocket target peer).2 =
      if peer.commands = commands then s.heldFrames target else [] := by
  simp only [State.startWebsocket, framesOn_append, framesOn_sendAll]
  cases (s.setHeldFrames target []).websocket target <;> simp

theorem Direction.other_other : direction.other.other = direction := by cases direction <;> rfl

theorem Direction.other_ne : direction.other ≠ direction := by cases direction <;> nofun

@[simp] theorem registrations_snoc :
    registrations direction (tr ++ [(c, os)]) =
      registrations direction tr ++ registrations direction [(c, os)] := by
  simp [registrations]

@[simp] theorem sentTo_snoc :
    sentTo (tr ++ [(c, os)]) commands = sentTo tr commands ++ framesOn commands os := by
  simp [sentTo]

structure Signals (start : State) (tr : Trace Command Effect) (s : State)
    (direction : Direction) : Prop where
  reached : start.after (tr.map Prod.fst) = s
  waiting : ∀ peer, s.websocket direction = some peer → s.heldFrames direction = []
  bounded : (s.heldFrames direction).length ≤ maxHeldFrames
  current : ∀ peer, s.websocket direction = some peer →
    ∃ before, registrations direction tr = before ++ [peer.commands]
  unused : ∀ commands, commands ∉ registrations direction tr →
    commands ∉ registrations direction.other tr → sentTo tr commands = []
  ordered : (registrations direction tr).flatMap (sentTo tr) ++ s.heldFrames direction =
    keptFrames direction start (tr.map Prod.fst)

namespace Signals
variable {start : State}

theorem reached_snoc (h : Signals start tr s direction) :
    start.after ((tr ++ [(c, os)]).map Prod.fst) = (s.handle c).state := by
  have hreached := h.reached
  simp only [State.after, List.map_append, List.foldl_append, List.map_cons, List.map_nil,
    List.foldl_cons, List.foldl_nil] at hreached ⊢
  rw [hreached]

theorem kept_snoc (h : Signals start tr s direction) :
    keptFrames direction start ((tr ++ [(c, os)]).map Prod.fst) =
      keptFrames direction start (tr.map Prod.fst) ++ s.kept direction c := by
  rw [List.map_append, keptFrames_append, h.reached]
  simp [keptFrames]

theorem spawn : Signals (Session.spawn metadata).state [] (Session.spawn metadata).state
    direction where
  reached := rfl
  waiting := by cases direction <;> nofun
  bounded := by cases direction <;> exact Nat.zero_le _
  current := by cases direction <;> nofun
  unused := by simp [sentTo]
  ordered := by cases direction <;> rfl

theorem quiet (h : Signals start tr s direction)
    (hreg : ∀ d, registrations d [(c, os)] = []) (hkept : s.kept direction c = [])
    (hframes : ∀ commands, framesOn commands os = [])
    (hws : ∀ peer, (s.handle c).state.websocket direction = some peer →
      s.websocket direction = some peer)
    (hheld : (s.handle c).state.heldFrames direction = s.heldFrames direction) :
    Signals start (tr ++ [(c, os)]) (s.handle c).state direction where
  reached := h.reached_snoc
  waiting peer hpeer := by
    rw [hheld]
    exact h.waiting peer (hws peer hpeer)
  bounded := by
    rw [hheld]
    exact h.bounded
  current peer hpeer := by
    obtain ⟨before, hbefore⟩ := h.current peer (hws peer hpeer)
    exact ⟨before, by simp [hreg, hbefore]⟩
  unused commands hup hdown := by
    simp only [registrations_snoc, hreg, List.append_nil] at hup hdown
    simp [h.unused commands hup hdown, hframes]
  ordered := by
    have hsent : sentTo (tr ++ [(c, os)]) = sentTo tr := by
      funext commands
      simp [hframes]
    rw [h.kept_snoc, hkept, List.append_nil, registrations_snoc, hreg, List.append_nil, hsent,
      hheld]
    exact h.ordered

theorem elsewhere (channel : Sender) (frames : List Frame) (h : Signals start tr s direction)
    (hreg : registrations direction [(c, os)] = []) (hkept : s.kept direction c = [])
    (hframes : ∀ commands, framesOn commands os = if channel = commands then frames else [])
    (hother : channel ∉ registrations direction tr)
    (hknown : channel ∈ registrations direction.other (tr ++ [(c, os)]))
    (hws : (s.handle c).state.websocket direction = s.websocket direction)
    (hheld : (s.handle c).state.heldFrames direction = s.heldFrames direction) :
    Signals start (tr ++ [(c, os)]) (s.handle c).state direction where
  reached := h.reached_snoc
  waiting peer hpeer := by
    rw [hheld]
    exact h.waiting peer (hws ▸ hpeer)
  bounded := by
    rw [hheld]
    exact h.bounded
  current peer hpeer := by
    obtain ⟨before, hbefore⟩ := h.current peer (hws ▸ hpeer)
    exact ⟨before, by simp [hreg, hbefore]⟩
  unused commands hnot hnot' := by
    have hne : channel ≠ commands := fun heq => hnot' (heq ▸ hknown)
    rw [registrations_snoc, List.mem_append, not_or] at hnot hnot'
    rw [sentTo_snoc, h.unused commands hnot.1 hnot'.1, hframes, if_neg hne, List.append_nil]
  ordered := by
    have hsent : ∀ commands ∈ registrations direction tr,
        sentTo (tr ++ [(c, os)]) commands = sentTo tr commands := by
      intro commands hmem
      have hne : channel ≠ commands := fun heq => hother (heq ▸ hmem)
      rw [sentTo_snoc, hframes, if_neg hne, List.append_nil]
    rw [h.kept_snoc, hkept, List.append_nil, registrations_snoc, hreg, List.append_nil, hheld,
      List.flatMap_congr hsent]
    exact h.ordered

theorem relayed {peer : WebsocketPeer} {before : List Sender} {frame : Frame}
    (h : Signals start tr s direction) (hc : c = .websocketData direction.other frame)
    (hpeer : s.websocket direction = some peer)
    (hbefore : registrations direction tr = before ++ [peer.commands])
    (hnew : peer.commands ∉ before)
    (hreg : registrations direction [(c, os)] = [])
    (hos : os = [.websocket peer.commands (.send frame)])
    (hstate : (s.handle c).state = s) :
    Signals start (tr ++ [(c, os)]) (s.handle c).state direction where
  reached := h.reached_snoc
  waiting peer hpeer := by
    rw [hstate] at hpeer ⊢
    exact h.waiting peer hpeer
  bounded := by
    rw [hstate]
    exact h.bounded
  current peer hpeer := by
    rw [hstate] at hpeer
    obtain ⟨before, hbefore⟩ := h.current peer hpeer
    exact ⟨before, by simp [hbefore, hreg]⟩
  unused commands hnot hnot' := by
    rw [registrations_snoc, List.mem_append, not_or] at hnot hnot'
    have hne : peer.commands ≠ commands := by
      rintro rfl
      exact hnot.1 (by simp [hbefore])
    simp [h.unused commands hnot.1 hnot'.1, hos, hne]
  ordered := by
    have hsent : ∀ commands ∈ before,
        sentTo (tr ++ [(c, os)]) commands = sentTo tr commands := by
      intro commands hmem
      have hne : peer.commands ≠ commands := fun heq => hnew (heq ▸ hmem)
      simp [hos, hne]
    have hheld : s.heldFrames direction = [] := h.waiting peer hpeer
    have hordered := h.ordered
    rw [hbefore, hheld] at hordered
    have hkept : s.kept direction c = [frame] := by
      simp [hc, State.kept, Direction.other_other, hpeer]
    rw [h.kept_snoc, hkept, hstate, hheld, ← hordered, registrations_snoc, hreg, hbefore]
    simp only [List.append_nil, List.flatMap_append, List.flatMap_congr hsent,
      List.flatMap_singleton, List.append_assoc]
    simp [hos]

theorem held {frame : Frame} (h : Signals start tr s direction)
    (hc : c = .websocketData direction.other frame) (hnobody : s.websocket direction = none)
    (hreg : ∀ d, registrations d [(c, os)] = []) (hos : os = [])
    (hstate : (s.handle c).state = s.holdFrame direction frame) :
    Signals start (tr ++ [(c, os)]) (s.handle c).state direction where
  reached := h.reached_snoc
  waiting peer hpeer := by
    rw [hstate, holdFrame_websocket, hnobody] at hpeer
    cases hpeer
  bounded := by
    have hbound := h.bounded
    rw [hstate, holdFrame_heldFrames]
    split_ifs with hroom
    · rw [List.length_append, List.length_singleton]
      omega
    · exact hbound
  current peer hpeer := by
    rw [hstate, holdFrame_websocket, hnobody] at hpeer
    cases hpeer
  unused commands hnot hnot' := by
    simp only [registrations_snoc, hreg, List.append_nil] at hnot hnot'
    simp [h.unused commands hnot hnot', hos]
  ordered := by
    have hsent : sentTo (tr ++ [(c, os)]) = sentTo tr := by
      funext commands
      simp [hos]
    have hkept : s.kept direction c =
        if (s.heldFrames direction).length = maxHeldFrames then [] else [frame] := by
      simp [hc, State.kept, Direction.other_other, hnobody]
    rw [h.kept_snoc, hkept, ← h.ordered, registrations_snoc, hreg, List.append_nil, hsent, hstate,
      holdFrame_heldFrames]
    by_cases hfull : (s.heldFrames direction).length = maxHeldFrames
    · simp [hfull]
    · simp [hfull]

theorem started (peer : WebsocketPeer) (h : Signals start tr s direction)
    (hreg : registrations direction [(c, os)] = [peer.commands])
    (hreg' : registrations direction.other [(c, os)] = [])
    (hkept : s.kept direction c = [])
    (hframes : ∀ commands, framesOn commands os =
      if peer.commands = commands then s.heldFrames direction else [])
    (hnew : peer.commands ∉ registrations direction tr)
    (hnew' : peer.commands ∉ registrations direction.other tr)
    (hws : (s.handle c).state.websocket direction = some peer)
    (hheld : (s.handle c).state.heldFrames direction = []) :
    Signals start (tr ++ [(c, os)]) (s.handle c).state direction where
  reached := h.reached_snoc
  waiting _ _ := hheld
  bounded := by
    rw [hheld]
    exact Nat.zero_le _
  current peer' hpeer' := by
    obtain rfl := Option.some.inj (hws.symm.trans hpeer')
    exact ⟨registrations direction tr, by rw [registrations_snoc, hreg]⟩
  unused commands hnot hnot' := by
    rw [registrations_snoc, hreg, List.mem_append, not_or, List.mem_singleton] at hnot
    rw [registrations_snoc, hreg', List.append_nil] at hnot'
    rw [sentTo_snoc, h.unused commands hnot.1 hnot', hframes, if_neg (Ne.symm hnot.2)]
    rfl
  ordered := by
    have hsent : ∀ commands ∈ registrations direction tr,
        sentTo (tr ++ [(c, os)]) commands = sentTo tr commands := by
      intro commands hmem
      have hne : peer.commands ≠ commands := fun heq => hnew (heq ▸ hmem)
      rw [sentTo_snoc, hframes, if_neg hne, List.append_nil]
    have hfirst : sentTo (tr ++ [(c, os)]) peer.commands = s.heldFrames direction := by
      rw [sentTo_snoc, h.unused _ hnew hnew', hframes, if_pos rfl, List.nil_append]
    rw [h.kept_snoc, hkept, List.append_nil, ← h.ordered, registrations_snoc, hreg, hheld,
      List.append_nil, List.flatMap_append, List.flatMap_congr hsent, List.flatMap_singleton,
      hfirst]

end Signals

/-- Every websocket has a channel of its own, made by its `websocket::relay`. -/
def DistinctChannels (tr : Trace Command Effect) : Prop :=
  (registrations .upload tr ++ registrations .download tr).Nodup

instance : Decidable (DistinctChannels tr) :=
  inferInstanceAs (Decidable (registrations .upload tr ++ registrations .download tr).Nodup)

theorem DistinctChannels.init (h : DistinctChannels (tr ++ [(c, os)])) : DistinctChannels tr := by
  unfold DistinctChannels at h
  rw [registrations_snoc, registrations_snoc] at h
  exact h.sublist ((List.sublist_append_left _ _).append (List.sublist_append_left _ _))

theorem DistinctChannels.nodup (h : DistinctChannels tr) (direction : Direction) :
    (registrations direction tr).Nodup := by
  cases direction with
  | upload => exact (List.nodup_append.mp h).1
  | download => exact (List.nodup_append.mp h).2.1

theorem DistinctChannels.not_mem_other (h : DistinctChannels tr)
    (hmem : commands ∈ registrations direction tr) :
    commands ∉ registrations direction.other tr := by
  intro hother
  have hdisjoint := (List.nodup_append.mp h).2.2
  cases direction with
  | upload => exact hdisjoint _ hmem _ hother rfl
  | download => exact hdisjoint _ hother _ hmem rfl

theorem registrations_startWebsocket {target : Direction} {peer : WebsocketPeer}
    {reply : Waiter} :
    registrations direction [(.startWebsocket target peer reply, os)] =
      if target = direction then [peer.commands] else [] := by
  by_cases h : target = direction <;> simp [registrations, h]

namespace Signals
variable {start : State}

theorem content (h : Signals start tr s direction)
    (hreg : ∀ d, registrations d [(c, (s.handle c).effects)] = [])
    (hkept : s.kept direction c = []) (hsame : s.SameSignaling (s.handle c).state)
    (hframes : ∀ commands, framesOn commands (s.handle c).effects = []) :
    Signals start (tr ++ [(c, (s.handle c).effects)]) (s.handle c).state direction :=
  h.quiet hreg hkept hframes (fun _ hpeer => hsame.websocket direction ▸ hpeer)
    (hsame.heldFrames direction)

theorem startWebsocket {target : Direction} {peer : WebsocketPeer} {reply : Waiter}
    (h : Signals start tr s direction) (hc : c = .startWebsocket target peer reply)
    (hdistinct : DistinctChannels (tr ++ [(c, (s.handle c).effects)])) :
    Signals start (tr ++ [(c, (s.handle c).effects)]) (s.handle c).state direction := by
  subst hc
  have hframes : ∀ commands, framesOn commands
      (s.handle (.startWebsocket target peer reply)).effects =
        if peer.commands = commands then s.heldFrames target else [] := by
    intro commands
    simp [State.handle, startWebsocket_frames]
  have hmem : peer.commands ∈ registrations target
      (tr ++ [(.startWebsocket target peer reply, (s.handle (.startWebsocket target peer
        reply)).effects)]) := by
    rw [registrations_snoc, registrations_startWebsocket, if_pos rfl]
    exact List.mem_append_right _ List.mem_cons_self
  have hother : ∀ d, d ≠ target → peer.commands ∉ registrations d tr := by
    intro d hd hin
    have hd' : d = target.other := by cases d <;> cases target <;> first | rfl | exact absurd rfl hd
    refine hdistinct.not_mem_other hmem ?_
    rw [← hd', registrations_snoc]
    exact List.mem_append_left _ hin
  by_cases htarget : target = direction
  · subst htarget
    refine h.started peer ?_ ?_ rfl hframes ?_ (hother _ Direction.other_ne) ?_ ?_
    · rw [registrations_startWebsocket, if_pos rfl]
    · rw [registrations_startWebsocket, if_neg (Ne.symm Direction.other_ne)]
    · have hnodup := hdistinct.nodup target
      rw [registrations_snoc, registrations_startWebsocket, if_pos rfl] at hnodup
      exact fun hin => (List.nodup_append.mp hnodup).2.2 _ hin _ List.mem_cons_self rfl
    · simp [State.handle, startWebsocket_websocket]
    · simp [State.handle, startWebsocket_heldFrames]
  · have hd : target = direction.other := by
      cases target <;> cases direction <;> first | rfl | exact absurd rfl htarget
    refine h.elsewhere peer.commands _ ?_ rfl hframes (hother _ (Ne.symm htarget))
      (hd ▸ hmem) ?_ ?_
    · rw [registrations_startWebsocket, if_neg htarget]
    · simp [State.handle, startWebsocket_websocket, Ne.symm htarget]
    · simp [State.handle, startWebsocket_heldFrames, htarget]

theorem websocketData {sender : Direction} {frame : Frame}
    (h : ∀ direction, Signals start tr s direction) (hc : c = .websocketData sender frame)
    (hdistinct : DistinctChannels tr) (direction : Direction) :
    Signals start (tr ++ [(c, (s.handle c).effects)]) (s.handle c).state direction := by
  subst hc
  have hreg : ∀ d, registrations d [(Command.websocketData sender frame,
      (s.handle (.websocketData sender frame)).effects)] = [] := fun _ => rfl
  by_cases hsender : sender = direction.other
  · subst hsender
    cases hpeer : s.websocket direction with
    | none =>
      refine (h direction).held rfl hpeer hreg ?_ ?_ <;>
        simp [State.handle, State.relayFrame, Direction.other_other, hpeer]
    | some peer =>
      obtain ⟨before, hbefore⟩ := (h direction).current peer hpeer
      have hnodup := hdistinct.nodup direction
      rw [hbefore] at hnodup
      refine (h direction).relayed rfl hpeer hbefore
        (fun hin => (List.nodup_append.mp hnodup).2.2 _ hin _ List.mem_cons_self rfl)
        (hreg _) ?_ ?_ <;>
        simp [State.handle, State.relayFrame, Direction.other_other, hpeer]
  · have hdirection : sender = direction := by
      cases sender <;> cases direction <;> first | rfl | exact absurd rfl hsender
    subst hdirection
    have hkept : s.kept sender (.websocketData sender frame) = [] := by
      simp [State.kept, Direction.other_ne]
    cases hpeer : s.websocket sender.other with
    | none =>
      refine (h sender).quiet hreg hkept (fun commands => ?_) (fun peer hws => ?_) ?_
      · simp [State.handle, State.relayFrame, hpeer]
      · simpa [State.handle, State.relayFrame, hpeer, holdFrame_websocket] using hws
      · simp [State.handle, State.relayFrame, hpeer, holdFrame_heldFrames, Direction.other_ne]
    | some peer =>
      obtain ⟨before, hbefore⟩ := (h sender.other).current peer hpeer
      have hmem : peer.commands ∈ registrations sender.other tr := by simp [hbefore]
      have hnot : peer.commands ∉ registrations sender tr := by
        have hother := hdistinct.not_mem_other hmem
        rwa [Direction.other_other] at hother
      refine (h sender).elsewhere peer.commands [frame] (hreg _) hkept
        (fun commands => ?_) hnot ?_ ?_ ?_
      · simp [State.handle, State.relayFrame, hpeer]
      · rw [registrations_snoc]
        exact List.mem_append_left _ hmem
      · simp [State.handle, State.relayFrame, hpeer]
      · simp [State.handle, State.relayFrame, hpeer]

theorem framesOn_content (hc : ¬c.Signaling) : framesOn commands (s.handle c).effects = [] := by
  have ho := s.handled c
  generalize s.handle c = o at ho ⊢
  cases ho with
  | signals _ _ hsignaling => exact absurd hsignaling hc
  | _ => simp

theorem websocketLeft {target : Direction} (h : Signals start tr s direction)
    (hc : c = .disconnected token (.websocket target)) :
    Signals start (tr ++ [(c, (s.handle c).effects)]) (s.handle c).state direction := by
  subst hc
  have hleft : (s.disconnected token (.websocket target)).1 = s ∨
      (s.disconnected token (.websocket target)).1 = s.setWebsocket target none := by
    simp only [State.disconnected]
    split_ifs
    · exact .inr rfl
    · exact .inl rfl
  refine h.quiet (fun _ => rfl) rfl (fun _ => rfl) (fun other hother => ?_) ?_
  · rcases hleft with hs | hs
    · rwa [State.handle, hs] at hother
    · rw [State.handle, hs, setWebsocket_websocket] at hother
      split_ifs at hother
      exact hother
  · rcases hleft with hs | hs
    · rw [State.handle, hs]
    · rw [State.handle, hs]
      exact setWebsocket_heldFrames

theorem handle (h : ∀ direction, Signals start tr s direction)
    (hdistinct : DistinctChannels (tr ++ [(c, (s.handle c).effects)])) (direction : Direction) :
    Signals start (tr ++ [(c, (s.handle c).effects)]) (s.handle c).state direction := by
  have hcontent (hreg : ∀ d, registrations d [(c, (s.handle c).effects)] = [])
      (hkept : s.kept direction c = []) (hc : ¬c.Signaling) :
      Signals start (tr ++ [(c, (s.handle c).effects)]) (s.handle c).state direction :=
    (h direction).content hreg hkept (handle_sameSignaling hc) fun _ => framesOn_content hc
  cases c with
  | startWebsocket target peer reply => exact (h direction).startWebsocket rfl hdistinct
  | websocketData sender frame => exact websocketData h rfl hdistinct.init direction
  | disconnected token peer =>
    cases peer with
    | websocket target => exact (h direction).websocketLeft rfl
    | downloader | uploader => exact hcontent (fun _ => rfl) rfl id
  | _ => exact hcontent (fun _ => rfl) rfl id

theorem of_run (hrun : (sessionTask metadata).Run tr session)
    (hdistinct : DistinctChannels tr) (direction : Direction) :
    Signals (Session.spawn metadata).state tr session.state direction := by
  revert direction hdistinct
  refine hrun.history (P := fun tr session => DistinctChannels tr → ∀ direction,
    Signals (Session.spawn metadata).state tr session.state direction) (fun _ _ => spawn) ?_
  intro tr session c next os _ ih _ hstep hdistinct direction
  obtain ⟨-, rfl, rfl⟩ := Session.step_eq_some.mp hstep
  exact handle (ih hdistinct.init) hdistinct direction

end Signals

theorem relayed_to_registered (hrun : (sessionTask metadata).Run tr session)
    (hdistinct : DistinctChannels tr) {frame : Frame}
    (hmem : (.websocketData direction frame, os) ∈ tr) {command : WebsocketCommand}
    (heffect : Effect.websocket commands command ∈ os) :
    commands ∈ registrations direction.other tr := by
  revert hdistinct hmem
  refine hrun.history (P := fun tr session => DistinctChannels tr →
    (.websocketData direction frame, os) ∈ tr → commands ∈ registrations direction.other tr)
    (fun _ => nofun) ?_
  intro tr session c next os' hpath ih _ hstep hdistinct hmem
  rw [registrations_snoc]
  refine List.mem_append_left _ ?_
  rcases List.mem_append.mp hmem with hmem | hmem
  · exact ih hdistinct.init hmem
  · obtain ⟨rfl, rfl⟩ := Prod.mk.inj (List.mem_singleton.mp hmem)
    obtain ⟨-, -, rfl⟩ := Session.step_eq_some.mp hstep
    cases hpeer : session.state.websocket direction.other with
    | none => simp [State.handle, State.relayFrame, hpeer] at heffect
    | some peer =>
      simp only [State.handle, State.relayFrame, hpeer, List.mem_singleton] at heffect
      obtain ⟨rfl, -⟩ := Effect.websocket.inj heffect
      obtain ⟨before, hbefore⟩ :=
        (Signals.of_run hpath hdistinct.init direction.other).current peer hpeer
      simp [hbefore]

/-- Signaling is relayed in order. Whatever peers of both sides come, are replaced and
leave: a registered peer has no frames held for it, a queue never grows past its bound, and
the successive peers of a side have been sent, followed by what is held, exactly the frames
of the other side without those that came when nobody was registered and the queue was full.
No frame goes back to the side it came from. -/
theorem signaling_in_order (hrun : (sessionTask metadata).Run tr session)
    (hdistinct : DistinctChannels tr) (direction : Direction) :
    (∀ peer, session.state.websocket direction = some peer →
        session.state.heldFrames direction = []) ∧
      (session.state.heldFrames direction).length ≤ maxHeldFrames ∧
      (registrations direction tr).flatMap (sentTo tr) ++ session.state.heldFrames direction =
        keptFrames direction (Session.spawn metadata).state (tr.map Prod.fst) ∧
      ∀ frame os commands command, (.websocketData direction frame, os) ∈ tr →
        .websocket commands command ∈ os → commands ∉ registrations direction tr := by
  have h := Signals.of_run hrun hdistinct direction
  refine ⟨h.waiting, h.bounded, h.ordered, ?_⟩
  intro frame os commands command hmem heffect hback
  exact hdistinct.not_mem_other hback (relayed_to_registered hrun hdistinct hmem heffect)

def offerWaits : List Command :=
  [.startWebsocket .download ⟨0, 0⟩ 1, .websocketData .download (.text "offer"),
    .startWebsocket .upload ⟨2, 2⟩ 3, .websocketData .download (.text "candidate"),
    .startWebsocket .upload ⟨4, 4⟩ 5, .websocketData .upload (.text "answer")]

theorem signaling_in_order_waited : ∃ tr session,
    (sessionTask "").exec (Session.spawn "") offerWaits =
        some (tr, session) ∧
      sentTo tr 2 = [.text "offer", .text "candidate"] ∧ sentTo tr 0 = [.text "answer"] ∧
      (registrations .upload tr).flatMap (sentTo tr) ++ session.state.heldFrames .upload =
        keptFrames .upload (Session.spawn "").state (tr.map Prod.fst) := by
  obtain ⟨tr, session, hexec, hdistinct, hfirst, hanswer⟩ : ∃ tr session,
      (sessionTask "").exec (Session.spawn "") offerWaits =
          some (tr, session) ∧ DistinctChannels tr ∧
        sentTo tr 2 = [.text "offer", .text "candidate"] ∧ sentTo tr 0 = [.text "answer"] :=
    ⟨_, _, rfl, by decide, by decide, by decide⟩
  exact ⟨tr, session, hexec, hfirst, hanswer,
    (signaling_in_order (EventMachine.exec_run _ hexec) hdistinct .upload).2.2.1⟩

end Glopfile.Relay
