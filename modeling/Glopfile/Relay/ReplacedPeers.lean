import Glopfile.Relay.Signaling
import Glopfile.Relay.Uploads
import Mathlib.Data.List.Nodup

/-!
# Replaced connections

A session tells a replaced connection apart by its token, which the uploads, the flushes and
the departures carry. A websocket frame carries only the side it comes from: the relay loop
of a replaced websocket may hand on a frame before it takes the error from its inbox, and
the session relays it like one of the newcomer.
-/

namespace Glopfile.Relay

open EventMachine (Trace)

variable {metadata : String} {r : System} {tr : Trace SystemEvent Output} {s : State}
  {role : Role} {token : Token} {c : Command}

inductive Issues : Role → Token → Command → Prop
  | uploadData {token : Token} {chunk : Chunk} {reply : Waiter} :
      Issues .uploader token (.uploadData token chunk reply)
  | flushUpload {token : Token} {reply : Waiter} :
      Issues .uploader token (.flushUpload token reply)
  | websocketData {direction : Direction} {token : Token} {frame : Frame} :
      Issues (.websocket direction) token (.websocketData direction frame)
  | disconnected {token : Token} {peer : Peer} :
      Issues peer.role token (.disconnected token peer)

def Command.asksFor (c : Command) (role : Role) : Option Token :=
  match c.registers with
  | some (other, token) => if other = role then some token else none
  | none => none

def registered (role : Role) (tr : Trace Command Effect) : List Token :=
  tr.filterMap fun x => x.1.asksFor role

def Replaced (role : Role) (token : Token) (tr : Trace Command Effect) : Prop :=
  ∃ before after, registered role tr = before ++ token :: after ∧ after ≠ []

def State.Ignores (s : State) (c : Command) : Prop :=
  (s.handle c).state = s ∧ (s.handle c).flow = .cont ∧
    ∀ o ∈ (s.handle c).effects, ∃ waiter reply, o = .reply waiter reply

/-- A frame of the command would be dropped: nobody is there to get it, and the queue is
full. -/
def State.DropsFrame (s : State) (c : Command) : Prop :=
  ∀ direction frame, c = .websocketData direction frame →
    s.websocket direction.other = none ∧ (s.heldFrames direction.other).length = maxHeldFrames

theorem handle_registers {other : Token} (hc : c.registers = some (role, token))
    (hholder : (s.handle c).state.holder role = some other) : other = token := by
  cases c with
  | startDownload downloader reply =>
    obtain ⟨rfl, rfl⟩ := Prod.mk.inj (Option.some.inj hc)
    simpa [State.handle, State.holder, eq_comm] using hholder
  | startUpload token' position reply =>
    obtain ⟨rfl, rfl⟩ := Prod.mk.inj (Option.some.inj hc)
    rcases s.startUpload_cases token' position reply with ⟨_, _, hs⟩ | ⟨_, hs⟩
    · simp [State.handle, hs, State.holder, State.uploaderToken] at hholder
    · simpa [State.handle, hs, State.holder, State.uploaderToken, eq_comm] using hholder
  | startWebsocket direction peer reply =>
    obtain ⟨rfl, rfl⟩ := Prod.mk.inj (Option.some.inj hc)
    simpa [State.handle, State.holder, startWebsocket_websocket, eq_comm] using hholder
  | _ => cases hc

theorem asksFor_eq_some :
    c.asksFor role = some token ↔ c.registers = some (role, token) := by
  unfold Command.asksFor
  cases hc : c.registers with
  | none => simp
  | some asked =>
    by_cases hrole : asked.1 = role
    · simp [hrole, Prod.ext_iff]
    · simp [hrole, Prod.ext_iff]

@[simp] theorem registered_snoc {tr : Trace Command Effect} {os : List Effect} :
    registered role (tr ++ [(c, os)]) = registered role tr ++ (c.asksFor role).toList := by
  cases hc : c.asksFor role <;> simp [registered, hc]

theorem holder_is_last {tr : Trace Command Effect} {session : Session}
    (hrun : (sessionTask metadata).Run tr session)
    (hholder : session.state.holder role = some token) :
    ∃ before, registered role tr = before ++ [token] := by
  revert token
  refine hrun.history (P := fun tr session => ∀ {token}, session.state.holder role = some token →
    ∃ before, registered role tr = before ++ [token]) ?_ ?_
  · intro token hholder
    cases role with
    | websocket direction => cases direction <;> cases hholder
    | _ => cases hholder
  intro tr session c next os _ ih _ hstep token hholder
  obtain ⟨-, rfl, -⟩ := Session.step_eq_some.mp hstep
  rw [registered_snoc]
  cases hasks : c.asksFor role with
  | none =>
    rcases handle_holder hholder with hc | ⟨hbefore, _⟩
    · rw [asksFor_eq_some.mpr hc] at hasks
      cases hasks
    · obtain ⟨before, h⟩ := ih hbefore
      exact ⟨before, by simp [h]⟩
  | some newcomer =>
    obtain rfl := handle_registers (asksFor_eq_some.mp hasks) hholder
    exact ⟨registered role tr, rfl⟩

theorem registers_waiter (hrun : (relaySystem metadata).Run tr r) (hsent : Sent tr r c)
    (hregisters : c.registers = some (role, token)) : c.waiter = some (token + 1) := by
  revert hsent
  refine hrun.history (P := fun tr r => Sent tr r c → c.waiter = some (token + 1)) ?_ ?_
  · simp [Sent, handledIn, relaySystem, System.spawn]
  intro tr r e r' os _ ih _ hstep hsent
  rcases sent_new (System.step_change hstep) hsent with hold | hsends
  · exact ih hold
  cases hsends with
  | plain hplain => rcases hplain with rfl | rfl | ⟨position, rfl⟩ <;> cases hregisters
  | download | upload | websocket =>
    obtain ⟨-, rfl⟩ := Prod.mk.inj (Option.some.inj hregisters)
    rfl
  | flush | chunk | frame | left => cases hregisters

theorem registered_sublist {tr : Trace Command Effect}
    (h : ∀ c os, (c, os) ∈ tr → ∀ token, c.registers = some (role, token) →
      c.waiter = some (token + 1)) :
    ((registered role tr).map (· + 1)).Sublist (waiters tr) := by
  induction tr with
  | nil => exact List.Sublist.refl _
  | cons x tr ih =>
    have hrest := ih fun c os hmem => h c os (List.mem_cons_of_mem _ hmem)
    cases hasks : x.1.asksFor role with
    | none =>
      have hskip : registered role (x :: tr) = registered role tr := by simp [registered, hasks]
      rw [hskip]
      cases hwaiter : x.1.waiter with
      | none => simpa [waiters, hwaiter] using hrest
      | some waiter =>
        have htake : waiters (x :: tr) = waiter :: waiters tr := by simp [waiters, hwaiter]
        rw [htake]
        exact hrest.cons _
    | some token =>
      have hwaiter := h x.1 x.2 List.mem_cons_self token (asksFor_eq_some.mp hasks)
      have htake : waiters (x :: tr) = (token + 1) :: waiters tr := by simp [waiters, hwaiter]
      have hnew : registered role (x :: tr) = token :: registered role tr := by
        simp [registered, hasks]
      rw [htake, hnew, List.map_cons]
      exact hrest.cons_cons _

theorem registered_nodup (hrun : (relaySystem metadata).Run tr r) (role : Role) :
    (registered role (handledIn tr)).Nodup := by
  have hsub : ((registered role (handledIn tr)).map (· + 1)).Sublist (waiters (handledIn tr)) :=
    registered_sublist fun c os hmem token hregisters =>
      registers_waiter hrun (.inl ⟨os, hmem⟩) hregisters
  have hnodup : (waiters (handledIn tr)).Nodup :=
    (List.nodup_append.mp (Named.of_run hrun).nodup).1
  exact List.Nodup.of_map _ (hnodup.sublist hsub)

theorem replaced_not_holder (hrun : (relaySystem metadata).Run tr r)
    (hreplaced : Replaced role token (handledIn tr)) :
    r.session.state.holder role ≠ some token := by
  intro hholder
  obtain ⟨before, hlast⟩ := holder_is_last (handledIn_run hrun) hholder
  obtain ⟨before', after, hsplit, hafter⟩ := hreplaced
  obtain ⟨after, last, rfl⟩ := (List.eq_nil_or_concat after).resolve_left hafter
  have hnodup := registered_nodup hrun role
  have hends : before ++ [token] = (before' ++ token :: after) ++ [last] := by
    rw [← hlast, hsplit]
    simp
  obtain ⟨rfl, htoken⟩ := List.append_inj' hends rfl
  rw [hlast] at hnodup
  refine (List.nodup_append.mp hnodup).2.2 token ?_ token List.mem_cons_self rfl
  simp

theorem ignores_of_not_holder (hissues : Issues role token c)
    (hholder : s.holder role ≠ some token) (hdrops : s.DropsFrame c) : s.Ignores c := by
  cases hissues with
  | @uploadData _ chunk reply =>
    obtain ⟨error, hs⟩ := State.uploadData_refused token chunk reply
      fun h => absurd h hholder
    simp [State.Ignores, State.handle, hs, replyUpload]
  | @flushUpload _ reply =>
    rcases s.flushUpload_cases token reply with ⟨result, hs⟩ | ⟨_, _, _, _, htoken, _⟩
    · simp [State.Ignores, State.handle, hs, replyUpload]
    · exact absurd htoken hholder
  | @websocketData direction _ frame =>
    obtain ⟨hnobody, hfull⟩ := hdrops direction frame rfl
    simp [State.Ignores, State.handle, State.relayFrame, State.holdFrame, hnobody, hfull]
  | @disconnected _ peer =>
    have hsame : s.disconnected token peer = (s, .cont) := by
      rcases s.disconnected_cases token peer with
        hs | ⟨downloader, hd, rfl, ⟨rfl, _⟩ | ⟨rfl, _⟩⟩ | ⟨rfl, hu, _⟩ | ⟨direction, rfl, hws, _⟩
      · exact hs
      · exact absurd (by simp [State.holder, Peer.role, hd]) hholder
      · exact absurd (by simp [State.holder, Peer.role, hd]) hholder
      · exact absurd hu hholder
      · exact absurd hws hholder
    simp [State.Ignores, State.handle, hsame]

theorem dropsFrame_of_ignores (h : s.Ignores c) : s.DropsFrame c := by
  rintro direction frame rfl
  obtain ⟨hstate, -, hquiet⟩ := h
  cases hpeer : s.websocket direction.other with
  | some peer =>
    obtain ⟨_, _, ho⟩ := hquiet (.websocket peer.commands (.send frame))
      (by simp [State.handle, State.relayFrame, hpeer])
    cases ho
  | none =>
    refine ⟨rfl, ?_⟩
    by_contra hroom
    have hheld : (s.holdFrame direction.other frame).heldFrames direction.other =
        s.heldFrames direction.other ++ [frame] := by
      rw [holdFrame_heldFrames, if_pos ⟨rfl, hroom⟩]
    simp only [State.handle, State.relayFrame, hpeer] at hstate
    rw [hstate] at hheld
    simp at hheld

/-- What a replaced connection sends is ignored, in whatever state the session has come to,
unless it is a websocket frame that somebody is registered to get or that finds room in the
queue. -/
theorem replaced_is_ignored (hrun : (relaySystem metadata).Run tr r)
    (hreplaced : Replaced role token (handledIn tr)) (hissues : Issues role token c) :
    r.session.state.Ignores c ↔ r.session.state.DropsFrame c :=
  ⟨dropsFrame_of_ignores, ignores_of_not_holder hissues (replaced_not_holder hrun hreplaced)⟩

theorem replaced_is_ignored_upload : ∃ tr r,
    (relaySystem "").exec (System.spawn "") [.upload 0, .turn, .upload 0, .turn] =
        some (tr, r) ∧
      Replaced .uploader 0 (handledIn tr) ∧
      r.session.state.Ignores (.uploadData 0 (.final ⟨9, [7]⟩) 10) := by
  obtain ⟨tr, r, hexec, hreplaced⟩ : ∃ tr r,
      (relaySystem "").exec (System.spawn "") [.upload 0, .turn, .upload 0, .turn] =
        some (tr, r) ∧ Replaced .uploader 0 (handledIn tr) :=
    ⟨_, _, rfl, [], [2], rfl, nofun⟩
  exact ⟨tr, r, hexec, hreplaced,
    (replaced_is_ignored (EventMachine.exec_run _ hexec) hreplaced .uploadData).mpr nofun⟩

/-- The relay loop of a replaced websocket hands on a frame while the error waits in its
inbox, and the session sends it to the other peer. -/
theorem replaced_is_relayed : ∃ tr r,
    (relaySystem "").exec (System.spawn "")
      [.websocket .download, .turn, .websocketResume 0, .websocket .upload, .turn,
        .websocketResume 2, .websocket .upload, .turn] = some (tr, r) ∧
      Replaced (.websocket .upload) 2 (handledIn tr) ∧ r.inboxes 2 = [.sessionError] ∧
      ∃ tr' r', (relaySystem "").exec r [.websocketFrame 2 (.text "stale"), .turn] =
          some (tr', r') ∧
        handledIn tr' = [(.websocketData .upload (.text "stale"),
          [.websocket 0 (.send (.text "stale"))])] ∧
        r'.inboxes 0 = [.send (.text "stale")] ∧
        ¬r.session.state.Ignores (.websocketData .upload (.text "stale")) := by
  refine ⟨_, _, rfl, ⟨[], [4], rfl, nofun⟩, rfl, _, _, rfl, rfl, rfl, fun hignores => ?_⟩
  have hdrops := dropsFrame_of_ignores hignores .upload (.text "stale") rfl
  cases hdrops.1

end Glopfile.Relay
