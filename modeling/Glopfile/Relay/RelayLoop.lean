import Glopfile.Relay.Sockets

/-!
# The loop of a websocket

`websocket::relay` selects between its inbox, its socket and two timers that every frame of the
socket resets. What it sends it awaits, and it looks at nothing else meanwhile. The machine below
is a session in which one websocket has its loop with the awaits and the timers; what the loop does
to the session are the steps of the websocket with this token.

Times are in nanoseconds. `Sleep` does not fire before its deadline, and a branch of the select
that is ready need not be the one that is taken.
-/

namespace Glopfile.Relay

open EventMachine (Trace)

def pingInterval : ℕ := 5 * 10 ^ 9

def idleTimeout : ℕ := 30 * 10 ^ 9

inductive Message
  | text (text : String)
  | binary (data : Bytes)
  | ping
  | pong
  | close
  deriving DecidableEq, Repr

/-- `sending` is the await of the frame of a command, `pinging` the one of a ping. -/
inductive LoopTask
  | connecting
  | selecting
  | sending (command : WebsocketCommand)
  | pinging
  | ended
  deriving DecidableEq, Repr

structure RelayLoop where
  system : System
  now : ℕ
  ping : ℕ
  idle : ℕ
  task : LoopTask

/-- `frame none` is the end of the stream or an error; `other` is whatever else happens to the
session. -/
inductive LoopEvent
  | elapse (duration : ℕ)
  | other (e : SystemEvent)
  | started
  | recv
  | frame (message : Option Message)
  | sent (ok : Bool)
  | ping
  | idle

def LoopEvent.duration : LoopEvent → ℕ
  | .elapse duration => duration
  | _ => 0

inductive LoopOutput
  | did (e : SystemEvent) (os : List Output)
  | pinged
  | idled

namespace RelayLoop

def spawn (metadata : String) : RelayLoop := ⟨.spawn metadata, 0, 0, 0, .connecting⟩

def act (l : RelayLoop) (e : SystemEvent) (task : LoopTask) :
    Option (RelayLoop × List LoopOutput) :=
  (l.system.step e).map fun r => ({ l with system := r.1, task := task }, [.did e r.2])

/-- What `start_websocket` returned; the timers start with the loop. -/
def start (l : RelayLoop) (token : Token) : Option (RelayLoop × List LoopOutput) :=
  (l.system.step (.websocketResume token)).map fun r =>
    match r.1.websockets token with
    | some (.relaying _) =>
      (⟨r.1, l.now, l.now + pingInterval, l.now + idleTimeout, .selecting⟩,
        [.did (.websocketResume token) r.2])
    | _ => ({ l with system := r.1, task := .ended }, [.did (.websocketResume token) r.2])

/-- A command taken from the inbox; in the session it stays there until its frame is sent. -/
def recv (l : RelayLoop) (token : Token) : Option (RelayLoop × List LoopOutput) :=
  match l.system.inboxes token with
  | .sessionError :: _ | [] => l.act (.websocketInbox token true) .ended
  | command :: _ => some ({ l with task := .sending command }, [])

def reset (l : RelayLoop) : RelayLoop :=
  { l with ping := l.now + pingInterval, idle := l.now + idleTimeout }

def frame (l : RelayLoop) (token : Token) : Option Message → Option (RelayLoop × List LoopOutput)
  | none => l.act (.websocketEnd token) .ended
  | some (.text text) => l.reset.act (.websocketFrame token (.text text)) .selecting
  | some (.binary data) => l.reset.act (.websocketFrame token (.binary data)) .selecting
  | some .close => l.reset.act (.websocketEnd token) .ended
  -- Pings and pongs are answered by the transport.
  | some .ping | some .pong => some (l.reset, [])

def step (token : Token) (l : RelayLoop) : LoopEvent → Option (RelayLoop × List LoopOutput)
  | .elapse duration => some ({ l with now := l.now + duration }, [])
  | .other e => if e.ofWebsocket token then none else l.act e l.task
  | .started =>
    match l.task with
    | .connecting => l.start token
    | _ => none
  | .recv =>
    match l.task with
    | .selecting => l.recv token
    | _ => none
  | .frame message =>
    match l.task with
    | .selecting => l.frame token message
    | _ => none
  | .sent ok =>
    match l.task with
    | .sending _ => l.act (.websocketInbox token ok) (if ok then .selecting else .ended)
    | .pinging =>
      if ok then some ({ l with task := .selecting }, [])
      else l.act (.websocketEnd token) .ended
    | _ => none
  | .ping =>
    match l.task with
    | .selecting =>
      if l.ping ≤ l.now then
        some ({ l with ping := l.now + pingInterval, task := .pinging }, [.pinged])
      else none
    | _ => none
  | .idle =>
    match l.task with
    | .selecting =>
      if l.idle ≤ l.now then
        (l.act (.websocketEnd token) .ended).map fun r => (r.1, .idled :: r.2)
      else none
    | _ => none

end RelayLoop

def relayLoop (metadata : String) (token : Token) :
    EventMachine RelayLoop LoopEvent LoopOutput where
  init := .spawn metadata
  step := RelayLoop.step token

variable {metadata : String} {token : Token} {l l' : RelayLoop} {input : LoopEvent}
  {out : List LoopOutput} {tr : Trace LoopEvent LoopOutput}

def LoopTask.Active : LoopTask → Prop
  | .selecting | .sending _ | .pinging => True
  | .connecting | .ended => False

inductive Loops (token : Token) (l : RelayLoop) :
    LoopEvent → RelayLoop → List LoopOutput → Prop
  | elapses {duration : ℕ} : Loops token l (.elapse duration) { l with now := l.now + duration } []
  | other {e : SystemEvent} {system : System} {os : List Output} (he : ¬e.ofWebsocket token)
      (hstep : l.system.step e = some (system, os)) :
      Loops token l (.other e) { l with system := system } [.did e os]
  | starts {system : System} {os : List Output} {direction : Direction}
      (hstep : l.system.step (.websocketResume token) = some (system, os))
      (hrelaying : system.websockets token = some (.relaying direction)) :
      Loops token l .started
        ⟨system, l.now, l.now + pingInterval, l.now + idleTimeout, .selecting⟩
        [.did (.websocketResume token) os]
  | ends {input : LoopEvent} {l' : RelayLoop} {e : SystemEvent} {os : List Output}
      (hstep : l.system.step e = some (l'.system, os)) (hnow : l'.now = l.now)
      (htask : l'.task = .ended) (hinput : input.duration = 0) :
      Loops token l input l' [.did e os]
  | idles {system : System} {os : List Output} (htask : l.task = .selecting)
      (hidle : l.idle ≤ l.now)
      (hstep : l.system.step (.websocketEnd token) = some (system, os)) :
      Loops token l .idle { l with system := system, task := .ended }
        [.idled, .did (.websocketEnd token) os]
  | takes {command : WebsocketCommand} {rest : List WebsocketCommand}
      (htask : l.task = .selecting) (hinbox : l.system.inboxes token = command :: rest)
      (hcommand : command ≠ .sessionError) :
      Loops token l .recv { l with task := .sending command } []
  | relays {message : Message} {frame : Frame} {system : System} {os : List Output}
      (htask : l.task = .selecting)
      (hstep : l.system.step (.websocketFrame token frame) = some (system, os)) :
      Loops token l (.frame (some message)) { l.reset with system := system, task := .selecting }
        [.did (.websocketFrame token frame) os]
  | refreshes {message : Message} (htask : l.task = .selecting) :
      Loops token l (.frame (some message)) l.reset []
  | sends {command : WebsocketCommand} {system : System} {os : List Output}
      (htask : l.task = .sending command)
      (hstep : l.system.step (.websocketInbox token true) = some (system, os)) :
      Loops token l (.sent true) { l with system := system, task := .selecting }
        [.did (.websocketInbox token true) os]
  | pings (htask : l.task = .selecting) (hping : l.ping ≤ l.now) :
      Loops token l .ping { l with ping := l.now + pingInterval, task := .pinging } [.pinged]
  | pinged (htask : l.task = .pinging) :
      Loops token l (.sent true) { l with task := .selecting } []

namespace RelayLoop

theorem act_eq {e : SystemEvent} {task : LoopTask} (h : l.act e task = some (l', out)) :
    ∃ system os, l.system.step e = some (system, os) ∧
      l' = { l with system := system, task := task } ∧ out = [.did e os] := by
  obtain ⟨⟨system, os⟩, hstep, hr⟩ := Option.map_eq_some_iff.mp h
  obtain ⟨rfl, rfl⟩ := Prod.mk.inj hr
  exact ⟨system, os, hstep, rfl, rfl⟩

theorem act_ends {e : SystemEvent} (hinput : input.duration = 0)
    (h : l.act e .ended = some (l', out)) : Loops token l input l' out := by
  obtain ⟨system, os, hstep, rfl, rfl⟩ := act_eq h
  exact .ends hstep rfl rfl hinput

theorem start_loops (h : l.start token = some (l', out)) : Loops token l .started l' out := by
  obtain ⟨⟨system, os⟩, hstep, hr⟩ := Option.map_eq_some_iff.mp h
  split at hr
  · next hrelaying =>
    obtain ⟨rfl, rfl⟩ := Prod.mk.inj hr
    exact .starts hstep hrelaying
  · obtain ⟨rfl, rfl⟩ := Prod.mk.inj hr
    exact .ends hstep rfl rfl rfl

theorem recv_loops (htask : l.task = .selecting) (h : l.recv token = some (l', out)) :
    Loops token l .recv l' out := by
  unfold recv at h
  split at h
  · exact act_ends rfl h
  · exact act_ends rfl h
  · next command rest herror hinbox =>
    obtain ⟨rfl, rfl⟩ := Prod.mk.inj (Option.some.inj h)
    exact .takes htask hinbox herror

theorem frame_loops {message : Option Message} (htask : l.task = .selecting)
    (h : l.frame token message = some (l', out)) : Loops token l (.frame message) l' out := by
  unfold frame at h
  split at h
  · exact act_ends rfl h
  · obtain ⟨system, os, hstep, rfl, rfl⟩ := act_eq h
    exact .relays htask hstep
  · obtain ⟨system, os, hstep, rfl, rfl⟩ := act_eq h
    exact .relays htask hstep
  · obtain ⟨system, os, hstep, rfl, rfl⟩ := act_eq h
    exact .ends hstep rfl rfl rfl
  · obtain ⟨rfl, rfl⟩ := Prod.mk.inj (Option.some.inj h)
    exact .refreshes htask
  · obtain ⟨rfl, rfl⟩ := Prod.mk.inj (Option.some.inj h)
    exact .refreshes htask

theorem step_loops (h : l.step token input = some (l', out)) : Loops token l input l' out := by
  cases input with
  | elapse duration =>
    obtain ⟨rfl, rfl⟩ := Prod.mk.inj (Option.some.inj h)
    exact .elapses
  | other e =>
    simp only [step] at h
    split_ifs at h with he
    obtain ⟨system, os, hstep, rfl, rfl⟩ := act_eq h
    exact .other he hstep
  | started =>
    simp only [step] at h
    split at h
    · exact start_loops h
    · cases h
  | recv =>
    simp only [step] at h
    split at h
    · next htask => exact recv_loops htask h
    · cases h
  | frame message =>
    simp only [step] at h
    split at h
    · next htask => exact frame_loops htask h
    · cases h
  | sent ok =>
    simp only [step] at h
    split at h
    · next command htask =>
      cases ok with
      | false => exact act_ends rfl h
      | true =>
        obtain ⟨system, os, hstep, rfl, rfl⟩ := act_eq h
        exact .sends htask hstep
    · next htask =>
      cases ok with
      | false => exact act_ends rfl h
      | true =>
        obtain ⟨rfl, rfl⟩ := Prod.mk.inj (Option.some.inj h)
        exact .pinged htask
    · cases h
  | ping =>
    simp only [step] at h
    split at h
    · next htask =>
      split_ifs at h with hping
      obtain ⟨rfl, rfl⟩ := Prod.mk.inj (Option.some.inj h)
      exact .pings htask hping
    · cases h
  | idle =>
    simp only [step] at h
    split at h
    · next htask =>
      split_ifs at h with hidle
      obtain ⟨⟨l'', out'⟩, hact, hr⟩ := Option.map_eq_some_iff.mp h
      obtain ⟨system, os, hstep, rfl, rfl⟩ := act_eq hact
      obtain ⟨rfl, rfl⟩ := Prod.mk.inj hr
      exact .idles htask hidle hstep
    · cases h

end RelayLoop

/-! ### The loop in its session -/

def LoopOutput.step : LoopOutput → Option (SystemEvent × List Output)
  | .did e os => some (e, os)
  | _ => none

def shown (x : LoopEvent × List LoopOutput) : Trace SystemEvent Output :=
  x.2.filterMap LoopOutput.step

theorem path_system (hrun : (relayLoop metadata token).Run tr l) :
    (relaySystem metadata).Run (tr.flatMap shown) l.system := by
  refine EventMachine.Path.simulate RelayLoop.system shown hrun ?_
  intro l input l' out _ hstep
  cases RelayLoop.step_loops hstep with
  | elapses | takes | refreshes | pings | pinged => exact .refl
  | other _ hact | starts hact _ | ends hact _ _ _ | idles _ _ hact | relays _ hact
  | sends _ hact => exact .single trivial hact

theorem other_websocket {r r' : System} {e : SystemEvent} {os : List Output}
    {direction : Direction} (hfresh : r.Fresh)
    (hrelaying : r.websockets token = some (.relaying direction)) (he : ¬e.ofWebsocket token)
    (hstep : r.step e = some (r', os)) :
    r'.websockets token = some (.relaying direction) ∧
      ∃ more, r'.inboxes token = r.inboxes token ++ more := by
  cases System.step_carries hstep with
  | elsewhere hframe _ =>
    exact ⟨by rw [hframe.websockets, hrelaying], [], by rw [hframe.inboxes, List.append_nil]⟩
  | @turn c rest session effects hqueue hturn =>
    refine ⟨by rw [System.deliverAll_websockets, hrelaying], commandsOn token effects, ?_⟩
    rw [deliverAll_inboxes]
    exact if_pos (System.open_of_relaying (r := r) hrelaying)
  | @asks target =>
    have hne : token ≠ r.fresh := Nat.ne_of_lt (hfresh.websockets_lt hrelaying)
    refine ⟨?_, [], (List.append_nil _).symm⟩
    simp [System.websocket, System.send, System.setWebsocket, System.draw, hne, hrelaying]
  | @starts other target reply htask =>
    refine ⟨?_, [], (List.append_nil _).symm⟩
    simp [System.setWebsocket, Ne.symm he, hrelaying]
  | @ends _ other _ hevent hopen hframe _ =>
    have hne : token ≠ other := by
      rintro rfl
      exact he hevent
    rw [hframe.websockets, hframe.inboxes]
    exact ⟨by simp [System.setInbox, System.setWebsocket, hne, hrelaying], [],
      by simp [System.setInbox, System.setWebsocket, hne]⟩
  | @accepts other target command rest htask hinbox =>
    exact ⟨hrelaying, [], by simp [System.setInbox, Ne.symm he]⟩
  | receives htask => exact ⟨hrelaying, [], (List.append_nil _).symm⟩

/-! ### The timers -/

def LoopEvent.resetsIdle : LoopEvent → Bool
  | .started | .frame (some _) => true
  | _ => false

def LoopEvent.resetsPing : LoopEvent → Bool
  | .started | .frame (some _) | .ping => true
  | _ => false

def since (resets : LoopEvent → Bool) (inputs : List LoopEvent) : ℕ :=
  inputs.foldl (fun time input => if resets input then 0 else time + input.duration) 0

theorem since_snoc {resets : LoopEvent → Bool} {inputs : List LoopEvent} :
    since resets (inputs ++ [input]) =
      if resets input then 0 else since resets inputs + input.duration := by
  simp [since]

theorem timer_reset {resets : LoopEvent → Bool} {inputs : List LoopEvent} {deadline : ℕ}
    (h : resets input = true) : deadline + since resets (inputs ++ [input]) = deadline := by
  rw [since_snoc, if_pos h, Nat.add_zero]

theorem since_aside {resets : LoopEvent → Bool} {inputs : List LoopEvent}
    (h : resets input = false) :
    since resets (inputs ++ [input]) = since resets inputs + input.duration := by
  rw [since_snoc, if_neg (by simp [h])]

structure Running (inputs : List LoopEvent) (l : RelayLoop) (token : Token) : Prop where
  relaying : ∃ direction, l.system.websockets token = some (.relaying direction)
  ping : l.ping + since LoopEvent.resetsPing inputs = l.now + pingInterval
  idle : l.idle + since LoopEvent.resetsIdle inputs = l.now + idleTimeout
  sending : ∀ command, l.task = .sending command →
    command ≠ .sessionError ∧ ∃ rest, l.system.inboxes token = command :: rest

theorem Running.step {inputs : List LoopEvent} (h : l.task.Active → Running inputs l token)
    (hfresh : l.system.Fresh) (hstep : l.step token input = some (l', out))
    (hactive : l'.task.Active) : Running (inputs ++ [input]) l' token := by
  cases RelayLoop.step_loops hstep with
  | @elapses duration =>
    obtain ⟨hrelaying, hping, hidle, hsending⟩ := h hactive
    refine ⟨hrelaying, ?_, ?_, hsending⟩
    · rw [since_aside rfl, ← Nat.add_assoc, hping]
      exact Nat.add_right_comm _ _ _
    · rw [since_aside rfl, ← Nat.add_assoc, hidle]
      exact Nat.add_right_comm _ _ _
  | @other e system os he hact =>
    obtain ⟨⟨direction, hrelaying⟩, hping, hidle, hsending⟩ := h hactive
    obtain ⟨hrelaying', more, hinbox⟩ := other_websocket hfresh hrelaying he hact
    refine ⟨⟨direction, hrelaying'⟩, by rw [since_aside rfl]; exact hping,
      by rw [since_aside rfl]; exact hidle, ?_⟩
    intro command htask
    obtain ⟨hcommand, rest, hrest⟩ := hsending command htask
    exact ⟨hcommand, rest ++ more, by rw [hinbox, hrest, List.cons_append]⟩
  | starts hact hrelaying =>
    exact ⟨⟨_, hrelaying⟩, timer_reset rfl, timer_reset rfl, by simp⟩
  | ends hact hnow htask hinput =>
    rw [htask] at hactive
    exact hactive.elim
  | idles htask hidle hact => exact hactive.elim
  | @takes command rest htask hinbox hcommand =>
    obtain ⟨hrelaying, hping, hidle, -⟩ := h (by rw [htask]; trivial)
    refine ⟨hrelaying, by rw [since_aside rfl]; exact hping,
      by rw [since_aside rfl]; exact hidle, ?_⟩
    rintro _ ⟨⟩
    exact ⟨hcommand, rest, hinbox⟩
  | @relays message frame system os htask hact =>
    obtain ⟨⟨direction, hrelaying⟩, -, -, -⟩ := h (by rw [htask]; trivial)
    have hsystem : system.websockets = l.system.websockets := by
      simp only [System.step, System.websocketFrame, hrelaying, Option.some.injEq,
        Prod.mk.injEq] at hact
      rw [← hact.1]
      rfl
    exact ⟨⟨direction, by rw [hsystem, hrelaying]⟩, timer_reset rfl,
      timer_reset rfl, by simp⟩
  | refreshes htask =>
    obtain ⟨hrelaying, -, -, hsending⟩ := h (by rw [htask]; trivial)
    exact ⟨hrelaying, timer_reset rfl,
      timer_reset rfl, hsending⟩
  | @sends command system os htask hact =>
    obtain ⟨⟨direction, hrelaying⟩, hping, hidle, hsending⟩ := h (by rw [htask]; trivial)
    obtain ⟨hcommand, rest, hinbox⟩ := hsending command htask
    have hsystem : system.websockets = l.system.websockets := by
      cases command with
      | sessionError => exact absurd rfl hcommand
      | send frame | progress offset =>
        simp only [System.step, System.websocketInbox, hrelaying, hinbox, if_true,
          Option.some.injEq, Prod.mk.injEq] at hact
        rw [← hact.1]
        rfl
    exact ⟨⟨direction, by rw [hsystem, hrelaying]⟩, by rw [since_aside rfl]; exact hping,
      by rw [since_aside rfl]; exact hidle, by simp⟩
  | pings htask hping =>
    obtain ⟨hrelaying, -, hidle, -⟩ := h (by rw [htask]; trivial)
    exact ⟨hrelaying, timer_reset rfl, by rw [since_aside rfl]; exact hidle, by simp⟩
  | pinged htask =>
    obtain ⟨hrelaying, hping, hidle, -⟩ := h (by rw [htask]; trivial)
    exact ⟨hrelaying, by rw [since_aside rfl]; exact hping,
      by rw [since_aside rfl]; exact hidle, by simp⟩

theorem path_running (hrun : (relayLoop metadata token).Run tr l) (hactive : l.task.Active) :
    Running tr.events l token := by
  revert hactive
  refine hrun.history (P := fun tr l => l.task.Active → Running tr.events l token)
    (fun h => h.elim) ?_
  intro tr l input l' out hpath ih _ hstep hactive
  rw [Trace.events_append, Trace.events_single]
  exact Running.step ih (System.Fresh.of_run (path_system hpath)) hstep hactive

namespace RelayLoop

theorem step_idle {direction : Direction}
    (hrelaying : l.system.websockets token = some (.relaying direction))
    (htask : l.task = .selecting) (hidle : l.idle ≤ l.now) :
    ∃ l' out, l.step token .idle = some (l', out) ∧ l'.task = .ended := by
  have hend : l.system.step (.websocketEnd token) =
      some (l.system.dropWebsocket token direction, []) := by
    simp only [System.step, System.websocketEnd, hrelaying]
  refine ⟨{ l with system := l.system.dropWebsocket token direction, task := .ended },
    [.idled, .did (.websocketEnd token) []], ?_, rfl⟩
  simp only [step, htask, if_pos hidle, act, hend, Option.map_some]

theorem step_sent {direction : Direction} {command : WebsocketCommand}
    {rest : List WebsocketCommand}
    (hrelaying : l.system.websockets token = some (.relaying direction))
    (hinbox : l.system.inboxes token = command :: rest) (hcommand : command ≠ .sessionError)
    (htask : l.task = .sending command) :
    (∃ l' out, l.step token (.sent true) = some (l', out) ∧ l'.task = .selecting ∧
        l'.system.inboxes token = rest) ∧
      ∃ l' out, l.step token (.sent false) = some (l', out) ∧ l'.task = .ended ∧
        l'.system.websockets token = some .ended := by
  have hstep (ok : Bool) : l.system.step (.websocketInbox token ok) =
      if ok then some (l.system.setInbox token rest, [])
      else some (l.system.dropWebsocket token direction, []) := by
    cases command with
    | sessionError => exact absurd rfl hcommand
    | send frame | progress offset =>
      simp only [System.step, System.websocketInbox, hrelaying, hinbox]
  constructor
  · refine ⟨{ l with system := l.system.setInbox token rest, task := .selecting },
      [.did (.websocketInbox token true) []], ?_, rfl, Function.update_self _ _ _⟩
    simp only [step, htask, act, hstep, if_true, Option.map_some]
  · refine ⟨{ l with system := l.system.dropWebsocket token direction, task := .ended },
      [.did (.websocketInbox token false) []], ?_, rfl, Function.update_self _ _ _⟩
    simp only [step, htask, act, hstep, Bool.false_eq_true, if_false, Option.map_some]

end RelayLoop

/-- The loop is the websocket of its session, timers and all. It sends a ping only after five
seconds without a frame or a ping, and gives its peer up only after thirty seconds without a
frame, when nothing but the choice of the select keeps it from that. While it sends, the command
is at the head of its inbox: once the socket takes it the loop goes on with the next one, and it
ends if the socket does not. -/
theorem relay_loop_keeps_time (hrun : (relayLoop metadata token).Run tr l) :
    (relaySystem metadata).Run (tr.flatMap shown) l.system ∧
      tr.Each (fun before _ out =>
        (.pinged ∈ out → pingInterval ≤ since LoopEvent.resetsPing before.events) ∧
        (.idled ∈ out → idleTimeout ≤ since LoopEvent.resetsIdle before.events)) ∧
      (l.task = .selecting → idleTimeout ≤ since LoopEvent.resetsIdle tr.events →
        ∃ l' out, l.step token .idle = some (l', out) ∧ l'.task = .ended) ∧
      ∀ command, l.task = .sending command →
        (l.system.inboxes token).head? = some command ∧
          (∃ l' out, l.step token (.sent true) = some (l', out) ∧ l'.task = .selecting ∧
            l'.system.inboxes token = (l.system.inboxes token).tail) ∧
          ∃ l' out, l.step token (.sent false) = some (l', out) ∧ l'.task = .ended ∧
            l'.system.websockets token = some .ended := by
  refine ⟨path_system hrun, ?_, fun htask hsince => ?_, fun command htask => ?_⟩
  · refine hrun.history (P := fun tr _ => tr.Each fun before _ out =>
      (.pinged ∈ out → pingInterval ≤ since LoopEvent.resetsPing before.events) ∧
      (.idled ∈ out → idleTimeout ≤ since LoopEvent.resetsIdle before.events))
      EventMachine.Trace.each_nil ?_
    intro tr l input l' out hpath ih _ hstep
    refine EventMachine.Trace.each_snoc.mpr ⟨ih, ?_⟩
    have hrunning := path_running hpath
    cases RelayLoop.step_loops hstep with
    | pings htask hping =>
      have hdeadline := (hrunning (by rw [htask]; trivial)).ping
      exact ⟨fun _ => by omega, by simp⟩
    | idles htask hidle _ =>
      have hdeadline := (hrunning (by rw [htask]; trivial)).idle
      exact ⟨by simp, fun _ => by omega⟩
    | _ => exact ⟨by simp, by simp⟩
  · obtain ⟨⟨direction, hrelaying⟩, -, hidle, -⟩ := path_running hrun (by rw [htask]; trivial)
    exact RelayLoop.step_idle hrelaying htask (by omega)
  · obtain ⟨⟨direction, hrelaying⟩, -, -, hsending⟩ := path_running hrun (by rw [htask]; trivial)
    obtain ⟨hcommand, rest, hinbox⟩ := hsending command htask
    refine ⟨by rw [hinbox, List.head?_cons], ?_⟩
    rw [hinbox, List.tail_cons]
    exact RelayLoop.step_sent hrelaying hinbox hcommand htask

def pingedThenIdle : List LoopEvent :=
  [.other (.websocket .download), .other .turn, .started, .elapse (5 * 10 ^ 9), .ping,
    .sent true, .frame (some .pong), .elapse (30 * 10 ^ 9), .idle]

theorem relay_loop_keeps_time_idled : ∃ tr l,
    (relayLoop "" 0).exec (.spawn "") pingedThenIdle = some (tr, l) ∧
      l.task = .ended ∧ (relaySystem "").Run (tr.flatMap shown) l.system := by
  have hexec : (relayLoop "" 0).exec (.spawn "") pingedThenIdle = some (_, _) := rfl
  exact ⟨_, _, hexec, rfl, (relay_loop_keeps_time (EventMachine.exec_run _ hexec)).1⟩

end Glopfile.Relay
