import Glopfile.Relay.System

/-!
# What each step of the system does

`Change` lists the steps of the system by what they change. Proofs about the system are
case analyses of a change; they unfold neither the handlers nor their waiting.
-/

namespace Glopfile.Relay

open EventMachine (Trace)

variable {metadata : String} {r r' : System} {e : SystemEvent} {os : List Output}
  {token : Token} {waiter : Waiter}

theorem System.send_queue {c : Command} (hrunning : r.session.running = true) :
    (r.send c).queue = r.queue ++ [c] := by
  simp [System.send, hrunning]

theorem System.deliverAll_eq {α : Type} (f : System → α) (hf : ∀ r o, f (System.deliver r o) = f r)
    (effects : List Effect) (r : System) : f (effects.foldl System.deliver r) = f r := by
  induction effects generalizing r with
  | nil => rfl
  | cons o effects ih => rw [List.foldl_cons, ih, hf]

theorem System.deliver_frame (r : System) (o : Effect) :
    (r.deliver o).session = r.session ∧ (r.deliver o).queue = r.queue ∧
      (r.deliver o).fresh = r.fresh ∧ (r.deliver o).downloads = r.downloads ∧
      (r.deliver o).uploads = r.uploads ∧ (r.deliver o).websockets = r.websockets := by
  cases o with
  | event events event =>
    simp only [System.deliver]
    split_ifs <;> exact ⟨rfl, rfl, rfl, rfl, rfl, rfl⟩
  | websocket commands command =>
    simp only [System.deliver]
    split_ifs <;> exact ⟨rfl, rfl, rfl, rfl, rfl, rfl⟩
  | reply waiter reply => exact ⟨rfl, rfl, rfl, rfl, rfl, rfl⟩

section
variable {effects : List Effect}

@[simp] theorem System.deliverAll_session :
    (effects.foldl System.deliver r).session = r.session :=
  System.deliverAll_eq System.session (fun r o => (r.deliver_frame o).1) effects r

@[simp] theorem System.deliverAll_queue : (effects.foldl System.deliver r).queue = r.queue :=
  System.deliverAll_eq System.queue (fun r o => (r.deliver_frame o).2.1) effects r

@[simp] theorem System.deliverAll_fresh : (effects.foldl System.deliver r).fresh = r.fresh :=
  System.deliverAll_eq System.fresh (fun r o => (r.deliver_frame o).2.2.1) effects r

@[simp] theorem System.deliverAll_downloads :
    (effects.foldl System.deliver r).downloads = r.downloads :=
  System.deliverAll_eq System.downloads (fun r o => (r.deliver_frame o).2.2.2.1) effects r

@[simp] theorem System.deliverAll_uploads :
    (effects.foldl System.deliver r).uploads = r.uploads :=
  System.deliverAll_eq System.uploads (fun r o => (r.deliver_frame o).2.2.2.2.1) effects r

@[simp] theorem System.deliverAll_websockets :
    (effects.foldl System.deliver r).websockets = r.websockets :=
  System.deliverAll_eq System.websockets (fun r o => (r.deliver_frame o).2.2.2.2.2) effects r

theorem System.deliverAll_replies_isSome (h : (r.replies waiter).isSome = true ∨
    ∃ reply, Effect.reply waiter reply ∈ effects) :
    ((effects.foldl System.deliver r).replies waiter).isSome = true := by
  induction effects generalizing r with
  | nil => simpa using h
  | cons o effects ih =>
    rw [List.foldl_cons]
    refine ih ?_
    rcases h with h | ⟨reply, hmem⟩
    · left
      cases o with
      | event events event =>
        simp only [System.deliver]
        split_ifs <;> exact h
      | websocket commands command =>
        simp only [System.deliver]
        split_ifs <;> exact h
      | reply waiter' reply =>
        by_cases hw : waiter = waiter'
        · simp [System.deliver, hw]
        · simpa [System.deliver, Function.update_of_ne hw] using h
    · rcases List.mem_cons.mp hmem with rfl | hmem
      · left
        simp [System.deliver]
      · exact .inr ⟨reply, hmem⟩

theorem System.mem_deliverAll_channels {events : Sender} {event : DownloadEvent}
    (hmem : event ∈ r.channels events ∨
      (r.downloads events).any DownloadTask.alive = true ∧ Effect.event events event ∈ effects) :
    event ∈ (effects.foldl System.deliver r).channels events := by
  induction effects generalizing r with
  | nil => simpa using hmem
  | cons o effects ih =>
    rw [List.foldl_cons]
    refine ih ?_
    rw [(r.deliver_frame o).2.2.2.1]
    have hkeep : event ∈ r.channels events → event ∈ (r.deliver o).channels events := by
      intro h
      cases o with
      | event events' event' =>
        simp only [System.deliver]
        split_ifs
        · by_cases he : events = events'
          · subst he
            simp [System.setChannel, h]
          · simpa [System.setChannel, he] using h
        · exact h
      | websocket commands command =>
        simp only [System.deliver]
        split_ifs <;> exact h
      | reply waiter reply => exact h
    rcases hmem with h | ⟨halive, hmem⟩
    · exact .inl (hkeep h)
    · rcases List.mem_cons.mp hmem with rfl | hmem
      · left
        simp [System.deliver, halive, System.setChannel]
      · exact .inr ⟨halive, hmem⟩

theorem System.deliverAll_silent (hsilent : ∀ reply, Effect.reply waiter reply ∉ effects) :
    (effects.foldl System.deliver r).replies waiter = r.replies waiter := by
  induction effects generalizing r with
  | nil => rfl
  | cons o effects ih =>
    rw [List.foldl_cons, ih fun reply hmem => hsilent reply (List.mem_cons_of_mem _ hmem)]
    cases o with
    | event events event =>
      simp only [System.deliver]
      split_ifs <;> rfl
    | websocket commands command =>
      simp only [System.deliver]
      split_ifs <;> rfl
    | reply waiter' reply =>
      have hne : waiter ≠ waiter' := fun heq => hsilent reply (by simp [heq])
      exact Function.update_of_ne hne _ _

theorem System.deliverAll_replies {reply : Reply}
    (h : (effects.foldl System.deliver r).replies waiter = some reply) :
    r.replies waiter = some reply ∨ Effect.reply waiter reply ∈ effects := by
  induction effects generalizing r with
  | nil => exact .inl h
  | cons o effects ih =>
    rw [List.foldl_cons] at h
    rcases ih h with h | hmem
    · cases o with
      | event events event =>
        left
        simp only [System.deliver] at h
        split_ifs at h <;> exact h
      | websocket commands command =>
        left
        simp only [System.deliver] at h
        split_ifs at h <;> exact h
      | reply waiter' reply' =>
        by_cases hw : waiter = waiter'
        · right
          subst hw
          simp only [System.deliver, Function.update_self, Option.some.injEq] at h
          simp [h]
        · left
          simpa [System.deliver, Function.update_of_ne hw] using h
    · exact .inr (List.mem_cons_of_mem _ hmem)

theorem System.deliverAll_replies_eq {reply : Reply} (hnone : r.replies waiter = none)
    (hmem : Effect.reply waiter reply ∈ effects)
    (honly : ∀ other, Effect.reply waiter other ∈ effects → other = reply) :
    (effects.foldl System.deliver r).replies waiter = some reply := by
  obtain ⟨other, hother⟩ :=
    Option.isSome_iff_exists.mp (System.deliverAll_replies_isSome (.inr ⟨reply, hmem⟩))
  rcases System.deliverAll_replies hother with hold | hmem'
  · rw [hnone] at hold
    cases hold
  · rw [hother, honly other hmem']

end

def Command.Plain (c : Waiter → Command) : Prop :=
  c = .metadata ∨ c = .finishDownload ∨ ∃ position, c = .checkStartUpload position

def Command.caller : Command → Option (Token × Waiter)
  | .startUpload token _ reply | .uploadData token _ reply | .flushUpload token reply =>
    some (token, reply)
  | _ => none

def SystemEvent.uploader : SystemEvent → Option Token
  | .uploadResume token | .uploadBody token _ | .uploadDrop token => some token
  | _ => none

def UploadTask.awaits : UploadTask → Option Waiter
  | .starting reply | .flushing reply | .sending _ reply => some reply
  | _ => none

theorem UploadTask.alive_of_awaits {task : UploadTask} (h : task.awaits = some waiter) :
    task.alive = true := by
  cases task with
  | starting reply | flushing reply | sending next reply => rfl
  | reading data => cases h
  | ended => cases h

inductive Resumed (r : System) (token : Token) :
    UploadTask → UploadResult → System × List Output → Prop
  | flushes {reply : Waiter} : Resumed r token (.starting reply) (.ok ()) (r.flushUpload token)
  | starts {reply : Waiter} :
      Resumed r token (.flushing reply) (.ok ()) (r.setUpload token (.reading none), [])
  | goesOn {reply : Waiter} {data : Bytes} :
      Resumed r token (.sending (some data) reply) (.ok ())
        (r.setUpload token (.reading (some data)), [])
  | done {reply : Waiter} : Resumed r token (.sending none reply) (.ok ()) (r.respond token .ok)
  | refused {task : UploadTask} {error : UploadError} :
      Resumed r token task (.error error) (r.respond token (uploadError error))

inductive UploadOutcome (r : System) : UploadTask → Response → Prop
  | done {reply : Waiter} (hreply : r.replies reply = some (.upload (.ok ()))) :
      UploadOutcome r (.sending none reply) .ok
  | refused {task : UploadTask} {reply : Waiter} {error : UploadError}
      (hawaits : task.awaits = some reply)
      (hreply : r.replies reply = some (.upload (.error error))) :
      UploadOutcome r task (uploadError error)
  | lost {task : UploadTask} : UploadOutcome r task .notFound
  | unread {data : Option Bytes} : UploadOutcome r (.reading data) readFailed

inductive Change (r : System) : SystemEvent → System → List Output → Prop
  | turn {c : Command} {rest : List Command} {session : Session} {effects : List Effect}
      (hqueue : r.queue = c :: rest) (hstep : r.session.step c = some (session, effects)) :
      Change r .turn
        (effects.foldl System.deliver
          { r with session := session, queue := if session.running then rest else [] })
        [.handled c effects]
  | request {e : SystemEvent} {c : Waiter → Command} (hplain : Command.Plain c) :
      Change r e ((r.draw 1).send (c r.fresh)) []
  | download {position : Position} :
      Change r (.download position) (r.download position).1 []
  | downloadStarted {e : SystemEvent} {token : Token} {reply : Waiter} {answer : Reply}
      (htask : r.downloads token = some (.starting reply))
      (hreply : r.replies reply = some answer) :
      Change r e (r.setDownload token (.streaming false)) []
  | downloadRefused {e : SystemEvent} {token : Token} {reply : Waiter}
      (htask : r.downloads token = some (.starting reply))
      (hreply : r.replies reply = none) (hheld : r.replyHeld reply = false) :
      Change r e ((r.setDownload token .ended).setChannel token []) []
  | downloadMore {e : SystemEvent} {token : Token} {data : Bytes} {rest : List DownloadEvent}
      (htask : r.downloads token = some (.streaming false))
      (hchannel : r.channels token = .more data :: rest) :
      Change r e (r.setChannel token rest) [.took token (.more data)]
  | downloadFinal {e : SystemEvent} {token : Token} {data : Bytes} {rest : List DownloadEvent}
      (htask : r.downloads token = some (.streaming false))
      (hchannel : r.channels token = .final data :: rest) :
      Change r e ((r.setChannel token rest).setDownload token (.streaming true))
        [.took token (.final data)]
  | downloadReplaced {e : SystemEvent} {token : Token} {rest : List DownloadEvent}
      (htask : r.downloads token = some (.streaming false))
      (hchannel : r.channels token = .connectionReplaced :: rest) :
      Change r e (r.dropDownload token false) [.took token .connectionReplaced]
  | downloadEnded {e : SystemEvent} {token : Token} {completed : Bool}
      (htask : r.downloads token = some (.streaming completed)) :
      Change r e (r.dropDownload token completed) []
  | downloadCancelled {token : Token} {reply : Waiter}
      (htask : r.downloads token = some (.starting reply)) :
      Change r (.downloadDrop token) ((r.setDownload token .ended).setChannel token []) []
  | upload {position : Position} : Change r (.upload position) (r.upload position).1 []
  | uploadFlushing {e : SystemEvent} {token : Token} {reply : Waiter}
      (htask : r.uploads token = some (.starting reply))
      (hreply : r.replies reply = some (.upload (.ok ()))) :
      Change r e (r.flushUpload token).1 []
  | uploadReading {e : SystemEvent} {token : Token} {reply : Waiter} {data : Option Bytes}
      {task : UploadTask} (htask : r.uploads token = some task)
      (hawaits : task = .flushing reply ∧ data = none ∨ task = .sending data reply)
      (hreply : r.replies reply = some (.upload (.ok ()))) :
      Change r e (r.setUpload token (.reading data)) []
  | uploadRead {e : SystemEvent} {token : Token} {data : List UInt8}
      (htask : r.uploads token = some (.reading none)) :
      Change r e ((r.draw 1).setUpload token (.reading (some ⟨r.fresh, data⟩))) []
  | uploadEmpty {e : SystemEvent} {token : Token}
      (htask : r.uploads token = some (.reading none)) :
      Change r e ((r.draw 1).sendChunk token (.final ⟨r.fresh, []⟩) none).1 []
  | uploadMore {e : SystemEvent} {token : Token} {data : Bytes} {next : List UInt8}
      (htask : r.uploads token = some (.reading (some data))) :
      Change r e ((r.draw 1).sendChunk token (.more data) (some ⟨r.fresh, next⟩)).1 []
  | uploadFinal {e : SystemEvent} {token : Token} {data : Bytes}
      (htask : r.uploads token = some (.reading (some data))) :
      Change r e (r.sendChunk token (.final data) none).1 []
  | uploadResponded {e : SystemEvent} {token : Token} {task : UploadTask} {response : Response}
      (htask : r.uploads token = some task) (halive : task.alive = true)
      (houtcome : UploadOutcome r task response) :
      Change r e (r.dropUpload token) [.responded token response]
  | uploadCancelled {e : SystemEvent} {token : Token} {task : UploadTask}
      (htask : r.uploads token = some task) (halive : task.alive = true) :
      Change r e (r.dropUpload token) []
  | websocket {direction : Direction} :
      Change r (.websocket direction) (r.websocket direction).1 []
  | websocketStarted {e : SystemEvent} {token : Token} {direction : Direction} {reply : Waiter}
      {answer : Reply} (htask : r.websockets token = some (.starting direction reply))
      (hreply : r.replies reply = some answer) :
      Change r e (r.setWebsocket token (.relaying direction)) []
  | websocketRefused {e : SystemEvent} {token : Token} {direction : Direction} {reply : Waiter}
      (htask : r.websockets token = some (.starting direction reply))
      (hreply : r.replies reply = none) (hheld : r.replyHeld reply = false) :
      Change r e ((r.setWebsocket token .ended).setInbox token []) []
  | websocketSent {e : SystemEvent} {token : Token} {direction : Direction}
      {command : WebsocketCommand} {rest : List WebsocketCommand}
      (htask : r.websockets token = some (.relaying direction))
      (hinbox : r.inboxes token = command :: rest) :
      Change r e (r.setInbox token rest) []
  | websocketFrame {e : SystemEvent} {token : Token} {direction : Direction} {frame : Frame}
      (htask : r.websockets token = some (.relaying direction)) :
      Change r e (r.send (.websocketData direction frame)) []
  | websocketEnded {e : SystemEvent} {token : Token} {direction : Direction}
      (htask : r.websockets token = some (.relaying direction)) :
      Change r e (r.dropWebsocket token direction) []

namespace System

theorem response_eq_some_some {answer : Reply} (h : r.response waiter = some (some answer)) :
    r.replies waiter = some answer := by
  unfold response at h
  cases hreply : r.replies waiter with
  | none =>
    rw [hreply] at h
    simp at h
  | some reply =>
    rw [hreply] at h
    simpa using h

theorem response_eq_some_none (h : r.response waiter = some none) :
    r.replies waiter = none ∧ r.replyHeld waiter = false := by
  unfold response at h
  cases hreply : r.replies waiter with
  | none =>
    rw [hreply] at h
    simpa using h
  | some reply =>
    rw [hreply] at h
    simp at h

theorem uploadAnswer_ok {answer : Option Reply} (h : r.response waiter = some answer)
    (hok : uploadAnswer answer = .ok ()) : r.replies waiter = some (.upload (.ok ())) := by
  cases answer with
  | none => cases hok
  | some reply =>
    cases reply with
    | upload result =>
      cases result with
      | ok _ => exact response_eq_some_some h
      | error error => cases hok
    | done => cases hok
    | metadata metadata => cases hok

theorem uploadAnswer_error {answer : Option Reply} {error : UploadError} {task : UploadTask}
    (h : r.response waiter = some answer) (herror : uploadAnswer answer = .error error)
    (hawaits : task.awaits = some waiter) : UploadOutcome r task (uploadError error) := by
  cases answer with
  | none =>
    cases herror
    exact .lost
  | some reply =>
    cases reply with
    | upload result =>
      cases result with
      | ok _ => cases herror
      | error error' =>
        cases herror
        exact .refused hawaits (response_eq_some_some h)
    | done =>
      cases herror
      exact .lost
    | metadata metadata =>
      cases herror
      exact .lost

theorem turn_eq_some (h : r.turn = some (r', os)) :
    ∃ c rest session effects, r.queue = c :: rest ∧ r.session.step c = some (session, effects) ∧
      r' = effects.foldl System.deliver
        { r with session := session, queue := if session.running then rest else [] } ∧
      os = [.handled c effects] := by
  unfold turn at h
  split at h
  · cases h
  · next c rest hqueue =>
    split at h
    · cases h
    · next session effects hstep =>
      obtain ⟨rfl, rfl⟩ := Prod.mk.inj (Option.some.inj h)
      exact ⟨c, rest, session, effects, hqueue, hstep, rfl, rfl⟩

theorem turn_change (h : r.turn = some (r', os)) : Change r .turn r' os := by
  obtain ⟨c, rest, session, effects, hqueue, hstep, rfl, rfl⟩ := turn_eq_some h
  exact .turn hqueue hstep

theorem downloadResume_change (h : r.downloadResume token = some (r', os)) :
    Change r e r' os := by
  unfold downloadResume at h
  split at h
  · next reply htask =>
    split at h
    · cases h
    · next hr =>
      cases h
      exact .downloadRefused htask (response_eq_some_none hr).1 (response_eq_some_none hr).2
    · next hr =>
      cases h
      exact .downloadStarted htask (response_eq_some_some hr)
  · cases h

theorem downloadPoll_change (h : r.downloadPoll token = some (r', os)) : Change r e r' os := by
  unfold downloadPoll at h
  split at h
  · next htask =>
    cases h
    exact .downloadEnded htask
  · next htask =>
    split at h
    · next hchannel =>
      cases h
      exact .downloadMore htask hchannel
    · next hchannel =>
      cases h
      exact .downloadFinal htask hchannel
    · next hchannel =>
      cases h
      exact .downloadReplaced htask hchannel
    · split at h
      · cases h
      · cases h
        exact .downloadEnded htask
  · cases h

theorem downloadDrop_change (h : r.downloadDrop token = some (r', os)) :
    Change r (.downloadDrop token) r' os := by
  unfold downloadDrop at h
  split at h
  · next htask =>
    cases h
    exact .downloadCancelled htask
  · next htask =>
    cases h
    exact .downloadEnded htask
  · cases h

theorem uploadResume_resumed (h : r.uploadResume token = some (r', os)) :
    ∃ task waiter answer, r.uploads token = some task ∧ task.awaits = some waiter ∧
      r.response waiter = some answer ∧ Resumed r token task (uploadAnswer answer) (r', os) := by
  unfold uploadResume at h
  split at h
  · next waiter htask =>
    obtain ⟨answer, hresponse, h⟩ := Option.map_eq_some_iff.mp h
    refine ⟨_, waiter, answer, htask, rfl, hresponse, ?_⟩
    rw [← h]
    cases uploadAnswer answer with
    | ok _ => exact .flushes
    | error error => exact .refused
  · next waiter htask =>
    obtain ⟨answer, hresponse, h⟩ := Option.map_eq_some_iff.mp h
    refine ⟨_, waiter, answer, htask, rfl, hresponse, ?_⟩
    rw [← h]
    cases uploadAnswer answer with
    | ok _ => exact .starts
    | error error => exact .refused
  · next next waiter htask =>
    obtain ⟨answer, hresponse, h⟩ := Option.map_eq_some_iff.mp h
    refine ⟨_, waiter, answer, htask, rfl, hresponse, ?_⟩
    rw [← h]
    cases uploadAnswer answer with
    | ok _ => cases next with
      | none => exact .done
      | some data => exact .goesOn
    | error error => exact .refused
  · cases h

theorem uploadResume_change (h : r.uploadResume token = some (r', os)) : Change r e r' os := by
  obtain ⟨task, waiter, answer, htask, hawaits, hresponse, hresumed⟩ := uploadResume_resumed h
  generalize hanswer : uploadAnswer answer = result at hresumed
  cases hresumed with
  | flushes =>
    obtain rfl := Option.some.inj hawaits
    exact .uploadFlushing htask (uploadAnswer_ok hresponse hanswer)
  | starts =>
    obtain rfl := Option.some.inj hawaits
    exact .uploadReading htask (.inl ⟨rfl, rfl⟩) (uploadAnswer_ok hresponse hanswer)
  | goesOn =>
    obtain rfl := Option.some.inj hawaits
    exact .uploadReading htask (.inr rfl) (uploadAnswer_ok hresponse hanswer)
  | done =>
    obtain rfl := Option.some.inj hawaits
    exact .uploadResponded htask rfl (.done (uploadAnswer_ok hresponse hanswer))
  | refused =>
    exact .uploadResponded htask (UploadTask.alive_of_awaits hawaits)
      (uploadAnswer_error hresponse hanswer hawaits)

theorem uploadBody_change {item : BodyItem} (h : r.uploadBody token item = some (r', os)) :
    Change r e r' os := by
  unfold uploadBody at h
  split at h
  · next htask =>
    cases h
    exact .uploadResponded htask rfl .unread
  · next htask =>
    cases h
    exact .uploadRead htask
  · next htask =>
    cases h
    exact .uploadEmpty htask
  · next htask =>
    cases h
    exact .uploadMore htask
  · next htask =>
    cases h
    exact .uploadFinal htask
  · cases h

theorem uploadDrop_change (h : r.uploadDrop token = some (r', os)) : Change r e r' os := by
  unfold uploadDrop at h
  cases htask : r.uploads token with
  | none => simp [htask] at h
  | some task =>
    simp only [htask, Option.any_some, Option.ite_none_right_eq_some] at h
    obtain ⟨halive, h⟩ := h
    cases h
    exact .uploadCancelled htask halive

theorem websocketResume_change (h : r.websocketResume token = some (r', os)) :
    Change r e r' os := by
  unfold websocketResume at h
  split at h
  · next direction reply htask =>
    split at h
    · cases h
    · next hr =>
      cases h
      exact .websocketRefused htask (response_eq_some_none hr).1 (response_eq_some_none hr).2
    · next hr =>
      cases h
      exact .websocketStarted htask (response_eq_some_some hr)
  · cases h

theorem websocketInbox_change {sent : Bool} (h : r.websocketInbox token sent = some (r', os)) :
    Change r e r' os := by
  unfold websocketInbox at h
  split at h
  · next direction htask =>
    split at h
    · cases h
      exact .websocketEnded htask
    · next hinbox =>
      split at h
      · cases h
        exact .websocketSent htask hinbox
      · cases h
        exact .websocketEnded htask
    · split at h
      · cases h
      · cases h
        exact .websocketEnded htask
  · cases h

theorem websocketFrame_change {frame : Frame} (h : r.websocketFrame token frame = some (r', os)) :
    Change r e r' os := by
  unfold websocketFrame at h
  split at h
  · next htask =>
    cases h
    exact .websocketFrame htask
  · cases h

theorem websocketEnd_change (h : r.websocketEnd token = some (r', os)) : Change r e r' os := by
  unfold websocketEnd at h
  split at h
  · next htask =>
    cases h
    exact .websocketEnded htask
  · cases h

theorem step_change (h : r.step e = some (r', os)) : Change r e r' os := by
  cases e with
  | turn => exact turn_change h
  | metadata =>
    cases h
    exact .request (.inl rfl)
  | finishDownload =>
    cases h
    exact .request (.inr (.inl rfl))
  | checkStartUpload position =>
    cases h
    exact .request (.inr (.inr ⟨position, rfl⟩))
  | download position =>
    cases h
    exact .download
  | downloadResume token => exact downloadResume_change h
  | downloadPoll token => exact downloadPoll_change h
  | downloadDrop token => exact downloadDrop_change h
  | upload position =>
    cases h
    exact .upload
  | uploadResume token => exact uploadResume_change h
  | uploadBody token item => exact uploadBody_change h
  | uploadDrop token => exact uploadDrop_change h
  | websocket direction =>
    cases h
    exact .websocket
  | websocketResume token => exact websocketResume_change h
  | websocketInbox token sent => exact websocketInbox_change h
  | websocketFrame token frame => exact websocketFrame_change h
  | websocketEnd token => exact websocketEnd_change h

/-- A step that has nothing to do with the uploads: it changes none of their handlers, and any
command it sends is not a call of theirs. -/
structure Besides (r r' : System) (os : List Output) : Prop where
  uploads : r'.uploads = r.uploads
  queue : ∀ c ∈ r'.queue, c ∈ r.queue ∨ c.caller = none
  quiet : ∀ token response, Output.responded token response ∉ os

theorem Besides.silent {t : System} (huploads : t.uploads = r.uploads) (hqueue : t.queue = r.queue)
    (hos : ∀ token response, Output.responded token response ∉ os) : r.Besides t os :=
  ⟨huploads, fun _ hc => .inl (hqueue ▸ hc), hos⟩

theorem Besides.send {t : System} {c : Command} (h : r.Besides t os) (hc : c.caller = none) :
    r.Besides (t.send c) os where
  uploads := h.uploads
  queue d hd := by
    unfold System.send at hd
    split_ifs at hd
    · rcases List.mem_append.mp hd with hd | hd
      · exact h.queue d hd
      · exact .inr (List.mem_singleton.mp hd ▸ hc)
    · exact h.queue d hd
  quiet := h.quiet

theorem besides_request {command : Waiter → Command} (hplain : Command.Plain command) :
    r.Besides (r.request command).1 [] := by
  refine Besides.send (t := r.draw 1) (.silent rfl rfl fun _ _ => List.not_mem_nil) ?_
  rcases hplain with rfl | rfl | ⟨position, rfl⟩ <;> rfl

theorem besides_dropDownload {completed : Bool}
    (hos : ∀ token response, Output.responded token response ∉ os) :
    r.Besides (r.dropDownload token completed) os :=
  Besides.send (t := (r.setDownload token .ended).setChannel token []) (.silent rfl rfl hos) rfl

theorem besides_dropWebsocket {direction : Direction} :
    r.Besides (r.dropWebsocket token direction) [] :=
  Besides.send (t := (r.setWebsocket token .ended).setInbox token [])
    (.silent rfl rfl fun _ _ => List.not_mem_nil) rfl

theorem besides_downloadResume (h : r.downloadResume token = some (r', os)) :
    r.Besides r' os := by
  unfold downloadResume at h
  split at h
  · split at h
    · cases h
    · cases h
      exact .silent rfl rfl fun _ _ => List.not_mem_nil
    · cases h
      exact .silent rfl rfl fun _ _ => List.not_mem_nil
  · cases h

theorem besides_downloadPoll (h : r.downloadPoll token = some (r', os)) : r.Besides r' os := by
  unfold downloadPoll at h
  split at h
  · cases h
    exact besides_dropDownload fun _ _ => List.not_mem_nil
  · split at h
    · cases h
      exact .silent rfl rfl (by simp)
    · cases h
      exact .silent rfl rfl (by simp)
    · cases h
      exact besides_dropDownload (by simp)
    · split_ifs at h
      cases h
      exact besides_dropDownload fun _ _ => List.not_mem_nil
  · cases h

theorem besides_downloadDrop (h : r.downloadDrop token = some (r', os)) : r.Besides r' os := by
  unfold downloadDrop at h
  split at h
  · cases h
    exact .silent rfl rfl fun _ _ => List.not_mem_nil
  · cases h
    exact besides_dropDownload fun _ _ => List.not_mem_nil
  · cases h

theorem besides_websocketResume (h : r.websocketResume token = some (r', os)) :
    r.Besides r' os := by
  unfold websocketResume at h
  split at h
  · split at h
    · cases h
    · cases h
      exact .silent rfl rfl fun _ _ => List.not_mem_nil
    · cases h
      exact .silent rfl rfl fun _ _ => List.not_mem_nil
  · cases h

theorem besides_websocketInbox {sent : Bool} (h : r.websocketInbox token sent = some (r', os)) :
    r.Besides r' os := by
  unfold websocketInbox at h
  split at h
  · split at h
    · cases h
      exact besides_dropWebsocket
    · split_ifs at h
      · cases h
        exact .silent rfl rfl fun _ _ => List.not_mem_nil
      · cases h
        exact besides_dropWebsocket
    · split_ifs at h
      cases h
      exact besides_dropWebsocket
  · cases h

theorem step_besides (h : r.step e = some (r', os)) (he : e.uploader = none) (hturn : e ≠ .turn)
    (hupload : ∀ position, e ≠ .upload position) : r.Besides r' os := by
  cases e with
  | turn => exact absurd rfl hturn
  | metadata =>
    cases h
    exact besides_request (.inl rfl)
  | finishDownload =>
    cases h
    exact besides_request (.inr (.inl rfl))
  | checkStartUpload position =>
    cases h
    exact besides_request (.inr (.inr ⟨position, rfl⟩))
  | download position =>
    cases h
    exact Besides.send (t := (r.draw 2).setDownload r.fresh (.starting (r.fresh + 1)))
      (.silent rfl rfl fun _ _ => List.not_mem_nil) rfl
  | downloadResume token => exact besides_downloadResume h
  | downloadPoll token => exact besides_downloadPoll h
  | downloadDrop token => exact besides_downloadDrop h
  | upload position => exact absurd rfl (hupload position)
  | uploadResume token | uploadBody token item | uploadDrop token => cases he
  | websocket direction =>
    cases h
    exact Besides.send (t := (r.draw 2).setWebsocket r.fresh (.starting direction (r.fresh + 1)))
      (.silent rfl rfl fun _ _ => List.not_mem_nil) rfl
  | websocketResume token => exact besides_websocketResume h
  | websocketInbox token sent => exact besides_websocketInbox h
  | websocketFrame token frame =>
    simp only [step, websocketFrame] at h
    split at h
    · cases h
      exact (Besides.silent rfl rfl fun _ _ => List.not_mem_nil).send rfl
    · cases h
  | websocketEnd token =>
    simp only [step, websocketEnd] at h
    split at h
    · cases h
      exact besides_dropWebsocket
    · cases h

end System

theorem Change.running (h : Change r e r' os) (hrunning : r'.session.running = true) :
    r.session.running = true := by
  cases h with
  | turn hqueue hstep => exact (Session.step_eq_some.mp hstep).1
  | _ => exact hrunning

structure System.Fresh (r : System) : Prop where
  downloads : ∀ token, r.fresh ≤ token → r.downloads token = none
  uploads : ∀ token, r.fresh ≤ token → r.uploads token = none
  websockets : ∀ token, r.fresh ≤ token → r.websockets token = none

namespace System.Fresh

theorem spawn : Fresh (System.spawn metadata) where
  downloads _ _ := rfl
  uploads _ _ := rfl
  websockets _ _ := rfl

theorem downloads_lt (h : r.Fresh) {task : DownloadTask} (htask : r.downloads token = some task) :
    token < r.fresh := by
  by_contra hle
  rw [h.downloads token (Nat.le_of_not_lt hle)] at htask
  cases htask

theorem uploads_lt (h : r.Fresh) {task : UploadTask} (htask : r.uploads token = some task) :
    token < r.fresh := by
  by_contra hle
  rw [h.uploads token (Nat.le_of_not_lt hle)] at htask
  cases htask

theorem websockets_lt (h : r.Fresh) {task : WebsocketTask}
    (htask : r.websockets token = some task) : token < r.fresh := by
  by_contra hle
  rw [h.websockets token (Nat.le_of_not_lt hle)] at htask
  cases htask

theorem of_update {t : System} (token : Token) (h : r.Fresh) (htoken : token < t.fresh)
    (hle : r.fresh ≤ t.fresh)
    (hother : ∀ other, other ≠ token → t.downloads other = r.downloads other ∧
      t.uploads other = r.uploads other ∧ t.websockets other = r.websockets other) :
    t.Fresh := by
  have hne : ∀ other, t.fresh ≤ other → other ≠ token := fun other ho =>
    Nat.ne_of_gt (Nat.lt_of_lt_of_le htoken ho)
  constructor
  · intro other ho
    rw [(hother other (hne other ho)).1]
    exact h.downloads other (Nat.le_trans hle ho)
  · intro other ho
    rw [(hother other (hne other ho)).2.1]
    exact h.uploads other (Nat.le_trans hle ho)
  · intro other ho
    rw [(hother other (hne other ho)).2.2]
    exact h.websockets other (Nat.le_trans hle ho)

theorem setDownload {task : DownloadTask} (h : r.Fresh) (htoken : token < r.fresh) :
    (r.setDownload token task).Fresh :=
  h.of_update token htoken (Nat.le_refl _) fun _ ho =>
    ⟨Function.update_of_ne ho _ _, rfl, rfl⟩

theorem setUpload {task : UploadTask} (h : r.Fresh) (htoken : token < r.fresh) :
    (r.setUpload token task).Fresh :=
  h.of_update token htoken (Nat.le_refl _) fun _ ho =>
    ⟨rfl, Function.update_of_ne ho _ _, rfl⟩

theorem setWebsocket {task : WebsocketTask} (h : r.Fresh) (htoken : token < r.fresh) :
    (r.setWebsocket token task).Fresh :=
  h.of_update token htoken (Nat.le_refl _) fun _ ho =>
    ⟨rfl, rfl, Function.update_of_ne ho _ _⟩

theorem draw (h : r.Fresh) (n : ℕ) : (r.draw n).Fresh where
  downloads other ho := h.downloads other (Nat.le_trans (Nat.le_add_right _ _) ho)
  uploads other ho := h.uploads other (Nat.le_trans (Nat.le_add_right _ _) ho)
  websockets other ho := h.websockets other (Nat.le_trans (Nat.le_add_right _ _) ho)

theorem send (h : r.Fresh) {c : Command} : (r.send c).Fresh := ⟨h.1, h.2, h.3⟩

theorem setChannel (h : r.Fresh) {channel : List DownloadEvent} :
    (r.setChannel token channel).Fresh := ⟨h.1, h.2, h.3⟩

theorem setInbox (h : r.Fresh) {inbox : List WebsocketCommand} :
    (r.setInbox token inbox).Fresh := ⟨h.1, h.2, h.3⟩

theorem change (h : r.Fresh) (hchange : Change r e r' os) : r'.Fresh := by
  have hdrawn : ∀ token n, token < r.fresh → token < (r.draw n).fresh := fun token n ht =>
    Nat.lt_of_lt_of_le ht (Nat.le_add_right _ _)
  have hnew : ∀ n, 0 < n → r.fresh < (r.draw n).fresh := fun n hn => Nat.lt_add_of_pos_right hn
  cases hchange with
  | turn hqueue hstep =>
    refine ⟨fun other ho => ?_, fun other ho => ?_, fun other ho => ?_⟩
    · simpa using h.downloads other (by simpa using ho)
    · simpa using h.uploads other (by simpa using ho)
    · simpa using h.websockets other (by simpa using ho)
  | request hplain => exact (h.draw 1).send
  | download => exact ((h.draw 2).setDownload (hnew 2 (by decide))).send
  | downloadStarted htask hreply => exact h.setDownload (h.downloads_lt htask)
  | downloadRefused htask hreply hheld => exact (h.setDownload (h.downloads_lt htask)).setChannel
  | downloadMore htask hchannel => exact h.setChannel
  | downloadFinal htask hchannel => exact h.setChannel.setDownload (h.downloads_lt htask)
  | downloadReplaced htask hchannel =>
    exact (h.setDownload (h.downloads_lt htask)).setChannel.send
  | downloadEnded htask => exact (h.setDownload (h.downloads_lt htask)).setChannel.send
  | downloadCancelled htask => exact (h.setDownload (h.downloads_lt htask)).setChannel
  | upload => exact ((h.draw 2).setUpload (hnew 2 (by decide))).send
  | uploadFlushing htask hreply =>
    exact ((h.draw 1).setUpload (hdrawn _ 1 (h.uploads_lt htask))).send
  | uploadReading htask hawaits hreply => exact h.setUpload (h.uploads_lt htask)
  | uploadRead htask => exact (h.draw 1).setUpload (hdrawn _ 1 (h.uploads_lt htask))
  | uploadEmpty htask => exact ((h.draw 2).setUpload (hdrawn _ 2 (h.uploads_lt htask))).send
  | uploadMore htask => exact ((h.draw 2).setUpload (hdrawn _ 2 (h.uploads_lt htask))).send
  | uploadFinal htask => exact ((h.draw 1).setUpload (hdrawn _ 1 (h.uploads_lt htask))).send
  | uploadResponded htask halive houtcome => exact (h.setUpload (h.uploads_lt htask)).send
  | uploadCancelled htask halive => exact (h.setUpload (h.uploads_lt htask)).send
  | websocket => exact ((h.draw 2).setWebsocket (hnew 2 (by decide))).send
  | websocketStarted htask hreply => exact h.setWebsocket (h.websockets_lt htask)
  | websocketRefused htask hreply hheld => exact (h.setWebsocket (h.websockets_lt htask)).setInbox
  | websocketSent htask hinbox => exact h.setInbox
  | websocketFrame htask => exact h.send
  | websocketEnded htask => exact (h.setWebsocket (h.websockets_lt htask)).setInbox.send

theorem of_run {tr : Trace SystemEvent Output} (hrun : (relaySystem metadata).Run tr r) :
    r.Fresh := by
  refine hrun.invariant spawn ?_
  intro r e r' os h _ hstep
  exact h.change (step_change hstep)

end System.Fresh

end Glopfile.Relay
