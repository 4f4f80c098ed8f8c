import Glopfile.Relay.Replies
import Glopfile.Relay.SystemSteps

/-!
# What an accepted upload means

An upload request is answered `ok` when its last chunk was accepted, or when the download
was marked finished. Accepted means sent on the channel of a downloader: the response may
take the chunk from there, or end with the chunk still in it.
-/

namespace Glopfile.Relay

open EventMachine (Trace)

variable {metadata : String} {r r' : System} {e : SystemEvent} {os : List Output}
  {tr : Trace SystemEvent Output} {token : Token} {waiter : Waiter} {c : Command}

def Output.handling : Output → Option (Command × List Effect)
  | .handled c effects => some (c, effects)
  | _ => none

def handledIn (tr : Trace SystemEvent Output) : Trace Command Effect :=
  tr.flatMap fun x => x.2.filterMap Output.handling

def outputs (tr : Trace SystemEvent Output) : List Output := tr.flatMap Prod.snd

@[simp] theorem handledIn_snoc :
    handledIn (tr ++ [(e, os)]) = handledIn tr ++ os.filterMap Output.handling := by
  simp [handledIn]

@[simp] theorem outputs_snoc : outputs (tr ++ [(e, os)]) = outputs tr ++ os := by
  simp [outputs]

theorem handledIn_turn {effects : List Effect} :
    handledIn (tr ++ [(e, [.handled c effects])]) = handledIn tr ++ [(c, effects)] := by
  simp [Output.handling]

theorem handledIn_run (hrun : (relaySystem metadata).Run tr r) :
    (sessionTask metadata).Run (handledIn tr) r.session := by
  have hstart : (sessionTask metadata).Run (handledIn []) (System.spawn metadata).session := .refl
  refine hrun.history (P := fun tr r => (sessionTask metadata).Run (handledIn tr) r.session)
    hstart ?_
  intro tr r e r' os _ h _ hstep
  have hquiet : ∀ {os'}, os'.filterMap Output.handling = [] →
      (sessionTask metadata).Run (handledIn (tr ++ [(e, os')])) r.session := by
    intro os' hos
    rw [handledIn_snoc, hos, List.append_nil]
    exact h
  cases System.step_change hstep with
  | turn hqueue hturn =>
    rw [handledIn_snoc, System.deliverAll_session]
    exact h.snoc trivial hturn
  | _ => exact hquiet rfl

def issued (tr : Trace SystemEvent Output) (r : System) : List Waiter :=
  waiters (handledIn tr) ++ r.queue.filterMap Command.waiter

structure Named (tr : Trace SystemEvent Output) (r : System) : Prop where
  nodup : (issued tr r).Nodup
  drawn : ∀ waiter ∈ issued tr r, waiter < r.fresh

theorem issued_turn {rest queue : List Command} {effects : List Effect} {t : System}
    (hqueue : r.queue = c :: rest) (ht : t.queue = queue) (hsub : queue.Sublist rest) :
    (issued (tr ++ [(e, [.handled c effects])]) t).Sublist (issued tr r) := by
  have hwaiters : waiters (handledIn (tr ++ [(e, [.handled c effects])])) =
      waiters (handledIn tr) ++ c.waiter.toList := by
    cases hc : c.waiter <;> simp [waiters, Output.handling, hc]
  have hall : issued tr r =
      waiters (handledIn tr) ++ c.waiter.toList ++ rest.filterMap Command.waiter := by
    cases hc : c.waiter <;> simp [issued, hqueue, hc]
  rw [issued, hwaiters, hall, ht]
  exact (hsub.filterMap _).append_left _

namespace Named

theorem spawn : Named [] (System.spawn metadata) where
  nodup := by simp [issued, handledIn, waiters, System.spawn]
  drawn := by simp [issued, handledIn, waiters, System.spawn]

theorem quiet {t : System} (h : Named tr r) (hos : os.filterMap Output.handling = [])
    (hfresh : r.fresh ≤ t.fresh)
    (hqueue : t.queue = r.queue ∨ ∃ c, t.queue = r.queue ++ [c] ∧
      ∀ waiter, c.waiter = some waiter → r.fresh ≤ waiter ∧ waiter < t.fresh) :
    Named (tr ++ [(e, os)]) t := by
  have hsame : handledIn (tr ++ [(e, os)]) = handledIn tr := by simp [hos]
  rcases hqueue with hq | ⟨c, hq, hc⟩
  · have hissued : issued (tr ++ [(e, os)]) t = issued tr r := by rw [issued, issued, hsame, hq]
    refine ⟨by rw [hissued]; exact h.nodup, fun waiter hw => ?_⟩
    rw [hissued] at hw
    exact Nat.lt_of_lt_of_le (h.drawn waiter hw) hfresh
  · have hissued : issued (tr ++ [(e, os)]) t = issued tr r ++ c.waiter.toList := by
      cases hcw : c.waiter <;> simp [issued, hsame, hq, hcw]
    constructor
    · rw [hissued, List.nodup_append]
      refine ⟨h.nodup, by cases c.waiter <;> simp, fun w hw w' hw' heq => ?_⟩
      have hge := (hc w' (by simpa using hw')).1
      exact absurd (h.drawn w hw) (Nat.not_lt.mpr (heq ▸ hge))
    · intro w hw
      rw [hissued, List.mem_append] at hw
      rcases hw with hw | hw
      · exact Nat.lt_of_lt_of_le (h.drawn w hw) hfresh
      · exact (hc w (by simpa using hw)).2

theorem send {t : System} (h : Named tr r) (hos : os.filterMap Output.handling = [])
    (hfresh : r.fresh ≤ t.fresh) (hqueue : t.queue = r.queue)
    (hc : ∀ waiter, c.waiter = some waiter → r.fresh ≤ waiter ∧ waiter < t.fresh) :
    Named (tr ++ [(e, os)]) (t.send c) := by
  refine h.quiet hos hfresh ?_
  simp only [System.send, hqueue]
  split_ifs
  · exact .inr ⟨c, rfl, hc⟩
  · exact .inl rfl

theorem sendNew {t : System} (h : Named tr r) (k n : ℕ) (hk : k < n)
    (hos : os.filterMap Output.handling = []) (hfresh : t.fresh = r.fresh + n)
    (hqueue : t.queue = r.queue) (hc : c.waiter = some (r.fresh + k)) :
    Named (tr ++ [(e, os)]) (t.send c) := by
  refine h.send hos (by omega) hqueue fun waiter hwaiter => ?_
  obtain rfl := Option.some.inj (hc.symm.trans hwaiter)
  exact ⟨Nat.le_add_right _ _, by rw [hfresh]; exact Nat.add_lt_add_left hk _⟩

theorem turn {rest queue : List Command} {session : Session} {effects : List Effect}
    (h : Named tr r) (hqueue : r.queue = c :: rest) (hsub : queue.Sublist rest) :
    Named (tr ++ [(e, [.handled c effects])]) (effects.foldl System.deliver
      { r with session := session, queue := queue }) := by
  have hissued : (issued (tr ++ [(e, [.handled c effects])]) (effects.foldl System.deliver
      { r with session := session, queue := queue })).Sublist (issued tr r) :=
    issued_turn hqueue System.deliverAll_queue hsub
  exact ⟨h.nodup.sublist hissued, fun waiter hw => by
    simpa using h.drawn waiter (hissued.subset hw)⟩

theorem change (h : Named tr r) (hchange : Change r e r' os) : Named (tr ++ [(e, os)]) r' := by
  cases hchange with
  | turn hqueue hturn =>
    refine h.turn hqueue ?_
    split_ifs
    · exact List.Sublist.refl _
    · exact List.nil_sublist _
  | request hplain =>
    refine h.sendNew 0 1 (by decide) rfl rfl rfl ?_
    rcases hplain with rfl | rfl | ⟨position, rfl⟩ <;> rfl
  | download => exact h.sendNew 1 2 (by decide) rfl rfl rfl rfl
  | downloadReplaced htask hchannel => exact h.send rfl (Nat.le_refl _) rfl nofun
  | downloadEnded htask => exact h.send rfl (Nat.le_refl _) rfl nofun
  | upload => exact h.sendNew 1 2 (by decide) rfl rfl rfl rfl
  | uploadFlushing htask hreply => exact h.sendNew 0 1 (by decide) rfl rfl rfl rfl
  | uploadRead htask => exact h.quiet rfl (Nat.le_add_right _ 1) (.inl rfl)
  | uploadEmpty htask => exact h.sendNew 1 2 (by decide) rfl rfl rfl rfl
  | uploadMore htask => exact h.sendNew 1 2 (by decide) rfl rfl rfl rfl
  | uploadFinal htask => exact h.sendNew 0 1 (by decide) rfl rfl rfl rfl
  | uploadResponded htask halive houtcome => exact h.send rfl (Nat.le_refl _) rfl nofun
  | uploadCancelled htask halive => exact h.send rfl (Nat.le_refl _) rfl nofun
  | websocket => exact h.sendNew 1 2 (by decide) rfl rfl rfl rfl
  | websocketFrame htask => exact h.send rfl (Nat.le_refl _) rfl nofun
  | websocketEnded htask => exact h.send rfl (Nat.le_refl _) rfl nofun
  | _ => exact h.quiet rfl (Nat.le_refl _) (.inl rfl)

theorem of_run (hrun : (relaySystem metadata).Run tr r) : Named tr r := by
  refine hrun.history (P := fun tr r => Named tr r) spawn ?_
  intro tr r e r' os _ h _ hstep
  exact h.change (System.step_change hstep)

end Named

theorem replies_handled (hrun : (relaySystem metadata).Run tr r) {reply : Reply}
    (hreply : r.replies waiter = some reply) :
    ∃ c effects, (c, effects) ∈ handledIn tr ∧ Effect.reply waiter reply ∈ effects := by
  revert hreply
  refine hrun.history (P := fun tr r => r.replies waiter = some reply →
    ∃ c effects, (c, effects) ∈ handledIn tr ∧ Effect.reply waiter reply ∈ effects)
    (by simp [relaySystem, System.spawn]) ?_
  intro tr r e r' os _ h _ hstep hreply
  have hbefore : r.replies waiter = some reply → ∃ c effects,
      (c, effects) ∈ handledIn (tr ++ [(e, os)]) ∧ Effect.reply waiter reply ∈ effects := by
    intro hreply
    obtain ⟨c, effects, hmem, heffect⟩ := h hreply
    exact ⟨c, effects, by simp [hmem], heffect⟩
  cases System.step_change hstep with
  | turn hqueue hturn =>
    rcases System.deliverAll_replies hreply with hreply | heffect
    · exact hbefore hreply
    · exact ⟨_, _, by rw [handledIn_turn]; exact List.mem_append_right _ List.mem_cons_self,
        heffect⟩
  | _ => exact hbefore hreply

def Sent (tr : Trace SystemEvent Output) (r : System) (c : Command) : Prop :=
  (∃ effects, (c, effects) ∈ handledIn tr) ∨ c ∈ r.queue

/-- Whoever waits for `upload_data` sent the chunk in question, the last one if no other is
to follow. -/
def Sending (tr : Trace SystemEvent Output) (r : System) : Prop :=
  ∀ token next reply, r.uploads token = some (.sending next reply) →
    reply < r.fresh ∧ ∃ chunk, (next = none → ∃ data, chunk = .final data) ∧
      ∀ c, Sent tr r c → c.waiter = some reply → c = .uploadData token chunk reply

theorem Sent.issued (h : Sent tr r c) (hc : c.waiter = some waiter) : waiter ∈ issued tr r := by
  rcases h with ⟨effects, hmem⟩ | hmem
  · exact List.mem_append_left _ (mem_waiters.mpr ⟨c, effects, hmem, hc⟩)
  · exact List.mem_append_right _ (List.mem_filterMap.mpr ⟨c, hmem, hc⟩)

namespace Sending

theorem frame {t : System} (h : Sending tr r) (hfresh : r.fresh ≤ t.fresh)
    (huploads : ∀ token next reply, t.uploads token = some (.sending next reply) →
      r.uploads token = some (.sending next reply))
    (hsent : ∀ c, Sent (tr ++ [(e, os)]) t c → Sent tr r c ∨
      ∀ waiter, c.waiter = some waiter → r.fresh ≤ waiter) :
    Sending (tr ++ [(e, os)]) t := by
  intro token next reply htask
  obtain ⟨hlt, chunk, hlast, hcall⟩ := h token next reply (huploads token next reply htask)
  refine ⟨Nat.lt_of_lt_of_le hlt hfresh, chunk, hlast, fun c hc hwaiter => ?_⟩
  rcases hsent c hc with hc | hnew
  · exact hcall c hc hwaiter
  · exact absurd hlt (Nat.not_lt.mpr (hnew reply hwaiter))

end Sending

theorem sent_quiet {t : System} (hos : os.filterMap Output.handling = [])
    (hqueue : t.queue = r.queue) (h : Sent (tr ++ [(e, os)]) t c) : Sent tr r c := by
  simpa [Sent, hos, hqueue] using h

theorem sent_send {t : System} {d : Command} (hos : os.filterMap Output.handling = [])
    (hqueue : t.queue = r.queue) (h : Sent (tr ++ [(e, os)]) (t.send d) c) :
    Sent tr r c ∨ c = d := by
  simp only [Sent, handledIn_snoc, hos, List.append_nil, System.send, hqueue] at h
  rcases h with h | h
  · exact .inl (.inl h)
  · split_ifs at h
    · rcases List.mem_append.mp h with h | h
      · exact .inl (.inr h)
      · exact .inr (List.mem_singleton.mp h)
    · exact .inl (.inr h)

theorem sent_turn {rest queue : List Command} {effects : List Effect} {t : System} {d : Command}
    (hqueue : r.queue = d :: rest) (ht : t.queue = queue) (hsub : queue.Sublist rest)
    (h : Sent (tr ++ [(e, [.handled d effects])]) t c) : Sent tr r c := by
  rcases h with ⟨effects', hmem⟩ | hmem
  · rw [handledIn_turn] at hmem
    rcases List.mem_append.mp hmem with hmem | hmem
    · exact .inl ⟨effects', hmem⟩
    · obtain ⟨rfl, -⟩ := Prod.mk.inj (List.mem_singleton.mp hmem)
      exact .inr (by simp [hqueue])
  · rw [ht] at hmem
    exact .inr (by simp [hqueue, hsub.subset hmem])

inductive Sends (r : System) : SystemEvent → Command → Prop
  | plain {e : SystemEvent} {c : Waiter → Command} (hplain : Command.Plain c) :
      Sends r e (c r.fresh)
  | download {position : Position} :
      Sends r (.download position) (.startDownload ⟨r.fresh, position, r.fresh⟩ (r.fresh + 1))
  | upload {position : Position} :
      Sends r (.upload position) (.startUpload r.fresh position (r.fresh + 1))
  | websocket {direction : Direction} :
      Sends r (.websocket direction) (.startWebsocket direction ⟨r.fresh, r.fresh⟩ (r.fresh + 1))
  | flush {e : SystemEvent} {token : Token} {reply : Waiter} : Sends r e (.flushUpload token reply)
  | chunk {e : SystemEvent} {token : Token} {chunk : Chunk} {reply : Waiter} :
      Sends r e (.uploadData token chunk reply)
  | frame {e : SystemEvent} {direction : Direction} {frame : Frame} :
      Sends r e (.websocketData direction frame)
  | left {e : SystemEvent} {token : Token} {peer : Peer} : Sends r e (.disconnected token peer)

theorem sent_new (hchange : Change r e r' os) (hsent : Sent (tr ++ [(e, os)]) r' c) :
    Sent tr r c ∨ Sends r e c := by
  have hsend : ∀ {t : System} {d : Command} {os' : List Output},
      os'.filterMap Output.handling = [] → t.queue = r.queue → Sends r e d →
      Sent (tr ++ [(e, os')]) (t.send d) c → Sent tr r c ∨ Sends r e c := by
    intro t d os' hos hqueue hd hc
    rcases sent_send hos hqueue hc with hc | rfl
    · exact .inl hc
    · exact .inr hd
  cases hchange with
  | turn hqueue hturn =>
    refine .inl (sent_turn hqueue System.deliverAll_queue ?_ hsent)
    dsimp only
    split_ifs
    · exact List.Sublist.refl _
    · exact List.nil_sublist _
  | request hplain => exact hsend rfl rfl (.plain hplain) hsent
  | download => exact hsend rfl rfl .download hsent
  | upload => exact hsend rfl rfl .upload hsent
  | websocket => exact hsend rfl rfl .websocket hsent
  | downloadReplaced htask hchannel => exact hsend rfl rfl .left hsent
  | downloadEnded htask => exact hsend rfl rfl .left hsent
  | uploadFlushing htask hreply => exact hsend rfl rfl .flush hsent
  | uploadEmpty htask => exact hsend rfl rfl .chunk hsent
  | uploadMore htask => exact hsend rfl rfl .chunk hsent
  | uploadFinal htask => exact hsend rfl rfl .chunk hsent
  | uploadResponded htask halive houtcome => exact hsend rfl rfl .left hsent
  | uploadCancelled htask halive => exact hsend rfl rfl .left hsent
  | websocketFrame htask => exact hsend rfl rfl .frame hsent
  | websocketEnded htask => exact hsend rfl rfl .left hsent
  | _ => exact .inl (sent_quiet rfl rfl hsent)

namespace Sending

theorem sendChunk {t : System} {chunk : Chunk} {next : Option Bytes} (h : Sending tr r)
    (hnamed : Named tr r) (hle : r.fresh ≤ t.fresh) (hqueue : t.queue = r.queue)
    (huploads : t.uploads = r.uploads) (hlast : next = none → ∃ data, chunk = .final data) :
    Sending (tr ++ [(e, [])]) (t.sendChunk token chunk next).1 := by
  intro other next' reply htask
  by_cases hsame : other = token
  · subst hsame
    simp only [System.sendChunk, System.send, System.setUpload, Function.update_self,
      Option.some.injEq, UploadTask.sending.injEq] at htask
    obtain ⟨rfl, rfl⟩ := htask
    refine ⟨Nat.lt_succ_self _, chunk, hlast, fun c hc hwaiter => ?_⟩
    rcases sent_send (t := (t.draw 1).setUpload other (.sending next t.fresh)) rfl hqueue hc with
      hc | rfl
    · exact absurd (hnamed.drawn _ (hc.issued hwaiter)) (Nat.not_lt.mpr hle)
    · rfl
  · have hbefore : r.uploads other = some (.sending next' reply) := by
      simpa [System.sendChunk, System.send, System.setUpload, System.draw, hsame, huploads]
        using htask
    obtain ⟨hlt, chunk', hlast', hcall⟩ := h other next' reply hbefore
    refine ⟨Nat.lt_succ_of_lt (Nat.lt_of_lt_of_le hlt hle), chunk', hlast', fun c hc hwaiter => ?_⟩
    rcases sent_send (t := (t.draw 1).setUpload token (.sending next t.fresh)) rfl hqueue hc with
      hc | rfl
    · exact hcall c hc hwaiter
    · obtain rfl := Option.some.inj hwaiter
      exact absurd hlt (Nat.not_lt.mpr hle)

theorem change (h : Sending tr r) (hnamed : Named tr r) (hchange : Change r e r' os) :
    Sending (tr ++ [(e, os)]) r' := by
  -- Any other task of an upload handler than `sending`.
  have hset : ∀ {t : System} {token : Token} {task : UploadTask}, t.uploads = r.uploads →
      (∀ next reply, task ≠ .sending next reply) → ∀ other next reply,
        (t.setUpload token task).uploads other = some (.sending next reply) →
          r.uploads other = some (.sending next reply) := by
    intro t token task huploads htask other next reply hother
    by_cases hsame : other = token
    · simp only [System.setUpload, hsame, Function.update_self, Option.some.injEq] at hother
      exact absurd hother (htask next reply)
    · simpa [System.setUpload, hsame, huploads] using hother
  have hquiet : ∀ {t : System} {os' : List Output}, os'.filterMap Output.handling = [] →
      t.queue = r.queue → ∀ c, Sent (tr ++ [(e, os')]) t c → Sent tr r c ∨
        ∀ waiter, c.waiter = some waiter → r.fresh ≤ waiter :=
    fun hos hqueue c hc => .inl (sent_quiet hos hqueue hc)
  have hsend : ∀ {t : System} {d : Command} {os' : List Output},
      os'.filterMap Output.handling = [] → t.queue = r.queue →
      (∀ waiter, d.waiter = some waiter → r.fresh ≤ waiter) →
      ∀ c, Sent (tr ++ [(e, os')]) (t.send d) c → Sent tr r c ∨
        ∀ waiter, c.waiter = some waiter → r.fresh ≤ waiter := by
    intro t d os' hos hqueue hd c hc
    rcases sent_send hos hqueue hc with hc | rfl
    · exact .inl hc
    · exact .inr hd
  have hnew : ∀ {d : Command} {w : Waiter}, d.waiter = some w → r.fresh ≤ w →
      ∀ waiter, d.waiter = some waiter → r.fresh ≤ waiter := by
    intro d w hw hle waiter hwaiter
    obtain rfl := Option.some.inj (hw.symm.trans hwaiter)
    exact hle
  cases hchange with
  | turn hqueue hturn =>
    refine h.frame (by simp) ?_ fun c hc =>
      .inl (sent_turn hqueue System.deliverAll_queue ?_ hc)
    · intro other next reply htask
      rwa [System.deliverAll_uploads] at htask
    · dsimp only
      split_ifs
      · exact List.Sublist.refl _
      · exact List.nil_sublist _
  | request hplain =>
    refine h.frame (Nat.le_add_right _ 1) (fun _ _ _ htask => htask) (hsend rfl rfl ?_)
    rcases hplain with rfl | rfl | ⟨position, rfl⟩ <;> exact hnew rfl (Nat.le_refl _)
  | download =>
    exact h.frame (Nat.le_add_right _ 2) (fun _ _ _ htask => htask)
      (hsend rfl rfl (hnew rfl (Nat.le_add_right _ 1)))
  | downloadReplaced htask hchannel =>
    exact h.frame (Nat.le_refl _) (fun _ _ _ htask => htask) (hsend rfl rfl nofun)
  | downloadEnded htask =>
    exact h.frame (Nat.le_refl _) (fun _ _ _ htask => htask) (hsend rfl rfl nofun)
  | upload =>
    exact h.frame (Nat.le_add_right _ 2) (hset rfl nofun)
      (hsend rfl rfl (hnew rfl (Nat.le_add_right _ 1)))
  | uploadFlushing htask hreply =>
    exact h.frame (Nat.le_add_right _ 1) (hset rfl nofun)
      (hsend rfl rfl (hnew rfl (Nat.le_refl _)))
  | uploadReading htask hawaits hreply =>
    exact h.frame (Nat.le_refl _) (hset rfl nofun) (hquiet rfl rfl)
  | uploadRead htask => exact h.frame (Nat.le_add_right _ 1) (hset rfl nofun) (hquiet rfl rfl)
  | uploadEmpty htask =>
    exact h.sendChunk hnamed (Nat.le_add_right _ 1) rfl rfl fun _ => ⟨_, rfl⟩
  | uploadMore htask => exact h.sendChunk hnamed (Nat.le_add_right _ 1) rfl rfl nofun
  | uploadFinal htask => exact h.sendChunk hnamed (Nat.le_refl _) rfl rfl fun _ => ⟨_, rfl⟩
  | uploadResponded htask halive houtcome =>
    exact h.frame (Nat.le_refl _) (hset rfl nofun) (hsend rfl rfl nofun)
  | uploadCancelled htask halive =>
    exact h.frame (Nat.le_refl _) (hset rfl nofun) (hsend rfl rfl nofun)
  | websocket =>
    exact h.frame (Nat.le_add_right _ 2) (fun _ _ _ htask => htask)
      (hsend rfl rfl (hnew rfl (Nat.le_add_right _ 1)))
  | websocketFrame htask =>
    exact h.frame (Nat.le_refl _) (fun _ _ _ htask => htask) (hsend rfl rfl nofun)
  | websocketEnded htask =>
    exact h.frame (Nat.le_refl _) (fun _ _ _ htask => htask) (hsend rfl rfl nofun)
  | _ => exact h.frame (Nat.le_refl _) (fun _ _ _ htask => htask) (hquiet rfl rfl)

theorem of_run (hrun : (relaySystem metadata).Run tr r) : Sending tr r := by
  refine hrun.history (P := fun tr r => Sending tr r) (by simp [Sending, relaySystem, System.spawn])
    ?_
  intro tr r e r' os hpath h _ hstep
  exact h.change (Named.of_run hpath) (System.step_change hstep)

end Sending

def Fate (tr : Trace SystemEvent Output) (r : System) (events : Sender) (event : DownloadEvent) :
    Prop :=
  Output.took events event ∈ outputs tr ∨ event ∈ r.channels events ∨
    r.downloads events = some .ended

structure Delivered (tr : Trace SystemEvent Output) (r : System) : Prop where
  slot : ∀ events, r.session.state.downloader.events = some events → r.downloads events ≠ none
  queued : ∀ events, ∀ c ∈ r.queue, c.events = some events → r.downloads events ≠ none
  fate : ∀ c effects events event, (c, effects) ∈ handledIn tr →
    Effect.event events event ∈ effects → Fate tr r events event

namespace Delivered

theorem quiet {t : System} (h : Delivered tr r) (hos : os.filterMap Output.handling = [])
    (hsession : t.session = r.session)
    (hqueue : t.queue = r.queue ∨ ∃ c, t.queue = r.queue ++ [c] ∧
      ∀ events, c.events = some events → t.downloads events ≠ none)
    (hdownloads : ∀ events, r.downloads events ≠ none → t.downloads events ≠ none)
    (hended : ∀ events, r.downloads events = some .ended → t.downloads events = some .ended)
    (hchannels : ∀ events event, event ∈ r.channels events → Output.took events event ∈ os ∨
      event ∈ t.channels events ∨ t.downloads events = some .ended) :
    Delivered (tr ++ [(e, os)]) t where
  slot events hslot := hdownloads events (h.slot events (by rwa [hsession] at hslot))
  queued events c hmem hc := by
    rcases hqueue with hq | ⟨d, hq, hd⟩
    · exact hdownloads events (h.queued events c (by rwa [hq] at hmem) hc)
    · rw [hq] at hmem
      rcases List.mem_append.mp hmem with hmem | hmem
      · exact hdownloads events (h.queued events c hmem hc)
      · obtain rfl := List.mem_singleton.mp hmem
        exact hd events hc
  fate c effects events event hmem heffect := by
    rw [handledIn_snoc, hos, List.append_nil] at hmem
    rw [Fate, outputs_snoc]
    rcases h.fate c effects events event hmem heffect with htook | hchannel | hover
    · exact .inl (List.mem_append_left _ htook)
    · rcases hchannels events event hchannel with htook | hchannel | hover
      · exact .inl (List.mem_append_right _ htook)
      · exact .inr (.inl hchannel)
      · exact .inr (.inr hover)
    · exact .inr (.inr (hended events hover))

theorem turn {rest queue : List Command} {session : Session} {effects : List Effect}
    (h : Delivered tr r) (hqueue : r.queue = c :: rest) (hsub : queue.Sublist rest)
    (hstep : r.session.step c = some (session, effects)) :
    Delivered (tr ++ [(e, [.handled c effects])]) (effects.foldl System.deliver
      { r with session := session, queue := queue }) := by
  obtain ⟨-, rfl, rfl⟩ := Session.step_eq_some.mp hstep
  have hknown : ∀ events, r.session.state.downloader.events = some events ∨
      c.events = some events → r.downloads events ≠ none := by
    rintro events (hslot | hc)
    · exact h.slot events hslot
    · exact h.queued events c (by simp [hqueue]) hc
  constructor
  · intro events hslot
    rw [System.deliverAll_session] at hslot
    rw [System.deliverAll_downloads]
    exact hknown events (handle_connected hslot)
  · intro events d hmem hd
    rw [System.deliverAll_queue] at hmem
    rw [System.deliverAll_downloads]
    exact h.queued events d (by simp [hqueue, hsub.subset hmem]) hd
  · intro d effects events event hmem heffect
    rw [handledIn_turn] at hmem
    rw [Fate, outputs_snoc, System.deliverAll_downloads]
    rcases List.mem_append.mp hmem with hmem | hmem
    · rcases h.fate d effects events event hmem heffect with htook | hchannel | hover
      · exact .inl (List.mem_append_left _ htook)
      · exact .inr (.inl (System.mem_deliverAll_channels (.inl hchannel)))
      · exact .inr (.inr hover)
    · obtain ⟨rfl, rfl⟩ := Prod.mk.inj (List.mem_singleton.mp hmem)
      obtain ⟨task, htask⟩ := Option.ne_none_iff_exists'.mp (hknown events (handle_event heffect))
      by_cases halive : task.alive = true
      · exact .inr (.inl (System.mem_deliverAll_channels (.inr ⟨by simp [htask, halive], heffect⟩)))
      · cases task with
        | ended => exact .inr (.inr htask)
        | starting reply => exact absurd rfl halive
        | streaming completed => exact absurd rfl halive

theorem frame {t : System} (h : Delivered tr r) (hos : os.filterMap Output.handling = [])
    (hsession : t.session = r.session)
    (hqueue : t.queue = r.queue ∨ ∃ c, t.queue = r.queue ++ [c] ∧ c.events = none)
    (hdownloads : t.downloads = r.downloads) (hchannels : t.channels = r.channels) :
    Delivered (tr ++ [(e, os)]) t := by
  refine h.quiet hos hsession ?_ (fun events => by rw [hdownloads]; exact id)
    (fun events => by rw [hdownloads]; exact id) fun events event hmem => by
      rw [hchannels]
      exact .inr (.inl hmem)
  rcases hqueue with hq | ⟨c, hq, hc⟩
  · exact .inl hq
  · exact .inr ⟨c, hq, by simp [hc]⟩

theorem send_queue {t : System} (hqueue : t.queue = r.queue) (hc : c.events = none) :
    (t.send c).queue = r.queue ∨ ∃ c', (t.send c).queue = r.queue ++ [c'] ∧ c'.events = none := by
  simp only [System.send, hqueue]
  split_ifs
  · exact .inr ⟨c, rfl, hc⟩
  · exact .inl rfl

theorem send {t : System} (h : Delivered tr r) (hos : os.filterMap Output.handling = [])
    (hsession : t.session = r.session) (hqueue : t.queue = r.queue) (hc : c.events = none)
    (hdownloads : t.downloads = r.downloads) (hchannels : t.channels = r.channels) :
    Delivered (tr ++ [(e, os)]) (t.send c) :=
  h.frame hos hsession (send_queue hqueue hc) hdownloads hchannels

theorem endDownload {t : System} (h : Delivered tr r) (hos : os.filterMap Output.handling = [])
    (hsession : t.session = r.session)
    (hqueue : t.queue = r.queue ∨ ∃ c, t.queue = r.queue ++ [c] ∧ c.events = none)
    (hdownloads : t.downloads = (r.setDownload token .ended).downloads)
    (hchannels : t.channels = (r.setChannel token []).channels) :
    Delivered (tr ++ [(e, os)]) t := by
  refine h.quiet hos hsession ?_ ?_ ?_ ?_
  · rcases hqueue with hq | ⟨c, hq, hc⟩
    · exact .inl hq
    · exact .inr ⟨c, hq, by simp [hc]⟩
  · intro events hne
    by_cases hsame : events = token
    · simp [hdownloads, System.setDownload, hsame]
    · simpa [hdownloads, System.setDownload, hsame] using hne
  · intro events hended
    by_cases hsame : events = token
    · simp [hdownloads, System.setDownload, hsame]
    · simpa [hdownloads, System.setDownload, hsame] using hended
  · intro events event hmem
    right
    by_cases hsame : events = token
    · simp [hdownloads, System.setDownload, hsame]
    · left
      simpa [hchannels, System.setChannel, hsame] using hmem

theorem dropDownload {completed : Bool} (h : Delivered tr r)
    (hos : os.filterMap Output.handling = []) :
    Delivered (tr ++ [(e, os)]) (r.dropDownload token completed) := by
  have hqueue : ((r.setDownload token .ended).setChannel token []).queue = r.queue := rfl
  have hc : (Command.disconnected token (.downloader completed)).events = none := rfl
  exact h.endDownload hos rfl (send_queue hqueue hc) rfl rfl

theorem setDownload {task task' : DownloadTask} {t : System} (h : Delivered tr r)
    (hos : os.filterMap Output.handling = []) (hsession : t.session = r.session)
    (hqueue : t.queue = r.queue) (hdownloads : t.downloads = r.downloads)
    (htask : r.downloads token = some task) (halive : task.alive = true)
    (hchannels : ∀ events event, event ∈ r.channels events → Output.took events event ∈ os ∨
      event ∈ t.channels events) :
    Delivered (tr ++ [(e, os)]) (t.setDownload token task') := by
  refine h.quiet hos hsession (.inl hqueue) ?_ ?_ fun events event hmem =>
    (hchannels events event hmem).imp_right .inl
  · intro events hne
    by_cases hsame : events = token
    · simp [System.setDownload, hsame]
    · simpa [System.setDownload, hsame, hdownloads] using hne
  · intro events hended
    have hsame : events ≠ token := by
      rintro rfl
      obtain rfl := Option.some.inj (htask.symm.trans hended)
      cases halive
    simpa [System.setDownload, hsame, hdownloads] using hended

theorem taken {event : DownloadEvent} {rest : List DownloadEvent}
    (hchannel : r.channels token = event :: rest) (events : Sender) (event' : DownloadEvent)
    (hmem : event' ∈ r.channels events) :
    Output.took events event' ∈ [Output.took token event] ∨
      event' ∈ (r.setChannel token rest).channels events := by
  by_cases hsame : events = token
  · subst hsame
    rw [hchannel] at hmem
    rcases List.mem_cons.mp hmem with rfl | hmem
    · exact .inl List.mem_cons_self
    · exact .inr (by simpa [System.setChannel] using hmem)
  · exact .inr (by simpa [System.setChannel, hsame] using hmem)

theorem download {position : Position} (h : Delivered tr r) (hfresh : r.Fresh) :
    Delivered (tr ++ [(e, [])]) (r.download position).1 := by
  have hnew : r.downloads r.fresh = none := hfresh.downloads _ (Nat.le_refl _)
  have hold : ∀ events, r.downloads events ≠ none →
      (r.download position).1.downloads events = r.downloads events := by
    intro events hne
    have hsame : events ≠ r.fresh := by
      rintro rfl
      exact hne hnew
    simp [System.download, System.send, System.setDownload, System.draw, hsame]
  refine h.quiet rfl rfl ?_ (fun events hne => by rwa [hold events hne]) ?_
    fun _ _ hmem => .inr (.inl hmem)
  · simp only [System.download, System.send]
    split_ifs
    · refine .inr ⟨_, rfl, fun events hevents => ?_⟩
      obtain rfl := Option.some.inj hevents
      simp [System.setDownload]
    · exact .inl rfl
  · intro events hended
    rw [hold events (by simp [hended])]
    exact hended

theorem change (h : Delivered tr r) (hfresh : r.Fresh) (hchange : Change r e r' os) :
    Delivered (tr ++ [(e, os)]) r' := by
  cases hchange with
  | turn hqueue hturn =>
    refine h.turn hqueue ?_ hturn
    split_ifs
    · exact List.Sublist.refl _
    · exact List.nil_sublist _
  | request hplain =>
    refine h.send rfl rfl rfl ?_ rfl rfl
    rcases hplain with rfl | rfl | ⟨position, rfl⟩ <;> rfl
  | download => exact h.download hfresh
  | downloadStarted htask hreply =>
    exact h.setDownload rfl rfl rfl rfl htask rfl fun _ _ hmem => .inr hmem
  | downloadRefused htask hreply hheld => exact h.endDownload rfl rfl (.inl rfl) rfl rfl
  | downloadMore htask hchannel =>
    exact h.quiet rfl rfl (.inl rfl) (fun _ hne => hne) (fun _ hended => hended)
      fun events event hmem => (taken hchannel events event hmem).imp_right .inl
  | downloadFinal htask hchannel =>
    exact h.setDownload rfl rfl rfl rfl htask rfl (taken hchannel)
  | downloadReplaced htask hchannel => exact h.dropDownload rfl
  | downloadEnded htask => exact h.dropDownload rfl
  | downloadCancelled htask => exact h.endDownload rfl rfl (.inl rfl) rfl rfl
  | upload => exact h.send rfl rfl rfl rfl rfl rfl
  | uploadFlushing htask hreply => exact h.send rfl rfl rfl rfl rfl rfl
  | uploadEmpty htask => exact h.send rfl rfl rfl rfl rfl rfl
  | uploadMore htask => exact h.send rfl rfl rfl rfl rfl rfl
  | uploadFinal htask => exact h.send rfl rfl rfl rfl rfl rfl
  | uploadResponded htask halive houtcome => exact h.send rfl rfl rfl rfl rfl rfl
  | uploadCancelled htask halive => exact h.send rfl rfl rfl rfl rfl rfl
  | websocket => exact h.send rfl rfl rfl rfl rfl rfl
  | websocketFrame htask => exact h.send rfl rfl rfl rfl rfl rfl
  | websocketEnded htask => exact h.send rfl rfl rfl rfl rfl rfl
  | _ => exact h.frame rfl rfl (.inl rfl) rfl rfl

theorem of_run (hrun : (relaySystem metadata).Run tr r) : Delivered tr r := by
  have hstart : Delivered [] (System.spawn metadata) :=
    ⟨nofun, nofun, by simp [handledIn]⟩
  refine hrun.history (P := fun tr r => Delivered tr r) hstart ?_
  intro tr r e r' os hpath h _ hstep
  exact h.change (System.Fresh.of_run hpath) (System.step_change hstep)

end Delivered

def MarkedFinished (tr : Trace SystemEvent Output) : Prop :=
  ∃ reply effects, (Command.finishDownload reply, effects) ∈ handledIn tr

def FinalSent (tr : Trace SystemEvent Output) (token : Token) (data : Bytes) (events : Sender) :
    Prop :=
  ∃ reply call c effects, (Command.uploadData token (.final data) reply, call) ∈ handledIn tr ∧
    (c, effects) ∈ handledIn tr ∧ replyUpload reply (.ok ()) ∈ effects ∧
      Effect.event events (.final data) ∈ effects

theorem MarkedFinished.snoc (h : MarkedFinished tr) : MarkedFinished (tr ++ [(e, os)]) := by
  obtain ⟨reply, effects, hmem⟩ := h
  exact ⟨reply, effects, by simp [hmem]⟩

theorem FinalSent.snoc {data : Bytes} {events : Sender} (h : FinalSent tr token data events) :
    FinalSent (tr ++ [(e, os)]) token data events := by
  obtain ⟨reply, call, c, effects, hcall, hmem, hrest⟩ := h
  exact ⟨reply, call, c, effects, by simp [hcall], by simp [hmem], hrest⟩

theorem answered_of_run (hrun : (relaySystem metadata).Run tr r) : Answered (handledIn tr) :=
  .of_run (handledIn_run hrun) (List.nodup_append.mp (Named.of_run hrun).nodup).1

theorem accepted_finalSent (hrun : (relaySystem metadata).Run tr r) {reply : Waiter}
    (htask : r.uploads token = some (.sending none reply))
    (hreply : r.replies reply = some (.upload (.ok ()))) :
    ∃ data events, FinalSent tr token data events := by
  have hanswered := answered_of_run hrun
  obtain ⟨c, effects, hmem, heffect⟩ := replies_handled hrun hreply
  obtain ⟨-, chunk, hlast, hcall⟩ := Sending.of_run hrun token none reply htask
  obtain ⟨data, rfl⟩ := hlast rfl
  obtain ⟨d, call, hd, hwaiter⟩ := mem_waiters.mp (hanswered.issued _ _ _ _ hmem heffect)
  obtain rfl := hcall d (.inl ⟨call, hd⟩) hwaiter
  obtain ⟨events, hevent⟩ := hanswered.sent _ _ _ _ _ _ hmem heffect hd
  exact ⟨data, events, reply, call, c, effects, hd, hmem, heffect, hevent⟩

theorem uploadError_eq_ok {error : UploadError} (h : uploadError error = .ok) :
    error = .finished := by
  cases error <;> simp [uploadError] at h ⊢

theorem UploadOutcome.of_ok {task : UploadTask} (h : UploadOutcome r task .ok) :
    (∃ reply, task = .sending none reply ∧ r.replies reply = some (.upload (.ok ()))) ∨
      ∃ reply, r.replies reply = some (.upload (.error .finished)) := by
  generalize hresponse : Response.ok = response at h
  cases h with
  | done hreply => exact .inl ⟨_, rfl, hreply⟩
  | refused hawaits hreply =>
    rw [uploadError_eq_ok hresponse.symm] at hreply
    exact .inr ⟨_, hreply⟩
  | lost => cases hresponse
  | unread => cases hresponse

theorem responded_ok (hrun : (relaySystem metadata).Run tr r)
    (hok : Output.responded token .ok ∈ outputs tr) :
    MarkedFinished tr ∨ ∃ data events, FinalSent tr token data events := by
  revert hok
  refine hrun.history (P := fun tr _ => Output.responded token .ok ∈ outputs tr →
    MarkedFinished tr ∨ ∃ data events, FinalSent tr token data events) (by simp [outputs]) ?_
  intro tr r e r' os hpath h _ hstep hok
  have hnow : MarkedFinished tr ∨ (∃ data events, FinalSent tr token data events) →
      MarkedFinished (tr ++ [(e, os)]) ∨
        ∃ data events, FinalSent (tr ++ [(e, os)]) token data events := by
    rintro (hfinished | ⟨data, events, hsent⟩)
    · exact .inl hfinished.snoc
    · exact .inr ⟨data, events, hsent.snoc⟩
  rw [outputs_snoc, List.mem_append] at hok
  rcases hok with hok | hok
  · exact hnow (h hok)
  · refine hnow ?_
    cases System.step_change hstep with
    | uploadResponded htask halive houtcome =>
      simp only [List.mem_singleton, Output.responded.injEq] at hok
      obtain ⟨rfl, rfl⟩ := hok
      rcases houtcome.of_ok with ⟨reply, rfl, hreply⟩ | ⟨reply, hreply⟩
      · exact .inr (accepted_finalSent hpath htask hreply)
      · obtain ⟨c, effects, hmem, heffect⟩ := replies_handled hpath hreply
        exact .inl ((answered_of_run hpath).finished c effects reply hmem heffect)
    | _ => simp at hok

/-- An upload is answered `ok` when the download was marked finished, or when the step that
accepted its last chunk sent that chunk on the channel of a download, whose response has
taken it, still has it in its channel, or is over. -/
theorem upload_ok_was_sent (hrun : (relaySystem metadata).Run tr r)
    (hok : Output.responded token .ok ∈ outputs tr) :
    MarkedFinished tr ∨
      ∃ data events, FinalSent tr token data events ∧ Fate tr r events (.final data) := by
  rcases responded_ok hrun hok with hfinished | ⟨data, events, hsent⟩
  · exact .inl hfinished
  · obtain ⟨_, _, c, effects, _, hmem, _, hevent⟩ := id hsent
    exact .inr ⟨data, events, hsent, (Delivered.of_run hrun).fate c effects _ _ hmem hevent⟩

def chunkTaken : List SystemEvent :=
  [.upload 0, .turn, .uploadResume 0, .turn, .uploadResume 0, .uploadBody 0 (.chunk [1, 2]),
    .uploadBody 0 .eof, .turn, .download 0, .turn, .uploadResume 0, .downloadResume 5,
    .downloadPoll 5]

theorem upload_ok_was_sent_taken : ∃ tr r,
    (relaySystem "").exec (System.spawn "") chunkTaken = some (tr, r) ∧
      Output.took 5 (.final ⟨3, [1, 2]⟩) ∈ outputs tr ∧
      (MarkedFinished tr ∨
        ∃ data events, FinalSent tr 0 data events ∧ Fate tr r events (.final data)) := by
  have hexec : (relaySystem "").exec (System.spawn "") chunkTaken = some (_, _) := rfl
  exact ⟨_, _, hexec, List.mem_of_getElem? (i := 5) rfl,
    upload_ok_was_sent (EventMachine.exec_run _ hexec) (List.mem_of_getElem? (i := 4) rfl)⟩

def Output.tookFinal : Output → Bool
  | .took _ (.final _) => true
  | _ => false

def Command.finishes : Command → Bool
  | .finishDownload _ => true
  | _ => false

def chunkDropped : List SystemEvent :=
  [.upload 0, .turn, .uploadResume 0, .turn, .uploadResume 0, .uploadBody 0 (.chunk [1, 2]),
    .uploadBody 0 .eof, .turn, .download 0, .turn, .uploadResume 0, .downloadResume 5,
    .downloadDrop 5]

theorem upload_ok_undelivered : ∃ tr r,
    (relaySystem "").exec (System.spawn "") chunkDropped = some (tr, r) ∧
      Output.responded 0 .ok ∈ outputs tr ∧ r.channels 5 = [] ∧ ¬ MarkedFinished tr ∧
      ∀ token data, Output.took token (.final data) ∉ outputs tr := by
  obtain ⟨tr, r, hexec, hok, hchannel, hfinish, htook⟩ : ∃ tr r,
      (relaySystem "").exec (System.spawn "") chunkDropped = some (tr, r) ∧
        Output.responded 0 .ok ∈ outputs tr ∧ r.channels 5 = [] ∧
        (handledIn tr).any (fun x => x.1.finishes) = false ∧
        (outputs tr).any Output.tookFinal = false :=
    ⟨_, _, rfl, List.mem_of_getElem? (i := 4) rfl, rfl, rfl, rfl⟩
  refine ⟨tr, r, hexec, hok, hchannel, ?_, fun token data hmem => ?_⟩
  · rintro ⟨reply, effects, hmem⟩
    exact List.any_eq_false.mp hfinish _ hmem rfl
  · exact List.any_eq_false.mp htook _ hmem rfl

end Glopfile.Relay
