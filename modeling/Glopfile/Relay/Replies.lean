import Glopfile.Relay.Commands
import Mathlib.Data.List.Pairwise

/-!
# Who is answered, and with what

A caller waits on the reply channel its command carries. In a run where every command
carries a channel of its own, `Ok` comes back to an `upload_data` call only in the step that
sends its chunk to a downloader, and `Finished` comes back to anybody only after the
download was marked finished.
-/

namespace Glopfile.Relay

open EventMachine (Trace)

variable {metadata : String} {session : Session} {tr : Trace Command Effect} {s : State}
  {c d : Command} {os os' : List Effect} {waiter : Waiter} {chunk : Chunk} {token : Token}

def waiters (tr : Trace Command Effect) : List Waiter := tr.filterMap fun x => x.1.waiter

theorem mem_waiters : waiter ∈ waiters tr ↔ ∃ c os, (c, os) ∈ tr ∧ c.waiter = some waiter := by
  simp [waiters]

theorem filterMap_unique {α β : Type} {f : α → Option β} {l : List α} {a b : α} {x : β}
    (hnodup : (l.filterMap f).Nodup) (ha : a ∈ l) (hb : b ∈ l) (hfa : f a = some x)
    (hfb : f b = some x) : a = b := by
  by_contra hne
  have hpair := List.pairwise_filterMap.mp hnodup
  have hsymm : Std.Symm fun a b : α => ∀ x, f a = some x → ∀ y, f b = some y → x ≠ y :=
    ⟨fun a b h x hx y hy heq => h y hy x hx heq.symm⟩
  exact hpair.forall ha hb hne x hfa x hfb rfl

theorem waiter_unique (hnodup : (waiters tr).Nodup) (hc : (c, os) ∈ tr) (hd : (d, os') ∈ tr)
    (hcw : c.waiter = some waiter) (hdw : d.waiter = some waiter) : c = d :=
  congrArg Prod.fst (filterMap_unique hnodup hc hd hcw hdw)

@[simp] theorem mem_replyTo {o : Effect} {held : Option Waiter} {result : UploadResult} :
    o ∈ replyTo held result ↔ ∃ w, held = some w ∧ o = replyUpload w result := by
  cases held <;> simp [replyTo]

@[simp] theorem reply_mem_sendUploadProgress {reply : Reply} {ws : Option WebsocketPeer}
    {position : Position} : Effect.reply waiter reply ∉ sendUploadProgress ws position := by
  cases ws <;> simp [sendUploadProgress]

@[simp] theorem event_mem_sendUploadProgress {events : Sender} {event : DownloadEvent}
    {ws : Option WebsocketPeer} {position : Position} :
    Effect.event events event ∉ sendUploadProgress ws position := by
  cases ws <;> simp [sendUploadProgress]

@[simp] theorem event_mem_replyTo {events : Sender} {event : DownloadEvent}
    {held : Option Waiter} {result : UploadResult} :
    Effect.event events event ∉ replyTo held result := by
  simp [replyUpload]

theorem event_mem_replaceDownloader {events : Sender} {event : DownloadEvent}
    (h : Effect.event events event ∈ s.replaceDownloader) : s.downloader.events = some events := by
  unfold State.replaceDownloader at h
  cases hd : s.downloader <;> simp_all [DownloaderSlot.events]

@[simp] theorem reply_mem_replaceDownloader {reply : Reply} :
    Effect.reply waiter reply ∉ s.replaceDownloader := by
  unfold State.replaceDownloader
  cases s.downloader <;> simp

theorem handle_event {events : Sender} {event : DownloadEvent}
    (h : Effect.event events event ∈ (s.handle c).effects) :
    s.downloader.events = some events ∨ c.events = some events := by
  have hc := s.handled c
  generalize s.handle c = o at hc h
  cases hc with
  | answered => cases List.mem_singleton.mp h
  | released =>
    simp only [List.mem_append, List.mem_cons, event_mem_sendUploadProgress, event_mem_replyTo,
      reduceCtorEq, List.not_mem_nil, or_false, Effect.event.injEq] at h
    rcases h with h | ⟨rfl, -⟩
    · exact .inl (event_mem_replaceDownloader h)
    · exact .inr rfl
  | downloads | finishTold | finishIdle | finishHeld =>
    simp only [List.mem_append, event_mem_replyTo, List.mem_singleton, reduceCtorEq, or_false] at h
    exact .inl (event_mem_replaceDownloader h)
  | startRefused | starts =>
    obtain ⟨held, hheld⟩ := s.evictUploader_effects
    simp [hheld, replyUpload] at h
  | relays hu hp hd =>
    simp only [List.mem_cons, List.mem_append, event_mem_sendUploadProgress, replyUpload,
      reduceCtorEq, List.not_mem_nil, or_false, Effect.event.injEq] at h
    left
    rw [h.1, hd]
    rfl
  | signals hsame hos => exact absurd h hos.event
  | holds | flushes | downloaderLeft | uploaderLeft | uploaderDone | ignored => cases h

theorem handle_connected {events : Sender}
    (h : (s.handle c).state.downloader.events = some events) :
    s.downloader.events = some events ∨ c.events = some events := by
  have hc := s.handled c
  generalize s.handle c = o at hc h
  cases hc with
  | answered | holds | flushes | uploaderLeft | uploaderDone | ignored => exact .inl h
  | released | downloads => exact .inr h
  | finishTold | finishIdle | finishHeld => cases h
  | startRefused | starts =>
    rw [State.evictUploader_downloader] at h
    exact .inl h
  | relays hu hp hd =>
    left
    rw [hd]
    exact h
  | signals hsame => exact .inl (hsame.1 ▸ h)
  | @downloaderLeft token completed => cases completed <;> cases h

inductive Answers (s : State) (c : Command) (waiter : Waiter) : Reply → Prop
  | called {reply : Reply} (hwaiter : c.waiter = some waiter)
      (hok : ∀ token chunk, c = .uploadData token chunk waiter → reply ≠ .upload (.ok ()))
      (hfinished : reply = .upload (.error .finished) → s.pending = .error .finished) :
      Answers s c waiter reply
  | relayed {token : Token} {chunk : Chunk} {events : Sender}
      (hcall : c = .uploadData token chunk waiter)
      (hsent : Effect.event events chunk.intoEvent ∈ (s.handle c).effects) :
      Answers s c waiter (.upload (.ok ()))
  | released {chunk : Chunk} {position : Position} {size : ℕ} {events : Sender}
      (hpending : s.pending = .data chunk (some waiter) position size)
      (hsent : Effect.event events chunk.intoEvent ∈ (s.handle c).effects) :
      Answers s c waiter (.upload (.ok ()))
  | discarded {chunk : Chunk} {position : Position} {size : ℕ} {error : UploadError}
      (hpending : s.pending = .data chunk (some waiter) position size)
      (hfinished : error = .finished → ∃ reply, c = .finishDownload reply) :
      Answers s c waiter (.upload (.error error))

theorem evictUploader_replies {o : Effect} (h : o ∈ s.evictUploader.2) :
    ∃ chunk waiter position size, s.pending = .data chunk (some waiter) position size ∧
      o = replyUpload waiter (.error .connectionReplaced) := by
  unfold State.evictUploader State.terminateUploader at h
  cases hu : s.uploader with
  | none => simp [hu] at h
  | some u =>
    cases hp : s.pending with
    | data chunk held position size =>
      simp only [hu, hp, mem_replyTo] at h
      obtain ⟨waiter, rfl, rfl⟩ := h
      exact ⟨chunk, waiter, position, size, rfl, rfl⟩
    | none => simp [hu, hp] at h
    | error error => simp [hu, hp] at h

theorem checkStartPosition_error {position : Position} {error : UploadError}
    (h : s.checkStartPosition position = .error error) : ∃ expected, error = .position expected := by
  have hqueued (h : State.checkStartPosition.checkPending s position = .error error) :
      ∃ expected, error = .position expected := by
    unfold State.checkStartPosition.checkPending at h
    split at h
    · dsimp only at h
      split_ifs at h
      exact ⟨_, (Except.error.inj h).symm⟩
    · cases h
  unfold State.checkStartPosition at h
  split at h
  · split_ifs at h
    · exact ⟨_, (Except.error.inj h).symm⟩
    · exact hqueued h
  · exact hqueued h

theorem checkStartPosition_ne_finished {position : Position} :
    s.checkStartPosition position ≠ .error .finished := by
  intro h
  obtain ⟨expected, hposition⟩ := checkStartPosition_error h
  cases hposition

theorem Pending.eq_data_of_waiter {pending : Pending} (h : pending.waiter = some waiter) :
    ∃ chunk position size, pending = .data chunk (some waiter) position size := by
  cases pending with
  | none => cases h
  | error error => cases h
  | data chunk held position size =>
    obtain rfl : held = some waiter := h
    exact ⟨chunk, position, size, rfl⟩

theorem Answer.called {reply : Reply} (h : Answer s c waiter reply) : Answers s c waiter reply := by
  refine .called h.waiter (fun token chunk hc hok => ?_) fun hfinished => ?_
  · subst hc
    cases h <;> cases hok
  · cases h with
    | checked => exact absurd (Reply.upload.inj hfinished) checkStartPosition_ne_finished
    | queued _ _ hp =>
      cases hfinished
      exact hp
    | _ => cases hfinished

theorem Answers.done (h : c.waiter = some waiter) : Answers s c waiter .done :=
  .called h (by simp) (by simp)

theorem evictUploader_discarded {reply : Reply}
    (h : Effect.reply waiter reply ∈ s.evictUploader.2) : Answers s c waiter reply := by
  obtain ⟨chunk, w, position, size, hp, ho⟩ := evictUploader_replies h
  obtain ⟨rfl, rfl⟩ := Effect.reply.inj ho
  exact .discarded hp (by simp)

theorem handle_reply {reply : Reply} (h : Effect.reply waiter reply ∈ (s.handle c).effects) :
    Answers s c waiter reply := by
  have hc := s.handled c
  generalize ho : s.handle c = o at hc h
  cases hc with
  | answered hanswer =>
    obtain ⟨rfl, rfl⟩ := Effect.reply.inj (List.mem_singleton.mp h)
    exact hanswer.called
  | @released downloader w chunk held size pending hp =>
    simp only [List.mem_append, List.mem_cons, reply_mem_replaceDownloader,
      reply_mem_sendUploadProgress, mem_replyTo, replyUpload, reduceCtorEq, List.not_mem_nil,
      false_or, or_false, Effect.reply.injEq] at h
    rcases h with ⟨_, rfl, rfl, rfl⟩ | ⟨rfl, rfl⟩
    · have hsent : Effect.event downloader.events chunk.intoEvent ∈
          (s.handle (.startDownload downloader w)).effects := by simp [ho]
      exact .released hp hsent
    · exact .done rfl
  | downloads =>
    simp only [List.mem_append, reply_mem_replaceDownloader, mem_replyTo, replyUpload,
      List.mem_singleton, false_or, Effect.reply.injEq] at h
    rcases h with ⟨w, hw, rfl, rfl⟩ | ⟨rfl, rfl⟩
    · obtain ⟨chunk, position, size, hp⟩ := Pending.eq_data_of_waiter hw
      exact .discarded hp (by simp)
    · exact .done rfl
  | finishTold | finishIdle =>
    simp only [List.mem_append, reply_mem_replaceDownloader, List.mem_singleton, false_or,
      Effect.reply.injEq] at h
    obtain ⟨rfl, rfl⟩ := h
    exact .done rfl
  | @finishHeld w uploader chunk held position size hu hp =>
    simp only [List.mem_append, reply_mem_replaceDownloader, mem_replyTo, replyUpload,
      List.mem_singleton, false_or, Effect.reply.injEq] at h
    rcases h with ⟨_, rfl, rfl, rfl⟩ | ⟨rfl, rfl⟩
    · exact .discarded hp fun _ => ⟨w, rfl⟩
    · exact .done rfl
  | startRefused hcheck =>
    rcases List.mem_append.mp h with h | h
    · exact evictUploader_discarded h
    · obtain ⟨rfl, rfl⟩ := Effect.reply.inj (List.mem_singleton.mp h)
      refine .called rfl (by simp) fun hfinished => ?_
      rw [Reply.upload.inj hfinished] at hcheck
      exact absurd hcheck checkStartPosition_ne_finished
  | starts =>
    simp only [List.mem_append, reply_mem_sendUploadProgress, or_false, List.mem_singleton] at h
    rcases h with h | h
    · exact evictUploader_discarded h
    · obtain ⟨rfl, rfl⟩ := Effect.reply.inj h
      exact .called rfl (by simp) (by simp)
  | @relays token position chunk w downloader =>
    simp only [List.mem_cons, List.mem_append, reply_mem_sendUploadProgress, replyUpload,
      reduceCtorEq, List.not_mem_nil, false_or, or_false, Effect.reply.injEq] at h
    obtain ⟨rfl, rfl⟩ := h
    have hsent : Effect.event downloader.events chunk.intoEvent ∈
        (s.handle (.uploadData token chunk waiter)).effects := by simp [ho]
    exact .relayed rfl hsent
  | signals _ hos =>
    obtain ⟨hw, rfl⟩ := hos.reply h
    exact .done hw
  | holds | flushes | downloaderLeft | uploaderLeft | uploaderDone | ignored => cases h

inductive Pends (s : State) (c : Command) (chunk : Chunk) : Option Waiter → Position → ℕ → Prop
  | sent {token : Token} {waiter : Waiter} {position : Position}
      (hc : c = .uploadData token chunk waiter) (hu : s.uploader = some ⟨token, position⟩)
      (hp : s.pending = .none) : Pends s c chunk (some waiter) position chunk.len
  | flushed {token : Token} {waiter : Waiter} {before : Option Waiter} {position : Position}
      {size : ℕ} (hc : c = .flushUpload token waiter) (hu : s.uploaderToken = some token)
      (hp : s.pending = .data chunk before position size) :
      Pends s c chunk (some waiter) position size
  | kept {reply : Option Waiter} {position : Position} {size : ℕ}
      (hp : s.pending = .data chunk reply position size) : Pends s c chunk reply position size
  | answered {before : Option Waiter} {position : Position} {size : ℕ}
      (hp : s.pending = .data chunk before position size) : Pends s c chunk none position size

theorem evictUploader_pends {reply : Option Waiter} {position : Position} {size : ℕ}
    (h : s.evictUploader.1.pending = .data chunk reply position size) :
    Pends s c chunk reply position size := by
  unfold State.evictUploader State.terminateUploader at h
  cases hu : s.uploader with
  | none => exact .kept (by simpa [hu] using h)
  | some uploader =>
    cases hp : s.pending with
    | data held before start len =>
      simp only [hu, hp, Pending.data.injEq] at h
      obtain ⟨rfl, rfl, rfl, rfl⟩ := h
      exact .answered hp
    | none => simp [hu, hp] at h
    | error error => simp [hu, hp] at h

theorem handle_pending_data {reply : Option Waiter} {position : Position} {size : ℕ}
    (h : (s.handle c).state.pending = .data chunk reply position size) :
    Pends s c chunk reply position size := by
  have hc := s.handled c
  generalize s.handle c = o at hc h
  cases hc with
  | answered | finishIdle | relays | downloaderLeft | uploaderDone | ignored => exact .kept h
  | released _ hsettles | downloads _ hsettles =>
    cases hsettles with
    | none | resume => cases h
  | finishTold => cases h
  | finishHeld hu hp =>
    obtain ⟨rfl, rfl, rfl, rfl⟩ := Pending.data.inj h
    exact .answered hp
  | startRefused => exact evictUploader_pends h
  | starts => exact evictUploader_pends (Pending.eq_data_of_clearError h)
  | holds hu hp =>
    obtain ⟨rfl, rfl, rfl, rfl⟩ := Pending.data.inj h
    exact .sent rfl hu hp
  | flushes hu hp =>
    obtain ⟨rfl, rfl, rfl, rfl⟩ := Pending.data.inj h
    exact .flushed rfl hu hp
  | signals hsame => exact .kept (hsame.2.2 ▸ h)
  | uploaderLeft => exact .kept (Pending.eq_data_of_clearError h)

theorem handle_pending_waiter {position : Position} {size : ℕ}
    (h : (s.handle c).state.pending = .data chunk (some waiter) position size) :
    (∃ token, c = .uploadData token chunk waiter) ∨ (∃ token, c = .flushUpload token waiter) ∨
      s.pending = .data chunk (some waiter) position size := by
  cases handle_pending_data h with
  | sent hc _ _ => exact .inl ⟨_, hc⟩
  | flushed hc _ _ => exact .inr (.inl ⟨_, hc⟩)
  | kept hp => exact .inr (.inr hp)

inductive Raises (c : Command) : UploadError → Prop
  | finished {reply : Waiter} : c = .finishDownload reply → Raises c .finished
  | replaced : Raises c .connectionReplaced
  | position {position : Position} : Raises c (.position position)

theorem evictUploader_error {error : UploadError}
    (h : s.evictUploader.1.pending = .error error) :
    s.pending = .error error ∨ error = .connectionReplaced := by
  unfold State.evictUploader State.terminateUploader at h
  cases hu : s.uploader with
  | none => exact .inl (by simpa [hu] using h)
  | some uploader =>
    cases hp : s.pending with
    | data chunk waiter position size => simp [hu, hp] at h
    | none => exact .inr (by simpa [hu, hp] using h.symm)
    | error queued => exact .inr (by simpa [hu, hp] using h.symm)

theorem handle_pending_error {error : UploadError}
    (h : (s.handle c).state.pending = .error error) : s.pending = .error error ∨ Raises c error := by
  have hc := s.handled c
  generalize s.handle c = o at hc h
  cases hc with
  | answered | finishIdle | relays | downloaderLeft | uploaderDone | ignored => exact .inl h
  | released _ hsettles | downloads _ hsettles =>
    cases hsettles with
    | none => cases h
    | resume =>
      cases h
      exact .inr .position
  | finishTold =>
    cases h
    exact .inr (.finished rfl)
  | startRefused =>
    rcases evictUploader_error h with hp | rfl
    · exact .inl hp
    · exact .inr .replaced
  | starts | uploaderLeft => exact absurd h Pending.clearError_ne_error
  | finishHeld | holds | flushes => cases h
  | signals hsame => exact .inl (hsame.2.2 ▸ h)

structure Callers (tr : Trace Command Effect) (s : State) : Prop where
  waiting : ∀ chunk waiter position size, s.pending = .data chunk (some waiter) position size →
    ∃ c os token, (c, os) ∈ tr ∧
      (c = .uploadData token chunk waiter ∨ c = .flushUpload token waiter)
  finished : s.pending = .error .finished → ∃ reply os, (Command.finishDownload reply, os) ∈ tr

theorem Callers.handle (h : Callers tr s) :
    Callers (tr ++ [(c, os)]) (s.handle c).state where
  waiting chunk waiter position size hp := by
    rcases handle_pending_waiter hp with ⟨token, rfl⟩ | ⟨token, rfl⟩ | hp
    · exact ⟨_, os, token, by simp, .inl rfl⟩
    · exact ⟨_, os, token, by simp, .inr rfl⟩
    · obtain ⟨d, os', token, hmem, hd⟩ := h.waiting _ _ _ _ hp
      exact ⟨d, os', token, by simp [hmem], hd⟩
  finished hp := by
    rcases handle_pending_error hp with hp | @⟨reply, rfl⟩
    · obtain ⟨reply, os', hmem⟩ := h.finished hp
      exact ⟨reply, os', by simp [hmem]⟩
    · exact ⟨reply, os, by simp⟩

theorem Callers.of_run (hrun : (sessionTask metadata).Run tr session) :
    Callers tr session.state := by
  refine hrun.history (P := fun tr session => Callers tr session.state)
    ⟨by simp [sessionTask, Session.spawn], by simp [sessionTask, Session.spawn]⟩ ?_
  intro tr session c next os _ h _ hstep
  obtain ⟨_, rfl, _⟩ := Session.step_eq_some.mp hstep
  exact h.handle

structure Answered (tr : Trace Command Effect) : Prop where
  issued : ∀ c os waiter reply, (c, os) ∈ tr → Effect.reply waiter reply ∈ os →
    waiter ∈ waiters tr
  sent : ∀ c os waiter token chunk os', (c, os) ∈ tr → replyUpload waiter (.ok ()) ∈ os →
    (Command.uploadData token chunk waiter, os') ∈ tr →
      ∃ events, Effect.event events chunk.intoEvent ∈ os
  finished : ∀ c os waiter, (c, os) ∈ tr → replyUpload waiter (.error .finished) ∈ os →
    ∃ reply os', (Command.finishDownload reply, os') ∈ tr

theorem Answered.handle (h : Answered tr) (hcallers : Callers tr s)
    (hnodup : (waiters (tr ++ [(c, (s.handle c).effects)])).Nodup) :
    Answered (tr ++ [(c, (s.handle c).effects)]) := by
  have hlast : (c, (s.handle c).effects) ∈ tr ++ [(c, (s.handle c).effects)] := by simp
  have hwaiting : ∀ {chunk waiter position size},
      s.pending = .data chunk (some waiter) position size → waiter ∈ waiters tr := by
    intro chunk waiter position size hp
    obtain ⟨d, os, token, hmem, hd⟩ := hcallers.waiting _ _ _ _ hp
    exact mem_waiters.mpr ⟨d, os, hmem, by rcases hd with rfl | rfl <;> rfl⟩
  have hgrow : ∀ {waiter}, waiter ∈ waiters tr →
      waiter ∈ waiters (tr ++ [(c, (s.handle c).effects)]) := by
    intro waiter hmem
    obtain ⟨d, os, hmem, hd⟩ := mem_waiters.mp hmem
    exact mem_waiters.mpr ⟨d, os, by simp [hmem], hd⟩
  constructor
  · intro d os waiter reply hmem hreply
    rcases List.mem_append.mp hmem with hmem | hmem
    · exact hgrow (h.issued d os waiter reply hmem hreply)
    · obtain ⟨rfl, rfl⟩ := Prod.mk.inj (List.mem_singleton.mp hmem)
      cases handle_reply hreply with
      | called hwaiter _ _ => exact mem_waiters.mpr ⟨_, _, hlast, hwaiter⟩
      | relayed hcall _ => exact mem_waiters.mpr ⟨_, _, hlast, by rw [hcall]; rfl⟩
      | released hpending _ => exact hgrow (hwaiting hpending)
      | discarded hpending _ => exact hgrow (hwaiting hpending)
  · intro d os waiter token chunk os' hmem hreply hcall
    rcases List.mem_append.mp hmem with hearlier | hmem
    · -- An earlier step answered this caller, so the call is earlier too.
      rcases List.mem_append.mp hcall with hcall' | hcall'
      · exact h.sent d os waiter token chunk os' hearlier hreply hcall'
      · obtain ⟨rfl, rfl⟩ := Prod.mk.inj (List.mem_singleton.mp hcall')
        obtain ⟨d', os', hmem', hd'⟩ := mem_waiters.mp (h.issued _ _ _ _ hearlier hreply)
        obtain rfl := waiter_unique hnodup (List.mem_append_left _ hmem') hcall hd' rfl
        exfalso
        have hdup : (waiters tr ++ [waiter]).Nodup := by
          simpa [waiters, Command.waiter] using hnodup
        exact (List.nodup_append.mp hdup).2.2 waiter (mem_waiters.mpr ⟨_, _, hmem', rfl⟩)
          waiter (by simp) rfl
    · obtain ⟨rfl, rfl⟩ := Prod.mk.inj (List.mem_singleton.mp hmem)
      cases handle_reply hreply with
      | called hwaiter hok _ =>
        obtain rfl := waiter_unique hnodup hlast hcall hwaiter rfl
        exact absurd rfl (hok token chunk rfl)
      | relayed hcall' hsent =>
        have heq := waiter_unique hnodup hlast hcall (by rw [hcall']; rfl) rfl
        rw [hcall'] at heq
        obtain ⟨rfl, rfl, -⟩ := Command.uploadData.inj heq
        exact ⟨_, hsent⟩
      | released hpending hsent =>
        obtain ⟨d', os'', token', hmem', hd'⟩ := hcallers.waiting _ _ _ _ hpending
        have heq : d' = .uploadData token chunk waiter :=
          waiter_unique hnodup (List.mem_append_left _ hmem') hcall
            (by rcases hd' with rfl | rfl <;> rfl) rfl
        rcases hd' with rfl | rfl
        · obtain ⟨rfl, rfl, -⟩ := Command.uploadData.inj heq
          exact ⟨_, hsent⟩
        · cases heq
  · intro d os waiter hmem hreply
    rcases List.mem_append.mp hmem with hmem | hmem
    · obtain ⟨reply, os', hmem'⟩ := h.finished d os waiter hmem hreply
      exact ⟨reply, os', by simp [hmem']⟩
    · obtain ⟨rfl, rfl⟩ := Prod.mk.inj (List.mem_singleton.mp hmem)
      cases handle_reply hreply with
      | called _ _ hfinished =>
        obtain ⟨reply, os', hmem'⟩ := hcallers.finished (hfinished rfl)
        exact ⟨reply, os', by simp [hmem']⟩
      | discarded _ hfinished =>
        obtain ⟨reply, rfl⟩ := hfinished rfl
        exact ⟨reply, _, hlast⟩

theorem Answered.of_run (hrun : (sessionTask metadata).Run tr session)
    (hnodup : (waiters tr).Nodup) : Answered tr := by
  refine hrun.history (P := fun tr _ => (waiters tr).Nodup → Answered tr)
    (fun _ => ⟨by simp, by simp, by simp⟩) ?_ hnodup
  intro tr session c next os hpath h _ hstep hnodup
  obtain ⟨_, _, rfl⟩ := Session.step_eq_some.mp hstep
  refine (h ?_).handle (Callers.of_run hpath) hnodup
  rw [waiters, List.filterMap_append] at hnodup
  exact (List.nodup_append.mp hnodup).1

end Glopfile.Relay
