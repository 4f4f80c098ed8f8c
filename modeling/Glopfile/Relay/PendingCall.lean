import Glopfile.Relay.Connections
import Glopfile.Relay.Uploads

/-!
# The pending call

A command that carries a reply sender is answered in the turn that handles it, or waits in
the pending slot. The sender there belongs to the current uploader, or to a handler that has
gone: it is overwritten only by a flush of the current uploader.
-/

namespace Glopfile.Relay

variable {token : Token} {waiter : Waiter} {s : State} {c : Command} {task : UploadTask}

def UploadTask.Asks : UploadTask → Command → Prop
  | task, .startUpload _ _ reply => task = .starting reply
  | task, .flushUpload _ reply => task = .flushing reply
  | task, .uploadData _ _ reply => ∃ next, task = .sending next reply
  | _, _ => False

def State.Holding (s : State) : Prop :=
  ∃ chunk waiter position size, s.pending = .data chunk waiter position size

theorem caller_waiter (h : c.caller = some (token, waiter)) : c.waiter = some waiter := by
  cases c <;> simp_all [Command.caller, Command.waiter]

theorem Asks.awaits (h : task.Asks c) (hc : c.waiter = some waiter) :
    task.awaits = some waiter := by
  cases c with
  | startUpload token position reply =>
    obtain rfl : task = .starting reply := h
    exact hc
  | flushUpload token reply =>
    obtain rfl : task = .flushing reply := h
    exact hc
  | uploadData token chunk reply =>
    obtain ⟨next, rfl⟩ := h
    exact hc
  | _ => exact h.elim

theorem handle_waiter (hc : c.waiter = some waiter) :
    (∃ reply, Effect.reply waiter reply ∈ (s.handle c).effects) ∨
      (s.handle c).state.pending.waiter = some waiter ∧
        ∃ token, c.caller = some (token, waiter) ∧
          (s.handle c).state.uploaderToken = some token := by
  have ho := s.handled c
  generalize s.handle c = o at ho ⊢
  cases ho with
  | answered hanswer =>
    obtain rfl := Option.some.inj (hc.symm.trans hanswer.waiter)
    exact .inl ⟨_, List.mem_singleton_self _⟩
  | released | downloads | finishTold | finishIdle | finishHeld | startRefused | starts =>
    obtain rfl := Option.some.inj hc
    exact .inl ⟨_, List.mem_append_right _ (List.mem_singleton_self _)⟩
  | relays =>
    obtain rfl := Option.some.inj hc
    refine .inl ⟨.upload (.ok ()), List.mem_cons_of_mem _ ?_⟩
    exact List.mem_append_right _ (List.mem_singleton_self _)
  | @holds token =>
    obtain rfl := Option.some.inj hc
    exact .inr ⟨rfl, token, rfl, rfl⟩
  | @flushes token _ _ _ _ _ hu =>
    obtain rfl := Option.some.inj hc
    exact .inr ⟨rfl, token, rfl, hu⟩
  | signals _ hos => exact .inl ⟨.done, hos.answers waiter hc⟩
  | downloaderLeft | uploaderLeft | uploaderDone | ignored => cases hc

theorem handle_pending (hp : s.pending.waiter = some waiter) (hu : s.uploaderToken = some token) :
    (∃ reply, Effect.reply waiter reply ∈ (s.handle c).effects) ∨
      ((s.handle c).state.pending.waiter = some waiter ∧
        (s.handle c).state.uploaderToken = some token) ∨
      (∃ reply, c = .flushUpload token reply) ∨ c.announces = some (.uploader, token) := by
  obtain ⟨chunk, position, size, hdata⟩ := Pending.eq_data_of_waiter hp
  obtain ⟨uploader, huploader, htoken⟩ := Option.map_eq_some_iff.mp hu
  have hevict : s.evictUploader.2 = [replyUpload waiter (.error .connectionReplaced)] := by
    simp [State.evictUploader, State.terminateUploader, huploader, hdata, replyTo]
  have ho := s.handled c
  generalize s.handle c = o at ho ⊢
  cases ho with
  | answered | downloaderLeft | ignored => exact .inr (.inl ⟨hp, hu⟩)
  | released hp' =>
    obtain ⟨-, rfl, -⟩ := Pending.data.inj (hp'.symm.trans hdata)
    exact .inl ⟨.upload (.ok ()), by simp [replyUpload]⟩
  | @downloads downloader =>
    exact .inl ⟨.upload (.error (.position downloader.position)), by simp [hp, replyUpload]⟩
  | finishTold _ hno => exact absurd hdata (hno _ _ _ _)
  | finishIdle hno =>
    rw [hno] at huploader
    cases huploader
  | finishHeld _ hp' =>
    obtain ⟨-, rfl, -⟩ := Pending.data.inj (hp'.symm.trans hdata)
    exact .inl ⟨.upload (.error .finished), by simp [replyUpload]⟩
  | startRefused | starts =>
    exact .inl ⟨.upload (.error .connectionReplaced), by simp [hevict, replyUpload]⟩
  | relays _ hnone | holds _ hnone =>
    rw [hnone] at hdata
    cases hdata
  | @flushes token' reply _ _ _ _ hu' =>
    obtain rfl := Option.some.inj (hu.symm.trans hu')
    exact .inr (.inr (.inl ⟨reply, rfl⟩))
  | signals hsame =>
    refine .inr (.inl ⟨hsame.2.2 ▸ hp, ?_⟩)
    rw [State.uploaderToken, hsame.2.1]
    exact hu
  | uploaderLeft hu' | uploaderDone hu' =>
    obtain rfl := Option.some.inj (hu.symm.trans hu')
    exact .inr (.inr (.inr rfl))

theorem handle_pending_of (hp : (s.handle c).state.pending.waiter = some waiter) :
    c.waiter = some waiter ∨ s.pending.waiter = some waiter := by
  obtain ⟨chunk, position, size, hdata⟩ := Pending.eq_data_of_waiter hp
  rcases handle_pending_waiter hdata with ⟨token, rfl⟩ | ⟨token, rfl⟩ | h
  · exact .inl rfl
  · exact .inl rfl
  · exact .inr (by rw [h]; rfl)

theorem handle_reply_of {reply : Reply} (h : Effect.reply waiter reply ∈ (s.handle c).effects) :
    c.waiter = some waiter ∨ s.pending.waiter = some waiter := by
  cases handle_reply h with
  | called hwaiter _ _ => exact .inl hwaiter
  | relayed hcall _ => exact .inl (by rw [hcall]; rfl)
  | released hpending _ => exact .inr (by rw [hpending]; rfl)
  | discarded hpending _ => exact .inr (by rw [hpending]; rfl)

theorem evictUploader_pending (h : s.evictUploader.1.pending.waiter = some waiter) :
    s.evictUploader.2 = [] ∧ s.pending.waiter = some waiter := by
  unfold State.evictUploader State.terminateUploader at h ⊢
  cases hu : s.uploader with
  | none => exact ⟨rfl, by simpa [hu] using h⟩
  | some uploader => cases hp : s.pending <;> simp [hu, hp, Pending.waiter] at h

theorem clearError_waiter {pending : Pending} : pending.clearError.waiter = pending.waiter := by
  cases pending <;> rfl

theorem handle_kept (hp : (s.handle c).state.pending.waiter = some waiter)
    (hne : ¬(c.waiter = some waiter ∧ s.pending.waiter = some waiter)) {reply : Reply} :
    Effect.reply waiter reply ∉ (s.handle c).effects := by
  intro hmem
  have ho := s.handled c
  generalize s.handle c = o at ho hp hmem
  cases ho with
  | answered hanswer =>
    obtain ⟨rfl, -⟩ := Effect.reply.inj (List.mem_singleton.mp hmem)
    exact hne ⟨hanswer.waiter, hp⟩
  | released _ hsettles | downloads _ hsettles =>
    cases hsettles with
    | none | resume => cases hp
  | finishTold | finishHeld => cases hp
  | finishIdle =>
    simp only [List.mem_append, reply_mem_replaceDownloader, List.mem_singleton, false_or,
      Effect.reply.injEq] at hmem
    obtain ⟨rfl, -⟩ := hmem
    exact hne ⟨rfl, hp⟩
  | startRefused =>
    obtain ⟨hquiet, hpending⟩ := evictUploader_pending hp
    rw [hquiet] at hmem
    obtain ⟨rfl, -⟩ := Effect.reply.inj (List.mem_singleton.mp hmem)
    exact hne ⟨rfl, hpending⟩
  | starts =>
    obtain ⟨hquiet, hpending⟩ := evictUploader_pending (clearError_waiter ▸ hp)
    rw [hquiet, List.nil_append, List.mem_append, List.mem_singleton] at hmem
    obtain ⟨rfl, -⟩ := Effect.reply.inj (hmem.resolve_left reply_mem_sendUploadProgress)
    exact hne ⟨rfl, hpending⟩
  | relays _ hnone =>
    rw [hnone] at hp
    cases hp
  | signals hsame hos => exact hne ⟨(hos.reply hmem).1, hsame.2.2 ▸ hp⟩
  | holds | flushes | downloaderLeft | uploaderLeft | uploaderDone | ignored => cases hmem

/-- How the current uploader comes to have a chunk pending: it had one before, it sends one,
or it starts while one is pending. -/
theorem handle_holding (h : (s.handle c).state.Holding)
    (hu : (s.handle c).state.uploaderToken = some token) :
    s.Holding ∧ s.uploaderToken = some token ∨
      (∃ chunk reply, c = .uploadData token chunk reply ∧
        (s.handle c).state.pending.waiter = some reply) ∨
      ∃ position reply, c = .startUpload token position reply := by
  have ho := s.handled c
  generalize s.handle c = o at ho h hu ⊢
  cases ho with
  | answered | finishIdle | downloaderLeft | ignored => exact .inl ⟨h, hu⟩
  | released _ hsettles | downloads _ hsettles =>
    obtain ⟨_, _, _, _, hp⟩ := h
    cases hsettles with
    | none | resume => cases hp
  | finishTold =>
    obtain ⟨_, _, _, _, hp⟩ := h
    cases hp
  | @starts token' position w =>
    obtain rfl := Option.some.inj hu
    exact .inr (.inr ⟨position, w, rfl⟩)
  | startRefused => simp [State.uploaderToken] at hu
  | relays _ hnone =>
    obtain ⟨_, _, _, _, hp⟩ := h
    rw [hnone] at hp
    cases hp
  | @holds token' position chunk w =>
    obtain rfl := Option.some.inj hu
    exact .inr (.inl ⟨chunk, w, rfl, rfl⟩)
  | flushes _ hp => exact .inl ⟨⟨_, _, _, _, hp⟩, hu⟩
  | signals hsame =>
    simp only [State.Holding, State.uploaderToken, hsame.2.1, hsame.2.2] at h hu
    exact .inl ⟨h, hu⟩
  | finishHeld | uploaderLeft | uploaderDone => cases hu

theorem handle_ok_holding (h : replyUpload waiter (.ok ()) ∈ (s.handle c).effects)
    (hholding : (s.handle c).state.Holding) :
    c.waiter = some waiter ∧ (∀ token chunk, c ≠ .uploadData token chunk waiter) ∧
      ∀ token, c ≠ .flushUpload token waiter := by
  obtain ⟨_, _, _, _, hp⟩ := hholding
  obtain ⟨held, hevict⟩ := s.evictUploader_effects
  have ho := s.handled c
  generalize s.handle c = o at ho h hp
  cases ho with
  | answered hanswer =>
    obtain ⟨rfl, hresult⟩ := Effect.reply.inj (List.mem_singleton.mp h)
    cases hanswer with
    | checked => exact ⟨rfl, by simp, by simp⟩
    | flushed hu hnone =>
      rw [hnone] at hp
      cases hp
    | _ => cases hresult
  | released _ hsettles | downloads _ hsettles =>
    cases hsettles with
    | none | resume => cases hp
  | finishTold => cases hp
  | finishIdle | finishHeld => simp [replyUpload] at h
  | startRefused => simp [hevict, replyUpload] at h
  | @starts token position w =>
    obtain rfl : waiter = w := by simpa [hevict, replyUpload] using h
    exact ⟨rfl, by simp, by simp⟩
  | relays _ hnone =>
    rw [hnone] at hp
    cases hp
  | signals _ hos => cases (hos.reply h).2
  | holds | flushes | downloaderLeft | uploaderLeft | uploaderDone | ignored => cases h

/-- An error that is sent was queued, or the command raises it, or a chunk meets another. -/
theorem handle_error {error : UploadError}
    (h : replyUpload waiter (.error error) ∈ (s.handle c).effects) :
    s.pending = .error error ∨ Raises c error ∨
      error = .dataPending ∧ ∃ token chunk, c = .uploadData token chunk waiter ∧
        s.uploaderToken = some token ∧ s.Holding := by
  obtain ⟨held, hevict⟩ := s.evictUploader_effects
  have ho := s.handled c
  generalize s.handle c = o at ho h
  cases ho with
  | answered hanswer =>
    obtain ⟨rfl, hresult⟩ := Effect.reply.inj (List.mem_singleton.mp h)
    cases hanswer with
    | checked =>
      obtain ⟨expected, rfl⟩ := checkStartPosition_error (Reply.upload.inj hresult).symm
      exact .inr (.inl .position)
    | replaced =>
      cases hresult
      exact .inr (.inl .replaced)
    | @dataPending token chunk _ _ _ _ _ hu hp =>
      cases hresult
      exact .inr (.inr ⟨rfl, token, chunk, rfl, hu, _, _, _, _, hp⟩)
    | queued hc hu hp =>
      cases hresult
      exact .inl hp
    | _ => cases hresult
  | released => simp [replyUpload] at h
  | downloads =>
    obtain ⟨-, rfl⟩ : s.pending.waiter = some waiter ∧ _ := by simpa [replyUpload] using h
    exact .inr (.inl .position)
  | finishTold | finishIdle => simp [replyUpload] at h
  | finishHeld =>
    obtain ⟨-, rfl⟩ : _ ∧ error = .finished := by simpa [replyUpload] using h
    exact .inr (.inl (.finished rfl))
  | startRefused hcheck =>
    obtain ⟨expected, rfl⟩ := checkStartPosition_error hcheck
    simp only [hevict, replyUpload, List.mem_append, mem_replyTo, List.mem_singleton,
      Effect.reply.injEq, Reply.upload.injEq, Except.error.injEq] at h
    rcases h with ⟨_, -, -, rfl⟩ | ⟨-, rfl⟩
    · exact .inr (.inl .replaced)
    · exact .inr (.inl .position)
  | starts =>
    obtain ⟨-, rfl⟩ : _ ∧ error = .connectionReplaced := by simpa [hevict, replyUpload] using h
    exact .inr (.inl .replaced)
  | relays => simp [replyUpload] at h
  | signals _ hos => cases (hos.reply h).2
  | holds | flushes | downloaderLeft | uploaderLeft | uploaderDone | ignored => cases h

end Glopfile.Relay
