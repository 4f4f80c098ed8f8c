import Glopfile.Relay.Commands

/-!
# Sessions after `finish_download`

`finish_download` marks the downloader slot `Finished` and leaves the session to end with
its uploader. Two commands were written without that slot in mind. `start_download`
overwrites it, and `start_upload` evicts the uploader of a finished session, clears its
error and lets the newcomer send a chunk that nobody will ask for. Each result below gives
the exact condition on the commands of a run under which the session does what finishing
promises.
-/

namespace Glopfile.Relay

open EventMachine (Trace)

variable {metadata : String} {session next t : Session} {tr tr' : Trace Command Effect}
  {c : Command} {os : List Effect} {reply : Waiter}

/-- A session that is still there is finished and waits for its uploader to leave. -/
def Session.Finishing (session : Session) : Prop :=
  session.running = true →
    session.state.downloader = .finished ∧ session.state.uploader.isSome = true

/-- The commands a finished session survives as one: no download starts, and a newcomer
is not turned away once the uploader it replaces is gone. -/
def KeepsFinished (session : Session) : Command → Prop
  | .startDownload _ _ => False
  | .startUpload _ position _ =>
    session.state.evictUploader.1.checkStartPosition position = .ok ()
  | _ => True

theorem Session.Finishing.step_iff (h : session.Finishing)
    (hstep : session.step c = some (next, os)) : next.Finishing ↔ KeepsFinished session c := by
  obtain ⟨hrunning, rfl, -⟩ := Session.step_eq_some.mp hstep
  obtain ⟨hd, hu⟩ := h hrunning
  obtain ⟨u, hu⟩ := Option.isSome_iff_exists.mp hu
  obtain ⟨s, _⟩ := session
  simp only [Session.Finishing, decide_eq_true_eq, KeepsFinished] at hd hu ⊢
  have hc := s.handled c
  generalize s.handle c = o at hc ⊢
  cases hc with
  | answered hanswer =>
    cases c with
    | startDownload | startUpload => cases hanswer with
      | replaced hc | queued hc => rcases hc with ⟨_, hc⟩ | hc <;> cases hc
    | _ => simp [hd, hu]
  | released | downloads => simp
  | startRefused hcheck => simp [hcheck, hd]
  | starts hcheck => simp [hcheck, hd]
  | relays _ _ hd' | downloaderLeft hd' => simp [hd] at hd'
  | uploaderLeft _ hne => exact absurd hd hne
  | finishTold | finishIdle | finishHeld | holds | flushes | uploaderDone | ignored => simp [hd, hu]
  | signals hsame _ hsignaling =>
    cases c with
    | startDownload | startUpload => cases hsignaling
    | _ => simp [hsame.1, hsame.2.1, hd, hu]

theorem finishDownload_finishing (hstep : session.step (.finishDownload reply) = some (next, os)) :
    next.Finishing := by
  obtain ⟨-, rfl, -⟩ := Session.step_eq_some.mp hstep
  simp only [Session.Finishing, State.handle]
  rcases session.state.finishDownload_cases reply with
    ⟨u, hu, _, hf⟩ | ⟨_, hf⟩ | ⟨_, _, _, _, _, _, _, hf⟩
  · simp [hf, hu]
  · simp [hf]
  · simp [hf]

def StaysFinishing (metadata : String) (session : Session) (tr : Trace Command Effect) : Prop :=
  ∀ pre suf t, tr = pre ++ suf → (sessionTask metadata).Path (fun _ _ => True) session pre t →
    t.Finishing

/-- After `finish_download` a session stays finished, with its uploader, until it ends,
exactly when no download starts and no newcomer is turned away. -/
theorem finishing_is_final
    (hrun : (sessionTask metadata).Run (tr ++ [(.finishDownload reply, os)]) session)
    (hpath : (sessionTask metadata).Path (fun _ _ => True) session tr' t) :
    StaysFinishing metadata session tr' ↔
      (sessionTask metadata).Path KeepsFinished session tr' t := by
  obtain ⟨_, _, _, hfinish⟩ := hrun.last
  exact hpath.guarded_iff (P := Session.Finishing) (finishDownload_finishing hfinish)
    fun _ _ _ _ _ _ h hstep => h.step_iff hstep

theorem finishing_is_final_uploader_leaves : ∃ tr os session tr' t,
    (sessionTask "").exec (Session.spawn "") [.startUpload 1 0 1, .finishDownload 2] =
        some (tr ++ [(.finishDownload 2, os)], session) ∧
      (sessionTask "").exec session [.uploadData 1 (.final ⟨0, []⟩) 3, .disconnected 1 .uploader] =
        some (tr', t) ∧
      session.running = true ∧ t.running = false ∧ StaysFinishing "" session tr' := by
  have hrun : (sessionTask "").exec (Session.spawn "")
      [.startUpload 1 0 1, .finishDownload 2] = some ([_] ++ [(.finishDownload 2, _)], _) := rfl
  refine ⟨_, _, _, _, _, hrun, rfl, rfl, rfl, ?_⟩
  refine (finishing_is_final (EventMachine.exec_run _ hrun) (EventMachine.exec_path
    [.uploadData 1 (.final ⟨0, []⟩) 3, .disconnected 1 .uploader] rfl)).mpr ?_
  exact (EventMachine.Path.single (m := sessionTask "") trivial rfl).trans
    (.single trivial rfl)

/-- A download that starts after the finish takes the slot, and the session goes on when
its uploader leaves; and a newcomer turned away leaves a finished session without an
uploader. -/
theorem finishing_is_not_final :
    (∃ tr os session tr' t,
      (sessionTask "").exec (Session.spawn "") [.startUpload 1 0 1, .finishDownload 2] =
          some (tr ++ [(.finishDownload 2, os)], session) ∧
        session.running = true ∧
        (sessionTask "").exec session [.startDownload ⟨2, 0, 20⟩ 3, .disconnected 1 .uploader] =
          some (tr', t) ∧
        t.running = true ∧ t.state.downloader = .connected ⟨2, 0, 20⟩ ∧
        t.state.uploader = none ∧ ¬ StaysFinishing "" session tr') ∧
      ∃ tr os session tr' t,
        (sessionTask "").exec (Session.spawn "") [.startUpload 1 0 1, .finishDownload 2] =
            some (tr ++ [(.finishDownload 2, os)], session) ∧
          (sessionTask "").exec session [.startUpload 3 0 3,
            .uploadData 3 (.more ⟨0, [1]⟩) 4, .startUpload 5 0 5] = some (tr', t) ∧
          t.running = true ∧ t.state.downloader = .finished ∧ t.state.uploader = none ∧
          ¬ StaysFinishing "" session tr' := by
  have hrun : (sessionTask "").exec (Session.spawn "")
      [.startUpload 1 0 1, .finishDownload 2] = some ([_] ++ [(.finishDownload 2, _)], _) := rfl
  constructor
  · refine ⟨_, _, _, _, _, hrun, rfl, rfl, rfl, rfl, rfl, fun h => ?_⟩
    have hfinal := h _ [] _ (List.append_nil _).symm (EventMachine.exec_path
      [.startDownload ⟨2, 0, 20⟩ 3, .disconnected 1 .uploader] rfl) rfl
    exact absurd hfinal.2 Bool.false_ne_true
  · refine ⟨_, _, _, _, _, hrun, rfl, rfl, rfl, rfl, fun h => ?_⟩
    have hfinal := h _ [] _ (List.append_nil _).symm (EventMachine.exec_path
      [.startUpload 3 0 3, .uploadData 3 (.more ⟨0, [1]⟩) 4, .startUpload 5 0 5] rfl) rfl
    exact absurd hfinal.2 Bool.false_ne_true

def Session.NoneHeld (session : Session) : Prop :=
  session.running = true → session.state.downloader = .finished →
    ∀ chunk waiter position size, session.state.pending ≠ .data chunk waiter position size

def TurnsAway (session : Session) : Command → Prop
  | .uploadData token _ _ => session.state.downloader = .finished →
      session.state.uploaderToken = some token → session.state.pending ≠ .none
  | _ => True

def Command.uploadCall : Command → Option Waiter
  | .startUpload _ _ reply | .uploadData _ _ reply | .flushUpload _ reply => some reply
  | _ => none

def AnswersAtOnce (session : Session) (c : Command) : Prop :=
  session.state.downloader = .finished →
    (∀ reply, c.uploadCall = some reply →
      ∃ result, replyUpload reply result ∈ (session.state.handle c).effects) ∧
    ∀ token chunk reply, c = .uploadData token chunk reply →
      ∃ error, replyUpload reply (.error error) ∈ (session.state.handle c).effects

def RefusesAtOnce (session : Session) (c : Command) : Prop :=
  session.state.downloader = .finished → ∀ reply, c.uploadCall = some reply →
    ∃ error, replyUpload reply (.error error) ∈ (session.state.handle c).effects

def NoNewcomer (session : Session) : Command → Prop
  | .startUpload _ _ _ => session.state.downloader ≠ .finished
  | _ => True

def Session.Refusing (session : Session) : Prop :=
  session.running = true → session.state.downloader = .finished →
    ∃ error, session.state.pending = .error error

theorem Answer.turnsAway {w : Waiter} {answer : Reply} (h : Answer session.state c w answer) :
    TurnsAway session c := by
  cases h with
  | replaced hc hu =>
    rcases hc with ⟨chunk, rfl⟩ | rfl
    · exact fun _ htoken => absurd htoken hu
    · trivial
  | queued hc hu hp =>
    rcases hc with ⟨chunk, rfl⟩ | rfl
    · exact fun _ _ hnone => nomatch hp.symm.trans hnone
    · trivial
  | dataPending hu hp => exact fun _ _ hnone => nomatch hp.symm.trans hnone
  | metadata | checked | flushed => trivial

theorem Session.NoneHeld.step_iff (h : session.NoneHeld)
    (hstep : session.step c = some (next, os)) : next.NoneHeld ↔ TurnsAway session c := by
  obtain ⟨hrunning, rfl, -⟩ := Session.step_eq_some.mp hstep
  have hheld := h hrunning
  have hc := session.state.handled c
  simp only [Session.NoneHeld]
  generalize session.state.handle c = o at hc ⊢
  cases hc with
  | answered hanswer => exact iff_of_true (fun _ => hheld) hanswer.turnsAway
  | released | downloads | finishTold | finishIdle | finishHeld | uploaderDone =>
    exact iff_of_true (by simp) trivial
  | startRefused =>
    refine iff_of_true (fun _ hd chunk waiter position size hp => ?_) trivial
    obtain ⟨waiter', hp'⟩ := session.state.evictUploader_data hp
    exact hheld (by simpa using hd) _ _ _ _ hp'
  | starts =>
    refine iff_of_true (fun _ hd chunk waiter position size hp => ?_) trivial
    obtain ⟨waiter', hp'⟩ := session.state.evictUploader_data (Pending.eq_data_of_clearError hp)
    exact hheld (by simpa using hd) _ _ _ _ hp'
  | relays _ _ hd => exact iff_of_true (by simp) fun hfinished => by simp [hfinished] at hd
  | @holds token _ _ _ hu hp hd =>
    -- The chunk is held in a session that is finished, or in one without a downloader.
    have htoken : session.state.uploaderToken = some token := by simp [State.uploaderToken, hu]
    refine ⟨fun hnone hfinished => ?_, fun haway _ hfinished => absurd hp (haway hfinished htoken)⟩
    exact absurd rfl (hnone rfl hfinished _ _ _ _)
  | flushes _ hp =>
    exact iff_of_true (fun _ hd => absurd hp (hheld hd _ _ _ _)) trivial
  | signals hsame _ hsignaling =>
    refine iff_of_true (fun _ => ?_) ?_
    · rw [hsame.1, hsame.2.2]
      exact hheld
    · cases c <;> trivial
  | @downloaderLeft _ completed =>
    refine iff_of_true ?_ trivial
    cases completed <;> simp
  | uploaderLeft _ hne => exact iff_of_true (fun _ hd => absurd hd hne) trivial
  | ignored => exact iff_of_true (fun _ => hheld) trivial

theorem Session.NoneHeld.answersAtOnce (h : session.NoneHeld) (hrunning : session.running = true)
    (haway : TurnsAway session c) : AnswersAtOnce session c := by
  intro hd
  have hheld := h hrunning hd
  obtain ⟨s, _⟩ := session
  simp only [TurnsAway] at hd haway hheld ⊢
  cases c with
  | startUpload token position reply =>
    refine ⟨?_, by simp⟩
    rintro _ ⟨⟩
    rcases s.startUpload_cases token position reply with
      ⟨error, _, hs⟩ | ⟨_, hs⟩
    · exact ⟨.error error, by simp [State.handle, hs]⟩
    · exact ⟨.ok (), by simp [State.handle, hs]⟩
  | uploadData token chunk reply =>
    obtain ⟨error, hs⟩ := s.uploadData_refused _ chunk reply (haway hd)
    constructor
    · rintro _ ⟨⟩
      exact ⟨.error error, by simp [State.handle, hs]⟩
    · rintro _ _ _ ⟨⟩
      exact ⟨error, by simp [State.handle, hs]⟩
  | flushUpload token reply =>
    refine ⟨?_, by simp⟩
    rintro _ ⟨⟩
    rcases s.flushUpload_cases token reply with
      ⟨result, hs⟩ | ⟨_, _, _, _, _, hp, _⟩
    · exact ⟨result, by simp [State.handle, hs]⟩
    · exact absurd hp (hheld _ _ _ _)
  | _ => simp [Command.uploadCall]

theorem Session.Refusing.refusesAtOnce_iff (h : session.Refusing)
    (hrunning : session.running = true) : RefusesAtOnce session c ↔ NoNewcomer session c := by
  have herror := h hrunning
  obtain ⟨s, _⟩ := session
  simp only [RefusesAtOnce, NoNewcomer] at herror ⊢
  cases c with
  | startUpload token position reply =>
    simp only [Command.uploadCall, Option.some.injEq, forall_eq', ne_eq]
    refine ⟨fun hrefuses hd => ?_, fun hd hd' => absurd hd' hd⟩
    obtain ⟨error, herror⟩ := herror hd
    obtain ⟨e, hmem⟩ := hrefuses hd
    have hevict : s.evictUploader.2 = [] := by
      unfold State.evictUploader State.terminateUploader
      cases s.uploader <;> simp [herror]
    have hcheck : s.evictUploader.1.checkStartPosition position = .ok () := by
      refine State.checkStartPosition_eq_ok.mpr ⟨by simp [hd], fun chunk waiter p size hp => ?_⟩
      obtain ⟨_, hp'⟩ := s.evictUploader_data hp
      simp [herror] at hp'
    rcases s.startUpload_cases token position reply with
      ⟨_, hcheck', _⟩ | ⟨_, hs⟩
    · simp [hcheck] at hcheck'
    · cases hws : s.evictUploader.1.uploaderWs <;>
        simp [State.handle, hs, hevict, sendUploadProgress, replyUpload, hws] at hmem
  | uploadData token chunk reply =>
    simp only [Command.uploadCall, Option.some.injEq, forall_eq', iff_true]
    intro hd
    obtain ⟨error, herror⟩ := herror hd
    have hne : s.uploaderToken = some token → s.pending ≠ .none := by simp [herror]
    obtain ⟨e, hs⟩ := s.uploadData_refused _ chunk reply hne
    exact ⟨e, by simp [State.handle, hs]⟩
  | flushUpload token reply =>
    simp only [Command.uploadCall, Option.some.injEq, forall_eq', iff_true]
    intro hd
    obtain ⟨error, herror⟩ := herror hd
    by_cases ht : s.uploaderToken = some token
    · exact ⟨error, by simp [State.handle, State.flushUpload, ht, herror]⟩
    · exact ⟨.connectionReplaced, by simp [State.handle, State.flushUpload, ht]⟩
  | _ => simp [Command.uploadCall]

theorem Session.Refusing.step (h : session.Refusing) (hguard : NoNewcomer session c)
    (hstep : session.step c = some (next, os)) : next.Refusing := by
  obtain ⟨hrunning, rfl, -⟩ := Session.step_eq_some.mp hstep
  have herror := h hrunning
  have hc := session.state.handled c
  simp only [Session.Refusing]
  generalize session.state.handle c = o at hc ⊢
  cases hc with
  | answered | ignored => exact fun _ => herror
  | released | downloads | finishIdle | finishHeld | relays | uploaderDone => nofun
  | finishTold => exact fun _ _ => ⟨.finished, rfl⟩
  | startRefused | starts =>
    intro _ hd
    exact absurd (by simpa using hd) hguard
  | holds hu hp | flushes hu hp =>
    intro _ hd
    obtain ⟨error, herror⟩ := herror hd
    rw [hp] at herror
    cases herror
  | signals hsame =>
    rw [hsame.1, hsame.2.2]
    exact fun _ => herror
  | @downloaderLeft _ completed => cases completed <;> nofun
  | uploaderLeft _ hne => exact fun _ hd => absurd hd hne

def NeverHeld (metadata : String) (tr : Trace Command Effect) : Prop :=
  ∀ pre suf t, tr = pre ++ suf → (sessionTask metadata).Run pre t → t.NoneHeld

/-- A run holds no chunk after finishing and answers every uploader of a finished session
at once, chunks with an error, exactly when the uploader of a finished session is never
heard while no error is queued for it; and all those answers are errors exactly when no
uploader starts on a finished session. -/
theorem finished_holds_nothing (hrun : (sessionTask metadata).Run tr session) :
    (NeverHeld metadata tr ∧
        (sessionTask metadata).Path AnswersAtOnce (Session.spawn metadata) tr session ↔
      (sessionTask metadata).Path TurnsAway (Session.spawn metadata) tr session) ∧
    (NeverHeld metadata tr ∧
        (sessionTask metadata).Path RefusesAtOnce (Session.spawn metadata) tr session ↔
      (sessionTask metadata).Path NoNewcomer (Session.spawn metadata) tr session) := by
  have hheld : (Session.spawn metadata).NoneHeld := by simp [Session.NoneHeld, Session.spawn]
  have hrefusing : (Session.spawn metadata).Refusing := by simp [Session.Refusing, Session.spawn]
  have hnever : NeverHeld metadata tr ↔
      (sessionTask metadata).Path TurnsAway (Session.spawn metadata) tr session :=
    hrun.guarded_iff hheld fun _ _ _ _ _ _ h hstep => h.step_iff hstep
  constructor
  · rw [hnever]
    refine ⟨fun h => h.1, fun h => ⟨h, ?_⟩⟩
    refine h.imp hheld fun t c u os ht hguard hstep => ?_
    exact ⟨ht.answersAtOnce (Session.step_eq_some.mp hstep).1 hguard,
      (ht.step_iff hstep).mpr hguard⟩
  · rw [hnever]
    constructor
    · rintro ⟨-, h⟩
      refine h.imp hrefusing fun t c u os ht hrefuses hstep => ?_
      have hguard := (ht.refusesAtOnce_iff (Session.step_eq_some.mp hstep).1).mp hrefuses
      exact ⟨hguard, ht.step hguard hstep⟩
    · intro h
      constructor
      · refine h.imp hrefusing fun t c u os ht hguard hstep => ⟨?_, ht.step hguard hstep⟩
        have herror := ht (Session.step_eq_some.mp hstep).1
        cases c with
        | uploadData token chunk reply =>
          intro hd _ hp
          obtain ⟨error, herror⟩ := herror hd
          simp [herror] at hp
        | _ => trivial
      · refine h.imp hrefusing fun t c u os ht hguard hstep => ?_
        exact ⟨(ht.refusesAtOnce_iff (Session.step_eq_some.mp hstep).1).mpr hguard,
          ht.step hguard hstep⟩

def uploadsToFinished : List Command :=
  [.startUpload 1 0 1, .finishDownload 2, .uploadData 1 (.final ⟨0, [1]⟩) 3,
    .flushUpload 1 4]

theorem finished_holds_nothing_refused : ∃ tr session,
    (sessionTask "").exec (Session.spawn "") uploadsToFinished = some (tr, session) ∧
      session.running = true ∧ NeverHeld "" tr := by
  have hexec : (sessionTask "").exec (Session.spawn "") uploadsToFinished = some (_, _) := rfl
  refine ⟨_, _, hexec, rfl, ?_⟩
  refine ((finished_holds_nothing (EventMachine.exec_run _ hexec)).1.mpr ?_).1
  refine .snoc (.snoc (.snoc (.snoc (.refl : EventMachine.Path _ _ _ [] _) trivial rfl) trivial rfl)
    ?_ rfl) trivial rfl
  rintro - - ⟨⟩

def startsAfterFinish : List Command :=
  [.startUpload 1 0 1, .finishDownload 2, .startUpload 3 0 3,
    .uploadData 3 (.final ⟨0, [1]⟩) 4]

theorem finished_holds_chunk : ∃ tr session,
    (sessionTask "").exec (Session.spawn "") startsAfterFinish = some (tr, session) ∧
      session.running = true ∧ session.state.downloader = .finished ∧
      session.state.pending = .data (.final ⟨0, [1]⟩) (some 4) 0 1 ∧
      (∃ pre, tr = pre ++ [(.uploadData 3 (.final ⟨0, [1]⟩) 4, [])]) ∧ ¬ NeverHeld "" tr := by
  have hexec : (sessionTask "").exec (Session.spawn "") startsAfterFinish = some (_, _) := rfl
  refine ⟨_, _, hexec, rfl, rfl, rfl, ⟨[_, _, _], rfl⟩, fun h => ?_⟩
  exact h _ [] _ (List.append_nil _).symm (EventMachine.exec_run _ hexec) rfl rfl _ _ _ _ rfl

end Glopfile.Relay
