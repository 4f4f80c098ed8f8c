import Glopfile.Relay.PendingCall
import Glopfile.Relay.PositionBounds
import Glopfile.Relay.Positions

/-!
# Conflicts that name the position of the uploader

An uploader that has sent nothing is where it started, and the errors for it name the position
of a downloader that is elsewhere. But a flush takes over the call of a held chunk, which is
behind the uploader: a downloader that comes to the end of the chunk, where the uploader is,
discards the chunk and answers the flush with its own position.
-/

namespace Glopfile.Relay

open EventMachine (Trace)

variable {metadata : String} {session next : Session} {log : Trace Command Effect} {s : State}
  {c call : Command} {os : List Effect} {token : Token} {waiter : Waiter} {u : Uploader}
  {position x : Position}

def Started (log : Trace Command Effect) (token : Token) (position : Position) : Prop :=
  ∃ reply os, (Command.startUpload token position reply, os) ∈ log

def Silent (log : Trace Command Effect) (token : Token) : Prop :=
  ∀ chunk reply os, (Command.uploadData token chunk reply, os) ∉ log

def Early (log : Trace Command Effect) (token : Token) (c : Command) : Prop :=
  ∃ pre os suf, log = pre ++ (c, os) :: suf ∧ Silent pre token

/-- A call of an uploader that has sent nothing is refused with the position it started at. -/
def Spurious (log : Trace Command Effect) (os : List Effect) : Prop :=
  ∃ token position call waiter, Started log token position ∧ Early log token call ∧
    call.caller = some (token, waiter) ∧ replyUpload waiter (.error (.position position)) ∈ os

/-- A downloader comes to the end of the held chunk, and not to its start, while an uploader
that has sent nothing waits for the chunk. -/
def Bounces (log : Trace Command Effect) (s : State) : Command → Prop
  | .startDownload downloader _ =>
    ∃ chunk waiter position size token, s.pending = .data chunk (some waiter) position size ∧
      Early log token (.flushUpload token waiter) ∧ downloader.position ≠ position ∧
      downloader.position = addU64 position size
  | _ => False

def NoSpurious (log : Trace Command Effect) : Prop :=
  log.Each fun pre c os => ¬Spurious (pre ++ [(c, os)]) os

def NoBounce (metadata : String) (log : Trace Command Effect) : Prop :=
  log.Each fun pre c _ => ∀ session, (sessionTask metadata).Run pre session →
    ¬Bounces pre session.state c

theorem Started.snoc {entry : Command × List Effect} (h : Started log token position) :
    Started (log ++ [entry]) token position := by
  obtain ⟨reply, os, hmem⟩ := h
  exact ⟨reply, os, List.mem_append_left _ hmem⟩

theorem Started.unique (hnodup : (registered .uploader log).Nodup)
    (h : Started log token position) (h' : Started log token x) : position = x := by
  obtain ⟨_, _, hmem⟩ := h
  obtain ⟨_, _, hmem'⟩ := h'
  exact start_unique hnodup hmem hmem'

theorem Silent.of_snoc {entry : Command × List Effect} (h : Silent (log ++ [entry]) token) :
    Silent log token :=
  fun chunk reply os hmem => h chunk reply os (List.mem_append_left _ hmem)

theorem early_snoc :
    Early (log ++ [(c, os)]) token call ↔ Early log token call ∨ call = c ∧ Silent log token := by
  constructor
  · rintro ⟨pre, os', suf, hsplit, hsilent⟩
    rcases List.eq_nil_or_concat suf with rfl | ⟨suf, entry, rfl⟩
    · obtain ⟨rfl, hlast⟩ := List.append_inj' hsplit rfl
      obtain ⟨rfl, -⟩ := Prod.mk.inj (List.cons.inj hlast).1
      exact .inr ⟨rfl, hsilent⟩
    · rw [List.concat_eq_append, ← List.cons_append, ← List.append_assoc] at hsplit
      exact .inl ⟨pre, os', suf, (List.append_inj' hsplit rfl).1, hsilent⟩
  · rintro (⟨pre, os', suf, rfl, hsilent⟩ | ⟨rfl, hsilent⟩)
    · exact ⟨pre, os', suf ++ [(c, os)], by simp, hsilent⟩
    · exact ⟨log, os, [], rfl, hsilent⟩

theorem Early.waiter_mem (h : Early log token call) (hcall : call.waiter = some waiter) :
    waiter ∈ waiters log := by
  obtain ⟨pre, os, suf, rfl, -⟩ := h
  exact mem_waiters.mpr ⟨call, os, by simp, hcall⟩

theorem early_last (hnodup : (waiters (log ++ [(c, os)])).Nodup)
    (h : Early (log ++ [(c, os)]) token call) (hcall : call.caller = some (token, waiter))
    (hc : c.waiter = some waiter) : call = c ∧ Silent log token := by
  rcases early_snoc.mp h with hearlier | hlast
  · exfalso
    have hdup : (waiters log ++ [waiter]).Nodup := by simpa [waiters, hc] using hnodup
    exact (List.nodup_append.mp hdup).2.2 waiter (hearlier.waiter_mem (caller_waiter hcall))
      waiter List.mem_cons_self rfl
  · exact hlast

theorem early_before (hnodup : (waiters (log ++ [(c, os)])).Nodup)
    (h : Early (log ++ [(c, os)]) token call) (hcall : call.caller = some (token, waiter))
    (hmem : waiter ∈ waiters log) : Early log token call := by
  rcases early_snoc.mp h with hearlier | ⟨rfl, -⟩
  · exact hearlier
  · exfalso
    have hdup : (waiters log ++ [waiter]).Nodup := by
      simpa [waiters, caller_waiter hcall] using hnodup
    exact (List.nodup_append.mp hdup).2.2 waiter hmem waiter List.mem_cons_self rfl

theorem checkStartPosition_ne (h : s.checkStartPosition position = .error (.position x)) :
    x ≠ position := by
  have hpending (h : State.checkStartPosition.checkPending s position = .error (.position x)) :
      x ≠ position := by
    unfold State.checkStartPosition.checkPending at h
    split at h
    · dsimp only at h
      split_ifs at h with hne
      cases h
      exact Ne.symm hne
    · cases h
  unfold State.checkStartPosition at h
  split at h
  · split_ifs at h with hne
    · cases h
      exact Ne.symm hne
    · exact hpending h
  · exact hpending h

inductive Redirects (s : State) (waiter : Waiter) (x : Position) : Command → Prop
  | start {token : Token} {position : Position} (hne : x ≠ position) :
      Redirects s waiter x (.startUpload token position waiter)
  | check {position : Position} : Redirects s waiter x (.checkStartUpload position waiter)
  | queued {c : Command} {token : Token} (hcall : c.caller = some (token, waiter))
      (hu : s.uploaderToken = some token) (hp : s.pending = .error (.position x)) :
      Redirects s waiter x c
  | discarded {downloader : Downloader} {reply : Waiter} {chunk : Chunk} {position : Position}
      {size : ℕ} (hp : s.pending = .data chunk (some waiter) position size)
      (hne : downloader.position ≠ position) (hx : downloader.position = x) :
      Redirects s waiter x (.startDownload downloader reply)

theorem handle_redirects (h : replyUpload waiter (.error (.position x)) ∈ (s.handle c).effects) :
    Redirects s waiter x c := by
  obtain ⟨held, hevict⟩ := s.evictUploader_effects
  have ho := s.handled c
  generalize s.handle c = o at ho h
  cases ho with
  | answered hanswer =>
    obtain ⟨rfl, hresult⟩ := Effect.reply.inj (List.mem_singleton.mp h)
    cases hanswer with
    | checked => exact .check
    | queued hc hu hp =>
      cases hresult
      exact .queued (by rcases hc with ⟨_, rfl⟩ | rfl <;> rfl) hu hp
    | _ => cases hresult
  | @downloads downloader w pending hp =>
    obtain ⟨hw, hx⟩ : s.pending.waiter = some waiter ∧ x = downloader.position := by
      simpa [replyUpload] using h
    obtain ⟨chunk, position, size, hdata⟩ := Pending.eq_data_of_waiter hw
    refine .discarded hdata (fun hat => ?_) hx.symm
    rw [← hat] at hdata
    exact hp _ _ _ hdata
  | @startRefused token position w error hcheck =>
    obtain ⟨rfl, rfl⟩ : waiter = w ∧ .position x = error := by
      simpa [hevict, replyUpload] using h
    exact .start (checkStartPosition_ne hcheck)
  | released | finishTold | finishIdle | finishHeld | relays => simp [replyUpload] at h
  | starts => simp [hevict, replyUpload] at h
  | signals _ hos => cases (hos.reply h).2
  | holds | flushes | downloaderLeft | uploaderLeft | uploaderDone | ignored => cases h

theorem handle_queued
    (hbefore : ∀ u, s.uploader = some u → s.pending = .error (.position x) → x ≠ u.position)
    (hu : (s.handle c).state.uploader = some u)
    (hp : (s.handle c).state.pending = .error (.position x)) : x ≠ u.position := by
  have ho := s.handled c
  generalize s.handle c = o at ho hu hp
  cases ho with
  | answered | downloaderLeft | ignored => exact hbefore u hu hp
  | released _ hsettles | downloads _ hsettles =>
    cases hsettles with
    | none => cases hp
    | resume huploader hne =>
      cases hp
      obtain rfl := Option.some.inj (hu.symm.trans huploader)
      exact hne.symm
  | startRefused => simp at hu
  | starts => exact absurd hp Pending.clearError_ne_error
  | finishIdle hnone =>
    rw [hnone] at hu
    cases hu
  | relays _ hnone =>
    rw [hnone] at hp
    cases hp
  | signals hsame => exact hbefore u (hsame.2.1 ▸ hu) (hsame.2.2 ▸ hp)
  | finishTold | finishHeld | holds | flushes => cases hp
  | uploaderLeft | uploaderDone => cases hu

structure Aligned (log : Trace Command Effect) (s : State) : Prop where
  agree : PositionsAgree s
  callers : Callers log s
  queued : ∀ u x, s.uploader = some u → s.pending = .error (.position x) → x ≠ u.position
  connected : ∀ u, s.uploader = some u → Silent log u.token → Started log u.token u.position
  waiting : ∀ chunk waiter position size, s.pending = .data chunk (some waiter) position size →
    ∀ token call, Early log token call → call.caller = some (token, waiter) →
      call = .flushUpload token waiter ∧ Started log token (addU64 position size) ∨
        call = .uploadData token chunk waiter ∧ Started log token position

namespace Aligned

theorem pending_mem (h : Aligned log s) (hp : s.pending.waiter = some waiter) :
    waiter ∈ waiters log := by
  obtain ⟨chunk, position, size, hdata⟩ := Pending.eq_data_of_waiter hp
  obtain ⟨d, os, token, hmem, hd⟩ := h.callers.waiting chunk waiter position size hdata
  exact mem_waiters.mpr ⟨d, os, hmem, by rcases hd with rfl | rfl <;> rfl⟩

theorem handle (h : Aligned log s) (hnodup : (waiters (log ++ [(c, os)])).Nodup) :
    Aligned (log ++ [(c, os)]) (s.handle c).state where
  agree := h.agree.handle c
  callers := h.callers.handle
  queued u x hu hp := handle_queued (fun u hu hp => h.queued u x hu hp) hu hp
  connected u hu hsilent := by
    cases handle_uploader hu with
    | kept hbefore => exact (h.connected u hbefore hsilent.of_snoc).snoc
    | started hc =>
      subst hc
      exact ⟨_, os, List.mem_append_right _ List.mem_cons_self⟩
    | advanced hc _ _ =>
      subst hc
      exact absurd (List.mem_append_right _ List.mem_cons_self) (hsilent _ _ os)
  waiting chunk waiter position size hp token call hearly hcall := by
    cases handle_pending_data hp with
    | sent hc hu hnone =>
      subst hc
      obtain ⟨rfl, hsilent⟩ := early_last hnodup hearly hcall rfl
      obtain ⟨rfl, -⟩ := Prod.mk.inj (Option.some.inj hcall)
      exact .inr ⟨rfl, (h.connected _ hu hsilent).snoc⟩
    | flushed hc hu hdata =>
      subst hc
      obtain ⟨rfl, hsilent⟩ := early_last hnodup hearly hcall rfl
      obtain ⟨rfl, -⟩ := Prod.mk.inj (Option.some.inj hcall)
      obtain ⟨u, huploader, rfl⟩ := Option.map_eq_some_iff.mp hu
      have hstarted := h.connected u huploader hsilent
      rw [h.agree.held u _ _ _ _ huploader hdata] at hstarted
      exact .inl ⟨rfl, hstarted.snoc⟩
    | kept hdata =>
      have hmem := h.pending_mem (by rw [hdata]; rfl)
      rcases h.waiting _ _ _ _ hdata token call (early_before hnodup hearly hcall hmem) hcall with
        ⟨rfl, hstarted⟩ | ⟨rfl, hstarted⟩
      · exact .inl ⟨rfl, hstarted.snoc⟩
      · exact .inr ⟨rfl, hstarted.snoc⟩

theorem of_run (hrun : (sessionTask metadata).Run log session) (hnodup : (waiters log).Nodup) :
    Aligned log session.state := by
  refine hrun.history (P := fun log session => (waiters log).Nodup → Aligned log session.state)
    (fun _ => ⟨.spawn, Callers.of_run .refl, nofun, nofun, nofun⟩) ?_ hnodup
  intro log session c next os _ ih _ hstep hnodup
  obtain ⟨-, rfl, -⟩ := Session.step_eq_some.mp hstep
  refine (ih ?_).handle hnodup
  rw [waiters, List.filterMap_append] at hnodup
  exact (List.nodup_append.mp hnodup).1

end Aligned

theorem spurious_iff (hrun : (sessionTask metadata).Run log session)
    (hwaiters : (waiters (log ++ [(c, (session.state.handle c).effects)])).Nodup)
    (htokens : (registered .uploader (log ++ [(c, (session.state.handle c).effects)])).Nodup) :
    Spurious (log ++ [(c, (session.state.handle c).effects)]) (session.state.handle c).effects ↔
      Bounces log session.state c := by
  have hnodup : (waiters log).Nodup := by
    rw [waiters, List.filterMap_append] at hwaiters
    exact (List.nodup_append.mp hwaiters).1
  have haligned := Aligned.of_run hrun hnodup
  constructor
  · rintro ⟨token, position, call, waiter, hstarted, hearly, hcall, hreply⟩
    cases handle_redirects hreply with
    | @start token' position' hne =>
      obtain ⟨rfl, -⟩ := early_last hwaiters hearly hcall rfl
      obtain ⟨rfl, -⟩ := Prod.mk.inj (Option.some.inj hcall)
      have hlast : Started (log ++ [(.startUpload token' position' waiter,
          (session.state.handle (.startUpload token' position' waiter)).effects)]) token' position' :=
        ⟨waiter, _, List.mem_append_right _ List.mem_cons_self⟩
      exact absurd (hstarted.unique htokens hlast) hne
    | check =>
      obtain ⟨rfl, -⟩ := early_last hwaiters hearly hcall rfl
      cases hcall
    | queued hcaller hu hp =>
      obtain ⟨rfl, hsilent⟩ := early_last hwaiters hearly hcall (caller_waiter hcaller)
      obtain ⟨rfl, -⟩ := Prod.mk.inj (Option.some.inj (hcall.symm.trans hcaller))
      obtain ⟨u, huploader, rfl⟩ := Option.map_eq_some_iff.mp hu
      have hposition := hstarted.unique htokens (haligned.connected u huploader hsilent).snoc
      exact absurd hposition (haligned.queued u position huploader hp)
    | @discarded downloader reply chunk start size hp hne hx =>
      have hearlier := early_before hwaiters hearly hcall (haligned.pending_mem (by rw [hp]; rfl))
      rcases haligned.waiting _ _ _ _ hp token call hearlier hcall with
        ⟨rfl, hend⟩ | ⟨-, hstart⟩
      · refine ⟨chunk, waiter, start, size, token, hp, hearlier, hne, ?_⟩
        rw [hx]
        exact hstarted.unique htokens hend.snoc
      · obtain rfl := hstarted.unique htokens hstart.snoc
        exact absurd hx hne
  · intro hbounces
    cases c with
    | startDownload downloader reply =>
      obtain ⟨chunk, waiter, position, size, token, hp, hearly, hne, hend⟩ := hbounces
      rcases haligned.waiting _ _ _ _ hp token _ hearly rfl with ⟨-, hstarted⟩ | ⟨hcall, -⟩
      · refine ⟨token, _, _, waiter, hstarted.snoc, early_snoc.mpr (.inl hearly), rfl, ?_⟩
        simp [State.handle, State.startDownload_effects, State.releasePending, hp, ← hend, hne,
          replyUpload]
      · cases hcall
    | _ => exact hbounces.elim

def releasedFromStart : List SystemEvent :=
  [.upload 0, .turn, .uploadResume 0, .turn, .uploadResume 0, .uploadBody 0 (.chunk [1, 2]),
    .uploadBody 0 .eof, .turn, .uploadDrop 0, .turn, .upload 2, .turn, .uploadResume 5, .turn,
    .download 0, .turn]

end Glopfile.Relay
