import Glopfile.Relay.Positions

/-!
# The start of an upload

`start_upload` evicts the uploader that is connected before it looks at the position of the
newcomer. Eviction leaves the downloader and the chunk held for it where they are, so that
`check_start_upload` foretells the answer; but a newcomer that is refused has ended the upload
that was in progress.
-/

namespace Glopfile.Relay

open EventMachine (Trace)

variable {metadata : String} {session next : Session} {tr : Trace Command Effect} {c : Command}
  {os : List Effect} {s : State} {position x : Position} {reply : Waiter} {result : UploadResult}

def Concludes (reply : Waiter) (result : UploadResult) (os : List Effect) : Prop :=
  ∃ sent, os = sent ++ [replyUpload reply result]

theorem Concludes.unique {result' : UploadResult} (h : Concludes reply result os)
    (h' : Concludes reply result' os) : result = result' := by
  obtain ⟨sent, rfl⟩ := h
  obtain ⟨sent', hos⟩ := h'
  have hlast := (List.append_inj' hos rfl).2
  simpa [replyUpload] using hlast

theorem State.evictUploader_check (s : State) (position : Position) :
    s.evictUploader.1.checkStartPosition position = s.checkStartPosition position := by
  have hpending : State.checkStartPosition.checkPending s.evictUploader.1 position =
      State.checkStartPosition.checkPending s position := by
    unfold State.checkStartPosition.checkPending State.evictUploader State.terminateUploader
    cases hu : s.uploader with
    | none => rfl
    | some uploader => cases hp : s.pending <;> simp
  simp only [State.checkStartPosition, State.evictUploader_downloader, hpending]

theorem State.startUpload_answers (s : State) (token : Token) (position : Position)
    (reply : Waiter) :
    Concludes reply (s.checkStartPosition position) (s.startUpload token position reply).2 := by
  rw [← s.evictUploader_check]
  rcases s.startUpload_cases token position reply with ⟨error, hcheck, hs⟩ | ⟨hcheck, hs⟩
  · rw [hcheck, hs]
    exact ⟨_, rfl⟩
  · rw [hcheck, hs]
    exact ⟨_, rfl⟩

/-- A downloader that is connected has no chunk held for it, so that its position and the end
of such a chunk are never both asked for. -/
theorem PositionsAgree.start_at (h : PositionsAgree s)
    (hcheck : s.checkStartPosition position = .error (.position x)) :
    s.checkStartPosition x = .ok () := by
  rw [State.checkStartPosition_eq_ok]
  cases hd : s.downloader with
  | connected d =>
    have hno := h.no_data d
    constructor
    · rintro _ ⟨⟩
      by_cases hp : position = d.position
      · exfalso
        have hok : s.checkStartPosition position = .ok () :=
          State.checkStartPosition_eq_ok.mpr ⟨fun e he => by
            rw [hd] at he
            cases he
            exact hp, fun chunk waiter pending size hdata =>
              absurd hdata (hno chunk waiter pending size hd)⟩
        rw [hok] at hcheck
        cases hcheck
      · simp only [State.checkStartPosition, hd, if_pos hp] at hcheck
        cases hcheck
        rfl
    · intro chunk waiter pending size hdata
      exact absurd hdata (hno chunk waiter pending size hd)
  | disconnected =>
    refine ⟨nofun, fun chunk waiter pending size hdata => ?_⟩
    simp only [State.checkStartPosition, hd, State.checkStartPosition.checkPending, hdata] at hcheck
    split_ifs at hcheck
    cases hcheck
    rfl
  | finished =>
    refine ⟨nofun, fun chunk waiter pending size hdata => ?_⟩
    simp only [State.checkStartPosition, hd, State.checkStartPosition.checkPending, hdata] at hcheck
    split_ifs at hcheck
    cases hcheck
    rfl

/-- `check_start_upload` changes nothing and gives the answer of `start_upload`; and an upload
that starts where the answer says, after either of them, is let in. -/
theorem resume_handshake (hrun : (sessionTask metadata).Run tr session) (position : Position)
    (token : Token) (checked started : Waiter) :
    (session.state.handle (.checkStartUpload position checked)).state = session.state ∧
    ∃ result,
      (session.state.handle (.checkStartUpload position checked)).effects =
        [replyUpload checked result] ∧
      Concludes started result (session.state.handle (.startUpload token position started)).effects ∧
      ∀ x, result = .error (.position x) →
        ∀ s, s = (session.state.handle (.checkStartUpload position checked)).state ∨
            s = (session.state.handle (.startUpload token position started)).state →
          ∀ token reply, Concludes reply (.ok ()) (s.handle (.startUpload token x reply)).effects := by
  have hagree := (positions_agree hrun).1
  refine ⟨rfl, session.state.checkStartPosition position, rfl,
    session.state.startUpload_answers token position started, fun x hx s hs token' reply => ?_⟩
  have hat := hagree.start_at hx
  rcases hs with rfl | rfl
  · have hanswers := session.state.startUpload_answers token' x reply
    rw [hat] at hanswers
    exact hanswers
  · have hrefused : (session.state.startUpload token position started).1 =
        session.state.evictUploader.1 := by
      rcases session.state.startUpload_cases token position started with ⟨_, _, hs⟩ | ⟨hok, _⟩
      · rw [hs]
      · rw [session.state.evictUploader_check, hx] at hok
        cases hok
    have hanswers := session.state.evictUploader.1.startUpload_answers token' x reply
    rw [session.state.evictUploader_check, hat, ← hrefused] at hanswers
    exact hanswers

theorem resume_handshake_held : ∃ tr session,
    (sessionTask "").exec (sessionTask "").init
      [.startUpload 1 0 1, .uploadData 1 (.more ⟨0, [1, 2]⟩) 2] = some (tr, session) ∧
    (session.state.handle (.checkStartUpload 0 3)).effects =
      [replyUpload 3 (.error (.position 2))] ∧
    ∃ result,
      (session.state.handle (.checkStartUpload 0 3)).effects = [replyUpload 3 result] ∧
      Concludes 4 result (session.state.handle (.startUpload 5 0 4)).effects := by
  have hexec : (sessionTask "").exec (sessionTask "").init
      [.startUpload 1 0 1, .uploadData 1 (.more ⟨0, [1, 2]⟩) 2] = some (_, _) := rfl
  obtain ⟨-, result, hchecked, hstarted, -⟩ :=
    resume_handshake (EventMachine.exec_run _ hexec) 0 5 3 4
  exact ⟨_, _, hexec, rfl, result, hchecked, hstarted⟩

def Refused (c : Command) (os : List Effect) : Prop :=
  ∃ token position reply error, c = .startUpload token position reply ∧
    Concludes reply (.error error) os

def RefusesAlone (session : Session) : Command → Prop
  | .startUpload _ position _ =>
    session.state.checkStartPosition position ≠ .ok () → session.state.uploader = none
  | _ => True

def RefusalsKept (metadata : String) (tr : Trace Command Effect) : Prop :=
  tr.Each fun pre c os => ∀ t u, (sessionTask metadata).Run pre t → t.step c = some (u, os) →
    Refused c os → u.state = t.state

theorem State.evictUploader_eq_self_iff : s.evictUploader.1 = s ↔ s.uploader = none := by
  unfold State.evictUploader
  cases hu : s.uploader with
  | none => simp
  | some uploader =>
    simp only [reduceCtorEq, iff_false]
    intro h
    have huploader := congrArg State.uploader h
    simp [hu] at huploader

theorem Session.refused_iff (hstep : session.step c = some (next, os)) :
    (Refused c os → next.state = session.state) ↔ RefusesAlone session c := by
  obtain ⟨-, rfl, rfl⟩ := Session.step_eq_some.mp hstep
  cases c with
  | startUpload token position reply =>
    have hanswers := session.state.startUpload_answers token position reply
    rcases session.state.startUpload_cases token position reply with ⟨error, hcheck, hs⟩ | ⟨hok, _⟩
    · rw [session.state.evictUploader_check] at hcheck
      have hrefused : Refused (.startUpload token position reply)
          (session.state.handle (.startUpload token position reply)).effects :=
        ⟨token, position, reply, error, rfl, hcheck ▸ hanswers⟩
      have hstate : (session.state.handle (.startUpload token position reply)).state =
          session.state.evictUploader.1 := by simp only [State.handle, hs]
      simp only [hrefused, true_implies, hstate, State.evictUploader_eq_self_iff, RefusesAlone,
        hcheck, ne_eq, reduceCtorEq, not_false_eq_true]
    · rw [session.state.evictUploader_check] at hok
      have hnot : ¬Refused (.startUpload token position reply)
          (session.state.handle (.startUpload token position reply)).effects := by
        rintro ⟨_, _, _, error, ⟨⟩, herror⟩
        have hresult := hanswers.unique herror
        rw [hok] at hresult
        cases hresult
      simp only [hnot, false_implies, RefusesAlone, hok, ne_eq, not_true_eq_false]
  | _ =>
    refine ⟨fun _ => trivial, fun _ => ?_⟩
    rintro ⟨_, _, _, _, ⟨⟩, _⟩

/-- A run keeps the session as it was in every refusal exactly if no one who is refused finds
an uploader connected. -/
theorem refusals_change_nothing (hrun : (sessionTask metadata).Run tr session) :
    RefusalsKept metadata tr ↔
      (sessionTask metadata).Path RefusesAlone (Session.spawn metadata) tr session := by
  refine hrun.guarded_iff_history (P := fun tr _ => RefusalsKept metadata tr) Trace.each_nil ?_
  intro tr t c u os hpath hstep
  rw [RefusalsKept, Trace.each_snoc, ← Session.refused_iff hstep]
  refine and_congr_right fun _ => ⟨fun h => h t u hpath hstep, fun h t' u' hpath' hstep' => ?_⟩
  obtain rfl := hpath.deterministic hpath'
  obtain ⟨rfl, -⟩ := Prod.mk.inj (Option.some.inj (hstep.symm.trans hstep'))
  exact h

theorem refusals_change_nothing_alone : ∃ tr session,
    (sessionTask "").exec (sessionTask "").init
      [.startDownload ⟨0, 5, 0⟩ 1, .startUpload 2 0 3] = some (tr, session) ∧
    Refused (.startUpload 2 0 3) [replyUpload 3 (.error (.position 5))] ∧
    RefusalsKept "" tr := by
  have hexec : (sessionTask "").exec (sessionTask "").init
      [.startDownload ⟨0, 5, 0⟩ 1, .startUpload 2 0 3] = some (_, _) := rfl
  refine ⟨_, _, hexec, ⟨2, 0, 3, .position 5, rfl, [], rfl⟩, ?_⟩
  refine (refusals_change_nothing (EventMachine.exec_run _ hexec)).mpr ?_
  exact .snoc (.snoc (.refl : EventMachine.Path _ _ _ [] _) trivial rfl) (fun _ => rfl) rfl

/-- The uploader whose chunk is held is evicted by a newcomer that may not start: its call is
answered that it was replaced, and no uploader is left. -/
theorem refusal_evicts : ¬∀ tr session, (sessionTask "").Run tr session → RefusalsKept "" tr := by
  intro h
  have hpre : (sessionTask "").exec (sessionTask "").init
      [.startUpload 1 0 1, .uploadData 1 (.more ⟨0, [1, 2]⟩) 2] = some (_, _) := rfl
  have hexec : (sessionTask "").exec (sessionTask "").init
      [.startUpload 1 0 1, .uploadData 1 (.more ⟨0, [1, 2]⟩) 2, .startUpload 3 0 4] =
      some (_, _) := rfl
  have hkept := h _ _ (EventMachine.exec_run _ hexec) [_, _] (.startUpload 3 0 4) _ [] rfl _ _
    (EventMachine.exec_run _ hpre) rfl ⟨3, 0, 4, .position 2, rfl, [_], rfl⟩
  have huploader := congrArg State.uploader hkept
  cases huploader

end Glopfile.Relay
