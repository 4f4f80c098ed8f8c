import Glopfile.Relay.Range
import Glopfile.Relay.Uploads

/-!
# The declared range of an upload

The header of an upload request says where its body starts and how large the content is. The
start is the position of the upload. The handler sends the last item of the body as the final
chunk, and does not look at what the header says of the end.

Requests are named by the tokens they are given; `headers` has the `Content-Range` of each.
-/

namespace Glopfile.Relay

open EventMachine (Trace)
open HeaderText

def declaredRange (contentRange : Option HeaderValue) : Option (Position × Position × ℕ) := do
  let value ← contentRange
  let text ← toStr value
  let spec ← text.dropPrefix? "bytes ".toList
  let (range, size) ← rsplitOnce '/' (trim spec)
  if range = ['*'] then none
  else do
    let (start, last) ← splitOnce '-' range
    let start ← parsePosition start
    let last ← parsePosition last
    let size ← parsePosition size
    some (start, last, size)

/-- A request whose header is refused does not reach the session. -/
def admits (headers : Token → Option HeaderValue) (r : System) : SystemEvent → Bool
  | .upload position => uploadPosition (headers r.fresh) = .ok position
  | _ => true

def requestSystem (metadata : String) (headers : Token → Option HeaderValue) :
    EventMachine System SystemEvent Output :=
  (relaySystem metadata).restrict fun r e => admits headers r e

def SystemEvent.bodyLength (token : Token) : SystemEvent → ℕ
  | .uploadBody other (.chunk data) => if other = token then data.length else 0
  | _ => 0

def bodyLength (token : Token) (tr : Trace SystemEvent Output) : ℕ :=
  (tr.map fun x => x.1.bodyLength token).sum

def Declares (headers : Token → Option HeaderValue) (token : Token) (length : ℕ) : Prop :=
  ∀ start last size, declaredRange (headers token) = some (start, last, size) →
    start + length = size

def FinalsDeclared (headers : Token → Option HeaderValue) (tr : Trace SystemEvent Output)
    (r : System) : Prop :=
  ∀ token data waiter, Sent tr r (.uploadData token (.final data) waiter) →
    Declares headers token (bodyLength token tr)

/-- Every body that is read to its end, while its session runs, ends where its header says. -/
def EndsDeclared (metadata : String) (headers : Token → Option HeaderValue)
    (tr : Trace SystemEvent Output) : Prop :=
  ∀ pre token os suf r, tr = pre ++ (.uploadBody token .eof, os) :: suf →
    (requestSystem metadata headers).Run pre r → r.session.running = true →
    Declares headers token (bodyLength token pre)

variable {metadata : String} {headers : Token → Option HeaderValue} {r r' : System}
  {e : SystemEvent} {os : List Output} {tr : Trace SystemEvent Output} {token : Token}
  {waiter : Waiter} {s : State} {c d : Command} {data : Bytes} {chunk : Chunk}

/-- The handler has sent its final chunk, or is gone: it reads no more of its body. -/
def System.Closed (r : System) (token : Token) : Prop :=
  r.uploads token = some .ended ∨ ∃ reply, r.uploads token = some (.sending none reply)

def System.Reading (r : System) (token : Token) : Prop :=
  ∃ data, r.uploads token = some (.reading data)

structure BodyStep (r : System) (e : SystemEvent) (r' : System) : Prop where
  queued : ∀ token data waiter, Command.uploadData token (.final data) waiter ∈ r'.queue →
    Command.uploadData token (.final data) waiter ∈ r.queue ∨
      e = .uploadBody token .eof ∧ r.session.running = true
  closed : ∀ token, r.Closed token → r'.Closed token
  ended : ∀ token, e = .uploadBody token .eof → r.Reading token ∧ r'.Closed token ∧
    (r.session.running = true → ∃ data waiter,
      Command.uploadData token (.final data) waiter ∈ r'.queue)
  read : ∀ token data, e = .uploadBody token (.chunk data) → r.Reading token

def Command.finals : Command → Bool
  | .uploadData _ (.final _) _ => true
  | _ => false

theorem Command.finals_of_caller (h : c.caller = none) : c.finals = false := by
  cases c with
  | uploadData token chunk reply => cases h
  | _ => rfl

theorem System.not_closed_of_reading (h : r.Reading token) : ¬r.Closed token := by
  obtain ⟨data, hreading⟩ := h
  rintro (hended | ⟨reply, hsending⟩)
  · simp [hreading] at hended
  · simp [hreading] at hsending

namespace BodyStep

theorem other {t : System} (he : ∀ token item, e ≠ .uploadBody token item)
    (hqueue : ∀ c ∈ t.queue, c ∈ r.queue ∨ c.finals = false)
    (hclosed : ∀ token, r.Closed token → t.Closed token) : BodyStep r e t where
  queued token data waiter hmem := by
    rcases hqueue _ hmem with hold | hnot
    · exact .inl hold
    · cases hnot
  closed := hclosed
  ended token heq := absurd heq (he token .eof)
  read token data heq := absurd heq (he token (.chunk data))

theorem closed_update {t : System} {task : UploadTask} (huploads : t.uploads =
    Function.update r.uploads token (some task)) (htask : ¬r.Closed token ∨ task = .ended)
    (other : Token) (h : r.Closed other) : t.Closed other := by
  by_cases ho : other = token
  · subst ho
    rcases htask with hnot | rfl
    · exact absurd h hnot
    · exact .inl (by rw [huploads, Function.update_self])
  · simpa [System.Closed, huploads, Function.update_of_ne ho] using h

theorem mem_send {t : System} (hqueue : t.queue = r.queue) (hd : d.finals = false)
    (hc : c ∈ (t.send d).queue) : c ∈ r.queue ∨ c.finals = false := by
  unfold System.send at hc
  rw [hqueue] at hc
  split_ifs at hc
  · rcases List.mem_append.mp hc with hc | hc
    · exact .inl hc
    · exact .inr (List.mem_singleton.mp hc ▸ hd)
  · exact .inl hc

theorem besides (he : ∀ token item, e ≠ .uploadBody token item) (h : r.Besides r' os) :
    BodyStep r e r' :=
  .other he (fun c hc => (h.queue c hc).imp_right Command.finals_of_caller) fun token hclosed => by
    simpa [System.Closed, h.uploads] using hclosed

theorem leaves (he : ∀ token item, e ≠ .uploadBody token item) :
    BodyStep r e (r.dropUpload token) :=
  .other he (fun _ hc => mem_send rfl rfl hc) (closed_update rfl (.inr rfl))

theorem uploadResume (h : r.uploadResume token = some (r', os)) :
    BodyStep r (.uploadResume token) r' := by
  have hopen : ∀ {task}, r.uploads token = some task → task ≠ .ended →
      (∀ reply, task ≠ .sending none reply) → ¬r.Closed token := by
    rintro task htask hne hsending (hended | ⟨reply, hclosed⟩)
    · exact hne (Option.some.inj (htask.symm.trans hended))
    · exact hsending reply (Option.some.inj (htask.symm.trans hclosed))
  have he : ∀ other item, SystemEvent.uploadResume token ≠ .uploadBody other item := nofun
  obtain ⟨task, waiter, answer, htask, -, -, hresumed⟩ := System.uploadResume_resumed h
  generalize System.uploadAnswer answer = result at hresumed
  cases hresumed with
  | flushes =>
    exact .other he (fun _ hc => mem_send rfl rfl hc)
      (closed_update rfl (.inl (hopen htask nofun nofun)))
  | starts =>
    exact .other he (fun _ hc => .inl hc) (closed_update rfl (.inl (hopen htask nofun nofun)))
  | goesOn =>
    exact .other he (fun _ hc => .inl hc) (closed_update rfl (.inl (hopen htask nofun nofun)))
  | done => exact .leaves he
  | refused => exact .leaves he

theorem failed : BodyStep r (.uploadBody token .failed) (r.dropUpload token) where
  queued other data waiter hmem := by
    rcases mem_send (r := r) rfl rfl hmem with hold | hnot
    · exact .inl hold
    · cases hnot
  closed := closed_update rfl (.inr rfl)
  ended other heq := by cases heq
  read other data heq := by cases heq

theorem item {t : System} {task : UploadTask} (data : List UInt8) (htask : r.Reading token)
    (hqueue : ∀ c ∈ t.queue, c ∈ r.queue ∨ c.finals = false)
    (huploads : t.uploads = Function.update r.uploads token (some task)) :
    BodyStep r (.uploadBody token (.chunk data)) t where
  queued other data waiter hmem := by
    rcases hqueue _ hmem with hold | hnot
    · exact .inl hold
    · cases hnot
  closed := closed_update huploads (.inl (System.not_closed_of_reading htask))
  ended other heq := by cases heq
  read other data heq := by
    obtain rfl := (SystemEvent.uploadBody.inj heq).1
    exact htask

theorem eof {t : System} (htask : r.Reading token) (data : Bytes) (hqueue : t.queue = r.queue)
    (hsession : t.session = r.session) (huploads : t.uploads = r.uploads) :
    BodyStep r (.uploadBody token .eof) (t.sendChunk token (.final data) none).1 where
  queued other data' waiter hmem := by
    have hc : Command.uploadData other (.final data') waiter ∈
        (((t.draw 1).setUpload token (.sending none t.fresh)).send
          (.uploadData token (.final data) t.fresh)).queue := hmem
    unfold System.send at hc
    split_ifs at hc with hrunning
    · rcases List.mem_append.mp hc with hc | hc
      · exact .inl (hqueue ▸ hc)
      · obtain ⟨rfl, -⟩ := Command.uploadData.inj (List.mem_singleton.mp hc)
        exact .inr ⟨rfl, hsession ▸ hrunning⟩
    · exact .inl (hqueue ▸ hc)
  closed := by
    have hnext : (t.sendChunk token (.final data) none).1.uploads =
        Function.update r.uploads token (some (.sending none t.fresh)) := by
      rw [← huploads]
      rfl
    exact closed_update hnext (.inl (System.not_closed_of_reading htask))
  ended other heq := by
    obtain rfl := (SystemEvent.uploadBody.inj heq).1
    refine ⟨htask, .inr ⟨t.fresh, Function.update_self _ _ _⟩, fun hrunning => ?_⟩
    refine ⟨data, t.fresh, ?_⟩
    rw [← hsession] at hrunning
    exact (System.send_queue (r := (t.draw 1).setUpload token (.sending none t.fresh))
      hrunning).symm ▸ List.mem_append_right _ List.mem_cons_self
  read other data heq := by cases heq

theorem uploadBody {read : BodyItem} (h : r.uploadBody token read = some (r', os)) :
    BodyStep r (.uploadBody token read) r' := by
  unfold System.uploadBody at h
  split at h
  · next htask =>
    cases h
    exact failed
  · next htask =>
    cases h
    exact item _ ⟨_, htask⟩ (fun _ hc => .inl hc) rfl
  · next htask =>
    cases h
    exact eof ⟨_, htask⟩ _ rfl rfl rfl
  · next htask =>
    cases h
    exact item _ ⟨_, htask⟩ (fun _ hc => mem_send rfl rfl hc) rfl
  · next htask =>
    cases h
    exact eof ⟨_, htask⟩ _ rfl rfl rfl
  · cases h

theorem turn (h : r.turn = some (r', os)) : BodyStep r .turn r' := by
  obtain ⟨c, rest, session, effects, hqueue, hstep, rfl, rfl⟩ := System.turn_eq_some h
  refine .other (by simp) (fun d hd => .inl ?_) fun token hclosed => by
    simpa [System.Closed] using hclosed
  rw [System.deliverAll_queue] at hd
  dsimp only at hd
  split_ifs at hd
  · rw [hqueue]
    exact List.mem_cons_of_mem _ hd
  · cases hd

theorem upload {position : Position} (hfresh : r.Fresh) :
    BodyStep r (.upload position) (r.upload position).1 := by
  have hopen : ¬r.Closed r.fresh := by
    simp [System.Closed, hfresh.uploads r.fresh (Nat.le_refl _)]
  exact .other (by simp) (fun _ hc => mem_send rfl rfl hc) (closed_update rfl (.inl hopen))

theorem of_step (hfresh : r.Fresh) (h : r.step e = some (r', os)) : BodyStep r e r' := by
  have hbesides (he : e.uploader = none) (hturn : e ≠ .turn)
      (hupload : ∀ position, e ≠ .upload position) : BodyStep r e r' :=
    .besides (fun token item heq => by rw [heq] at he; cases he)
      (System.step_besides h he hturn hupload)
  cases e with
  | turn => exact turn h
  | upload position =>
    cases h
    exact upload hfresh
  | uploadResume token => exact uploadResume h
  | uploadBody token item => exact uploadBody h
  | uploadDrop token =>
    simp only [System.step, System.uploadDrop] at h
    split at h
    · cases h
      exact .leaves (by simp)
    · cases h
  | _ => exact hbesides rfl (by simp) (by simp)

end BodyStep

@[simp] theorem bodyLength_snoc :
    bodyLength token (tr ++ [(e, os)]) = bodyLength token tr + e.bodyLength token := by
  simp [bodyLength]

theorem step_of_request (h : (requestSystem metadata headers).step r e = some (r', os)) :
    r.step e = some (r', os) := by
  simp only [requestSystem, EventMachine.restrict] at h
  split_ifs at h
  exact h

theorem sent_final_step (hfresh : r.Fresh) (hstep : r.step e = some (r', os))
    (h : Sent (tr ++ [(e, os)]) r' (.uploadData token (.final data) waiter)) :
    Sent tr r (.uploadData token (.final data) waiter) ∨
      e = .uploadBody token .eof ∧ r.session.running = true := by
  rcases h with ⟨effects, hmem⟩ | hmem
  · rw [handledIn_snoc] at hmem
    rcases List.mem_append.mp hmem with hmem | hmem
    · exact .inl (.inl ⟨effects, hmem⟩)
    · cases System.step_change hstep with
      | turn hqueue hturn =>
        obtain ⟨rfl, -⟩ := Prod.mk.inj (List.mem_singleton.mp hmem)
        exact .inl (.inr (by simp [hqueue]))
      | _ => simp [Output.handling] at hmem
  · rcases (BodyStep.of_step hfresh hstep).queued token data waiter hmem with hmem | hended
    · exact .inl (.inr hmem)
    · exact .inr hended

theorem sent_final_closed (hrun : (relaySystem metadata).Run tr r)
    (h : Sent tr r (.uploadData token (.final data) waiter)) : r.Closed token := by
  revert h
  refine hrun.history (P := fun tr r =>
    Sent tr r (.uploadData token (.final data) waiter) → r.Closed token) ?_ ?_
  · simp [Sent, handledIn, relaySystem, System.spawn]
  · intro tr r e r' os hpath ih _ hstep hsent
    have hbody := BodyStep.of_step (System.Fresh.of_run hpath) hstep
    rcases sent_final_step (System.Fresh.of_run hpath) hstep hsent with hold | ⟨rfl, -⟩
    · exact hbody.closed token (ih hold)
    · exact (hbody.ended token rfl).2.1

theorem FinalsDeclared.step (hrun : (relaySystem metadata).Run tr r)
    (h : FinalsDeclared headers tr r) (hstep : r.step e = some (r', os))
    (hends : ∀ token, e = .uploadBody token .eof → r.session.running = true →
      Declares headers token (bodyLength token tr)) :
    FinalsDeclared headers (tr ++ [(e, os)]) r' := by
  intro token data waiter hsent
  have hbody := BodyStep.of_step (System.Fresh.of_run hrun) hstep
  rw [bodyLength_snoc]
  rcases sent_final_step (System.Fresh.of_run hrun) hstep hsent with hold | ⟨rfl, hrunning⟩
  · have hclosed := sent_final_closed hrun hold
    have hnone : e.bodyLength token = 0 := by
      cases e with
      | uploadBody other item =>
        cases item with
        | chunk bytes =>
          refine if_neg ?_
          rintro rfl
          exact System.not_closed_of_reading (hbody.read other bytes rfl) hclosed
        | eof => rfl
        | failed => rfl
      | _ => rfl
    rw [hnone]
    exact h token data waiter hold
  · exact hends token rfl hrunning

theorem finalsDeclared_iff (hrun : (requestSystem metadata headers).Run tr r) :
    (∀ pre suf v, tr = pre ++ suf → (requestSystem metadata headers).Run pre v →
      FinalsDeclared headers pre v) ↔ EndsDeclared metadata headers tr := by
  constructor
  · rintro hall pre token os suf v rfl hpre hrunning
    obtain ⟨t, hpre', hpath⟩ := hrun.split
    obtain rfl := hpre.deterministic hpre'
    obtain ⟨t', hstep, -⟩ := hpath.uncons
    have hbody := BodyStep.of_step (System.Fresh.of_run (EventMachine.Path.of_restrict hpre))
      (step_of_request hstep)
    obtain ⟨data, waiter, hmem⟩ := (hbody.ended token rfl).2.2 hrunning
    have hfinals := hall (pre ++ [(.uploadBody token .eof, os)]) suf t' (by simp)
      (.snoc hpre trivial hstep)
    simpa [SystemEvent.bodyLength] using hfinals token data waiter (.inr hmem)
  · intro hends pre suf v hpre hpath
    refine hpath.history (P := fun pre v => ∀ suf, tr = pre ++ suf → FinalsDeclared headers pre v)
      ?_ ?_ suf hpre
    · intro _ _ token data waiter hsent
      simp [Sent, handledIn, requestSystem, EventMachine.restrict, relaySystem, System.spawn]
        at hsent
    · intro pre t e t' os hpath ih _ hstep suf hsuf
      have hbefore : tr = pre ++ (e, os) :: suf := by rw [hsuf, List.append_assoc]; rfl
      refine (ih _ hbefore).step (EventMachine.Path.of_restrict hpath) (step_of_request hstep) ?_
      rintro token rfl hrunning
      exact hends pre token os suf t hbefore hpath hrunning

theorem handle_pending_chunk {reply : Option Waiter} {position : Position} {size : ℕ}
    (h : (s.handle c).state.pending = .data chunk reply position size) :
    (∃ token waiter, c = .uploadData token chunk waiter) ∨
      ∃ reply' position' size', s.pending = .data chunk reply' position' size' := by
  cases handle_pending_data h with
  | sent hc _ _ => exact .inl ⟨_, _, hc⟩
  | flushed _ _ hp => exact .inr ⟨_, _, _, hp⟩
  | kept hp => exact .inr ⟨_, _, _, hp⟩
  | answered hp => exact .inr ⟨_, _, _, hp⟩

theorem chunk_not_mem_replaceDownloader {events : Sender} :
    Effect.event events chunk.intoEvent ∉ s.replaceDownloader := by
  unfold State.replaceDownloader
  cases chunk <;> cases s.downloader <;> simp [Chunk.intoEvent]

theorem intoEvent_inj {chunk' : Chunk} (h : chunk.intoEvent = chunk'.intoEvent) :
    chunk = chunk' := by
  cases chunk <;> cases chunk' <;> simp_all [Chunk.intoEvent]

theorem handle_event_chunk {events : Sender}
    (h : Effect.event events chunk.intoEvent ∈ (s.handle c).effects) :
    (∃ token waiter, c = .uploadData token chunk waiter) ∨
      ∃ reply position size, s.pending = .data chunk reply position size := by
  have ho := s.handled c
  generalize s.handle c = o at ho h
  cases ho with
  | answered => cases List.mem_singleton.mp h
  | released hp =>
    simp only [List.mem_append, List.mem_cons, chunk_not_mem_replaceDownloader,
      event_mem_sendUploadProgress, event_mem_replyTo, reduceCtorEq, List.not_mem_nil, false_or,
      or_false, Effect.event.injEq] at h
    obtain rfl := intoEvent_inj h.2
    exact .inr ⟨_, _, _, hp⟩
  | downloads | finishTold | finishIdle | finishHeld =>
    simp [chunk_not_mem_replaceDownloader, replyUpload] at h
  | startRefused | starts =>
    obtain ⟨held, hheld⟩ := s.evictUploader_effects
    simp [hheld, replyUpload] at h
  | @relays token position chunk' w =>
    simp only [List.mem_cons, List.mem_append, event_mem_sendUploadProgress, replyUpload,
      reduceCtorEq, List.not_mem_nil, or_false, Effect.event.injEq] at h
    obtain rfl := intoEvent_inj h.2
    exact .inl ⟨token, w, rfl⟩
  | signals _ hos => exact absurd h hos.event
  | holds | flushes | downloaderLeft | uploaderLeft | uploaderDone | ignored => cases h

theorem chunk_uploaded {log : Trace Command Effect} {session : Session}
    (hrun : (sessionTask metadata).Run log session) :
    (∀ chunk reply position size, session.state.pending = .data chunk reply position size →
      ∃ token waiter call, (.uploadData token chunk waiter, call) ∈ log) ∧
    ∀ c effects events chunk, (c, effects) ∈ log → Effect.event events chunk.intoEvent ∈ effects →
      ∃ token waiter call, (.uploadData token chunk waiter, call) ∈ log := by
  refine hrun.history (P := fun log session =>
    (∀ chunk reply position size, session.state.pending = .data chunk reply position size →
      ∃ token waiter call, (.uploadData token chunk waiter, call) ∈ log) ∧
    ∀ c effects events chunk, (c, effects) ∈ log → Effect.event events chunk.intoEvent ∈ effects →
      ∃ token waiter call, (.uploadData token chunk waiter, call) ∈ log) ⟨nofun, nofun⟩ ?_
  rintro log session c next effects _ ⟨hpending, hsent⟩ _ hstep
  obtain ⟨-, rfl, rfl⟩ := Session.step_eq_some.mp hstep
  have hold : ∀ {chunk}, (∃ token waiter call, (Command.uploadData token chunk waiter, call) ∈ log) →
      ∃ token waiter call, (Command.uploadData token chunk waiter, call) ∈
        log ++ [(c, (session.state.handle c).effects)] := by
    rintro chunk ⟨token, waiter, call, hmem⟩
    exact ⟨token, waiter, call, List.mem_append_left _ hmem⟩
  have hnow : ∀ {chunk}, ((∃ token waiter, c = .uploadData token chunk waiter) ∨
      ∃ reply position size, session.state.pending = .data chunk reply position size) →
      ∃ token waiter call, (Command.uploadData token chunk waiter, call) ∈
        log ++ [(c, (session.state.handle c).effects)] := by
    rintro chunk (⟨token, waiter, rfl⟩ | ⟨reply, position, size, hp⟩)
    · exact ⟨token, waiter, _, List.mem_append_right _ (List.mem_singleton_self _)⟩
    · exact hold (hpending _ _ _ _ hp)
  refine ⟨fun chunk reply position size hp => hnow (handle_pending_chunk hp), ?_⟩
  intro d effects events chunk hmem hevent
  rcases List.mem_append.mp hmem with hmem | hmem
  · exact hold (hsent d effects events chunk hmem hevent)
  · obtain ⟨rfl, rfl⟩ := Prod.mk.inj (List.mem_singleton.mp hmem)
    exact hnow (handle_event_chunk hevent)

theorem mem_channels_of_deliverAll {effects : List Effect} {event : DownloadEvent}
    (h : event ∈ (effects.foldl System.deliver r).channels token) :
    event ∈ r.channels token ∨ Effect.event token event ∈ effects := by
  induction effects generalizing r with
  | nil => exact .inl h
  | cons o effects ih =>
    rw [List.foldl_cons] at h
    rcases ih h with h | h
    · cases o with
      | event events sent =>
        simp only [System.deliver] at h
        split_ifs at h
        · by_cases ht : token = events
          · subst ht
            simp only [System.setChannel, Function.update_self, List.mem_append,
              List.mem_singleton] at h
            rcases h with h | rfl
            · exact .inl h
            · exact .inr List.mem_cons_self
          · exact .inl (by simpa [System.setChannel, ht] using h)
        · exact .inl h
      | websocket commands command =>
        simp only [System.deliver] at h
        split_ifs at h <;> exact .inl h
      | reply waiter reply => exact .inl h
    · exact .inr (List.mem_cons_of_mem o h)

structure Carried (tr : Trace SystemEvent Output) (r : System) : Prop where
  channels : ∀ token, ∀ event ∈ r.channels token,
    ∃ c effects, (c, effects) ∈ handledIn tr ∧ Effect.event token event ∈ effects
  taken : ∀ token event, Output.took token event ∈ outputs tr →
    ∃ c effects, (c, effects) ∈ handledIn tr ∧ Effect.event token event ∈ effects

namespace Carried

theorem frame {t : System} (h : Carried tr r)
    (hchannels : ∀ token, ∀ event ∈ t.channels token, event ∈ r.channels token ∨
      ∃ c effects, Output.handled c effects ∈ os ∧ Effect.event token event ∈ effects)
    (htaken : ∀ token event, Output.took token event ∈ os → event ∈ r.channels token) :
    Carried (tr ++ [(e, os)]) t := by
  have hgrow : ∀ {token event}, (∃ c effects, (c, effects) ∈ handledIn tr ∧
      Effect.event token event ∈ effects) → ∃ c effects,
      (c, effects) ∈ handledIn (tr ++ [(e, os)]) ∧ Effect.event token event ∈ effects := by
    rintro token event ⟨c, effects, hmem, hevent⟩
    exact ⟨c, effects, by rw [handledIn_snoc]; exact List.mem_append_left _ hmem, hevent⟩
  refine ⟨fun token event hmem => ?_, fun token event hmem => ?_⟩
  · rcases hchannels token event hmem with hmem | ⟨c, effects, hhandled, hevent⟩
    · exact hgrow (h.channels token event hmem)
    · refine ⟨c, effects, ?_, hevent⟩
      rw [handledIn_snoc]
      exact List.mem_append_right _ (List.mem_filterMap.mpr ⟨_, hhandled, rfl⟩)
  · rw [outputs_snoc] at hmem
    rcases List.mem_append.mp hmem with hmem | hmem
    · exact hgrow (h.taken token event hmem)
    · exact hgrow (h.channels token event (htaken token event hmem))

theorem of_run (hrun : (relaySystem metadata).Run tr r) : Carried tr r := by
  refine hrun.history (P := fun tr r => Carried tr r) ⟨nofun, nofun⟩ ?_
  intro tr r e r' os _ h _ hstep
  -- The channel of one download gets shorter.
  have hshrink : ∀ {token} {channel : List DownloadEvent}, channel ⊆ r.channels token →
      ∀ other, ∀ event ∈ Function.update r.channels token channel other,
        event ∈ r.channels other := by
    intro token channel hsub other event hmem
    by_cases ho : other = token
    · subst ho
      rw [Function.update_self] at hmem
      exact hsub hmem
    · rwa [Function.update_of_ne ho] at hmem
  cases System.step_change hstep with
  | turn hqueue hturn =>
    refine h.frame (fun token event hmem => ?_) (by simp)
    rcases mem_channels_of_deliverAll hmem with hmem | hevent
    · exact .inl hmem
    · exact .inr ⟨_, _, List.mem_singleton_self _, hevent⟩
  | downloadMore htask hchannel | downloadFinal htask hchannel =>
    refine h.frame (fun token event hmem => .inl (hshrink ?_ token event hmem)) ?_
    · rw [hchannel]
      exact List.subset_cons_self _ _
    · intro token event hmem
      obtain ⟨rfl, rfl⟩ := Output.took.inj (List.mem_singleton.mp hmem)
      rw [hchannel]
      exact List.mem_cons_self
  | downloadReplaced htask hchannel =>
    refine h.frame (fun token event hmem => .inl (hshrink (List.nil_subset _) token event hmem)) ?_
    intro token event hmem
    obtain ⟨rfl, rfl⟩ := Output.took.inj (List.mem_singleton.mp hmem)
    rw [hchannel]
    exact List.mem_cons_self
  | downloadRefused | downloadEnded | downloadCancelled =>
    exact h.frame (fun token event hmem => .inl (hshrink (List.nil_subset _) token event hmem))
      (by simp)
  | uploadResponded => exact h.frame (fun _ _ hmem => .inl hmem) (by simp)
  | _ => exact h.frame (fun _ _ hmem => .inl hmem) nofun

end Carried

structure Completed (tr : Trace SystemEvent Output) (r : System) : Prop where
  streaming : ∀ token, r.downloads token = some (.streaming true) →
    ∃ data, Output.took token (.final data) ∈ outputs tr
  sent : ∀ token, Sent tr r (.disconnected token (.downloader true)) →
    ∃ data, Output.took token (.final data) ∈ outputs tr

namespace Completed

theorem frame {t : System} (h : Completed tr r)
    (hstreaming : ∀ token, t.downloads token = some (.streaming true) →
      r.downloads token = some (.streaming true) ∨
        ∃ data, Output.took token (.final data) ∈ os)
    (hsent : ∀ token, Sent (tr ++ [(e, os)]) t (.disconnected token (.downloader true)) →
      Sent tr r (.disconnected token (.downloader true)) ∨
        r.downloads token = some (.streaming true)) :
    Completed (tr ++ [(e, os)]) t := by
  have hgrow : ∀ {token}, (∃ data, Output.took token (.final data) ∈ outputs tr) →
      ∃ data, Output.took token (.final data) ∈ outputs (tr ++ [(e, os)]) := by
    rintro token ⟨data, hmem⟩
    exact ⟨data, by rw [outputs_snoc]; exact List.mem_append_left _ hmem⟩
  refine ⟨fun token htask => ?_, fun token hmem => ?_⟩
  · rcases hstreaming token htask with hold | ⟨data, htook⟩
    · exact hgrow (h.streaming token hold)
    · exact ⟨data, by rw [outputs_snoc]; exact List.mem_append_right _ htook⟩
  · rcases hsent token hmem with hold | hold
    · exact hgrow (h.sent token hold)
    · exact hgrow (h.streaming token hold)

theorem of_run (hrun : (relaySystem metadata).Run tr r) : Completed tr r := by
  refine hrun.history (P := fun tr r => Completed tr r) ⟨?_, ?_⟩ ?_
  · intro token htask
    cases htask
  · simp [Sent, handledIn, relaySystem, System.spawn]
  intro tr r e r' os _ h _ hstep
  have hquiet : ∀ {t : System} {os' : List Output}, os'.filterMap Output.handling = [] →
      t.queue = r.queue → ∀ token,
      Sent (tr ++ [(e, os')]) t (.disconnected token (.downloader true)) →
      Sent tr r (.disconnected token (.downloader true)) ∨
        r.downloads token = some (.streaming true) :=
    fun hos hqueue token hsent => .inl (sent_quiet hos hqueue hsent)
  have hsend : ∀ {t : System} {d : Command} {os' : List Output},
      os'.filterMap Output.handling = [] → t.queue = r.queue →
      (∀ token, d = .disconnected token (.downloader true) →
        r.downloads token = some (.streaming true)) → ∀ token,
      Sent (tr ++ [(e, os')]) (t.send d) (.disconnected token (.downloader true)) →
      Sent tr r (.disconnected token (.downloader true)) ∨
        r.downloads token = some (.streaming true) := by
    intro t d os' hos hqueue hd token hsent
    rcases sent_send hos hqueue hsent with hold | heq
    · exact .inl hold
    · exact .inr (hd token heq.symm)
  -- One download goes on to something else than having completed.
  have hset : ∀ {token} {task : DownloadTask}, task ≠ .streaming true → ∀ other,
      Function.update r.downloads token (some task) other = some (.streaming true) →
      r.downloads other = some (.streaming true) ∨
        ∃ data, Output.took other (.final data) ∈ os := by
    intro token task htask other hother
    by_cases ho : other = token
    · subst ho
      rw [Function.update_self] at hother
      exact absurd (Option.some.inj hother) htask
    · rw [Function.update_of_ne ho] at hother
      exact .inl hother
  cases System.step_change hstep with
  | turn hqueue hturn =>
    refine h.frame (fun token htask => .inl (by simpa using htask)) fun token hsent => .inl ?_
    refine sent_turn hqueue System.deliverAll_queue ?_ hsent
    dsimp only
    split_ifs
    · exact List.Sublist.refl _
    · exact List.nil_sublist _
  | request hplain =>
    refine h.frame (fun token htask => .inl htask) (hsend rfl rfl ?_)
    rcases hplain with rfl | rfl | ⟨_, rfl⟩ <;> simp
  | download => exact h.frame (hset (by simp)) (hsend rfl rfl (by simp))
  | downloadStarted htask hreply => exact h.frame (hset (by simp)) (hquiet rfl rfl)
  | downloadRefused htask hreply hheld => exact h.frame (hset (by simp)) (hquiet rfl rfl)
  | downloadMore htask hchannel => exact h.frame (fun _ htask => .inl htask) (hquiet rfl rfl)
  | @downloadFinal _ token data rest htask hchannel =>
    refine h.frame (fun other hother => ?_) (hquiet rfl rfl)
    by_cases ho : other = token
    · subst ho
      exact .inr ⟨data, List.mem_singleton_self _⟩
    · exact .inl (by simpa [System.setDownload, System.setChannel, ho] using hother)
  | downloadReplaced htask hchannel => exact h.frame (hset (by simp)) (hsend rfl rfl (by simp))
  | downloadEnded htask =>
    refine h.frame (hset (by simp)) (hsend rfl rfl fun other heq => ?_)
    obtain ⟨rfl, hpeer⟩ := Command.disconnected.inj heq
    rw [htask, (Peer.downloader.inj hpeer)]
  | downloadCancelled htask => exact h.frame (hset (by simp)) (hquiet rfl rfl)
  | upload | uploadFlushing | uploadEmpty | uploadMore | uploadFinal | uploadResponded
  | uploadCancelled | websocket | websocketFrame | websocketEnded =>
    exact h.frame (fun _ htask => .inl htask) (hsend rfl rfl (by simp))
  | uploadReading | uploadRead | websocketStarted | websocketRefused | websocketSent =>
    exact h.frame (fun _ htask => .inl htask) (hquiet rfl rfl)

end Completed

/-- The final chunk of an upload is sent at the declared end of its content, in every state of
a run, exactly when every body that is read to its end ends there; and then no download that
completes was sent a body of another length. -/
theorem final_is_declared_end (hrun : (requestSystem metadata headers).Run tr r) :
    ((∀ pre suf v, tr = pre ++ suf → (requestSystem metadata headers).Run pre v →
      FinalsDeclared headers pre v) ↔ EndsDeclared metadata headers tr) ∧
    (EndsDeclared metadata headers tr → ∀ download effects,
      (Command.disconnected download (.downloader true), effects) ∈ handledIn tr →
      ∃ token data waiter call, Output.took download (.final data) ∈ outputs tr ∧
        (.uploadData token (.final data) waiter, call) ∈ handledIn tr ∧
        Declares headers token (bodyLength token tr)) := by
  refine ⟨finalsDeclared_iff hrun, fun hends download effects hcompleted => ?_⟩
  have hrelay : (relaySystem metadata).Run tr r := EventMachine.Path.of_restrict hrun
  obtain ⟨data, htook⟩ := (Completed.of_run hrelay).sent download (.inl ⟨effects, hcompleted⟩)
  obtain ⟨c, os, hmem, hevent⟩ := (Carried.of_run hrelay).taken download _ htook
  obtain ⟨token, waiter, call, hcall⟩ :=
    (chunk_uploaded (handledIn_run hrelay)).2 c os download (.final data) hmem hevent
  have hfinals := (finalsDeclared_iff hrun).mpr hends tr [] r (List.append_nil tr).symm hrun
  exact ⟨token, data, waiter, call, htook, hcall, hfinals token data waiter (.inl ⟨call, hcall⟩)⟩

def firstHeader (text : String) : Token → Option HeaderValue
  | 0 => some (encode text.toList)
  | _ => none

def twoByteBody : List SystemEvent :=
  [.upload 0, .turn, .uploadResume 0, .turn, .uploadResume 0, .uploadBody 0 (.chunk [1, 2]),
    .uploadBody 0 .eof, .turn, .download 0, .turn, .downloadResume 5, .downloadPoll 5,
    .downloadPoll 5, .turn]

theorem final_is_declared_end_matched : ∃ tr r,
    (requestSystem "" (firstHeader "bytes 0-1/2")).exec (System.spawn "") twoByteBody =
        some (tr, r) ∧
    Output.took 5 (.final ⟨3, [1, 2]⟩) ∈ outputs tr ∧ r.session.running = false ∧
    ((∀ pre suf v, tr = pre ++ suf → (requestSystem "" (firstHeader "bytes 0-1/2")).Run pre v →
      FinalsDeclared (firstHeader "bytes 0-1/2") pre v) ↔
        EndsDeclared "" (firstHeader "bytes 0-1/2") tr) := by
  have hexec : (requestSystem "" (firstHeader "bytes 0-1/2")).exec (System.spawn "") twoByteBody =
      some (_, _) := rfl
  exact ⟨_, _, hexec, List.mem_of_getElem? (i := 4) rfl, rfl,
    (final_is_declared_end (EventMachine.exec_run _ hexec)).1⟩

/-- A body of two bytes that is declared as ten completes its download as well. -/
theorem final_before_declared_end : ∃ tr r,
    (requestSystem "" (firstHeader "bytes 0-9/10")).exec (System.spawn "")
      twoByteBody = some (tr, r) ∧
    uploadPosition (firstHeader "bytes 0-9/10" 0) = .ok 0 ∧
    Output.took 5 (.final ⟨3, [1, 2]⟩) ∈ outputs tr ∧ r.session.running = false ∧
    ¬FinalsDeclared (firstHeader "bytes 0-9/10") tr r := by
  obtain ⟨tr, r, hexec, htook, hended, hcall, hlength⟩ : ∃ tr r,
      (requestSystem "" (firstHeader "bytes 0-9/10")).exec (System.spawn "")
        twoByteBody = some (tr, r) ∧
      Output.took 5 (.final ⟨3, [1, 2]⟩) ∈ outputs tr ∧ r.session.running = false ∧
      (Command.uploadData 0 (.final ⟨3, [1, 2]⟩) 4, []) ∈ handledIn tr ∧ bodyLength 0 tr = 2 :=
    ⟨_, _, rfl, List.mem_of_getElem? (i := 4) rfl, rfl, List.mem_of_getElem? (i := 2) rfl, rfl⟩
  refine ⟨tr, r, hexec, by decide, htook, hended, fun hfinals => ?_⟩
  have hdeclared := hfinals 0 ⟨3, [1, 2]⟩ 4 (.inl ⟨[], hcall⟩) 0 9 10 (by decide)
  rw [hlength] at hdeclared
  cases hdeclared

end Glopfile.Relay
