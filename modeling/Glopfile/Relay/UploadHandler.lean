import Glopfile.Relay.UploadAnswers
import Glopfile.Relay.UploadLoop

/-!
# The upload handlers of the system run `upload`

A handler of the system stops at every await and goes on with an event. What it has read and been
answered by then makes `upload` do what the handler has done; what it would still read and be
answered makes `upload` go on as the handler would. So the calls and the response of a request are
those of `upload`, for the items that its handler has read and the answers it was given.
-/

namespace Glopfile.Relay

open EventMachine (Trace)

variable {metadata : String} {r r' : System} {e : SystemEvent} {os : List Output}
  {tr : Trace SystemEvent Output} {token : Token} {c : Command} {task task' : Option UploadTask}
  {body items : List BodyItem} {answers given : List UploadResult} {calls made : List UploadCall}
  {response : Option Response}

def Chunk.call : Chunk → UploadCall
  | .more data => .more data.data
  | .final data => .final data.data

def Command.callFrom (token : Token) : Command → Option UploadCall
  | .uploadData other chunk _ => if other = token then some chunk.call else none
  | _ => none

def callsFrom (token : Token) (cs : List Command) : List UploadCall :=
  cs.filterMap (Command.callFrom token)

def SystemEvent.item (token : Token) : SystemEvent → Option BodyItem
  | .uploadBody other item => if other = token then some item else none
  | _ => none

def itemsRead (token : Token) (tr : Trace SystemEvent Output) : List BodyItem :=
  tr.filterMap fun x => x.1.item token

def System.answerTo (r : System) (token : Token) (e : SystemEvent) : Option UploadResult :=
  if e = .uploadResume token then
    (((r.uploads token).bind UploadTask.awaits).bind r.response).map uploadAnswer
  else none

def answering (metadata : String) (token : Token) :
    EventMachine (System × List UploadResult) SystemEvent Output :=
  (relaySystem metadata).withGhost [] fun r answers e _ => answers ++ (r.answerTo token e).toList

/-! ### What a handler still does -/

def uploadFlushing (body : List BodyItem) : List UploadResult → List UploadCall × Option Response
  | [] => ([], none)
  | started :: answers => upload started body answers

/-- `upload` from its start: `start_upload` and `flush_upload` are answered before the body is
read. -/
def uploadHandler (body : List BodyItem) : List UploadResult → List UploadCall × Option Response
  | [] => ([], none)
  | .error error :: _ => ([], some (uploadError error))
  | .ok () :: answers => uploadFlushing body answers

def uploadSending (next : Option (List UInt8)) (body : List BodyItem) :
    List UploadResult → List UploadCall × Option Response
  | [] => ([], none)
  | .error error :: _ => ([], some (uploadError error))
  | .ok () :: answers =>
    match next with
    | none => ([], some .ok)
    | some data => uploadLoop answers (some data) ⟨body, false⟩

/-- What a handler that has responded as `response` says, if it has, still does with the rest of
its body and of its answers. -/
def uploadRest (response : Option Response) (task : Option UploadTask) (body : List BodyItem)
    (answers : List UploadResult) : List UploadCall × Option Response :=
  match task with
  | none | some (.starting _) => uploadHandler body answers
  | some (.flushing _) => uploadFlushing body answers
  | some (.reading none) => upload (.ok ()) body answers
  | some (.reading (some data)) => uploadLoop answers (some data.data) ⟨body, false⟩
  | some (.sending next _) => uploadSending (next.map Bytes.data) body answers
  | some .ended => ([], response)

def withCalls (calls : List UploadCall) (rest : List UploadCall × Option Response) :
    List UploadCall × Option Response := (calls ++ rest.1, rest.2)

theorem uploadLoop_more (data next : List UInt8) :
    uploadLoop answers (some data) ⟨.chunk next :: body, false⟩ =
      withCalls [.more data] (uploadSending (some next) body answers) := by
  unfold uploadLoop
  cases answers with
  | nil => rfl
  | cons answer answers =>
    cases answer with
    | ok _ => rfl
    | error error => rfl

theorem uploadLoop_eof (body : List BodyItem) {next : Option (List UInt8)} {fuse fuse' : Fuse}
    (h : fuse.next = (.eof, fuse')) :
    uploadLoop answers next fuse =
      withCalls [.final (next.getD [])] (uploadSending none body answers) := by
  rw [uploadLoop_last h]
  cases answers with
  | nil => rfl
  | cons answer answers =>
    cases answer with
    | ok _ => rfl
    | error error => rfl

/-! ### What an event does for a handler -/

structure GoesOn (r : System) (token : Token) (items : List BodyItem) (given : List UploadResult)
    (made : List UploadCall) (response : Option Response) (r' : System) : Prop where
  session : r'.session = r.session
  queue : callsFrom token r'.queue =
    callsFrom token r.queue ++ if r.session.running then made else []
  waits : r'.uploads token ≠ some .ended → response = none
  rest : ∀ body later, uploadRest none (r.uploads token) (items ++ body) (given ++ later) =
    withCalls made (uploadRest response (r'.uploads token) body later)

@[simp] theorem callsFrom_append {cs ds : List Command} :
    callsFrom token (cs ++ ds) = callsFrom token cs ++ callsFrom token ds := List.filterMap_append

theorem System.callsFrom_send :
    callsFrom token (r.send c).queue =
      callsFrom token r.queue ++ if r.session.running then callsFrom token [c] else [] := by
  unfold send
  split_ifs <;> simp

namespace GoesOn
variable {t : System} {task : UploadTask}

theorem quiet (hsession : t.session = r.session) (hqueue : t.queue = r.queue)
    (hrest : ∀ body later, uploadRest none (r.uploads token) (items ++ body) (given ++ later) =
      uploadRest none (some task) body later) :
    GoesOn r token items given [] none (t.setUpload token task) where
  session := hsession
  queue := by
    show callsFrom token t.queue = _
    simp [hqueue]
  waits _ := rfl
  rest body later := by
    show _ = withCalls [] (uploadRest none (Function.update t.uploads token (some task) token) _ _)
    rw [Function.update_self, hrest]
    rfl

theorem send (hsession : t.session = r.session) (hqueue : t.queue = r.queue)
    (hcalls : callsFrom token [c] = made) (hwaits : task ≠ .ended → response = none)
    (hrest : ∀ body later, uploadRest none (r.uploads token) (items ++ body) (given ++ later) =
      withCalls made (uploadRest response (some task) body later)) :
    GoesOn r token items given made response ((t.setUpload token task).send c) where
  session := hsession
  queue := by
    rw [System.callsFrom_send, hcalls]
    show callsFrom token t.queue ++ (if t.session.running then made else []) = _
    rw [hqueue, hsession]
  waits hne := hwaits fun hended => hne ((Function.update_self _ _ _).trans (congrArg some hended))
  rest body later := by
    show _ = withCalls made
      (uploadRest response (Function.update t.uploads token (some task) token) _ _)
    rw [Function.update_self, hrest]

theorem respond {said : Response}
    (hrest : ∀ body later, uploadRest none (r.uploads token) (items ++ body) (given ++ later) =
      ([], some said)) :
    GoesOn r token items given [] (some said) (r.respond token said).1 :=
  send rfl rfl rfl (fun hne => absurd rfl hne) hrest

end GoesOn

theorem Resumed.handled {task : UploadTask} {answer : UploadResult} {waiter : Waiter}
    (h : Resumed r token task answer (r', os)) (htask : r.uploads token = some task)
    (hawaits : task.awaits = some waiter) :
    ∃ response, os = (response.map (Output.responded token)).toList ∧
      GoesOn r token [] [answer] [] response r' := by
  cases h with
  | flushes =>
    refine ⟨none, rfl, .send (t := r.draw 1) rfl rfl rfl (fun _ => rfl) fun body later => ?_⟩
    rw [htask]
    rfl
  | starts =>
    refine ⟨none, rfl, .quiet rfl rfl fun body later => ?_⟩
    rw [htask]
    rfl
  | goesOn =>
    refine ⟨none, rfl, .quiet rfl rfl fun body later => ?_⟩
    rw [htask]
    rfl
  | done =>
    refine ⟨some .ok, rfl, .respond fun body later => ?_⟩
    rw [htask]
    rfl
  | @refused _ error =>
    refine ⟨some (uploadError error), rfl, .respond fun body later => ?_⟩
    rw [htask]
    cases task with
    | starting reply | flushing reply | sending next reply => rfl
    | reading data | ended => cases hawaits

theorem uploadBody_goesOn {item : BodyItem} (h : r.uploadBody token item = some (r', os)) :
    ∃ made response, os = (response.map (Output.responded token)).toList ∧
      GoesOn r token [item] [] made response r' := by
  unfold System.uploadBody at h
  split at h
  · next data htask =>
    cases h
    refine ⟨[], some readFailed, rfl, .respond fun body later => ?_⟩
    rw [htask]
    cases data with
    | none => rfl
    | some data =>
      show uploadLoop later _ _ = _
      unfold uploadLoop
      rfl
  · next data htask =>
    cases h
    refine ⟨[], none, rfl, .quiet (t := r.draw 1) rfl rfl fun body later => ?_⟩
    rw [htask]
    rfl
  · next htask =>
    cases h
    refine ⟨[.final []], none, rfl, .send (t := r.draw 2) rfl rfl ?_ (fun _ => rfl) fun body later => ?_⟩
    · simp [callsFrom, Command.callFrom, Chunk.call]
    · rw [htask]
      exact uploadLoop_eof body rfl
  · next data next htask =>
    cases h
    refine ⟨[.more data.data], none, rfl, .send (t := r.draw 2) rfl rfl ?_ (fun _ => rfl) fun body later => ?_⟩
    · simp [callsFrom, Command.callFrom, Chunk.call]
    · rw [htask]
      exact uploadLoop_more data.data next
  · next data htask =>
    cases h
    refine ⟨[.final data.data], none, rfl, .send (t := r.draw 1) rfl rfl ?_ (fun _ => rfl) fun body later => ?_⟩
    · simp [callsFrom, Command.callFrom, Chunk.call]
    · rw [htask]
      exact uploadLoop_eof body rfl
  · cases h

/-! ### What the events of others do for a handler -/

theorem callsFrom_elsewhere (h : Change r e r' os) (hquiet : os.filterMap Output.handling = [])
    (huploads : r'.uploads token = r.uploads token ∨ r.uploads token = none) :
    callsFrom token r'.queue = callsFrom token r.queue := by
  have hnone {t : System} {d : Command} (hqueue : t.queue = r.queue)
      (hcall : d.callFrom token = none) :
      callsFrom token (t.send d).queue = callsFrom token r.queue := by
    rw [System.callsFrom_send, hqueue]
    simp [callsFrom, hcall]
  -- Only the handler itself sends a chunk, and its task changes.
  have hchunk {t : System} {other : Token} {task : UploadTask} {chunk : Chunk}
      {next : Option Bytes} (hqueue : t.queue = r.queue)
      (htask : r.uploads other = some task) (hne : ∀ reply, task ≠ .sending next reply)
      (hr' : r' = (t.sendChunk other chunk next).1) :
      callsFrom token r'.queue = callsFrom token r.queue := by
    subst hr'
    refine hnone hqueue (if_neg ?_)
    rintro rfl
    rcases huploads with hsame | hnew
    · have hset : ((t.sendChunk other chunk next).1).uploads other =
          some (.sending next t.fresh) := Function.update_self _ _ _
      rw [hset, htask] at hsame
      exact hne _ (Option.some.inj hsame).symm
    · rw [htask] at hnew
      cases hnew
  cases h with
  | turn => cases hquiet
  | request hplain =>
    refine hnone rfl ?_
    rcases hplain with rfl | rfl | ⟨position, rfl⟩ <;> rfl
  | uploadEmpty htask => exact hchunk (t := r.draw 1) rfl htask (fun _ h => nomatch h) rfl
  | uploadMore htask => exact hchunk (t := r.draw 1) rfl htask (fun _ h => nomatch h) rfl
  | uploadFinal htask => exact hchunk (t := r) rfl htask (fun _ h => nomatch h) rfl
  | download | upload | websocket => exact hnone rfl rfl
  | downloadReplaced | downloadEnded | uploadFlushing | uploadResponded | uploadCancelled
  | websocketFrame | websocketEnded => exact hnone rfl rfl
  | _ => rfl

/-! ### What a handler has done in a run -/

def Handed (token : Token) (tr : Trace SystemEvent Output) (r : System)
    (calls : List UploadCall) : Prop :=
  ∃ rest, callsFrom token ((handledIn tr).map Prod.fst) ++ callsFrom token r.queue ++ rest =
    calls ∧ (r.session.running = true → rest = [])

theorem Handed.adds (h : Handed token tr r calls) (hsession : r'.session = r.session)
    (hqueue : callsFrom token r'.queue =
      callsFrom token r.queue ++ if r.session.running then made else [])
    (hquiet : os.filterMap Output.handling = []) :
    Handed token (tr ++ [(e, os)]) r' (calls ++ made) := by
  obtain ⟨rest, rfl, hrest⟩ := h
  rw [Handed, handledIn_snoc, hquiet, List.append_nil, hqueue, hsession]
  split_ifs with hrunning
  · exact ⟨[], by simp [hrest hrunning], fun _ => rfl⟩
  · exact ⟨rest ++ made, by simp, fun hrunning' => absurd hrunning' hrunning⟩

theorem Handed.turn {rest : List Command} {session : Session} {effects : List Effect}
    (h : Handed token tr r calls) (hqueue : r.queue = c :: rest)
    (hstep : r.session.step c = some (session, effects)) :
    Handed token (tr ++ [(e, [.handled c effects])])
      (effects.foldl System.deliver
        { r with session := session, queue := if session.running then rest else [] }) calls := by
  obtain ⟨lost, rfl, hlost⟩ := h
  obtain rfl := hlost (Session.step_eq_some.mp hstep).1
  have hhead : callsFrom token r.queue = callsFrom token [c] ++ callsFrom token rest := by
    rw [hqueue, ← callsFrom_append, List.singleton_append]
  rw [Handed, handledIn_turn, System.deliverAll_queue, System.deliverAll_session, hhead]
  refine ⟨if session.running then [] else callsFrom token rest, ?_, fun hrunning => if_pos hrunning⟩
  rw [List.map_append, callsFrom_append]
  split_ifs <;> simp [callsFrom]

theorem Handed.elsewhere (h : Handed token tr r calls) (hchange : Change r e r' os)
    (htask : r'.uploads token = r.uploads token ∨ r.uploads token = none) :
    Handed token (tr ++ [(e, os)]) r' calls := by
  have hkept (hquiet : os.filterMap Output.handling = []) (hsession : r'.session = r.session) :
      Handed token (tr ++ [(e, os)]) r' calls := by
    have hadds : Handed token (tr ++ [(e, os)]) r' (calls ++ []) :=
      h.adds hsession (by simp [callsFrom_elsewhere hchange hquiet htask]) hquiet
    rwa [List.append_nil] at hadds
  cases hchange with
  | turn hqueue hturn => exact h.turn hqueue hturn
  | _ => exact hkept rfl rfl

/-- Up to here the handler has done what `upload` does: it has made these calls, it responded if
`upload` has, and goes on as `upload` does. -/
structure Follows (token : Token) (tr : Trace SystemEvent Output) (r : System)
    (given : List UploadResult) (calls : List UploadCall) (response : Option Response) : Prop where
  handed : Handed token tr r calls
  said : ∀ other, Output.responded token other ∈ outputs tr → response = some other
  waits : r.uploads token ≠ some .ended → response = none
  rest : ∀ body later, uploadHandler (itemsRead token tr ++ body) (given ++ later) =
    withCalls calls (uploadRest response (r.uploads token) body later)

namespace Follows

theorem elsewhere (h : Follows token tr r given calls response) (hfresh : r.Fresh)
    (hstep : r.step e = some (r', os)) (hother : e.uploader ≠ some token) :
    Follows token (tr ++ [(e, os)]) r' given calls response := by
  have hitem : e.item token = none := by
    cases e with
    | uploadBody other item => exact if_neg fun heq => hother (congrArg some heq)
    | _ => rfl
  have hitems : itemsRead token (tr ++ [(e, os)]) = itemsRead token tr := by
    simp [itemsRead, hitem]
  have hsilent (other : Response) : Output.responded token other ∉ os := fun hmem =>
    hother (System.uploader_of_responded hfresh hstep hmem)
  have hhanded := h.handed.elsewhere (System.step_change hstep)
  have hsaid (other : Response) (hmem : Output.responded token other ∈ outputs (tr ++ [(e, os)])) :
      response = some other := by
    rw [outputs_snoc] at hmem
    exact h.said other ((List.mem_append.mp hmem).resolve_right (hsilent other))
  by_cases hnew : ∃ position, e = .upload position ∧ token = r.fresh
  · obtain ⟨position, rfl, rfl⟩ := hnew
    have hnone := hfresh.uploads r.fresh (Nat.le_refl _)
    have htask : r'.uploads r.fresh = some (.starting (r.fresh + 1)) := by
      cases hstep
      exact Function.update_self _ _ _
    refine ⟨hhanded (.inr hnone), hsaid, fun _ => h.waits (by rw [hnone]; nofun), ?_⟩
    intro body later
    rw [hitems, h.rest body later, hnone, htask]
    rfl
  · have hsame := (System.step_frame hstep hother fun position he heq =>
      hnew ⟨position, he, heq⟩).1
    refine ⟨hhanded (.inl hsame), hsaid, ?_, ?_⟩
    · rw [hsame]
      exact h.waits
    · intro body later
      rw [hitems, h.rest body later, hsame]

theorem goesOn {response' : Option Response} (h : Follows token tr r given calls response)
    (halive : r.uploads token ≠ some .ended)
    (hgoes : GoesOn r token items answers made response' r')
    (hos : os = (response'.map (Output.responded token)).toList)
    (hitems : (e.item token).toList = items) :
    Follows token (tr ++ [(e, os)]) r' (given ++ answers) (calls ++ made) response' := by
  obtain rfl := h.waits halive
  have hread : itemsRead token (tr ++ [(e, os)]) = itemsRead token tr ++ items := by
    rw [← hitems, itemsRead, itemsRead, List.filterMap_append]
    cases hitem : e.item token <;> simp [hitem]
  have hquiet : os.filterMap Output.handling = [] := by
    rw [hos]
    cases response' <;> rfl
  refine ⟨h.handed.adds hgoes.session hgoes.queue hquiet, fun other hmem => ?_, hgoes.waits,
    fun body later => ?_⟩
  · rw [outputs_snoc] at hmem
    rcases List.mem_append.mp hmem with hmem | hmem
    · cases h.said other hmem
    · rw [hos] at hmem
      cases response' with
      | none => cases hmem
      | some response =>
        obtain ⟨-, rfl⟩ := Output.responded.inj (List.mem_singleton.mp hmem)
        rfl
  · rw [hread, List.append_assoc, List.append_assoc, h.rest, hgoes.rest]
    simp [withCalls]

theorem step (h : Follows token tr r given calls response) (hfresh : r.Fresh)
    (hstep : r.step e = some (r', os)) (hdrop : e ≠ .uploadDrop token) :
    ∃ calls response, Follows token (tr ++ [(e, os)]) r'
      (given ++ (r.answerTo token e).toList) calls response := by
  by_cases hevent : e.uploader = some token
  · cases e with
    | uploadResume other =>
      obtain rfl : other = token := Option.some.inj hevent
      obtain ⟨task, waiter, answer, htask, hawaits, hresponse, hresumed⟩ :=
        System.uploadResume_resumed hstep
      obtain ⟨response', hos, hgoes⟩ := hresumed.handled htask hawaits
      have hanswer : r.answerTo other (.uploadResume other) = some (System.uploadAnswer answer) := by
        simp [System.answerTo, htask, hawaits, hresponse]
      rw [hanswer]
      refine ⟨_, _, h.goesOn ?_ hgoes hos rfl⟩
      rw [htask]
      rintro ⟨⟩
      cases hawaits
    | uploadBody other item =>
      obtain rfl : other = token := Option.some.inj hevent
      obtain ⟨made, response', hos, hgoes⟩ := uploadBody_goesOn hstep
      refine ⟨_, _, h.goesOn (fun hended => ?_) hgoes hos (by simp [SystemEvent.item])⟩
      simp [System.step, System.uploadBody, hended] at hstep
    | uploadDrop other => exact absurd (congrArg _ (Option.some.inj hevent)) hdrop
    | _ => cases hevent
  · have hanswer : r.answerTo token e = none := by
      refine if_neg ?_
      rintro rfl
      exact hevent rfl
    rw [hanswer, Option.toList_none, List.append_nil]
    exact ⟨calls, response, h.elsewhere hfresh hstep hevent⟩

theorem spawn : Follows token [] (System.spawn metadata) [] [] none where
  handed := ⟨[], rfl, fun _ => rfl⟩
  said _ := List.not_mem_nil.elim
  waits _ := rfl
  rest _ _ := rfl

end Follows

/-- In a run in which the client of a request stays, its handler makes the calls of `upload` for
the items it has read and the answers it was given, and responds as `upload` does. The session
handles these calls in their order. -/
theorem handler_is_upload
    (h : (answering metadata token).Path (fun _ e => e ≠ .uploadDrop token)
      (System.spawn metadata, []) tr (r, given)) :
    ∃ calls, Handed token tr r calls ∧
      (∀ response, Output.responded token response ∈ outputs tr →
        uploadHandler (itemsRead token tr) given = (calls, some response)) ∧
      ∀ body later,
        calls <+: (uploadHandler (itemsRead token tr ++ body) (given ++ later)).1 := by
  obtain ⟨calls, response, hfollows⟩ : ∃ calls response,
      Follows token tr r given calls response := by
    refine h.history (P := fun tr p => ∃ calls response,
      Follows token tr p.1 p.2 calls response) ⟨[], none, .spawn⟩ ?_
    rintro tr ⟨r, given⟩ e ⟨r', given'⟩ os hpath ⟨calls, response, ih⟩ hdrop hstep
    obtain ⟨hnext, rfl⟩ := EventMachine.withGhost_step.mp hstep
    exact ih.step (System.Fresh.of_run hpath.forget) hnext hdrop
  refine ⟨calls, hfollows.handed, fun said hmem => ?_, fun body later => ?_⟩
  · obtain rfl := hfollows.said said hmem
    have hended : r.uploads token = some .ended := by
      by_contra hne
      cases hfollows.waits hne
    have hrest := hfollows.rest [] []
    rw [hended, List.append_nil, List.append_nil] at hrest
    rw [hrest, uploadRest, withCalls, List.append_nil]
  · rw [hfollows.rest]
    exact List.prefix_append _ _

end Glopfile.Relay
