import Glopfile.Relay.PendingCall

/-!
# The calls of the upload handlers

A handler makes one call at a time, and the session keeps at most one reply sender, in the
pending slot. A flush of the current uploader that takes the slot over is the call this
handler waits for, so that the sender it drops is one that nobody waits on.
-/

namespace Glopfile.Relay

open EventMachine (Trace)

variable {metadata : String} {r r' : System} {e : SystemEvent} {os : List Output}
  {tr : Trace SystemEvent Output} {token : Token} {waiter : Waiter} {c d : Command}
  {task : UploadTask}

def System.senders (r : System) : List Waiter :=
  r.queue.filterMap Command.waiter ++ r.session.state.pending.waiter.toList

def System.callers (r : System) : List Token :=
  r.queue.filterMap fun c => c.caller.map Prod.fst

structure Attended (r : System) : Prop where
  fresh : r.Fresh
  distinct : r.senders.Nodup
  unanswered : ∀ waiter, waiter ∈ r.senders → waiter < r.fresh ∧ r.replies waiter = none
  undrawn : ∀ waiter, r.fresh ≤ waiter → r.replies waiter = none
  single : r.callers.Nodup
  asked : ∀ c ∈ r.queue, ∀ token waiter, c.caller = some (token, waiter) →
    ∃ task, r.uploads token = some task ∧ (task.alive = true → task.Asks c)
  departed : ∀ c ∈ r.queue, ∀ token, c.announces = some (.uploader, token) →
    r.uploads token = some .ended
  waiting : r.session.running = true → ∀ token task waiter, r.uploads token = some task →
    task.awaits = some waiter → (r.replies waiter).isSome = true ∨
      (∃ c ∈ r.queue, c.caller = some (token, waiter)) ∨
      r.session.state.pending.waiter = some waiter ∧
        r.session.state.uploaderToken = some token

namespace Attended

theorem call_of_awaits (h : Attended r) (hrunning : r.session.running = true) (hc : c ∈ r.queue)
    (hwaiter : c.waiter = some waiter) (htask : r.uploads token = some task)
    (hawaits : task.awaits = some waiter) : c.caller = some (token, waiter) ∧ task.Asks c := by
  have hdistinct := List.nodup_append.mp h.distinct
  have hqueued : waiter ∈ r.queue.filterMap Command.waiter :=
    List.mem_filterMap.mpr ⟨c, hc, hwaiter⟩
  rcases h.waiting hrunning token task waiter htask hawaits with
    hreplied | ⟨d, hd, hcaller⟩ | ⟨hpending, _⟩
  · have hnone := (h.unanswered waiter (List.mem_append_left _ hqueued)).2
    simp [hnone] at hreplied
  · obtain rfl := filterMap_unique hdistinct.1 hc hd hwaiter (caller_waiter hcaller)
    obtain ⟨task', htask', hasks⟩ := h.asked c hc token waiter hcaller
    obtain rfl := Option.some.inj (htask.symm.trans htask')
    exact ⟨hcaller, hasks (UploadTask.alive_of_awaits hawaits)⟩
  · exact absurd rfl (hdistinct.2.2 waiter hqueued waiter (by simp [hpending]))

section
variable {rest queue : List Command} {session : Session} {effects : List Effect}

theorem sender_of_reply {reply : Reply} (hqueue : r.queue = c :: rest)
    (heffect : Effect.reply waiter reply ∈ (r.session.state.handle c).effects) :
    waiter ∈ r.senders := by
  rcases handle_reply_of heffect with hc | hp
  · exact List.mem_append_left _ (List.mem_filterMap.mpr ⟨c, by simp [hqueue], hc⟩)
  · exact List.mem_append_right _ (by simp [hp])

theorem distinct_head (h : Attended r) (hqueue : r.queue = c :: rest) (hc : c.waiter = some waiter) :
    waiter ∉ rest.filterMap Command.waiter ∧ r.session.state.pending.waiter ≠ some waiter := by
  have hdistinct := h.distinct
  rw [System.senders, hqueue, List.filterMap_cons, hc, List.cons_append, List.nodup_cons,
    List.mem_append, not_or] at hdistinct
  exact ⟨hdistinct.1.1, fun hp => hdistinct.1.2 (by simp [hp])⟩

theorem distinct_pending (h : Attended r) (hqueue : r.queue = c :: rest)
    (hp : r.session.state.pending.waiter = some waiter) :
    waiter ∉ rest.filterMap Command.waiter := by
  intro hmem
  refine (List.nodup_append.mp h.distinct).2.2 waiter ?_ waiter (by simp [hp]) rfl
  rw [hqueue]
  exact ((List.sublist_cons_self c rest).filterMap _).subset hmem

theorem stays (h : Attended r) (hqueue : r.queue = c :: rest) (hsub : queue.Sublist rest)
    (hmem : waiter ∈ queue.filterMap Command.waiter ++
      (r.session.state.handle c).state.pending.waiter.toList) :
    waiter ∈ r.senders ∧
      ∀ reply, Effect.reply waiter reply ∉ (r.session.state.handle c).effects := by
  have hcalled : c.waiter = some waiter → waiter ∈ r.senders := fun hc =>
    List.mem_append_left _ (List.mem_filterMap.mpr ⟨c, by simp [hqueue], hc⟩)
  have hpends : r.session.state.pending.waiter = some waiter → waiter ∈ r.senders := fun hp =>
    List.mem_append_right _ (by simp [hp])
  rcases List.mem_append.mp hmem with hmem | hmem
  · have hrest : waiter ∈ rest.filterMap Command.waiter := (hsub.filterMap _).subset hmem
    refine ⟨List.mem_append_left _ ?_, fun reply heffect => ?_⟩
    · rw [hqueue]
      exact ((List.sublist_cons_self c rest).filterMap _).subset hrest
    · rcases handle_reply_of heffect with hc | hp
      · exact (h.distinct_head hqueue hc).1 hrest
      · exact h.distinct_pending hqueue hp hrest
  · have hp : (r.session.state.handle c).state.pending.waiter = some waiter := by simpa using hmem
    refine ⟨(handle_pending_of hp).elim hcalled hpends, fun reply => ?_⟩
    exact handle_kept hp fun hboth => (h.distinct_head hqueue hboth.1).2 hboth.2

theorem waiting_turn (h : Attended r) (hrunning : r.session.running = true)
    (hqueue : r.queue = c :: rest) (htask : r.uploads token = some task)
    (hawaits : task.awaits = some waiter) :
    (r.replies waiter).isSome = true ∨
      (∃ reply, Effect.reply waiter reply ∈ (r.session.state.handle c).effects) ∨
      (∃ d ∈ rest, d.caller = some (token, waiter)) ∨
      (r.session.state.handle c).state.pending.waiter = some waiter ∧
        (r.session.state.handle c).state.uploaderToken = some token := by
  rcases h.waiting hrunning token task waiter htask hawaits with
    hreplied | ⟨d, hd, hcaller⟩ | ⟨hpending, hu⟩
  · exact .inl hreplied
  · rw [hqueue] at hd
    rcases List.mem_cons.mp hd with rfl | hd
    · rcases handle_waiter (s := r.session.state) (caller_waiter hcaller) with
        heffect | ⟨hp, token', hcaller', hu⟩
      · exact .inr (.inl heffect)
      · obtain ⟨rfl, -⟩ := Prod.mk.inj (Option.some.inj (hcaller.symm.trans hcaller'))
        exact .inr (.inr (.inr ⟨hp, hu⟩))
    · exact .inr (.inr (.inl ⟨d, hd, hcaller⟩))
  · have hc : c ∈ r.queue := by simp [hqueue]
    rcases handle_pending (c := c) hpending hu with heffect | hkept | ⟨reply, rfl⟩ | hleft
    · exact .inr (.inl heffect)
    · exact .inr (.inr (.inr hkept))
    · -- A handler that flushes waits for its flush, not for the sender that is pending.
      obtain ⟨task', htask', hasks⟩ := h.asked _ hc token reply rfl
      obtain rfl := Option.some.inj (htask.symm.trans htask')
      have hflush : task = .flushing reply := hasks (UploadTask.alive_of_awaits hawaits)
      rw [hflush] at hawaits
      obtain rfl := Option.some.inj hawaits
      exact absurd hpending (h.distinct_head hqueue rfl).2
    · rw [h.departed c hc token hleft] at htask
      obtain rfl := Option.some.inj htask
      cases hawaits

theorem settled (h : Attended r) (hrunning : r.session.running = true)
    (hqueue : r.queue = c :: rest) (hmem : waiter ∈ r.senders) :
    (∃ reply, Effect.reply waiter reply ∈ (r.session.state.handle c).effects) ∨
      (waiter ∈ rest.filterMap Command.waiter ∨
        (r.session.state.handle c).state.pending.waiter = some waiter) ∨
      r.session.state.pending.waiter = some waiter ∧
        ∀ token task, r.uploads token = some task → task.awaits ≠ some waiter := by
  rcases List.mem_append.mp hmem with hqueued | hpending
  · obtain ⟨d, hd, hwaiter⟩ := List.mem_filterMap.mp hqueued
    rw [hqueue] at hd
    rcases List.mem_cons.mp hd with rfl | hd
    · rcases handle_waiter (s := r.session.state) hwaiter with heffect | ⟨hp, _⟩
      · exact .inl heffect
      · exact .inr (.inl (.inr hp))
    · exact .inr (.inl (.inl (List.mem_filterMap.mpr ⟨d, hd, hwaiter⟩)))
  · by_cases hwaits : ∃ token task, r.uploads token = some task ∧ task.awaits = some waiter
    · obtain ⟨token, task, htask, hawaits⟩ := hwaits
      rcases h.waiting_turn hrunning hqueue htask hawaits with
        hreplied | heffect | ⟨d, hd, hcaller⟩ | ⟨hp, _⟩
      · have hnone := (h.unanswered waiter hmem).2
        simp [hnone] at hreplied
      · exact .inl heffect
      · exact .inr (.inl (.inl (List.mem_filterMap.mpr ⟨d, hd, caller_waiter hcaller⟩)))
      · exact .inr (.inl (.inr hp))
    · exact .inr (.inr ⟨Option.mem_toList.mp hpending, fun token task htask hawaits =>
        hwaits ⟨token, task, htask, hawaits⟩⟩)

theorem turn (h : Attended r) (hqueue : r.queue = c :: rest)
    (hstep : r.session.step c = some (session, effects)) (hsub : queue.Sublist rest)
    (hall : session.running = true → queue = rest)
    (hfresh : (effects.foldl System.deliver
      { r with session := session, queue := queue }).Fresh) :
    Attended (effects.foldl System.deliver { r with session := session, queue := queue }) := by
  obtain ⟨hrunning, rfl, rfl⟩ := Session.step_eq_some.mp hstep
  have hbefore : queue.Sublist r.queue := by
    rw [hqueue]
    exact hsub.trans (List.sublist_cons_self c rest)
  refine ⟨hfresh, ?_, ?_, ?_, ?_, ?_, ?_, ?_⟩
  · simp only [System.senders, System.deliverAll_queue, System.deliverAll_session]
    refine List.nodup_append.mpr ⟨?_, by cases Pending.waiter _ <;> simp, ?_⟩
    · exact (List.nodup_append.mp h.distinct).1.sublist (hbefore.filterMap _)
    · rintro waiter hmem _ hp rfl
      have hrest := (hsub.filterMap _).subset hmem
      rcases handle_pending_of (by simpa using hp) with hc | hp
      · exact (h.distinct_head hqueue hc).1 hrest
      · exact h.distinct_pending hqueue hp hrest
  · intro waiter hmem
    simp only [System.senders, System.deliverAll_queue, System.deliverAll_session] at hmem
    obtain ⟨hsender, hsilent⟩ := h.stays hqueue hsub hmem
    obtain ⟨hlt, hnone⟩ := h.unanswered waiter hsender
    exact ⟨by simpa using hlt, (System.deliverAll_silent hsilent).trans hnone⟩
  · intro waiter hle
    rw [System.deliverAll_fresh] at hle
    refine (System.deliverAll_silent fun reply heffect => ?_).trans (h.undrawn waiter hle)
    exact absurd (h.unanswered waiter (sender_of_reply hqueue heffect)).1 (Nat.not_lt.mpr hle)
  · simp only [System.callers, System.deliverAll_queue]
    exact h.single.sublist (hbefore.filterMap _)
  · intro d hd token waiter hcaller
    rw [System.deliverAll_queue] at hd
    rw [System.deliverAll_uploads]
    exact h.asked d (hbefore.subset hd) token waiter hcaller
  · intro d hd token hleft
    rw [System.deliverAll_queue] at hd
    rw [System.deliverAll_uploads]
    exact h.departed d (hbefore.subset hd) token hleft
  · intro hrunning' token task waiter htask hawaits
    rw [System.deliverAll_session] at hrunning'
    rw [System.deliverAll_uploads] at htask
    rw [System.deliverAll_queue, System.deliverAll_session, hall hrunning']
    rcases h.waiting_turn hrunning hqueue htask hawaits with hreplied | heffect | hqueued | hheld
    · exact .inl (System.deliverAll_replies_isSome (.inl hreplied))
    · exact .inl (System.deliverAll_replies_isSome (.inr heffect))
    · exact .inr (.inl hqueued)
    · exact .inr (.inr hheld)

end

theorem mem_callers : token ∈ r.callers ↔ ∃ c ∈ r.queue, ∃ waiter, c.caller = some (token, waiter) := by
  simp [System.callers]

theorem not_mem_callers (h : Attended r) (htask : r.uploads token = some task)
    (halive : task.alive = true)
    (hidle : ∀ waiter, task.awaits = some waiter → r.replies waiter ≠ none) :
    token ∉ r.callers := by
  intro hmem
  obtain ⟨c, hc, waiter, hcaller⟩ := mem_callers.mp hmem
  obtain ⟨task', htask', hasks⟩ := h.asked c hc token waiter hcaller
  obtain rfl := Option.some.inj (htask.symm.trans htask')
  refine hidle waiter (Asks.awaits (hasks halive) (caller_waiter hcaller)) ?_
  exact (h.unanswered waiter (List.mem_append_left _
    (List.mem_filterMap.mpr ⟨c, hc, caller_waiter hcaller⟩))).2

theorem mem_extended {t : System} {added : List Command} (hsession : t.session = r.session)
    (hqueue : t.queue = r.queue ++ added) (hmem : waiter ∈ t.senders) :
    waiter ∈ r.senders ∨ ∃ d ∈ added, d.waiter = some waiter := by
  rw [System.senders, hqueue, hsession, List.filterMap_append, List.append_assoc] at hmem
  rcases List.mem_append.mp hmem with hmem | hmem
  · exact .inl (List.mem_append_left _ hmem)
  · rcases List.mem_append.mp hmem with hmem | hmem
    · exact .inr (List.mem_filterMap.mp hmem)
    · exact .inl (List.mem_append_right _ hmem)

theorem distinct_extended {t : System} {d : Command} (h : Attended r)
    (hsession : t.session = r.session) (hqueue : t.queue = r.queue ++ [d])
    (hname : ∀ waiter, d.waiter = some waiter → r.fresh ≤ waiter) : t.senders.Nodup := by
  cases hd : d.waiter with
  | none =>
    rw [System.senders, hqueue, hsession, List.filterMap_append, List.filterMap_cons, hd,
      List.filterMap_nil, List.append_nil]
    exact h.distinct
  | some waiter =>
    have hnew : waiter ∉ r.senders := fun hmem =>
      absurd (h.unanswered waiter hmem).1 (Nat.not_lt.mpr (hname waiter hd))
    have hperm : t.senders.Perm (waiter :: r.senders) := by
      rw [System.senders, hqueue, hsession, List.filterMap_append, List.filterMap_cons, hd,
        List.filterMap_nil, List.append_assoc, List.singleton_append]
      exact List.perm_middle
    exact hperm.nodup_iff.mpr (List.nodup_cons.mpr ⟨hnew, h.distinct⟩)

theorem single_extended {t : System} {d : Command} (h : Attended r)
    (hqueue : t.queue = r.queue ++ [d])
    (hcall : ∀ token waiter, d.caller = some (token, waiter) → token ∉ r.callers) :
    t.callers.Nodup := by
  have hsingle := h.single
  rw [System.callers, hqueue, List.filterMap_append]
  rw [System.callers] at hsingle
  cases hd : d.caller with
  | none => simpa [hd] using hsingle
  | some call =>
    simp only [List.filterMap_cons, hd, Option.map_some, List.filterMap_nil]
    exact List.nodup_append.mpr ⟨h.single, by simp, by
      rintro token hmem _ hlast rfl
      exact hcall call.1 call.2 hd (List.mem_singleton.mp hlast ▸ hmem)⟩

theorem extend {t : System} {added : List Command} (h : Attended r) (hfresh : t.Fresh)
    (hle : r.fresh ≤ t.fresh) (hsession : t.session = r.session) (hreplies : t.replies = r.replies)
    (hqueue : t.queue = r.queue ++ added) (hone : added = [] ∨ ∃ d, added = [d])
    (hnames : ∀ d ∈ added, ∀ waiter, d.waiter = some waiter → r.fresh ≤ waiter ∧ waiter < t.fresh)
    (hcalls : ∀ d ∈ added, ∀ token waiter, d.caller = some (token, waiter) →
      token ∉ r.callers ∧ ∃ task, t.uploads token = some task ∧ task.Asks d)
    (hleaves : ∀ d ∈ added, ∀ token, d.announces = some (.uploader, token) →
      t.uploads token = some .ended)
    (huploads : ∀ token, t.uploads token = r.uploads token ∨
      (token ∉ r.callers ∨ t.uploads token = some .ended) ∧ r.uploads token ≠ some .ended)
    (hwaiting : r.session.running = true → ∀ token task waiter, t.uploads token = some task →
      task.awaits = some waiter → r.uploads token = some task ∨
        ∃ d ∈ added, d.caller = some (token, waiter)) : Attended t := by
  have hsenders : ∀ waiter, waiter ∈ t.senders →
      waiter ∈ r.senders ∨ r.fresh ≤ waiter ∧ waiter < t.fresh :=
    fun waiter hmem => (mem_extended hsession hqueue hmem).imp_right
      fun ⟨d, hd, hwaiter⟩ => hnames d hd waiter hwaiter
  refine ⟨hfresh, ?_, ?_, ?_, ?_, ?_, ?_, ?_⟩
  · rcases hone with rfl | ⟨d, rfl⟩
    · rw [System.senders, hqueue, hsession, List.append_nil]
      exact h.distinct
    · exact distinct_extended h hsession hqueue fun waiter hd => (hnames d (by simp) waiter hd).1
  · intro waiter hmem
    rw [hreplies]
    rcases hsenders waiter hmem with hold | ⟨hge, hlt⟩
    · obtain ⟨hlt, hnone⟩ := h.unanswered waiter hold
      exact ⟨Nat.lt_of_lt_of_le hlt hle, hnone⟩
    · exact ⟨hlt, h.undrawn waiter hge⟩
  · intro waiter hge
    rw [hreplies]
    exact h.undrawn waiter (Nat.le_trans hle hge)
  · rcases hone with rfl | ⟨d, rfl⟩
    · rw [System.callers, hqueue, List.append_nil]
      exact h.single
    · exact single_extended h hqueue fun token waiter hd => (hcalls d (by simp) token waiter hd).1
  · intro c hc token waiter hcaller
    rw [hqueue] at hc
    rcases List.mem_append.mp hc with hc | hc
    · obtain ⟨task, htask, hasks⟩ := h.asked c hc token waiter hcaller
      rcases huploads token with hsame | ⟨hnot | hended, _⟩
      · exact ⟨task, by rw [hsame, htask], hasks⟩
      · exact absurd (mem_callers.mpr ⟨c, hc, waiter, hcaller⟩) hnot
      · exact ⟨.ended, hended, nofun⟩
    · obtain ⟨-, task, htask, hasks⟩ := hcalls c hc token waiter hcaller
      exact ⟨task, htask, fun _ => hasks⟩
  · intro c hc token hleft
    rw [hqueue] at hc
    rcases List.mem_append.mp hc with hc | hc
    · have hended := h.departed c hc token hleft
      rcases huploads token with hsame | ⟨_, hne⟩
      · rw [hsame, hended]
      · exact absurd hended hne
    · exact hleaves c hc token hleft
  · intro hrunning token task waiter htask hawaits
    rw [hsession] at hrunning ⊢
    rw [hreplies, hqueue]
    rcases hwaiting hrunning token task waiter htask hawaits with hold | ⟨d, hd, hcaller⟩
    · rcases h.waiting hrunning token task waiter hold hawaits with
        hreplied | ⟨c, hc, hcaller⟩ | hheld
      · exact .inl hreplied
      · exact .inr (.inl ⟨c, List.mem_append_left _ hc, hcaller⟩)
      · exact .inr (.inr hheld)
    · exact .inr (.inl ⟨d, List.mem_append_right _ hd, hcaller⟩)

theorem send {t : System} (h : Attended r) (d : Command) (hfresh : t.Fresh)
    (hle : r.fresh ≤ t.fresh) (hsession : t.session = r.session) (hreplies : t.replies = r.replies)
    (hqueue : t.queue = if r.session.running then r.queue ++ [d] else r.queue)
    (hname : ∀ waiter, d.waiter = some waiter → r.fresh ≤ waiter ∧ waiter < t.fresh)
    (hcall : ∀ token waiter, d.caller = some (token, waiter) →
      token ∉ r.callers ∧ ∃ task, t.uploads token = some task ∧ task.Asks d)
    (hleaves : ∀ token, d.announces = some (.uploader, token) → t.uploads token = some .ended)
    (huploads : ∀ token, t.uploads token = r.uploads token ∨
      (token ∉ r.callers ∨ t.uploads token = some .ended) ∧ r.uploads token ≠ some .ended)
    (hwaiting : ∀ token task waiter, t.uploads token = some task → task.awaits = some waiter →
      r.uploads token = some task ∨ d.caller = some (token, waiter)) : Attended t := by
  by_cases hrunning : r.session.running = true
  · rw [if_pos hrunning] at hqueue
    refine h.extend hfresh hle hsession hreplies hqueue (.inr ⟨d, rfl⟩) ?_ ?_ ?_ huploads ?_
    · simpa using hname
    · simpa using hcall
    · simpa using hleaves
    · simpa using fun _ => hwaiting
  · rw [if_neg hrunning, ← List.append_nil r.queue] at hqueue
    exact h.extend hfresh hle hsession hreplies hqueue (.inl rfl) nofun nofun nofun huploads
      fun hrun => absurd hrun hrunning

theorem quiet {t : System} (h : Attended r) (hfresh : t.Fresh) (hle : r.fresh ≤ t.fresh)
    (hsession : t.session = r.session) (hreplies : t.replies = r.replies)
    (hqueue : t.queue = r.queue)
    (huploads : ∀ token, t.uploads token = r.uploads token ∨
      (token ∉ r.callers ∨ t.uploads token = some .ended) ∧ r.uploads token ≠ some .ended)
    (hwaiting : ∀ token task waiter, t.uploads token = some task → task.awaits = some waiter →
      r.uploads token = some task) : Attended t :=
  h.extend hfresh hle hsession hreplies (hqueue.trans (List.append_nil _).symm) (.inl rfl) nofun nofun
    nofun huploads fun _ token task waiter htask hawaits =>
      .inl (hwaiting token task waiter htask hawaits)

theorem call {t : System} {task' : UploadTask} (h : Attended r) (d : Command) (hfresh : t.Fresh)
    (hlt : waiter < t.fresh) (hle : r.fresh ≤ waiter) (hsession : t.session = r.session)
    (hreplies : t.replies = r.replies)
    (hqueue : t.queue = if r.session.running then r.queue ++ [d] else r.queue)
    (hcaller : d.caller = some (token, waiter)) (hasks : task'.Asks d)
    (huploads : t.uploads = Function.update r.uploads token (some task'))
    (hidle : token ∉ r.callers) (hne : r.uploads token ≠ some .ended) : Attended t := by
  have hself : t.uploads token = some task' := by rw [huploads, Function.update_self]
  have hother : ∀ other, other ≠ token → t.uploads other = r.uploads other := fun other ho => by
    rw [huploads, Function.update_of_ne ho]
  refine h.send d hfresh (Nat.le_trans hle (Nat.le_of_lt hlt)) hsession hreplies hqueue ?_ ?_ ?_ ?_ ?_
  · intro other hd
    obtain rfl := Option.some.inj ((caller_waiter hcaller).symm.trans hd)
    exact ⟨hle, hlt⟩
  · intro other waiter' hd
    obtain ⟨rfl, -⟩ := Prod.mk.inj (Option.some.inj (hcaller.symm.trans hd))
    exact ⟨hidle, task', hself, hasks⟩
  · intro other hleft
    cases d <;> cases hcaller <;> cases hleft
  · intro other
    by_cases ho : other = token
    · subst ho
      exact .inr ⟨.inl hidle, hne⟩
    · exact .inl (hother other ho)
  · intro other task waiter' htask hawaits
    by_cases ho : other = token
    · subst ho
      obtain rfl := Option.some.inj (hself.symm.trans htask)
      have hwaits := Asks.awaits hasks (caller_waiter hcaller)
      obtain rfl := Option.some.inj (hwaits.symm.trans hawaits)
      exact .inr hcaller
    · exact .inl (by rw [← hother other ho, htask])

theorem reads {t : System} {data : Option Bytes} (h : Attended r) (hfresh : t.Fresh)
    (hle : r.fresh ≤ t.fresh) (hsession : t.session = r.session) (hreplies : t.replies = r.replies)
    (hqueue : t.queue = r.queue)
    (huploads : t.uploads = Function.update r.uploads token (some (.reading data)))
    (hidle : token ∉ r.callers) (hne : r.uploads token ≠ some .ended) : Attended t := by
  refine h.quiet hfresh hle hsession hreplies hqueue ?_ ?_
  · intro other
    by_cases ho : other = token
    · subst ho
      exact .inr ⟨.inl hidle, hne⟩
    · exact .inl (by rw [huploads, Function.update_of_ne ho])
  · intro other task waiter htask hawaits
    by_cases ho : other = token
    · subst ho
      rw [huploads, Function.update_self] at htask
      obtain rfl := Option.some.inj htask
      cases hawaits
    · rwa [huploads, Function.update_of_ne ho] at htask

theorem leaves {t : System} (h : Attended r) (hfresh : t.Fresh) (hle : r.fresh ≤ t.fresh)
    (hsession : t.session = r.session) (hreplies : t.replies = r.replies)
    (hqueue : t.queue = if r.session.running then
      r.queue ++ [.disconnected token .uploader] else r.queue)
    (huploads : t.uploads = Function.update r.uploads token (some .ended))
    (hne : r.uploads token ≠ some .ended) : Attended t := by
  have hself : t.uploads token = some .ended := by rw [huploads, Function.update_self]
  refine h.send (.disconnected token .uploader) hfresh hle hsession hreplies hqueue nofun nofun
    ?_ ?_ ?_
  · intro other hleft
    obtain rfl : token = other := (Prod.mk.inj (Option.some.inj hleft)).2
    exact hself
  · intro other
    by_cases ho : other = token
    · subst ho
      exact .inr ⟨.inr hself, hne⟩
    · exact .inl (by rw [huploads, Function.update_of_ne ho])
  · intro other task waiter htask hawaits
    by_cases ho : other = token
    · subst ho
      obtain rfl := Option.some.inj (hself.symm.trans htask)
      cases hawaits
    · exact .inl (by rwa [huploads, Function.update_of_ne ho] at htask)

/-- A step of another kind of handler sends a command that is no upload call. -/
theorem other {t : System} (h : Attended r) (d : Command) (hfresh : t.Fresh)
    (hle : r.fresh ≤ t.fresh) (hsession : t.session = r.session) (hreplies : t.replies = r.replies)
    (hqueue : t.queue = if r.session.running then r.queue ++ [d] else r.queue)
    (hname : ∀ waiter, d.waiter = some waiter → r.fresh ≤ waiter ∧ waiter < t.fresh)
    (hcaller : d.caller = none) (hleaves : ∀ token, d.announces ≠ some (.uploader, token))
    (huploads : t.uploads = r.uploads) : Attended t :=
  h.send d hfresh hle hsession hreplies hqueue hname
    (fun token waiter hd => absurd (hcaller.symm.trans hd) nofun)
    (fun token hd => absurd hd (hleaves token)) (fun token => .inl (by rw [huploads]))
    fun token task waiter htask _ => .inl (by rwa [huploads] at htask)

theorem same {t : System} (h : Attended r) (hfresh : t.Fresh) (hle : r.fresh ≤ t.fresh)
    (hsession : t.session = r.session) (hreplies : t.replies = r.replies)
    (hqueue : t.queue = r.queue) (huploads : t.uploads = r.uploads) : Attended t :=
  h.quiet hfresh hle hsession hreplies hqueue (fun token => .inl (by rw [huploads]))
    fun token task waiter htask _ => by rwa [huploads] at htask

theorem not_ended (halive : task.alive = true) (htask : r.uploads token = some task) :
    r.uploads token ≠ some .ended := by
  intro hended
  obtain rfl := Option.some.inj (htask.symm.trans hended)
  cases halive

theorem change (h : Attended r) (hchange : Change r e r' os) : Attended r' := by
  have hfresh := h.fresh.change hchange
  have hundrawn : r.fresh ∉ r.callers := by
    intro hmem
    obtain ⟨c, hc, waiter, hcaller⟩ := mem_callers.mp hmem
    obtain ⟨task, htask, -⟩ := h.asked c hc _ waiter hcaller
    exact absurd (h.fresh.uploads_lt htask) (Nat.lt_irrefl _)
  have hanswered : ∀ token task, r.uploads token = some task → task.alive = true →
      (∀ waiter, task.awaits = some waiter → r.replies waiter ≠ none) →
      token ∉ r.callers ∧ r.uploads token ≠ some .ended := fun token task htask halive hreply =>
    ⟨h.not_mem_callers htask halive hreply, not_ended halive htask⟩
  cases hchange with
  | turn hqueue hstep =>
    refine h.turn hqueue hstep ?_ (fun hrunning => if_pos hrunning) hfresh
    split_ifs
    · exact List.Sublist.refl _
    · exact List.nil_sublist _
  | request hplain =>
    rcases hplain with rfl | rfl | ⟨_, rfl⟩ <;>
      exact h.other _ hfresh (Nat.le_add_right _ 1) rfl rfl rfl
        (fun _ hd => Option.some.inj hd ▸ ⟨Nat.le_refl _, Nat.lt_succ_self _⟩) rfl nofun rfl
  | download =>
    exact h.other _ hfresh (Nat.le_add_right _ 2) rfl rfl rfl
      (fun _ hd => Option.some.inj hd ▸ ⟨Nat.le_succ _, Nat.lt_succ_self _⟩) rfl nofun rfl
  | downloadStarted htask hreply => exact h.same hfresh (Nat.le_refl _) rfl rfl rfl rfl
  | downloadRefused htask hreply hheld => exact h.same hfresh (Nat.le_refl _) rfl rfl rfl rfl
  | downloadMore htask hchannel => exact h.same hfresh (Nat.le_refl _) rfl rfl rfl rfl
  | downloadFinal htask hchannel => exact h.same hfresh (Nat.le_refl _) rfl rfl rfl rfl
  | downloadReplaced htask hchannel =>
    exact h.other _ hfresh (Nat.le_refl _) rfl rfl rfl nofun rfl nofun rfl
  | downloadEnded htask => exact h.other _ hfresh (Nat.le_refl _) rfl rfl rfl nofun rfl nofun rfl
  | downloadCancelled htask => exact h.same hfresh (Nat.le_refl _) rfl rfl rfl rfl
  | upload =>
    exact h.call _ hfresh (Nat.lt_succ_self _) (Nat.le_succ _) rfl rfl rfl rfl rfl rfl hundrawn
      (by simp [h.fresh.uploads _ (Nat.le_refl _)])
  | uploadFlushing htask hreply =>
    obtain ⟨hidle, hne⟩ := hanswered _ _ htask rfl fun waiter hawaits => by
      obtain rfl := Option.some.inj hawaits
      simp [hreply]
    exact h.call _ hfresh (Nat.lt_succ_self _) (Nat.le_refl _) rfl rfl rfl rfl rfl rfl hidle hne
  | uploadReading htask hawaits hreply =>
    obtain ⟨hidle, hne⟩ := hanswered _ _ htask (by rcases hawaits with ⟨rfl, -⟩ | rfl <;> rfl)
      fun waiter hwaits => by
        rcases hawaits with ⟨rfl, -⟩ | rfl <;>
          · obtain rfl := Option.some.inj hwaits
            simp [hreply]
    exact h.reads hfresh (Nat.le_refl _) rfl rfl rfl rfl hidle hne
  | uploadRead htask =>
    obtain ⟨hidle, hne⟩ := hanswered _ _ htask rfl nofun
    exact h.reads hfresh (Nat.le_add_right _ 1) rfl rfl rfl rfl hidle hne
  | uploadEmpty htask =>
    obtain ⟨hidle, hne⟩ := hanswered _ _ htask rfl nofun
    exact h.call _ hfresh (Nat.lt_succ_self _) (Nat.le_succ _) rfl rfl rfl rfl ⟨_, rfl⟩ rfl
      hidle hne
  | uploadMore htask =>
    obtain ⟨hidle, hne⟩ := hanswered _ _ htask rfl nofun
    exact h.call _ hfresh (Nat.lt_succ_self _) (Nat.le_succ _) rfl rfl rfl rfl ⟨_, rfl⟩ rfl
      hidle hne
  | uploadFinal htask =>
    obtain ⟨hidle, hne⟩ := hanswered _ _ htask rfl nofun
    exact h.call _ hfresh (Nat.lt_succ_self _) (Nat.le_refl _) rfl rfl rfl rfl ⟨_, rfl⟩ rfl
      hidle hne
  | uploadResponded htask halive houtcome =>
    exact h.leaves hfresh (Nat.le_refl _) rfl rfl rfl rfl (not_ended halive htask)
  | uploadCancelled htask halive =>
    exact h.leaves hfresh (Nat.le_refl _) rfl rfl rfl rfl (not_ended halive htask)
  | websocket =>
    exact h.other _ hfresh (Nat.le_add_right _ 2) rfl rfl rfl
      (fun _ hd => Option.some.inj hd ▸ ⟨Nat.le_succ _, Nat.lt_succ_self _⟩) rfl nofun rfl
  | websocketStarted htask hreply => exact h.same hfresh (Nat.le_refl _) rfl rfl rfl rfl
  | websocketRefused htask hreply hheld => exact h.same hfresh (Nat.le_refl _) rfl rfl rfl rfl
  | websocketSent htask hinbox => exact h.same hfresh (Nat.le_refl _) rfl rfl rfl rfl
  | websocketFrame htask =>
    exact h.other _ hfresh (Nat.le_refl _) rfl rfl rfl nofun rfl nofun rfl
  | websocketEnded htask =>
    exact h.other _ hfresh (Nat.le_refl _) rfl rfl rfl nofun rfl
      (fun _ hd => by cases hd) rfl

theorem spawn : Attended (System.spawn metadata) where
  fresh := .spawn
  distinct := List.nodup_nil
  unanswered _ hmem := by cases hmem
  undrawn _ _ := rfl
  single := List.nodup_nil
  asked _ hc := by cases hc
  departed _ hc := by cases hc
  waiting _ _ _ _ htask := by cases htask

theorem of_run (hrun : (relaySystem metadata).Run tr r) : Attended r := by
  refine hrun.invariant spawn ?_
  intro r e r' os h _ hstep
  exact h.change (System.step_change hstep)

end Attended

theorem pending_called {log : Trace Command Effect} {session : Session}
    (hrun : (sessionTask metadata).Run log session)
    (hp : session.state.pending.waiter = some waiter) :
    ∃ token c effects, (c, effects) ∈ log ∧ c.caller = some (token, waiter) := by
  revert hp
  refine hrun.history (P := fun log session => session.state.pending.waiter = some waiter →
    ∃ token c effects, (c, effects) ∈ log ∧ c.caller = some (token, waiter)) nofun ?_
  intro log session c session' effects _ ih _ hstep hp
  obtain ⟨-, rfl, rfl⟩ := Session.step_eq_some.mp hstep
  obtain ⟨chunk, position, size, hdata⟩ := Pending.eq_data_of_waiter hp
  rcases handle_pending_waiter hdata with ⟨token, rfl⟩ | ⟨token, rfl⟩ | hbefore
  · exact ⟨token, _, _, List.mem_append_right _ (List.mem_singleton_self _), rfl⟩
  · exact ⟨token, _, _, List.mem_append_right _ (List.mem_singleton_self _), rfl⟩
  · obtain ⟨token, c', effects', hmem, hcaller⟩ := ih (by rw [hbefore]; rfl)
    exact ⟨token, c', effects', List.mem_append_left _ hmem, hcaller⟩

theorem System.mem_senders {t : System} (hsession : t.session = r.session)
    (hqueue : r.queue ⊆ t.queue) (hmem : waiter ∈ r.senders) : waiter ∈ t.senders := by
  rw [System.senders, hsession]
  rcases List.mem_append.mp hmem with hmem | hmem
  · obtain ⟨c, hc, hwaiter⟩ := List.mem_filterMap.mp hmem
    exact List.mem_append_left _ (List.mem_filterMap.mpr ⟨c, hqueue hc, hwaiter⟩)
  · exact List.mem_append_right _ hmem

theorem System.queue_subset_send : r.queue ⊆ (r.send c).queue := by
  unfold System.send
  split_ifs
  · exact List.subset_append_left _ _
  · exact List.Subset.refl _

theorem System.mem_deliverAll_senders {effects : List Effect} :
    waiter ∈ (effects.foldl System.deliver r).senders ↔
      waiter ∈ r.queue.filterMap Command.waiter ∨
        r.session.state.pending.waiter = some waiter := by
  simp [System.senders]

theorem Change.senders (h : Change r e r' os) (hmem : waiter ∈ r.senders) :
    waiter ∈ r'.senders ∨ ∃ c rest effects session, r.queue = c :: rest ∧
      r.session.step c = some (session, effects) ∧ os = [.handled c effects] ∧
      r' = effects.foldl System.deliver
        { r with session := session, queue := if session.running then rest else [] } := by
  have hsame : ∀ {t : System}, t.session = r.session → r.queue ⊆ t.queue → waiter ∈ t.senders :=
    fun hsession hqueue => System.mem_senders hsession hqueue hmem
  cases h with
  | turn hqueue hstep => exact .inr ⟨_, _, _, _, hqueue, hstep, rfl, rfl⟩
  | downloadStarted | downloadRefused | downloadMore | downloadFinal | downloadCancelled
  | uploadReading | uploadRead | websocketStarted | websocketRefused | websocketSent =>
    exact .inl (hsame rfl (List.Subset.refl _))
  | _ => exact .inl (hsame rfl (System.queue_subset_send (r := r)))

theorem dropped_is_abandoned (hrun : (relaySystem metadata).Run tr r)
    (hstep : r.step e = some (r', os)) (hrunning : r'.session.running = true)
    (hmem : waiter ∈ r.senders) :
    waiter ∈ r'.senders ∨
      (∃ c effects reply, Output.handled c effects ∈ os ∧ Effect.reply waiter reply ∈ effects) ∨
      ∃ token call effects, (call, effects) ∈ handledIn tr ∧
        call.caller = some (token, waiter) ∧
        ∀ task, r.uploads token = some task → task.awaits ≠ some waiter := by
  have h := Attended.of_run hrun
  rcases (System.step_change hstep).senders hmem with
    hkept | ⟨c, rest, effects, session, hqueue, hsession, rfl, rfl⟩
  · exact .inl hkept
  rw [System.deliverAll_session] at hrunning
  rw [System.mem_deliverAll_senders, if_pos hrunning]
  obtain ⟨hbefore, rfl, rfl⟩ := Session.step_eq_some.mp hsession
  rcases h.settled hbefore hqueue hmem with ⟨reply, heffect⟩ | hkept | ⟨hp, hgone⟩
  · exact .inr (.inl ⟨c, _, reply, List.mem_singleton_self _, heffect⟩)
  · exact .inl hkept
  · obtain ⟨token, call, effects, hcall, hcaller⟩ := pending_called (handledIn_run hrun) hp
    exact .inr (.inr ⟨token, call, effects, hcall, hcaller, fun task htask => hgone token task htask⟩)

/-- A step of a session that goes on answers each sender that it drops, unless the upload
handler that made the call does not wait for it. An `upload_data` call is answered `ok` by a
step that sends its chunk on the channel of a download. -/
theorem no_lost_waiter (hrun : (relaySystem metadata).Run tr r)
    (hstep : r.step e = some (r', os)) :
    (r'.session.running = true → ∀ waiter ∈ r.senders, waiter ∈ r'.senders ∨
      (∃ c effects reply, Output.handled c effects ∈ os ∧ Effect.reply waiter reply ∈ effects) ∨
      ∃ token call effects, (call, effects) ∈ handledIn tr ∧
        call.caller = some (token, waiter) ∧
        ∀ task, r.uploads token = some task → task.awaits ≠ some waiter) ∧
    ∀ c effects waiter token chunk call, Output.handled c effects ∈ os →
      replyUpload waiter (.ok ()) ∈ effects →
      (.uploadData token chunk waiter, call) ∈ handledIn (tr ++ [(e, os)]) →
      ∃ events, Effect.event events chunk.intoEvent ∈ effects := by
  constructor
  · intro hrunning waiter hmem
    exact dropped_is_abandoned hrun hstep hrunning hmem
  · intro c effects waiter token chunk call hhandled hok hcall
    have hnext : (relaySystem metadata).Run (tr ++ [(e, os)]) r' := .snoc hrun trivial hstep
    have hmem : (c, effects) ∈ handledIn (tr ++ [(e, os)]) := by
      rw [handledIn_snoc]
      exact List.mem_append_right _ (List.mem_filterMap.mpr ⟨_, hhandled, rfl⟩)
    exact (answered_of_run hnext).sent _ _ _ _ _ _ hmem hok hcall

def secondUpload : List SystemEvent :=
  [.upload 0, .turn, .uploadResume 0, .turn, .uploadResume 0, .uploadBody 0 (.chunk [1]),
    .uploadBody 0 .eof, .turn, .uploadDrop 0, .turn, .upload 1, .turn, .uploadResume 5]

theorem no_lost_waiter_flushed : ∃ tr r r' os,
    (relaySystem "").exec (System.spawn "") secondUpload =
      some (tr, r) ∧
    r.step .turn = some (r', os) ∧ r'.session.running = true ∧ 4 ∈ r.senders ∧
    r'.senders = [7] ∧
    (4 ∈ r'.senders ∨
      (∃ c effects reply, Output.handled c effects ∈ os ∧ Effect.reply 4 reply ∈ effects) ∨
      ∃ token call effects, (call, effects) ∈ handledIn tr ∧ call.caller = some (token, 4) ∧
        ∀ task, r.uploads token = some task → task.awaits ≠ some 4) := by
  obtain ⟨tr, r, r', os, hexec, hstep, hrunning, hbefore, hafter⟩ : ∃ tr r r' os,
      (relaySystem "").exec (System.spawn "") secondUpload =
        some (tr, r) ∧
      r.step .turn = some (r', os) ∧ r'.session.running = true ∧ r.senders = [7, 4] ∧
      r'.senders = [7] := ⟨_, _, _, _, rfl, rfl, rfl, rfl, rfl⟩
  have hmem : 4 ∈ r.senders := by simp [hbefore]
  exact ⟨tr, r, r', os, hexec, hstep, hrunning, hmem, hafter,
    (no_lost_waiter (EventMachine.exec_run _ hexec) hstep).1 hrunning 4 hmem⟩

end Glopfile.Relay
