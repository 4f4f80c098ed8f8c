import Glopfile.Relay.UploadAnswers

/-!
# Who comes to a session that has ended

A command sent to a session that has ended is lost with its reply sender, so a request that
comes then is never let in: it waits for a reply that nobody sends, and an upload is answered
404 before its body is read.
-/

namespace Glopfile.Relay

variable {r r' : System} {e : SystemEvent} {os : List Output} {token : Token} {first : ℕ}

def DownloadTask.Outside (first : ℕ) : DownloadTask → Prop
  | .starting reply => first ≤ reply
  | .streaming _ => False
  | .ended => True

def UploadTask.Outside (first : ℕ) : UploadTask → Prop
  | .starting reply => first ≤ reply
  | .ended => True
  | _ => False

def WebsocketTask.Outside (first : ℕ) : WebsocketTask → Prop
  | .starting _ reply => first ≤ reply
  | .relaying _ => False
  | .ended => True

/-- The session has ended, and nobody who came to it from the name `first` on was let in. -/
structure System.Shut (first : ℕ) (r : System) : Prop where
  stopped : r.session.running = false
  drawn : first ≤ r.fresh
  silent : ∀ waiter, first ≤ waiter → r.replies waiter = none
  downloads : ∀ token task, first ≤ token → r.downloads token = some task → task.Outside first
  uploads : ∀ token task, first ≤ token → r.uploads token = some task → task.Outside first
  websockets : ∀ token task, first ≤ token → r.websockets token = some task → task.Outside first

namespace System.Shut

theorem of_stopped (hattended : Attended r) (hstopped : r.session.running = false) :
    r.Shut r.fresh where
  stopped := hstopped
  drawn := Nat.le_refl _
  silent := hattended.undrawn
  downloads _ _ hle htask :=
    absurd (hattended.fresh.downloads_lt htask) (Nat.not_lt_of_le hle)
  uploads _ _ hle htask := absurd (hattended.fresh.uploads_lt htask) (Nat.not_lt_of_le hle)
  websockets _ _ hle htask :=
    absurd (hattended.fresh.websockets_lt htask) (Nat.not_lt_of_le hle)

/-! Who was let in has a name from before `first`. -/

theorem not_replied (h : r.Shut first) {waiter : Waiter} {reply : Reply}
    (hreply : r.replies waiter = some reply) : waiter < first := by
  by_contra hle
  rw [h.silent waiter (Nat.le_of_not_lt hle)] at hreply
  cases hreply

theorem downloads_lt (h : r.Shut first) {task : DownloadTask}
    (htask : r.downloads token = some task) (hinside : ¬ task.Outside first) : token < first := by
  by_contra hle
  exact hinside (h.downloads token task (Nat.le_of_not_lt hle) htask)

theorem uploads_lt (h : r.Shut first) {task : UploadTask}
    (htask : r.uploads token = some task) (hinside : ¬ task.Outside first) : token < first := by
  by_contra hle
  exact hinside (h.uploads token task (Nat.le_of_not_lt hle) htask)

theorem websockets_lt (h : r.Shut first) {task : WebsocketTask}
    (htask : r.websockets token = some task) (hinside : ¬ task.Outside first) :
    token < first := by
  by_contra hle
  exact hinside (h.websockets token task (Nat.le_of_not_lt hle) htask)

theorem outside_update {τ : Type} {P : τ → Prop} {tasks : Token → Option τ} {task : τ}
    (h : ∀ token task, first ≤ token → tasks token = some task → P task)
    (htask : token < first ∨ P task) :
    ∀ other task', first ≤ other →
      Function.update tasks token (some task) other = some task' → P task' := by
  intro other task' hle hget
  by_cases ho : other = token
  · subst ho
    rw [Function.update_self] at hget
    obtain rfl := Option.some.inj hget
    exact htask.resolve_left (Nat.not_lt_of_le hle)
  · rw [Function.update_of_ne ho] at hget
    exact h other task' hle hget

theorem setDownload {task : DownloadTask} (h : r.Shut first)
    (htask : token < first ∨ task.Outside first) : (r.setDownload token task).Shut first :=
  { h with downloads := outside_update h.downloads htask }

theorem setUpload {task : UploadTask} (h : r.Shut first)
    (htask : token < first ∨ task.Outside first) : (r.setUpload token task).Shut first :=
  { h with uploads := outside_update h.uploads htask }

theorem setWebsocket {task : WebsocketTask} (h : r.Shut first)
    (htask : token < first ∨ task.Outside first) : (r.setWebsocket token task).Shut first :=
  { h with websockets := outside_update h.websockets htask }

theorem endDownload (h : r.Shut first) : (r.setDownload token .ended).Shut first :=
  h.setDownload (.inr trivial)

theorem endUpload (h : r.Shut first) : (r.setUpload token .ended).Shut first :=
  h.setUpload (.inr trivial)

theorem endWebsocket (h : r.Shut first) : (r.setWebsocket token .ended).Shut first :=
  h.setWebsocket (.inr trivial)

theorem draw (h : r.Shut first) (n : ℕ) : (r.draw n).Shut first :=
  { h with drawn := Nat.le_trans h.drawn (Nat.le_add_right _ n) }

theorem send (h : r.Shut first) {c : Command} : (r.send c).Shut first := { h with }

theorem setChannel (h : r.Shut first) {channel : List DownloadEvent} :
    (r.setChannel token channel).Shut first := { h with }

theorem setInbox (h : r.Shut first) {inbox : List WebsocketCommand} :
    (r.setInbox token inbox).Shut first := { h with }

theorem change (h : r.Shut first) (hchange : Change r e r' os) : r'.Shut first := by
  have hdrawn : first ≤ r.fresh + 1 := Nat.le_succ_of_le h.drawn
  cases hchange with
  | turn hqueue hstep =>
    have hrunning := (Session.step_eq_some.mp hstep).1
    rw [h.stopped] at hrunning
    cases hrunning
  | request hplain => exact (h.draw 1).send
  | download =>
    have houtside : (DownloadTask.starting (r.fresh + 1)).Outside first := hdrawn
    exact ((h.draw 2).setDownload (.inr houtside)).send
  | downloadStarted htask hreply =>
    exact h.setDownload (.inl (h.downloads_lt htask (Nat.not_le_of_lt (h.not_replied hreply))))
  | downloadRefused htask hreply hheld => exact h.endDownload.setChannel
  | downloadMore htask hchannel => exact h.setChannel
  | downloadFinal htask hchannel => exact h.setChannel.setDownload (.inl (h.downloads_lt htask id))
  | downloadReplaced htask hchannel => exact h.endDownload.setChannel.send
  | downloadEnded htask => exact h.endDownload.setChannel.send
  | downloadCancelled htask => exact h.endDownload.setChannel
  | upload =>
    have houtside : (UploadTask.starting (r.fresh + 1)).Outside first := hdrawn
    exact ((h.draw 2).setUpload (.inr houtside)).send
  | uploadFlushing htask hreply =>
    have hlt := h.uploads_lt htask (Nat.not_le_of_lt (h.not_replied hreply))
    exact ((h.draw 1).setUpload (.inl hlt)).send
  | uploadReading htask hawaits hreply =>
    refine h.setUpload (.inl (h.uploads_lt htask ?_))
    rcases hawaits with ⟨rfl, -⟩ | rfl <;> exact id
  | uploadRead htask => exact (h.draw 1).setUpload (.inl (h.uploads_lt htask id))
  | uploadEmpty htask | uploadMore htask =>
    exact ((h.draw 2).setUpload (.inl (h.uploads_lt htask id))).send
  | uploadFinal htask => exact ((h.draw 1).setUpload (.inl (h.uploads_lt htask id))).send
  | uploadResponded htask halive houtcome => exact h.endUpload.send
  | uploadCancelled htask halive => exact h.endUpload.send
  | websocket =>
    have houtside {direction : Direction} :
        (WebsocketTask.starting direction (r.fresh + 1)).Outside first := hdrawn
    exact ((h.draw 2).setWebsocket (.inr houtside)).send
  | websocketStarted htask hreply =>
    exact h.setWebsocket (.inl (h.websockets_lt htask (Nat.not_le_of_lt (h.not_replied hreply))))
  | websocketRefused htask hreply hheld => exact h.endWebsocket.setInbox
  | websocketSent htask hinbox => exact h.setInbox
  | websocketFrame htask => exact h.send
  | websocketEnded htask => exact h.endWebsocket.setInbox.send

theorem responded {response : Response} (h : r.Shut first) (hchange : Change r e r' os)
    (hmem : Output.responded token response ∈ os) (hle : first ≤ token) :
    response = .notFound := by
  cases hchange with
  | @uploadResponded _ _ task _ htask halive houtcome =>
    obtain ⟨rfl, rfl⟩ := Output.responded.inj (List.mem_singleton.mp hmem)
    have houtside := h.uploads _ _ hle htask
    cases houtcome with
    | lost => rfl
    | done | unread => exact houtside.elim
    | @refused _ reply error hawaits hreply =>
      -- The only reply that such an upload waits for does not come.
      cases task with
      | starting reply' =>
        obtain rfl : reply' = reply := Option.some.inj hawaits
        exact absurd (h.not_replied hreply) (Nat.not_lt_of_le houtside)
      | ended => cases hawaits
      | flushing | reading | sending => exact houtside.elim
  | _ => simp at hmem

end System.Shut

end Glopfile.Relay
