import Glopfile.Relay.Range
import Glopfile.Relay.ReplacedPeers
import Glopfile.Relay.StreamIntegrity

/-!
# How far the positions go

A position is as large as the header of a request says, and grows with every chunk that the
session takes. The parsers bound where an upload starts and not what it sends from there, so
that the additions of a session fit into `u64` exactly when every upload fits from its start.
-/

namespace Glopfile.Relay

open EventMachine (Trace)

variable {metadata : String} {session next : Session} {tr : Trace Command Effect} {s : State}
  {c : Command} {os : List Effect} {token : Token} {position : Position} {chunk : Chunk}
  {reply : Waiter} {u : Uploader}

def State.heldSums (s : State) : List (ℕ × ℕ) :=
  match s.pending with
  | .data _ _ position size => [(position, size)]
  | _ => []

def State.checkSums (s : State) (position : Position) : List (ℕ × ℕ) :=
  match s.downloader with
  | .connected downloader => if position ≠ downloader.position then [] else s.heldSums
  | _ => s.heldSums

/-- The additions of positions and sizes in the step that handles a command. -/
def State.sums (s : State) : Command → List (ℕ × ℕ)
  | .startDownload downloader _ =>
    match s.pending with
    | .data _ _ position size =>
      if downloader.position = position then [(downloader.position, size)] else []
    | _ => []
  | .checkStartUpload position _ => s.checkSums position
  | .startUpload _ position _ => s.evictUploader.1.checkSums position
  | .uploadData token chunk _ =>
    match s.uploader with
    | none => []
    | some uploader =>
      if uploader.token ≠ token then []
      else
        match s.pending with
        | .none => [(uploader.position, chunk.len)]
        | _ => []
  | _ => []

def InRange (session : Session) (c : Command) : Prop :=
  ∀ sum ∈ session.state.sums c, sum.1 + sum.2 < 2 ^ 64

def takenIn (token : Token) : Command × List Effect → ℕ
  | (.uploadData other chunk reply, os) =>
    if other = token ∧ refused reply os = false then chunk.len else 0
  | _ => 0

def takenBytes (token : Token) (tr : Trace Command Effect) : ℕ := (tr.map (takenIn token)).sum

/-- No upload goes past the largest position, from where it says it starts. -/
def Fits (tr : Trace Command Effect) : Prop :=
  ∀ token position reply os, (Command.startUpload token position reply, os) ∈ tr →
    position + takenBytes token tr < 2 ^ 64

def Parsed : SystemEvent → Prop
  | .upload position => ∃ header, uploadPosition header = .ok position
  | .download position => ∃ header, downloadPosition header = .ok (.from position)
  | .checkStartUpload position => position < 2 ^ 64
  | _ => True

@[simp] theorem takenBytes_snoc {x : Command × List Effect} :
    takenBytes token (tr ++ [x]) = takenBytes token tr + takenIn token x := by
  simp [takenBytes]

theorem heldSums_mem {sum : ℕ × ℕ} (h : sum ∈ s.heldSums) :
    ∃ chunk waiter, s.pending = .data chunk waiter sum.1 sum.2 := by
  unfold State.heldSums at h
  cases hp : s.pending with
  | data chunk waiter position size =>
    obtain rfl : sum = (position, size) := by simpa [hp] using h
    exact ⟨chunk, waiter, rfl⟩
  | none => simp [hp] at h
  | error error => simp [hp] at h

theorem checkSums_mem {sum : ℕ × ℕ} (h : sum ∈ s.checkSums position) :
    ∃ chunk waiter, s.pending = .data chunk waiter sum.1 sum.2 := by
  refine heldSums_mem ?_
  unfold State.checkSums at h
  split at h
  · split_ifs at h
    · cases h
    · exact h
  · exact h

inductive Adds (s : State) (c : Command) : Prop
  | taken {u : Uploader} {chunk : Chunk} {reply : Waiter}
      (hc : c = .uploadData u.token chunk reply) (hu : s.uploader = some u)
      (hsums : s.sums c = [(u.position, chunk.len)])
      (hnext : (s.handle c).state.uploader =
        some { u with position := addU64 u.position chunk.len })
      (htaken : ∀ token, takenIn token (c, (s.handle c).effects) =
        if u.token = token then chunk.len else 0) : Adds s c
  | held (hsums : ∀ sum ∈ s.sums c, ∃ chunk waiter, s.pending = .data chunk waiter sum.1 sum.2)
      (hnext : ∀ u, (s.handle c).state.uploader = some u →
        s.uploader = some u ∨ ∃ reply, c = .startUpload u.token u.position reply)
      (htaken : ∀ token, takenIn token (c, (s.handle c).effects) = 0) : Adds s c

theorem uploadData_adds : Adds s (.uploadData token chunk reply) := by
  by_cases hready : s.uploaderToken = some token → s.pending ≠ .none
  · obtain ⟨error, hs⟩ := State.uploadData_refused token chunk reply hready
    have hsums : s.sums (.uploadData token chunk reply) = [] := by
      unfold State.sums
      cases hu : s.uploader with
      | none => rfl
      | some u =>
        by_cases htoken : u.token = token
        · cases hp : s.pending with
          | none => exact absurd hp (hready (by simp [State.uploaderToken, hu, htoken]))
          | data _ _ _ _ => simp [htoken]
          | error _ => simp [htoken]
        · simp [htoken]
    refine .held (by simp [hsums]) (fun u hu => .inl (by simpa [State.handle, hs] using hu)) ?_
    simp [takenIn, State.handle, hs, refused, replyUpload, Effect.refuses]
  · obtain ⟨htoken, hp⟩ : s.uploaderToken = some token ∧ s.pending = .none := by simpa using hready
    obtain ⟨u, hu, rfl⟩ := Option.map_eq_some_iff.mp htoken
    have hsums : s.sums (.uploadData u.token chunk reply) = [(u.position, chunk.len)] := by
      simp [State.sums, hu, hp]
    have hnext : (s.uploadData u.token chunk reply).1.uploader =
        some { u with position := addU64 u.position chunk.len } := by
      cases hd : s.downloader <;> simp [State.uploadData, hu, hp, hd]
    have htook : refused reply (s.uploadData u.token chunk reply).2 = false := by
      cases hd : s.downloader with
      | connected d =>
        cases hws : s.uploaderWs <;>
          simp [State.uploadData, hu, hp, hd, hws, refused, Effect.refuses, sendUploadProgress,
            replyUpload]
      | disconnected => simp [State.uploadData, hu, hp, hd, refused]
      | finished => simp [State.uploadData, hu, hp, hd, refused]
    exact .taken rfl hu hsums hnext fun other => by simp [takenIn, State.handle, htook]

theorem handle_adds (s : State) (c : Command) : Adds s c := by
  have hstands : (∀ token chunk reply, c ≠ .uploadData token chunk reply) →
      ∀ u, (s.handle c).state.uploader = some u →
        s.uploader = some u ∨ ∃ reply, c = .startUpload u.token u.position reply := by
    intro hc u hu
    cases handle_uploader hu with
    | kept hu => exact .inl hu
    | started hstart => exact .inr ⟨_, hstart⟩
    | advanced hdata _ _ => exact absurd hdata (hc _ _ _)
  cases c with
  | uploadData token chunk reply => exact uploadData_adds
  | startDownload downloader reply =>
    refine .held (fun sum hsum => ?_) (hstands nofun) fun _ => rfl
    unfold State.sums at hsum
    cases hp : s.pending with
    | data chunk waiter position size =>
      by_cases hat : downloader.position = position
      · obtain rfl : sum = (downloader.position, size) := by simpa [hp, hat] using hsum
        exact ⟨chunk, waiter, by simp [hat]⟩
      · simp [hp, hat] at hsum
    | none => simp [hp] at hsum
    | error error => simp [hp] at hsum
  | checkStartUpload position reply =>
    exact .held (fun sum hsum => checkSums_mem hsum) (hstands nofun) fun _ => rfl
  | startUpload token position reply =>
    refine .held (fun sum hsum => ?_) (hstands nofun) fun _ => rfl
    obtain ⟨chunk, waiter, hp⟩ := checkSums_mem hsum
    obtain ⟨waiter, hp⟩ := s.evictUploader_data hp
    exact ⟨chunk, waiter, hp⟩
  | _ => exact .held nofun (hstands nofun) fun _ => rfl

structure Tallied (tr : Trace Command Effect) (s : State) : Prop where
  uploader : ∀ u, s.uploader = some u → ∃ position reply os,
    (Command.startUpload u.token position reply, os) ∈ tr ∧
      u.position = position + takenBytes u.token tr
  held : ∀ chunk waiter position size, s.pending = .data chunk waiter position size →
    position + size < 2 ^ 64
  known : ∀ token, takenBytes token tr ≠ 0 → token ∈ registered .uploader tr

theorem mem_registered :
    token ∈ registered .uploader tr ↔
      ∃ position reply os, (Command.startUpload token position reply, os) ∈ tr := by
  simp only [registered, List.mem_filterMap, asksFor_eq_some, Prod.exists]
  constructor
  · rintro ⟨c, os, hmem, hc⟩
    cases c with
    | startUpload token' position reply =>
      obtain ⟨-, rfl⟩ := Prod.mk.inj (Option.some.inj hc)
      exact ⟨position, reply, os, hmem⟩
    | _ => cases hc
  · rintro ⟨position, reply, os, hmem⟩
    exact ⟨_, os, hmem, rfl⟩

theorem start_unique (hnodup : (registered .uploader tr).Nodup) {position' : Position}
    {reply' : Waiter} {os' : List Effect}
    (h : (Command.startUpload token position reply, os) ∈ tr)
    (h' : (Command.startUpload token position' reply', os') ∈ tr) : position = position' := by
  have hsame := filterMap_unique hnodup h h' rfl rfl
  exact (Command.startUpload.inj (Prod.mk.inj hsame).1).2.1

namespace Tallied

theorem taken_eq_zero (h : Tallied tr s) (hnodup : (registered .uploader (tr ++ [(c, os)])).Nodup)
    (hc : c = .startUpload token position reply) : takenBytes token tr = 0 := by
  subst hc
  by_contra hne
  rw [registered_snoc] at hnodup
  exact (List.nodup_append.mp hnodup).2.2 token (h.known token hne) token List.mem_cons_self rfl

theorem fits_iff (h : Tallied tr s) (hfits : Fits tr)
    (hnodup : (registered .uploader (tr ++ [(c, (s.handle c).effects)])).Nodup)
    (hstart : ∀ token position reply, c = .startUpload token position reply → position < 2 ^ 64) :
    Fits (tr ++ [(c, (s.handle c).effects)]) ↔ ∀ sum ∈ s.sums c, sum.1 + sum.2 < 2 ^ 64 := by
  cases handle_adds s c with
  | @taken u chunk reply hc hu hsums hnext htaken =>
    obtain ⟨start, reply', os', hmem, hposition⟩ := h.uploader u hu
    rw [hsums, List.forall_mem_singleton, hposition]
    constructor
    · intro hnew
      have hlt := hnew u.token start reply' os' (List.mem_append_left _ hmem)
      rwa [takenBytes_snoc, htaken, if_pos rfl, ← Nat.add_assoc] at hlt
    · intro hin token position reply'' os'' hmem'
      rcases List.mem_append.mp hmem' with hmem' | hlast
      · rw [takenBytes_snoc, htaken]
        by_cases htoken : u.token = token
        · subst htoken
          rw [registered_snoc] at hnodup
          obtain rfl := start_unique (List.nodup_append.mp hnodup).1 hmem hmem'
          rwa [if_pos rfl, ← Nat.add_assoc]
        · rw [if_neg htoken]
          exact hfits token position reply'' os'' hmem'
      · obtain ⟨rfl, -⟩ := Prod.mk.inj (List.mem_singleton.mp hlast)
        cases hc
  | held hsums hnext htaken =>
    have hin : ∀ sum ∈ s.sums c, sum.1 + sum.2 < 2 ^ 64 := by
      intro sum hsum
      obtain ⟨chunk, waiter, hp⟩ := hsums sum hsum
      exact h.held chunk waiter sum.1 sum.2 hp
    refine ⟨fun _ => hin, fun _ token position reply os hmem => ?_⟩
    rw [takenBytes_snoc, htaken, Nat.add_zero]
    rcases List.mem_append.mp hmem with hmem | hlast
    · exact hfits token position reply os hmem
    · obtain ⟨hc, -⟩ := Prod.mk.inj (List.mem_singleton.mp hlast)
      rw [h.taken_eq_zero hnodup hc.symm]
      exact hstart token position reply hc.symm

theorem handle (h : Tallied tr s)
    (hnodup : (registered .uploader (tr ++ [(c, (s.handle c).effects)])).Nodup)
    (hin : ∀ sum ∈ s.sums c, sum.1 + sum.2 < 2 ^ 64) :
    Tallied (tr ++ [(c, (s.handle c).effects)]) (s.handle c).state where
  uploader u hu := by
    cases handle_adds s c with
    | @taken before chunk reply hc hbefore hsums hnext htaken =>
      obtain ⟨start, reply', os', hmem, hposition⟩ := h.uploader before hbefore
      obtain rfl := Option.some.inj (hnext.symm.trans hu)
      refine ⟨start, reply', os', List.mem_append_left _ hmem, ?_⟩
      have hlt := hin (before.position, chunk.len) (by simp [hsums])
      have hplain : addU64 before.position chunk.len = before.position + chunk.len :=
        Nat.mod_eq_of_lt hlt
      rw [takenBytes_snoc, htaken, if_pos rfl, hplain, hposition, Nat.add_assoc]
    | held hsums hnext htaken =>
      rcases hnext u hu with hu | ⟨reply, hc⟩
      · obtain ⟨start, reply', os', hmem, hposition⟩ := h.uploader u hu
        refine ⟨start, reply', os', List.mem_append_left _ hmem, ?_⟩
        rw [takenBytes_snoc, htaken, Nat.add_zero, hposition]
      · refine ⟨u.position, reply, (s.handle c).effects, ?_, ?_⟩
        · rw [← hc]
          exact List.mem_append_right _ List.mem_cons_self
        · rw [takenBytes_snoc, htaken, h.taken_eq_zero hnodup hc, Nat.add_zero]
  held chunk waiter position size hp := by
    cases handle_pending_data hp with
    | sent hc hu hnone => exact hin (position, chunk.len) (by simp [State.sums, hc, hu, hnone])
    | flushed _ _ hdata => exact h.held _ _ _ _ hdata
    | kept hdata => exact h.held _ _ _ _ hdata
    | answered hdata => exact h.held _ _ _ _ hdata
  known token hne := by
    rw [registered_snoc, List.mem_append]
    left
    by_cases hbefore : takenBytes token tr = 0
    · rw [takenBytes_snoc, hbefore, Nat.zero_add] at hne
      cases handle_adds s c with
      | @taken u chunk reply hc hu hsums hnext htaken =>
        rw [htaken] at hne
        obtain rfl : u.token = token := by
          by_contra htoken
          exact hne (if_neg htoken)
        obtain ⟨start, reply', os', hmem, -⟩ := h.uploader u hu
        exact mem_registered.mpr ⟨start, reply', os', hmem⟩
      | held hsums hnext htaken => exact absurd (htaken token) hne
    · exact h.known token hbefore

end Tallied

theorem Fits.of_snoc {x : Command × List Effect} (h : Fits (tr ++ [x])) : Fits tr := by
  intro token position reply os hmem
  have hlt := h token position reply os (List.mem_append_left _ hmem)
  rw [takenBytes_snoc, ← Nat.add_assoc] at hlt
  exact Nat.lt_of_le_of_lt (Nat.le_add_right _ _) hlt

theorem in_range_iff (hrun : (sessionTask metadata).Run tr session)
    (hnodup : (registered .uploader tr).Nodup)
    (hstart : ∀ token position reply os, (Command.startUpload token position reply, os) ∈ tr →
      position < 2 ^ 64) :
    (sessionTask metadata).Path InRange (Session.spawn metadata) tr session ↔ Fits tr := by
  have hboth : ((sessionTask metadata).Path InRange (Session.spawn metadata) tr session ↔ Fits tr) ∧
      (Fits tr → Tallied tr session.state) := by
    refine hrun.history (P := fun tr session => (registered .uploader tr).Nodup →
      (∀ token position reply os, (Command.startUpload token position reply, os) ∈ tr →
        position < 2 ^ 64) →
      ((sessionTask metadata).Path InRange (Session.spawn metadata) tr session ↔ Fits tr) ∧
        (Fits tr → Tallied tr session.state)) ?_ ?_ hnodup hstart
    · refine fun _ _ => ⟨⟨fun _ => nofun, fun _ => .refl⟩, fun _ => ⟨nofun, nofun, ?_⟩⟩
      exact fun token hne => absurd rfl hne
    intro tr session c next os hpath ih _ hstep hnodup hstart
    obtain ⟨hiff, htallied⟩ := ih
      (by
        rw [registered_snoc] at hnodup
        exact (List.nodup_append.mp hnodup).1)
      fun token position reply os hmem =>
        hstart token position reply os (List.mem_append_left _ hmem)
    have hlast : ∀ token position reply, c = .startUpload token position reply →
        position < 2 ^ 64 := by
      rintro token position reply rfl
      exact hstart token position reply os (List.mem_append_right _ List.mem_cons_self)
    have hsnoc : (sessionTask metadata).Path InRange (Session.spawn metadata) (tr ++ [(c, os)]) next ↔
        (sessionTask metadata).Path InRange (Session.spawn metadata) tr session ∧
          InRange session c := hpath.snoc_iff hstep
    obtain ⟨-, rfl, rfl⟩ := Session.step_eq_some.mp hstep
    rw [hsnoc, hiff]
    constructor
    · constructor
      · rintro ⟨hfits, hin⟩
        exact ((htallied hfits).fits_iff hfits hnodup hlast).mpr hin
      · intro hfits
        exact ⟨hfits.of_snoc, ((htallied hfits.of_snoc).fits_iff hfits.of_snoc hnodup hlast).mp hfits⟩
    · intro hfits
      have hbefore := htallied hfits.of_snoc
      exact hbefore.handle hnodup ((hbefore.fits_iff hfits.of_snoc hnodup hlast).mp hfits)
  exact hboth.1

theorem sent_start_lt {tr : Trace SystemEvent Output} {r : System}
    (hrun : (relaySystem metadata).Path (fun _ e => Parsed e) (System.spawn metadata) tr r)
    (hsent : Sent tr r (.startUpload token position reply)) : position < 2 ^ 64 := by
  revert hsent
  refine hrun.history (P := fun tr r => Sent tr r (.startUpload token position reply) →
    position < 2 ^ 64) ?_ ?_
  · simp [Sent, handledIn, System.spawn]
  intro tr r e r' os _ ih hparsed hstep hsent
  rcases sent_new (System.step_change hstep) hsent with hold | hsends
  · exact ih hold
  generalize hc : Command.startUpload token position reply = c at hsends
  cases hsends with
  | upload =>
    obtain ⟨-, rfl, -⟩ := Command.startUpload.inj hc
    obtain ⟨header, hheader⟩ := hparsed
    exact uploadPosition_lt hheader
  | plain hplain => rcases hplain with rfl | rfl | ⟨_, rfl⟩ <;> cases hc
  | _ => cases hc

/-- The session adds no positions and sizes beyond `u64`, in a run of requests whose headers are
accepted, exactly when every upload ends within `u64` from where its header says it starts. -/
theorem positions_in_range {tr : Trace SystemEvent Output} {r : System}
    (hrun : (relaySystem metadata).Path (fun _ e => Parsed e) (System.spawn metadata) tr r) :
    (sessionTask metadata).Path InRange (Session.spawn metadata) (handledIn tr) r.session ↔
      Fits (handledIn tr) := by
  have hrelay : (relaySystem metadata).Run tr r := hrun.imp trivial fun _ _ _ _ _ _ _ => ⟨trivial, trivial⟩
  exact in_range_iff (handledIn_run hrelay) (registered_nodup hrelay .uploader)
    fun token position reply os hmem => sent_start_lt hrun (.inl ⟨os, hmem⟩)

def lastPosition : List SystemEvent :=
  [.upload (2 ^ 64 - 2), .turn, .uploadResume 0, .turn, .uploadResume 0,
    .uploadBody 0 (.chunk [7]), .uploadBody 0 .eof, .turn]

theorem positions_in_range_last : ∃ tr r,
    (relaySystem "").exec (System.spawn "") lastPosition = some (tr, r) ∧
    takenBytes 0 (handledIn tr) = 1 ∧
    ((sessionTask "").Path InRange (Session.spawn "") (handledIn tr) r.session ↔
      Fits (handledIn tr)) := by
  have hexec : (relaySystem "").exec (System.spawn "") lastPosition = some (_, _) := rfl
  refine ⟨_, _, hexec, rfl, positions_in_range (EventMachine.exec_path_of _ hexec ?_)⟩
  simp only [lastPosition, List.forall_mem_cons, Parsed, true_and]
  exact ⟨⟨_, uploadPosition_star (by decide)⟩, nofun⟩

/-- An upload that has nothing left to send, and sends a byte: its position wraps to 0. -/
theorem position_wraps : ¬∀ tr r,
    (relaySystem "").Path (fun _ e => Parsed e) (System.spawn "") tr r →
      (sessionTask "").Path InRange (Session.spawn "") (handledIn tr) r.session := by
  intro h
  have hexec : (relaySystem "").exec (System.spawn "")
      [.upload (2 ^ 64 - 1), .turn, .uploadResume 0, .turn, .uploadResume 0,
        .uploadBody 0 (.chunk [7]), .uploadBody 0 .eof, .turn] = some (_, _) := rfl
  have hpre : (sessionTask "").exec (Session.spawn "")
      [.startUpload 0 (2 ^ 64 - 1) 1, .flushUpload 0 2] = some (_, _) := rfl
  have hparsed := EventMachine.exec_path_of (P := Parsed) _ hexec (by
    simp only [List.forall_mem_cons, Parsed, true_and]
    exact ⟨⟨_, uploadPosition_star (by decide)⟩, nofun⟩)
  have hguarded : (sessionTask "").Path InRange (Session.spawn "")
      ([_, _] ++ [(.uploadData 0 (.final ⟨3, [7]⟩) 4, [])]) _ := h _ _ hparsed
  obtain ⟨session, hpath, hin, -⟩ := hguarded.last
  obtain rfl := hpath.deterministic (EventMachine.exec_path _ hpre)
  have hlt := hin (2 ^ 64 - 1, 1) List.mem_cons_self
  exact absurd hlt (by decide)

end Glopfile.Relay
