import Glopfile.Client.DecryptedFile
import Glopfile.EventMachine

/-!
# The calls on a decrypted file

The clones of a `DecryptedFile` call it in any order, and each poll of the boxed future goes on
where the last one stopped, whichever clone made it. The output file gets nothing but the
plaintext of a buffer that was complete and that decrypted, from its start on and never twice.
-/

namespace Glopfile.Client

open EventMachine (Trace)

inductive FileCall
  | offset
  | write (buf : List UInt8)
  | flush (io : List IoResult)
  | close (io : List IoResult)
  deriving DecidableEq, Repr

inductive FileReturn
  | offset (n : Option ℕ)
  | write (result : Option (Except IoError ℕ))
  | flush (result : FlushPoll)
  | close (result : FlushPoll)

structure CloneCall where
  clone : ℕ
  call : FileCall
  deriving DecidableEq, Repr

variable {decrypt : List UInt8 → Option (List UInt8)}

def DecryptedFile.call (decrypt : List UInt8 → Option (List UInt8)) (f : DecryptedFile) :
    FileCall → DecryptedFile × FileReturn
  | .offset => (f, .offset f.offset)
  | .write buf => ((f.pollWrite buf).1, .write (f.pollWrite buf).2)
  | .flush io => ((f.pollFlush decrypt io).1, .flush (f.pollFlush decrypt io).2)
  | .close io => ((f.pollClose decrypt io).1, .close (f.pollClose decrypt io).2)

def fileCalls (decrypt : List UInt8 → Option (List UInt8)) (fileSize : ℕ) :
    EventMachine DecryptedFile CloneCall FileReturn where
  init := .new fileSize
  step f c := some ((f.call decrypt c.call).1, [(f.call decrypt c.call).2])

def FileReturn.flushFailed : FileReturn → Bool
  | .flush (.failed _) => true
  | .close (.failed error) => error ≠ lessBytes
  | _ => false

def NoFlushFailed (tr : Trace CloneCall FileReturn) : Prop :=
  ∀ x ∈ tr, ∀ o ∈ x.2, o.flushFailed = false

def bufferedBy : CloneCall × List FileReturn → List UInt8
  | (⟨_, .write buf⟩, [.write (some (.ok _))]) => buf
  | _ => []

def buffered (tr : Trace CloneCall FileReturn) : List UInt8 := tr.flatMap bufferedBy

def DecryptedFile.Authentic (decrypt : List UInt8 → Option (List UInt8)) (received : List UInt8)
    (f : DecryptedFile) : Prop :=
  f.file.written ≠ [] → received.length = f.fileSize ∧
    ∃ plaintext, decrypt received = some plaintext ∧ f.file.written <+: plaintext

@[simp] theorem buffered_snoc {tr : Trace CloneCall FileReturn} {x : CloneCall × List FileReturn} :
    buffered (tr ++ [x]) = buffered tr ++ bufferedBy x := by
  simp [buffered]

namespace PendingWrite
variable {received : List UInt8} {file : OutputFile} {w : PendingWrite}

theorem Wrote.written (h : w.Wrote decrypt received file) : file.written = [] ∨
    ∃ plaintext, decrypt received = some plaintext ∧ file.written <+: plaintext := by
  cases w with
  | decrypt data =>
    left
    rw [h.2]
    rfl
  | write rest => exact .inr ⟨_, h, List.prefix_append _ _⟩
  | flush => exact .inr ⟨_, h, List.prefix_refl _⟩
  | close => exact .inr ⟨_, h.1, List.prefix_refl _⟩

theorem poll_written (io : List IoResult) (h : w.Wrote decrypt received file) :
    file.written <+: (w.poll decrypt file io).1.written ∧
      ((w.poll decrypt file io).1.written = [] ∨ ∃ plaintext, decrypt received = some plaintext ∧
        (w.poll decrypt file io).1.written <+: plaintext) := by
  induction io generalizing w file with
  | nil => cases w <;> exact ⟨List.prefix_refl _, h.written⟩
  | cons r io ih =>
    cases r with
    | pending => cases w <;> exact ⟨List.prefix_refl _, h.written⟩
    | error => cases w <;> exact ⟨List.prefix_refl _, h.written⟩
    | ready len =>
      cases w with
      | decrypt data =>
        obtain ⟨rfl, rfl⟩ := h
        simp only [poll]
        cases hplain : decrypt data with
        | none => exact ⟨List.prefix_refl _, .inl rfl⟩
        | some plaintext =>
          simp only [← hplain]
          exact ih (writing_wrote (by simpa [OutputFile.empty] using hplain))
      | write rest =>
        simp only [poll]
        by_cases hlen : len = 0
        · simp only [hlen, if_true]
          exact ⟨List.prefix_refl _, Wrote.written (w := .write rest) h⟩
        · simp only [hlen, if_false]
          have hrest : (writing (rest.drop len)).Wrote decrypt received
              { file with written := file.written ++ rest.take len } := by
            refine writing_wrote ?_
            rw [List.append_assoc, List.take_append_drop]
            exact h
          obtain ⟨hmore, hplain⟩ := ih hrest
          exact ⟨(List.prefix_append _ _).trans hmore, hplain⟩
      | flush =>
        have hclose : PendingWrite.close.Wrote decrypt received { file with flushed := true } :=
          ⟨h, rfl⟩
        exact ih hclose
      | close => exact ⟨List.prefix_refl _, .inr ⟨_, h.1, List.prefix_refl _⟩⟩

theorem poll_error (io : List IoResult) : (w.poll decrypt file io).2 ≠ .failed lessBytes := by
  induction io generalizing w file with
  | nil => cases w <;> simp [poll, lessBytes]
  | cons r io ih =>
    cases r with
    | pending => cases w <;> simp [poll, lessBytes]
    | error => cases w <;> simp [poll, lessBytes]
    | ready len =>
      cases w with
      | decrypt data =>
        simp only [poll]
        cases decrypt data with
        | none => simp [lessBytes]
        | some plaintext => exact ih
      | write rest =>
        simp only [poll]
        split_ifs
        · simp [lessBytes]
        · exact ih
      | flush => exact ih
      | close => simp [poll, lessBytes]

end PendingWrite

namespace DecryptedFile
variable {f g : DecryptedFile} {received : List UInt8} {io : List IoResult} {result : FlushPoll}

theorem pollFlush_written (h : f.pollFlush decrypt io = (g, result))
    (hs : f.Stores decrypt received) (ha : f.Authentic decrypt received) :
    f.file.written <+: g.file.written ∧ g.Authentic decrypt received := by
  rcases pollFlush_cases h with ⟨_, _, _, rfl, _⟩ | ⟨_, rfl, _⟩ | ⟨_, rfl, _⟩ | ⟨w, hw, hpoll⟩
  · exact ⟨List.prefix_refl _, ha⟩
  · exact ⟨List.prefix_refl _, ha⟩
  · exact ⟨List.prefix_refl _, ha⟩
  · obtain ⟨hlen, hwrote⟩ : received.length = f.fileSize ∧ w.Wrote decrypt received f.file := by
      unfold Stores at hs
      rcases hw with hstate | ⟨data, hstate, hlen, rfl⟩
      · rw [hstate] at hs
        exact hs
      · rw [hstate] at hs
        exact ⟨hs.1 ▸ hlen, hs⟩
    obtain ⟨hmore, hplain⟩ := PendingWrite.poll_written io hwrote
    have hfile : g.file = (w.poll decrypt f.file io).1 ∧ g.fileSize = f.fileSize := by
      obtain ⟨file, ⟨_, hp, rfl, _⟩ | ⟨hp, rfl, _⟩ | ⟨_, hp, rfl, _⟩⟩ := pollPending_cases hpoll <;>
      · rw [hp]
        exact ⟨rfl, rfl⟩
    rw [← hfile.1] at hmore hplain
    refine ⟨hmore, fun hne => ⟨hfile.2 ▸ hlen, ?_⟩⟩
    exact hplain.resolve_left hne

theorem pollFlush_error (h : f.pollFlush decrypt io = (g, result)) :
    result ≠ .failed lessBytes := by
  rcases pollFlush_cases h with ⟨_, _, _, _, rfl⟩ | ⟨_, _, rfl⟩ | ⟨_, _, rfl⟩ | ⟨w, _, hpoll⟩
  · nofun
  · nofun
  · nofun
  · obtain ⟨file, ⟨_, _, _, rfl⟩ | ⟨_, _, rfl⟩ | ⟨error, hp, _, rfl⟩⟩ := pollPending_cases hpoll
    · nofun
    · nofun
    · rintro ⟨⟩
      exact PendingWrite.poll_error io (congrArg Prod.snd hp)

theorem call_written (hs : f.Stores decrypt received) (ha : f.Authentic decrypt received)
    (clone : ℕ) (c : FileCall) :
    (f.call decrypt c).1.Stores decrypt
        (received ++ bufferedBy (⟨clone, c⟩, [(f.call decrypt c).2])) ∧
      (f.call decrypt c).1.Authentic decrypt
        (received ++ bufferedBy (⟨clone, c⟩, [(f.call decrypt c).2])) ∧
      f.file.written <+: (f.call decrypt c).1.file.written := by
  cases c with
  | offset =>
    simp only [call, bufferedBy, List.append_nil]
    exact ⟨hs, ha, List.prefix_refl _⟩
  | write buf =>
    simp only [call, pollWrite]
    cases hstate : f.state with
    | unwritten data =>
      unfold Stores at hs
      rw [hstate] at hs
      obtain ⟨rfl, hfile⟩ := hs
      refine ⟨⟨rfl, hfile⟩, fun hne => absurd ?_ hne, List.prefix_refl _⟩
      simp [hfile, OutputFile.empty]
    | pending w | complete | poisoned =>
      simp only [bufferedBy, List.append_nil]
      exact ⟨hs, ha, List.prefix_refl _⟩
  | flush io =>
    simp only [call, bufferedBy, List.append_nil]
    obtain ⟨hmore, hauthentic⟩ := pollFlush_written rfl hs ha
    exact ⟨pollFlush_stores rfl hs, hauthentic, hmore⟩
  | close io =>
    simp only [call, bufferedBy, List.append_nil]
    obtain ⟨flushed, hflush, -⟩ : ∃ flushed, f.pollFlush decrypt io =
        ((f.pollClose decrypt io).1, flushed) ∧ _ := pollClose_cases rfl
    obtain ⟨hmore, hauthentic⟩ := pollFlush_written hflush hs ha
    exact ⟨pollFlush_stores hflush hs, hauthentic, hmore⟩

theorem call_unpoisoned {c : FileCall} (hstate : f.state ≠ .poisoned)
    (hclean : (f.call decrypt c).2.flushFailed = false) : (f.call decrypt c).1.state ≠ .poisoned := by
  cases c with
  | offset => exact hstate
  | write buf =>
    simp only [call, pollWrite]
    cases hwrite : f.state with
    | unwritten data => nofun
    | pending w | complete => simp [hwrite]
    | poisoned => exact absurd hwrite hstate
  | flush io =>
    rcases hflush : f.pollFlush decrypt io with ⟨g, result⟩
    simp only [call, hflush] at hclean ⊢
    refine pollFlush_unpoisoned hflush hstate ?_
    rintro error rfl
    cases hclean
  | close io =>
    rcases hclose : f.pollClose decrypt io with ⟨g, result⟩
    simp only [call, hclose] at hclean ⊢
    obtain ⟨flushed, hflush, ⟨-, hg⟩ | ⟨-, hg⟩ | ⟨rfl, -⟩⟩ := pollClose_cases hclose
    · simp [hg]
    · exact hg
    · refine pollFlush_unpoisoned hflush hstate ?_
      rintro error rfl
      obtain rfl : error = lessBytes := by simpa [FileReturn.flushFailed] using hclean
      exact pollFlush_error hflush rfl

end DecryptedFile

section Run
variable {fileSize : ℕ} {tr : Trace CloneCall FileReturn} {f : DecryptedFile}

theorem fileCalls_step {g : DecryptedFile} {c : CloneCall} {os : List FileReturn}
    (h : (fileCalls decrypt fileSize).step f c = some (g, os)) :
    g = (f.call decrypt c.call).1 ∧ os = [(f.call decrypt c.call).2] := by
  obtain ⟨rfl, rfl⟩ := Prod.mk.inj (Option.some.inj h)
  exact ⟨rfl, rfl⟩

theorem fileCalls_written (hrun : (fileCalls decrypt fileSize).Run tr f) :
    f.Stores decrypt (buffered tr) ∧ f.Authentic decrypt (buffered tr) := by
  refine hrun.history (P := fun tr f => f.Stores decrypt (buffered tr) ∧
    f.Authentic decrypt (buffered tr)) ⟨DecryptedFile.new_stores fileSize, nofun⟩ ?_
  intro tr f c g os _ h _ hstep
  obtain ⟨rfl, rfl⟩ := fileCalls_step hstep
  obtain ⟨hs, ha, -⟩ := DecryptedFile.call_written h.1 h.2 c.clone c.call
  rw [buffered_snoc]
  exact ⟨hs, ha⟩

theorem fileCalls_grows {pre suf : Trace CloneCall FileReturn} {g : DecryptedFile}
    (hpre : (fileCalls decrypt fileSize).Run pre g)
    (hrun : (fileCalls decrypt fileSize).Run (pre ++ suf) f) :
    g.file.written <+: f.file.written := by
  obtain ⟨g', hpre', hsuf⟩ := hrun.split
  obtain rfl := hpre.deterministic hpre'
  refine hsuf.history (P := fun _ f => g.file.written <+: f.file.written) (List.prefix_refl _) ?_
  intro suf f c u os hpath ih _ hstep
  obtain ⟨rfl, rfl⟩ := fileCalls_step hstep
  obtain ⟨hs, ha⟩ := fileCalls_written (hpre.trans hpath)
  exact ih.trans (DecryptedFile.call_written hs ha c.clone c.call).2.2

theorem fileCalls_unpoisoned (hrun : (fileCalls decrypt fileSize).Run tr f)
    (hclean : NoFlushFailed tr) : f.state ≠ .poisoned := by
  refine hrun.history (P := fun tr f => NoFlushFailed tr → f.state ≠ .poisoned)
    (fun _ => nofun) ?_ hclean
  intro tr f c g os _ ih _ hstep hclean
  obtain ⟨rfl, rfl⟩ := fileCalls_step hstep
  have hbefore := ih fun x hx => hclean x (List.mem_append_left _ hx)
  exact DecryptedFile.call_unpoisoned hbefore
    (hclean _ (List.mem_append_right _ List.mem_cons_self) _ List.mem_cons_self)

/-- In every run of calls the output file has nothing but plaintext of the whole buffer; and as
long as no flush has failed it is written once and from its start, the whole of it by the time
the file is complete, the offset does not go back, a write that comes too late is refused, and
closing returns `Ok` of a complete file alone. -/
theorem plaintext_is_written_once (hrun : (fileCalls decrypt fileSize).Run tr f) :
    f.Authentic decrypt (buffered tr) ∧
    (NoFlushFailed tr →
      (f.state = .complete → f.file.Finished decrypt (buffered tr)) ∧
      (∀ pre suf g, tr = pre ++ suf → (fileCalls decrypt fileSize).Run pre g →
        g.file.written <+: f.file.written ∧
          ∃ n m, g.offset = some n ∧ f.offset = some m ∧ n ≤ m) ∧
      (f.started = true → ∀ buf,
        f.call decrypt (.write buf) = (f, .write (some (.error moreBytes)))) ∧
      ∀ io, (f.call decrypt (.close io)).2 = .close .ready →
        (f.call decrypt (.close io)).1.state = .complete) := by
  obtain ⟨hstores, hauthentic⟩ := fileCalls_written hrun
  refine ⟨hauthentic, fun hclean => ⟨hstores.complete, ?_, ?_, ?_⟩⟩
  · rintro pre suf g rfl hpre
    have hcleanPre : NoFlushFailed pre := fun x hx => hclean x (List.mem_append_left _ hx)
    obtain ⟨hstoresPre, -⟩ := fileCalls_written hpre
    obtain ⟨n, hn⟩ := DecryptedFile.exists_offset (fileCalls_unpoisoned hpre hcleanPre)
    obtain ⟨m, hm⟩ := DecryptedFile.exists_offset (fileCalls_unpoisoned hrun hclean)
    refine ⟨fileCalls_grows hpre hrun, n, m, hn, hm, ?_⟩
    have happend : buffered (pre ++ suf) = buffered pre ++ buffered suf := List.flatMap_append
    rw [hstoresPre.offset hn, hstores.offset hm, happend, List.length_append]
    exact Nat.le_add_right _ _
  · intro hstarted buf
    have hunpoisoned := fileCalls_unpoisoned hrun hclean
    unfold DecryptedFile.started at hstarted
    unfold DecryptedFile.call DecryptedFile.pollWrite
    cases hstate : f.state with
    | unwritten data => simp [hstate] at hstarted
    | pending w | complete => rfl
    | poisoned => exact absurd hstate hunpoisoned
  · intro io hready
    rcases hclose : f.pollClose decrypt io with ⟨g, result⟩
    simp only [DecryptedFile.call, hclose] at hready ⊢
    obtain rfl : result = .ready := FileReturn.close.inj hready
    obtain ⟨flushed, -, ⟨-, hg⟩ | ⟨hresult, -⟩ | ⟨rfl, hne⟩⟩ := DecryptedFile.pollClose_cases hclose
    · exact hg
    · cases hresult
    · exact absurd rfl hne

def flushAbandoned : List CloneCall :=
  [⟨0, .write (List.replicate 12 0 ++ [1, 2])⟩, ⟨1, .write (List.replicate 16 0)⟩,
    ⟨0, .flush [.ready 0, .ready 1, .pending]⟩, ⟨1, .close [.ready 1, .ready 0, .ready 0]⟩]

theorem plaintext_is_written_once_abandoned : ∃ tr f,
    (fileCalls unframe 2).exec (.new 2) flushAbandoned =
        some (tr, f) ∧
    f.state = .complete ∧ f.file.written = [1, 2] ∧ f.Authentic unframe (buffered tr) := by
  have hexec : (fileCalls unframe 2).exec (.new 2) flushAbandoned =
      some (_, _) := rfl
  exact ⟨_, _, hexec, rfl, rfl, (plaintext_is_written_once (EventMachine.exec_run _ hexec)).1⟩

end Run

end Glopfile.Client
