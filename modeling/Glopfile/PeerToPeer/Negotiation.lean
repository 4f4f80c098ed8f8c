import Glopfile.PeerToPeer.Answers

/-!
# Negotiation between a downloader and an uploader

The downloader makes the offers and the uploader answers them, over a signaling path that may
lose messages and neither reorders nor repeats them. What arrives under the cipher is the first
message of the path; anything else that arrives does not decrypt. Offers are made again whenever
the downloader tries once more to connect, so that offers and answers of several attempts may be
under way together.
-/

namespace Glopfile.PeerToPeer

open EventMachine (Trace)

variable {E O : Type*}

structure Negotiation (E : Type*) where
  downloader : Client E
  uploader : Client E × Rtc
  toUploader : List RtcSignaling
  toDownloader : List RtcSignaling

inductive NegotiationEvent (E O : Type*)
  | downloader (input : Input E O)
  | uploader (input : Input E O)
  | deliverToUploader (message : E)
  | deliverToDownloader (message : E)
  | noiseToUploader (message : E)
  | noiseToDownloader (message : E)
  | loseToUploader
  | loseToDownloader

inductive NegotiationOutput (E O : Type*)
  | downloader (output : Output E O)
  | uploader (output : Output E O)

def Input.isHandle : Input E O → Bool
  | .handle _ => true
  | _ => false

namespace Negotiation
variable (decryptUploader decryptDownloader : E → Except Api.Error RtcSignalingMessage)

def init : Negotiation E := ⟨.new, (.new, .new), [], []⟩

def downloaderStep (s : Negotiation E) (input : Input E O) :
    Option (Negotiation E × List (NegotiationOutput E O)) :=
  (s.downloader.step decryptDownloader input).map fun r =>
    ({ s with downloader := r.1, toUploader := s.toUploader ++ sent r.2 },
      r.2.map .downloader)

def uploaderStep (s : Negotiation E) (input : Input E O) :
    Option (Negotiation E × List (NegotiationOutput E O)) :=
  (s.uploader.1.step decryptUploader input).map fun r =>
    ({ s with
        uploader := (r.1, Rtc.update s.uploader.1 s.uploader.2 input r.2)
        toDownloader := s.toDownloader ++ sent r.2 },
      r.2.map .uploader)

def step (s : Negotiation E) :
    NegotiationEvent E O → Option (Negotiation E × List (NegotiationOutput E O))
  | .downloader input => if input.isHandle then none else s.downloaderStep decryptDownloader input
  | .uploader input => if input.isHandle then none else s.uploaderStep decryptUploader input
  | .deliverToUploader message =>
    match s.toUploader with
    | [] => none
    | first :: rest =>
      if heard decryptUploader message = some first then
        { s with toUploader := rest }.uploaderStep decryptUploader (.handle message)
      else none
  | .deliverToDownloader message =>
    match s.toDownloader with
    | [] => none
    | first :: rest =>
      if heard decryptDownloader message = some first then
        { s with toDownloader := rest }.downloaderStep decryptDownloader (.handle message)
      else none
  | .noiseToUploader message =>
    if heard decryptUploader message = none then
      s.uploaderStep decryptUploader (.handle message)
    else none
  | .noiseToDownloader message =>
    if heard decryptDownloader message = none then
      s.downloaderStep decryptDownloader (.handle message)
    else none
  | .loseToUploader => some ({ s with toUploader := s.toUploader.tail }, [])
  | .loseToDownloader => some ({ s with toDownloader := s.toDownloader.tail }, [])

end Negotiation

def negotiation (decryptUploader decryptDownloader : E → Except Api.Error RtcSignalingMessage) :
    EventMachine (Negotiation E) (NegotiationEvent E O) (NegotiationOutput E O) where
  init := .init
  step := Negotiation.step decryptUploader decryptDownloader

/-- The downloader offers before it transfers; the uploader answers. -/
def Negotiates (offerOf : SessionDescription → SessionDescription) (s : Negotiation E) :
    NegotiationEvent E O → Prop
  | .downloader input => OffersFirst s.downloader input
  | .uploader input => Answering offerOf s.uploader input
  | _ => True

instance (offerOf : SessionDescription → SessionDescription) (s : Negotiation E)
    (e : NegotiationEvent E O) : Decidable (Negotiates offerOf s e) := by
  unfold Negotiates
  split <;> infer_instance

def downloaderOutputs (os : List (NegotiationOutput E O)) : List (Output E O) :=
  os.filterMap fun
    | .downloader output => some output
    | .uploader _ => none

def uploaderOutputs (os : List (NegotiationOutput E O)) : List (Output E O) :=
  os.filterMap fun
    | .uploader output => some output
    | .downloader _ => none

def downloaderView :
    NegotiationEvent E O × List (NegotiationOutput E O) → Trace (Input E O) (Output E O)
  | (.downloader input, os) => [(input, downloaderOutputs os)]
  | (.deliverToDownloader message, os) | (.noiseToDownloader message, os) =>
    [(.handle message, downloaderOutputs os)]
  | _ => []

def uploaderView :
    NegotiationEvent E O × List (NegotiationOutput E O) → Trace (Input E O) (Output E O)
  | (.uploader input, os) => [(input, uploaderOutputs os)]
  | (.deliverToUploader message, os) | (.noiseToUploader message, os) =>
    [(.handle message, uploaderOutputs os)]
  | _ => []

def downloads (tr : Trace (NegotiationEvent E O) (NegotiationOutput E O)) :
    Trace (Input E O) (Output E O) := tr.flatMap downloaderView

def uploads (tr : Trace (NegotiationEvent E O) (NegotiationOutput E O)) :
    Trace (Input E O) (Output E O) := tr.flatMap uploaderView

section Views
variable {decryptUploader decryptDownloader : E → Except Api.Error RtcSignalingMessage}
  {offerOf : SessionDescription → SessionDescription} {s s' : Negotiation E}
  {e : NegotiationEvent E O} {os : List (NegotiationOutput E O)} {input : Input E O}
  {tr : Trace (NegotiationEvent E O) (NegotiationOutput E O)}

theorem downloaderOutputs_map (os : List (Output E O)) :
    downloaderOutputs (os.map .downloader) = os := by
  rw [downloaderOutputs, List.filterMap_map]
  exact List.filterMap_some

theorem uploaderOutputs_map (os : List (Output E O)) : uploaderOutputs (os.map .uploader) = os := by
  rw [uploaderOutputs, List.filterMap_map]
  exact List.filterMap_some

theorem downloaderStep_eq (h : s.downloaderStep decryptDownloader input = some (s', os)) :
    s.downloader.step decryptDownloader input = some (s'.downloader, downloaderOutputs os) ∧
      s'.uploader = s.uploader ∧ s'.toDownloader = s.toDownloader ∧
      s'.toUploader = s.toUploader ++ sent (downloaderOutputs os) := by
  obtain ⟨r, hr, heq⟩ := Option.map_eq_some_iff.mp h
  obtain ⟨rfl, rfl⟩ := Prod.mk.inj heq
  rw [downloaderOutputs_map]
  exact ⟨hr, rfl, rfl, rfl⟩

theorem uploaderStep_eq (h : s.uploaderStep decryptUploader input = some (s', os)) :
    (clientWithRtc decryptUploader).step s.uploader input =
        some (s'.uploader, uploaderOutputs os) ∧
      s'.downloader = s.downloader ∧ s'.toUploader = s.toUploader ∧
      s'.toDownloader = s.toDownloader ++ sent (uploaderOutputs os) := by
  obtain ⟨r, hr, heq⟩ := Option.map_eq_some_iff.mp h
  obtain ⟨rfl, rfl⟩ := Prod.mk.inj heq
  rw [uploaderOutputs_map]
  exact ⟨EventMachine.withGhost_step.mpr ⟨hr, rfl⟩, rfl, rfl, rfl⟩

def heardAll (decrypt : E → Except Api.Error RtcSignalingMessage) (messages : List E) :
    List RtcSignaling := messages.filterMap (heard decrypt)

inductive Moves (decryptUploader decryptDownloader : E → Except Api.Error RtcSignalingMessage)
    (offerOf : SessionDescription → SessionDescription) (s s' : Negotiation E) :
    NegotiationEvent E O × List (NegotiationOutput E O) → Prop
  | downloader {x : NegotiationEvent E O × List (NegotiationOutput E O)} {input : Input E O}
      {os : List (Output E O)} (hdownloads : downloaderView x = [(input, os)])
      (huploads : uploaderView x = [])
      (hguard : OffersFirst s.downloader input)
      (hstep : s.downloader.step decryptDownloader input = some (s'.downloader, os))
      (huploader : s'.uploader = s.uploader)
      (hto : s'.toUploader = s.toUploader ++ sent os)
      (hfrom : (heardAll decryptDownloader (handed [input]) ++ s'.toDownloader).Sublist
        s.toDownloader) :
      Moves decryptUploader decryptDownloader offerOf s s' x
  | uploader {x : NegotiationEvent E O × List (NegotiationOutput E O)} {input : Input E O}
      {os : List (Output E O)} (hdownloads : downloaderView x = [])
      (huploads : uploaderView x = [(input, os)])
      (hguard : Answering offerOf s.uploader input)
      (hstep : (clientWithRtc decryptUploader).step s.uploader input = some (s'.uploader, os))
      (hdownloader : s'.downloader = s.downloader)
      (hto : s'.toDownloader = s.toDownloader ++ sent os)
      (hfrom : (heardAll decryptUploader (handed [input]) ++ s'.toUploader).Sublist
        s.toUploader) :
      Moves decryptUploader decryptDownloader offerOf s s' x
  | lost {x : NegotiationEvent E O × List (NegotiationOutput E O)}
      (hdownloads : downloaderView x = []) (huploads : uploaderView x = [])
      (hdownloader : s'.downloader = s.downloader) (huploader : s'.uploader = s.uploader)
      (hto : s'.toUploader.Sublist s.toUploader) (hfrom : s'.toDownloader.Sublist s.toDownloader) :
      Moves decryptUploader decryptDownloader offerOf s s' x

theorem handed_of_not_handle (h : input.isHandle = false) : handed [input] = [] := by
  cases input <;> first | rfl | cases h

theorem step_moves (hguard : Negotiates offerOf s e)
    (h : s.step decryptUploader decryptDownloader e = some (s', os)) :
    Moves decryptUploader decryptDownloader offerOf s s' (e, os) := by
  cases e with
  | downloader input =>
    simp only [Negotiation.step] at h
    split_ifs at h with hhandle
    obtain ⟨hstep, huploader, hfrom, hto⟩ := downloaderStep_eq h
    refine .downloader rfl rfl hguard hstep huploader hto ?_
    rw [handed_of_not_handle (by simpa using hhandle), hfrom]
    exact List.Sublist.refl _
  | uploader input =>
    simp only [Negotiation.step] at h
    split_ifs at h with hhandle
    obtain ⟨hstep, hdownloader, hfrom, hto⟩ := uploaderStep_eq h
    refine .uploader rfl rfl hguard hstep hdownloader hto ?_
    rw [handed_of_not_handle (by simpa using hhandle), hfrom]
    exact List.Sublist.refl _
  | deliverToUploader message =>
    simp only [Negotiation.step] at h
    split at h
    · cases h
    · next first rest hpath =>
      split_ifs at h with hheard
      obtain ⟨hstep, hdownloader, hfrom, hto⟩ := uploaderStep_eq h
      refine .uploader rfl rfl trivial hstep hdownloader hto ?_
      rw [hfrom, hpath]
      simp [heardAll, handed, Input.event, Event.message, hheard]
  | deliverToDownloader message =>
    simp only [Negotiation.step] at h
    split at h
    · cases h
    · next first rest hpath =>
      split_ifs at h with hheard
      obtain ⟨hstep, huploader, hfrom, hto⟩ := downloaderStep_eq h
      refine .downloader rfl rfl trivial hstep huploader hto ?_
      rw [hfrom, hpath]
      simp [heardAll, handed, Input.event, Event.message, hheard]
  | noiseToUploader message =>
    simp only [Negotiation.step] at h
    split_ifs at h with hheard
    obtain ⟨hstep, hdownloader, hfrom, hto⟩ := uploaderStep_eq h
    refine .uploader rfl rfl trivial hstep hdownloader hto ?_
    rw [hfrom]
    simp [heardAll, handed, Input.event, Event.message, hheard]
  | noiseToDownloader message =>
    simp only [Negotiation.step] at h
    split_ifs at h with hheard
    obtain ⟨hstep, huploader, hfrom, hto⟩ := downloaderStep_eq h
    refine .downloader rfl rfl trivial hstep huploader hto ?_
    rw [hfrom]
    simp [heardAll, handed, Input.event, Event.message, hheard]
  | loseToUploader =>
    obtain ⟨rfl, rfl⟩ := Prod.mk.inj (Option.some.inj h)
    exact .lost rfl rfl rfl rfl (List.tail_sublist _) (List.Sublist.refl _)
  | loseToDownloader =>
    obtain ⟨rfl, rfl⟩ := Prod.mk.inj (Option.some.inj h)
    exact .lost rfl rfl rfl rfl (List.Sublist.refl _) (List.tail_sublist _)

end Views

section Run
variable {decryptUploader decryptDownloader : E → Except Api.Error RtcSignalingMessage}
  {offerOf : SessionDescription → SessionDescription} {s : Negotiation E}
  {tr : Trace (NegotiationEvent E O) (NegotiationOutput E O)}

theorem path_downloads
    (hpath : (negotiation decryptUploader decryptDownloader).Path (Negotiates offerOf) .init tr s) :
    (client decryptDownloader).Path OffersFirst .new (downloads tr) s.downloader := by
  refine hpath.simulate Negotiation.downloader downloaderView fun s e s' os hguard hstep => ?_
  cases step_moves hguard hstep with
  | downloader hview _ hguard hstep _ _ _ =>
    rw [hview]
    exact .single hguard hstep
  | uploader hview _ _ _ hdownloader _ _ | lost hview _ hdownloader _ _ _ =>
    rw [hview, hdownloader]
    exact .refl

theorem path_uploads
    (hpath : (negotiation decryptUploader decryptDownloader).Path (Negotiates offerOf) .init tr s) :
    (clientWithRtc decryptUploader).Path (Answering offerOf) (.new, .new) (uploads tr)
      s.uploader := by
  refine hpath.simulate Negotiation.uploader uploaderView fun s e s' os hguard hstep => ?_
  cases step_moves hguard hstep with
  | uploader _ hview hguard hstep _ _ _ =>
    rw [hview]
    exact .single hguard hstep
  | downloader _ hview _ _ huploader _ _ | lost _ hview _ huploader _ _ =>
    rw [hview, huploader]
    exact .refl

structure Negotiated (decryptUploader decryptDownloader : E → Except Api.Error RtcSignalingMessage)
    (tr : Trace (NegotiationEvent E O) (NegotiationOutput E O)) (s : Negotiation E) : Prop where
  toUploader : (heardAll decryptUploader (handed (uploads tr).events) ++ s.toUploader).Sublist
    (sent (downloads tr).outputs)
  toDownloader : (heardAll decryptDownloader (handed (downloads tr).events) ++
    s.toDownloader).Sublist (sent (uploads tr).outputs)

theorem heardAll_append {decrypt : E → Except Api.Error RtcSignalingMessage}
    (messages messages' : List E) :
    heardAll decrypt (messages ++ messages') =
      heardAll decrypt messages ++ heardAll decrypt messages' := List.filterMap_append

theorem arrived_sublist {arrived more path path' before : List RtcSignaling}
    (h : (arrived ++ path).Sublist before) (hfrom : (more ++ path').Sublist path) :
    (arrived ++ more ++ path').Sublist before := by
  rw [List.append_assoc]
  exact ((List.Sublist.refl _).append hfrom).trans h

theorem Negotiated.step {s' : Negotiation E} {e : NegotiationEvent E O}
    {os : List (NegotiationOutput E O)} (h : Negotiated decryptUploader decryptDownloader tr s)
    (hmoves : Moves decryptUploader decryptDownloader offerOf s s' (e, os)) :
    Negotiated decryptUploader decryptDownloader (tr ++ [(e, os)]) s' := by
  have hdownloads : downloads (tr ++ [(e, os)]) = downloads tr ++ downloaderView (e, os) := by
    simp [downloads]
  have huploads : uploads (tr ++ [(e, os)]) = uploads tr ++ uploaderView (e, os) := by
    simp [uploads]
  cases hmoves with
  | downloader hview hother _ _ _ hto hfrom =>
    rw [hview] at hdownloads
    rw [hother, List.append_nil] at huploads
    refine ⟨?_, ?_⟩
    · rw [huploads, hdownloads, hto, EventMachine.Trace.outputs_append,
        EventMachine.Trace.outputs_single, sent_append, ← List.append_assoc]
      exact h.toUploader.append (List.Sublist.refl _)
    · rw [huploads, hdownloads, EventMachine.Trace.events_append,
        EventMachine.Trace.events_single, handed_append, heardAll_append]
      exact arrived_sublist h.toDownloader hfrom
  | uploader hother hview _ _ _ hto hfrom =>
    rw [hview] at huploads
    rw [hother, List.append_nil] at hdownloads
    refine ⟨?_, ?_⟩
    · rw [huploads, hdownloads, EventMachine.Trace.events_append,
        EventMachine.Trace.events_single, handed_append, heardAll_append]
      exact arrived_sublist h.toUploader hfrom
    · rw [huploads, hdownloads, hto, EventMachine.Trace.outputs_append,
        EventMachine.Trace.outputs_single, sent_append, ← List.append_assoc]
      exact h.toDownloader.append (List.Sublist.refl _)
  | lost hview hother _ _ hto hfrom =>
    rw [hview, List.append_nil] at hdownloads
    rw [hother, List.append_nil] at huploads
    refine ⟨?_, ?_⟩ <;> rw [hdownloads, huploads]
    · exact ((List.Sublist.refl _).append hto).trans h.toUploader
    · exact ((List.Sublist.refl _).append hfrom).trans h.toDownloader

theorem path_negotiated
    (hpath : (negotiation decryptUploader decryptDownloader).Path (Negotiates offerOf) .init tr s) :
    Negotiated decryptUploader decryptDownloader tr s := by
  refine hpath.history ⟨List.nil_sublist _, List.nil_sublist _⟩ ?_
  intro tr s e s' os _ ih hguard hstep
  exact ih.step (step_moves hguard hstep)

theorem received_sublist_described {decrypt : E → Except Api.Error RtcSignalingMessage}
    {inputs : List (Input E O)} {os os' : List (Output E O)} {path : List RtcSignaling}
    (hreceived : (received decrypt os).Sublist ((handed inputs).filterMap fun message =>
      (heard decrypt message).bind RtcSignaling.description))
    (hpath : (heardAll decrypt (handed inputs) ++ path).Sublist (sent os')) :
    (received decrypt os).Sublist (described os') := by
  have hheard := ((List.sublist_append_left _ _).trans hpath).filterMap RtcSignaling.description
  rw [heardAll, List.filterMap_filterMap] at hheard
  exact hreceived.trans hheard

/-- Of any number of offers made one after another, whose answers may be lost or come late, the
downloader sets answers of the uploader to its own offers, in the order of the offers and at most
one for each; the uploader sets the downloader's offers, in order. -/
theorem answers_match_offers
    (hpath : (negotiation decryptUploader decryptDownloader).Path (Negotiates offerOf) .init tr s) :
    ((applied (downloads tr).outputs).map offerOf).Sublist (described (downloads tr).outputs) ∧
      (applied (uploads tr).outputs).Sublist (described (downloads tr).outputs) ∧
      (∀ answer ∈ applied (downloads tr).outputs, answer.type = .answer) ∧
      (∀ offer ∈ applied (uploads tr).outputs, offer.type = .offer) ∧
      s.downloader.connection.id = 0 := by
  have h := path_negotiated hpath
  have hdownloads := path_downloads hpath
  have huploads := path_uploads hpath
  have hoffering := path_offering hdownloads
  have hanswering := path_answersInOrder huploads
  have hmatch : ((described (uploads tr).outputs).map offerOf).Sublist
      (applied (uploads tr).outputs) := (List.sublist_append_left _ _).trans hanswering.order
  have hdownloader : (applied (downloads tr).outputs).Sublist (described (uploads tr).outputs) :=
    (path_applied hdownloads).trans
      (received_sublist_described (path_received hdownloads) h.toDownloader)
  have huploader : (applied (uploads tr).outputs).Sublist (described (downloads tr).outputs) :=
    (path_applied huploads.forget).trans
      (received_sublist_described (path_received huploads.forget) h.toUploader)
  exact ⟨((hdownloader.map offerOf).trans hmatch).trans huploader, huploader, hoffering.answers,
    hanswering.offers, hoffering.id⟩

end Run

def firstAnswerLost : List (NegotiationEvent RtcSignaling Unit) :=
  [.downloader .createOffer, .downloader (.offerCreated (.ok ())),
    .downloader (.report 0 (.outgoingSignalingMessage (.sessionDescription ⟨"a", 1⟩))),
    .downloader (.transfer none), .downloader .next, .uploader (.transfer none),
    .deliverToUploader (.sessionDescription ⟨"a", 1⟩), .uploader .next,
    .uploader (.decrypted (.ok ())), .uploader (.remoteDescriptionSet (.ok ())),
    .uploader (.answerCreated (.ok ())),
    .uploader (.report 0 (.outgoingSignalingMessage (.sessionDescription ⟨"a", 0⟩))),
    .uploader .next, .uploader (.sent (.ok ())), .loseToDownloader,
    .downloader .abandoned, .downloader .createOffer, .downloader (.offerCreated (.ok ())),
    .downloader (.report 0 (.outgoingSignalingMessage (.sessionDescription ⟨"b", 1⟩))),
    .downloader (.transfer none), .downloader .next,
    .deliverToUploader (.sessionDescription ⟨"b", 1⟩), .uploader .next,
    .uploader (.decrypted (.ok ())), .uploader (.remoteDescriptionSet (.ok ())),
    .uploader (.answerCreated (.ok ())),
    .uploader (.report 1 (.outgoingSignalingMessage (.sessionDescription ⟨"b", 0⟩))),
    .uploader .next, .downloader (.sent (.ok ())),
    .deliverToDownloader (.sessionDescription ⟨"b", 0⟩), .downloader .next,
    .downloader (.decrypted (.ok ()))]

theorem answers_match_offers_again : ∃ tr s,
    ((negotiation (O := Unit) plain plain).restrict (Negotiates fun d => ⟨d.sdp, 1⟩)).exec
        .init firstAnswerLost = some (tr, s) ∧
      applied (downloads tr).outputs = [⟨"b", 0⟩] ∧
      described (downloads tr).outputs = [⟨"a", 1⟩, ⟨"b", 1⟩] ∧
      ((applied (downloads tr).outputs).map fun d => ⟨d.sdp, 1⟩).Sublist
        (described (downloads tr).outputs) := by
  have hexec : ((negotiation (O := Unit) plain plain).restrict
      (Negotiates fun d => ⟨d.sdp, 1⟩)).exec .init firstAnswerLost = some (_, _) := rfl
  exact ⟨_, _, hexec, rfl, rfl,
    (answers_match_offers (EventMachine.Path.guarded_of_restrict
      (EventMachine.exec_path _ hexec))).1⟩

end Glopfile.PeerToPeer
