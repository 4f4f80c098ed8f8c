import Glopfile.Client.Cipher
import Glopfile.Client.UrlSafeBase64
import Glopfile.Whatwg.Serialized

/-!
# Download links

The uploader writes a link to the download page, with the id of the session in the path and the
cipher key in the fragment, and the downloader reads both from it. Neither id nor key has a code
point that a URL encodes, or that ends a part of one, so that they are read as they were written.
-/

namespace Glopfile.Client

open Base64 (Engine Standard)
open Relay (SessionId UrlSafe)
open Whatwg (HostParser Url Path PercentEncodeSet)

namespace CipherKey
variable (engine : Engine Standard)

def fromString (urlSafeBase64 : String) : Except Api.Error CipherKey :=
  match UrlSafeBase64.decode engine urlSafeBase64 with
  | none => .error .invalidCipherKey
  | some bytes =>
    match FixedBytes.tryFrom keySize bytes with
    | none => .error .invalidCipherKey
    | some byteArray => .ok byteArray

def serialized (cipherKey : CipherKey) : String := UrlSafeBase64.encode engine cipherKey.1

end CipherKey

def downloadUrlWithoutCipherKey (downloadEndpoint : Url) (downloadId : DownloadId) : Url :=
  downloadEndpoint.setPath ("/download/" ++ downloadId.text).toList

structure ProvisionedFile where
  downloadUrlWithoutCipherKey : Url
  cipherKey : CipherKey

section Link
variable (host : HostParser) (engine : Engine Standard)

def ProvisionedFile.formattedDownloadUrlAndKey (file : ProvisionedFile) : String :=
  .ofList (file.downloadUrlWithoutCipherKey.serialize) ++ "#cipher_key=" ++
    file.cipherKey.serialized engine

def parseCipherKey (downloadUrl : Url) : Except Api.Error CipherKey :=
  match downloadUrl.fragment with
  | none => .error (.invalidInput "download url was missing fragment")
  | some fragment =>
    match fragment.dropPrefix? "cipher_key=".toList with
    | none => .error (.invalidInput "download url cipher_key was invalid or missing")
    | some serialized => CipherKey.fromString engine (.ofList serialized)

/-- `none` is the assertion of `DownloadId::new`. -/
def parseDownloadId (downloadUrl : Url) : Option (Except Api.Error DownloadId) :=
  let downloadPath := downloadUrl.path.serialize
  match downloadPath.dropPrefix? "/download/".toList with
  | none => some (.error (.invalidInput "Invalid download url"))
  | some downloadIdStr =>
    if '/' ∈ downloadIdStr then some (.error (.invalidInput "Invalid download url"))
    else (DownloadId.new (.ofList downloadIdStr)).map .ok

def parseDownloadUrl (downloadUrlStr : String) :
    Option (Except Api.Error (DownloadId × CipherKey)) :=
  match Whatwg.parse host downloadUrlStr.toList with
  | none => some (.error (.invalidInput "unparseable download url"))
  | some downloadUrl =>
    match parseCipherKey engine downloadUrl with
    | .error error => some (.error error)
    | .ok cipherKey =>
      (parseDownloadId downloadUrl).map fun downloadId =>
        downloadId.map fun downloadId => (downloadId, cipherKey)

def HasCipherKey (url : Url) (cipherKey : CipherKey) : Prop :=
  ∃ serialized, url.fragment = some ("cipher_key=".toList ++ serialized) ∧
    UrlSafeBase64.decode engine (.ofList serialized) = some cipherKey.1

def HasDownloadId (url : Url) (downloadId : DownloadId) : Prop :=
  url.path.serialize = "/download/".toList ++ downloadId.text.toList

end Link

variable {host : HostParser} {engine : Engine Standard} {url : Url} {cipherKey : CipherKey}
  {downloadId : DownloadId} {id : SessionId} {c : Char}

namespace CipherKey
variable {text : String}

theorem fromString_eq_ok_iff :
    fromString engine text = .ok cipherKey ↔
      UrlSafeBase64.decode engine text = some cipherKey.1 := by
  unfold fromString
  cases hdecode : UrlSafeBase64.decode engine text with
  | none => exact ⟨nofun, nofun⟩
  | some bytes =>
    by_cases hlength : bytes.length = keySize
    · simp only [FixedBytes.tryFrom, dif_pos hlength, Except.ok.injEq, Option.some.injEq,
        Subtype.ext_iff]
    · simp only [FixedBytes.tryFrom, dif_neg hlength, reduceCtorEq, Option.some.injEq, false_iff]
      rintro rfl
      exact hlength cipherKey.2

def asId (cipherKey : CipherKey) : SessionId where
  bytes := cipherKey.1
  nonempty h := by
    have hlength := cipherKey.2
    rw [h] at hlength
    cases hlength

theorem decode_serialized :
    UrlSafeBase64.decode engine (cipherKey.serialized engine) = some cipherKey.1 :=
  UrlSafeBase64.decode_eq_some_iff.mpr (SessionId.decode_encode cipherKey.asId)

theorem urlSafe_of_mem (h : c ∈ (cipherKey.serialized engine).toList) : UrlSafe c :=
  @SessionId.urlSafe_of_mem engine cipherKey.asId c h

end CipherKey

theorem parseCipherKey_eq_ok_iff :
    parseCipherKey engine url = .ok cipherKey ↔ HasCipherKey engine url cipherKey := by
  unfold parseCipherKey HasCipherKey
  cases url.fragment with
  | none => simp
  | some fragment =>
    dsimp only
    cases hdrop : fragment.dropPrefix? "cipher_key=".toList with
    | none =>
      simp only [reduceCtorEq, Option.some.injEq, false_iff, not_exists, not_and]
      rintro serialized rfl
      rw [HeaderText.dropPrefix_append] at hdrop
      cases hdrop
    | some serialized =>
      obtain rfl := HeaderText.dropPrefix_eq_some_iff.mp hdrop
      simp [CipherKey.fromString_eq_ok_iff]

theorem parseDownloadId_returns (url : Url) : ∃ result, parseDownloadId url = some result ∧
    ∀ downloadId, result = .ok downloadId ↔ HasDownloadId url downloadId := by
  unfold parseDownloadId HasDownloadId
  dsimp only
  cases hdrop : url.path.serialize.dropPrefix? "/download/".toList with
  | none =>
    refine ⟨_, rfl, fun downloadId => ⟨nofun, fun hpath => ?_⟩⟩
    rw [hpath, HeaderText.dropPrefix_append] at hdrop
    cases hdrop
  | some downloadIdStr =>
    rw [HeaderText.dropPrefix_eq_some_iff.mp hdrop]
    dsimp only
    by_cases hslash : '/' ∈ downloadIdStr
    · rw [if_pos hslash]
      refine ⟨_, rfl, fun downloadId => ⟨nofun, fun hpath => ?_⟩⟩
      rw [List.append_cancel_left hpath] at hslash
      exact absurd hslash downloadId.no_slash
    · have hnew : DownloadId.new (.ofList downloadIdStr) =
          some ⟨.ofList downloadIdStr, by rwa [String.toList_ofList]⟩ := by
        rw [DownloadId.new, dif_pos]
      rw [if_neg hslash, hnew]
      refine ⟨_, rfl, fun downloadId => ?_⟩
      obtain ⟨text, hnone⟩ := downloadId
      simp only [Except.ok.injEq, DownloadId.mk.injEq, List.append_cancel_left_eq]
      constructor
      · rintro rfl
        exact String.toList_ofList.symm
      · rintro rfl
        exact String.ofList_toList

theorem parseDownloadUrl_returns (text : String) :
    ∃ result, parseDownloadUrl host engine text = some result ∧
      ∀ downloadId cipherKey, result = .ok (downloadId, cipherKey) ↔
        ∃ url, Whatwg.parse host text.toList = some url ∧
          HasCipherKey engine url cipherKey ∧ HasDownloadId url downloadId := by
  unfold parseDownloadUrl
  cases hparse : Whatwg.parse host text.toList with
  | none =>
    refine ⟨_, rfl, fun downloadId cipherKey => ⟨nofun, ?_⟩⟩
    rintro ⟨url, hurl, -⟩
    cases hurl
  | some url =>
    dsimp only
    have honly : ∀ downloadId cipherKey, (∃ other, some url = some other ∧
        HasCipherKey engine other cipherKey ∧ HasDownloadId other downloadId) ↔
          HasCipherKey engine url cipherKey ∧ HasDownloadId url downloadId := by
      simp
    cases hkey : parseCipherKey engine url with
    | error error =>
      refine ⟨_, rfl, fun downloadId cipherKey => ⟨nofun, fun h => ?_⟩⟩
      have hok := parseCipherKey_eq_ok_iff.mpr ((honly _ _).mp h).1
      rw [hkey] at hok
      cases hok
    | ok found =>
      obtain ⟨result, hresult, hid⟩ := parseDownloadId_returns url
      refine ⟨_, by rw [hresult]; rfl, fun downloadId cipherKey => ?_⟩
      rw [honly, ← hid, ← parseCipherKey_eq_ok_iff, hkey]
      cases result with
      | error error => simp [Except.map]
      | ok result => simp [Except.map, and_comm]

section UrlSafe

theorem urlSafe_bounds (h : UrlSafe c) : 0x20 < c.toNat ∧ c.toNat ≤ 0x7e := by
  rcases h with h | rfl | rfl | rfl
  · have hranges : ((65 ≤ c.toNat ∧ c.toNat ≤ 90) ∨ 97 ≤ c.toNat ∧ c.toNat ≤ 122) ∨
        48 ≤ c.toNat ∧ c.toNat ≤ 57 := by
      simpa [Char.isAlphanum, Char.isAlpha, Char.isUpper, Char.isLower, Char.isDigit,
        UInt32.le_iff_toNat_le] using h
    omega
  · decide
  · decide
  · decide

theorem urlSafe_not_mem {chars : List Char} (h : UrlSafe c)
    (hchars : chars.all (fun d => !decide (UrlSafe d)) = true) : c ∉ chars :=
  Whatwg.not_mem_of_all (P := fun d => decide (UrlSafe d)) hchars (decide_eq_true h)

theorem c0Control_urlSafe (h : UrlSafe c) :
    Whatwg.c0ControlPercentEncodeSet.mem c = false := by
  have hbounds := urlSafe_bounds h
  simp only [Whatwg.c0ControlPercentEncodeSet, Bool.or_eq_false_iff, decide_eq_false_iff_not]
  omega

theorem urlSafe_not_encoded (h : UrlSafe c) :
    Whatwg.pathPercentEncodeSet.mem c = false ∧ Whatwg.fragmentPercentEncodeSet.mem c = false := by
  have hcontrol := c0Control_urlSafe h
  have hlist : ∀ chars : List Char, chars.all (fun d => !decide (UrlSafe d)) = true →
      chars.contains c = false := by
    intro chars hchars
    rw [List.contains_eq_mem, decide_eq_false (urlSafe_not_mem h hchars)]
  constructor
  · exact Bool.or_eq_false_iff.mpr
      ⟨Bool.or_eq_false_iff.mpr ⟨hcontrol, hlist _ (by decide)⟩, hlist _ (by decide)⟩
  · exact Bool.or_eq_false_iff.mpr ⟨hcontrol, hlist _ (by decide)⟩

theorem plainSegment_of_urlSafe {segment : List Char} (h : ∀ c ∈ segment, UrlSafe c) :
    Whatwg.PlainSegment segment := by
  have hnot : ∀ d, ¬UrlSafe d → d ∉ segment := fun d hd hmem => hd (h d hmem)
  exact Whatwg.plainSegment_of_dotFree (fun c hc => (urlSafe_not_encoded (h c hc)).1)
    (hnot '/' (by decide)) (hnot '\\' (by decide)) (hnot '.' (by decide)) (hnot '%' (by decide))

end UrlSafe

def linkSegments (downloadId : DownloadId) : List (List Char) :=
  ["download".toList, downloadId.text.toList]

theorem serialize_linkSegments :
    (Path.list (linkSegments downloadId)).serialize = ("/download/" ++ downloadId.text).toList := by
  simp [linkSegments, Path.serialize]

theorem plain_linkSegments (h : ∀ c ∈ downloadId.text.toList, UrlSafe c) :
    ∀ segment ∈ linkSegments downloadId, Whatwg.PlainSegment segment := by
  have hdownload : "download".toList.all (fun c => decide (UrlSafe c)) = true := by decide
  intro segment hsegment
  rcases List.mem_cons.mp hsegment with rfl | hsegment
  · exact plainSegment_of_urlSafe fun c hc =>
      of_decide_eq_true (List.all_eq_true.mp hdownload c hc)
  · rw [List.mem_singleton.mp hsegment]
    exact plainSegment_of_urlSafe h

theorem downloadUrlWithoutCipherKey_eq (hhttp : url.IsHttp) (hlist : url.path.IsList)
    (h : ∀ c ∈ downloadId.text.toList, UrlSafe c) :
    downloadUrlWithoutCipherKey url downloadId =
      { url with path := .list (linkSegments downloadId) } := by
  rw [downloadUrlWithoutCipherKey, ← serialize_linkSegments]
  exact Whatwg.setPath_segments hhttp hlist (List.cons_ne_nil _ _) (plain_linkSegments h)

theorem fragment_avoids : Whatwg.fragmentPercentEncodeSet.Avoids
    ("cipher_key=".toList ++ (cipherKey.serialized engine).toList) := by
  intro c hc
  rcases List.mem_append.mp hc with hc | hc
  · have hall : "cipher_key=".toList.all
        (fun c => !Whatwg.fragmentPercentEncodeSet.mem c) = true := by decide
    exact (Bool.not_eq_true' _).mp (List.all_eq_true.mp hall c hc)
  · exact (urlSafe_not_encoded (CipherKey.urlSafe_of_mem hc)).2

theorem parseDownloadUrl_formatted {text : List Char} (hurl : Whatwg.parse host text = some url)
    (hhttp : url.IsHttp) (hnone : url.fragment = none)
    (h : ∀ c ∈ downloadId.text.toList, UrlSafe c) :
    parseDownloadUrl host engine (ProvisionedFile.formattedDownloadUrlAndKey engine
      ⟨downloadUrlWithoutCipherKey url downloadId, cipherKey⟩) =
        some (.ok (downloadId, cipherKey)) := by
  have haccepted := Whatwg.accepted_of_parse hurl hhttp
  have hlink : Url.Accepted host { url with path := .list (linkSegments downloadId) } :=
    haccepted.continues hhttp.isSpecial .list
  have hparse := Whatwg.parse_serialize hlink hhttp rfl (List.cons_ne_nil _ _)
    (plain_linkSegments h) hnone (@fragment_avoids engine cipherKey)
  rw [downloadUrlWithoutCipherKey_eq hhttp haccepted.path h]
  generalize hformatted : ProvisionedFile.formattedDownloadUrlAndKey engine
    ⟨{ url with path := .list (linkSegments downloadId) }, cipherKey⟩ = formatted
  have htext : formatted.toList =
      Url.serialize { url with path := .list (linkSegments downloadId) } ++
        '#' :: ("cipher_key=".toList ++ (cipherKey.serialized engine).toList) := by
    rw [← hformatted]
    simp [ProvisionedFile.formattedDownloadUrlAndKey]
  rw [← htext] at hparse
  have hread : ∃ link, Whatwg.parse host formatted.toList = some link ∧
      HasCipherKey engine link cipherKey ∧ HasDownloadId link downloadId := by
    refine ⟨_, hparse, ⟨(cipherKey.serialized engine).toList, rfl, ?_⟩, ?_⟩
    · rw [String.ofList_toList]
      exact CipherKey.decode_serialized
    · rw [HasDownloadId, serialize_linkSegments, String.toList_append]
  obtain ⟨result, hresult, hok⟩ := @parseDownloadUrl_returns host engine formatted
  rw [hresult, (hok downloadId cipherKey).mpr hread]

/-- A link that the uploader writes for an id and a key is read as them, whatever the endpoint.
Other texts are errors, and no text makes the downloader panic. -/
theorem download_link (host : HostParser) (engine : Engine Standard) :
    (∀ (text : String) (downloadEndpoint : Url) (id : SessionId) (cipherKey : CipherKey),
      Whatwg.parse host text.toList = some downloadEndpoint → downloadEndpoint.IsHttp →
      downloadEndpoint.fragment = none →
      ∃ downloadId, DownloadId.new (id.encode engine) = some downloadId ∧
        parseDownloadUrl host engine (ProvisionedFile.formattedDownloadUrlAndKey engine
          ⟨downloadUrlWithoutCipherKey downloadEndpoint downloadId, cipherKey⟩) =
            some (.ok (downloadId, cipherKey))) ∧
    ∀ text : String,
      ((∀ url, Whatwg.parse host text.toList = some url →
        (∀ cipherKey, ¬HasCipherKey engine url cipherKey) ∨
          ∀ downloadId, ¬HasDownloadId url downloadId) →
        ∃ error, parseDownloadUrl host engine text = some (.error error)) ∧
      ∀ downloadId cipherKey,
        parseDownloadUrl host engine text = some (.ok (downloadId, cipherKey)) ↔
          ∃ url, Whatwg.parse host text.toList = some url ∧
            HasCipherKey engine url cipherKey ∧ HasDownloadId url downloadId := by
  refine ⟨?_, fun text => ?_⟩
  · intro text downloadEndpoint id cipherKey hurl hhttp hnone
    obtain ⟨downloadId, hnew⟩ := DownloadId.new_encode engine id
    have htext : downloadId.text = id.encode engine := by
      unfold DownloadId.new at hnew
      split_ifs at hnew
      rw [← Option.some.inj hnew]
    refine ⟨downloadId, hnew, parseDownloadUrl_formatted hurl hhttp hnone ?_⟩
    rw [htext]
    exact fun c hc => SessionId.urlSafe_of_mem hc
  · obtain ⟨result, hresult, hok⟩ := @parseDownloadUrl_returns host engine text
    rw [hresult]
    refine ⟨fun h => ?_, fun downloadId cipherKey => ?_⟩
    · cases result with
      | error error => exact ⟨error, rfl⟩
      | ok link =>
        obtain ⟨url, hurl, hkey, hid⟩ := (hok link.1 link.2).mp rfl
        rcases h url hurl with hnokey | hnoid
        · exact absurd hkey (hnokey _)
        · exact absurd hid (hnoid _)
    · rw [Option.some.injEq]
      exact hok downloadId cipherKey

theorem isDomainChar_of_isLower (h : c.isLower = true) : Whatwg.isDomainChar c = true := by
  have hrange : 97 ≤ c.toNat ∧ c.toNat ≤ 122 := by
    simpa [Char.isLower, UInt32.le_iff_toNat_le] using h
  have hmem : c ∉ "#/:<>?@[\\]^|%".toList :=
    Whatwg.not_mem_of_all (P := Char.isLower) (by decide) h
  rw [Whatwg.isDomainChar, List.contains_eq_mem, decide_eq_false hmem, Bool.not_false,
    Bool.and_true, Bool.and_eq_true, decide_eq_true_eq, decide_eq_true_eq]
  omega

def lowerCaseHosts : HostParser where
  parse _ input := if input ≠ [] ∧ input.all Char.isLower then some input else none
  hostText input text h := by
    split_ifs at h with hinput
    obtain rfl := Option.some.inj h
    exact .domain hinput.1 fun c hc =>
      isDomainChar_of_isLower (List.all_eq_true.mp hinput.2 c hc)
  parse_serialized input text h := by
    split_ifs at h with hinput
    obtain rfl := Option.some.inj h
    exact if_pos hinput

theorem download_link_localhost :
    ∃ downloadId, DownloadId.new "-_-_AA~~" = some downloadId ∧
      parseDownloadUrl lowerCaseHosts Base64.standard
        ("http://localhost:3000/download/-_-_AA~~?v=2#cipher_key=" ++
          "AQEBAQEBAQEBAQEBAQEBAQEBAQEBAQEBAQEBAQEBAQE~") =
          some (.ok (downloadId, ⟨List.replicate 32 1, rfl⟩)) := by
  have hid : testId.encode Base64.standard = "-_-_AA~~" := by decide
  obtain ⟨downloadId, hnew, hparse⟩ := (download_link lowerCaseHosts Base64.standard).1
    "http://localhost:3000?v=2" _ testId ⟨List.replicate 32 1, rfl⟩ rfl (.inl rfl) rfl
  rw [hid] at hnew
  have htext : DownloadId.new "-_-_AA~~" = some ⟨"-_-_AA~~", by decide⟩ := rfl
  obtain rfl := Option.some.inj (htext.symm.trans hnew)
  exact ⟨_, rfl, hparse⟩

end Glopfile.Client
