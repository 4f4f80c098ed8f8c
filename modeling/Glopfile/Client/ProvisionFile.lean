import Glopfile.Api.FileMeta
import Glopfile.Client.DownloadLink
import Glopfile.Client.SignalingCipher
import Glopfile.HeaderText
import Glopfile.Relay.NodeRequests

/-!
# From the uploader's file to the downloader's page

The uploader seals the name and the size of its file for the usage of metadata and hands them to
the relay, which keeps them beside the session it creates. Whoever opens the link reads the id of
that session and the key from it, asks the relay, and opens what it is told.

`FileMetaJson` is what is relied on of `serde_json`. The request and the response themselves are
taken to arrive as they were sent.
-/

namespace Glopfile.Client

open Base64 (Engine Standard)
open EventMachine (Trace)
open Relay (ApiResponse NewIds Node NodeEvent NodeOutput SessionId creations relayNode)
open Whatwg (HostParser Url)

structure FileMetaJson where
  toString : Api.FileMeta → String
  fromStr : String → Option Api.FileMeta
  fromStr_toString : ∀ fileMeta, fromStr (toString fileMeta) = some fileMeta

namespace ApiClient
variable (engine : Engine Standard) (json : FileMetaJson) (cipher : ContentCipher)

def encryptedMetadata (random nonce : FixedBytes nonceSize) (fileMeta : Api.FileMeta) :
    Option String := do
  let metadataJson := json.toString fileMeta
  let encrypted ← cipher.encrypt nonce (.fromPlaintext random metadataJson.toUTF8.data.toList)
    .metadata
  return engine.encode encrypted

def decode (text : String) : Option ByteArray := (engine.decode text).map List.toByteArray

def decrypt (bytes : ByteArray) : Option ByteArray :=
  match cipher.decrypt bytes.data.toList .metadata with
  | some (.ok plaintext) => some plaintext.toByteArray
  | _ => none

def fetchMeta (response : Api.EncodedDownloadMeta) : Except Api.Error Api.DownloadMeta :=
  Api.fetchMeta (decode engine) (decrypt cipher) json.fromStr response

variable {engine json} {c : Crypto} {cipherKey : CipherKey}

theorem toByteArray_toList (bytes : ByteArray) : bytes.data.toList.toByteArray = bytes :=
  ByteArray.ext (by rw [List.data_toByteArray, Array.toArray_toList])

theorem encryptedMetadata_eq (impl : CipherImpl) (random nonce : FixedBytes nonceSize)
    (fileMeta : Api.FileMeta) :
    encryptedMetadata engine json ⟨c, impl, cipherKey⟩ random nonce fileMeta =
      some (engine.encode (c.envelope cipherKey .metadata nonce
        (json.toString fileMeta).toUTF8.data.toList)) := by
  have hencrypt := ContentCipher.encrypt_ofParts ⟨c, impl, cipherKey⟩ nonce .metadata random
    (json.toString fileMeta).toUTF8.data.toList ContentCipherBuffer.zeroTag
  rw [encryptedMetadata]
  simp only [Option.bind_eq_bind, Option.pure_def]
  rw [ContentCipherBuffer.fromPlaintext, hencrypt, Option.bind_some]

theorem fetchMeta_encryptedMetadata (impl : CipherImpl) (nonce : FixedBytes nonceSize)
    (fileMeta : Api.FileMeta) (url : String) :
    fetchMeta engine json ⟨c, impl, cipherKey⟩
      ⟨url, engine.encode (c.envelope cipherKey .metadata nonce
        (json.toString fileMeta).toUTF8.data.toList)⟩ = .ok ⟨url, fileMeta⟩ := by
  have hdecrypt := ContentCipher.decrypt_envelope ⟨c, impl, cipherKey⟩ nonce .metadata rfl
    (json.toString fileMeta).toUTF8.data.toList
  have hdecrypted : decrypt ⟨c, impl, cipherKey⟩ (c.envelope cipherKey .metadata nonce
      (json.toString fileMeta).toUTF8.data.toList).toByteArray =
        some (json.toString fileMeta).toUTF8 := by
    rw [decrypt, List.toList_data_toByteArray, hdecrypt]
    exact congrArg some (toByteArray_toList _)
  simp only [fetchMeta, Api.fetchMeta, decode, engine.decode_encode, Option.map_some, hdecrypted,
    Api.FileMeta.tryFromEncoded_toUTF8, json.fromStr_toString]

end ApiClient

open ApiClient

/-- Among any number of sessions, whoever opens the link to a file and is told its metadata reads
the name and the size that the uploader sealed, whichever implementations of the cipher the two
have; the content is then asked for under the id of the same session. -/
theorem shared_link_shows_the_file (host : HostParser) (engine : Engine Standard)
    (json : FileMetaJson) (c : Crypto) (impl impl' : CipherImpl) (cipherKey : CipherKey)
    (random nonce : FixedBytes nonceSize) (fileMeta : Api.FileMeta) :
    ∃ encrypted, encryptedMetadata engine json ⟨c, impl, cipherKey⟩ random nonce fileMeta =
        some encrypted ∧
      ∀ (tr : Trace NodeEvent NodeOutput) (n : Node) (id : SessionId) (text : String)
        (downloadEndpoint : Url), (relayNode engine).Path NewIds .new tr n →
        (id, encrypted) ∈ creations tr.outputs →
        Whatwg.parse host text.toList = some downloadEndpoint → downloadEndpoint.IsHttp →
        downloadEndpoint.fragment = none →
        ∃ downloadId, DownloadId.new (id.encode engine) = some downloadId ∧
          parseDownloadUrl host engine (ProvisionedFile.formattedDownloadUrlAndKey engine
            ⟨downloadUrlWithoutCipherKey downloadEndpoint downloadId, cipherKey⟩) =
              some (.ok (downloadId, cipherKey)) ∧
          ∀ number metadata url, NodeOutput.answered number downloadId.text .downloadMeta
              (.metadata metadata url) ∈ tr.outputs →
            url = "/api/v1/download/" ++ downloadId.text ++ "/content" ∧
              fetchMeta engine json ⟨c, impl', cipherKey⟩ ⟨url, metadata⟩ =
                .ok ⟨url, fileMeta⟩ := by
  refine ⟨_, encryptedMetadata_eq impl random nonce fileMeta, ?_⟩
  intro tr n id text downloadEndpoint hpath hcreated hurl hhttp hnone
  obtain ⟨downloadId, hnew⟩ := DownloadId.new_encode engine id
  have htext : downloadId.text = id.encode engine := by
    unfold DownloadId.new at hnew
    split_ifs at hnew
    rw [← Option.some.inj hnew]
  refine ⟨downloadId, hnew, parseDownloadUrl_formatted hurl hhttp hnone ?_, ?_⟩
  · rw [htext]
    exact fun c hc => SessionId.urlSafe_of_mem hc
  · intro number metadata url hanswered
    obtain ⟨id', hdecode, rfl, htold⟩ := Relay.told_of_path hpath hanswered
    rw [htext, SessionId.decode_encode] at hdecode
    obtain rfl := Except.ok.inj hdecode
    obtain rfl := Relay.creation_unique (Relay.Kept.of_path hpath)
      (Relay.Registered.of_path hpath) hcreated htold
    exact ⟨by rw [htext], fetchMeta_encryptedMetadata impl' nonce fileMeta _⟩

section Json

def quote (text : List Char) : List Char :=
  text.flatMap fun c => if c = '"' ∨ c = '\\' then ['\\', c] else [c]

def unquote : List Char → Option (List Char × List Char)
  | [] => none
  | '"' :: rest => some ([], rest)
  | '\\' :: c :: rest => (unquote rest).map fun string => (c :: string.1, string.2)
  | c :: rest => (unquote rest).map fun string => (c :: string.1, string.2)

theorem unquote_quote (text rest : List Char) :
    unquote (quote text ++ '"' :: rest) = some (text, rest) := by
  induction text with
  | nil => rfl
  | cons c text ih =>
    have hquote : quote (c :: text) =
        (if c = '"' ∨ c = '\\' then ['\\', c] else [c]) ++ quote text := List.flatMap_cons
    rw [hquote]
    split_ifs with hc
    · simp only [List.cons_append, List.nil_append, unquote, ih, Option.map_some]
    · rw [not_or] at hc
      rw [List.cons_append, List.nil_append, List.cons_append, unquote, ih, Option.map_some]
      · exact hc.1
      · exact fun _ _ h => absurd h hc.2

open HeaderText in
/-- What `serde_json` writes for names without control characters, and its reading. -/
def plainJson : FileMetaJson where
  toString fileMeta := .ofList ("\x7b\"file_name\":\"".toList ++ (quote fileMeta.fileName.toList ++
    '"' :: (",\"file_size\":".toList ++ (decimal fileMeta.fileSize.toNat ++ ['\x7d']))))
  fromStr text := do
    let string ← text.toList.dropPrefix? "\x7b\"file_name\":\"".toList
    let (fileName, rest) ← unquote string
    let number ← rest.dropPrefix? ",\"file_size\":".toList
    let (digits, _) ← splitOnce '\x7d' number
    let fileSize ← parseBelow (2 ^ 64) digits
    return ⟨.ofList fileName, .ofNat fileSize⟩
  fromStr_toString fileMeta := by
    have hnumeral := decimal_denotes fileMeta.fileSize.toNat_lt
    have hend : '\x7d' ∉ decimal fileMeta.fileSize.toNat := hnumeral.not_mem rfl
    simp only [String.toList_ofList, dropPrefix_append, unquote_quote, splitOnce_append hend,
      parseBelow_eq_some_iff.mpr (.inl hnumeral), Option.bind_eq_bind, Option.bind_some,
      Option.pure_def, String.ofList_toList, UInt64.ofNat_toNat]

example : plainJson.toString ⟨"a \"b\".txt", 42⟩ =
    "\x7b\"file_name\":\"a \\\"b\\\".txt\",\"file_size\":42\x7d" := by decide

end Json

def shownInBrowser (encrypted : String) : List Relay.NodeEvent :=
  [.create Relay.secondId "other", .create Relay.firstId encrypted,
    .request "AQ~~" .downloadMeta, .requestSend 0, .session 1 .turn, .requestResume 0]

theorem shared_link_shows_the_file_localhost : ∃ encrypted tr n,
    encryptedMetadata Base64.standard plainJson
      ⟨labelling, .native, ⟨List.replicate 32 1, rfl⟩⟩ ⟨List.replicate 12 9, rfl⟩
      ⟨List.replicate 12 9, rfl⟩ ⟨"a \"b\".txt", 42⟩ = some encrypted ∧
    ((relayNode Base64.standard).restrict NewIds).exec .new (shownInBrowser encrypted) =
      some (tr, n) ∧
    fetchMeta Base64.standard plainJson ⟨labelling, .web, ⟨List.replicate 32 1, rfl⟩⟩
      ⟨"/api/v1/download/AQ~~/content", encrypted⟩ =
        .ok ⟨"/api/v1/download/AQ~~/content", ⟨"a \"b\".txt", 42⟩⟩ := by
  obtain ⟨encrypted, hencrypted, hopened⟩ := shared_link_shows_the_file lowerCaseHosts
    Base64.standard plainJson labelling .native .web ⟨List.replicate 32 1, rfl⟩
    ⟨List.replicate 12 9, rfl⟩ ⟨List.replicate 12 9, rfl⟩ ⟨"a \"b\".txt", 42⟩
  have hexec : ((relayNode Base64.standard).restrict NewIds).exec .new (shownInBrowser encrypted) =
      some (_, _) := rfl
  obtain ⟨downloadId, hnew, -, hmeta⟩ := hopened _ _ Relay.firstId "http://localhost:3000?v=2"
    _ (EventMachine.Path.guarded_of_restrict (EventMachine.exec_path _ hexec))
    (List.mem_of_getElem? (i := 1) rfl) rfl (.inl rfl) rfl
  have hid : Relay.firstId.encode Base64.standard = "AQ~~" := by decide
  have htext : DownloadId.new "AQ~~" = some ⟨"AQ~~", by decide⟩ := rfl
  rw [hid] at hnew
  obtain rfl := Option.some.inj (htext.symm.trans hnew)
  obtain ⟨hcontent, hshown⟩ := hmeta 0 encrypted _ (List.mem_of_getElem? (i := 4) rfl)
  rw [hcontent] at hshown
  exact ⟨encrypted, _, _, hencrypted, hexec, hshown⟩

end Glopfile.Client
