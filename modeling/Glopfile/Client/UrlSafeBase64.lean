import Glopfile.Relay.SessionId

/-!
# Session ids on the client

The client has a codec of its own, `url_safe_base64`. It does not decode the ids it is given;
a `DownloadId` is the text, of which it asserts that it is not a path. It decodes cipher keys,
and unlike the relay accepts a text of no bytes.
-/

namespace Glopfile.Client

open Base64 (Engine Standard)
open Relay (SessionId UrlSafe)

namespace UrlSafeBase64
variable (engine : Engine Standard)

def encode (bytes : List UInt8) : String :=
  let conventionalBase64 := engine.encode bytes
  .ofList (conventionalBase64.toList.map fun c =>
    match c with
    | '+' => '-'
    | '/' => '_'
    | '=' => '~'
    | c => c)

def decode (urlSafeBase64 : String) : Option (List UInt8) :=
  let conventionalBase64 := String.ofList (urlSafeBase64.toList.map fun c =>
    match c with
    | '-' => '+'
    | '_' => '/'
    | '~' => '='
    | c => c)
  engine.decode conventionalBase64

variable {engine}

theorem encode_eq (id : SessionId) : encode engine id.bytes = id.encode engine := rfl

theorem decode_eq_some_iff {text : String} {id : SessionId} :
    decode engine text = some id.bytes ↔ SessionId.decode engine text = .ok id :=
  SessionId.decode_ok_iff.symm

end UrlSafeBase64

structure DownloadId where
  text : String
  no_slash : '/' ∉ text.toList
  deriving DecidableEq, Repr

/-- `none` is the failed assertion. -/
def DownloadId.new (id : String) : Option DownloadId :=
  if h : '/' ∉ id.toList then some ⟨id, h⟩ else none

theorem DownloadId.new_encode (engine : Engine Standard) (id : SessionId) :
    ∃ downloadId, DownloadId.new (id.encode engine) = some downloadId := by
  have hslash : '/' ∉ (id.encode engine).toList :=
    fun hmem => absurd (SessionId.urlSafe_of_mem hmem) (by decide)
  exact ⟨⟨_, hslash⟩, dif_pos hslash⟩

/-- Both codecs invert encoding. A text that is accepted without being the encoding is one
with a symbol of the standard alphabet left. -/
theorem url_safe_ids (engine : Engine Standard) :
    (∀ id : SessionId,
      SessionId.decode engine (id.encode engine) = .ok id ∧
      UrlSafeBase64.encode engine id.bytes = id.encode engine ∧
      UrlSafeBase64.decode engine (id.encode engine) = some id.bytes ∧
      (∀ text, UrlSafeBase64.decode engine text = some id.bytes ↔
        SessionId.decode engine text = .ok id) ∧
      (∀ c ∈ (id.encode engine).toList, UrlSafe c) ∧
      ∃ downloadId, DownloadId.new (id.encode engine) = some downloadId) ∧
    ∀ text id, SessionId.decode engine text = .ok id →
      (id.encode engine = text ↔
        '+' ∉ text.toList ∧ '/' ∉ text.toList ∧ '=' ∉ text.toList) := by
  refine ⟨fun id => ?_, fun text id h => SessionId.encode_eq_iff h⟩
  have hdecode : SessionId.decode engine (id.encode engine) = .ok id := SessionId.decode_encode id
  refine ⟨hdecode, UrlSafeBase64.encode_eq id, ?_, ?_, ?_, ?_⟩
  · exact UrlSafeBase64.decode_eq_some_iff.2 hdecode
  · exact fun text => UrlSafeBase64.decode_eq_some_iff
  · exact fun c hmem => SessionId.urlSafe_of_mem hmem
  · exact DownloadId.new_encode engine id

def testId : SessionId := ⟨[0xfb, 0xff, 0xbf, 0x00], by decide⟩

theorem url_safe_ids_test_id :
    testId.encode Base64.standard = "-_-_AA~~" ↔
      '+' ∉ "-_-_AA~~".toList ∧ '/' ∉ "-_-_AA~~".toList ∧ '=' ∉ "-_-_AA~~".toList := by
  have hdecode : SessionId.decode Base64.standard "-_-_AA~~" = .ok testId := by decide
  exact (url_safe_ids Base64.standard).2 _ _ hdecode

/-- The standard encoding of the id is accepted as well. -/
theorem standard_text_is_accepted :
    SessionId.decode Base64.standard "+/+/AA==" = .ok testId ∧
      testId.encode Base64.standard = "-_-_AA~~" ∧
      ¬ ∀ text id, SessionId.decode Base64.standard text = .ok id →
        id.encode Base64.standard = text := by
  have hdecode : SessionId.decode Base64.standard "+/+/AA==" = .ok testId := by decide
  have hencode : testId.encode Base64.standard = "-_-_AA~~" := by decide
  refine ⟨hdecode, hencode, ?_⟩
  intro honly
  have hsame : "-_-_AA~~" = "+/+/AA==" := hencode.symm.trans (honly _ _ hdecode)
  exact absurd hsame (by decide)

end Glopfile.Client
