import Glopfile.Api.Error

/-!
# The metadata of a file

The uploader chooses name and size of the file and seals them; the relay hands them on
unread. What a downloader checks of them is that they decrypt and that they are written in
UTF-8 and JSON, so that every `FileMeta` there is may come out (`fetchMeta_reaches`).

`decode` is the base64 engine, `decrypt` the decryption of metadata, `fromStr` the parser
`serde_json::from_str`.
-/

namespace Glopfile.Api

structure FileMeta where
  fileName : String
  fileSize : UInt64
  deriving DecidableEq, Repr

structure DownloadMeta where
  encryptedContentUrl : String
  fileMeta : FileMeta
  deriving DecidableEq, Repr

structure EncodedDownloadMeta where
  encryptedContentUrl : String
  metadata : String
  deriving DecidableEq, Repr

namespace FileMeta

def tryFromEncoded (fromStr : String → Option FileMeta) (bytes : ByteArray) :
    Except Error FileMeta :=
  match String.fromUTF8? bytes with
  | none => .error (.invalidInput "invalid unicode in FileMeta serialization")
  | some string =>
    match fromStr string with
    | none => .error (.invalidInput "Invalid json in FileMeta serialization")
    | some fileMeta => .ok fileMeta

theorem tryFromEncoded_toUTF8 (fromStr : String → Option FileMeta) (string : String) :
    tryFromEncoded fromStr string.toUTF8 =
      match fromStr string with
      | none => .error (.invalidInput "Invalid json in FileMeta serialization")
      | some fileMeta => .ok fileMeta := by
  have hvalid : string.toUTF8.IsValidUTF8 := string.isValidUTF8
  have hread : String.fromUTF8? string.toUTF8 = some string := dif_pos hvalid
  rw [tryFromEncoded, hread]

end FileMeta

variable (decode : String → Option ByteArray) (decrypt : ByteArray → Option ByteArray)
  (fromStr : String → Option FileMeta)

def fetchMeta (response : EncodedDownloadMeta) : Except Error DownloadMeta :=
  match decode response.metadata with
  | none => .error (.invalidInput "invalid base64 encoding of metadata")
  | some decodedMetadata =>
    match decrypt decodedMetadata with
    | none => .error .decrypt
    | some decryptedMetadata =>
      match FileMeta.tryFromEncoded fromStr decryptedMetadata with
      | .error error => .error error
      | .ok fileMeta => .ok ⟨response.encryptedContentUrl, fileMeta⟩

/-- Whatever name and size an uploader seals, a downloader accepts. -/
theorem fetchMeta_reaches (encode : ByteArray → String) (encrypt : ByteArray → ByteArray)
    (toString : FileMeta → String) (hdecode : ∀ bytes, decode (encode bytes) = some bytes)
    (hdecrypt : ∀ bytes, decrypt (encrypt bytes) = some bytes)
    (hfromStr : ∀ fileMeta, fromStr (toString fileMeta) = some fileMeta)
    (downloadMeta : DownloadMeta) :
    fetchMeta decode decrypt fromStr
      ⟨downloadMeta.encryptedContentUrl, encode (encrypt (toString downloadMeta.fileMeta).toUTF8)⟩ =
        .ok downloadMeta := by
  simp only [fetchMeta, hdecode, hdecrypt, FileMeta.tryFromEncoded_toUTF8, hfromStr]

end Glopfile.Api
