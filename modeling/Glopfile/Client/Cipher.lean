import Mathlib.Data.List.Basic
import Glopfile.Api.Error

/-!
# The content cipher

What is encrypted stands in one buffer, `nonce | payload | tag`, that is encrypted in place.
The native cipher writes the payload and sets the tag; the web cipher is handed the payload
and copies payload and tag back in one piece. `Crypto` holds what both are given: HKDF, and
AES-256-GCM with the tag apart. `none` is a panic, of a slice or of a copy.

A buffer cannot be built with less than a nonce and a tag. Every buffer is `ofParts` of its
parts, and each operation is stated on parts once (`encrypt_ofParts`, `decrypt_ofParts`).
-/

namespace Glopfile.Client

def keySize : ℕ := 32

def nonceSize : ℕ := 12

def tagSize : ℕ := 16

abbrev FixedBytes (n : ℕ) := { bytes : List UInt8 // bytes.length = n }

/-- `try_into`. -/
def FixedBytes.tryFrom (n : ℕ) (bytes : List UInt8) : Option (FixedBytes n) :=
  if h : bytes.length = n then some ⟨bytes, h⟩ else none

abbrev CipherKey := FixedBytes keySize

/-- What the code relies on of HKDF-SHA256 and AES-256-GCM. -/
structure Crypto where
  hkdf (salt : List UInt8) (key : CipherKey) (info : List UInt8) : FixedBytes keySize
  encryptDetached (key : FixedBytes keySize) (nonce : FixedBytes nonceSize)
    (aad plaintext : List UInt8) : List UInt8 × FixedBytes tagSize
  decryptDetached (key : FixedBytes keySize) (nonce : FixedBytes nonceSize)
    (aad ciphertext : List UInt8) (tag : FixedBytes tagSize) : Option (List UInt8)
  /-- HMAC pads its key with zeroes. -/
  hkdf_salt : ∀ key info, hkdf [] key info = hkdf (List.replicate 32 0) key info
  encrypt_length : ∀ key nonce aad plaintext,
    (encryptDetached key nonce aad plaintext).1.length = plaintext.length
  decrypt_length : ∀ key nonce aad ciphertext tag plaintext,
    decryptDetached key nonce aad ciphertext tag = some plaintext →
      plaintext.length = ciphertext.length
  decrypt_encrypt : ∀ key nonce aad plaintext,
    decryptDetached key nonce aad (encryptDetached key nonce aad plaintext).1
      (encryptDetached key nonce aad plaintext).2 = some plaintext

inductive ContentCipherUsage
  | content
  | metadata
  | uploaderRtcSignaling
  | downloaderRtcSignaling
  deriving DecidableEq, Repr

def ContentCipherUsage.info : ContentCipherUsage → List UInt8
  | .content => "content".toUTF8.data.toList
  | .metadata => "metadata".toUTF8.data.toList
  | .uploaderRtcSignaling => "uploader_rtc_signaling".toUTF8.data.toList
  | .downloaderRtcSignaling => "downloader_rtc_signaling".toUTF8.data.toList

/-- `split_at_mut`. -/
def splitAt (bytes : List UInt8) (mid : ℕ) : Option (List UInt8 × List UInt8) :=
  if mid ≤ bytes.length then some (bytes.take mid, bytes.drop mid) else none

/-- A split before the last `TAG_SIZE` bytes; a shorter slice panics in the subtraction or the
split. -/
def splitTag (bytes : List UInt8) : Option (List UInt8 × List UInt8) :=
  if tagSize ≤ bytes.length then splitAt bytes (bytes.length - tagSize) else none

/-- `Uint8Array::copy_to`. -/
def copyTo (source target : List UInt8) : Option (List UInt8) :=
  if source.length = target.length then some source else none

@[ext] structure ContentCipherBuffer where
  data : List UInt8
  length_le : nonceSize + tagSize ≤ data.length

namespace ContentCipherBuffer

def ofParts (nonce : FixedBytes nonceSize) (payload : List UInt8) (tag : FixedBytes tagSize) :
    ContentCipherBuffer where
  data := nonce.1 ++ (payload ++ tag.1)
  length_le := by
    have hnonce := nonce.2
    have htag := tag.2
    simp only [List.length_append]
    omega

def zeroTag : FixedBytes tagSize := ⟨List.replicate tagSize 0, List.length_replicate⟩

def fromPlaintext (random : FixedBytes nonceSize) (plaintext : List UInt8) : ContentCipherBuffer :=
  ofParts random plaintext zeroTag

/-- The loop of `read_plaintext_to_end`; an empty read is the end. -/
def readToEnd : List (List UInt8) → List UInt8
  | [] | [] :: _ => []
  | read :: reads => read ++ readToEnd reads

theorem readToEnd_append {reads : List (List UInt8)} (h : [] ∉ reads) (rest : List (List UInt8)) :
    readToEnd (reads ++ rest) = reads.flatten ++ readToEnd rest := by
  induction reads with
  | nil => rfl
  | cons read reads ih =>
    rw [List.mem_cons, not_or] at h
    obtain ⟨b, read, rfl⟩ := List.exists_cons_of_ne_nil (Ne.symm h.1)
    rw [List.cons_append, readToEnd, List.flatten_cons, List.append_assoc, ih h.2]
    exact nofun

theorem readToEnd_snoc {reads : List (List UInt8)} (h : [] ∉ reads) :
    readToEnd (reads ++ [[]]) = reads.flatten := by
  rw [readToEnd_append h, readToEnd, List.append_nil]

theorem readToEnd_of_mem {reads : List (List UInt8)} (h : [] ∈ reads) (rest : List (List UInt8)) :
    readToEnd (reads ++ rest) = readToEnd reads := by
  obtain ⟨before, after, rfl, hbefore⟩ := List.eq_append_cons_of_mem h
  rw [List.append_assoc, List.cons_append, readToEnd_append hbefore, readToEnd_append hbefore,
    readToEnd, readToEnd]

def readPlaintextToEnd (random : FixedBytes nonceSize) (reads : List (List UInt8)) :
    ContentCipherBuffer :=
  ofParts random (readToEnd reads) zeroTag

def fromNonceAndCiphertext (data : List UInt8) : Except Api.Error ContentCipherBuffer :=
  if h : nonceSize + tagSize ≤ data.length then .ok ⟨data, h⟩ else .error .decrypt

def partsMut (b : ContentCipherBuffer) : Option (FixedBytes nonceSize × List UInt8) := do
  let (nonce, payloadAndTag) ← splitAt b.data nonceSize
  let nonce ← FixedBytes.tryFrom nonceSize nonce
  return (nonce, payloadAndTag)

def ciphertextPartsMut (payloadAndTag : List UInt8) : Option (List UInt8 × FixedBytes tagSize) := do
  let (payload, tag) ← splitTag payloadAndTag
  let tag ← FixedBytes.tryFrom tagSize tag
  return (payload, tag)

def setNonce (b : ContentCipherBuffer) (nonce : FixedBytes nonceSize) : ContentCipherBuffer where
  data := nonce.1 ++ b.data.drop nonceSize
  length_le := by
    have hnonce := nonce.2
    have hle := b.length_le
    simp only [List.length_append, List.length_drop]
    omega

def intoPlaintext (b : ContentCipherBuffer) : Option (List UInt8) := do
  let (_, plaintextAndTag) ← splitAt b.data nonceSize
  let (plaintext, _) ← splitTag plaintextAndTag
  return plaintext

end ContentCipherBuffer

open ContentCipherBuffer

namespace Crypto

def nativeEncrypt (c : Crypto) (key : FixedBytes keySize) (b : ContentCipherBuffer)
    (aad : List UInt8) : Option (List UInt8) := do
  let (nonce, payloadAndTag) ← b.partsMut
  let (payload, _) ← ciphertextPartsMut payloadAndTag
  let (ciphertext, newTag) := c.encryptDetached key nonce aad payload
  return (ofParts nonce ciphertext newTag).data

def nativeDecrypt (c : Crypto) (key : FixedBytes keySize) (b : ContentCipherBuffer)
    (aad : List UInt8) : Option (Except Api.Error (List UInt8)) := do
  let (nonce, payloadAndTag) ← b.partsMut
  let (payload, tag) ← ciphertextPartsMut payloadAndTag
  match c.decryptDetached key nonce aad payload tag with
  | none => return .error .decrypt
  | some payload =>
    let plaintext ← (ofParts nonce payload tag).intoPlaintext
    return .ok plaintext

/-- `SubtleCrypto.encrypt`: the tag follows the ciphertext. -/
def subtleEncrypt (c : Crypto) (key : FixedBytes keySize) (nonce : FixedBytes nonceSize)
    (aad plaintext : List UInt8) : List UInt8 :=
  let (ciphertext, tag) := c.encryptDetached key nonce aad plaintext
  ciphertext ++ tag.1

/-- `SubtleCrypto.decrypt`; `none` is the rejected promise. -/
def subtleDecrypt (c : Crypto) (key : FixedBytes keySize) (nonce : FixedBytes nonceSize)
    (aad ciphertext : List UInt8) : Option (List UInt8) :=
  match ciphertextPartsMut ciphertext with
  | none => none
  | some (payload, tag) => c.decryptDetached key nonce aad payload tag

def webEncrypt (c : Crypto) (key : FixedBytes keySize) (b : ContentCipherBuffer)
    (aad : List UInt8) : Option (List UInt8) := do
  let (nonce, payloadAndTag) ← b.partsMut
  let (plaintext, _) ← ciphertextPartsMut payloadAndTag
  let ciphertext ← copyTo (c.subtleEncrypt key nonce aad plaintext) payloadAndTag
  return nonce.1 ++ ciphertext

def webDecrypt (c : Crypto) (key : FixedBytes keySize) (b : ContentCipherBuffer)
    (aad : List UInt8) : Option (Except Api.Error (List UInt8)) := do
  let (nonce, payloadAndTag) ← b.partsMut
  match c.subtleDecrypt key nonce aad payloadAndTag with
  | none => return .error .decrypt
  | some output =>
    let (plaintext, tag) ← ciphertextPartsMut payloadAndTag
    let plaintext ← copyTo output plaintext
    let plaintext ← (ofParts nonce plaintext tag).intoPlaintext
    return .ok plaintext

end Crypto

inductive CipherImpl
  | native
  | web
  deriving DecidableEq, Repr

namespace CipherImpl

/-- No salt is a salt of zeroes to `Hkdf::new`, and an empty one to `SubtleCrypto`. -/
def deriveNew (c : Crypto) (baseKey : CipherKey) (info : List UInt8) :
    CipherImpl → FixedBytes keySize
  | .native => c.hkdf (List.replicate 32 0) baseKey info
  | .web => c.hkdf [] baseKey info

def encrypt (c : Crypto) (key : FixedBytes keySize) (b : ContentCipherBuffer) (aad : List UInt8) :
    CipherImpl → Option (List UInt8)
  | .native => c.nativeEncrypt key b aad
  | .web => c.webEncrypt key b aad

def decrypt (c : Crypto) (key : FixedBytes keySize) (b : ContentCipherBuffer) (aad : List UInt8) :
    CipherImpl → Option (Except Api.Error (List UInt8))
  | .native => c.nativeDecrypt key b aad
  | .web => c.webDecrypt key b aad

end CipherImpl

/-- The bytes of `rand::random` are an argument where they are drawn. -/
structure ContentCipher where
  crypto : Crypto
  impl : CipherImpl
  cipherKey : CipherKey

namespace ContentCipher

def extraCiphertextLen : ℕ := nonceSize + tagSize

def key (cipher : ContentCipher) (usage : ContentCipherUsage) : FixedBytes keySize :=
  cipher.impl.deriveNew cipher.crypto cipher.cipherKey usage.info

def encrypt (cipher : ContentCipher) (nonce : FixedBytes nonceSize) (plaintext : ContentCipherBuffer)
    (usage : ContentCipherUsage) : Option (List UInt8) := do
  let _ ← plaintext.partsMut
  cipher.impl.encrypt cipher.crypto (cipher.key usage) (plaintext.setNonce nonce) []

def decrypt (cipher : ContentCipher) (nonceAndCiphertext : List UInt8) (usage : ContentCipherUsage) :
    Option (Except Api.Error (List UInt8)) :=
  match fromNonceAndCiphertext nonceAndCiphertext with
  | .error error => some (.error error)
  | .ok b => cipher.impl.decrypt cipher.crypto (cipher.key usage) b []

end ContentCipher

section Parts
variable {nonce : FixedBytes nonceSize} {payload : List UInt8} {tag : FixedBytes tagSize}

theorem splitAt_append {front back : List UInt8} {mid : ℕ} (h : front.length = mid) :
    splitAt (front ++ back) mid = some (front, back) := by
  subst h
  rw [splitAt, if_pos (by simp), List.take_left', List.drop_left']
  all_goals rfl

theorem splitTag_append : splitTag (payload ++ tag.1) = some (payload, tag.1) := by
  have hlength : (payload ++ tag.1).length = payload.length + tagSize := by
    rw [List.length_append, tag.2]
  rw [splitTag, if_pos (by omega), hlength, Nat.add_sub_cancel, splitAt_append rfl]

theorem tryFrom_val {n : ℕ} (bytes : FixedBytes n) : FixedBytes.tryFrom n bytes.1 = some bytes :=
  dif_pos bytes.2

theorem partsMut_ofParts :
    (ofParts nonce payload tag).partsMut = some (nonce, payload ++ tag.1) := by
  simp only [partsMut, ofParts, splitAt_append nonce.2, tryFrom_val, Option.bind_eq_bind,
    Option.bind_some, Option.pure_def]

theorem ciphertextPartsMut_append :
    ciphertextPartsMut (payload ++ tag.1) = some (payload, tag) := by
  simp only [ciphertextPartsMut, splitTag_append, tryFrom_val, Option.bind_eq_bind,
    Option.bind_some, Option.pure_def]

theorem intoPlaintext_ofParts : (ofParts nonce payload tag).intoPlaintext = some payload := by
  simp only [intoPlaintext, ofParts, splitAt_append nonce.2, splitTag_append, Option.bind_eq_bind,
    Option.bind_some, Option.pure_def]

theorem ofParts_length :
    (ofParts nonce payload tag).data.length =
      payload.length + ContentCipher.extraCiphertextLen := by
  simp only [ofParts, List.length_append, nonce.2, tag.2, ContentCipher.extraCiphertextLen]
  omega

theorem exists_parts {data : List UInt8} (h : nonceSize + tagSize ≤ data.length) :
    ∃ nonce payload tag, data = (ofParts nonce payload tag).data := by
  have hnonce : (data.take nonceSize).length = nonceSize := by
    rw [List.length_take]
    omega
  have hrest : (data.drop nonceSize).length = data.length - nonceSize := List.length_drop
  have htag : ((data.drop nonceSize).drop (data.length - nonceSize - tagSize)).length =
      tagSize := by
    rw [List.length_drop, hrest]
    omega
  refine ⟨⟨_, hnonce⟩, (data.drop nonceSize).take (data.length - nonceSize - tagSize),
    ⟨_, htag⟩, ?_⟩
  rw [ofParts]
  simp only [List.take_append_drop]

theorem fromNonceAndCiphertext_ofParts :
    fromNonceAndCiphertext (ofParts nonce payload tag).data = .ok (ofParts nonce payload tag) :=
  dif_pos (ofParts nonce payload tag).length_le

theorem setNonce_ofParts {random : FixedBytes nonceSize} :
    (ofParts random payload tag).setNonce nonce = ofParts nonce payload tag := by
  simp only [setNonce, ofParts, ContentCipherBuffer.mk.injEq, List.append_cancel_left_eq]
  exact List.drop_left' random.2

end Parts

section Impl
variable (c : Crypto) (impl : CipherImpl) (key : FixedBytes keySize) (nonce : FixedBytes nonceSize)
  (aad payload : List UInt8) (tag : FixedBytes tagSize)

theorem CipherImpl.deriveNew_eq (baseKey : CipherKey) (info : List UInt8) :
    impl.deriveNew c baseKey info = c.hkdf [] baseKey info := by
  cases impl with
  | native => exact (c.hkdf_salt baseKey info).symm
  | web => rfl

theorem subtleDecrypt_append :
    c.subtleDecrypt key nonce aad (payload ++ tag.1) =
      c.decryptDetached key nonce aad payload tag := by
  rw [Crypto.subtleDecrypt, ciphertextPartsMut_append]

theorem CipherImpl.encrypt_ofParts :
    impl.encrypt c key (ofParts nonce payload tag) aad =
      some (ofParts nonce (c.encryptDetached key nonce aad payload).1
        (c.encryptDetached key nonce aad payload).2).data := by
  cases impl with
  | native =>
    simp only [CipherImpl.encrypt, Crypto.nativeEncrypt, partsMut_ofParts,
      ciphertextPartsMut_append, Option.bind_eq_bind, Option.bind_some, Option.pure_def]
  | web =>
    have hcopy : copyTo (c.subtleEncrypt key nonce aad payload) (payload ++ tag.1) =
        some (c.subtleEncrypt key nonce aad payload) := by
      refine if_pos ?_
      rw [Crypto.subtleEncrypt, List.length_append, List.length_append, c.encrypt_length, tag.2,
        (c.encryptDetached key nonce aad payload).2.2]
    simp only [CipherImpl.encrypt, Crypto.webEncrypt, partsMut_ofParts, ciphertextPartsMut_append,
      hcopy, Option.bind_eq_bind, Option.bind_some, Option.pure_def]
    rfl

theorem CipherImpl.decrypt_ofParts :
    impl.decrypt c key (ofParts nonce payload tag) aad =
      some (match c.decryptDetached key nonce aad payload tag with
        | none => .error .decrypt
        | some plaintext => .ok plaintext) := by
  cases impl with
  | native =>
    simp only [CipherImpl.decrypt, Crypto.nativeDecrypt, partsMut_ofParts,
      ciphertextPartsMut_append, Option.bind_eq_bind, Option.bind_some, Option.pure_def]
    cases c.decryptDetached key nonce aad payload tag with
    | none => rfl
    | some plaintext => simp only [intoPlaintext_ofParts, Option.bind_some]
  | web =>
    simp only [CipherImpl.decrypt, Crypto.webDecrypt, partsMut_ofParts, subtleDecrypt_append,
      Option.bind_eq_bind, Option.bind_some, Option.pure_def]
    cases hplaintext : c.decryptDetached key nonce aad payload tag with
    | none => rfl
    | some plaintext =>
      have hcopy : copyTo plaintext payload = some plaintext :=
        if_pos (c.decrypt_length key nonce aad payload tag plaintext hplaintext)
      simp only [ciphertextPartsMut_append, hcopy, intoPlaintext_ofParts, Option.bind_some]

end Impl

section Envelope
variable (cipher : ContentCipher) (nonce : FixedBytes nonceSize) (usage : ContentCipherUsage)

def Crypto.key (c : Crypto) (cipherKey : CipherKey) (usage : ContentCipherUsage) :
    FixedBytes keySize :=
  c.hkdf [] cipherKey usage.info

/-- `nonce | ciphertext | tag` of a plaintext. -/
def Crypto.envelope (c : Crypto) (cipherKey : CipherKey) (usage : ContentCipherUsage)
    (nonce : FixedBytes nonceSize) (plaintext : List UInt8) : List UInt8 :=
  nonce.1 ++ ((c.encryptDetached (c.key cipherKey usage) nonce [] plaintext).1 ++
    (c.encryptDetached (c.key cipherKey usage) nonce [] plaintext).2.1)

theorem Crypto.envelope_length (c : Crypto) (cipherKey : CipherKey) (plaintext : List UInt8) :
    (c.envelope cipherKey usage nonce plaintext).length =
      plaintext.length + ContentCipher.extraCiphertextLen := by
  rw [← c.encrypt_length (c.key cipherKey usage) nonce [] plaintext]
  exact ofParts_length

theorem ContentCipher.key_eq : cipher.key usage = cipher.crypto.key cipher.cipherKey usage :=
  cipher.impl.deriveNew_eq cipher.crypto cipher.cipherKey usage.info

theorem ContentCipher.encrypt_ofParts (random : FixedBytes nonceSize) (payload : List UInt8)
    (tag : FixedBytes tagSize) :
    cipher.encrypt nonce (ofParts random payload tag) usage =
      some (cipher.crypto.envelope cipher.cipherKey usage nonce payload) := by
  rw [ContentCipher.encrypt, partsMut_ofParts, setNonce_ofParts, cipher.impl.encrypt_ofParts,
    cipher.key_eq]
  rfl

theorem ContentCipher.decrypt_ofParts (payload : List UInt8) (tag : FixedBytes tagSize) :
    cipher.decrypt (ofParts nonce payload tag).data usage =
      some (match cipher.crypto.decryptDetached (cipher.crypto.key cipher.cipherKey usage) nonce []
          payload tag with
        | none => .error .decrypt
        | some plaintext => .ok plaintext) := by
  rw [ContentCipher.decrypt, fromNonceAndCiphertext_ofParts]
  simp only [cipher.impl.decrypt_ofParts, cipher.key_eq]

theorem ContentCipher.decrypt_envelope {cipherKey : CipherKey} (h : cipher.cipherKey = cipherKey)
    (plaintext : List UInt8) :
    cipher.decrypt (cipher.crypto.envelope cipherKey usage nonce plaintext) usage =
      some (.ok plaintext) := by
  subst h
  refine (cipher.decrypt_ofParts nonce usage _ _).trans ?_
  rw [cipher.crypto.decrypt_encrypt]

theorem ContentCipher.decrypt_short {input : List UInt8}
    (h : input.length < ContentCipher.extraCiphertextLen) :
    cipher.decrypt input usage = some (.error .decrypt) := by
  have hshort : ¬ nonceSize + tagSize ≤ input.length := Nat.not_le.2 h
  rw [ContentCipher.decrypt, fromNonceAndCiphertext, dif_neg hshort]

theorem ContentCipher.decrypt_returns (input : List UInt8) :
    ∃ result, cipher.decrypt input usage = some result := by
  rcases Nat.lt_or_ge input.length ContentCipher.extraCiphertextLen with hshort | hlong
  · exact ⟨_, cipher.decrypt_short usage hshort⟩
  · obtain ⟨nonce, payload, tag, rfl⟩ := exists_parts hlong
    exact ⟨_, cipher.decrypt_ofParts nonce usage payload tag⟩

end Envelope

end Glopfile.Client
