import Mathlib.Order.Bounds.Defs
import Glopfile.Varint
import Glopfile.Client.Cipher

/-!
# Signaling messages under the cipher

A signaling message is padded with zeroes to whole blocks, so that its length says little, and
encrypted for the usage of its sender; a receiver decrypts for the usage of its peer.
Decoding stops at the length in front of the message and leaves the padding unread.

`Prost` is the coding of a message alone. `Crypto.Separates` is what is assumed of keys derived
for distinct usages. `cipher_envelope` collects what the cipher promises.
-/

namespace Glopfile.Client

/-- What the code relies on of a `prost::Message`; the text of an error is its display. -/
structure Prost (M : Type) where
  encode : M → List UInt8
  decode : List UInt8 → Except String M
  length_lt : ∀ message, (encode message).length < 2 ^ 64
  decode_encode : ∀ message, decode (encode message) = .ok message

inductive ContentCipherBufferPaddingType
  | zeroes (blockLen : ℕ)
  deriving DecidableEq, Repr

inductive SignalingCipherUsage
  | uploader
  | downloader
  deriving DecidableEq, Repr

def resize (data : List UInt8) (newLen : ℕ) (value : UInt8) : List UInt8 :=
  data.take newLen ++ List.replicate (newLen - data.length) value

def nextMultipleOf (len blockLen : ℕ) : ℕ :=
  match len % blockLen with
  | 0 => len
  | r => len + (blockLen - r)

theorem resize_length (data : List UInt8) (newLen : ℕ) (value : UInt8) :
    (resize data newLen value).length = newLen := by
  simp only [resize, List.length_append, List.length_take, List.length_replicate]
  omega

section Prost
variable {M : Type} (prost : Prost M)

def Prost.unpaddedLen (message : M) : ℕ :=
  (Varint.encode (prost.encode message).length).length + (prost.encode message).length

def Prost.decodeLengthDelimited (bytes : List UInt8) : Except String M :=
  match Varint.undelimit bytes with
  | .error .invalidVarint => .error "failed to decode Protobuf message: invalid varint"
  | .error .underflow => .error "failed to decode Protobuf message: buffer underflow"
  | .ok bytes => prost.decode bytes

/-- `none` is the division by zero. -/
def ContentCipherBuffer.fromMessagePadded (random : FixedBytes nonceSize) (message : M) :
    ContentCipherBufferPaddingType → Option ContentCipherBuffer
  | .zeroes blockLen =>
    let paddedLen := nextMultipleOf (prost.unpaddedLen message) blockLen
    let data := random.1 ++ Varint.delimit (prost.encode message)
    let padded := resize data (nonceSize + paddedLen) 0
    if blockLen = 0 then none
    else some
      { data := padded ++ List.replicate tagSize 0
        length_le := by
          simp only [padded, List.length_append, resize_length, List.length_replicate]
          omega }

def ContentCipher.decryptMessage (cipher : ContentCipher) (nonceAndCiphertext : List UInt8)
    (usage : ContentCipherUsage) : Option (Except Api.Error M) := do
  match ← cipher.decrypt nonceAndCiphertext usage with
  | .error error => return .error error
  | .ok messageData =>
    match prost.decodeLengthDelimited messageData with
    | .error source => return .error (.invalidPeerMessage source)
    | .ok message => return .ok message

end Prost

namespace SignalingCipherUsage

def peer : SignalingCipherUsage → SignalingCipherUsage
  | .downloader => .uploader
  | .uploader => .downloader

def contentUsage : SignalingCipherUsage → ContentCipherUsage
  | .downloader => .downloaderRtcSignaling
  | .uploader => .uploaderRtcSignaling

end SignalingCipherUsage

def signalingCipherPaddingType : ContentCipherBufferPaddingType := .zeroes 64

structure SignalingCipher where
  cipher : ContentCipher
  cipherUsage : SignalingCipherUsage

namespace SignalingCipher
variable {M : Type} (prost : Prost M)

def send (s : SignalingCipher) (random nonce : FixedBytes nonceSize) (message : M) :
    Option (List UInt8) := do
  let plaintext ← ContentCipherBuffer.fromMessagePadded prost random message
    signalingCipherPaddingType
  s.cipher.encrypt nonce plaintext s.cipherUsage.contentUsage

def decrypt (s : SignalingCipher) (ciphertext : List UInt8) : Option (Except Api.Error M) :=
  s.cipher.decryptMessage prost ciphertext s.cipherUsage.peer.contentUsage

end SignalingCipher

/-- A key derived for one info does not authenticate what was encrypted under that of another. -/
def Crypto.Separates (c : Crypto) : Prop :=
  ∀ (cipherKey : CipherKey) (usage usage' : ContentCipherUsage) (nonce : FixedBytes nonceSize)
    (aad plaintext : List UInt8), usage.info ≠ usage'.info →
    c.decryptDetached (c.key cipherKey usage') nonce aad
      (c.encryptDetached (c.key cipherKey usage) nonce aad plaintext).1
      (c.encryptDetached (c.key cipherKey usage) nonce aad plaintext).2 = none

section Padding

theorem nextMultipleOf_isLeast (len : ℕ) {blockLen : ℕ} (h : 0 < blockLen) :
    IsLeast {n | blockLen ∣ n ∧ len ≤ n} (nextMultipleOf len blockLen) := by
  have hmod : len % blockLen < blockLen := Nat.mod_lt len h
  have hdiv := Nat.div_add_mod len blockLen
  unfold nextMultipleOf
  split
  · next hzero =>
    refine ⟨⟨Nat.dvd_of_mod_eq_zero hzero, Nat.le_refl _⟩, fun n hn => hn.2⟩
  · next hpos =>
    have hnext : len + (blockLen - len % blockLen) = blockLen * (len / blockLen + 1) := by
      rw [Nat.mul_add, Nat.mul_one]
      omega
    rw [hnext]
    refine ⟨⟨Nat.dvd_mul_right _ _, by rw [← hnext]; exact Nat.le_add_right _ _⟩, ?_⟩
    rintro n ⟨⟨k, rfl⟩, hle⟩
    refine Nat.mul_le_mul_left _ (Nat.lt_of_mul_lt_mul_left (a := blockLen) ?_)
    have hrest : len % blockLen ≠ 0 := hpos
    omega

variable {M : Type} (prost : Prost M)

theorem Prost.unpaddedLen_eq (message : M) :
    prost.unpaddedLen message = (Varint.delimit (prost.encode message)).length := by
  rw [Prost.unpaddedLen, Varint.delimit, List.length_append]

/-- The message in front, zeroes behind it up to whole blocks. -/
theorem fromMessagePadded_eq (random : FixedBytes nonceSize) (message : M) {blockLen : ℕ}
    (h : 0 < blockLen) :
    ContentCipherBuffer.fromMessagePadded prost random message (.zeroes blockLen) =
      some (.ofParts random
        (Varint.delimit (prost.encode message) ++
          List.replicate (nextMultipleOf (prost.unpaddedLen message) blockLen -
            prost.unpaddedLen message) 0) ContentCipherBuffer.zeroTag) := by
  have hle := (nextMultipleOf_isLeast (prost.unpaddedLen message) h).1.2
  rw [prost.unpaddedLen_eq] at hle
  have hfront : (random.1 ++ Varint.delimit (prost.encode message)).length ≤
      nonceSize + nextMultipleOf (Varint.delimit (prost.encode message)).length blockLen := by
    rw [List.length_append, random.2]
    omega
  simp only [ContentCipherBuffer.fromMessagePadded, if_neg (Nat.ne_of_gt h), resize,
    prost.unpaddedLen_eq, List.take_of_length_le hfront, List.length_append, random.2,
    Nat.add_sub_add_left, ContentCipherBuffer.ofParts, ContentCipherBuffer.zeroTag,
    List.append_assoc]

theorem fromMessagePadded_isLeast (random : FixedBytes nonceSize) (message : M) {blockLen : ℕ}
    (h : 0 < blockLen) :
    ∃ payload tag, ContentCipherBuffer.fromMessagePadded prost random message (.zeroes blockLen) =
        some (.ofParts random payload tag) ∧
      IsLeast {n | blockLen ∣ n ∧ (Varint.delimit (prost.encode message)).length ≤ n}
        payload.length := by
  refine ⟨_, _, fromMessagePadded_eq prost random message h, ?_⟩
  have hleast := nextMultipleOf_isLeast (prost.unpaddedLen message) h
  rw [← prost.unpaddedLen_eq, List.length_append, List.length_replicate, ← prost.unpaddedLen_eq,
    Nat.add_sub_cancel' hleast.1.2]
  exact hleast

theorem decodeLengthDelimited_padded (message : M) (zeroes : List UInt8) :
    prost.decodeLengthDelimited (Varint.delimit (prost.encode message) ++ zeroes) =
      .ok message := by
  rw [Prost.decodeLengthDelimited, Varint.undelimit_delimit (prost.length_lt message)]
  exact prost.decode_encode message

end Padding

section Usages

theorem ContentCipherUsage.info_injective : Function.Injective ContentCipherUsage.info := by
  intro usage usage' h
  have hlength : usage.info.length = usage'.info.length := congrArg List.length h
  cases usage <;> cases usage' <;> first | rfl | exact absurd hlength (by decide)

theorem SignalingCipherUsage.peer_peer (role : SignalingCipherUsage) : role.peer.peer = role := by
  cases role <;> rfl

theorem SignalingCipherUsage.contentUsage_ne_peer (role : SignalingCipherUsage) :
    role.contentUsage ≠ role.peer.contentUsage := by
  cases role <;> nofun

variable {c : Crypto} {impl : CipherImpl} {cipherKey : CipherKey} {M : Type} (prost : Prost M)

theorem decrypt_other_usage (hsep : c.Separates) {usage usage' : ContentCipherUsage}
    (h : usage ≠ usage') (nonce : FixedBytes nonceSize) (plaintext : List UInt8) :
    (ContentCipher.mk c impl cipherKey).decrypt (c.envelope cipherKey usage nonce plaintext)
      usage' = some (.error .decrypt) := by
  refine (ContentCipher.decrypt_ofParts _ nonce usage' _ _).trans ?_
  rw [hsep cipherKey usage usage' nonce [] plaintext
    (ContentCipherUsage.info_injective.ne h)]

theorem SignalingCipher.send_eq (role : SignalingCipherUsage) (random nonce : FixedBytes nonceSize)
    (message : M) :
    ∃ zeroes, (SignalingCipher.mk ⟨c, impl, cipherKey⟩ role).send prost random nonce message =
      some (c.envelope cipherKey role.contentUsage nonce
        (Varint.delimit (prost.encode message) ++ zeroes)) := by
  refine ⟨List.replicate (nextMultipleOf (prost.unpaddedLen message) 64 -
    prost.unpaddedLen message) 0, ?_⟩
  rw [SignalingCipher.send, signalingCipherPaddingType,
    fromMessagePadded_eq prost random message (by decide : 0 < 64), Option.bind_eq_bind,
    Option.bind_some]
  exact ContentCipher.encrypt_ofParts _ nonce _ random _ _

theorem SignalingCipher.decrypt_envelope (role : SignalingCipherUsage)
    (nonce : FixedBytes nonceSize) (message : M) (zeroes : List UInt8) :
    (SignalingCipher.mk ⟨c, impl, cipherKey⟩ role.peer).decrypt prost
      (c.envelope cipherKey role.contentUsage nonce
        (Varint.delimit (prost.encode message) ++ zeroes)) = some (.ok message) := by
  rw [SignalingCipher.decrypt, ContentCipher.decryptMessage, role.peer_peer,
    ContentCipher.decrypt_envelope _ nonce _ rfl, Option.bind_eq_bind, Option.bind_some]
  simp only [decodeLengthDelimited_padded, Option.pure_def]

theorem SignalingCipher.decrypt_reflected (hsep : c.Separates) (role : SignalingCipherUsage)
    (nonce : FixedBytes nonceSize) (plaintext : List UInt8) :
    (SignalingCipher.mk ⟨c, impl, cipherKey⟩ role).decrypt prost
      (c.envelope cipherKey role.contentUsage nonce plaintext) = some (.error .decrypt) := by
  rw [SignalingCipher.decrypt, ContentCipher.decryptMessage,
    decrypt_other_usage hsep role.contentUsage_ne_peer, Option.bind_eq_bind, Option.bind_some]
  rfl

end Usages

/-- Every plaintext becomes the same envelope under either implementation, and comes back under
either; no input makes a slice panic, and a short one is refused; messages are padded to the
next whole block, and reach the other role and nobody else. -/
theorem cipher_envelope (c : Crypto) (hsep : c.Separates) {M : Type} (prost : Prost M) :
    (∀ cipherKey usage nonce random plaintext,
      (∀ impl, (ContentCipher.mk c impl cipherKey).encrypt nonce (.fromPlaintext random plaintext)
        usage = some (c.envelope cipherKey usage nonce plaintext)) ∧
      (∀ impl reads, (∀ read ∈ reads, read ≠ []) → reads.flatten = plaintext →
        (ContentCipher.mk c impl cipherKey).encrypt nonce
          (.readPlaintextToEnd random (reads ++ [[]])) usage =
            some (c.envelope cipherKey usage nonce plaintext)) ∧
      (c.envelope cipherKey usage nonce plaintext).length =
        plaintext.length + ContentCipher.extraCiphertextLen ∧
      ∀ impl, (ContentCipher.mk c impl cipherKey).decrypt
        (c.envelope cipherKey usage nonce plaintext) usage = some (.ok plaintext)) ∧
    (∀ cipherKey usage impl input,
      (∃ result, (ContentCipher.mk c impl cipherKey).decrypt input usage = some result) ∧
      (input.length < 28 →
        (ContentCipher.mk c impl cipherKey).decrypt input usage = some (.error .decrypt))) ∧
    (∀ random message blockLen, 0 < blockLen → ∃ payload tag,
      ContentCipherBuffer.fromMessagePadded prost random message (.zeroes blockLen) =
        some (.ofParts random payload tag) ∧
      IsLeast {n | blockLen ∣ n ∧ (Varint.delimit (prost.encode message)).length ≤ n}
        payload.length) ∧
    ∀ cipherKey role impl impl' random nonce message, ∃ ciphertext,
      (SignalingCipher.mk ⟨c, impl, cipherKey⟩ role).send prost random nonce message =
        some ciphertext ∧
      (SignalingCipher.mk ⟨c, impl', cipherKey⟩ role.peer).decrypt prost ciphertext =
        some (.ok message) ∧
      (SignalingCipher.mk ⟨c, impl', cipherKey⟩ role).decrypt prost ciphertext =
        some (.error .decrypt) := by
  refine ⟨?_, ?_, ?_, ?_⟩
  · intro cipherKey usage nonce random plaintext
    refine ⟨?_, ?_, ?_, ?_⟩
    · intro impl
      exact ContentCipher.encrypt_ofParts _ nonce usage random plaintext _
    · intro impl reads hne hflat
      rw [← hflat, ← ContentCipherBuffer.readToEnd_snoc fun hempty => hne [] hempty rfl]
      exact ContentCipher.encrypt_ofParts _ nonce usage random _ _
    · exact c.envelope_length nonce usage cipherKey plaintext
    · intro impl
      exact ContentCipher.decrypt_envelope _ nonce usage rfl plaintext
  · intro cipherKey usage impl input
    exact ⟨ContentCipher.decrypt_returns _ usage input, ContentCipher.decrypt_short _ usage⟩
  · intro random message blockLen h
    exact fromMessagePadded_isLeast prost random message h
  · intro cipherKey role impl impl' random nonce message
    obtain ⟨zeroes, hsend⟩ :=
      @SignalingCipher.send_eq c impl cipherKey M prost role random nonce message
    exact ⟨_, hsend, SignalingCipher.decrypt_envelope prost role nonce message zeroes,
      SignalingCipher.decrypt_reflected prost hsep role nonce _⟩

def labelling : Crypto where
  hkdf _ _ info := ⟨List.replicate keySize (UInt8.ofNat info.length), List.length_replicate⟩
  encryptDetached key _ _ plaintext := (plaintext, ⟨key.1.take tagSize, by simp [key.2]; decide⟩)
  decryptDetached key _ _ ciphertext tag :=
    if tag.1 = key.1.take tagSize then some ciphertext else none
  hkdf_salt _ _ := rfl
  encrypt_length _ _ _ _ := rfl
  decrypt_length _ _ _ _ _ _ h := by
    split_ifs at h
    rw [Option.some.inj h]
  decrypt_encrypt _ _ _ _ := if_pos rfl

theorem labelling_separates : labelling.Separates := by
  intro cipherKey usage usage' nonce aad plaintext h
  refine if_neg fun hlabel => h ?_
  have hlabels : (List.replicate keySize (UInt8.ofNat usage.info.length)).take tagSize =
      (List.replicate keySize (UInt8.ofNat usage'.info.length)).take tagSize := hlabel
  cases usage <;> cases usage' <;> first | rfl | exact absurd hlabels (by decide)

def emptyMessage : Prost Unit where
  encode _ := []
  decode _ := .ok ()
  length_lt _ := by decide
  decode_encode _ := rfl

theorem cipher_envelope_uploader :
    let cipherKey : CipherKey := ⟨List.replicate keySize 7, List.length_replicate⟩
    let nonce : FixedBytes nonceSize := ⟨List.replicate nonceSize 9, List.length_replicate⟩
    ∃ ciphertext,
      (SignalingCipher.mk ⟨labelling, .native, cipherKey⟩ .uploader).send emptyMessage nonce nonce ()
        = some ciphertext ∧
      (SignalingCipher.mk ⟨labelling, .web, cipherKey⟩ .downloader).decrypt emptyMessage ciphertext =
        some (.ok ()) ∧
      (SignalingCipher.mk ⟨labelling, .web, cipherKey⟩ .uploader).decrypt emptyMessage ciphertext =
        some (.error .decrypt) := by
  intro cipherKey nonce
  exact (cipher_envelope labelling labelling_separates emptyMessage).2.2.2 cipherKey .uploader
    .native .web nonce nonce ()

end Glopfile.Client
