import Glopfile.Client.UploadState

/-!
# The requests of a peer

`data_channel_message` with everything that can fail in it: the decoding of a message, the
conversions of its numbers to `usize`, and the data channel. The offset and the length of a
request are the peer's, and nothing compares them with the file before it is sliced.

`bits` is the width of `usize`, and `decode` the decoder of protobuf messages, whose inner
`none` is a message of an unknown type.
-/

namespace Glopfile.Client

inductive MessageResult
  | ok (flow : ControlFlow)
  | err
  | panicked
  deriving DecidableEq, Repr

variable {bits : ℕ} {decode : List UInt8 → Option (Option DownloaderMessage)} {accepts : Bool}
  {s : UploadState} {f : EncryptedFile} {messageData data : List UInt8} {offset len : ℕ}

/-- `usize::try_from`. -/
def toUsize (bits n : ℕ) : Option ℕ := if n < 2 ^ bits then some n else none

/-- `none` is the panic of `expect` or of `slice`. -/
def EncryptedFile.readAtExactIn (bits : ℕ) (f : EncryptedFile) (offset len : ℕ) :
    Option (List UInt8) :=
  match toUsize bits offset with
  | none => none
  | some offset =>
    let stop := min (offset + len) (2 ^ bits - 1)
    if offset ≤ stop ∧ stop ≤ f.encryptedBytes.length then
      some ((f.encryptedBytes.take stop).drop offset)
    else none

/-- `accepts` says whether the data channel takes the answer. -/
def UploadState.receive (bits : ℕ) (decode : List UInt8 → Option (Option DownloaderMessage))
    (accepts : Bool) (s : UploadState) (messageData : List UInt8) :
    MessageResult × List UploaderOutput :=
  match decode messageData with
  | none => (.err, [])
  | some none => (.ok .continues, [])
  | some (some .hello) => if accepts then (.ok .continues, [.sent .hello]) else (.err, [])
  | some (some (.dataRequest ⟨offset, len⟩)) =>
    match toUsize bits len with
    | none => (.panicked, [])
    | some len =>
      match s.encryptedFile.readAtExactIn bits offset len with
      | none => (.panicked, [])
      | some data =>
        if accepts then
          (.ok .continues, [.sent (.dataResponse offset data),
            .progress ((offset + len) % 2 ^ 64) s.encryptedFile.len])
        else (.err, [])
  | some (some .transferFinished) =>
    (.ok .breaks, [.progress s.encryptedFile.len s.encryptedFile.len])

def EncryptedFile.range (f : EncryptedFile) (offset len : ℕ) : List UInt8 :=
  (f.encryptedBytes.drop offset).take len

def EncryptedFile.Inside (f : EncryptedFile) (offset len : ℕ) : Prop :=
  offset + len ≤ f.encryptedBytes.length

structure ServedSafely (bits : ℕ) (decode : List UInt8 → Option (Option DownloaderMessage))
    (accepts : Bool) (s : UploadState) (messageData : List UInt8) : Prop where
  adds : ∀ offset len, decode messageData = some (some (.dataRequest ⟨offset, len⟩)) →
    offset + len < 2 ^ 64
  returns : (s.receive bits decode accepts messageData).1 ≠ .panicked
  outside : ∀ offset len, decode messageData = some (some (.dataRequest ⟨offset, len⟩)) →
    ¬s.encryptedFile.Inside offset len →
      (s.receive bits decode accepts messageData).2 = [] ∧
        ((s.receive bits decode accepts messageData).1 = .err ∨
          (s.receive bits decode accepts messageData).1 = .ok .continues)
  sends : ∀ offset data, UploaderOutput.sent (.dataResponse offset data) ∈
      (s.receive bits decode accepts messageData).2 →
    ∃ len, decode messageData = some (some (.dataRequest ⟨offset, len⟩)) ∧
      s.encryptedFile.Inside offset len ∧ data = s.encryptedFile.range offset len

theorem toUsize_of_lt (h : len < 2 ^ bits) : toUsize bits len = some len := if_pos h

theorem readAtExactIn_of_inside (hfits : f.encryptedBytes.length < 2 ^ bits - 1)
    (hinside : f.Inside offset len) : f.readAtExactIn bits offset len = some (f.range offset len) := by
  have hstop : min (offset + len) (2 ^ bits - 1) = offset + len := by
    unfold EncryptedFile.Inside at hinside
    omega
  have hoffset : toUsize bits offset = some offset := by
    refine toUsize_of_lt ?_
    unfold EncryptedFile.Inside at hinside
    omega
  simp only [EncryptedFile.readAtExactIn, hoffset, hstop]
  rw [if_pos ⟨Nat.le_add_right _ _, hinside⟩, List.drop_take, Nat.add_sub_cancel_left]
  rfl

theorem readAtExactIn_of_outside (hfits : f.encryptedBytes.length < 2 ^ bits - 1)
    (houtside : ¬f.Inside offset len) : f.readAtExactIn bits offset len = none := by
  unfold EncryptedFile.Inside at houtside
  by_cases hoffset : offset < 2 ^ bits
  · have hstop : ¬(offset ≤ min (offset + len) (2 ^ bits - 1) ∧
        min (offset + len) (2 ^ bits - 1) ≤ f.encryptedBytes.length) := by omega
    simp only [EncryptedFile.readAtExactIn, toUsize_of_lt hoffset, if_neg hstop]
  · simp only [EncryptedFile.readAtExactIn, toUsize, if_neg hoffset]

theorem readAtExactIn_eq (hoffset : offset < 2 ^ 64) :
    f.readAtExactIn 64 offset len = f.readAtExact offset len := by
  simp only [EncryptedFile.readAtExactIn, toUsize_of_lt hoffset, EncryptedFile.readAtExact]

section Request
variable (hrequest : decode messageData = some (some (.dataRequest ⟨offset, len⟩)))
include hrequest

theorem receive_inside (hfits : s.encryptedFile.encryptedBytes.length < 2 ^ bits - 1)
    (hinside : s.encryptedFile.Inside offset len) :
    s.receive bits decode accepts messageData =
      if accepts then
        (.ok .continues, [.sent (.dataResponse offset (s.encryptedFile.range offset len)),
          .progress ((offset + len) % 2 ^ 64) s.encryptedFile.len])
      else (.err, []) := by
  have hlen : toUsize bits len = some len := by
    refine toUsize_of_lt ?_
    unfold EncryptedFile.Inside at hinside
    omega
  simp only [UploadState.receive, hrequest, hlen, readAtExactIn_of_inside hfits hinside]

theorem receive_outside (hfits : s.encryptedFile.encryptedBytes.length < 2 ^ bits - 1)
    (houtside : ¬s.encryptedFile.Inside offset len) :
    s.receive bits decode accepts messageData = (.panicked, []) := by
  simp only [UploadState.receive, hrequest]
  by_cases hlen : len < 2 ^ bits
  · simp only [toUsize_of_lt hlen, readAtExactIn_of_outside hfits houtside]
  · simp only [toUsize, if_neg hlen]

end Request

theorem receive_other (hother : ∀ offset len,
    decode messageData ≠ some (some (.dataRequest ⟨offset, len⟩))) :
    (s.receive bits decode accepts messageData).1 ≠ .panicked ∧
      ∀ offset data, UploaderOutput.sent (.dataResponse offset data) ∉
        (s.receive bits decode accepts messageData).2 := by
  unfold UploadState.receive
  cases hdecode : decode messageData with
  | none => simp
  | some inner =>
    cases inner with
    | none => simp
    | some message =>
      cases message with
      | hello => cases accepts <;> simp
      | dataRequest request => exact absurd hdecode (hother request.offset request.len)
      | transferFinished => simp

/-- A message is served, or rejected or ignored without an overflow or a panic, exactly when it
is no request beyond the end of the file. -/
theorem requests_are_served (hbits : bits ≤ 64)
    (hfits : s.encryptedFile.encryptedBytes.length < 2 ^ bits - 1) :
    ServedSafely bits decode accepts s messageData ↔ ∀ offset len,
      decode messageData = some (some (.dataRequest ⟨offset, len⟩)) →
        s.encryptedFile.Inside offset len := by
  constructor
  · intro hserves offset len hrequest
    by_contra houtside
    exact hserves.returns (by rw [receive_outside hrequest hfits houtside])
  · intro hinside
    have hwidth : 2 ^ bits ≤ 2 ^ 64 := Nat.pow_le_pow_right (by decide) hbits
    by_cases hrequest : ∃ offset len, decode messageData = some (some (.dataRequest ⟨offset, len⟩))
    · obtain ⟨offset, len, hrequest⟩ := hrequest
      have hreceive : s.receive bits decode accepts messageData = _ :=
        receive_inside hrequest hfits (hinside _ _ hrequest)
      refine ⟨fun offset len h => ?_, ?_, fun _ _ h hnot => absurd (hinside _ _ h) hnot, ?_⟩
      · have hle := hinside offset len h
        unfold EncryptedFile.Inside at hle
        omega
      · rw [hreceive]
        cases accepts <;> simp
      · intro offset' data hsent
        rw [hreceive] at hsent
        cases accepts with
        | false => cases hsent
        | true =>
          obtain ⟨rfl, rfl⟩ : offset' = offset ∧ data = s.encryptedFile.range offset len := by
            simpa using hsent
          exact ⟨len, hrequest, hinside _ _ hrequest, rfl⟩
    · have hother : ∀ offset len, decode messageData ≠ some (some (.dataRequest ⟨offset, len⟩)) :=
        fun offset len h => hrequest ⟨offset, len, h⟩
      have hquiet : (s.receive bits decode accepts messageData).1 ≠ .panicked ∧ _ :=
        receive_other hother
      exact ⟨fun offset len h => absurd h (hother offset len), hquiet.1,
        fun offset len h => absurd h (hother offset len),
        fun offset data hsent => absurd hsent (hquiet.2 offset data)⟩

theorem receive_eq_dataChannelMessage {message : DownloaderMessage}
    (hmessage : decode messageData = some (some message))
    (hrequest : ∀ offset len, message = .dataRequest ⟨offset, len⟩ →
      offset < 2 ^ 64 ∧ len < 2 ^ 64) :
    s.receive 64 decode true messageData =
      (match (s.dataChannelMessage message).1 with
        | .running => .ok .continues
        | .finished => .ok .breaks
        | .panicked => .panicked, (s.dataChannelMessage message).2) := by
  cases message with
  | hello => simp only [UploadState.receive, hmessage, UploadState.dataChannelMessage, if_true]
  | dataRequest request =>
    obtain ⟨offset, len⟩ := request
    obtain ⟨hoffset, hlen⟩ := hrequest offset len rfl
    simp only [UploadState.receive, hmessage, toUsize_of_lt hlen, readAtExactIn_eq hoffset,
      UploadState.dataChannelMessage]
    cases s.encryptedFile.readAtExact offset len <;> simp
  | transferFinished => simp only [UploadState.receive, hmessage, UploadState.dataChannelMessage]

def decodeShort : List UInt8 → Option (Option DownloaderMessage)
  | [10, 4, 8, offset, 16, len] =>
    if offset < 128 ∧ len < 128 then some (some (.dataRequest ⟨offset.toNat, len.toNat⟩))
    else none
  | _ => none

theorem requests_are_served_inside :
    ServedSafely 64 decodeShort true ⟨⟨[1, 2, 3]⟩⟩ [10, 4, 8, 1, 16, 2] ↔ ∀ offset len,
      decodeShort [10, 4, 8, 1, 16, 2] = some (some (.dataRequest ⟨offset, len⟩)) →
        EncryptedFile.Inside ⟨[1, 2, 3]⟩ offset len :=
  requests_are_served (by decide) (by decide)

/-- A request that runs one byte past the end of the file. -/
theorem request_panics :
    UploadState.receive 64 decodeShort true ⟨⟨[1, 2, 3]⟩⟩ [10, 4, 8, 2, 16, 2] = (.panicked, []) ∧
      ¬ServedSafely 64 decodeShort true ⟨⟨[1, 2, 3]⟩⟩ [10, 4, 8, 2, 16, 2] :=
  ⟨rfl, fun h => h.returns rfl⟩

end Glopfile.Client
