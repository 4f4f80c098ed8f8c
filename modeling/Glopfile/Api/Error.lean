import Mathlib.Init

/-!
# Errors of the client and how they are retried

Errors of other crates are represented by the text they display. `Error::retriability` is
the general rule; a `RetryError` may override it.
-/

namespace Glopfile.Api

abbrev Duration := Nat

def Duration.fromSecs (secs : Nat) : Duration := secs * 1000000000

inductive WebSocketKnownCloseStatus
  | normal
  | gone
  | protocolError
  | unsupportedFrameType
  | missingStatusCode
  | connectionClosed
  | invalidFrameData
  | forbidden
  | frameTooLarge
  | missingProtocolExtension
  | internalServerError
  | tlsError
  deriving DecidableEq, Repr

inductive WebSocketCloseStatus
  | known (status : WebSocketKnownCloseStatus)
  | unknown (status : UInt16)
  deriving DecidableEq, Repr

inductive Error
  | clientHttpErrorResponse (message : String) (status : UInt16) (retryAfter : Option Duration)
  | clientApiErrorResponse (message reason : String)
  | webSocketClosed (status : WebSocketCloseStatus) (reason : String)
  | io (source : String)
  | httpClient (source : String)
  | rtcDataChannel (source : String)
  | webSocketClient (source : String)
  | invalidPeerMessage (source : String)
  | invalidInput (message : String)
  | invalidCipherKey
  | decrypt
  | invalidServerResponse (message : String)
  | timeout
  deriving DecidableEq, Repr

inductive Retriability
  | permanent
  | transient
  | after (delay : Duration)
  deriving DecidableEq, Repr

/-- `StatusCode::from_u16`: three digits. -/
def statusCode (status : UInt16) : Option UInt16 :=
  if 100 ≤ status ∧ status < 1000 then some status else none

def isSuccess (status : UInt16) : Bool := 200 ≤ status && status < 300

def isServerError (status : UInt16) : Bool := 500 ≤ status && status < 600

def WebSocketKnownCloseStatus.retriability : WebSocketKnownCloseStatus → Retriability
  | .connectionClosed | .internalServerError | .tlsError => .transient
  | _ => .permanent

def Error.retriability : Error → Retriability
  | .clientHttpErrorResponse _ _ (some retryAfter) => .after retryAfter
  | .clientHttpErrorResponse _ status none =>
    match statusCode status with
    | some status => if isServerError status then .transient else .permanent
    | none => .permanent
  | .webSocketClosed (.known status) _ => status.retriability
  | .httpClient _ | .io _ | .timeout => .transient
  | _ => .permanent

def Error.NotFound (error : Error) : Prop :=
  ∃ message retryAfter, error = .clientHttpErrorResponse message 404 retryAfter

structure RetryError where
  error : Error
  override : Option Retriability
  deriving DecidableEq, Repr

namespace RetryError

def ofError (error : Error) : RetryError := ⟨error, none⟩

def permanent (error : Error) : RetryError := ⟨error, some .permanent⟩

def transient (error : Error) : RetryError := ⟨error, some .transient⟩

def retriability (e : RetryError) : Retriability := e.override.getD e.error.retriability

end RetryError

end Glopfile.Api
