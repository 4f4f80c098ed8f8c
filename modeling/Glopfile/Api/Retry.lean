import Glopfile.Api.Error
import Glopfile.Backoff
import Glopfile.HeaderText

/-!
# `util::retry`

The schedule is a list of delays: the builder bounds their sum and jitters each of them. An
error that carries a delay of its own has it in place of the scheduled one, and it is waited
for when the schedule is used up as well.
-/

namespace Glopfile.Api

open HeaderText

def adjust (error : RetryError) (scheduled : Option Duration) : Option Duration :=
  match error.retriability with
  | .after retryAfter => some retryAfter
  | _ => scheduled

def retryPolicy : Backoff.Policy RetryError Duration where
  when error := error.retriability ≠ .permanent
  adjust := adjust

/-- What `retry` has returned when its operation has been tried `n` times. -/
def retry {α : Type} (schedule : List Duration) (attempts : ℕ → Except RetryError α) (n : ℕ) :
    Option (Except Error α) :=
  match retryPolicy.after schedule attempts n with
  | .trying _ => none
  | .returned result => some (result.mapError RetryError.error)

def parseRetryAfter (header : List UInt8) : Except Error (Option Duration) :=
  match toStr header with
  | none => .error (.invalidServerResponse "Non-utf8 Retry-After header value")
  | some text =>
    match parseBelow (2 ^ 64) text with
    | none => .error (.invalidServerResponse "Invalid Retry-After header value")
    | some secs => .ok (some (Duration.fromSecs secs))

variable {schedule : List Duration} {error : RetryError}

theorem delay_eq_none_iff : retryPolicy.delay schedule error = none ↔
    error.retriability = .permanent ∨ error.retriability = .transient ∧ schedule = [] := by
  cases hr : error.retriability <;>
    simp [Backoff.Policy.delay, retryPolicy, adjust, hr]

theorem retry_returned_iff {α : Type} {failures : ℕ → RetryError} :
    (∃ n error, retry (α := α) schedule (fun k => .error (failures k)) n = some (.error error)) ↔
      ∃ k, retryPolicy.delay (schedule.drop k) (failures k) = none := by
  rw [← Backoff.returns_iff (α := α)]
  refine exists_congr fun n => ?_
  unfold retry
  cases retryPolicy.after (α := α) schedule (fun k => .error (failures k)) n with
  | trying left => simp
  | returned result => cases result <;> simp [Except.mapError]

/-- An operation that fails every time is given up exactly when it fails permanently, or with
a transient error once the delays of the schedule are used up. An error with a delay of its own
does not end the attempts. -/
theorem retry_gives_up_iff {α : Type} (schedule : List Duration) (failures : ℕ → RetryError) :
    (∃ n error, retry (α := α) schedule (fun k => .error (failures k)) n = some (.error error)) ↔
      ∃ k, (failures k).retriability = .permanent ∨
        (failures k).retriability = .transient ∧ schedule.length ≤ k := by
  rw [retry_returned_iff]
  simp only [delay_eq_none_iff, List.drop_eq_nil_iff]

/-- A server that answers every request with the same `Retry-After` is asked for ever. -/
theorem retry_never_gives_up : ¬ ∃ n error,
    retry (α := Unit) [Duration.fromSecs 1, Duration.fromSecs 2]
      (fun _ => .error (.ofError (.clientHttpErrorResponse "failed to upload content" 503
        (some (Duration.fromSecs 7))))) n = some (.error error) := by
  rw [retry_returned_iff]
  rintro ⟨k, hdelay⟩
  rcases delay_eq_none_iff.mp hdelay with hpermanent | ⟨htransient, _⟩
  · cases hpermanent
  · cases htransient

end Glopfile.Api
