import Glopfile.Api.UploadFile

/-!
# Server errors and `Retry-After`

The header is parsed while the error is built, and an error of the parser is returned in place
of the status. The parser reads a number of seconds and nothing else, so that a server error
with an HTTP date is an invalid response, which is not retried.
-/

namespace Glopfile.Api

open HeaderText
open Glopfile.Relay (HeaderValue)

/-- A `Retry-After` that is read: seconds, in decimal, below `2 ^ 64`. -/
def Seconds (header : HeaderValue) (secs : ℕ) : Prop :=
  ∃ text, header = encode text ∧ Numeral (2 ^ 64) text secs

def Response.Retried (r : Response) (message : String) : Prop :=
  ∃ error, r.okOr message = .error error ∧
    (error.retriability = .transient ∨ ∃ delay, error.retriability = .after delay)

variable {header : HeaderValue} {secs : ℕ} {r : Response} {message : String}

theorem parseRetryAfter_of_seconds (h : Seconds header secs) :
    parseRetryAfter header = .ok (some (Duration.fromSecs secs)) := by
  obtain ⟨text, rfl, hnumeral⟩ := h
  have htext : toStr (encode text) = some text := toStr_of_isHeaderChar hnumeral.isHeaderChar
  have hsecs : parseBelow (2 ^ 64) text = some secs := parseBelow_eq_some_iff.mpr hnumeral
  simp only [parseRetryAfter, htext, hsecs]

theorem parseRetryAfter_of_not_seconds (h : ∀ secs, ¬Seconds header secs) :
    ∃ error, parseRetryAfter header = .error error ∧ error.retriability = .permanent := by
  unfold parseRetryAfter
  split
  · exact ⟨_, rfl, rfl⟩
  · next text htext =>
    split
    · exact ⟨_, rfl, rfl⟩
    · next secs hsecs =>
      obtain ⟨hheader, -⟩ := toStr_eq_some_iff.mp htext
      exact absurd ⟨text, hheader, parseBelow_eq_some_iff.mp hsecs⟩ (h secs)

theorem isSuccess_of_isServerError {status : UInt16} (h : isServerError status = true) :
    isSuccess status = false := by
  simp only [isServerError, isSuccess, Bool.and_eq_true, decide_eq_true_eq, Bool.and_eq_false_iff,
    decide_eq_false_iff_not, UInt16.le_iff_toNat_le, UInt16.lt_iff_toNat_lt] at h ⊢
  exact .inr (Nat.not_lt.mpr (Nat.le_trans (by decide) h.1))

theorem retriability_of_isServerError {status : UInt16} (h : isServerError status = true) :
    (Error.clientHttpErrorResponse message status none).retriability = .transient := by
  have hcode : statusCode status = some status := by
    simp only [isServerError, Bool.and_eq_true, decide_eq_true_eq, UInt16.le_iff_toNat_le,
      UInt16.lt_iff_toNat_lt] at h
    refine if_pos ⟨?_, ?_⟩
    · exact UInt16.le_iff_toNat_le.mpr (Nat.le_trans (by decide) h.1)
    · exact UInt16.lt_iff_toNat_lt.mpr (Nat.lt_trans h.2 (by decide))
  simp only [Error.retriability, hcode, h, if_true]

/-- A server error is retried exactly without a `Retry-After`, or with one in seconds. -/
theorem server_error_is_retried_iff (r : Response) (message : String)
    (hstatus : isServerError r.status = true) :
    r.Retried message ↔
      r.retryAfter = none ∨ ∃ header secs, r.retryAfter = some header ∧ Seconds header secs := by
  have hfailed := isSuccess_of_isServerError hstatus
  cases hheader : r.retryAfter with
  | none =>
    have herror : r.okOr message = .error (.clientHttpErrorResponse message r.status none) := by
      simp only [Response.okOr, hfailed, hheader, Bool.false_eq_true, if_false]
    exact ⟨fun _ => .inl rfl, fun _ =>
      ⟨_, herror, .inl (retriability_of_isServerError hstatus)⟩⟩
  | some header =>
    by_cases hsecs : ∃ secs, Seconds header secs
    · obtain ⟨secs, hsecs⟩ := hsecs
      have herror : r.okOr message = .error (.clientHttpErrorResponse message r.status
          (some (Duration.fromSecs secs))) := by
        simp only [Response.okOr, hfailed, hheader, parseRetryAfter_of_seconds hsecs,
          Bool.false_eq_true, if_false]
      exact ⟨fun _ => .inr ⟨header, secs, rfl, hsecs⟩, fun _ => ⟨_, herror, .inr ⟨_, rfl⟩⟩⟩
    · rw [not_exists] at hsecs
      obtain ⟨error, hparse, hpermanent⟩ := parseRetryAfter_of_not_seconds hsecs
      have herror : r.okOr message = .error error := by
        simp only [Response.okOr, hfailed, hheader, hparse, Bool.false_eq_true, if_false]
      constructor
      · rintro ⟨error', herror', hretried⟩
        obtain rfl := Except.error.inj (herror.symm.trans herror')
        rw [hpermanent] at hretried
        rcases hretried with hretried | ⟨delay, hretried⟩
        · cases hretried
        · cases hretried
      · rintro (hnone | ⟨header', secs, hsame, hread⟩)
        · cases hnone
        · obtain rfl := Option.some.inj hsame
          exact absurd hread (hsecs secs)

theorem server_error_is_retried_seconds :
    Response.Retried ⟨503, some (encode "120".toList), .error ""⟩ "failed to upload content" := by
  refine (server_error_is_retried_iff ⟨503, some (encode "120".toList), .error ""⟩
    "failed to upload content" (by decide)).mpr (.inr ⟨_, 120, rfl, "120".toList, rfl, ?_⟩)
  exact parseBelow_eq_some_iff.mp (by decide)

/-- A server that is down until a date it gives is not asked again. -/
theorem date_is_permanent :
    isServerError 503 = true ∧
      ¬Response.Retried ⟨503, some (encode "Wed, 21 Oct 2015 07:28:00 GMT".toList), .error ""⟩
        "failed to upload content" := by
  refine ⟨by decide, ?_⟩
  rintro ⟨error, herror, hretried⟩
  have hinvalid : Response.okOr ⟨503, some (encode "Wed, 21 Oct 2015 07:28:00 GMT".toList),
      .error ""⟩ "failed to upload content" =
        .error (.invalidServerResponse "Invalid Retry-After header value") := rfl
  obtain rfl := Except.error.inj (hinvalid.symm.trans herror)
  rcases hretried with hretried | ⟨delay, hretried⟩
  · cases hretried
  · cases hretried

end Glopfile.Api
