import Mathlib.Data.List.Basic
import Mathlib.Data.Nat.Find

/-!
# Retrying on a schedule

An operation is tried until it succeeds, fails with an error that is not retried, or is left
without a delay. A failure that is retried uses up the next delay of the schedule. The policy
may change this delay, and may set one where the schedule has none left.
-/

namespace Backoff

structure Policy (ε δ : Type*) where
  when : ε → Bool
  adjust : ε → Option δ → Option δ

inductive Retry (ε δ α : Type*)
  | trying (schedule : List δ)
  | returned (result : Except ε α)

variable {ε δ α : Type*}

def Policy.delay (p : Policy ε δ) (schedule : List δ) (error : ε) : Option δ :=
  if p.when error then p.adjust error schedule.head? else none

def Policy.attempt (p : Policy ε δ) : Retry ε δ α → Except ε α → Retry ε δ α
  | .returned result, _ => .returned result
  | .trying _, .ok a => .returned (.ok a)
  | .trying schedule, .error error =>
    match p.delay schedule error with
    | some _ => .trying schedule.tail
    | none => .returned (.error error)

def Policy.after (p : Policy ε δ) (schedule : List δ) (outcomes : ℕ → Except ε α) :
    ℕ → Retry ε δ α
  | 0 => .trying schedule
  | n + 1 => p.attempt (p.after schedule outcomes n) (outcomes n)

variable {p : Policy ε δ} {schedule : List δ} {failures : ℕ → ε} {n : ℕ}

theorem after_trying (h : ∀ k < n, p.delay (schedule.drop k) (failures k) ≠ none) :
    p.after (α := α) schedule (fun k => .error (failures k)) n = .trying (schedule.drop n) := by
  induction n with
  | zero => rfl
  | succ n ih =>
    obtain ⟨delay, hdelay⟩ := Option.ne_none_iff_exists'.mp (h n (Nat.lt_succ_self n))
    rw [Policy.after, ih fun k hk => h k (Nat.lt_succ_of_lt hk)]
    simp only [Policy.attempt, hdelay, List.tail_drop]

theorem after_stopped (h : p.delay (schedule.drop n) (failures n) = none)
    (hbefore : ∀ k < n, p.delay (schedule.drop k) (failures k) ≠ none) :
    p.after (α := α) schedule (fun k => .error (failures k)) (n + 1) =
      .returned (.error (failures n)) := by
  rw [Policy.after, after_trying hbefore]
  simp only [Policy.attempt, h]

/-- An operation that fails every time is given up exactly when some failure is left without
a delay. -/
theorem returns_iff :
    (∃ n error, p.after (α := α) schedule (fun k => .error (failures k)) n =
      .returned (.error error)) ↔ ∃ k, p.delay (schedule.drop k) (failures k) = none := by
  constructor
  · rintro ⟨n, error, hreturned⟩
    by_contra hnone
    have htrying := after_trying (α := α) (n := n) fun k _ hk => hnone ⟨k, hk⟩
    rw [htrying] at hreturned
    cases hreturned
  · intro hstops
    classical
    refine ⟨Nat.find hstops + 1, failures (Nat.find hstops), ?_⟩
    exact after_stopped (Nat.find_spec hstops) fun k hk => Nat.find_min hstops hk

end Backoff
