import Mathlib.Data.List.Basic
import Mathlib.Order.Basic

/-!
# Lists of consecutive segments

`segment start a stop` says that `a` may stand at `start`, and that it ends at `stop`. Items
are consecutive from `start` to `stop` when each stands where the one before it ends.
-/

variable {σ α β : Type*}

inductive Segments (segment : σ → α → σ → Prop) : σ → List α → σ → Prop
  | nil {start : σ} : Segments segment start [] start
  | cons {start mid stop : σ} {a : α} {rest : List α} :
      segment start a mid → Segments segment mid rest stop →
      Segments segment start (a :: rest) stop

namespace Segments
variable {segment : σ → α → σ → Prop} {start mid stop : σ} {a : α} {xs ys : List α}

theorem single (h : segment start a stop) : Segments segment start [a] stop := .cons h .nil

theorem append (h : Segments segment start xs mid) (h' : Segments segment mid ys stop) :
    Segments segment start (xs ++ ys) stop := by
  induction h with
  | nil => exact h'
  | cons hseg _ ih => exact .cons hseg (ih h')

theorem eq_of_nil (h : Segments segment start [] stop) : start = stop := by
  cases h
  rfl

theorem uncons (h : Segments segment start (a :: xs) stop) :
    ∃ mid, segment start a mid ∧ Segments segment mid xs stop := by
  cases h with
  | cons hseg hrest => exact ⟨_, hseg, hrest⟩

theorem le [Preorder σ] (hle : ∀ start a stop, segment start a stop → start ≤ stop)
    (h : Segments segment start xs stop) : start ≤ stop := by
  induction h with
  | nil => exact le_refl _
  | cons hseg _ ih => exact le_trans (hle _ _ _ hseg) ih

theorem filterMap {f : α → Option β} {segment' : σ → β → σ → Prop}
    (hkeep : ∀ start a b stop, segment start a stop → f a = some b → segment' start b stop)
    (hdrop : ∀ start a stop, segment start a stop → f a = none → start = stop)
    (h : Segments segment start xs stop) : Segments segment' start (xs.filterMap f) stop := by
  induction h with
  | nil => exact .nil
  | @cons start mid stop a rest hseg _ ih =>
    cases hf : f a with
    | none =>
      obtain rfl := hdrop _ _ _ hseg hf
      rwa [List.filterMap_cons_none hf]
    | some b =>
      rw [List.filterMap_cons_some hf]
      exact .cons (hkeep _ _ _ _ hseg hf) ih

end Segments
