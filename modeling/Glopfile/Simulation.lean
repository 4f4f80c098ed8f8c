import Glopfile.EventMachine

/-!
# Simulations between event machines

A view of the states of one machine in the states of another, under which every step of the
first is an execution of the second: none, one or several of its steps. Executions follow, so
that what is known of every execution of the second machine holds of what the first one does
seen through the view. A component of a larger system is such a view of it.
-/

namespace EventMachine
variable {σ ε ο σ' ε' ο' : Type*} {m : EventMachine σ ε ο} {m' : EventMachine σ' ε' ο'}
  {guard : σ → ε → Prop} {guard' : σ' → ε' → Prop} {s t : σ} {tr tr' : Trace ε ο}

def Trace.outputs (tr : Trace ε ο) : List ο := tr.flatMap Prod.snd

@[simp] theorem Trace.outputs_nil : Trace.outputs ([] : Trace ε ο) = [] := rfl

@[simp] theorem Trace.outputs_append :
    Trace.outputs (tr ++ tr') = Trace.outputs tr ++ Trace.outputs tr' := List.flatMap_append

@[simp] theorem Trace.outputs_single {e : ε} {os : List ο} :
    Trace.outputs [(e, os)] = os := List.flatMap_singleton Prod.snd (e, os)

def Trace.events (tr : Trace ε ο) : List ε := tr.map Prod.fst

@[simp] theorem Trace.events_nil : Trace.events ([] : Trace ε ο) = [] := rfl

@[simp] theorem Trace.events_append :
    Trace.events (tr ++ tr') = Trace.events tr ++ Trace.events tr' := List.map_append

@[simp] theorem Trace.events_single {e : ε} {os : List ο} :
    Trace.events [(e, os)] = [e] := rfl

theorem Path.simulate (view : σ → σ') (shown : ε × List ο → Trace ε' ο')
    (h : m.Path guard s tr t)
    (hstep : ∀ t e u os, guard t e → m.step t e = some (u, os) →
      m'.Path guard' (view t) (shown (e, os)) (view u)) :
    m'.Path guard' (view s) (tr.flatMap shown) (view t) := by
  induction h with
  | refl => exact .refl
  | snoc _ hguard hs ih =>
    rw [List.flatMap_append, List.flatMap_singleton]
    exact ih.trans (hstep _ _ _ _ hguard hs)

theorem Path.guarded_of_restrict {guard' : σ → ε → Prop} [∀ s e, Decidable (guard s e)]
    (h : (m.restrict guard).Path guard' s tr t) : m.Path guard s tr t := by
  induction h with
  | refl => exact .refl
  | @snoc tr t u e os _ _ hstep ih =>
    simp only [restrict] at hstep
    split_ifs at hstep with hguard
    exact .snoc ih hguard hstep

end EventMachine
