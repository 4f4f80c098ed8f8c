import Mathlib.Algebra.Ring.Nat
import Mathlib.Data.List.Induction

/-!
# Deterministic event machines

An event machine takes events one at a time, refuses those that are not enabled in
its current state, and emits a finite list of outputs with each step. A trace pairs
every event with what its step emitted. `Path` is the execution relation; its guard
restricts which events may be taken in which states, so that unrestricted runs,
conditional runs and runs of a constrained environment are one definition.

Invariants are proved on states, or on the trace together with the state it ends in.
`exec` evaluates a list of events, and produces unrestricted paths.
-/

structure EventMachine (σ ε ο : Type*) where
  init : σ
  step : σ → ε → Option (σ × List ο)

namespace EventMachine
variable {σ ε ο : Type*} (m : EventMachine σ ε ο)

abbrev Trace (ε ο : Type*) := List (ε × List ο)

/-- Executions from a state, every step of which meets `guard` in the state taking it. -/
inductive Path (guard : σ → ε → Prop) (s : σ) : Trace ε ο → σ → Prop where
  | refl : Path guard s [] s
  | snoc {tr : Trace ε ο} {t u : σ} {e : ε} {os : List ο} :
      Path guard s tr t → guard t e → m.step t e = some (u, os) →
      Path guard s (tr ++ [(e, os)]) u

def Run (tr : Trace ε ο) (s : σ) : Prop := m.Path (fun _ _ => True) m.init tr s

def exec (s : σ) : List ε → Option (Trace ε ο × σ)
  | [] => some ([], s)
  | e :: es =>
    match m.step s e with
    | none => none
    | some (t, os) => (exec t es).map fun r => ((e, os) :: r.1, r.2)

variable {m}
variable {guard guard' : σ → ε → Prop} {s t u : σ} {tr tr' : Trace ε ο} {e : ε} {os : List ο}

def Trace.Each (φ : Trace ε ο → ε → List ο → Prop) (tr : Trace ε ο) : Prop :=
  ∀ pre e os suf, tr = pre ++ (e, os) :: suf → φ pre e os

theorem Trace.each_nil {φ : Trace ε ο → ε → List ο → Prop} : Trace.Each φ [] := by
  intro pre e os suf h
  simp at h

theorem Trace.each_snoc {φ : Trace ε ο → ε → List ο → Prop} :
    Trace.Each φ (tr ++ [(e, os)]) ↔ Trace.Each φ tr ∧ φ tr e os := by
  constructor
  · intro h
    refine ⟨fun pre e' os' suf htr => h pre e' os' (suf ++ [(e, os)]) ?_, h tr e os [] rfl⟩
    rw [htr, List.append_assoc, List.cons_append]
  · rintro ⟨h, hlast⟩ pre e' os' suf htr
    rcases List.eq_nil_or_concat suf with rfl | ⟨suf, x, rfl⟩
    · obtain ⟨rfl, hpair⟩ := List.append_inj' htr rfl
      obtain ⟨rfl, rfl⟩ := Prod.mk.inj (List.cons.inj hpair).1
      exact hlast
    · rw [List.concat_eq_append, ← List.cons_append, ← List.append_assoc] at htr
      exact h pre e' os' suf (List.append_inj' htr rfl).1

theorem Trace.each_cons {φ : Trace ε ο → ε → List ο → Prop} :
    Trace.Each φ ((e, os) :: tr) ↔ φ [] e os ∧ Trace.Each (fun pre => φ ((e, os) :: pre)) tr := by
  constructor
  · intro h
    exact ⟨h [] e os tr rfl, fun pre e' os' suf htr => h ((e, os) :: pre) e' os' suf (by simp [htr])⟩
  · rintro ⟨hfirst, h⟩ pre e' os' suf htr
    rcases List.cons_eq_append_iff.mp htr with ⟨rfl, hpair⟩ | ⟨pre, rfl, hrest⟩
    · obtain ⟨rfl, rfl⟩ := Prod.mk.inj (List.cons.inj hpair).1
      exact hfirst
    · exact h pre e' os' suf hrest

theorem Path.trans (h : m.Path guard s tr t) (h' : m.Path guard t tr' u) :
    m.Path guard s (tr ++ tr') u := by
  induction h' with
  | refl => simpa using h
  | snoc _ hguard hstep ih =>
    rw [← List.append_assoc]
    exact .snoc ih hguard hstep

theorem Path.single (hguard : guard s e) (hstep : m.step s e = some (t, os)) :
    m.Path guard s [(e, os)] t := .snoc .refl hguard hstep

theorem Path.cons (hguard : guard s e) (hstep : m.step s e = some (t, os))
    (h : m.Path guard t tr u) : m.Path guard s ((e, os) :: tr) u :=
  (Path.single hguard hstep).trans h

theorem Path.last (h : m.Path guard s (tr ++ [(e, os)]) u) :
    ∃ t, m.Path guard s tr t ∧ guard t e ∧ m.step t e = some (u, os) := by
  generalize hx : tr ++ [(e, os)] = x at h
  cases h with
  | refl => simp at hx
  | snoc hpath hguard hstep =>
    obtain ⟨rfl, hpair⟩ := List.append_inj' hx rfl
    obtain ⟨rfl, rfl⟩ := Prod.mk.inj (List.cons.inj hpair).1
    exact ⟨_, hpath, hguard, hstep⟩

theorem Path.split (h : m.Path guard s (tr ++ tr') u) :
    ∃ t, m.Path guard s tr t ∧ m.Path guard t tr' u := by
  induction tr' using List.reverseRecOn generalizing u with
  | nil => exact ⟨u, by simpa using h, .refl⟩
  | append_singleton tr' x ih =>
    rw [← List.append_assoc] at h
    obtain ⟨v, hv, hguard, hstep⟩ := h.last
    obtain ⟨t, ht, ht'⟩ := ih hv
    exact ⟨t, ht, .snoc ht' hguard hstep⟩

theorem Path.deterministic (h : m.Path guard s tr t) (h' : m.Path guard' s tr u) : t = u := by
  induction h generalizing u with
  | refl =>
    generalize hx : ([] : Trace ε ο) = x at h'
    cases h' with
    | refl => rfl
    | snoc => simp at hx
  | snoc _ _ hstep ih =>
    obtain ⟨v, hv, _, hstep'⟩ := h'.last
    rw [ih hv] at hstep
    exact congrArg Prod.fst (Option.some.inj (hstep.symm.trans hstep'))

theorem Path.snoc_iff (hpath : m.Path guard' s tr t) (hstep : m.step t e = some (u, os)) :
    m.Path guard s (tr ++ [(e, os)]) u ↔ m.Path guard s tr t ∧ guard t e := by
  constructor
  · intro hguarded
    obtain ⟨v, hv, hguard, _⟩ := hguarded.last
    rw [hpath.deterministic hv]
    exact ⟨hv, hguard⟩
  · rintro ⟨hguarded, hguard⟩
    exact .snoc hguarded hguard hstep

theorem Path.uncons (h : m.Path guard s ((e, os) :: tr) u) :
    ∃ t, m.step s e = some (t, os) ∧ m.Path guard t tr u := by
  rw [← List.singleton_append] at h
  obtain ⟨t, hfirst, hrest⟩ := h.split
  rw [← List.nil_append [(e, os)]] at hfirst
  obtain ⟨v, hv, -, hstep⟩ := hfirst.last
  obtain rfl := hv.deterministic (.refl : m.Path guard s [] s)
  exact ⟨t, hstep, hrest⟩

theorem Path.eq_nil_of_stuck (h : m.Path guard s tr t) (hstuck : ∀ e, m.step s e = none) :
    tr = [] := by
  cases tr with
  | nil => rfl
  | cons x tr =>
    obtain ⟨u, hstep, -⟩ := h.uncons
    rw [hstuck] at hstep
    cases hstep

theorem Path.invariant {P : σ → Prop} (h : m.Path guard s tr t) (hs : P s)
    (hstep : ∀ t e u os, P t → guard t e → m.step t e = some (u, os) → P u) : P t := by
  induction h with
  | refl => exact hs
  | snoc _ hguard hs' ih => exact hstep _ _ _ _ ih hguard hs'

/-- Exchanges the guard of an execution, with the help of an invariant. -/
theorem Path.imp {P : σ → Prop} (h : m.Path guard s tr t) (hs : P s)
    (hstep : ∀ t e u os, P t → guard t e → m.step t e = some (u, os) → guard' t e ∧ P u) :
    m.Path guard' s tr t := by
  have hboth : m.Path guard' s tr t ∧ P t := by
    induction h with
    | refl => exact ⟨.refl, hs⟩
    | snoc _ hguard hs' ih =>
      obtain ⟨hguard', hu⟩ := hstep _ _ _ _ ih.2 hguard hs'
      exact ⟨.snoc ih.1 hguard' hs', hu⟩
  exact hboth.1

theorem Path.history {P : Trace ε ο → σ → Prop} (h : m.Path guard s tr t) (hs : P [] s)
    (hstep : ∀ tr t e u os, m.Path guard s tr t → P tr t → guard t e →
      m.step t e = some (u, os) → P (tr ++ [(e, os)]) u) : P tr t := by
  induction h with
  | refl => exact hs
  | snoc hpath hguard hs' ih => exact hstep _ _ _ _ _ hpath ih hguard hs'

/-- When a guard says of every single step whether it keeps a property, an execution keeps the
property throughout exactly when each of its steps meets the guard. What the steps that keep the
property carry along may be used of the states they start in. -/
theorem Path.guarded_iff_of {P Q : σ → Prop} (h : m.Path (fun _ _ => True) s tr u) (hs : P s)
    (hs' : Q s)
    (hiff : ∀ tr t e v os, m.Path (fun _ _ => True) s tr t → P t → Q t →
      m.step t e = some (v, os) → (P v ↔ guard t e) ∧ (P v → Q v)) :
    (∀ pre suf v, tr = pre ++ suf → m.Path (fun _ _ => True) s pre v → P v) ↔
      m.Path guard s tr u := by
  constructor
  · intro hall
    have hboth : m.Path guard s tr u ∧ Q u := by
      induction h with
      | refl => exact ⟨.refl, hs'⟩
      | @snoc tr t u e os hpath _ hstep ih =>
        have ht : P t := hall tr _ t rfl hpath
        have hu : P u := hall (tr ++ [(e, os)]) [] u (by simp) (.snoc hpath trivial hstep)
        obtain ⟨hguarded, hq⟩ := ih fun pre suf v hpre hv =>
          hall pre (suf ++ [(e, os)]) v (by rw [hpre, List.append_assoc]) hv
        obtain ⟨hkeeps, hcarries⟩ := hiff _ _ _ _ _ hpath ht hq hstep
        exact ⟨.snoc hguarded (hkeeps.mp hu) hstep, hcarries hu⟩
    exact hboth.1
  · intro hguarded pre suf v hpre hv
    subst hpre
    obtain ⟨w, hw, _⟩ := hguarded.split
    obtain rfl := hv.deterministic hw
    refine (hw.history
      (P := fun pre v => m.Path (fun _ _ => True) s pre v ∧ P v ∧ Q v) ⟨.refl, hs, hs'⟩ ?_).2.1
    intro tr t e u os _ ih hguard hstep
    obtain ⟨hkeeps, hcarries⟩ := hiff _ _ _ _ _ ih.1 ih.2.1 ih.2.2 hstep
    exact ⟨.snoc ih.1 trivial hstep, hkeeps.mpr hguard, hcarries (hkeeps.mpr hguard)⟩

theorem Path.guarded_iff {P : σ → Prop} (h : m.Path (fun _ _ => True) s tr u) (hs : P s)
    (hiff : ∀ tr t e v os, m.Path (fun _ _ => True) s tr t → P t →
      m.step t e = some (v, os) → (P v ↔ guard t e)) :
    (∀ pre suf v, tr = pre ++ suf → m.Path (fun _ _ => True) s pre v → P v) ↔
      m.Path guard s tr u :=
  h.guarded_iff_of (Q := fun _ => True) hs trivial fun _ _ _ _ _ hpath ht _ hstep =>
    ⟨hiff _ _ _ _ _ hpath ht hstep, fun _ => trivial⟩

/-- When one more step keeps a property of executions exactly if it meets a guard, the
executions with the property are the guarded ones. -/
theorem Path.guarded_iff_history {P : Trace ε ο → σ → Prop}
    (h : m.Path (fun _ _ => True) s tr u) (hs : P [] s)
    (hiff : ∀ tr t e v os, m.Path (fun _ _ => True) s tr t → m.step t e = some (v, os) →
      (P (tr ++ [(e, os)]) v ↔ P tr t ∧ guard t e)) :
    P tr u ↔ m.Path guard s tr u := by
  induction h with
  | refl => exact ⟨fun _ => .refl, fun _ => hs⟩
  | @snoc tr t u e os hpath _ hstep ih =>
    rw [hiff tr t e u os hpath hstep, ih, hpath.snoc_iff hstep]

section Ghost
variable {γ : Type*} {update : σ → γ → ε → List ο → γ} {g g' : γ}

/-- A machine with a value beside its state that every step updates and none reads. -/
def withGhost (m : EventMachine σ ε ο) (g : γ) (update : σ → γ → ε → List ο → γ) :
    EventMachine (σ × γ) ε ο where
  init := (m.init, g)
  step p e := (m.step p.1 e).map fun r => ((r.1, update p.1 p.2 e r.2), r.2)

theorem withGhost_step {p : σ × γ} :
    (m.withGhost g update).step p e = some ((u, g'), os) ↔
      m.step p.1 e = some (u, os) ∧ g' = update p.1 p.2 e os := by
  simp only [withGhost, Option.map_eq_some_iff, Prod.mk.injEq, Prod.exists]
  constructor
  · rintro ⟨v, os', hstep, ⟨rfl, rfl⟩, rfl⟩
    exact ⟨hstep, rfl⟩
  · rintro ⟨hstep, rfl⟩
    exact ⟨u, os, hstep, ⟨rfl, rfl⟩, rfl⟩

theorem Path.forget {p q : σ × γ} {guard : σ × γ → ε → Prop}
    (h : (m.withGhost g update).Path guard p tr q) :
    m.Path (fun _ _ => True) p.1 tr q.1 := by
  induction h with
  | refl => exact .refl
  | snoc _ _ hstep ih => exact .snoc ih trivial (withGhost_step.mp hstep).1

theorem Path.withGhost (h : m.Path guard s tr t) (g₀ g : γ) (update : σ → γ → ε → List ο → γ) :
    ∃ g', (m.withGhost g₀ update).Path (fun _ _ => True) (s, g) tr (t, g') := by
  induction h with
  | refl => exact ⟨g, .refl⟩
  | snoc _ _ hstep ih =>
    obtain ⟨g', hpath⟩ := ih
    exact ⟨_, .snoc hpath trivial (withGhost_step.mpr ⟨hstep, rfl⟩)⟩

end Ghost

section Restrict
variable [∀ s e, Decidable (guard s e)]

/-- A machine that refuses the events that do not meet a guard. -/
def restrict (m : EventMachine σ ε ο) (guard : σ → ε → Prop) [∀ s e, Decidable (guard s e)] :
    EventMachine σ ε ο where
  init := m.init
  step s e := if guard s e then m.step s e else none

theorem Path.of_restrict (h : (m.restrict guard).Path guard' s tr t) :
    m.Path guard' s tr t := by
  induction h with
  | refl => exact .refl
  | snoc _ hguard hstep ih =>
    simp only [restrict] at hstep
    split_ifs at hstep
    exact .snoc ih hguard hstep

end Restrict

theorem exec_path_of {P : ε → Prop} (es : List ε) (h : m.exec s es = some (tr, t))
    (hP : ∀ e ∈ es, P e) : m.Path (fun _ e => P e) s tr t := by
  induction es generalizing s tr with
  | nil =>
    obtain ⟨rfl, rfl⟩ := Prod.mk.inj (Option.some.inj h)
    exact .refl
  | cons e es ih =>
    simp only [exec] at h
    cases hs : m.step s e with
    | none => simp [hs] at h
    | some p =>
      obtain ⟨v, os⟩ := p
      simp only [hs, Option.map_eq_some_iff] at h
      obtain ⟨⟨tr', t'⟩, hr, hpair⟩ := h
      obtain ⟨rfl, rfl⟩ := Prod.mk.inj hpair
      have hfirst : m.Path (fun _ e => P e) s [(e, os)] v := .single (hP e List.mem_cons_self) hs
      exact hfirst.trans (ih hr fun e he => hP e (List.mem_cons_of_mem _ he))

theorem exec_path (es : List ε) (h : m.exec s es = some (tr, t)) :
    m.Path (fun _ _ => True) s tr t := exec_path_of es h fun _ _ => trivial

theorem exec_run (es : List ε) (h : m.exec m.init es = some (tr, t)) : m.Run tr t :=
  exec_path es h

end EventMachine
