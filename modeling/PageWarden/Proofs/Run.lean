import PageWarden.Warden.Operation
/-!
# Runs — what holds throughout, and what never happens

A property holds throughout a run when it holds at the start and after
every operation. Where one step keeps it exactly unless something goes
wrong, a run has it throughout exactly when that never happens
(`throughout_iff_avoids`).
-/

namespace PageWarden

namespace Warden

variable {w : Warden} {P : Warden → Prop} {B : Warden → Operation → Prop}

/-- `P` holds at the start of the run and after each of its operations. -/
def Throughout (w : Warden) (P : Warden → Prop) (ops : List Operation) : Prop :=
  ∀ done, done <+: ops → P (w.run done)

/-- At no operation of the run is `B` the case. -/
def Avoids (w : Warden) (B : Warden → Operation → Prop) (ops : List Operation) : Prop :=
  ∀ done op, done ++ [op] <+: ops → ¬ B (w.run done) op

/-- What holds throughout holds at the start, and throughout the rest. -/
theorem throughout_cons {op : Operation} {ops : List Operation} :
    w.Throughout P (op :: ops) ↔ P w ∧ (w.perform op).2.Throughout P ops := by
  constructor
  · intro h
    refine ⟨h [] List.nil_prefix, fun done hdone => ?_⟩
    exact h (op :: done) (List.cons_prefix_cons.2 ⟨rfl, hdone⟩)
  · rintro ⟨hstart, hrest⟩ done hdone
    cases done with
    | nil => exact hstart
    | cons o done =>
      obtain ⟨rfl, htail⟩ := List.cons_prefix_cons.1 hdone
      exact hrest done htail

/-- What is avoided is avoided by the first operation, and by the rest. -/
theorem avoids_cons {op : Operation} {ops : List Operation} :
    w.Avoids B (op :: ops) ↔ ¬ B w op ∧ (w.perform op).2.Avoids B ops := by
  constructor
  · intro h
    refine ⟨h [] op (List.cons_prefix_cons.2 ⟨rfl, List.nil_prefix⟩), fun done o hdone => ?_⟩
    exact h (op :: done) o (List.cons_prefix_cons.2 ⟨rfl, hdone⟩)
  · rintro ⟨hfirst, hrest⟩ done o hdone
    cases done with
    | nil =>
      obtain ⟨rfl, -⟩ := List.cons_prefix_cons.1 hdone
      exact hfirst
    | cons o' done =>
      obtain ⟨rfl, htail⟩ := List.cons_prefix_cons.1 hdone
      exact hrest done o htail

/-- A run of no operations avoids everything. -/
theorem avoids_nil : w.Avoids B [] := by
  intro done op hdone
  exact absurd (List.append_eq_nil_iff.1 (List.prefix_nil.1 hdone)).2 (List.cons_ne_nil op [])

/-- What holds throughout holds where each operation begins. -/
theorem Throughout.before {ops done : List Operation} {op : Operation} (h : w.Throughout P ops)
    (hdone : done ++ [op] <+: ops) : P (w.run done) :=
  h done ((List.prefix_append done [op]).trans hdone)

/-- **A run has a property throughout exactly when it avoids what breaks
it**, if one step keeps the property exactly unless that is the case. -/
theorem throughout_iff_avoids {I : Warden → Prop} (hkeep : ∀ v op, I v → I (v.perform op).2)
    (hstep : ∀ v op, I v → P v → (P (v.perform op).2 ↔ ¬ B v op)) (hI : I w) (hP : P w)
    (ops : List Operation) : w.Throughout P ops ↔ w.Avoids B ops := by
  induction ops generalizing w with
  | nil =>
    refine iff_of_true (fun done hdone => ?_) avoids_nil
    rw [List.prefix_nil.1 hdone]
    exact hP
  | cons op ops ih =>
    rw [throughout_cons, avoids_cons]
    constructor
    · rintro ⟨-, hrest⟩
      have hnext : P (w.perform op).2 := hrest [] List.nil_prefix
      exact ⟨(hstep w op hI hP).1 hnext, (ih (hkeep w op hI) hnext).1 hrest⟩
    · rintro ⟨hfirst, hrest⟩
      have hnext : P (w.perform op).2 := (hstep w op hI hP).2 hfirst
      exact ⟨hP, (ih (hkeep w op hI) hnext).2 hrest⟩

/-- What every step keeps, every run keeps. -/
theorem run_keeps (hstep : ∀ v op, P v → P (v.perform op).2) (hP : P w) (ops : List Operation) :
    P (w.run ops) := by
  induction ops generalizing w with
  | nil => exact hP
  | cons op ops ih => exact ih (hstep w op hP)

/-- **What each step of the run keeps** the run has throughout. -/
theorem throughout_of_steps {ops : List Operation} (hP : P w)
    (hstep : ∀ done op, done ++ [op] <+: ops → P (w.run done) → P ((w.run done).perform op).2) :
    w.Throughout P ops := by
  induction ops generalizing w with
  | nil =>
    intro done hdone
    rw [List.prefix_nil.1 hdone]
    exact hP
  | cons op ops ih =>
    have hnext : P (w.perform op).2 :=
      hstep [] op (List.cons_prefix_cons.2 ⟨rfl, List.nil_prefix⟩) hP
    refine throughout_cons.2 ⟨hP, ih hnext fun done o hdone hv => ?_⟩
    exact hstep (op :: done) o (List.cons_prefix_cons.2 ⟨rfl, hdone⟩) hv

/-- What one step keeps unless `B` is the case, a run that avoids `B` has
throughout. -/
theorem throughout_of_avoids (hstep : ∀ v op, P v → ¬ B v op → P (v.perform op).2) (hP : P w)
    {ops : List Operation} (h : w.Avoids B ops) : w.Throughout P ops :=
  throughout_of_steps hP fun done op hdone hv => hstep _ op hv (h done op hdone)

end Warden

end PageWarden
