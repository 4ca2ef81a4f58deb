import Mathlib.Init

/-!
# Runs of a labelled transition relation

A run is a sequence of labelled steps from a start state. One rule proves everything that
holds along runs: a relation to an abstract state that the start satisfies and every step
keeps, with the abstract state moved by the label, relates the last state to the fold of the
labels. An invariant is the case without an abstract state.
-/

/-- The runs of `step` from `start`, with their labels in order. -/
inductive Run {σ ι : Type*} (step : σ → ι → σ → Prop) (start : σ) : List ι → σ → Prop where
  /-- No step was taken. -/
  | nil : Run step start [] start
  /-- One more step was taken. -/
  | concat {labels : List ι} {label : ι} {mid last : σ} (before : Run step start labels mid)
      (next : step mid label last) : Run step start (labels ++ [label]) last

namespace Run

variable {σ ι α : Type*} {step : σ → ι → σ → Prop} {start last : σ} {labels : List ι}

/-- A run with a last label ends with the step of that label. -/
theorem last_step {label : ι} (run : Run step start (labels ++ [label]) last) :
    ∃ mid, Run step start labels mid ∧ step mid label last := by
  generalize taken : labels ++ [label] = all at run
  cases run with
  | nil => exact absurd taken (by simp)
  | concat before next =>
    obtain ⟨rfl, same⟩ := List.append_inj' taken rfl
    obtain rfl := List.singleton_inj.mp same
    exact ⟨_, before, next⟩

/-- A relation kept by every step relates the last state to the fold of the labels. -/
theorem simulates (run : Run step start labels last) (related : σ → α → Prop) (move : α → ι → α)
    (init : α) (begins : related start init)
    (kept : ∀ s label t a, related s a → step s label t → related t (move a label)) :
    related last (labels.foldl move init) := by
  induction run with
  | nil => exact begins
  | concat before next ih =>
    rw [List.foldl_append]
    exact kept _ _ _ _ ih next

/-- A property kept by every step holds of the last state. -/
theorem invariant (run : Run step start labels last) (holds : σ → Prop) (begins : holds start)
    (kept : ∀ s label t, holds s → step s label t → holds t) : holds last :=
  run.simulates (fun s (_ : Unit) => holds s) (fun a _ => a) () begins
    (fun s label t _ held next => kept s label t held next)

/-- Two runs, one after the other. -/
theorem append {mid : σ} {more : List ι} (run : Run step start labels mid)
    (later : Run step mid more last) : Run step start (labels ++ more) last := by
  induction later with
  | nil => rwa [List.append_nil]
  | concat _ next ih =>
    rw [← List.append_assoc]
    exact ih.concat next

/-- A run of some steps is a run of any relation that contains them. -/
theorem mono {step' : σ → ι → σ → Prop} (run : Run step start labels last)
    (inside : ∀ s label t, step s label t → step' s label t) : Run step' start labels last := by
  induction run with
  | nil => exact .nil
  | concat _ next ih => exact ih.concat (inside _ _ _ next)

/-- A property that may depend on the labels taken so far. -/
theorem labelled (run : Run step start labels last) (holds : σ → List ι → Prop)
    (begins : holds start [])
    (kept : ∀ s label t taken, holds s taken → step s label t → holds t (taken ++ [label])) :
    holds last labels := by
  induction run with
  | nil => exact begins
  | concat before next ih => exact kept _ _ _ _ ih next

/-- A property that may depend on the number of steps taken. -/
theorem counted (run : Run step start labels last) (holds : σ → Nat → Prop) (begins : holds start 0)
    (kept : ∀ s label t n, holds s n → step s label t → holds t (n + 1)) :
    holds last labels.length := by
  have held := run.simulates holds (fun n _ => n + 1) 0 begins
    (fun s label t n held next => kept s label t n held next)
  simpa using held

end Run
