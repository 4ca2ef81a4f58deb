import Mathlib.Init

/-!
# Sequencing with state and errors

A sequence returns exactly when its first part returns and the second returns from there. A
call also leaves a state when it fails; `Keeps` is an invariant of both ways out.
-/

/-- What a returning sequence went through, where there is no state. -/
theorem Except.bind_eq_ok {ε α β : Type} {x : Except ε α} {f : α → Except ε β} {b : β} :
    (x >>= f) = .ok b ↔ ∃ a, x = .ok a ∧ f a = .ok b := by
  cases x with
  | ok a =>
    constructor
    · exact fun out => ⟨a, rfl, out⟩
    · rintro ⟨a', same, out⟩
      obtain rfl := Except.ok.inj same
      exact out
  | error e =>
    constructor
    · exact fun out => nomatch out
    · rintro ⟨_, same, _⟩
      cases same

namespace EStateM

variable {ε σ α β : Type}

/-- What a returning sequence went through. -/
theorem run_bind_ok {x : EStateM ε σ α} {f : α → EStateM ε σ β} {s t : σ} {b : β} :
    (x >>= f).run s = .ok b t ↔ ∃ a u, x.run s = .ok a u ∧ (f a).run u = .ok b t := by
  rw [EStateM.run_bind]
  cases x.run s with
  | ok a u =>
    constructor
    · exact fun out => ⟨a, u, rfl, out⟩
    · rintro ⟨a', u', same, out⟩
      obtain ⟨rfl, rfl⟩ := EStateM.Result.ok.inj same
      exact out
  | error e u =>
    constructor
    · exact fun out => nomatch out
    · rintro ⟨_, _, same, _⟩
      cases same

/-- A value is returned without a step. -/
theorem run_pure_ok {s t : σ} {a b : α} :
    (pure a : EStateM ε σ α).run s = .ok b t ↔ b = a ∧ t = s := by
  rw [EStateM.run_pure, EStateM.Result.ok.injEq]
  exact and_congr eq_comm eq_comm

/-- The state after a call, whether it returned or not. -/
def after (x : EStateM ε σ α) (s : σ) : σ :=
  match x.run s with
  | .ok _ t => t
  | .error _ t => t

/-- A call keeps an invariant, whether it returns or not. -/
def Keeps (inv : σ → Prop) (x : EStateM ε σ α) : Prop := ∀ s, inv s → inv (x.after s)

variable {inv : σ → Prop}

/-- Returning a value keeps every invariant. -/
theorem keeps_pure (a : α) : Keeps inv (pure a : EStateM ε σ α) := fun _ held => held

/-- Failing keeps every invariant. -/
theorem keeps_throw (e : ε) : Keeps inv (throw e : EStateM ε σ α) := fun _ held => held

/-- A change of the state keeps what it keeps. -/
theorem keeps_modify {f : σ → σ} (step : ∀ s, inv s → inv (f s)) :
    Keeps inv (modify f : EStateM ε σ PUnit) := fun s held => step s held

/-- A sequence reaches what its first part reaches and its second part keeps. -/
theorem after_bind {x : EStateM ε σ α} {f : α → EStateM ε σ β} {s : σ} (first : inv (x.after s))
    (next : ∀ a, Keeps inv (f a)) : inv ((x >>= f).after s) := by
  unfold after at first ⊢
  rw [EStateM.run_bind]
  cases out : x.run s with
  | ok a t =>
    rw [out] at first
    exact next a t first
  | error e t =>
    rw [out] at first
    exact first

/-- A sequence keeps what its parts keep. -/
theorem Keeps.bind {x : EStateM ε σ α} {f : α → EStateM ε σ β} (first : Keeps inv x)
    (next : ∀ a, Keeps inv (f a)) : Keeps inv (x >>= f) :=
  fun s held => after_bind (first s held) next

end EStateM
