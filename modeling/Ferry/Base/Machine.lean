/-!
# Machines

A state and a step for every event.  A run is the fold of the step over the events; a condition on the
steps of a run is read in the states in which they happen.
-/

namespace Ferry

namespace Machine

variable {σ ε : Type} (step : σ → ε → σ)

/-- The state after the events. -/
def run (s : σ) (events : List ε) : σ := events.foldl step s

/-- Every step of a run meets a condition. -/
def Always (good : σ → ε → Prop) (s : σ) : List ε → Prop
  | [] => True
  | event :: events => good s event ∧ Always good (step s event) events

instance decidableAlways (good : σ → ε → Prop) [∀ s event, Decidable (good s event)] (s : σ) :
    ∀ events, Decidable (Always step good s events)
  | [] => isTrue trivial
  | event :: events =>
    have := decidableAlways good (step s event) events
    inferInstanceAs (Decidable (_ ∧ _))

variable {step}

@[simp] theorem run_nil (s : σ) : run step s [] = s := rfl

@[simp] theorem run_cons (s : σ) (event : ε) (events : List ε) :
    run step s (event :: events) = run step (step s event) events := rfl

/-- What every good step preserves holds after every good run. -/
theorem run_induction {good : σ → ε → Prop} {P : σ → Prop}
    (hstep : ∀ s event, P s → good s event → P (step s event)) {s : σ} {events : List ε}
    (h : P s) (hgood : Always step good s events) : P (run step s events) := by
  induction events generalizing s with
  | nil => exact h
  | cons event events ih => exact ih (hstep s event h hgood.1) hgood.2

/-- An invariant under which good steps have a property gives it to every step of a good run. -/
theorem always_of_invariant {good good' : σ → ε → Prop} {P : σ → Prop}
    (hstep : ∀ s event, P s → good s event → good' s event ∧ P (step s event)) {s : σ} {events : List ε}
    (h : P s) (hgood : Always step good s events) : Always step good' s events := by
  induction events generalizing s with
  | nil => trivial
  | cons event events ih =>
    obtain ⟨hgood', hnext⟩ := hstep s event h hgood.1
    exact ⟨hgood', ih hnext hgood.2⟩

theorem always_congr {good good' : σ → ε → Prop} (h : ∀ s event, good s event ↔ good' s event) (s : σ)
    (events : List ε) : Always step good s events ↔ Always step good' s events := by
  induction events generalizing s with
  | nil => exact Iff.rfl
  | cons event events ih => exact and_congr (h s event) (ih (step s event))

end Machine

end Ferry
