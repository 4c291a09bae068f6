import Mathlib.Tactic

/-!
# Invariants of runs

If an event keeps an invariant exactly when it is not a bad one, the invariant holds throughout a run
exactly when no event of the run is bad.
-/

namespace RunInvariants

variable {σ ε : Type*}

/-- The invariant holds at the beginning and behind every event. -/
def Throughout (step : σ → ε → σ) (Inv : σ → Prop) (events : List ε) (s : σ) : Prop :=
  ∀ before after, events = before ++ after → Inv (before.foldl step s)

/-- No event of the run is bad in the state it meets. -/
def NoneOf (step : σ → ε → σ) (Bad : σ → ε → Prop) (events : List ε) (s : σ) : Prop :=
  ∀ before event after, events = before ++ event :: after → ¬ Bad (before.foldl step s) event

variable {step : σ → ε → σ} {Inv : σ → Prop} {Bad : σ → ε → Prop} {events : List ε} {s : σ}

theorem throughout_cons {event : ε} : Throughout step Inv (event :: events) s ↔
    Inv s ∧ Throughout step Inv events (step s event) := by
  constructor
  · intro h
    refine ⟨h [] _ rfl, fun before after hevents => ?_⟩
    exact h (event :: before) after (congrArg (event :: ·) hevents)
  · rintro ⟨hs, h⟩ before after hevents
    cases before with
    | nil => exact hs
    | cons first before =>
      obtain ⟨rfl, hrest⟩ := List.cons.inj hevents
      exact h before after hrest

theorem throughout_of_noneOf (hstep : ∀ s event, Inv s → ¬ Bad s event → Inv (step s event))
    (hs : Inv s) (h : NoneOf step Bad events s) : Throughout step Inv events s := by
  intro before
  induction before using List.reverseRecOn with
  | nil => exact fun _ _ => hs
  | append_singleton before event ih =>
    intro after hevents
    have hsplit : events = before ++ event :: after := by simp [hevents]
    rw [List.foldl_append]
    exact hstep _ event (ih (event :: after) hsplit) (h before event after hsplit)

theorem throughout_iff_noneOf (hstep : ∀ s event, Inv s → (Inv (step s event) ↔ ¬ Bad s event))
    (hs : Inv s) : Throughout step Inv events s ↔ NoneOf step Bad events s := by
  constructor
  · intro h before event after hevents
    have hbefore := h before (event :: after) hevents
    have hafter := h (before ++ [event]) after (by simp [hevents])
    rw [List.foldl_append] at hafter
    exact (hstep _ event hbefore).mp hafter
  · exact throughout_of_noneOf (fun s event hinv => (hstep s event hinv).mpr) hs

theorem noneOf_cons {event : ε} : NoneOf step Bad (event :: events) s ↔
    ¬ Bad s event ∧ NoneOf step Bad events (step s event) := by
  constructor
  · intro h
    refine ⟨h [] event events rfl, fun before event' after hevents => ?_⟩
    exact h (event :: before) event' after (congrArg (event :: ·) hevents)
  · rintro ⟨hs, h⟩ before event' after hevents
    cases before with
    | nil =>
      obtain ⟨rfl, -⟩ := List.cons.inj hevents
      exact hs
    | cons first before =>
      obtain ⟨rfl, hrest⟩ := List.cons.inj hevents
      exact h before event' after hrest

/-- A property that follows from the invariant and fails behind a bad event. -/
theorem throughout_iff_noneOf_of_inv {P : σ → Prop} (hP : ∀ s, Inv s → P s)
    (hstep : ∀ s event, Inv s → ¬ Bad s event → Inv (step s event))
    (hbad : ∀ s event, Inv s → Bad s event → ¬ P (step s event)) (hs : Inv s) :
    Throughout step P events s ↔ NoneOf step Bad events s := by
  constructor
  · induction events generalizing s with
    | nil =>
      intro _ before event after hevents
      simp at hevents
    | cons event events ih =>
      intro h
      obtain ⟨-, hrest⟩ := throughout_cons.mp h
      have hevent : ¬ Bad s event := fun hb => hbad s event hs hb (hrest [] events rfl)
      exact noneOf_cons.mpr ⟨hevent, ih (hstep s event hs hevent) hrest⟩
  · intro h before after hevents
    exact hP _ (throughout_of_noneOf hstep hs h before after hevents)

end RunInvariants
