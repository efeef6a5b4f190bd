import Mathlib.Tactic.TypeStar

/-! Refinement in lockstep. Two deterministic machines take the same inputs; the
abstraction of the one is the state of the other, before and after every input
that may come. -/
namespace Lockstep

variable {State Abstract Input : Type*}

/-- Each input may come in the state that the earlier inputs have led to. -/
def Admissible (step : State → Input → State) (may : State → Input → Prop) : State →
    List Input → Prop
  | _, [] => True
  | state, input :: inputs => may state input ∧ Admissible step may (step state input) inputs

/-- The abstraction commutes with the steps, as long as an invariant holds. -/
structure Refines (step : State → Input → State) (ideal : Abstract → Input → Abstract)
    (may : State → Input → Prop) (abstraction : State → Abstract)
    (invariant : State → Prop) : Prop where
  keeps : ∀ state input, invariant state → invariant (step state input)
  commutes : ∀ state input, invariant state → may state input →
    abstraction (step state input) = ideal (abstraction state) input

variable {step : State → Input → State} {ideal : Abstract → Input → Abstract}
  {may : State → Input → Prop} {abstraction : State → Abstract} {invariant : State → Prop}

/-- The two machines run in lockstep. -/
theorem Refines.run (h : Refines step ideal may abstraction invariant) {state : State}
    (hInvariant : invariant state) {inputs : List Input}
    (hInputs : Admissible step may state inputs) :
    abstraction (inputs.foldl step state) = inputs.foldl ideal (abstraction state) ∧
      invariant (inputs.foldl step state) := by
  induction inputs generalizing state with
  | nil => exact ⟨rfl, hInvariant⟩
  | cons input inputs ih =>
      obtain ⟨hMay, hRest⟩ := hInputs
      rw [List.foldl_cons, List.foldl_cons, ← h.commutes state input hInvariant hMay]
      exact ih (h.keeps state input hInvariant) hRest

end Lockstep
