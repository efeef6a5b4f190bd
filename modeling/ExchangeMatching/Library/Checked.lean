import Mathlib.Logic.Basic
import Mathlib.Data.List.Basic

/-! Checkers: computations that may stop at a failed check, and loops that
check one item after another while they keep books. A loop succeeds when every
item passes its own check, and its books are then those that the items lead to. -/
namespace Checked

variable {Failure Value Result Item State : Type} {failure : Failure}

/-- Stop unless the condition holds. -/
def ensure (condition : Prop) [Decidable condition] (failure : Failure) : Except Failure Unit :=
  if condition then .ok () else .error failure

/-- Stop unless there is a value. -/
def require (value : Option Value) (failure : Failure) : Except Failure Value :=
  match value with
  | some value => .ok value
  | none => .error failure

theorem bind_eq_ok {computation : Except Failure Value} {next : Value → Except Failure Result}
    {result : Result} :
    (computation >>= next) = .ok result ↔
    ∃ value, computation = .ok value ∧ next value = .ok result := by
  cases computation with
  | error failure => exact ⟨nofun, nofun⟩
  | ok value =>
      refine ⟨fun h => ⟨value, rfl, h⟩, ?_⟩
      rintro ⟨_, hValue, h⟩
      cases hValue
      exact h

@[simp] theorem ok_bind (value : Value) (next : Value → Except Failure Result) :
    (Except.ok value >>= next) = next value := rfl

@[simp] theorem ensure_bind_eq_ok {condition : Prop} [Decidable condition]
    {next : Unit → Except Failure Result} {result : Result} :
    (ensure condition failure >>= next) = .ok result ↔ condition ∧ next () = .ok result := by
  unfold ensure
  split_ifs with hCondition
  · exact ⟨fun h => ⟨hCondition, h⟩, fun h => h.2⟩
  · exact ⟨nofun, fun h => absurd h.1 hCondition⟩

@[simp] theorem require_bind_eq_ok {value : Option Value} {next : Value → Except Failure Result}
    {result : Result} :
    (require value failure >>= next) = .ok result ↔
    ∃ given, value = some given ∧ next given = .ok result := by
  cases value with
  | none => exact ⟨nofun, nofun⟩
  | some value =>
      refine ⟨fun h => ⟨value, rfl, h⟩, ?_⟩
      rintro ⟨_, hValue, h⟩
      cases hValue
      exact h

@[simp] theorem pure_eq_ok {value result : Value} :
    (pure value : Except Failure Value) = .ok result ↔ result = value :=
  ⟨fun h => by cases h; rfl, fun h => by rw [h]; rfl⟩

section Loops

variable {step : State → Item → Except Failure State} {Accepts : Item → Prop}
  {next : State → Item → State} {Fits : State → Prop}

/-- A loop over a checked step succeeds when every item is accepted. `Fits` is
what the check of an item needs to know of the books. -/
theorem foldlM_eq_ok
    (hStep : ∀ state item result, Fits state →
      (step state item = .ok result ↔ Accepts item ∧ result = next state item))
    (hFits : ∀ state item, Fits state → Accepts item → Fits (next state item))
    {items : List Item} {state result : State} (hState : Fits state) :
    items.foldlM step state = .ok result ↔
      (∀ item ∈ items, Accepts item) ∧ result = items.foldl next state := by
  induction items generalizing state with
  | nil => simp
  | cons item items ih =>
      rw [List.foldlM_cons, bind_eq_ok, List.foldl_cons, List.forall_mem_cons]
      constructor
      · rintro ⟨middle, hMiddle, hRest⟩
        obtain ⟨hAccepts, rfl⟩ := (hStep state item middle hState).mp hMiddle
        obtain ⟨hItems, hResult⟩ := (ih (hFits state item hState hAccepts)).mp hRest
        exact ⟨⟨hAccepts, hItems⟩, hResult⟩
      · rintro ⟨⟨hAccepts, hItems⟩, hResult⟩
        exact ⟨_, (hStep state item _ hState).mpr ⟨hAccepts, rfl⟩,
          (ih (hFits state item hState hAccepts)).mpr ⟨hItems, hResult⟩⟩

end Loops
end Checked
