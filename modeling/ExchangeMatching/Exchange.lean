import ExchangeMatching.Fills
import ExchangeMatching.Orders

/-! The exchange as a whole: calls, each of them one transaction, and the
histories of calls run one after another. -/
namespace ExchangeMatching

open Transactions

inductive Call where
  | createOrder (userId : UserId) (side : OrderSide) (amountInput priceInput : String)
  | cancelOrder (userId : UserId) (orderId : OrderId)
  | processOrder (orderId : OrderId)
  | rejectOrderAfterFailedProcessing (orderId : OrderId)
deriving DecidableEq, Repr

/-- What a committed call returns to its caller. -/
inductive Outcome where
  | order (order : Order)
  | eventsStored (stored : Bool)
deriving DecidableEq, Repr

/-- The transaction of a call. Its maker search is cut short by `fuel`. -/
def Call.transaction (newDecimal : String → Option DecimalValue) (fuel : Nat) :
    Call → Transaction Outcome
  | .createOrder userId side amountInput priceInput => do
      return .order (← OrdersService.createOrder newDecimal userId side amountInput priceInput)
  | .cancelOrder userId orderId => do
      return .order (← OrdersService.cancelOrder userId orderId)
  | .processOrder orderId => do
      return .eventsStored (← MatchingService.processOrder fuel orderId)
  | .rejectOrderAfterFailedProcessing orderId => do
      return .eventsStored (← MatchingService.rejectOrderAfterFailedProcessing orderId)

/-- A call and the values generated for it. -/
structure Invocation where
  call : Call
  generated : Generated
deriving DecidableEq, Repr

/-- Run a call alone. The maker search visits every order at most once, so it
never needs more turns than there are orders. -/
def Database.call (newDecimal : String → Option DecimalValue) (invocation : Invocation)
    (db : Database) : Except Failure (Outcome × Database) :=
  engine.run invocation.generated
    (invocation.call.transaction newDecimal (db.orders.rows.length + 1)) db

structure Committed extends Invocation where
  outcome : Outcome
deriving DecidableEq, Repr

/-- The committed calls so far and the database they left. -/
structure History where
  log : List Committed
  db : Database

namespace History

variable (newDecimal : String → Option DecimalValue)

def start (db : Database) : History := ⟨[], db⟩

/-- Run one more call. A failed call rolls back. -/
def call (history : History) (invocation : Invocation) : History :=
  match history.db.call newDecimal invocation with
  | .ok (outcome, db) => ⟨history.log ++ [⟨invocation, outcome⟩], db⟩
  | .error _ => history

def calls (history : History) (invocations : List Invocation) : History :=
  invocations.foldl (call newDecimal) history

variable {newDecimal} {history : History}

@[simp] theorem calls_nil : history.calls newDecimal [] = history := rfl

@[simp] theorem calls_cons {invocation : Invocation} {invocations : List Invocation} :
    history.calls newDecimal (invocation :: invocations) =
      (history.call newDecimal invocation).calls newDecimal invocations := rfl

theorem calls_append {first second : List Invocation} :
    history.calls newDecimal (first ++ second) =
      (history.calls newDecimal first).calls newDecimal second := List.foldl_append ..

/-- What every committed call preserves holds after all calls. -/
theorem calls_induction {P : History → Prop} (hStart : P history)
    (hCall : ∀ (history : History) (invocation : Invocation) (outcome : Outcome) (db : Database),
      P history → history.db.call newDecimal invocation = .ok (outcome, db) →
        P ⟨history.log ++ [⟨invocation, outcome⟩], db⟩)
    (invocations : List Invocation) : P (history.calls newDecimal invocations) := by
  induction invocations generalizing history with
  | nil => exact hStart
  | cons invocation invocations ih =>
      rw [calls_cons]
      apply ih
      unfold call
      split
      · next hOk => exact hCall history invocation _ _ hStart hOk
      · exact hStart

end History
end ExchangeMatching
