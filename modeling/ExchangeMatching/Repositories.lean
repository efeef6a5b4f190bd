import ExchangeMatching.Statements

/-! Access to orders, to the intents to match them and to the events that a
transaction leaves for connected clients. -/
namespace ExchangeMatching

open Transactions

namespace RealtimeOutboxService

def appendEvents (events : List RealtimeDispatchEvent) : Transaction Unit :=
  if events.length = 0 then return () else .perform (.insertEvents events)

def appendEvent (event : RealtimeDispatchEvent) : Transaction Unit := appendEvents [event]

end RealtimeOutboxService

namespace OrderMatchingOutboxService

def appendOrder (orderId : OrderId) : Transaction Unit := .perform (.createMatchingIntent orderId)

end OrderMatchingOutboxService

namespace OrdersRepository

def createOrder (userId : UserId) (side : OrderSide) (amount price : Int) : Transaction Order :=
  .perform (.createOrder userId side .queued price amount amount)

def cancelOrder (orderId : OrderId) : Transaction Order :=
  .perform (.updateOrder orderId ⟨none, .cancelled⟩)

/-- An empty user id counts as no user id. -/
def lockAndLoadOrder (orderId : OrderId) (userId : Option UserId) : Transaction (Option Order) := do
  let userId := userId.filter (· ≠ "")
  if ← Program.perform (.lockOrder orderId userId) then .perform (.findOrder orderId userId)
  else return none

end OrdersRepository

end ExchangeMatching
