import ExchangeMatching.Repositories
import ExchangeMatching.Wallets

/-! Creation and cancellation of orders by their users. -/
namespace ExchangeMatching

open Transactions

namespace OrdersService

variable (newDecimal : String → Option DecimalValue)

/-- The checks that `createOrder` makes before its transaction, and the
amount and price that it stores. -/
def validateOrder (amountInput priceInput : String) : Except Failure (Int × Int) := do
  let amount ← parsePositiveDecimalInput newDecimal amountInput "amount"
  let price ← parsePositiveDecimalInput newDecimal priceInput "price"
  let _ ← assertPositiveOrderCost (columnUnits amount) (columnUnits price)
  return (columnUnits amount, columnUnits price)

/-- The transaction of `createOrder`. -/
def storeOrder (userId : UserId) (side : OrderSide) (amount price : Int) : Transaction Order := do
  match ← WalletsService.findByUserId userId with
  | none => .throw (.notFound "Wallet not found")
  | some wallet =>
      WalletsService.reserveFunds wallet side amount price
      let order ← OrdersRepository.createOrder userId side amount price
      OrderMatchingOutboxService.appendOrder order.id
      RealtimeOutboxService.appendEvent (.accountChanged .orderCreated userId order.id none)
      return order

def createOrder (userId : UserId) (side : OrderSide) (amountInput priceInput : String) :
    Transaction Order := do
  let (amount, price) ← Program.ofExcept (validateOrder newDecimal amountInput priceInput)
  storeOrder userId side amount price

def cancelOrder (userId : UserId) (orderId : OrderId) : Transaction Order := do
  match ← OrdersRepository.lockAndLoadOrder orderId (some userId) with
  | none => .throw (.notFound "Order not found")
  | some order =>
      if order.status.isActive then
        match ← WalletsService.findByUserId userId with
        | none => .throw (.notFound "Wallet not found")
        | some _ =>
            let cancelledOrder ← OrdersRepository.cancelOrder orderId
            WalletsService.releaseFunds order
            RealtimeOutboxService.appendEvents [
              .marketChanged .orderCancelled orderId none,
              .accountChanged (.market .orderCancelled) userId orderId none]
            return cancelledOrder
      else .throw (.badRequest "Order cannot be cancelled")

end OrdersService
end ExchangeMatching
