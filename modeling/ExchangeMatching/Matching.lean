import ExchangeMatching.OrderBook
import ExchangeMatching.Repositories
import ExchangeMatching.Settlement

/-! Matching of one queued order, and its rejection when matching keeps
failing. Both run inside one transaction under the market lock. -/
namespace ExchangeMatching

open Transactions TradeSettlement

namespace MatchingService

/-- The local variables of the settlement loop. -/
structure Progress where
  takerRemaining : Int
  matchedAmount : Int
  affectedUserIds : List UserId
  tradeIds : List TradeId
deriving DecidableEq, Repr

/-- `Set.prototype.add`, which keeps the order of insertion. -/
def addUser (userIds : List UserId) (userId : UserId) : List UserId :=
  if userId ∈ userIds then userIds else userIds ++ [userId]

def lockMarket : Transaction Unit := .perform .lockMarket

/-- Record a settled trade and what it leaves of the maker. -/
def recordTrade (taker maker : Order) (tradeAmount : Int) (progress : Progress) :
    Transaction Progress := do
  let tradePrice := maker.price
  let feeDetails ← Program.ofExcept (buildFeeDetails taker.side tradeAmount tradePrice)
  let nextMakerRemaining ← Program.ofExcept (subtractScaled maker.remainingAmount tradeAmount)
  let trade ← Program.perform (.createTrade {
    makerOrderId := maker.id
    takerOrderId := taker.id
    buyOrderId := if taker.side = .buy then taker.id else maker.id
    sellOrderId := if taker.side = .sell then taker.id else maker.id
    takerSide := taker.side
    makerFeeRate := feeDetails.makerFeeRate
    makerFeeAmount := feeDetails.makerFeeAmount
    makerFeeAsset := feeDetails.makerFeeAsset
    takerFeeRate := feeDetails.takerFeeRate
    takerFeeAmount := feeDetails.takerFeeAmount
    takerFeeAsset := feeDetails.takerFeeAsset
    price := tradePrice
    amount := tradeAmount })
  let _ ← Program.perform (.updateOrder maker.id
    ⟨some nextMakerRemaining, if nextMakerRemaining = 0 then .filled else .partiallyFilled⟩)
  let takerRemaining ← Program.ofExcept (subtractScaled progress.takerRemaining tradeAmount)
  let matchedAmount ← Program.ofExcept (addScaled progress.matchedAmount tradeAmount)
  return {
    takerRemaining := takerRemaining
    matchedAmount := matchedAmount
    affectedUserIds := addUser progress.affectedUserIds maker.userId
    tradeIds := progress.tradeIds ++ [trade.id] }

/-- The body of the settlement loop for a fragment of positive cost. -/
def executeTrade (taker maker : Order) (tradeAmount : Int) (progress : Progress) :
    Transaction Progress := do
  let lockedWallets ← lockAndLoadWallets [taker.userId, maker.userId]
  match lockedWallets.find? (·.userId = taker.userId),
      lockedWallets.find? (·.userId = maker.userId) with
  | some takerWallet, some makerWallet =>
      applyTradeBalances { taker with remainingAmount := progress.takerRemaining } maker takerWallet
        makerWallet tradeAmount maker.price
      recordTrade taker maker tradeAmount progress
  | _, _ => .throw (.notFound "Wallet not found for matched order")

/-- The settlement loop over the selected makers. -/
def settleMakers (taker : Order) : List Order → Progress → Transaction Progress
  | [], progress => return progress
  | maker :: makers, progress =>
      if progress.takerRemaining ≤ 0 then return progress
      else if maker.remainingAmount ≤ 0 then settleMakers taker makers progress
      else do
        let tradeAmount :=
          if progress.takerRemaining < maker.remainingAmount then progress.takerRemaining
          else maker.remainingAmount
        -- Leave fragments worth less than one USD unit on the book.
        if (← Program.ofExcept (multiplyScaled tradeAmount maker.price)) = 0 then
          settleMakers taker makers progress
        else
          let progress ← executeTrade taker maker tradeAmount progress
          settleMakers taker makers progress

/-- The events of a taker that found no maker. -/
def openedEvents (taker : Order) : List RealtimeDispatchEvent :=
  [.marketChanged .orderOpened taker.id none,
    .accountChanged (.market .orderOpened) taker.userId taker.id none]

/-- The events of a taker that went through the settlement loop. -/
def settledEvents (taker : Order) (progress : Progress) : List RealtimeDispatchEvent :=
  let reason := if progress.matchedAmount = 0 then .orderOpened else .tradeExecuted
  .marketChanged reason taker.id (some progress.tradeIds) ::
    progress.affectedUserIds.map fun userId =>
      .accountChanged (.market reason) userId taker.id (some progress.tradeIds)

def takerStatus (progress : Progress) : OrderStatus :=
  if progress.matchedAmount = 0 then .opened
  else if progress.takerRemaining = 0 then .filled
  else .partiallyFilled

/-- The part of `processOrder` after the maker search. -/
def settleTaker (taker : Order) (makers : List Order) : Transaction Bool := do
  if makers.length = 0 then
    let _ ← Program.perform (.updateOrder taker.id ⟨none, .opened⟩)
    RealtimeOutboxService.appendEvents (openedEvents taker)
    return true
  else
    let progress ← settleMakers taker makers {
      takerRemaining := taker.remainingAmount
      matchedAmount := 0
      affectedUserIds := [taker.userId]
      tradeIds := [] }
    let _ ← Program.perform
      (.updateOrder taker.id ⟨some progress.takerRemaining, takerStatus progress⟩)
    RealtimeOutboxService.appendEvents (settledEvents taker progress)
    return true

/-- Whether events were stored. The maker search is cut short by `fuel`. -/
def processOrder (fuel : Nat) (orderId : OrderId) : Transaction Bool := do
  lockMarket
  match ← OrdersRepository.lockAndLoadOrder orderId none with
  | none => .throw (.notFound ("Order " ++ orderId ++ " not found"))
  | some taker =>
      if taker.status ≠ .queued then return false
      else
        let makers ← MatchingOrderBook.findAndLockEligibleMakers fuel taker
        settleTaker taker makers

def rejectOrderAfterFailedProcessing (orderId : OrderId) : Transaction Bool := do
  lockMarket
  match ← OrdersRepository.lockAndLoadOrder orderId none with
  | none => return false
  | some order =>
      if order.status ≠ .queued then return false
      else
        let _ ← Program.perform (.updateOrder order.id ⟨none, .rejected⟩)
        WalletsService.releaseFunds order
        RealtimeOutboxService.appendEvent
          (.accountChanged .orderRejected order.userId order.id none)
        return true

end MatchingService
end ExchangeMatching
