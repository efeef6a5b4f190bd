import ExchangeMatching.Wallets

/-! Settlement of one trade between the taker and a maker: fees, the release
of the buyer's reservation and the four balance changes. -/
namespace ExchangeMatching

open Transactions

structure TradeFeeDetails where
  makerFeeRate : Int
  makerFeeAmount : Int
  makerFeeAsset : TradeFeeAsset
  takerFeeRate : Int
  takerFeeAmount : Int
  takerFeeAsset : TradeFeeAsset
deriving DecidableEq, Repr

namespace TradeSettlement

/-- 0.005 -/
def makerFeeRate : Int := 500000

/-- 0.003 -/
def takerFeeRate : Int := 300000

def lockAndLoadWallets (userIds : List UserId) : Transaction (List Wallet) :=
  WalletsRepository.lockAndLoadByUserIds userIds

def buildFeeDetails (takerSide : OrderSide) (tradeAmount tradePrice : Int) :
    Except Failure TradeFeeDetails := do
  let executedCost ← multiplyScaled tradeAmount tradePrice
  match takerSide with
  | .buy => return {
      makerFeeRate := makerFeeRate
      makerFeeAmount := ← multiplyScaled executedCost makerFeeRate
      makerFeeAsset := .usd
      takerFeeRate := takerFeeRate
      takerFeeAmount := ← multiplyScaled tradeAmount takerFeeRate
      takerFeeAsset := .btc }
  | .sell => return {
      makerFeeRate := makerFeeRate
      makerFeeAmount := ← multiplyScaled tradeAmount makerFeeRate
      makerFeeAsset := .btc
      takerFeeRate := takerFeeRate
      takerFeeAmount := ← multiplyScaled executedCost takerFeeRate
      takerFeeAsset := .usd }

/-- `floor(a*p) - floor((a-q)*p)`, which keeps the reservation equal to the
remaining order's rounded cost. -/
def buyReservationDebit (order : Order) (tradeAmount : Int) : Except Failure Int := do
  let remaining ← subtractScaled order.remainingAmount tradeAmount
  subtractScaled (← multiplyScaled order.remainingAmount order.price)
    (← multiplyScaled remaining order.price)

def applyBuyTakerBalances (taker : Order) (takerWallet makerWallet : Wallet)
    (tradeAmount tradePrice : Int) : Transaction Unit := do
  let reservedCost ← Program.ofExcept (buyReservationDebit taker tradeAmount)
  let executedCost ← Program.ofExcept (multiplyScaled tradeAmount tradePrice)
  let priceImprovement ← Program.ofExcept (subtractScaled reservedCost executedCost)
  let takerFeeAmount ← Program.ofExcept (multiplyScaled tradeAmount takerFeeRate)
  let makerFeeAmount ← Program.ofExcept (multiplyScaled executedCost makerFeeRate)
  let receivedBtc ← Program.ofExcept (subtractScaled tradeAmount takerFeeAmount)
  let receivedUsd ← Program.ofExcept (subtractScaled executedCost makerFeeAmount)
  WalletsRepository.updateBalances takerWallet.userId
    [(.reservedUsd, .decrement reservedCost), (.availableUsd, .increment priceImprovement),
      (.availableBtc, .increment receivedBtc)]
  WalletsRepository.updateBalances makerWallet.userId
    [(.reservedBtc, .decrement tradeAmount), (.availableUsd, .increment receivedUsd)]

def applySellTakerBalances (maker : Order) (takerWallet makerWallet : Wallet)
    (tradeAmount tradePrice : Int) : Transaction Unit := do
  let executedCost ← Program.ofExcept (multiplyScaled tradeAmount tradePrice)
  let takerFeeAmount ← Program.ofExcept (multiplyScaled executedCost takerFeeRate)
  let makerFeeAmount ← Program.ofExcept (multiplyScaled tradeAmount makerFeeRate)
  let receivedUsd ← Program.ofExcept (subtractScaled executedCost takerFeeAmount)
  let receivedBtc ← Program.ofExcept (subtractScaled tradeAmount makerFeeAmount)
  let reservedCost ← Program.ofExcept (buyReservationDebit maker tradeAmount)
  let roundingRefund ← Program.ofExcept (subtractScaled reservedCost executedCost)
  WalletsRepository.updateBalances takerWallet.userId
    [(.reservedBtc, .decrement tradeAmount), (.availableUsd, .increment receivedUsd)]
  WalletsRepository.updateBalances makerWallet.userId
    ((.reservedUsd, .decrement reservedCost) ::
      (if 0 < roundingRefund then [(.availableUsd, .increment roundingRefund)] else []) ++
      [(.availableBtc, .increment receivedBtc)])

def applyTradeBalances (taker maker : Order) (takerWallet makerWallet : Wallet)
    (tradeAmount tradePrice : Int) : Transaction Unit := do
  let _ ← Program.ofExcept (assertPositiveOrderCost tradeAmount tradePrice)
  match taker.side with
  | .buy => applyBuyTakerBalances taker takerWallet makerWallet tradeAmount tradePrice
  | .sell => applySellTakerBalances maker takerWallet makerWallet tradeAmount tradePrice

end TradeSettlement
end ExchangeMatching
