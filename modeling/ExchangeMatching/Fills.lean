import ExchangeMatching.Market
import ExchangeMatching.Matching

/-! One fill, as the settlement code executes it. Between sound orders every
amount of the computation is in range, so the only ways for a fill to fail are
a missing wallet and a balance that does not take its change. -/
namespace ExchangeMatching

open Transactions TradeSettlement FloorProduct

/-- A fill between two sound orders. -/
structure Fill.Executable (fill : Fill) : Prop extends fill.Crossing where
  buy_sound : fill.buy.Sound
  sell_sound : fill.sell.Sound

namespace Fill

/-- The buyer pays one of the two fee rates, both of which are below the whole. -/
theorem buyerRate_bounds (fill : Fill) : 0 ≤ fill.buyerRate ∧ fill.buyerRate < one := by
  unfold buyerRate
  split <;> decide

/-- The seller pays the other one. -/
theorem sellerRate_bounds (fill : Fill) : 0 ≤ fill.sellerRate ∧ fill.sellerRate < one := by
  unfold sellerRate
  split <;> decide

end Fill

namespace Fill.Executable

variable {fill : Fill} (h : fill.Executable)
include h

/-- A fill never costs the buyer more than the limit, whichever of the two orders
was in the book first. -/
theorem price_le_buy : fill.price ≤ fill.buy.price := by
  unfold price maker
  split
  · exact h.limits
  · exact le_refl _

/-- And it never pays the seller less. -/
theorem sell_le_price : fill.sell.price ≤ fill.price := by
  unfold price maker
  split
  · exact le_refl _
  · exact h.limits

/-- Fills are not for free. -/
theorem price_pos : 0 < fill.price := h.sell_sound.price_pos.trans_le h.sell_le_price

/-- The price of a fill is the price of an order, so it fits its column. -/
theorem price_le_max : fill.price ≤ decimalMax := h.price_le_buy.trans h.buy_sound.price_le

/-- The amount of a fill is part of an order's amount. -/
theorem amount_le_max : fill.amount ≤ decimalMax :=
  h.amount_le_buy.trans (h.buy_sound.remaining_le.trans h.buy_sound.original_le)

/-- The buyer's reservation covers the cost at the maker's price. -/
theorem executed_le_debit : fill.executed ≤ fill.debit :=
  cost_le_debit h.amount_pos.le h.price_pos.le h.price_le_buy

/-- What the buyer's order still has to reserve after the fill is not negative. -/
theorem rest_nonneg : 0 ≤ cost (fill.buy.remainingAmount - fill.amount) fill.buy.price :=
  cost_nonneg (Int.sub_nonneg.mpr h.amount_le_buy) h.buy_sound.price_pos.le

/-- It is no more than what the order reserved before. -/
theorem rest_le : cost (fill.buy.remainingAmount - fill.amount) fill.buy.price ≤
    cost fill.buy.remainingAmount fill.buy.price :=
  cost_mono (by have := h.amount_pos; omega) h.buy_sound.remaining_nonneg h.buy_sound.price_pos.le

/-- The reservation of a sound order was checked when the order was placed, so its
cost is in range. -/
theorem reservation_le : cost fill.buy.remainingAmount fill.buy.price ≤ decimalMax :=
  (cost_mono h.buy_sound.remaining_le h.buy_sound.original_pos.le h.buy_sound.price_pos.le).trans
    h.buy_sound.cost_le

/-- The reservation loses no more than it has. -/
theorem debit_le_max : fill.debit ≤ decimalMax := by
  have hRest := h.rest_nonneg
  have hReservation := h.reservation_le
  unfold debit
  omega

/-- The cost of a fill at the price of the maker is in range, as the debit is. -/
theorem executed_le_max : fill.executed ≤ decimalMax := h.executed_le_debit.trans h.debit_le_max

/-- A fee is less than what it is taken from. -/
theorem buyerFee_bounds : 0 ≤ fill.buyerFee ∧ fill.buyerFee < fill.amount :=
  ⟨cost_nonneg h.amount_pos.le fill.buyerRate_bounds.1,
    floorProduct_lt_self one_pos h.amount_pos fill.buyerRate_bounds.2⟩

/-- The fee of the seller is less than what the fill pays. -/
theorem sellerFee_bounds : 0 ≤ fill.sellerFee ∧ fill.sellerFee < fill.executed :=
  ⟨cost_nonneg h.executed_pos.le fill.sellerRate_bounds.1,
    floorProduct_lt_self one_pos h.executed_pos fill.sellerRate_bounds.2⟩

/-- The code computes the cost of the fill without refusing. -/
theorem multiplyScaled_executed : multiplyScaled fill.amount fill.price = .ok fill.executed :=
  (multiplyScaled_eq_ok h.amount_pos.le h.price_pos.le).mpr ⟨rfl, h.executed_le_max⟩

/-- The fee of the buyer is computed from the amount, in BTC. -/
theorem multiplyScaled_buyerFee : multiplyScaled fill.amount fill.buyerRate = .ok fill.buyerFee :=
  (multiplyScaled_eq_ok h.amount_pos.le fill.buyerRate_bounds.1).mpr
    ⟨rfl, h.buyerFee_bounds.2.le.trans h.amount_le_max⟩

/-- The fee of the seller is computed from the cost, in USD. -/
theorem multiplyScaled_sellerFee :
    multiplyScaled fill.executed fill.sellerRate = .ok fill.sellerFee :=
  (multiplyScaled_eq_ok h.executed_pos.le fill.sellerRate_bounds.1).mpr
    ⟨rfl, h.sellerFee_bounds.2.le.trans h.executed_le_max⟩

/-- The buyer gets the amount without the fee. -/
theorem subtractScaled_receivedBtc :
    subtractScaled fill.amount fill.buyerFee = .ok (fill.amount - fill.buyerFee) := by
  have hFee := h.buyerFee_bounds
  have hMax := h.amount_le_max
  exact subtractScaled_eq_ok.mpr ⟨rfl, by omega⟩

/-- The seller gets the cost without the fee. -/
theorem subtractScaled_receivedUsd :
    subtractScaled fill.executed fill.sellerFee = .ok (fill.executed - fill.sellerFee) := by
  have hFee := h.sellerFee_bounds
  have hMax := h.executed_le_max
  exact subtractScaled_eq_ok.mpr ⟨rfl, by omega⟩

/-- What was reserved for the fill at the buyer's own limit and is not paid goes
back to the buyer. -/
theorem subtractScaled_refund :
    subtractScaled fill.debit fill.executed = .ok (fill.debit - fill.executed) := by
  have hCovered := h.executed_le_debit
  have hPos := h.executed_pos
  have hMax := h.debit_le_max
  exact subtractScaled_eq_ok.mpr ⟨rfl, by omega⟩

/-- The cost of a fill is positive, which the matching loop asks for before it
trades. -/
theorem assertPositiveOrderCost_executed :
    assertPositiveOrderCost fill.amount fill.price = .ok fill.executed :=
  (assertPositiveOrderCost_eq_ok h.amount_pos.le h.price_pos.le).mpr
    ⟨rfl, h.executed_pos, h.executed_le_max⟩

/-- The reservation of a buyer loses the difference of the costs before and after
the fill, and not the cost of the fill itself. -/
theorem buyReservationDebit_debit : buyReservationDebit fill.buy fill.amount = .ok fill.debit := by
  have hAmount := h.amount_pos
  have hRemaining := h.amount_le_buy
  have hOriginal := h.buy_sound.remaining_le.trans h.buy_sound.original_le
  have hRest := h.rest_nonneg
  have hLe := h.rest_le
  have hReservation := h.reservation_le
  have hLeft := subtractScaled_eq_ok.mpr
    ⟨rfl, show (fill.buy.remainingAmount - fill.amount).natAbs ≤ decimalMax by omega⟩
  have hWhole := (multiplyScaled_eq_ok h.buy_sound.remaining_nonneg h.buy_sound.price_pos.le).mpr
    ⟨rfl, hReservation⟩
  have hPart := (multiplyScaled_eq_ok (Int.sub_nonneg.mpr hRemaining) h.buy_sound.price_pos.le).mpr
    ⟨rfl, hLe.trans hReservation⟩
  simp only [buyReservationDebit, hLeft, hWhole, hPart, Bind.bind, Except.bind]
  exact subtractScaled_eq_ok.mpr ⟨rfl, by omega⟩

end Fill.Executable

namespace Fill

variable {fill : Fill}

/-- The two balance changes of a fill, the taker's first. A refund of zero is
left out when the buyer is the maker. -/
def makerBuyerUpdate (fill : Fill) : BalanceUpdate :=
  (.reservedUsd, .decrement fill.debit) ::
    (if 0 < fill.debit - fill.executed then
      [(.availableUsd, .increment (fill.debit - fill.executed))] else []) ++
    [(.availableBtc, .increment (fill.amount - fill.buyerFee))]

/-- Once its amounts are computed, a fill is two balance changes. -/
theorem applyTradeBalances_eq (h : fill.Executable) {takerWallet makerWallet : Wallet} :
    applyTradeBalances fill.taker fill.maker takerWallet makerWallet fill.amount fill.price =
      match fill.takerSide with
      | .buy => (do
          WalletsRepository.updateBalances takerWallet.userId fill.buyerUpdate
          WalletsRepository.updateBalances makerWallet.userId fill.sellerUpdate)
      | .sell => (do
          WalletsRepository.updateBalances takerWallet.userId fill.sellerUpdate
          WalletsRepository.updateBalances makerWallet.userId fill.makerBuyerUpdate) := by
  have hExecuted := h.multiplyScaled_executed
  have hBuyerFee := h.multiplyScaled_buyerFee
  have hSellerFee := h.multiplyScaled_sellerFee
  have hBtc := h.subtractScaled_receivedBtc
  have hUsd := h.subtractScaled_receivedUsd
  have hDebit := h.buyReservationDebit_debit
  have hRefund := h.subtractScaled_refund
  unfold applyTradeBalances
  rw [h.assertPositiveOrderCost_executed]
  obtain ⟨buy, sell, side, amount⟩ := fill
  cases side with
  | buy =>
      have hSide : buy.side = .buy := h.buySide
      simp only [taker, maker, price, buyerRate, sellerRate, buyerUpdate, sellerUpdate] at *
      simp only [hSide, applyBuyTakerBalances, hDebit, hExecuted, hRefund, hBuyerFee,
        hSellerFee, hBtc, hUsd, Program.ofExcept, Program.mk_pure_bind]
  | sell =>
      have hSide : sell.side = .sell := h.sellSide
      simp only [taker, maker, price, buyerRate, sellerRate, makerBuyerUpdate, sellerUpdate] at *
      simp only [hSide, applySellTakerBalances, hDebit, hExecuted, hRefund, hBuyerFee,
        hSellerFee, hBtc, hUsd, Program.ofExcept, Program.mk_pure_bind]

/-- The update of the buyer names each balance once, so its guard can be computed
change by change. -/
theorem buyerUpdate_distinct (fill : Fill) : (fill.buyerUpdate.map Prod.fst).Nodup := by
  simp [buyerUpdate]

/-- So does the update of the seller. -/
theorem sellerUpdate_distinct (fill : Fill) : (fill.sellerUpdate.map Prod.fst).Nodup := by
  simp [sellerUpdate]

/-- And the update of a buyer in the book, which pays its own price and needs no
refund. -/
theorem makerBuyerUpdate_distinct (fill : Fill) : (fill.makerBuyerUpdate.map Prod.fst).Nodup := by
  unfold makerBuyerUpdate
  split_ifs <;> simp

/-- Leaving out a refund of zero changes nothing. -/
theorem update_makerBuyerUpdate (h : fill.Executable) (wallet : Wallet) :
    wallet.update fill.makerBuyerUpdate = wallet.update fill.buyerUpdate := by
  have hCovered := h.executed_le_debit
  unfold makerBuyerUpdate
  split_ifs with hRefund
  · rfl
  · have hZero : fill.debit - fill.executed = 0 := by omega
    simp [buyerUpdate, Wallet.set, Wallet.get, BalanceChange.apply, hZero]

/-- For a buyer in the book the refund is zero, so that the shorter update fits the
same wallets. -/
theorem fits_makerBuyerUpdate (h : fill.Executable) {wallet : Wallet} :
    fill.makerBuyerUpdate.Fits wallet ↔ fill.buyerUpdate.Fits wallet := by
  have hCovered := h.executed_le_debit
  have hDeltas : fill.makerBuyerUpdate.DeltasInRange ↔ fill.buyerUpdate.DeltasInRange := by
    unfold makerBuyerUpdate buyerUpdate BalanceUpdate.DeltasInRange
    split_ifs with hRefund
    · rfl
    · have hZero : fill.debit - fill.executed = 0 := by omega
      have hMax : (0 : Int) ≤ decimalMax := by decide
      simp [BalanceChange.delta, hZero, hMax]
  have hUpdate := update_makerBuyerUpdate h wallet
  constructor
  · exact fun hFits => ⟨hDeltas.mp hFits.deltas, hUpdate ▸ hFits.result⟩
  · exact fun hFits => ⟨hDeltas.mpr hFits.deltas, hUpdate.symm ▸ hFits.result⟩

end Fill

section Runs

variable {generated : Generated} {db : Database}

/-- Writing a wallet that is in range keeps the others as they are. -/
theorem Database.walletsInRange_apply {row : Wallet} (hRange : db.WalletsInRange)
    (hRow : row.InRange) : (db.apply (.wallet row)).WalletsInRange := by
  intro wallet hWallet
  rcases Market.mem_putWallet hWallet with hOld | rfl
  · exact hRange wallet hOld
  · exact hRow

/-- A change of one user's wallet does not touch another user's. -/
theorem Database.find?_apply_wallet {row old : Wallet} {userId : UserId}
    (hFound : db.wallets.find? row.userId = some old) (hNe : userId ≠ row.userId) :
    (db.apply (.wallet row)).wallets.find? userId = db.wallets.find? userId := by
  exact (Market.find?_putWallet hFound).trans (if_neg hNe)

/-- The two wallets of a fill may be written in either order. -/
theorem Database.apply_wallet_comm {row other : Wallet} (hNe : row.userId ≠ other.userId) :
    (db.apply (.wallet row)).apply (.wallet other) = (db.apply (.wallet other)).apply
      (.wallet row) := by
  simp only [Database.apply, Market.putWallet, Table.modify_comm hNe]

/-- Two wallets of different users are changed one after the other. -/
theorem run_updateTwo_eq_ok {first second : UserId} {firstData secondData : BalanceUpdate}
    {out : Unit × Database} (hRange : db.WalletsInRange) (hNe : first ≠ second)
    (hFirst : (firstData.map Prod.fst).Nodup) (hSecond : (secondData.map Prod.fst).Nodup) :
    engine.run generated (do
        WalletsRepository.updateBalances first firstData
        WalletsRepository.updateBalances second secondData) db = .ok out ↔
      ∃ wallet other, db.wallets.find? first = some wallet ∧
        db.wallets.find? second = some other ∧ firstData.Fits wallet ∧ secondData.Fits other ∧
        out = ((), (db.apply (.wallet (wallet.update firstData))).apply
          (.wallet (other.update secondData))) := by
  rw [Engine.run_bind_eq_ok]
  constructor
  · rintro ⟨_, _, hRunFirst, hRunSecond⟩
    obtain ⟨wallet, hWallet, hFits, hPair⟩ := (run_updateBalances_eq_ok hRange hFirst).mp hRunFirst
    cases hPair
    have hKey := Table.key_of_find? hWallet
    obtain ⟨other, hOther, hOtherFits, rfl⟩ := (run_updateBalances_eq_ok
      (Database.walletsInRange_apply hRange hFits.result) hSecond).mp hRunSecond
    rw [Database.find?_apply_wallet (by rw [Wallet.userId_update, hKey]; exact hWallet)
      (by rw [Wallet.userId_update, hKey]; exact hNe.symm)] at hOther
    exact ⟨wallet, other, hWallet, hOther, hFits, hOtherFits, rfl⟩
  · rintro ⟨wallet, other, hWallet, hOther, hFits, hOtherFits, rfl⟩
    have hKey := Table.key_of_find? hWallet
    refine ⟨_, _, (run_updateBalances_eq_ok hRange hFirst).mpr ⟨wallet, hWallet, hFits, rfl⟩,
      (run_updateBalances_eq_ok (Database.walletsInRange_apply hRange hFits.result) hSecond).mpr
        ⟨other, ?_, hOtherFits, rfl⟩⟩
    rw [Database.find?_apply_wallet (by rw [Wallet.userId_update, hKey]; exact hWallet)
      (by rw [Wallet.userId_update, hKey]; exact hNe.symm), hOther]

/-- Settlement changes the buyer's and the seller's wallet. -/
theorem run_applyTradeBalances_eq_ok {fill : Fill} (h : fill.Executable)
    {takerWallet makerWallet : Wallet} {out : Unit × Database} (hRange : db.WalletsInRange)
    (hTaker : takerWallet.userId = fill.taker.userId)
    (hMaker : makerWallet.userId = fill.maker.userId) :
    engine.run generated
      (applyTradeBalances fill.taker fill.maker takerWallet makerWallet fill.amount
        fill.price) db = .ok out ↔
      ∃ buyer seller, db.wallets.find? fill.buy.userId = some buyer ∧
        db.wallets.find? fill.sell.userId = some seller ∧
        fill.buyerUpdate.Fits buyer ∧ fill.sellerUpdate.Fits seller ∧
        out = ((), (db.apply (.wallet (buyer.update fill.buyerUpdate))).apply
          (.wallet (seller.update fill.sellerUpdate))) := by
  rw [Fill.applyTradeBalances_eq h, hTaker, hMaker]
  have hUsers := h.users
  cases hSide : fill.takerSide with
  | buy =>
      simp only [Fill.taker, Fill.maker, hSide]
      exact run_updateTwo_eq_ok hRange hUsers fill.buyerUpdate_distinct fill.sellerUpdate_distinct
  | sell =>
      simp only [Fill.taker, Fill.maker, hSide]
      rw [run_updateTwo_eq_ok hRange hUsers.symm fill.sellerUpdate_distinct
        fill.makerBuyerUpdate_distinct]
      constructor
      · rintro ⟨seller, buyer, hSeller, hBuyer, hSellerFits, hBuyerFits, rfl⟩
        have hKeys : (seller.update fill.sellerUpdate).userId ≠
            (buyer.update fill.buyerUpdate).userId := by
          rw [Wallet.userId_update, Wallet.userId_update, Table.key_of_find? hSeller,
            Table.key_of_find? hBuyer]
          exact hUsers.symm
        refine ⟨buyer, seller, hBuyer, hSeller, (Fill.fits_makerBuyerUpdate h).mp hBuyerFits,
          hSellerFits, ?_⟩
        rw [Fill.update_makerBuyerUpdate h, Database.apply_wallet_comm hKeys]
      · rintro ⟨buyer, seller, hBuyer, hSeller, hBuyerFits, hSellerFits, rfl⟩
        have hKeys : (seller.update fill.sellerUpdate).userId ≠
            (buyer.update fill.buyerUpdate).userId := by
          rw [Wallet.userId_update, Wallet.userId_update, Table.key_of_find? hSeller,
            Table.key_of_find? hBuyer]
          exact hUsers.symm
        refine ⟨seller, buyer, hSeller, hBuyer, hSellerFits,
          (Fill.fits_makerBuyerUpdate h).mpr hBuyerFits, ?_⟩
        rw [Fill.update_makerBuyerUpdate h, Database.apply_wallet_comm hKeys]

/-- Locking the wallets of some users returns the wallets they have. -/
theorem run_lockAndLoadWallets {Result : Type} {userIds : List UserId}
    {next : List Wallet → Transaction Result} :
    engine.run generated (lockAndLoadWallets userIds >>= next) db =
      engine.run generated (next (db.wallets.rows.filter (·.userId ∈ userIds))) db := by
  have hLocks : ∀ (sorted : List UserId) (rest : Transaction Result),
      engine.run generated (do WalletsRepository.lockWallets sorted; rest) db =
        engine.run generated rest db := by
    intro sorted rest
    induction sorted with
    | nil => rfl
    | cons userId sorted ih => exact ih
  have hMem : ∀ userId, userId ∈ userIds.eraseDups.insertionSort (· ≤ ·) ↔
      userId ∈ userIds := by
    intro userId
    rw [List.mem_insertionSort, List.mem_eraseDups]
  unfold lockAndLoadWallets WalletsRepository.lockAndLoadByUserIds
  dsimp only
  split_ifs with hEmpty
  · have hNone : ∀ userId, userId ∉ userIds := fun userId hIn => by
      rw [← hMem, List.length_eq_zero_iff.mp hEmpty] at hIn
      cases hIn
    simp only [hNone, decide_false, List.filter_false]
    rfl
  · rw [Program.bind_assoc, hLocks, Program.perform_bind, run_findWallets]
    simp only [hMem]

/-- Reading several wallets at once finds the same row for each of them as reading
it alone. -/
theorem find?_filter_wallets {market : Market} {userIds : List UserId} {userId : UserId}
    (hMem : userId ∈ userIds) :
    (market.wallets.rows.filter (·.userId ∈ userIds)).find? (·.userId = userId) =
      market.wallets.find? userId := by
  rw [List.find?_filter]
  unfold Table.find?
  congr 1
  funext wallet
  by_cases hKey : wallet.userId = userId <;> simp [hKey, hMem]

namespace Fill.Executable

variable {fill : Fill} (h : fill.Executable)
include h

/-- The fees of a trade are recorded as they are paid: each by the party and in the
asset that the fill charges. -/
theorem buildFeeDetails_eq : buildFeeDetails fill.takerSide fill.amount fill.price = .ok {
    makerFeeRate := fill.trade.makerFeeRate
    makerFeeAmount := fill.trade.makerFeeAmount
    makerFeeAsset := fill.trade.makerFeeAsset
    takerFeeRate := fill.trade.takerFeeRate
    takerFeeAmount := fill.trade.takerFeeAmount
    takerFeeAsset := fill.trade.takerFeeAsset } := by
  have hExecuted := h.multiplyScaled_executed
  have hBuyerFee := h.multiplyScaled_buyerFee
  have hSellerFee := h.multiplyScaled_sellerFee
  obtain ⟨buy, sell, side, amount⟩ := fill
  cases side <;>
    simp only [buyerRate, sellerRate, trade] at * <;>
    simp only [buildFeeDetails, hExecuted, hBuyerFee, hSellerFee, Bind.bind, Except.bind, pure,
      Except.pure]

/-- The row checks of the trades table never refuse a fill. -/
theorem trade_check : fill.trade.check = .ok () := by
  have hPrice := h.price_pos
  have hPriceMax := h.price_le_max
  have hAmount := h.amount_pos
  have hAmountMax := h.amount_le_max
  have hBuyerFee := h.buyerFee_bounds
  have hSellerFee := h.sellerFee_bounds
  have hExecutedMax := h.executed_le_max
  have hRates : makerFeeRate.natAbs ≤ rateMax ∧ takerFeeRate.natAbs ≤ rateMax ∧
      0 ≤ makerFeeRate ∧ 0 ≤ takerFeeRate := by decide
  rw [TradeData.check, checkRow_eq_ok]
  simp only [List.forall_mem_cons, List.not_mem_nil, IsEmpty.forall_iff, implies_true, and_true,
    decide_eq_true_eq]
  unfold trade
  dsimp only
  cases fill.takerSide <;> dsimp only <;> omega

end Fill.Executable

/-- What the settlement loop knows after a fill. -/
def MatchingService.Progress.advance (progress : MatchingService.Progress) (fill : Fill)
    (tradeId : TradeId) : MatchingService.Progress where
  takerRemaining := progress.takerRemaining - fill.amount
  matchedAmount := progress.matchedAmount + fill.amount
  affectedUserIds := MatchingService.addUser progress.affectedUserIds fill.maker.userId
  tradeIds := progress.tradeIds ++ [tradeId]

/-- The database after the two balance changes of a fill, its trade and the
new version of the maker. The taker's row is written at the end. -/
def Database.execute (db : Database) (fill : Fill) (buyer seller : Wallet) (now : Nat) : Database :=
  (((db.apply (.wallet (buyer.update fill.buyerUpdate))).apply
      (.wallet (seller.update fill.sellerUpdate))).apply
    (.newTrade ⟨fill.trade, db.trades.length, db.trades.length, now⟩)).apply
    (.order fill.maker.id (fill.maker.remainingAmount - fill.amount)
      (filledStatus (fill.maker.remainingAmount - fill.amount)))

namespace Fill.Executable

variable {fill : Fill} (h : fill.Executable)
include h

/-- The maker is one of the two orders of the fill. -/
theorem maker_sound : fill.maker.Sound := by
  unfold maker
  split
  · exact h.sell_sound
  · exact h.buy_sound

/-- And the taker is the other. -/
theorem taker_sound : fill.taker.Sound := by
  unfold taker
  split
  · exact h.buy_sound
  · exact h.sell_sound

/-- A fill takes from the maker no more than what is left of it. -/
theorem amount_le_maker : fill.amount ≤ fill.maker.remainingAmount := by
  unfold maker
  split
  · exact h.amount_le_sell
  · exact h.amount_le_buy

/-- Nor does it take more from the taker. -/
theorem amount_le_taker : fill.amount ≤ fill.taker.remainingAmount := by
  unfold taker
  split
  · exact h.amount_le_buy
  · exact h.amount_le_sell

/-- The side of the taker is the one under which the trade is recorded. -/
theorem taker_side : fill.taker.side = fill.takerSide := by
  unfold taker
  split
  · next hSide => rw [hSide, h.buySide]
  · next hSide => rw [hSide, h.sellSide]

end Fill.Executable

section Trades

variable {fill : Fill} (h : fill.Executable) {taker : Order} {status : OrderStatus}
  {progress : MatchingService.Progress}
  (hTaker : fill.taker = taker.revised progress.takerRemaining status)
  (hMaker : db.orders.find? fill.maker.id = some fill.maker)
  (hMatched : 0 ≤ progress.matchedAmount)
  (hTotal : progress.matchedAmount + fill.amount ≤ decimalMax)
include h hTaker hMaker hMatched hTotal

/-- Recording a trade never fails. -/
theorem run_recordTrade :
    engine.run generated (MatchingService.recordTrade taker fill.maker fill.amount progress) db =
      .ok (progress.advance fill db.trades.length,
        (db.apply (.newTrade ⟨fill.trade, db.trades.length, db.trades.length, generated.now⟩)).apply
          (.order fill.maker.id (fill.maker.remainingAmount - fill.amount)
            (filledStatus (fill.maker.remainingAmount - fill.amount)))) := by
  have hSide : taker.side = fill.takerSide := by
    rw [← h.taker_side, hTaker, Order.revised_side]
  have hId : taker.id = fill.taker.id := by rw [hTaker, Order.revised_id]
  have hRemaining : progress.takerRemaining = fill.taker.remainingAmount := by
    rw [hTaker, Order.revised_remainingAmount]
  have hTakerBounds := h.amount_le_taker
  have hTakerMax := h.taker_sound.remaining_le.trans h.taker_sound.original_le
  have hMakerBounds := h.amount_le_maker
  have hMakerMax := h.maker_sound.remaining_le.trans h.maker_sound.original_le
  have hPos := h.amount_pos
  have hNext := subtractScaled_eq_ok.mpr
    ⟨rfl, show (fill.maker.remainingAmount - fill.amount).natAbs ≤ decimalMax by omega⟩
  have hLeft := subtractScaled_eq_ok.mpr
    ⟨rfl, show (progress.takerRemaining - fill.amount).natAbs ≤ decimalMax by omega⟩
  have hSum := addScaled_eq_ok.mpr
    ⟨rfl, show (progress.matchedAmount + fill.amount).natAbs ≤ decimalMax by omega⟩
  have hBuyId : (if fill.takerSide = .buy then fill.taker.id else fill.maker.id) = fill.buy.id := by
    cases hCase : fill.takerSide <;> simp [Fill.taker, Fill.maker, hCase]
  have hSellId : (if fill.takerSide = .sell then fill.taker.id else fill.maker.id) =
      fill.sell.id := by
    cases hCase : fill.takerSide <;> simp [Fill.taker, Fill.maker, hCase]
  unfold MatchingService.recordTrade
  simp only [hSide, hId, hBuyId, hSellId, show fill.maker.price = fill.price from rfl,
    h.buildFeeDetails_eq, hNext, hLeft, hSum, Program.ofExcept, Program.mk_pure_bind,
    Program.perform_bind]
  rw [run_createTrade_eq_ok]
  refine ⟨h.trade_check, run_updateOrder_eq_ok.mpr ⟨fill.maker, hMaker, ?_, rfl⟩⟩
  exact (h.maker_sound.filled hPos hMakerBounds).toValid

/-- A fill succeeds exactly when both wallets exist and take their changes. -/
theorem run_executeTrade_eq_ok {out : MatchingService.Progress × Database}
    (hRange : db.WalletsInRange) :
    engine.run generated (MatchingService.executeTrade taker fill.maker fill.amount progress) db =
        .ok out ↔
      ∃ buyer seller, db.wallets.find? fill.buy.userId = some buyer ∧
        db.wallets.find? fill.sell.userId = some seller ∧
        fill.buyerUpdate.Fits buyer ∧ fill.sellerUpdate.Fits seller ∧
        out = (progress.advance fill db.trades.length,
          db.execute fill buyer seller generated.now) := by
  have hUser : taker.userId = fill.taker.userId := by rw [hTaker, Order.revised_userId]
  have hWallets : (∃ buyer seller, db.wallets.find? fill.buy.userId = some buyer ∧
        db.wallets.find? fill.sell.userId = some seller) →
      (db.wallets.find? fill.taker.userId).isSome ∧
      (db.wallets.find? fill.maker.userId).isSome := by
    rintro ⟨buyer, seller, hBuyer, hSeller⟩
    cases hSide : fill.takerSide <;> simp [Fill.taker, Fill.maker, hSide, hBuyer, hSeller]
  unfold MatchingService.executeTrade
  rw [run_lockAndLoadWallets, find?_filter_wallets (by simp), find?_filter_wallets (by simp)]
  rw [← hUser] at hWallets
  cases hTakerWallet : db.wallets.find? taker.userId with
  | none =>
      simp only [Engine.run_throw, reduceCtorEq, false_iff]
      rintro ⟨buyer, seller, hBuyer, hSeller, _⟩
      simpa [hTakerWallet] using (hWallets ⟨buyer, seller, hBuyer, hSeller⟩).1
  | some takerWallet =>
    cases hMakerWallet : db.wallets.find? fill.maker.userId with
    | none =>
        simp only [Engine.run_throw, reduceCtorEq, false_iff]
        rintro ⟨buyer, seller, hBuyer, hSeller, _⟩
        simpa [hMakerWallet] using (hWallets ⟨buyer, seller, hBuyer, hSeller⟩).2
    | some makerWallet =>
        have hApply : applyTradeBalances { taker with remainingAmount := progress.takerRemaining }
            fill.maker takerWallet makerWallet fill.amount fill.maker.price =
            applyTradeBalances fill.taker fill.maker takerWallet makerWallet fill.amount
              fill.price := by
          rw [hTaker]
          rfl
        have hTakerKey := (Table.key_of_find? hTakerWallet).trans hUser
        have hMakerKey := Table.key_of_find? hMakerWallet
        have hRecorded : ∀ buyer seller, engine.run generated
            (MatchingService.recordTrade taker fill.maker fill.amount progress)
            ((db.apply (.wallet (buyer.update fill.buyerUpdate))).apply
              (.wallet (seller.update fill.sellerUpdate))) =
            .ok (progress.advance fill db.trades.length,
              db.execute fill buyer seller generated.now) := by
          intro buyer seller
          exact run_recordTrade h hTaker hMaker hMatched hTotal
        dsimp only
        rw [hApply, Engine.run_bind_eq_ok]
        constructor
        · rintro ⟨_, _, hSettled, hRest⟩
          obtain ⟨buyer, seller, hBuyer, hSeller, hBuyerFits, hSellerFits, hPair⟩ :=
            (run_applyTradeBalances_eq_ok h hRange hTakerKey hMakerKey).mp hSettled
          cases hPair
          rw [hRecorded] at hRest
          exact ⟨buyer, seller, hBuyer, hSeller, hBuyerFits, hSellerFits,
            (Except.ok.inj hRest).symm⟩
        · rintro ⟨buyer, seller, hBuyer, hSeller, hBuyerFits, hSellerFits, rfl⟩
          exact ⟨_, _, (run_applyTradeBalances_eq_ok h hRange hTakerKey hMakerKey).mpr
              ⟨buyer, seller, hBuyer, hSeller, hBuyerFits, hSellerFits, rfl⟩,
              hRecorded buyer seller⟩

end Trades

end Runs
end ExchangeMatching
