import ExchangeMatching.Calls

/-! The settlement of a taker is a sequence of market events. While a taker is
being settled its own row is not written yet; the events are those of the
market in which that row already shows the progress of the settlement. -/
namespace ExchangeMatching

open Transactions MatchingOrderBook

namespace Fill

variable {taker maker : Order} {amount : Int}

@[simp] theorem taker_ofTaker : (ofTaker taker maker amount).taker = taker := by
  unfold ofTaker Fill.taker
  cases taker.side <;> rfl

@[simp] theorem maker_ofTaker : (ofTaker taker maker amount).maker = maker := by
  unfold ofTaker Fill.maker
  cases taker.side <;> rfl

@[simp] theorem takerSide_ofTaker : (ofTaker taker maker amount).takerSide = taker.side := by
  unfold ofTaker
  cases taker.side <;> rfl

@[simp] theorem amount_ofTaker : (ofTaker taker maker amount).amount = amount := by
  unfold ofTaker
  cases taker.side <;> rfl

/-- An eligible maker and a taker with a positive cost between them trade. -/
theorem executable_ofTaker (hTaker : taker.Sound) (hMaker : maker.Sound)
    (hMatching : taker.status.isMatching = true) (hEligible : isEligibleMaker taker maker = true)
    (hAmount : 0 < amount) (hTakerAmount : amount ≤ taker.remainingAmount)
    (hMakerAmount : amount ≤ maker.remainingAmount) (hCost : 0 < cost amount maker.price) :
    (ofTaker taker maker amount).Executable := by
  obtain ⟨hUser, hResting, _, hSides, hPrice⟩ := isEligibleMaker_iff.mp hEligible
  unfold ofTaker
  unfold priceCrosses at hPrice
  cases hSide : taker.side with
  | buy =>
      rw [hSide] at hPrice hSides
      have hSell : maker.side = .sell := by cases h : maker.side <;> simp_all
      exact {
        buySide := hSide, sellSide := hSell, users := hUser.symm, limits := hPrice
        resting := hResting, matching := hMatching, amount_pos := hAmount
        amount_le_buy := hTakerAmount, amount_le_sell := hMakerAmount, executed_pos := hCost
        buy_sound := hTaker, sell_sound := hMaker }
  | sell =>
      rw [hSide] at hPrice hSides
      have hBuy : maker.side = .buy := by cases h : maker.side <;> simp_all
      exact {
        buySide := hBuy, sellSide := hSide, users := hUser, limits := hPrice
        resting := hResting, matching := hMatching, amount_pos := hAmount
        amount_le_buy := hMakerAmount, amount_le_sell := hTakerAmount, executed_pos := hCost
        buy_sound := hMaker, sell_sound := hTaker }

end Fill

namespace Market

variable {market : Market}

theorem putOrder_putOrder {id : OrderId} {remaining remaining' : Int}
    {status status' : OrderStatus} :
    (market.putOrder id remaining status).putOrder id remaining' status' =
      market.putOrder id remaining' status' := by
  simp only [putOrder, Table.modify_modify]
  rfl

theorem putOrder_comm {id other : OrderId} {remaining remaining' : Int}
    {status status' : OrderStatus} (hNe : id ≠ other) :
    (market.putOrder id remaining status).putOrder other remaining' status' =
      (market.putOrder other remaining' status').putOrder id remaining status := by
  simp only [putOrder, Table.modify_comm hNe]

theorem putOrder_self {order : Order} (h : market.orders.find? order.id = some order) :
    market.putOrder order.id order.remainingAmount order.status = market := by
  apply Market.ext
  · rfl
  · apply Table.modify_eq_self
    · exact fun row => row.revised_id _ _
    · intro row hRow
      rw [h] at hRow
      cases hRow
      exact order.revised_self
  · rfl

end Market

namespace MatchingService

/-- The status of a taker's row that shows the progress of its settlement. -/
def Progress.status (progress : Progress) : OrderStatus :=
  if progress.matchedAmount = 0 then .queued else filledStatus progress.takerRemaining

/-- The market with the progress of a taker in its row. -/
def Progress.market (progress : Progress) (taker : Order) (db : Database) : Market :=
  db.putOrder taker.id progress.takerRemaining progress.status

/-- The settlement loop between two makers. -/
structure Settling (taker : Order) (makers : List Order) (progress : Progress) (db : Database) :
    Prop where
  taker_found : db.orders.find? taker.id = some taker
  sound : taker.Sound
  queued : taker.status = .queued
  remaining_nonneg : 0 ≤ progress.takerRemaining
  matched_nonneg : 0 ≤ progress.matchedAmount
  total : progress.matchedAmount + progress.takerRemaining = taker.remainingAmount
  wellFormed : (progress.market taker db).WellFormed
  makers_found : ∀ maker ∈ makers, db.orders.find? maker.id = some maker
  eligible : ∀ maker ∈ makers, isEligibleMaker taker maker = true
  distinct : (makers.map Order.id).Nodup

namespace Settling

variable {taker maker : Order} {makers : List Order} {progress : Progress} {db : Database}

theorem skip (h : Settling taker (maker :: makers) progress db) :
    Settling taker makers progress db :=
  { h with
    makers_found := fun other hOther => h.makers_found other (List.mem_cons_of_mem maker hOther)
    eligible := fun other hOther => h.eligible other (List.mem_cons_of_mem maker hOther)
    distinct := (List.nodup_cons.mp h.distinct).2 }

theorem maker_id_ne (h : Settling taker makers progress db) (hMaker : maker ∈ makers) :
    maker.id ≠ taker.id := by
  intro hEq
  have hFound := h.makers_found maker hMaker
  rw [hEq, h.taker_found, Option.some.injEq] at hFound
  exact (isEligibleMaker_iff.mp (h.eligible maker hMaker)).1 (hFound ▸ rfl)

/-- The taker's row in the market that shows its progress. -/
theorem taker_row (h : Settling taker makers progress db) :
    (progress.market taker db).orders.find? taker.id =
      some (taker.revised progress.takerRemaining progress.status) := by
  rw [Progress.market, Market.find?_putOrder h.taker_found, if_pos rfl]

theorem maker_row (h : Settling taker makers progress db) (hMaker : maker ∈ makers) :
    (progress.market taker db).orders.find? maker.id = some maker := by
  rw [Progress.market, Market.find?_putOrder h.taker_found, if_neg (h.maker_id_ne hMaker),
    h.makers_found maker hMaker]

theorem taker_sound (h : Settling taker makers progress db) :
    (taker.revised progress.takerRemaining progress.status).Sound :=
  h.wellFormed.orders _ (Table.mem_of_find? h.taker_row)

theorem maker_sound (h : Settling taker makers progress db) (hMaker : maker ∈ makers) :
    maker.Sound :=
  h.wellFormed.orders _ (Table.mem_of_find? (h.maker_row hMaker))

theorem status_matching (hRemaining : 0 < progress.takerRemaining) :
    progress.status.isMatching = true := by
  unfold Progress.status filledStatus
  split_ifs
  · rfl
  · omega
  · rfl

end Settling

/-- The fill between a taker in its progress and a maker. -/
def Progress.fill (progress : Progress) (taker maker : Order) (amount : Int) : Fill :=
  Fill.ofTaker (taker.revised progress.takerRemaining progress.status) maker amount

/-- Executing a fill is one event of the market with the taker's progress. -/
theorem Progress.market_advance {taker maker : Order} {progress : Progress} {amount : Int}
    {db : Database} {buyer seller : Wallet} {tradeId : TradeId} {now : Nat}
    (hNe : maker.id ≠ taker.id) (hMatched : progress.matchedAmount + amount ≠ 0) :
    (progress.advance (progress.fill taker maker amount) tradeId).market taker
        (db.execute (progress.fill taker maker amount) buyer seller now) =
      ((progress.market taker db).settle (progress.fill taker maker amount) buyer seller
        now).fillOrders (progress.fill taker maker amount) := by
  have hStatus : (progress.advance (progress.fill taker maker amount) tradeId).status =
      filledStatus (progress.takerRemaining - amount) := by
    simp only [Progress.status, Progress.advance, Progress.fill, Fill.amount_ofTaker, hMatched,
      if_false]
  have hLeft : (progress.advance (progress.fill taker maker amount) tradeId).market taker
        (db.execute (progress.fill taker maker amount) buyer seller now) =
      ((db.settle (progress.fill taker maker amount) buyer seller now).putOrder maker.id
          (maker.remainingAmount - amount) (filledStatus (maker.remainingAmount - amount))).putOrder
        taker.id (progress.takerRemaining - amount)
          (filledStatus (progress.takerRemaining - amount)) := by
    simp only [Progress.market, hStatus]
    simp only [Progress.advance, Database.execute, Progress.fill, Fill.amount_ofTaker,
      Fill.maker_ofTaker]
    rfl
  have hRight :
      ((progress.market taker db).settle (progress.fill taker maker amount) buyer seller now) =
      (db.settle (progress.fill taker maker amount) buyer seller now).putOrder taker.id
        progress.takerRemaining progress.status := rfl
  rw [hLeft, hRight]
  generalize db.settle (progress.fill taker maker amount) buyer seller now = settled
  unfold Market.fillOrders Progress.fill Fill.ofTaker
  cases hSide : taker.side with
  | buy =>
      simp only [Order.revised_side, hSide, Order.revised_id, Order.revised_remainingAmount,
        Market.putOrder_putOrder]
      exact Market.putOrder_comm hNe
  | sell =>
      simp only [Order.revised_side, hSide, Order.revised_id, Order.revised_remainingAmount]
      rw [Market.putOrder_comm hNe.symm, Market.putOrder_putOrder, Market.putOrder_comm hNe]

namespace Settling

variable {taker maker : Order} {makers : List Order} {progress : Progress} {db : Database}
  {amount : Int}

theorem executable (h : Settling taker (maker :: makers) progress db) (hPos : 0 < amount)
    (hTakerAmount : amount ≤ progress.takerRemaining)
    (hMakerAmount : amount ≤ maker.remainingAmount)
    (hCost : 0 < cost amount maker.price) : (progress.fill taker maker amount).Executable :=
  Fill.executable_ofTaker h.taker_sound (h.maker_sound List.mem_cons_self)
    (status_matching (hPos.trans_le hTakerAmount)) (h.eligible maker List.mem_cons_self) hPos
    hTakerAmount hMakerAmount hCost

/-- Both orders of a fill are rows of the market with the taker's progress. -/
theorem fill_rows (h : Settling taker (maker :: makers) progress db) :
    (progress.market taker db).orders.find? (progress.fill taker maker amount).buy.id =
        some (progress.fill taker maker amount).buy ∧
      (progress.market taker db).orders.find? (progress.fill taker maker amount).sell.id =
        some (progress.fill taker maker amount).sell := by
  have hTakerRow := h.taker_row
  have hMakerRow := h.maker_row List.mem_cons_self
  unfold Progress.fill Fill.ofTaker
  cases hSide : taker.side <;> simp only [Order.revised_side, hSide]
  · exact ⟨hTakerRow, hMakerRow⟩
  · exact ⟨hMakerRow, hTakerRow⟩

/-- A fill that both wallets take is an event, and the loop goes on. -/
theorem step (h : Settling taker (maker :: makers) progress db)
    (hExecutable : (progress.fill taker maker amount).Executable) {buyer seller : Wallet}
    (now : Nat)
    (hBuyer : db.wallets.find? (progress.fill taker maker amount).buy.userId = some buyer)
    (hSeller : db.wallets.find? (progress.fill taker maker amount).sell.userId = some seller)
    (hBuyerFits : (progress.fill taker maker amount).buyerUpdate.Fits buyer)
    (hSellerFits : (progress.fill taker maker amount).sellerUpdate.Fits seller) :
    Market.Event (progress.market taker db)
        ((progress.advance (progress.fill taker maker amount) db.trades.length).market taker
          (db.execute (progress.fill taker maker amount) buyer seller now)) ∧
      Settling taker makers (progress.advance (progress.fill taker maker amount) db.trades.length)
        (db.execute (progress.fill taker maker amount) buyer seller now) := by
  have hNe := h.maker_id_ne List.mem_cons_self
  have hAmount : 0 < amount := by simpa [Progress.fill] using hExecutable.amount_pos
  have hTakerAmount : amount ≤ progress.takerRemaining := by
    simpa [Progress.fill] using hExecutable.amount_le_taker
  have hMatched := h.matched_nonneg
  have hTotal := h.total
  have hOrders :
      ∀ id, (db.execute (progress.fill taker maker amount) buyer seller now).orders.find? id =
      if id = maker.id then some (maker.revised (maker.remainingAmount - amount)
        (filledStatus (maker.remainingAmount - amount))) else db.orders.find? id := by
    intro id
    have hFound := h.makers_found maker List.mem_cons_self
    simp only [Database.execute, Progress.fill, Fill.maker_ofTaker, Fill.amount_ofTaker]
    exact Market.find?_putOrder hFound
  obtain ⟨hBuyRow, hSellRow⟩ := @fill_rows taker maker makers progress db amount h
  have hEvent : Market.Event (progress.market taker db)
      ((progress.advance (progress.fill taker maker amount) db.trades.length).market taker
        (db.execute (progress.fill taker maker amount) buyer seller now)) := by
    rw [Progress.market_advance hNe (by omega)]
    exact .filled hBuyRow hSellRow hExecutable.toCrossing hBuyer hSeller hBuyerFits hSellerFits
  refine ⟨hEvent, {
    taker_found := by rw [hOrders, if_neg hNe.symm, h.taker_found]
    sound := h.sound, queued := h.queued
    remaining_nonneg := ?_, matched_nonneg := ?_, total := ?_
    wellFormed := h.wellFormed.of_event hEvent
    makers_found := ?_
    eligible := h.skip.eligible, distinct := h.skip.distinct }⟩
  · simp only [Progress.advance, Progress.fill, Fill.amount_ofTaker]
    omega
  · simp only [Progress.advance, Progress.fill, Fill.amount_ofTaker]
    omega
  · simp only [Progress.advance, Progress.fill, Fill.amount_ofTaker]
    omega
  · intro other hOther
    have hDistinct : other.id ≠ maker.id := fun hEq =>
      (List.nodup_cons.mp h.distinct).1 (hEq ▸ List.mem_map.mpr ⟨other, hOther, rfl⟩)
    rw [hOrders, if_neg hDistinct, h.makers_found other (List.mem_cons_of_mem maker hOther)]

/-- In the loop, too, a fill succeeds exactly when both wallets take it. -/
theorem run_executeTrade (h : Settling taker (maker :: makers) progress db)
    (hExecutable : (progress.fill taker maker amount).Executable) {generated : Generated}
    {out : Progress × Database} :
    engine.run generated (executeTrade taker maker amount progress) db = .ok out ↔
      ∃ buyer seller,
        db.wallets.find? (progress.fill taker maker amount).buy.userId = some buyer ∧
        db.wallets.find? (progress.fill taker maker amount).sell.userId = some seller ∧
        (progress.fill taker maker amount).buyerUpdate.Fits buyer ∧
        (progress.fill taker maker amount).sellerUpdate.Fits seller ∧
        out = (progress.advance (progress.fill taker maker amount) db.trades.length,
          db.execute (progress.fill taker maker amount) buyer seller generated.now) := by
  have hMaker : (progress.fill taker maker amount).maker = maker := Fill.maker_ofTaker
  have hAmount : (progress.fill taker maker amount).amount = amount := Fill.amount_ofTaker
  have hTakerAmount : amount ≤ progress.takerRemaining := by
    simpa [Progress.fill] using hExecutable.amount_le_taker
  have hTotal := h.total
  have hMax := h.sound.remaining_le.trans h.sound.original_le
  have hFound : db.orders.find? (progress.fill taker maker amount).maker.id =
      some (progress.fill taker maker amount).maker := by
    rw [hMaker, h.makers_found maker List.mem_cons_self]
  have hTrade : engine.run generated (executeTrade taker (progress.fill taker maker amount).maker
      (progress.fill taker maker amount).amount progress) db = .ok out ↔ _ :=
    run_executeTrade_eq_ok hExecutable Fill.taker_ofTaker hFound h.matched_nonneg (by omega)
      h.wellFormed.wallets
  rwa [hMaker, hAmount] at hTrade

end Settling

/-- Fills of one taker, executed one after another. -/
inductive Executed (taker : Order) (now : Nat) :
    List (Order × Int) → Progress → Database → Progress → Database → Prop where
  | nil {progress : Progress} {db : Database} : Executed taker now [] progress db progress db
  | cons {maker : Order} {amount : Int} {fills : List (Order × Int)} {progress progress' : Progress}
      {db db' : Database} {buyer seller : Wallet}
      (executable : (progress.fill taker maker amount).Executable)
      (buyerFound : db.wallets.find? (progress.fill taker maker amount).buy.userId = some buyer)
      (sellerFound : db.wallets.find? (progress.fill taker maker amount).sell.userId = some seller)
      (buyerFits : (progress.fill taker maker amount).buyerUpdate.Fits buyer)
      (sellerFits : (progress.fill taker maker amount).sellerUpdate.Fits seller)
      (rest : Executed taker now fills
        (progress.advance (progress.fill taker maker amount) db.trades.length)
        (db.execute (progress.fill taker maker amount) buyer seller now) progress' db') :
      Executed taker now ((maker, amount) :: fills) progress db progress' db'

/-- The fills between a remaining amount and a list of makers: as much as both
have left, unless that is worth nothing. -/
def plan : Int → List Order → List (Order × Int)
  | _, [] => []
  | remaining, maker :: makers =>
      if cost (min remaining maker.remainingAmount) maker.price = 0 then plan remaining makers
      else (maker, min remaining maker.remainingAmount) ::
        plan (remaining - min remaining maker.remainingAmount) makers

theorem plan_zero {makers : List Order} (h : ∀ maker ∈ makers, 0 ≤ maker.remainingAmount) :
    plan 0 makers = [] := by
  induction makers with
  | nil => rfl
  | cons maker makers ih =>
      rw [plan, min_eq_left (h maker List.mem_cons_self), cost_zero, if_pos rfl]
      exact ih fun other hOther => h other (List.mem_cons_of_mem maker hOther)

/-- What a maker can trade of a smaller amount is worth at most its own cost. -/
theorem multiplyScaled_fragment {maker : Order} {amount : Int} (hSound : maker.Sound)
    (hAmount : 0 ≤ amount) (hLe : amount ≤ maker.remainingAmount) :
    multiplyScaled amount maker.price = .ok (cost amount maker.price) :=
  (multiplyScaled_eq_ok hAmount hSound.price_pos.le).mpr ⟨rfl,
    (cost_mono (hLe.trans hSound.remaining_le) hSound.original_pos.le hSound.price_pos.le).trans
      hSound.cost_le⟩

section Loop

variable {taker : Order} {makers : List Order} {progress progress' : Progress} {db db' : Database}
  {generated : Generated}

/-- The settlement loop commits exactly when its planned fills can be executed. -/
theorem run_settleMakers_eq_ok (h : Settling taker makers progress db) :
    engine.run generated (settleMakers taker makers progress) db = .ok (progress', db') ↔
      Executed taker generated.now (plan progress.takerRemaining makers)
        progress db progress' db' := by
  induction makers generalizing progress db with
  | nil =>
      simp only [settleMakers, plan, Engine.run_pure, Except.ok.injEq, Prod.mk.injEq]
      constructor
      · rintro ⟨rfl, rfl⟩
        exact .nil
      · rintro ⟨⟩
        exact ⟨rfl, rfl⟩
  | cons maker makers ih =>
      have hSound := h.maker_sound List.mem_cons_self
      have hMakerPos := (isEligibleMaker_iff.mp (h.eligible maker List.mem_cons_self)).2.2.1
      have hRemaining := h.remaining_nonneg
      unfold settleMakers
      by_cases hDone : progress.takerRemaining ≤ 0
      · have hZero : progress.takerRemaining = 0 := by omega
        have hNonneg : ∀ other ∈ maker :: makers, 0 ≤ other.remainingAmount :=
          fun other hOther => (h.maker_sound hOther).remaining_nonneg
        rw [if_pos hDone, hZero, plan_zero hNonneg]
        simp only [Engine.run_pure, Except.ok.injEq, Prod.mk.injEq]
        constructor
        · rintro ⟨rfl, rfl⟩
          exact .nil
        · rintro ⟨⟩
          exact ⟨rfl, rfl⟩
      · have hPos : 0 < min progress.takerRemaining maker.remainingAmount := by omega
        have hCost := multiplyScaled_fragment hSound hPos.le (min_le_right _ _)
        have hCostNonneg := cost_nonneg hPos.le hSound.price_pos.le
        rw [if_neg hDone, if_neg (not_le.mpr hMakerPos), ← min_def_lt, plan]
        simp only [hCost, Program.ofExcept, Program.mk_pure_bind]
        split_ifs with hDust
        · exact ih h.skip
        · have hExecutable := h.executable hPos (min_le_left _ _) (min_le_right _ _) (by omega)
          rw [Engine.run_bind_eq_ok]
          constructor
          · rintro ⟨_, _, hRun, hRest⟩
            obtain ⟨buyer, seller, hBuyer, hSeller, hBuyerFits, hSellerFits, hPair⟩ :=
              (h.run_executeTrade hExecutable).mp hRun
            cases hPair
            have hStep := h.step hExecutable generated.now hBuyer hSeller hBuyerFits hSellerFits
            have hLoop := (ih hStep.2).mp hRest
            exact .cons hExecutable hBuyer hSeller hBuyerFits hSellerFits
              (by simpa [Progress.advance, Progress.fill] using hLoop)
          · intro hExecuted
            cases hExecuted with
            | @cons _ _ _ _ _ _ _ buyer seller executable hBuyer hSeller hBuyerFits hSellerFits
              rest =>
                have hStep := h.step executable generated.now hBuyer hSeller hBuyerFits hSellerFits
                refine ⟨_, _, (h.run_executeTrade executable).mpr
                  ⟨buyer, seller, hBuyer, hSeller, hBuyerFits, hSellerFits, rfl⟩,
                  (ih hStep.2).mpr ?_⟩
                simpa [Progress.advance, Progress.fill] using rest

/-- Executed fills are events of the market with the taker's progress. -/
theorem Settling.executed {now : Nat} (h : Settling taker makers progress db)
    (hExecuted : Executed taker now (plan progress.takerRemaining makers)
      progress db progress' db') :
    Market.Evolves (progress.market taker db) (progress'.market taker db') ∧
      Settling taker [] progress' db' := by
  induction makers generalizing progress db with
  | nil =>
      cases hExecuted
      exact ⟨.refl, h⟩
  | cons maker makers ih =>
      rw [plan] at hExecuted
      split_ifs at hExecuted with hDust
      · exact ih h.skip hExecuted
      · cases hExecuted with
        | cons executable hBuyer hSeller hBuyerFits hSellerFits rest =>
            have hStep := h.step executable now hBuyer hSeller hBuyerFits hSellerFits
            have hRest := ih hStep.2 (by simpa [Progress.advance, Progress.fill] using rest)
            exact ⟨hRest.1.head hStep.1, hRest.2⟩

end Loop

section Selection

variable {taker : Order}

theorem cover_eq {maker : Order} {remaining : Int} (hSound : maker.Sound)
    (hNonneg : 0 ≤ remaining) (hMax : remaining ≤ decimalMax) :
    cover remaining maker = .ok
      (if cost (min remaining maker.remainingAmount) maker.price = 0 then remaining
        else remaining - min remaining maker.remainingAmount) := by
  have hAmount : 0 ≤ min remaining maker.remainingAmount := by
    have := hSound.remaining_nonneg
    omega
  have hCost := multiplyScaled_fragment hSound hAmount (min_le_right _ _)
  have hCostNonneg := cost_nonneg hAmount hSound.price_pos.le
  unfold cover
  simp only [← min_def_lt, hCost, Bind.bind, Except.bind]
  split_ifs with hPos hZero hZero
  · omega
  · exact subtractScaled_eq_ok.mpr ⟨rfl, by omega⟩
  · rfl
  · omega

/-- The search stops early only where the settlement loop has nothing left to
fill: the fills with the selected makers are the fills with all candidates. -/
theorem selectMakers_eq {makers : List Order} (remaining : Int)
    (hSound : ∀ maker ∈ makers, maker.Sound) (hNonneg : 0 ≤ remaining)
    (hMax : remaining ≤ decimalMax) :
    ∃ selected, selectMakers remaining makers = .ok selected ∧ selected <+: makers ∧
      plan remaining selected = plan remaining makers ∧
      (0 < remaining → selected = [] → makers = []) := by
  induction makers generalizing remaining with
  | nil => exact ⟨[], rfl, List.prefix_refl _, rfl, fun _ _ => rfl⟩
  | cons maker makers ih =>
      have hMaker := hSound maker List.mem_cons_self
      have hRest := fun other hOther => hSound other (List.mem_cons_of_mem maker hOther)
      have hMakerNonneg := hMaker.remaining_nonneg
      by_cases hPos : 0 < remaining
      · obtain ⟨selected, hSelected, hPrefix, hPlan, _⟩ := ih
          (if cost (min remaining maker.remainingAmount) maker.price = 0 then remaining
            else remaining - min remaining maker.remainingAmount) hRest
          (by split_ifs <;> omega) (by split_ifs <;> omega)
        refine ⟨maker :: selected, ?_, List.prefix_cons_inj maker |>.mpr hPrefix, ?_, by simp⟩
        · simp only [selectMakers, if_pos hPos, cover_eq hMaker hNonneg hMax, Bind.bind,
            Except.bind, hSelected]
          rfl
        · rw [plan, plan]
          split_ifs at hPlan ⊢
          · exact hPlan
          · rw [hPlan]
      · have hZero : remaining = 0 := by omega
        refine ⟨[], by simp only [selectMakers, if_neg hPos], List.nil_prefix, ?_,
          fun h => absurd h hPos⟩
        rw [hZero, plan_zero fun other hOther => (hSound other hOther).remaining_nonneg]
        rfl

/-- The progress of a taker before its first fill. -/
def Progress.start (taker : Order) : Progress where
  takerRemaining := taker.remainingAmount
  matchedAmount := 0
  affectedUserIds := [taker.userId]
  tradeIds := []

theorem Progress.market_start {db : Database} (hFound : db.orders.find? taker.id = some taker)
    (hQueued : taker.status = .queued) : (Progress.start taker).market taker db = db.toMarket := by
  have hStatus : (Progress.start taker).status = taker.status := by
    rw [hQueued]
    rfl
  rw [Progress.market, hStatus]
  exact Market.putOrder_self hFound

/-- The settlement loop before its first maker. -/
theorem Settling.start {db : Database} {makers : List Order} (hWell : db.WellFormed)
    (hFound : db.orders.find? taker.id = some taker) (hQueued : taker.status = .queued)
    (hMakers : ∀ maker ∈ makers, db.orders.find? maker.id = some maker ∧
      isEligibleMaker taker maker = true)
    (hDistinct : (makers.map Order.id).Nodup) :
    Settling taker makers (Progress.start taker) db where
  taker_found := hFound
  sound := hWell.orders taker (Table.mem_of_find? hFound)
  queued := hQueued
  remaining_nonneg := (hWell.orders taker (Table.mem_of_find? hFound)).remaining_nonneg
  matched_nonneg := le_refl 0
  total := by simp [Progress.start]
  wellFormed := by rwa [Progress.market_start hFound hQueued]
  makers_found := fun maker hMaker => (hMakers maker hMaker).1
  eligible := fun maker hMaker => (hMakers maker hMaker).2
  distinct := hDistinct

/-- The final row of a taker is sound. -/
theorem Settling.final_sound {db : Database} {progress : Progress}
    (h : Settling taker [] progress db) :
    (taker.revised progress.takerRemaining (takerStatus progress)).Sound := by
  have hSound := h.taker_sound
  have hTotal := h.total
  unfold takerStatus
  unfold Progress.status filledStatus at hSound
  split_ifs at hSound ⊢ with hMatched
  · rw [show progress.takerRemaining = taker.remainingAmount by omega]
    exact h.sound.opened h.queued
  · exact hSound
  · exact hSound

/-- The events of a taker, by whether there was a candidate. -/
def matchingEvents (taker : Order) (makers : List Order) (progress : Progress) :
    List RealtimeDispatchEvent :=
  if makers = [] then openedEvents taker else settledEvents taker progress

/-- The database after the last write of a taker. -/
def Progress.finish (progress : Progress) (taker : Order) (makers : List Order) (db : Database) :
    Database :=
  (db.apply (.order taker.id progress.takerRemaining (takerStatus progress))).apply
    (.newEvents (matchingEvents taker makers progress))

/-- Settlement of a taker commits exactly when its planned fills can be executed. -/
theorem run_settleTaker_eq_ok {generated : Generated} {db db' : Database} {makers : List Order}
    {stored : Bool} (h : Settling taker makers (Progress.start taker) db) :
    engine.run generated (settleTaker taker makers) db = .ok (stored, db') ↔
      stored = true ∧ ∃ progress settled,
        Executed taker generated.now (plan taker.remainingAmount makers) (Progress.start taker) db
          progress settled ∧
        db' = progress.finish taker makers settled := by
  unfold settleTaker
  cases makers with
  | nil =>
      have hFinal : (taker.revised taker.remainingAmount .opened).Valid :=
        (h.sound.opened h.queued).toValid
      simp only [List.length_nil, if_true, Program.perform_bind, run_updateOrder_eq_ok,
        Option.getD_none, plan]
      constructor
      · rintro ⟨row, hRow, _, hRun⟩
        rw [h.taker_found] at hRow
        cases hRow
        cases hRun
        exact ⟨rfl, _, _, .nil, rfl⟩
      · rintro ⟨rfl, progress, settled, hExecuted, rfl⟩
        cases hExecuted
        exact ⟨taker, h.taker_found, hFinal, rfl⟩
  | cons maker makers =>
      rw [if_neg (by simp), Engine.run_bind_eq_ok]
      simp only [Program.perform_bind, run_updateOrder_eq_ok, Option.getD_some]
      constructor
      · rintro ⟨progress, settled, hLoop, row, hRow, _, hRun⟩
        have hExecuted := (run_settleMakers_eq_ok h).mp hLoop
        cases hRun
        exact ⟨rfl, progress, settled, hExecuted, rfl⟩
      · rintro ⟨rfl, progress, settled, hExecuted, rfl⟩
        have hSettled := (h.executed hExecuted).2
        exact ⟨progress, settled, (run_settleMakers_eq_ok h).mpr hExecuted, taker,
          hSettled.taker_found, hSettled.final_sound.toValid, rfl⟩

/-- Candidates are stored, eligible and distinct. -/
theorem Settling.candidates {db : Database} (hWell : db.WellFormed)
    (hFound : db.orders.find? taker.id = some taker) (hQueued : taker.status = .queued)
    {selected : List Order}
    (hSelected : selected <+: MatchingOrderBook.candidates db.orders.rows taker none) :
    Settling taker selected (Progress.start taker) db := by
  have hCandidate : ∀ maker ∈ selected, maker ∈ db.orders ∧
    candidateCondition taker none maker = true :=
    fun maker hMaker => mem_candidates.mp (hSelected.subset hMaker)
  refine .start hWell hFound hQueued (fun maker hMaker => ?_) ?_
  · obtain ⟨hMem, hCondition⟩ := hCandidate maker hMaker
    exact ⟨Table.find?_of_mem hMem, isEligibleMaker_of_candidateCondition hCondition
      (hWell.resting_pos maker hMem (isResting_of_candidateCondition hCondition))⟩
  · have hPerm := (List.perm_insertionSort (candidateOrder taker · ·)
      (db.orders.rows.filter (candidateCondition taker none))).map Order.id
    have hNodup : ((db.orders.rows.filter (candidateCondition taker none)).map Order.id).Nodup :=
      db.orders.nodup.sublist (List.filter_sublist.map Order.id)
    exact (hPerm.nodup_iff.mpr hNodup).sublist (hSelected.sublist.map Order.id)

/-- The search never fails, and it ends early only where the settlement has
nothing left to fill. -/
theorem run_findAndLockEligibleMakers {db : Database} {fuel : Nat} (generated : Generated)
    (hWell : db.WellFormed) (hFuel : db.orders.rows.length < fuel) (hTaker : taker ∈ db.orders)
    (hQueued : taker.status = .queued) :
    ∃ selected, engine.run generated (findAndLockEligibleMakers fuel taker) db =
      .ok (selected, db) ∧ selected <+: candidates db.orders.rows taker none ∧
      plan taker.remainingAmount selected =
        plan taker.remainingAmount (candidates db.orders.rows taker none) ∧
      (selected = [] ↔ candidates db.orders.rows taker none = []) := by
  have hSound := hWell.orders taker hTaker
  have hCandidates : ∀ maker ∈ candidates db.orders.rows taker none, maker.Sound :=
    fun maker hMaker => hWell.orders maker (mem_candidates.mp hMaker).1
  obtain ⟨selected, hSelected, hPrefix, hPlan, hEmpty⟩ := selectMakers_eq taker.remainingAmount
    hCandidates hSound.remaining_nonneg (hSound.remaining_le.trans hSound.original_le)
  refine ⟨selected, ?_, hPrefix, hPlan, hEmpty (hSound.remaining_pos (by rw [hQueued]; rfl)),
    fun hNil => List.prefix_nil.mp (hNil ▸ hPrefix)⟩
  rw [findAndLockEligibleMakers, run_searchMakers hWell.resting_pos, hSelected]
  · rfl
  · rw [candidates, List.length_insertionSort]
    exact (List.length_filter_le _ _).trans_lt hFuel

/-- Matching commits exactly when the planned fills with all candidates, in
price-time order, can be executed. -/
theorem run_processOrder_eq_ok {generated : Generated} {db db' : Database} {fuel : Nat}
    {orderId : OrderId} {stored : Bool} (hWell : db.WellFormed)
    (hFuel : db.orders.rows.length < fuel) :
    engine.run generated (processOrder fuel orderId) db = .ok (stored, db') ↔
      ∃ taker, db.orders.find? orderId = some taker ∧
        (taker.status ≠ .queued ∧ stored = false ∧ db' = db ∨
          taker.status = .queued ∧ stored = true ∧ ∃ progress settled,
            Executed taker generated.now
              (plan taker.remainingAmount (candidates db.orders.rows taker none))
              (Progress.start taker) db progress settled ∧
            db' = progress.finish taker (candidates db.orders.rows taker none) settled) := by
  unfold processOrder lockMarket
  rw [Program.perform_bind, run_lockMarket, run_lockAndLoadOrder]
  simp only [Option.filter_none, Database.findOrder_none]
  cases hFound : db.orders.find? orderId with
  | none => simp
  | some taker =>
      obtain rfl := Table.key_of_find? hFound
      dsimp only
      by_cases hQueued : taker.status = .queued
      · obtain ⟨selected, hSearch, hPrefix, hPlan, hEmpty⟩ :=
          run_findAndLockEligibleMakers generated hWell hFuel (Table.mem_of_find? hFound) hQueued
        have hEvents : ∀ progress : Progress, progress.finish taker selected =
            progress.finish taker (candidates db.orders.rows taker none) := by
          intro progress
          unfold Progress.finish matchingEvents
          simp only [hEmpty]
        simp only [hQueued, ne_eq, not_true_eq_false, if_false, Engine.run_bind, hSearch,
          run_settleTaker_eq_ok (Settling.candidates hWell hFound hQueued hPrefix), hPlan, hEvents]
        simp [hQueued]
      · simp only [hQueued, ne_eq, not_false_eq_true, if_true, Engine.run_pure]
        constructor
        · rintro ⟨⟩
          exact ⟨taker, rfl, Or.inl ⟨hQueued, rfl, rfl⟩⟩
        · rintro ⟨_, hRow, ⟨_, rfl, rfl⟩ | ⟨hStatus, _⟩⟩
          · rfl
          · cases hRow
            exact absurd hStatus hQueued

/-- The last write of a taker completes its events, or opens it. -/
theorem Settling.finish_evolves {db : Database} {makers : List Order} {progress : Progress}
    (h : Settling taker [] progress db) :
    Market.Evolves (progress.market taker db) (progress.finish taker makers db).toMarket := by
  have hFinish : (progress.finish taker makers db).toMarket =
      (progress.market taker db).putOrder taker.id progress.takerRemaining
        (takerStatus progress) := by
    rw [Progress.market, Market.putOrder_putOrder]
    rfl
  have hRow := h.taker_row
  rw [hFinish]
  by_cases hMatched : progress.matchedAmount = 0
  · have hOpened : takerStatus progress = .opened := by rw [takerStatus, if_pos hMatched]
    have hQueued : (taker.revised progress.takerRemaining progress.status).status = .queued :=
      if_pos hMatched
    rw [hOpened]
    exact .single
      (@Market.Event.opened _ (taker.revised progress.takerRemaining progress.status) hRow hQueued)
  · have hStatus : takerStatus progress = progress.status := by
      rw [takerStatus, Progress.status, if_neg hMatched, if_neg hMatched]
      rfl
    rw [hStatus]
    have hSelf : (progress.market taker db).putOrder taker.id
        progress.takerRemaining progress.status = progress.market taker db :=
      @Market.putOrder_self _ (taker.revised progress.takerRemaining progress.status) hRow
    rw [hSelf]
    exact .refl

end Selection
end MatchingService

end ExchangeMatching
