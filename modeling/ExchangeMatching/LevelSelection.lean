import ExchangeMatching.Accounts
import ExchangeMatching.Custody
import ExchangeMatching.MarketViews
import ExchangeMatching.OrderForm

/-! Selecting a level of the order book fills the opposite form. The form and
the backend read back the numbers of the level, and the order that is placed
with them takes the whole level. -/
namespace ExchangeMatching

open DecimalArithmetic FloorProduct Transactions

namespace ExchangePage

/-- The form that is filled when a level is selected, and its values. -/
def handleLevelSelect (level : OrderBookLevel) : OrderSide × OrderForm.OrderFormValues :=
  match level.side with
  | .buy => (.sell, ⟨toDecimalString level.amount, toDecimalString level.price⟩)
  | .sell => (.buy, ⟨toDecimalString level.amount, toDecimalString level.price⟩)

end ExchangePage

namespace OrderForm

theorem toDecimalString_eq {units : Int}
    (h : 0 ≤ units) : toDecimalString units = printUnits units := by
  have hUnits : Decimal.units decimalScale (Decimal.toDecimalPlaces decimalScale
      (Decimal.ofUnits decimalScale units)) = units := by
    have hExponent : -(decimalScale : Int) ≤ (Decimal.ofUnits decimalScale units).exponent :=
      le_refl _
    rw [Decimal.toDecimalPlaces, if_pos hExponent, Decimal.units_ofUnits]
  have hAbs : units.natAbs = units.toNat := by omega
  rw [toDecimalString, Decimal.toFixed_of_nonneg h, hUnits, hAbs, printUnits]

variable {construct : String → Option FormDecimal} {newDecimal : String → Option DecimalValue}

/-- The form and the backend read back the numbers that the backend prints. -/
theorem orderFormSchema_toDecimalString (hForm : ReadsNumerals construct .finite)
    (hApi : ReadsNumerals newDecimal .finite) {amount price : Int} (hAmount : 0 ≤ amount)
    (hPrice : 0 ≤ price) {values : OrderFormValues}
    (h : orderFormSchema construct (toDecimalString amount) (toDecimalString price) = .ok values) :
    OrdersService.validateOrder newDecimal values.amount values.price = .ok (amount, price) := by
  have hTrim : ∀ {units : Int}, 0 ≤ units → trim (toDecimalString units) =
      .ofList (Numeral.ofUnits decimalScale units.toNat).chars := fun hUnits => by
    rw [toDecimalString_eq hUnits, printUnits, trim_chars]
  have hPlaces : ∀ units : Int, (Numeral.ofUnits decimalScale units.toNat).fraction.length ≤
    decimalScale :=
    fun units => (Numeral.length_lastDigits decimalScale units.toNat).le
  obtain ⟨rfl, _, _, hAmountChars, hPriceChars, hAccepted⟩ := (orderFormSchema_eq_ok hForm).mp h
  have hAccepted := (validateOrder_chars hApi hAmountChars hPriceChars hAccepted.validAmount.places
    hAccepted.validPrice.places).mpr ⟨rfl, hAccepted⟩
  obtain ⟨_, hOrder⟩ := (validateOrder_chars hApi (hTrim hAmount) (hTrim hPrice) (hPlaces amount)
    (hPlaces price)).mp hAccepted
  refine (validateOrder_chars hApi ?_ ?_ (hPlaces amount) (hPlaces price)).mpr ⟨?_, hOrder⟩
  · rw [hTrim hAmount, trim_chars]
  · rw [hTrim hPrice, trim_chars]
  · rw [columnUnits_ofUnits, columnUnits_ofUnits, Int.toNat_of_nonneg hAmount,
      Int.toNat_of_nonneg hPrice]

end OrderForm

namespace MatchingService

/-- With enough left, every maker is filled whole, and dust is skipped. -/
theorem plan_of_sum_le {remaining : Int} {makers : List Order}
    (hMakers : ∀ maker ∈ makers, 0 ≤ maker.remainingAmount)
    (hEnough : (makers.map Order.remainingAmount).sum ≤ remaining) :
    plan remaining makers =
      (makers.filter fun maker => cost maker.remainingAmount maker.price ≠ 0).map
      fun maker => (maker, maker.remainingAmount) := by
  induction makers generalizing remaining with
  | nil => rfl
  | cons maker makers ih =>
      have hMaker := hMakers maker List.mem_cons_self
      have hRest := fun other hOther => hMakers other (List.mem_cons_of_mem maker hOther)
      have hSum : 0 ≤ (makers.map Order.remainingAmount).sum :=
        List.sum_nonneg (by simpa using hRest)
      rw [List.map_cons, List.sum_cons] at hEnough
      rw [plan, min_eq_right (by omega), List.filter_cons]
      split_ifs with hDust hKept hKept
      · simp [hDust] at hKept
      · exact ih hRest (by omega)
      · rw [List.map_cons, ih hRest (by omega)]
      · simp [hDust] at hKept

end MatchingService

/-- A price that is as good for those who meet orders of this side. -/
def OrderSide.AsGood (side : OrderSide) (price other : Int) : Prop :=
  match side with
  | .buy => other ≤ price
  | .sell => price ≤ other

theorem OrderSide.AsGood.antisymm {side : OrderSide} {price other : Int}
    (h : side.AsGood price other) (h' : side.AsGood other price) : price = other := by
  cases side with
  | buy => exact le_antisymm h' h
  | sell => exact le_antisymm h h'

namespace Market

open Reference

variable {market : Market} {side : OrderSide} {level : OrderBookLevel}

/-- No resting order has a better price than the first level. -/
theorem best_of_head? (hBest : (market.levels side).head? = some level) {order : Order}
    (hOrder : order ∈ market.restingOrders side) : side.AsGood level.price order.price := by
  obtain ⟨rest, hLevels⟩ := List.head?_eq_some_iff.mp hBest
  have hSorted := @pairwise_levels market side
  have hListed : order.price ∈ (market.levels side).map OrderBookLevel.price := by
    rw [(perm_levels.map _).mem_iff, List.map_map]
    change order.price ∈ (groupByPrice (market.restingOrders side)).map PriceGroup.price
    rw [map_price_groupByPrice, List.mem_dedup]
    exact List.mem_map_of_mem hOrder
  obtain ⟨other, hOther, hPrice⟩ := List.mem_map.mp hListed
  rw [hLevels] at hOther hSorted
  rw [← hPrice]
  rcases List.mem_cons.mp hOther with rfl | hRest
  · cases side <;> exact le_refl other.price
  · have hBefore := (List.pairwise_cons.mp hSorted).1 other hRest
    cases side <;> exact le_of_lt hBefore

/-- Whom a taker meets on the side opposite to its own. -/
theorem crosses_iff {taker order : Order} (hSide : taker.side ≠ side) : crosses taker order = true ↔
    order.userId ≠ taker.userId ∧
    (order.side = side ∧ order.status ∈ [.opened, .partiallyFilled]) ∧
      side.AsGood order.price taker.price := by
  unfold crosses OrderSide.AsGood
  cases hTaker : taker.side <;> cases side <;> first
    | exact absurd hTaker hSide
    | cases order.side <;> cases order.status <;> simp [OrderStatus.isResting]

theorem levels_congr {other : Market} (h : other.restingOrders side = market.restingOrders side) :
    other.levels side = market.levels side := by
  rw [levels, h, levels]

/-- A taker at the price of the best level meets the orders of this level. -/
theorem perm_makers {taker : Order} (hBest : (market.levels side).head? = some level)
    (hSide : taker.side ≠ side) (hPrice : taker.price = level.price)
    (hOthers : ∀ order ∈ market.restingOrders side, order.price = level.price →
      order.userId ≠ taker.userId) :
    (makers market.orders.rows taker).Perm
      ((market.restingOrders side).filter (·.price = level.price)) := by
  refine (List.perm_insertionSort _ _).trans (List.Perm.of_eq ?_)
  rw [restingOrders, List.filter_filter]
  refine List.filter_congr fun order hOrder => Bool.eq_iff_iff.mpr ?_
  rw [crosses_iff hSide, Bool.and_eq_true, decide_eq_true_eq, decide_eq_true_eq]
  constructor
  · rintro ⟨_, hRests, hAcceptable⟩
    have hBetter := best_of_head? hBest (List.mem_filter.mpr ⟨hOrder, decide_eq_true hRests⟩)
    exact ⟨OrderSide.AsGood.antisymm (hPrice ▸ hAcceptable) hBetter, hRests⟩
  · rintro ⟨hLevel, hRests⟩
    refine ⟨hOthers order (List.mem_filter.mpr ⟨hOrder, decide_eq_true hRests⟩) hLevel,
      hRests, ?_⟩
    rw [hPrice, hLevel]
    cases side <;> exact le_refl level.price

theorem restingOrders_addOrder {order : Order} (hFresh : market.IsFresh order)
    (hQueued : order.status = .queued) :
    (market.addOrder order).restingOrders side = market.restingOrders side := by
  rw [restingOrders, orders_addOrder hFresh]
  change (market.orders.rows ++ [order]).filter _ = _
  rw [List.filter_append, List.filter_singleton, hQueued]
  simp [restingOrders]

end Market

namespace Reference

open MatchingService

/-- A taker that asks for the best level takes what is worth something. -/
theorem Matched.level_taken {db db' : Database} {taker : Order} {side : OrderSide}
    {level : OrderBookLevel}
    (h : Matched db db' taker) (hWell : db.WellFormed)
    (hTaker : db.orders.find? taker.id = some taker)
    (hQueued : taker.status = .queued) (hBest : (db.levels side).head? = some level)
    (hSide : taker.side ≠ side) (hPrice : taker.price = level.price)
    (hAmount : taker.remainingAmount = level.amount)
    (hOthers : ∀ order ∈ db.restingOrders side, order.price = level.price →
      order.userId ≠ taker.userId) :
    (∀ order ∈ db.restingOrders side, order.price = level.price →
      db'.orders.find? order.id = some
        (if cost order.remainingAmount order.price = 0 then order else order.revised 0 .filled)) ∧
    ∃ later, db'.orders.find? taker.id = some later ∧ later.remainingAmount =
      (((db.restingOrders side).filter fun order =>
        order.price = level.price ∧ cost order.remainingAmount order.price = 0).map
          Order.remainingAmount).sum := by
  have hSettling := MatchingService.Settling.candidates hWell hTaker hQueued (List.prefix_refl _)
  have hPerm := Market.perm_makers hBest hSide hPrice hOthers
  have hLevel := (Market.mem_levels.mp (List.mem_of_mem_head? hBest)).2.1
  have hPlan : plan taker.remainingAmount (MatchingOrderBook.candidates db.orders.rows taker none) =
      ((makers db.orders.rows taker).filter fun maker =>
        cost maker.remainingAmount maker.price ≠ 0).map
          fun maker => (maker, maker.remainingAmount) := by
    have hSum : ((makers db.orders.rows taker).map Order.remainingAmount).sum =
        taker.remainingAmount := by
      rw [(hPerm.map _).sum_eq, hAmount, hLevel]
    rw [candidates_eq] at hSettling ⊢
    exact plan_of_sum_le (fun maker hMaker => (hSettling.maker_sound hMaker).remaining_nonneg)
      hSum.le
  have hMember : ∀ order ∈ db.restingOrders side, order.price = level.price →
      order ∈ makers db.orders.rows taker := fun order hOrder hAtLevel =>
    hPerm.mem_iff.mpr (List.mem_filter.mpr ⟨hOrder, decide_eq_true hAtLevel⟩)
  constructor
  · intro order hOrder hAtLevel
    have hMaker := hMember order hOrder hAtLevel
    have hFound : db.orders.find? order.id = some order :=
      hSettling.makers_found order (candidates_eq ▸ hMaker)
    have hId : order.id ≠ taker.id := by
      intro hEq
      rw [hEq, hTaker, Option.some.injEq] at hFound
      exact hOthers order hOrder hAtLevel (hFound ▸ rfl)
    rw [h.orders, hFound, Option.map_some, finalOrder, if_neg hId, matching_eq]
    dsimp only
    split_ifs with hDust
    · have hSkipped : (plan taker.remainingAmount
          (MatchingOrderBook.candidates db.orders.rows taker none)).find? (·.1.id = order.id) =
            none := by
        rw [hPlan, List.find?_eq_none]
        rintro fill hFill hKey
        obtain ⟨maker, hFiltered, rfl⟩ := List.mem_map.mp hFill
        obtain ⟨hListed, hWorth⟩ := List.mem_filter.mp hFiltered
        have hSame : maker = order := by
          have hStored := hSettling.makers_found maker (candidates_eq ▸ hListed)
          rw [of_decide_eq_true hKey, hFound, Option.some.injEq] at hStored
          exact hStored.symm
        exact of_decide_eq_true hWorth (hSame ▸ hDust)
      rw [hSkipped]
    · have hFill : (order, order.remainingAmount) ∈ plan taker.remainingAmount
          (MatchingOrderBook.candidates db.orders.rows taker none) := by
        rw [hPlan]
        exact List.mem_map.mpr ⟨order, List.mem_filter.mpr ⟨hMaker, decide_eq_true hDust⟩, rfl⟩
      rw [hSettling.find?_plan hFill]
      simp
  · refine ⟨finalTaker db.orders.rows taker, ?_, ?_⟩
    · rw [h.orders, hTaker, Option.map_some, finalOrder, if_pos rfl]
    · -- What the fills leave of the level is its dust.
      let atLevel := (db.restingOrders side).filter (·.price = level.price)
      have hSplit := List.sum_map_filter_add_sum_map_filter_not
        (fun order : Order => cost order.remainingAmount order.price = 0) Order.remainingAmount
        atLevel
      have hFilled : ((plan taker.remainingAmount
          (MatchingOrderBook.candidates db.orders.rows taker none)).map Prod.snd).sum =
          ((atLevel.filter fun order => ¬cost order.remainingAmount order.price = 0).map
            Order.remainingAmount).sum := by
        rw [hPlan, List.map_map]
        exact ((hPerm.filter _).map _).sum_eq
      have hDust : atLevel.filter (fun order => cost order.remainingAmount order.price = 0) =
          (db.restingOrders side).filter fun order =>
            order.price = level.price ∧ cost order.remainingAmount order.price = 0 := by
        rw [List.filter_filter]
        exact List.filter_congr fun order _ => by rw [← Bool.decide_and, Bool.decide_congr and_comm]
      rw [finalTaker, Order.revised_remainingAmount, matching_eq]
      dsimp only
      rw [hFilled, hAmount, hLevel, ← hDust]
      exact sub_eq_of_eq_add hSplit.symm

end Reference

namespace Database

variable {newDecimal : String → Option DecimalValue} {db db' : Database}

theorem exists_of_isOk {invocation : Invocation} (h : (db.call newDecimal invocation).isOk = true) :
    ∃ outcome db', db.call newDecimal invocation = .ok (outcome, db') := by
  cases hCall : db.call newDecimal invocation with
  | error failure =>
      rw [hCall] at h
      cases h
  | ok out => exact ⟨out.1, out.2, rfl⟩

/-- A new order is queued, so it is not in the book yet. -/
theorem restingOrders_stored {generated : Generated} {wallet : Wallet} {userId : UserId}
    {side bookSide : OrderSide} {amount price : Int}
    (hFresh : db.IsFresh (newOrder generated userId side amount price)) :
    (OrdersService.stored generated db wallet
      (newOrder generated userId side amount price)).restingOrders
      bookSide = db.restingOrders bookSide := by
  rw [toMarket_stored, Market.restingOrders_addOrder (Market.isFresh_putWallet.mpr hFresh) rfl]
  rfl

/-- A call that creates an order stores it as it was read. -/
theorem stored_of_createOrder (hWell : db.WellFormed) {userId : UserId} {side : OrderSide}
    {amountInput priceInput : String} {amount price : Int} {generated : Generated}
    {outcome : Outcome}
    (hRead : OrdersService.validateOrder newDecimal amountInput priceInput = .ok (amount, price))
    (hCall : db.call newDecimal ⟨.createOrder userId side amountInput priceInput, generated⟩ =
      .ok (outcome, db')) :
    ∃ wallet, db.IsFresh (newOrder generated userId side amount price) ∧
      db' = OrdersService.stored generated db wallet
        (newOrder generated userId side amount price) := by
  have hTransition := call_transition hWell hCall
  generalize hInvocation :
    (⟨.createOrder userId side amountInput priceInput, generated⟩ : Invocation) =
    invocation at hTransition
  cases hTransition with
  | @created _ _ _ _ _ _ _ wallet valid found fits fresh freshIntent =>
      cases hInvocation
      rw [hRead, Except.ok.injEq, Prod.mk.injEq] at valid
      obtain ⟨rfl, rfl⟩ := valid
      exact ⟨wallet, fresh, rfl⟩
  | skipped call notQueued =>
      rw [← hInvocation] at call
      rcases call with ⟨hProcess, _⟩ | hReject <;> contradiction
  | cancelled | matched | rejected => cases hInvocation

end Database

namespace History

open OrderForm ExchangePage

variable {construct : String → Option FormDecimal} {newDecimal : String → Option DecimalValue}
  {start : Database}

/-- An order that was created from a reachable state can be matched. -/
theorem created_matches (hOpening : start.Opening)
    (hTotal : ∀ asset, start.wallets.sum (·.total asset) ≤ decimalMax)
    (invocations : List Invocation)
    {userId : UserId} {side : OrderSide} {amountInput priceInput : String} {amount price : Int}
    (hRead : OrdersService.validateOrder newDecimal amountInput priceInput = .ok (amount, price))
    {generated : Generated} {outcome : Outcome} {created : Database}
    (hCreated : ((History.start start).calls newDecimal invocations).db.call newDecimal
      ⟨.createOrder userId side amountInput priceInput, generated⟩ = .ok (outcome, created))
    (later : Generated) :
    (∃ wallet, ((History.start start).calls newDecimal invocations).db.IsFresh
        (newOrder generated userId side amount price) ∧
      created = OrdersService.stored generated
        ((History.start start).calls newDecimal invocations).db wallet
        (newOrder generated userId side amount price)) ∧
      created.WellFormed ∧
      created.orders.find? generated.orderId = some (newOrder generated userId side amount price) ∧
      ∃ settled, created.call newDecimal ⟨.processOrder generated.orderId, later⟩ =
          .ok (.eventsStored true, settled) ∧
        Reference.Matched created settled (newOrder generated userId side amount price) := by
  obtain ⟨hWell, _⟩ := @solvent_of_opening newDecimal start hOpening hTotal invocations
  obtain ⟨hWellCreated, hSolvent⟩ := @solvent_of_opening newDecimal start hOpening hTotal
    (invocations ++ [⟨.createOrder userId side amountInput priceInput, generated⟩])
  rw [calls_append, calls_cons, calls_nil, History.call, hCreated] at hWellCreated hSolvent
  obtain ⟨wallet, hFresh, rfl⟩ := Database.stored_of_createOrder hWell hRead hCreated
  have hTaker := (@Database.orders_stored _ generated wallet _ hFresh generated.orderId).trans
    (if_pos rfl)
  exact ⟨⟨wallet, hFresh, rfl⟩, hWellCreated, hTaker,
    @Database.call_processOrder_matches newDecimal _
    hWellCreated hSolvent (newOrder generated userId side amount price) hTaker rfl later⟩

/-- A user who selects the best level of a side and submits the form takes the
level: the backend reads the amount and the price of the level back from what the
form accepts, and if the order can be placed, matching it fills every order of the
level and leaves of the level, and of the new order, only what is worth nothing.
The user has no order at the level. -/
theorem level_selected (hForm : ReadsNumerals construct .finite)
    (hApi : ReadsNumerals newDecimal .finite)
    (hOpening : start.Opening) (hTotal : ∀ asset, start.wallets.sum (·.total asset) ≤ decimalMax)
    (invocations : List Invocation) {side : OrderSide} {level : OrderBookLevel}
    (hBest : (((History.start start).calls newDecimal invocations).db.levels side).head? =
      some level)
    {userId : UserId}
    (hOthers : ∀ order ∈ ((History.start start).calls newDecimal invocations).db.restingOrders side,
      order.price = level.price → order.userId ≠ userId)
    {values : OrderFormValues}
    (hValues : orderFormSchema construct (handleLevelSelect level).2.amount
      (handleLevelSelect level).2.price = .ok values)
    {generated : Generated} {outcome : Outcome} {created : Database}
    (hCreated : ((History.start start).calls newDecimal invocations).db.call newDecimal
      ⟨.createOrder userId (handleLevelSelect level).1 values.amount values.price, generated⟩ =
        .ok (outcome, created)) (later : Generated) :
    OrdersService.validateOrder newDecimal values.amount values.price =
      .ok (level.amount, level.price) ∧
      ∃ settled, created.call newDecimal ⟨.processOrder generated.orderId, later⟩ =
        .ok (.eventsStored true, settled) ∧
      (∀ order ∈ ((History.start start).calls newDecimal invocations).db.restingOrders side,
        order.price = level.price → settled.orders.find? order.id =
          some (if cost order.remainingAmount order.price =
            0 then order else order.revised 0 .filled)) ∧
      ∃ taker, settled.orders.find? generated.orderId = some taker ∧ taker.remainingAmount =
        ((((History.start start).calls newDecimal invocations).db.restingOrders side).filter
          (fun order =>
          order.price = level.price ∧ cost order.remainingAmount order.price = 0) |>.map
            Order.remainingAmount).sum := by
  obtain ⟨hWell, _⟩ := @solvent_of_opening newDecimal start hOpening hTotal invocations
  obtain ⟨hPrices, hAmount, _, hLevelSide⟩ := Market.mem_levels.mp (List.mem_of_mem_head? hBest)
  have hSound :
      ∀ order ∈ ((History.start start).calls newDecimal invocations).db.restingOrders side,
      order.Sound := fun order hOrder =>
    hWell.orders order (Table.mem_def.mpr (List.mem_of_mem_filter hOrder))
  have hAmountNonneg : 0 ≤ level.amount := by
    rw [hAmount]
    refine List.sum_nonneg fun amount hMem => ?_
    obtain ⟨order, hOrder, rfl⟩ := List.mem_map.mp hMem
    exact (hSound order (List.mem_of_mem_filter hOrder)).remaining_nonneg
  have hPriceNonneg : 0 ≤ level.price := by
    obtain ⟨order, hOrder, hPrice⟩ := List.mem_map.mp hPrices
    exact hPrice ▸ (hSound order hOrder).price_pos.le
  have hRead : OrdersService.validateOrder newDecimal values.amount values.price =
      .ok (level.amount, level.price) := by
    refine @orderFormSchema_toDecimalString _ _ hForm hApi _ _ hAmountNonneg hPriceNonneg values ?_
    cases hSide : level.side <;> simpa [handleLevelSelect, hSide] using hValues
  obtain ⟨⟨wallet, hFresh, hStored⟩, hWellCreated, hTaker, settled, hSettled, hMatched⟩ :=
    created_matches hOpening hTotal invocations hRead hCreated later
  have hResting := @Database.restingOrders_stored _ generated wallet _ _ side _ _ hFresh
  rw [← hStored] at hResting
  rw [← hResting] at hOthers ⊢
  rw [← Market.levels_congr hResting] at hBest
  have hSide : (handleLevelSelect level).1 ≠ side := by
    rw [← hLevelSide]
    cases hSide : level.side <;> simp [handleLevelSelect, hSide]
  obtain ⟨hTaken, hLeft⟩ := hMatched.level_taken hWellCreated hTaker rfl hBest hSide rfl rfl hOthers
  exact ⟨hRead, settled, hSettled, hTaken, hLeft⟩

/-- The buyer of the sample selects what the seller offers. -/
theorem level_selected_sample :
    OrdersService.validateOrder OrderForm.Sample.newDecimal "1.00000000" "5.00000000" =
      .ok (one, 5 * one) ∧ ∃ settled : Database,
        settled.orders.find? "sell" =
          some ⟨"sell", 1, "seller", .sell, .filled, 5 * one, one, 0, 10⟩ ∧
      ∃ taker, settled.orders.find? "buy" = some taker ∧ taker.remainingAmount = 0 := by
  obtain ⟨outcome, created, hCreated⟩ := @Database.exists_of_isOk OrderForm.Sample.newDecimal
    ((History.start Sample.start).calls OrderForm.Sample.newDecimal (Sample.calls.take 2)).db
    ⟨.createOrder "buyer" .buy "1.00000000" "5.00000000", ⟨"buy", 2, "intent 2", 12⟩⟩
      (by decide +kernel)
  have hResting : ((History.start Sample.start).calls OrderForm.Sample.newDecimal
      (Sample.calls.take 2)).db.restingOrders .sell =
        [⟨"sell", 1, "seller", .sell, .opened, 5 * one, one, one, 10⟩] := by decide +kernel
  obtain ⟨hRead, settled, _, hTaken, hLeft⟩ :=
    @level_selected OrderForm.Sample.construct OrderForm.Sample.newDecimal
    Sample.start OrderForm.Sample.reads_construct OrderForm.Sample.reads_newDecimal Sample.opening
    Sample.total_le (Sample.calls.take 2) .sell ⟨5 * one, one, 1, .sell⟩ (by decide +kernel) "buyer"
    (by rw [hResting]; simp) ⟨"1.00000000", "5.00000000"⟩ (by decide +kernel)
    ⟨"buy", 2, "intent 2", 12⟩ outcome created hCreated ⟨"", 0, "", 13⟩
  rw [hResting] at hTaken hLeft
  refine ⟨hRead, settled, ?_, ?_⟩
  · exact (hTaken _ List.mem_cons_self rfl).trans (congrArg some (by decide))
  · obtain ⟨taker, hFound, hRemaining⟩ := hLeft
    exact ⟨taker, hFound, hRemaining.trans (by decide)⟩

end History
end ExchangeMatching
