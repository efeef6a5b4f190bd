import ExchangeMatching.LevelSelection
import ExchangeMatching.Uncrossed

/-! Asking for more. Had a user offered a better price or asked for a larger
amount, the order would have executed at least as much; and at a better price
the same fills would have come first. -/
namespace ExchangeMatching

open Paging SortedSearch MatchingOrderBook

/-- The second limit is at least as good for the other side. -/
def OrderSide.Concedes (side : OrderSide) (price price' : Int) : Prop :=
  match side with
  | .buy => price ≤ price'
  | .sell => price' ≤ price

instance (side : OrderSide) (price price' : Int) : Decidable (side.Concedes price price') :=
  match side with
  | .buy => inferInstanceAs (Decidable (price ≤ price'))
  | .sell => inferInstanceAs (Decidable (price' ≤ price))

/-- The second order asks for no less, at a limit that is no worse. -/
structure Order.Bolder (taker taker' : Order) : Prop where
  id : taker'.id = taker.id
  userId : taker'.userId = taker.userId
  side : taker'.side = taker.side
  amount : taker.remainingAmount ≤ taker'.remainingAmount
  price : taker.side.Concedes taker.price taker'.price

namespace MatchingService

/-- What is filled of a remaining amount. -/
def filled (remaining : Int) (makers : List Order) : Int :=
  ((plan remaining makers).map Prod.snd).sum

/-- More makers do not change the fills with the first ones. -/
theorem plan_prefix (remaining : Int) {makers makers' : List Order} (h : makers <+: makers') :
    plan remaining makers <+: plan remaining makers' := by
  obtain ⟨more, rfl⟩ := h
  induction makers generalizing remaining with
  | nil => exact List.nil_prefix
  | cons maker makers ih =>
      rw [List.cons_append, plan, plan]
      split_ifs
      · exact ih remaining
      · exact List.prefix_cons_inj _ |>.mpr (ih _)

/-- A larger amount is filled at least as far, although it may take another way
through the makers. -/
theorem filled_mono {remaining remaining' : Int} {makers : List Order} (hRemaining : 0 ≤ remaining)
    (hMore : remaining ≤ remaining') (hSound : ∀ maker ∈ makers, maker.Sound) :
    filled remaining makers ≤ filled remaining' makers := by
  induction makers generalizing remaining remaining' with
  | nil => exact le_refl _
  | cons maker makers ih =>
      have hMaker := hSound maker List.mem_cons_self
      have hRest := fun other hOther => hSound other (List.mem_cons_of_mem maker hOther)
      have hLess : min remaining maker.remainingAmount ≤
          min remaining' maker.remainingAmount := by omega
      have hNonneg := hMaker.remaining_nonneg
      have hCost := @cost_mono _ _ _ hLess (by omega) hMaker.price_pos.le
      have hCostNonneg := @cost_nonneg (min remaining maker.remainingAmount) maker.price (by omega)
        hMaker.price_pos.le
      unfold filled at ih ⊢
      rw [plan, plan]
      split_ifs with hDust hDust' hDust'
      · exact ih hRemaining hMore hRest
      · -- The larger amount is worth a fill that is more than all the smaller one has left.
        have hLast := plan_sum_bounds hRemaining hRest
        have hOther := @plan_sum_bounds (remaining' - min remaining' maker.remainingAmount) makers
          (by omega) hRest
        have hStrict : min remaining maker.remainingAmount <
            min remaining' maker.remainingAmount := by
          refine lt_of_le_of_ne hLess fun hEq => hDust' ?_
          rw [← hEq, hDust]
        rw [List.map_cons, List.sum_cons]
        omega
      · omega
      · have hNext := @ih (remaining - min remaining maker.remainingAmount)
          (remaining' - min remaining' maker.remainingAmount) (by omega) (by omega) hRest
        rw [List.map_cons, List.sum_cons, List.map_cons, List.sum_cons]
        omega

end MatchingService

namespace Order.Bolder

variable {taker taker' maker : Order}

theorem candidateOrder_eq (h : taker.Bolder taker') :
    candidateOrder taker' = candidateOrder taker := by
  funext left right
  rw [candidateOrder, candidateOrder, h.side]

/-- What crosses the worse limit crosses the better one. -/
theorem crosses (h : taker.Bolder taker') (hMaker : Reference.crosses taker maker = true) :
    Reference.crosses taker' maker = true := by
  have hPrice := h.price
  rw [Reference.crosses, Bool.and_eq_true] at hMaker ⊢
  rw [h.userId, h.side]
  refine ⟨hMaker.1, ?_⟩
  have hCrosses := hMaker.2
  cases hSide : taker.side <;>
    simp only [hSide, OrderSide.Concedes, decide_eq_true_eq] at hPrice hCrosses ⊢ <;>
    omega

/-- Of the makers that cross the better limit, those that cross the worse one
come first. -/
theorem crosses_of_before (h : taker.Bolder taker') {left right : Order}
    (hLeft : Reference.crosses taker' left = true)
    (hBefore : candidateOrder taker left right = true)
    (hRight : Reference.crosses taker right = true) : Reference.crosses taker left = true := by
  rw [Reference.crosses, Bool.and_eq_true] at hLeft hRight ⊢
  rw [h.userId, h.side] at hLeft
  refine ⟨hLeft.1, ?_⟩
  have hCrosses := hRight.2
  revert hBefore hCrosses
  simp only [candidateOrder, Bool.or_eq_true, Bool.and_eq_true, decide_eq_true_eq]
  cases taker.side <;> simp <;> omega

theorem candidates_prefix (h : taker.Bolder taker') {rows rows' : List Order}
    (hUntied : Untied (candidateOrder taker · ·) rows')
    (hRows : (rows.filter (Reference.crosses taker)).Perm
      (rows'.filter (Reference.crosses taker))) :
    candidates rows taker none <+: candidates rows' taker' none := by
  rw [candidates, candidates, Reference.candidateCondition_none, Reference.candidateCondition_none,
    h.candidateOrder_eq, insertionSort_congr (hUntied.filter _) hRows]
  have hNarrow : rows'.filter (Reference.crosses taker) =
      (rows'.filter (Reference.crosses taker')).filter (Reference.crosses taker) := by
    rw [List.filter_filter]
    refine List.filter_congr fun maker _ => ?_
    rw [Bool.eq_iff_iff, Bool.and_eq_true]
    exact ⟨fun hMaker => ⟨hMaker, h.crosses hMaker⟩, And.left⟩
  rw [hNarrow, insertionSort_filter (hUntied.filter _)]
  refine filter_prefix (List.pairwise_insertionSort _ _) fun left hLeft right _ hBefore hRight => ?_
  rw [List.mem_insertionSort] at hLeft
  exact h.crosses_of_before (List.mem_filter.mp hLeft).2 hBefore hRight

end Order.Bolder

namespace Reference

open MatchingService

variable {db db' settled settled' : Database} {taker taker' : Order}

/-- Against the same orders of others a bolder taker is filled as far or
further, and by the same fills first if it only has the better limit. -/
theorem filled_of_bolder (hWell : db.WellFormed) (hWell' : db'.WellFormed)
    (hTaker : db.orders.find? taker.id = some taker)
    (hTaker' : db'.orders.find? taker'.id = some taker')
    (hBolder : taker.Bolder taker')
    (hOthers : ∀ id ≠ taker.id, db'.orders.find? id = db.orders.find? id) :
    filled taker.remainingAmount (candidates db.orders.rows taker none) ≤
        filled taker'.remainingAmount (candidates db'.orders.rows taker' none) ∧
      (taker.remainingAmount = taker'.remainingAmount →
        plan taker.remainingAmount (candidates db.orders.rows taker none) <+:
          plan taker'.remainingAmount (candidates db'.orders.rows taker' none)) := by
  have hRows : (db.orders.rows.filter (crosses taker)).Perm
      (db'.orders.rows.filter (crosses taker)) := by
    refine Table.perm_filter fun maker hMaker => ?_
    have hUser : maker.userId ≠ taker.userId := by
      simp only [crosses, Bool.and_eq_true, decide_eq_true_eq] at hMaker
      exact hMaker.1.1.1
    by_cases hId : maker.id = taker.id
    · constructor
      · intro hMem
        have hFound := Table.find?_of_mem hMem
        rw [hId, hTaker, Option.some.injEq] at hFound
        exact absurd (hFound ▸ rfl) hUser
      · intro hMem
        have hFound := Table.find?_of_mem hMem
        rw [hId, ← hBolder.id, hTaker', Option.some.injEq] at hFound
        exact absurd (hFound ▸ hBolder.userId) hUser
    · have hSame := hOthers maker.id hId
      constructor
      · intro hMem
        exact Table.mem_of_find? (hSame.trans (Table.find?_of_mem hMem))
      · intro hMem
        exact Table.mem_of_find? (hSame.symm.trans (Table.find?_of_mem hMem))
  have hPrefix := hBolder.candidates_prefix (untied_orders db'.toMarket) hRows
  have hRemaining := (hWell.orders taker (Table.mem_of_find? hTaker)).remaining_nonneg
  have hSound : ∀ maker ∈ candidates db'.orders.rows taker' none, maker.Sound := fun maker hMaker =>
    hWell'.orders maker (Table.mem_def.mpr (mem_candidates.mp hMaker).1)
  have hFills := plan_prefix taker.remainingAmount hPrefix
  refine ⟨?_, fun hAmount => hAmount ▸ hFills⟩
  refine le_trans ?_ (filled_mono hRemaining hBolder.amount hSound)
  obtain ⟨more, hMore⟩ := hFills
  have hNonneg : 0 ≤ (more.map Prod.snd).sum := by
    refine List.sum_nonneg fun amount hAmount => ?_
    obtain ⟨fill, hFill, rfl⟩ := List.mem_map.mp hAmount
    exact (plan_pos hRemaining (fun maker hMaker => (hSound maker hMaker).remaining_nonneg) fill
      (hMore ▸ List.mem_append_right _ hFill)).le
  rw [filled, filled, ← hMore, List.map_append, List.sum_append]
  omega

/-- The taker after matching. -/
theorem Matched.find?_taker (h : Matched db settled taker)
    (hTaker : db.orders.find? taker.id = some taker) :
    ∃ order, settled.orders.find? taker.id = some order ∧ order.remainingAmount =
      taker.remainingAmount - filled taker.remainingAmount
        (candidates db.orders.rows taker none) := by
  refine ⟨_, by rw [h.orders, hTaker, Option.map_some], ?_⟩
  rw [finalOrder, if_pos rfl, finalTaker, Order.revised_remainingAmount, matching_eq]
  rfl

end Reference

namespace History

variable {newDecimal : String → Option DecimalValue} {start : Database}

/-- A bolder order never executes less. Had an order been created for no smaller
an amount and at no worse a limit, matching it would have executed at least as
much; and if only the limit was better, its trades would have begun with the
same ones. -/
theorem bolder_executes_more (hOpening : start.Opening)
    (hTotal : ∀ asset, start.wallets.sum (·.total asset) ≤ decimalMax)
    (invocations : List Invocation)
    {userId : UserId} {side : OrderSide} {amountInput priceInput amountInput' priceInput' : String}
    {amount price amount' price' : Int}
    (hRead : OrdersService.validateOrder newDecimal amountInput priceInput = .ok (amount, price))
    (hRead' : OrdersService.validateOrder newDecimal amountInput' priceInput' =
      .ok (amount', price'))
    (hAmount : amount ≤ amount') (hPrice : side.Concedes price price') {generated : Generated}
    {outcome outcome' : Outcome} {created created' : Database}
    (hCreated : ((History.start start).calls newDecimal invocations).db.call newDecimal
      ⟨.createOrder userId side amountInput priceInput, generated⟩ = .ok (outcome, created))
    (hCreated' : ((History.start start).calls newDecimal invocations).db.call newDecimal
      ⟨.createOrder userId side amountInput' priceInput', generated⟩ = .ok (outcome', created'))
    (later : Generated) :
    ∃ settled settled' order order',
      created.call newDecimal ⟨.processOrder generated.orderId, later⟩ =
        .ok (.eventsStored true, settled) ∧
      created'.call newDecimal ⟨.processOrder generated.orderId, later⟩ =
        .ok (.eventsStored true, settled') ∧
      settled.orders.find? generated.orderId = some order ∧
      settled'.orders.find? generated.orderId = some order' ∧
      amount - order.remainingAmount ≤ amount' - order'.remainingAmount ∧
      (amount = amount' →
        settled.trades.map
          (fun trade => (trade.makerOrderId, trade.takerOrderId, trade.amount, trade.price)) <+:
          settled'.trades.map
            (fun trade =>
              (trade.makerOrderId, trade.takerOrderId, trade.amount, trade.price))) := by
  obtain ⟨⟨wallet, hFresh, hStored⟩, hWell, hTaker, settled, hSettled, hMatched⟩ :=
    created_matches hOpening hTotal invocations hRead hCreated later
  obtain ⟨⟨wallet', hFresh', hStored'⟩, hWell', hTaker', settled', hSettled', hMatched'⟩ :=
    created_matches hOpening hTotal invocations hRead' hCreated' later
  have hBolder : (newOrder generated userId side amount price).Bolder
      (newOrder generated userId side amount' price') := ⟨rfl, rfl, rfl, hAmount, hPrice⟩
  have hOthers : ∀ id ≠ generated.orderId, created'.orders.find? id = created.orders.find? id := by
    intro id hId
    rw [hStored, hStored', Database.orders_stored hFresh, Database.orders_stored hFresh']
    exact (if_neg hId).trans (if_neg hId).symm
  have hTrades : created'.trades = created.trades := by
    rw [hStored, hStored', Database.toMarket_stored, Database.toMarket_stored,
      Market.trades_addOrder, Market.trades_addOrder]
    rfl
  obtain ⟨hFilled, hFirst⟩ := Reference.filled_of_bolder hWell hWell' hTaker hTaker' hBolder hOthers
  obtain ⟨order, hOrder, hLeft⟩ := hMatched.find?_taker hTaker
  obtain ⟨order', hOrder', hLeft'⟩ := hMatched'.find?_taker hTaker'
  refine ⟨settled, settled', order, order', hSettled, hSettled', hOrder, hOrder', ?_,
    fun hSame => ?_⟩
  · have hOriginal : (newOrder generated userId side amount price).remainingAmount = amount := rfl
    have hOriginal' : (newOrder generated userId side amount' price').remainingAmount =
      amount' := rfl
    omega
  · rw [hMatched.trades, hMatched'.trades, hTrades, Reference.matching_eq, Reference.matching_eq]
    exact (List.prefix_append_right_inj _).mpr ((hFirst hSame).map _)

/-- What the seller of the sample offers at 5 is not for a buyer who bids 2. -/
theorem bolder_executes_more_sample : ∃ (settled settled' : Database) (order order' : Order),
    settled.orders.find? "buy" = some order ∧ settled'.orders.find? "buy" = some order' ∧
    2 * one - order.remainingAmount ≤ 2 * one - order'.remainingAmount ∧
    settled.trades.map
      (fun trade => (trade.makerOrderId, trade.takerOrderId, trade.amount, trade.price)) <+:
      settled'.trades.map
        (fun trade => (trade.makerOrderId, trade.takerOrderId, trade.amount, trade.price)) := by
  obtain ⟨_, _, hCreated⟩ := @Database.exists_of_isOk Sample.newDecimal
    ((History.start Sample.start).calls Sample.newDecimal (Sample.calls.take 2)).db
    ⟨.createOrder "buyer" .buy "2" "2", ⟨"buy", 2, "intent 2", 12⟩⟩ (by decide +kernel)
  obtain ⟨_, _, hCreated'⟩ := @Database.exists_of_isOk Sample.newDecimal
    ((History.start Sample.start).calls Sample.newDecimal (Sample.calls.take 2)).db
    ⟨.createOrder "buyer" .buy "2" "5", ⟨"buy", 2, "intent 2", 12⟩⟩ (by decide +kernel)
  obtain ⟨settled, settled', order, order', _, _, hOrder, hOrder', hExecuted, hFirst⟩ :=
    @bolder_executes_more Sample.newDecimal Sample.start Sample.opening Sample.total_le
      (Sample.calls.take 2) "buyer" .buy "2" "2" "2" "5" (2 * one) (2 * one) (2 * one) (5 * one)
        (by decide +kernel)
      (by decide +kernel) le_rfl (by decide) ⟨"buy", 2, "intent 2", 12⟩ _ _ _ _ hCreated hCreated'
      ⟨"", 0, "", 13⟩
  exact ⟨settled, settled', order, order', hOrder, hOrder', hExecuted, hFirst rfl⟩

end History
end ExchangeMatching
