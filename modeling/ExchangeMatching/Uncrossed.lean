import ExchangeMatching.Effects
import ExchangeMatching.Lifecycle

/-! The book is never left crossed. Of two resting orders whose prices cross,
the later one met the earlier one when it was matched, and what both had left
then was worth nothing at the earlier order's price. Remainders only shrink, so
it stays worth nothing. -/
namespace ExchangeMatching

open Transactions

namespace History

/-- The orders whose `processOrder` committed, in the order of the commits. -/
def processed (history : History) : List OrderId :=
  history.log.filterMap fun committed =>
    match committed.call with
    | .processOrder id => some id
    | _ => none

/-- Of two orders, the one whose `processOrder` committed first. -/
def firstProcessed (history : History) (id other : OrderId) : Option OrderId :=
  history.processed.find? fun candidate => candidate = id ∨ candidate = other

end History

/-- The limits of two orders of different sides allow a trade. -/
def Order.Crosses (order other : Order) : Prop :=
  match order.side with
  | .buy => other.side = .sell ∧ other.price ≤ order.price
  | .sell => other.side = .buy ∧ order.price ≤ other.price

theorem Order.Crosses.symm {order other : Order} (h : order.Crosses other) :
    other.Crosses order := by
  unfold Crosses at *
  cases hSide : order.side <;> rw [hSide] at h <;> rw [h.1]
  · exact ⟨rfl, h.2⟩
  · exact ⟨rfl, h.2⟩

namespace MatchingService

/-- The plan takes no more than there is. -/
theorem plan_sum_bounds {remaining : Int} {makers : List Order} (hRemaining : 0 ≤ remaining)
    (hSound : ∀ maker ∈ makers, maker.Sound) :
    0 ≤ ((plan remaining makers).map Prod.snd).sum ∧
      ((plan remaining makers).map Prod.snd).sum ≤ remaining := by
  induction makers generalizing remaining with
  | nil => exact ⟨le_refl _, hRemaining⟩
  | cons maker makers ih =>
      have hMaker := (hSound maker List.mem_cons_self).remaining_nonneg
      have hRest := fun other hOther => hSound other (List.mem_cons_of_mem maker hOther)
      rw [plan]
      split_ifs
      · exact ih hRemaining hRest
      · have hBounds := @ih (remaining - min remaining maker.remainingAmount) (by omega) hRest
        rw [List.map_cons, List.sum_cons]
        omega

/-- A maker that the plan passes is used up, meets a taker that is used up, or
has nothing of worth left for it. -/
theorem plan_exhausts {remaining : Int} {makers : List Order} (hRemaining : 0 ≤ remaining)
    (hSound : ∀ maker ∈ makers, maker.Sound) {maker : Order} (hMaker : maker ∈ makers) :
    remaining - ((plan remaining makers).map Prod.snd).sum = 0 ∨
      (maker, maker.remainingAmount) ∈ plan remaining makers ∨
      cost (min (remaining - ((plan remaining makers).map Prod.snd).sum) maker.remainingAmount)
        maker.price = 0 := by
  induction makers generalizing remaining with
  | nil => cases hMaker
  | cons head makers ih =>
      have hHead := hSound head List.mem_cons_self
      have hHeadNonneg := hHead.remaining_nonneg
      have hRest := fun other hOther => hSound other (List.mem_cons_of_mem head hOther)
      rw [plan]
      split_ifs with hDust
      · rcases List.mem_cons.mp hMaker with rfl | hMaker
        · -- What is left of the taker later is worth no more than it was here.
          have hBounds := plan_sum_bounds hRemaining hRest
          have hSmaller := @cost_mono (min remaining maker.remainingAmount)
            (min (remaining - ((plan remaining makers).map Prod.snd).sum) maker.remainingAmount)
            maker.price (by omega) (by omega) hHead.price_pos.le
          have hNonneg := @cost_nonneg
            (min (remaining - ((plan remaining makers).map Prod.snd).sum) maker.remainingAmount)
            maker.price (by omega) hHead.price_pos.le
          exact Or.inr (Or.inr (by omega))
        · exact ih hRemaining hRest hMaker
      · rw [List.map_cons, List.sum_cons, ← sub_sub]
        rcases List.mem_cons.mp hMaker with rfl | hMaker
        · by_cases hFilled : maker.remainingAmount ≤ remaining
          · rw [min_eq_right hFilled]
            exact Or.inr (Or.inl List.mem_cons_self)
          · rw [min_eq_left (by omega), sub_self,
              plan_zero fun other hOther => (hRest other hOther).remaining_nonneg]
            exact Or.inl rfl
        · rcases @ih (remaining - min remaining head.remainingAmount) (by omega) hRest hMaker with
            hZero | hFilled | hWorthless
          · exact Or.inl hZero
          · exact Or.inr (Or.inl (List.mem_cons_of_mem _ hFilled))
          · exact Or.inr (Or.inr hWorthless)

end MatchingService

/-- Nothing of worth can be traded between two orders at the first one's price. -/
def Order.Worthless (order other : Order) : Prop :=
  cost (min order.remainingAmount other.remainingAmount) order.price = 0

/-- What is worth nothing stays worth nothing while remainders shrink. -/
theorem Order.Worthless.of_leads {order other order' other' : Order} (h : order.Worthless other)
    (hOrder : order.Leads order') (hOther : other.Leads other') (hSound : order'.Sound)
    (hOtherSound : other'.Sound) : order'.Worthless other' := by
  have hPrice : order'.price = order.price := by rw [hOrder.kept, Order.revised_price]
  have hNonneg := hSound.remaining_nonneg
  have hOtherNonneg := hOtherSound.remaining_nonneg
  have hShrunk := hOrder.remaining
  have hOtherShrunk := hOther.remaining
  have hLess := @cost_mono (min order.remainingAmount other.remainingAmount)
    (min order'.remainingAmount other'.remainingAmount) order'.price (by omega) (by omega)
    hSound.price_pos.le
  have hCost := @cost_nonneg (min order'.remainingAmount other'.remainingAmount) order'.price
    (by omega) hSound.price_pos.le
  unfold Worthless at *
  rw [hPrice] at *
  omega

namespace Reference

open MatchingService MatchingOrderBook

variable {db db' : Database} {taker order : Order}

/-- A resting order of another user that crosses the taker is a candidate. -/
theorem mem_candidates_of_crosses (hOrder : db.orders.find? order.id = some order)
    (hResting : order.status.isResting = true) (hUsers : order.userId ≠ taker.userId)
    (hCrosses : taker.Crosses order) : order ∈ candidates db.orders.rows taker none := by
  rw [candidates_eq, makers, List.mem_insertionSort, List.mem_filter]
  refine ⟨Table.mem_def.mp (Table.mem_of_find? hOrder), ?_⟩
  unfold Order.Crosses at hCrosses
  unfold crosses
  cases hSide : taker.side <;> rw [hSide] at hCrosses <;> simp [hUsers, hResting, hCrosses]

/-- After matching, a resting order that crosses a taker that now rests has
nothing of worth left for it. -/
theorem Matched.worthless (h : Matched db db' taker) (hWell : db.WellFormed)
    (hWell' : db'.WellFormed)
    (hTaker : db.orders.find? taker.id = some taker) (hQueued : taker.status = .queued)
    {taker' order' : Order} (hTaker' : db'.orders.find? taker.id = some taker')
    (hResting' : taker'.status.isResting = true)
    (hOrder : db.orders.find? order.id = some order) (hResting : order.status.isResting = true)
    (hOrder' : db'.orders.find? order.id = some order') (hStill : order'.status.isResting = true)
    (hLeads : order.Leads order') (hUsers : order.userId ≠ taker.userId)
    (hCrosses : taker.Crosses order) : order'.Worthless taker' := by
  have hSettling := MatchingService.Settling.candidates hWell hTaker hQueued (List.prefix_refl _)
  have hSound := hWell.orders taker (Table.mem_of_find? hTaker)
  have hCandidate := mem_candidates_of_crosses hOrder hResting hUsers hCrosses
  have hMatching := @matching_eq db.orders.rows taker
  have hTakerRow : taker' = finalTaker db.orders.rows taker := by
    have hRow := h.orders taker.id
    rw [hTaker', hTaker, Option.map_some, finalOrder, if_pos rfl, Option.some.injEq] at hRow
    exact hRow
  have hId : order.id ≠ taker.id := by
    intro hEq
    rw [hEq, hTaker, Option.some.injEq] at hOrder
    exact hUsers (hOrder ▸ rfl)
  have hOrderRow : order' = finalOrder db.orders.rows taker order := by
    have hRow := h.orders order.id
    rw [hOrder', hOrder, Option.map_some, Option.some.injEq] at hRow
    exact hRow
  have hLeft : taker'.remainingAmount = taker.remainingAmount -
      ((plan taker.remainingAmount (candidates db.orders.rows taker none)).map Prod.snd).sum := by
    rw [hTakerRow, finalTaker, hMatching, Order.revised_remainingAmount]
  rcases plan_exhausts hSound.remaining_nonneg (fun maker hMaker => hSettling.maker_sound hMaker)
    hCandidate with hZero | hFilled | hWorthless
  · -- A taker that is used up and still rests would have had nothing to begin with.
    have hPos := hSound.remaining_pos (by rw [hQueued]; rfl)
    rw [hTakerRow, finalTaker, hMatching] at hResting'
    dsimp only at hResting'
    rw [hZero] at hResting'
    simp only [Order.revised_status, if_true] at hResting'
    split_ifs at hResting' with hNone
    · rw [hNone, List.map_nil, List.sum_nil] at hZero
      omega
    · cases hResting'
  · -- A maker that is used up does not rest any more.
    have hFound : (plan taker.remainingAmount (candidates db.orders.rows taker none)).find?
        (·.1.id = order.id) = some (order, order.remainingAmount) := hSettling.find?_plan hFilled
    rw [hOrderRow, finalOrder, if_neg hId, hMatching] at hStill
    dsimp only at hStill
    rw [hFound] at hStill
    simp [OrderStatus.isResting] at hStill
  · -- What was worth nothing next to the final taker still is after its own fill.
    have hOrderSound := hWell'.orders order' (Table.mem_of_find? hOrder')
    have hTakerSound := hWell'.orders taker' (Table.mem_of_find? hTaker')
    have hBefore : order.Worthless taker' := by
      rw [Order.Worthless, min_comm, hLeft]
      exact hWorthless
    exact hBefore.of_leads hLeads (.refl taker') hOrderSound hTakerSound

/-- An order that rests after matching rested before, unless it is the taker. -/
theorem Matched.resting_before (h : Matched db db' taker) (hWell : db.WellFormed)
    (hTaker : db.orders.find? taker.id = some taker) (hQueued : taker.status = .queued)
    (hId : order.id ≠ taker.id) (hOrder : db.orders.find? order.id = some order)
    {order' : Order} (hOrder' : db'.orders.find? order.id = some order')
    (hResting' : order'.status.isResting = true) : order.status.isResting = true := by
  have hSettling := MatchingService.Settling.candidates hWell hTaker hQueued (List.prefix_refl _)
  have hMatching := @matching_eq db.orders.rows taker
  have hRow := h.orders order.id
  rw [hOrder', hOrder, Option.map_some, Option.some.injEq, finalOrder, if_neg hId, hMatching]
    at hRow
  dsimp only at hRow
  cases hFind : (plan taker.remainingAmount (candidates db.orders.rows taker none)).find?
      (·.1.id = order.id) with
  | none =>
      rw [hFind] at hRow
      exact (show order' = order from hRow) ▸ hResting'
  | some fill =>
      have hKey : fill.1.id = order.id := by simpa using List.find?_some hFind
      have hMaker : fill.1 ∈ candidates db.orders.rows taker none :=
        maker_of_mem_plan (List.mem_of_find?_eq_some hFind)
      have hFound := hSettling.makers_found fill.1 hMaker
      rw [hKey, hOrder, Option.some.injEq] at hFound
      exact hFound ▸ isResting_of_candidateCondition (mem_candidates.mp hMaker).2

end Reference

namespace Database.Effect

variable {db db' : Database} {invocation : Invocation} {id : OrderId} {order' : Order}

/-- An order that rests after a call rested before, or the call has just
matched it. -/
theorem resting_before (h : db.Effect invocation db') (hWell : db.WellFormed)
    (hEvolves : Market.Evolves db.toMarket db'.toMarket)
    (hOrder' : db'.orders.find? id = some order') (hResting' : order'.status.isResting = true) :
    (∃ order, db.orders.find? id = some order ∧ order.status.isResting = true ∧
      order.Leads order') ∨ ∃ taker, id = taker.id ∧ invocation.call = .processOrder taker.id ∧
        db.orders.find? taker.id = some taker ∧ taker.status = .queued ∧
        Reference.Matched db db' taker := by
  have hSame : db.orders.find? id = some order' → ∃ order, db.orders.find? id = some order ∧
      order.status.isResting = true ∧ order.Leads order' :=
    fun hOrder => ⟨order', hOrder, hResting', .refl order'⟩
  cases h with
  | created order hId fresh queued orders intents notMatching =>
      rw [orders] at hOrder'
      split_ifs at hOrder'
      · cases hOrder'
        rw [queued] at hResting'
        cases hResting'
      · exact Or.inl (hSame hOrder')
  | closed order status found active inactive orders intents notMatching =>
      rw [orders] at hOrder'
      split_ifs at hOrder'
      · cases hOrder'
        rw [Order.revised_status] at hResting'
        rw [OrderStatus.isActive_of_isResting hResting'] at inactive
        cases inactive
      · exact Or.inl (hSame hOrder')
  | skipped skippedId call notQueued same => exact Or.inl (hSame (same ▸ hOrder'))
  | matched taker call found queued matched intents =>
      by_cases hId : id = taker.id
      · exact Or.inr ⟨taker, hId, call, found, queued, matched⟩
      · cases hOrder : db.orders.find? id with
        | none =>
            rw [matched.orders, hOrder] at hOrder'
            cases hOrder'
        | some order =>
            obtain rfl := Table.key_of_find? hOrder
            obtain ⟨later, hLater, hLeads⟩ := hEvolves.leads hOrder
            rw [hOrder', Option.some.injEq] at hLater
            exact Or.inl ⟨order, rfl,
              matched.resting_before hWell found queued hId hOrder hOrder' hResting',
              hLater ▸ hLeads⟩

/-- An order is not queued any more once its `processOrder` has committed. -/
theorem processed_not_queued (h : db.Effect invocation db')
    (hCall : invocation.call = .processOrder id) :
    ∃ order, db'.orders.find? id = some order ∧ order.status ≠ .queued := by
  cases h with
  | created order hId fresh queued orders intents notMatching => exact absurd hCall (notMatching id)
  | closed order status found active inactive orders intents notMatching =>
      exact absurd hCall (notMatching id)
  | skipped skippedId call notQueued same =>
      rcases call with ⟨hProcess, hFound⟩ | hReject
      · obtain rfl : skippedId = id := Call.processOrder.inj (hProcess.symm.trans hCall)
        obtain ⟨order, hOrder⟩ := Option.ne_none_iff_exists'.mp hFound
        exact ⟨order, same ▸ hOrder, notQueued order hOrder⟩
      · rw [hReject] at hCall
        cases hCall
  | matched taker call found queued matched intents =>
      obtain rfl : taker.id = id := Call.processOrder.inj (call.symm.trans hCall)
      refine ⟨Reference.finalTaker db.orders.rows taker, ?_, ?_⟩
      · rw [matched.orders, found, Option.map_some, Reference.finalOrder, if_pos rfl]
      · rw [Reference.finalTaker, Order.revised_status]
        split_ifs <;> decide

end Database.Effect

namespace History

/-- Of any two resting orders that cross, the one matched first has left
nothing of worth to trade at its price. -/
structure Uncrossed (history : History) : Prop where
  wellFormed : history.db.WellFormed
  processed : ∀ id ∈ history.processed, ∃ order,
    history.db.orders.find? id = some order ∧ order.status ≠ .queued
  resting : ∀ id order, history.db.orders.find? id = some order → order.status.isResting = true →
    id ∈ history.processed
  worthless : ∀ id order, history.db.orders.find? id = some order →
    order.status.isResting = true →
    ∀ otherId other, history.db.orders.find? otherId = some other →
      other.status.isResting = true →
    order.userId ≠ other.userId → order.Crosses other →
    history.firstProcessed id otherId = some id → order.Worthless other

variable {newDecimal : String → Option DecimalValue} {history : History} {committed : Committed}
  {db' : Database}

theorem processed_append : (History.mk (history.log ++ [committed]) db').processed =
    history.processed ++ match committed.call with
      | .processOrder id => [id]
      | _ => [] := by
  unfold processed
  rw [List.filterMap_append]
  cases hCall : committed.call <;> simp [hCall]

/-- Which of two orders was first does not change once one of them is processed. -/
theorem firstProcessed_append {id other : OrderId} (h : other ∈ history.processed) :
    (History.mk (history.log ++ [committed]) db').firstProcessed id other =
      history.firstProcessed id other := by
  unfold firstProcessed
  rw [processed_append, List.find?_append]
  cases hFound : history.processed.find? fun candidate => candidate = id ∨ candidate = other with
  | none => simpa using List.find?_eq_none.mp hFound other h
  | some first => rfl

theorem firstProcessed_comm {id other : OrderId} :
    history.firstProcessed id other = history.firstProcessed other id := by
  unfold firstProcessed
  congr 1
  funext candidate
  simp only [or_comm]

/-- A committed call keeps the book uncrossed. -/
theorem Uncrossed.call (h : history.Uncrossed) {invocation : Invocation} {outcome : Outcome}
    (hCall : history.db.call newDecimal invocation = .ok (outcome, db')) :
    Uncrossed ⟨history.log ++ [⟨invocation, outcome⟩], db'⟩ := by
  have hEvolves := Database.call_evolves h.wellFormed hCall
  have hEffect := Database.call_effect h.wellFormed hCall
  have hWell' := (hEvolves.induction h.wellFormed trivial fun _ _ _ _ _ => trivial).1
  refine ⟨hWell', ?_, ?_, ?_⟩
  · intro id hId
    rw [processed_append, List.mem_append] at hId
    rcases hId with hOld | hNew
    · obtain ⟨order, hOrder, hStatus⟩ := h.processed id hOld
      obtain ⟨later, hLater, hLeads⟩ := hEvolves.leads hOrder
      exact ⟨later, hLater, hLeads.becomes.queue hStatus⟩
    · split at hNew
      · next matched hMatching =>
        obtain rfl := List.mem_singleton.mp hNew
        exact hEffect.processed_not_queued hMatching
      · cases hNew
  · intro id order' hOrder' hResting'
    rw [processed_append, List.mem_append]
    rcases hEffect.resting_before h.wellFormed hEvolves hOrder' hResting' with
      ⟨order, hOrder, hResting, _⟩ | ⟨taker, rfl, hTaker, _⟩
    · exact Or.inl (h.resting id order hOrder hResting)
    · exact Or.inr (by simp [hTaker])
  · intro id order' hOrder' hResting' otherId other' hOther' hOtherResting' hUsers hCrosses hFirst
    rcases hEffect.resting_before h.wellFormed hEvolves hOther' hOtherResting' with
      ⟨other, hOther, hOtherResting, hOtherLeads⟩ | ⟨taker, rfl, hTaker, hFound, hQueued,
        hMatched⟩
    · have hProcessed := h.resting otherId other hOther hOtherResting
      rw [firstProcessed_append hProcessed] at hFirst
      rcases hEffect.resting_before h.wellFormed hEvolves hOrder' hResting' with
        ⟨order, hOrder, hResting, hLeads⟩ | ⟨taker, rfl, hTaker, hFound, hQueued, hMatched⟩
      · refine (h.worthless id order hOrder hResting otherId other hOther hOtherResting ?_ ?_
          hFirst).of_leads hLeads hOtherLeads (hWell'.orders _ (Table.mem_of_find? hOrder'))
          (hWell'.orders _ (Table.mem_of_find? hOther'))
        · rwa [hLeads.kept, hOtherLeads.kept] at hUsers
        · rwa [hLeads.kept, hOtherLeads.kept] at hCrosses
      · -- The taker was still queued, so its `processOrder` had not committed before.
        obtain ⟨order, hOrder, hStatus⟩ := h.processed taker.id (List.mem_of_find?_eq_some hFirst)
        rw [hFound, Option.some.injEq] at hOrder
        exact absurd (hOrder ▸ hQueued) hStatus
    · rcases hEffect.resting_before h.wellFormed hEvolves hOrder' hResting' with
        ⟨order, hOrder, hResting, hLeads⟩ | ⟨taker', rfl, hTaker', _⟩
      · obtain rfl := Table.key_of_find? hOrder
        obtain ⟨later, hLater, hTakerLeads⟩ := hEvolves.leads hFound
        rw [hOther', Option.some.injEq] at hLater
        subst hLater
        refine hMatched.worthless h.wellFormed hWell' hFound hQueued hOther' hOtherResting' hOrder
          hResting hOrder' hResting' hLeads ?_ ?_
        · rwa [hLeads.kept, hTakerLeads.kept] at hUsers
        · rw [hLeads.kept, hTakerLeads.kept] at hCrosses
          exact Order.Crosses.symm hCrosses
      · have hIds : taker'.id = taker.id := Call.processOrder.inj (hTaker'.symm.trans hTaker)
        rw [hIds, hOther', Option.some.injEq] at hOrder'
        exact absurd (hOrder' ▸ rfl) hUsers

variable {start : Database}

theorem uncrossed_start (hOpening : start.Opening) : (History.start start).Uncrossed where
  wellFormed := hOpening.wellFormed
  processed id hId := by cases hId
  resting id order hOrder _ := by
    have hMem := Table.mem_def.mp (Table.mem_of_find? hOrder)
    rw [show (History.start start).db.orders.rows = [] from hOpening.noOrders] at hMem
    cases hMem
  worthless id order hOrder _ := by
    have hMem := Table.mem_def.mp (Table.mem_of_find? hOrder)
    rw [show (History.start start).db.orders.rows = [] from hOpening.noOrders] at hMem
    cases hMem

/-- After any calls from an opening, whenever a resting BUY and a resting SELL
order of two users cross, one of them was matched first, and at its price what
both have left is worth nothing. -/
theorem book_uncrossed (hOpening : start.Opening) (invocations : List Invocation) :
    ∀ buy ∈ ((History.start start).calls newDecimal invocations).db.orders,
    ∀ sell ∈ ((History.start start).calls newDecimal invocations).db.orders,
      buy.side = .buy → sell.side = .sell → buy.userId ≠ sell.userId →
      buy.status ∈ [.opened, .partiallyFilled] → sell.status ∈ [.opened, .partiallyFilled] →
      sell.price ≤ buy.price →
      ∃ first, (first = buy ∨ first = sell) ∧
        ((History.start start).calls newDecimal invocations).firstProcessed buy.id sell.id =
          some first.id ∧
        cost (min buy.remainingAmount sell.remainingAmount) first.price = 0 := by
  have hUncrossed : ((History.start start).calls newDecimal invocations).Uncrossed :=
    calls_induction (uncrossed_start hOpening)
      (fun history invocation outcome db' h hCall => h.call hCall) invocations
  intro buy hBuy sell hSell hBuySide hSellSide hUsers hBuyStatus hSellStatus hLimits
  have hResting : ∀ order : Order, order.status ∈ [.opened, .partiallyFilled] →
      order.status.isResting = true := by
    intro order hStatus
    simp only [List.mem_cons, List.not_mem_nil, or_false] at hStatus
    rcases hStatus with h | h <;> rw [h] <;> rfl
  have hBuyFound := Table.find?_of_mem hBuy
  have hSellFound := Table.find?_of_mem hSell
  have hCrosses : buy.Crosses sell := by
    rw [Order.Crosses, hBuySide]
    exact ⟨hSellSide, hLimits⟩
  cases hFirst : ((History.start start).calls newDecimal invocations).firstProcessed buy.id
    sell.id with
  | none =>
      have hNone := List.find?_eq_none.mp hFirst buy.id
        (hUncrossed.resting buy.id buy hBuyFound (hResting buy hBuyStatus))
      simp at hNone
  | some id =>
      have hEither : id = buy.id ∨ id = sell.id := by simpa using List.find?_some hFirst
      rcases hEither with rfl | rfl
      · exact ⟨buy, Or.inl rfl, rfl,
          hUncrossed.worthless buy.id buy hBuyFound (hResting buy hBuyStatus)
          sell.id sell hSellFound (hResting sell hSellStatus) hUsers hCrosses hFirst⟩
      · have hWorthless := hUncrossed.worthless sell.id sell hSellFound (hResting sell hSellStatus)
          buy.id buy hBuyFound (hResting buy hBuyStatus) hUsers.symm hCrosses.symm
          (firstProcessed_comm.trans hFirst)
        refine ⟨sell, Or.inr rfl, rfl, ?_⟩
        rw [min_comm]
        exact hWorthless

/-- The BUY order is worth something at its own price only. -/
def dustCalls : List Invocation := [
  ⟨.createOrder "seller" .sell "0.00000003" "0.4", ⟨"sell", 1, "intent 1", 10⟩⟩,
  ⟨.processOrder "sell", ⟨"", 0, "", 11⟩⟩,
  ⟨.createOrder "buyer" .buy "0.00000001" "1", ⟨"buy", 2, "intent 2", 12⟩⟩,
  ⟨.processOrder "buy", ⟨"", 0, "", 13⟩⟩]

theorem book_uncrossed_dust : ∃ first : Order,
    (first = ⟨"buy", 2, "buyer", .buy, .opened, one, 1, 1, 12⟩ ∨
      first = ⟨"sell", 1, "seller", .sell, .opened, 40000000, 3, 3, 10⟩) ∧
    ((History.start Sample.start).calls Sample.newDecimal dustCalls).firstProcessed "buy" "sell" =
      some first.id ∧ cost (min 1 3) first.price = 0 :=
  @book_uncrossed Sample.newDecimal Sample.start Sample.opening dustCalls
    ⟨"buy", 2, "buyer", .buy, .opened, one, 1, 1, 12⟩ (Table.mem_def.mpr (by decide +kernel))
    ⟨"sell", 1, "seller", .sell, .opened, 40000000, 3, 3, 10⟩
      (Table.mem_def.mpr (by decide +kernel))
    rfl rfl (by decide) (by decide) (by decide) (by decide)

end History
end ExchangeMatching
