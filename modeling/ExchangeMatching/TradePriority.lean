import ExchangeMatching.Custody
import ExchangeMatching.MakerSearch
import ExchangeMatching.Uncrossed

/-! No trade passes over an order of the book that has priority over its maker.
In any state, such an order that still rests had nothing of worth to trade. -/
namespace ExchangeMatching

open Transactions

/-- An order that was worth nothing next to an amount still is when it has shrunk. -/
theorem Order.Leads.worthless {order later : Order} (hLeads : order.Leads later)
    (hSound : later.Sound) {amount : Int} (hAmount : 0 ≤ amount)
    (h : cost (min amount order.remainingAmount) order.price = 0) :
    cost (min amount later.remainingAmount) later.price = 0 := by
  have hNonneg := hSound.remaining_nonneg
  have hShrunk := hLeads.remaining
  have hPrice : later.price = order.price := by rw [hLeads.kept, Order.revised_price]
  have hLess := @cost_mono (min amount order.remainingAmount) (min amount later.remainingAmount)
    later.price (by omega) (by omega) hSound.price_pos.le
  have hCost := @cost_nonneg (min amount later.remainingAmount) later.price
    (by omega) hSound.price_pos.le
  rw [hPrice] at *
  omega

namespace MatchingService

/-- A fill takes no more than there is. -/
theorem amount_le_of_mem_plan {remaining : Int} {makers : List Order} (hRemaining : 0 ≤ remaining)
    (hSound : ∀ maker ∈ makers, maker.Sound) {fill : Order × Int}
    (hFill : fill ∈ plan remaining makers) : fill.2 ≤ remaining := by
  have hPos := plan_pos hRemaining fun maker hMaker => (hSound maker hMaker).remaining_nonneg
  have hSingle := List.single_le_sum (l := (plan remaining makers).map Prod.snd)
    (by simpa using fun amount maker hMem => (hPos (maker, amount) hMem).le) fill.2
    (List.mem_map_of_mem hFill)
  exact hSingle.trans (plan_sum_bounds hRemaining hSound).2

/-- A maker that comes before a filled one is used up, or was worth nothing next
to the amount of the fill. -/
theorem plan_serves {r : Order → Order → Prop}
    (hAsymm : ∀ left right, r left right → ¬r right left)
    {remaining : Int} {makers : List Order} (hRemaining : 0 ≤ remaining)
    (hSound : ∀ maker ∈ makers, maker.Sound) (hSorted : makers.Pairwise r) {better : Order}
    (hBetter : better ∈ makers) {fill : Order × Int} (hFill : fill ∈ plan remaining makers)
    (hBefore : r better fill.1) :
    (better, better.remainingAmount) ∈ plan remaining makers ∨
      cost (min fill.2 better.remainingAmount) better.price = 0 := by
  induction makers generalizing remaining with
  | nil => cases hBetter
  | cons head makers ih =>
      have hHead := hSound head List.mem_cons_self
      have hHeadNonneg := hHead.remaining_nonneg
      have hRest := fun other hOther => hSound other (List.mem_cons_of_mem head hOther)
      obtain ⟨hFirst, hSortedRest⟩ := List.pairwise_cons.mp hSorted
      rw [plan] at hFill ⊢
      split_ifs at hFill ⊢ with hDust
      · rcases List.mem_cons.mp hBetter with rfl | hBetter
        · -- What is left of the taker later is worth no more than it was here.
          have hAmount := amount_le_of_mem_plan hRemaining hRest hFill
          have hPos := plan_pos hRemaining
            (fun maker hMaker => (hRest maker hMaker).remaining_nonneg) fill hFill
          have hSmaller := @cost_mono (min remaining better.remainingAmount)
            (min fill.2 better.remainingAmount) better.price (by omega)
              (by omega) hHead.price_pos.le
          have hNonneg := @cost_nonneg (min fill.2 better.remainingAmount) better.price (by omega)
            hHead.price_pos.le
          exact Or.inr (by omega)
        · exact ih hRemaining hRest hSortedRest hBetter hFill
      · rcases List.mem_cons.mp hFill with rfl | hFill
        · rcases List.mem_cons.mp hBetter with rfl | hBetter
          · exact absurd hBefore (hAsymm _ _ hBefore)
          · exact absurd hBefore (hAsymm _ _ (hFirst better hBetter))
        · rcases List.mem_cons.mp hBetter with rfl | hBetter
          · by_cases hFilled : better.remainingAmount ≤ remaining
            · rw [min_eq_right hFilled]
              exact Or.inl List.mem_cons_self
            · rw [min_eq_left (by omega), sub_self,
                plan_zero fun other hOther => (hRest other hOther).remaining_nonneg] at hFill
              cases hFill
          · rcases @ih (remaining - min remaining head.remainingAmount)
              (by omega) hRest hSortedRest hBetter hFill with hFilled | hWorthless
            · exact Or.inl (List.mem_cons_of_mem _ hFilled)
            · exact Or.inr hWorthless

end MatchingService

namespace Reference

open MatchingService MatchingOrderBook

theorem Outranks.asymm {taker left right : Order} (h : Outranks taker left right) :
    ¬Outranks taker right left := by
  unfold Outranks at *
  cases hSide : taker.side <;> rw [hSide] at h <;> dsimp only at h ⊢ <;> omega

/-- Who crosses a taker is crossed by whoever outranks it. -/
theorem crosses_of_outranks {taker order maker : Order} (hMaker : crosses taker maker = true)
    (hOutranks : Outranks taker order maker) (hSide : order.side = maker.side)
    (hUsers : order.userId ≠ taker.userId) (hResting : order.status.isResting = true) :
    crosses taker order = true := by
  unfold crosses Outranks at *
  cases hTaker : taker.side <;> rw [hTaker] at hMaker hOutranks <;>
    simp only [Bool.and_eq_true, decide_eq_true_eq] at hMaker hOutranks ⊢ <;>
    exact ⟨⟨⟨hUsers, hSide ▸ hMaker.1.1.2⟩, hResting⟩, by omega⟩

/-- A maker that outranks a filled one rests after matching only if it was worth
nothing next to the amount of the fill. -/
theorem Matched.worthless_of_outranks {db db' : Database} {taker order order' : Order}
    (h : Matched db db' taker) (hWell : db.WellFormed) (hWell' : db'.WellFormed)
    (hTaker : db.orders.find? taker.id = some taker) (hQueued : taker.status = .queued)
    (hOrder : db.orders.find? order.id = some order) (hResting : order.status.isResting = true)
    (hOrder' : db'.orders.find? order.id = some order') (hStill : order'.status.isResting = true)
    (hLeads : order.Leads order') (hUsers : order.userId ≠ taker.userId) {fill : Order × Int}
    (hFill : fill ∈ plan taker.remainingAmount (candidates db.orders.rows taker none))
    (hSide : order.side = fill.1.side) (hOutranks : Outranks taker order fill.1) :
    cost (min fill.2 order'.remainingAmount) order'.price = 0 := by
  have hSettling := MatchingService.Settling.candidates hWell hTaker hQueued (List.prefix_refl _)
  have hRemaining := (hWell.orders taker (Table.mem_of_find? hTaker)).remaining_nonneg
  have hSound : ∀ maker ∈ candidates db.orders.rows taker none, maker.Sound :=
    fun maker hMaker => hSettling.maker_sound hMaker
  have hSorted := candidates_eq ▸ pairwise_makers db.toMarket taker
  have hCandidate : order ∈ candidates db.orders.rows taker none := by
    have hMaker := (mem_candidates.mp (maker_of_mem_plan hFill)).2
    rw [candidateCondition_none] at hMaker
    refine mem_candidates.mpr ⟨Table.mem_def.mp (Table.mem_of_find? hOrder), ?_⟩
    rw [candidateCondition_none]
    exact crosses_of_outranks hMaker hOutranks hSide hUsers hResting
  rcases plan_serves (fun _ _ => Outranks.asymm) hRemaining hSound hSorted hCandidate hFill
    hOutranks with
    hFilled | hWorthless
  · -- A maker that is used up does not rest any more.
    have hId : order.id ≠ taker.id := by
      intro hEq
      rw [hEq, hTaker, Option.some.injEq] at hOrder
      exact hUsers (hOrder ▸ rfl)
    have hFound : (plan taker.remainingAmount (candidates db.orders.rows taker none)).find?
        (·.1.id = order.id) = some (order, order.remainingAmount) := hSettling.find?_plan hFilled
    rw [h.orders, hOrder, Option.map_some, Option.some.injEq, finalOrder, if_neg hId, matching_eq]
      at hOrder'
    dsimp only at hOrder'
    rw [hFound] at hOrder'
    rw [← hOrder'] at hStill
    simp [OrderStatus.isResting] at hStill
  · have hPos := plan_pos hRemaining (fun maker hMaker => (hSound maker hMaker).remaining_nonneg)
      fill hFill
    exact hLeads.worthless (hWell'.orders order' (Table.mem_of_find? hOrder')) hPos.le hWorthless

end Reference

namespace Database

variable {newDecimal : String → Option DecimalValue} {db db' : Database} {invocation : Invocation}

/-- A new trade is a fill of the order that the call has matched. -/
theorem Transition.fill_of_new (h : db.Transition newDecimal invocation db') (hWell : db.WellFormed)
    {trade : Trade} (hTrade : trade ∈ db'.trades) :
    trade ∈ db.trades ∨ ∃ taker, invocation.call = .processOrder taker.id ∧
      db.orders.find? taker.id = some taker ∧ taker.status = .queued ∧
      Reference.Matched db db' taker ∧ ∃ fill ∈ MatchingService.plan taker.remainingAmount
          (MatchingOrderBook.candidates db.orders.rows taker none),
        Reference.report taker fill =
          (trade.makerOrderId, trade.takerOrderId, trade.amount, trade.price) := by
  cases h with
  | created valid found fits fresh freshIntent =>
      rw [trades_stored] at hTrade
      exact Or.inl hTrade
  | cancelled found owner active caller walletFound fits => exact Or.inl hTrade
  | @matched taker progress settled generated found queued executed =>
      obtain ⟨trades, hTrades, _⟩ := executed.recorded
      have hReports := executed.trades
      rw [hTrades, List.map_append, List.append_cancel_left_eq] at hReports
      have hMem : trade ∈ db.trades ++ trades := hTrades ▸ hTrade
      rcases List.mem_append.mp hMem with hOld | hNew
      · exact Or.inl hOld
      · have hReport := List.mem_map_of_mem (f := fun trade : Trade =>
          (trade.makerOrderId, trade.takerOrderId, trade.amount, trade.price)) hNew
        rw [hReports] at hReport
        obtain ⟨fill, hFill, hSame⟩ := List.mem_map.mp hReport
        exact Or.inr ⟨taker, rfl, found, queued,
          Reference.matched_of_executed hWell found queued executed, fill, hFill, hSame⟩
  | rejected found queued walletFound fits => exact Or.inl hTrade
  | skipped call notQueued => exact Or.inl hTrade

end Database

namespace History

open MatchingService MatchingOrderBook

/-- Of a trade and an order that was in the book before its taker and outranks
its maker: if the order still rests, the trade has left it nothing of worth. -/
structure Prioritized (history : History) : Prop where
  uncrossed : history.Uncrossed
  recorded : history.db.AllRecorded
  takers : ∀ trade ∈ history.db.trades, trade.takerOrderId ∈ history.processed
  respected : ∀ trade ∈ history.db.trades, ∀ taker maker,
    history.db.orders.find? trade.takerOrderId = some taker →
    history.db.orders.find? trade.makerOrderId = some maker →
    ∀ id order, history.db.orders.find? id = some order → order.status.isResting = true →
    history.firstProcessed id trade.takerOrderId = some id → order.side = maker.side →
    order.userId ≠ taker.userId → Reference.Outranks taker order maker →
    cost (min trade.amount order.remainingAmount) order.price = 0

variable {newDecimal : String → Option DecimalValue} {history : History} {db' : Database}

/-- A committed call respects the priority of the book. -/
theorem Prioritized.call (h : history.Prioritized) {invocation : Invocation} {outcome : Outcome}
    (hCall : history.db.call newDecimal invocation = .ok (outcome, db')) :
    Prioritized ⟨history.log ++ [⟨invocation, outcome⟩], db'⟩ := by
  have hWell := h.uncrossed.wellFormed
  have hTransition := Database.call_transition hWell hCall
  have hEffect := Database.call_effect hWell hCall
  have hEvolves := Database.call_evolves hWell hCall
  obtain ⟨hWell', hRecorded'⟩ := hEvolves.induction hWell h.recorded fun _ _ _ hEvent hRecorded =>
    hRecorded.of_event hEvent
  refine ⟨h.uncrossed.call hCall, hRecorded', ?_, ?_⟩
  · intro trade hTrade
    rw [processed_append, List.mem_append]
    rcases hTransition.fill_of_new hWell hTrade with
      hOld | ⟨taker, hTaker, _, _, _, fill, _, hReport⟩
    · exact Or.inl (h.takers trade hOld)
    · have hId : taker.id = trade.takerOrderId := congrArg (fun report => report.2.1) hReport
      exact Or.inr (by simp [hTaker, hId])
  · intro trade hTrade taker' maker' hTaker' hMaker' id order' hOrder' hResting' hFirst hSide hUsers
      hOutranks
    rcases hTransition.fill_of_new hWell hTrade with
      hOld | ⟨taker, hTaker, hFound, hQueued, hMatched, fill, hFill, hReport⟩
    · rw [firstProcessed_append (h.takers trade hOld)] at hFirst
      rcases hEffect.resting_before hWell hEvolves hOrder' hResting' with
        ⟨order, hOrder, hResting, hLeads⟩ | ⟨matched, rfl, _, hFound, hQueued, _⟩
      · -- The trade and the order are both old, and the order may have shrunk.
        obtain ⟨_, _, _, _, hMaker, hTaker, hJoins⟩ := (h.recorded trade hOld).orders
        obtain ⟨_, hLaterTaker, hTakerLeads⟩ := hEvolves.leads hTaker
        obtain ⟨_, hLaterMaker, hMakerLeads⟩ := hEvolves.leads hMaker
        rw [hTaker', Option.some.injEq] at hLaterTaker
        rw [hMaker', Option.some.injEq] at hLaterMaker
        subst hLaterTaker hLaterMaker
        rw [hLeads.kept, hMakerLeads.kept] at hSide
        rw [hLeads.kept, hTakerLeads.kept] at hUsers
        rw [hLeads.kept, hMakerLeads.kept, hTakerLeads.kept] at hOutranks
        have hBefore := h.respected trade hOld _ _ hTaker hMaker id order hOrder hResting
          hFirst hSide hUsers hOutranks
        exact hLeads.worthless (hWell'.orders order' (Table.mem_of_find? hOrder'))
          hJoins.amount_pos.le hBefore
      · -- The order was still queued, so its `processOrder` had not committed before.
        obtain ⟨order, hOrder, hStatus⟩ :=
          h.uncrossed.processed matched.id (List.mem_of_find?_eq_some hFirst)
        rw [hFound, Option.some.injEq] at hOrder
        exact absurd (hOrder ▸ hQueued) hStatus
    · obtain ⟨hMakerId, hTakerId, hAmount, _⟩ : fill.1.id = trade.makerOrderId ∧
          taker.id = trade.takerOrderId ∧ fill.2 = trade.amount ∧ fill.1.price = trade.price := by
        simpa [Reference.report] using hReport
      have hSettling := MatchingService.Settling.candidates hWell hFound hQueued
        (List.prefix_refl _)
      have hMaker := hSettling.plan_found taker.remainingAmount fill hFill
      obtain ⟨_, hLaterTaker, hTakerLeads⟩ := hEvolves.leads hFound
      obtain ⟨_, hLaterMaker, hMakerLeads⟩ := hEvolves.leads hMaker
      rw [hTakerId, hTaker', Option.some.injEq] at hLaterTaker
      rw [hMakerId, hMaker', Option.some.injEq] at hLaterMaker
      subst hLaterTaker hLaterMaker
      rcases hEffect.resting_before hWell hEvolves hOrder' hResting' with
        ⟨order, hOrder, hResting, hLeads⟩ | ⟨matched, rfl, hCallMatched, _⟩
      · obtain rfl := Table.key_of_find? hOrder
        rw [hLeads.kept, hMakerLeads.kept] at hSide
        rw [hLeads.kept, hTakerLeads.kept] at hUsers
        rw [hLeads.kept, hMakerLeads.kept, hTakerLeads.kept] at hOutranks
        rw [← hAmount]
        exact hMatched.worthless_of_outranks hWell hWell' hFound hQueued hOrder hResting hOrder'
          hResting' hLeads hUsers hFill hSide hOutranks
      · -- The taker is not one of the others.
        have hSame : matched.id = taker.id := Call.processOrder.inj (hCallMatched.symm.trans hTaker)
        rw [hSame, hTakerId, hTaker', Option.some.injEq] at hOrder'
        exact absurd (hOrder' ▸ rfl) hUsers

variable {start : Database}

/-- After any calls from an opening, no trade has passed over an order that has
priority. Whenever an order was in the book before the taker of a trade, on the
side of its maker and of another user than the taker, and has a better price or
the same price and an earlier place, then it does not rest any more, or nothing
of worth could be traded between it and the amount of the trade. -/
theorem no_trade_through (hOpening : start.Opening) (invocations : List Invocation) :
    ∀ trade ∈ ((History.start start).calls newDecimal invocations).db.trades,
    ∃ taker ∈ ((History.start start).calls newDecimal invocations).db.orders,
    ∃ maker ∈ ((History.start start).calls newDecimal invocations).db.orders,
      taker.id = trade.takerOrderId ∧ maker.id = trade.makerOrderId ∧
      ∀ order ∈ ((History.start start).calls newDecimal invocations).db.orders,
        order.status ∈ [.opened, .partiallyFilled] → order.side = maker.side →
        order.userId ≠ taker.userId →
        ((History.start start).calls newDecimal invocations).firstProcessed order.id taker.id =
          some order.id →
        Reference.Outranks taker order maker →
        cost (min trade.amount order.remainingAmount) order.price = 0 := by
  have hPrioritized : ((History.start start).calls newDecimal invocations).Prioritized := by
    refine calls_induction ⟨uncrossed_start hOpening, hOpening.allRecorded, ?_, ?_⟩
      (fun history invocation outcome db' h hCall => h.call hCall) invocations
    · intro trade hTrade
      rw [show (History.start start).db.trades = [] from hOpening.noTrades] at hTrade
      cases hTrade
    · intro trade hTrade
      rw [show (History.start start).db.trades = [] from hOpening.noTrades] at hTrade
      cases hTrade
  intro trade hTrade
  obtain ⟨_, _, _, _, hMaker, hTaker, _⟩ := (hPrioritized.recorded trade hTrade).orders
  refine ⟨_, Table.mem_of_find? hTaker, _, Table.mem_of_find? hMaker, Table.key_of_find? hTaker,
    Table.key_of_find? hMaker, fun order hOrder hStatus hSide hUsers hFirst hOutranks => ?_⟩
  have hResting : order.status.isResting = true := by
    simp only [List.mem_cons, List.not_mem_nil, or_false] at hStatus
    rcases hStatus with h | h <;> rw [h] <;> rfl
  rw [Table.key_of_find? hTaker] at hFirst
  exact hPrioritized.respected trade hTrade _ _ hTaker hMaker order.id order
    (Table.find?_of_mem hOrder) hResting hFirst hSide hUsers hOutranks

/-- The BUY order is worth nothing at the better of two prices. -/
def passingCalls : List Invocation := [
  ⟨.createOrder "seller" .sell "0.00000003" "0.4", ⟨"cheap", 1, "intent 1", 10⟩⟩,
  ⟨.processOrder "cheap", ⟨"", 0, "", 11⟩⟩,
  ⟨.createOrder "seller" .sell "2" "1", ⟨"dear", 2, "intent 2", 12⟩⟩,
  ⟨.processOrder "dear", ⟨"", 0, "", 13⟩⟩,
  ⟨.createOrder "buyer" .buy "0.00000001" "1", ⟨"buy", 3, "intent 3", 14⟩⟩,
  ⟨.processOrder "buy", ⟨"", 0, "", 15⟩⟩]

theorem no_trade_through_sample :
    ∃ trade ∈ ((History.start Sample.start).calls Sample.newDecimal passingCalls).db.trades,
      trade.makerOrderId = "dear" ∧ cost (min trade.amount 3) 40000000 = 0 := by
  have hTrades :
      ∃ trade ∈ ((History.start Sample.start).calls Sample.newDecimal passingCalls).db.trades,
      trade.makerOrderId = "dear" ∧ trade.takerOrderId = "buy" := by decide +kernel
  obtain ⟨trade, hTrade, hDear, hBuy⟩ := hTrades
  obtain ⟨taker, hTaker, maker, hMaker, hTakerId, hMakerId, hPassed⟩ :=
    @no_trade_through Sample.newDecimal Sample.start Sample.opening passingCalls trade hTrade
  have hRows :
      ∀ order ∈ ((History.start Sample.start).calls Sample.newDecimal passingCalls).db.orders.rows,
      (order.id = "buy" → order.side = .buy ∧ order.userId = "buyer") ∧
      (order.id = "dear" → order.side = .sell ∧ order.price = one) := by decide +kernel
  obtain ⟨hTakerSide, hTakerUser⟩ := (hRows taker hTaker).1 (hTakerId.trans hBuy)
  obtain ⟨hMakerSide, hMakerPrice⟩ := (hRows maker hMaker).2 (hMakerId.trans hDear)
  refine ⟨trade, hTrade, hDear, hPassed ⟨"cheap", 1, "seller", .sell, .opened, 40000000, 3, 3, 10⟩
    (Table.mem_def.mpr (by decide +kernel)) (by decide) hMakerSide.symm
      (by simp [hTakerUser]) ?_ ?_⟩
  · rw [hTakerId, hBuy]
    decide +kernel
  · rw [Reference.Outranks, hTakerSide, hMakerPrice]
    exact Or.inl (by decide)

end History
end ExchangeMatching
