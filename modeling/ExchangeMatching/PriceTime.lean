import ExchangeMatching.Solvency

/-! Price-time matching over the full book, as it is meant: take all crossing
orders, sort them and fill one after the other. The search that selects makers
one at a time with a cursor leads to the same fills. -/
namespace ExchangeMatching

open Transactions MatchingOrderBook

namespace Reference

/-- Another user's resting order on the other side, at a price that crosses
the limit of the taker. -/
def crosses (taker order : Order) : Bool :=
  order.userId ≠ taker.userId && order.side ≠ taker.side && order.status.isResting &&
    match taker.side with
    | .buy => order.price ≤ taker.price
    | .sell => taker.price ≤ order.price

/-- Best price first, and the older order first at the same price. -/
def precedes (taker left right : Order) : Bool :=
  match taker.side with
  | .buy => left.price < right.price || (left.price = right.price && left.sequence ≤ right.sequence)
  | .sell =>
      right.price < left.price || (left.price = right.price && left.sequence ≤ right.sequence)

def makers (orders : List Order) (taker : Order) : List Order :=
  (orders.filter (crosses taker)).insertionSort (precedes taker · ·)

/-- Fill as much as both have left, and skip what is worth nothing. -/
def fill (state : Int × List (Order × Int)) (maker : Order) : Int × List (Order × Int) :=
  let amount := min state.1 maker.remainingAmount
  if cost amount maker.price = 0 then state else (state.1 - amount, state.2 ++ [(maker, amount)])

/-- What is left of the taker, and the fills with their makers. -/
def matching (orders : List Order) (taker : Order) : Int × List (Order × Int) :=
  (makers orders taker).foldl fill (taker.remainingAmount, [])

/-- The taker after matching. -/
def finalTaker (orders : List Order) (taker : Order) : Order :=
  taker.revised (matching orders taker).1
    (if (matching orders taker).2 = [] then .opened
      else if (matching orders taker).1 = 0 then .filled else .partiallyFilled)

/-- An order of the book after matching. -/
def finalOrder (orders : List Order) (taker order : Order) : Order :=
  if order.id = taker.id then finalTaker orders taker
  else
    match (matching orders taker).2.find? (·.1.id = order.id) with
    | none => order
    | some (maker, amount) => maker.revised (maker.remainingAmount - amount)
        (if maker.remainingAmount - amount = 0 then .filled else .partiallyFilled)

/-- A fill as its trade reports it: maker, taker, amount and price. -/
def report (taker : Order) (fill : Order × Int) : OrderId × OrderId × Int × Int :=
  (fill.1.id, taker.id, fill.2, fill.1.price)

variable {orders : List Order} {taker : Order}

theorem candidateCondition_none : candidateCondition taker none = crosses taker := by
  funext order
  unfold candidateCondition crosses afterCursor
  cases taker.side <;> cases order.side <;> cases order.status <;> simp [OrderStatus.isResting]

theorem candidateOrder_eq : candidateOrder taker = precedes taker := by
  funext left right
  unfold candidateOrder precedes
  cases taker.side <;> simp

theorem candidates_eq : candidates orders taker none = makers orders taker := by
  rw [candidates, makers, candidateCondition_none, candidateOrder_eq]

/-- The fold fills what the plan of the settlement says. -/
theorem foldl_fill {makers : List Order} {remaining : Int} {fills : List (Order × Int)} :
    makers.foldl fill (remaining, fills) =
      (remaining - ((MatchingService.plan remaining makers).map Prod.snd).sum,
        fills ++ MatchingService.plan remaining makers) := by
  induction makers generalizing remaining fills with
  | nil => simp [MatchingService.plan]
  | cons maker makers ih =>
      rw [List.foldl_cons, fill, MatchingService.plan]
      dsimp only
      split_ifs with hDust
      · exact ih
      · rw [ih, List.map_cons, List.sum_cons, List.append_assoc, List.singleton_append]
        congr 1
        omega

theorem matching_eq :
    matching orders taker = (taker.remainingAmount -
        ((MatchingService.plan taker.remainingAmount (candidates orders taker none)).map
          Prod.snd).sum,
      MatchingService.plan taker.remainingAmount (candidates orders taker none)) := by
  rw [matching, foldl_fill, candidates_eq, List.nil_append]

end Reference

namespace MatchingService

variable {taker : Order} {now : Nat} {fills : List (Order × Int)} {progress progress' : Progress}
  {db db' : Database}

/-- The makers of a plan are makers that were offered, in the same order. -/
theorem plan_sublist (remaining : Int) (makers : List Order) :
    ((plan remaining makers).map Prod.fst).Sublist makers := by
  induction makers generalizing remaining with
  | nil => exact .slnil
  | cons maker makers ih =>
      rw [plan]
      split_ifs
      · exact (ih _).cons maker
      · exact (ih _).cons_cons maker

/-- The plan fills every maker once. -/
theorem Settling.plan_distinct {makers : List Order} (h : Settling taker makers progress db)
    (remaining : Int) : ((plan remaining makers).map (·.1.id)).Nodup := by
  have hIds := h.distinct.sublist ((plan_sublist remaining makers).map Order.id)
  rwa [List.map_map] at hIds

/-- A maker of the plan was offered. -/
theorem maker_of_mem_plan {remaining : Int} {makers : List Order} {fill : Order × Int}
    (hFill : fill ∈ plan remaining makers) : fill.1 ∈ makers :=
  (plan_sublist remaining makers).subset (List.mem_map.mpr ⟨fill, hFill, rfl⟩)

/-- The makers of the plan are stored. -/
theorem Settling.plan_found {makers : List Order} (h : Settling taker makers progress db)
    (remaining : Int) :
    ∀ fill ∈ plan remaining makers, db.orders.find? fill.1.id = some fill.1 :=
  fun fill hFill => h.makers_found fill.1 (maker_of_mem_plan hFill)

/-- With every maker filled once, the plan is a table under the ids of its makers. -/
theorem Settling.find?_plan {makers : List Order} (h : Settling taker makers progress db)
    {remaining : Int} {fill : Order × Int} (hFill : fill ∈ plan remaining makers) :
    (plan remaining makers).find? (·.1.id = fill.1.id) = some fill := by
  let fills : Table (Order × Int) (·.1.id) := ⟨plan remaining makers, h.plan_distinct remaining⟩
  have hMem : fill ∈ fills := hFill
  exact Table.find?_of_mem hMem

/-- The plan fills positive amounts only. -/
theorem plan_pos {remaining : Int} {makers : List Order} (hRemaining : 0 ≤ remaining)
    (hMakers : ∀ maker ∈ makers, 0 ≤ maker.remainingAmount) :
    ∀ fill ∈ plan remaining makers, 0 < fill.2 := by
  induction makers generalizing remaining with
  | nil =>
      intro fill hFill
      cases hFill
  | cons maker makers ih =>
      have hMaker := hMakers maker List.mem_cons_self
      have hRest := fun other hOther => hMakers other (List.mem_cons_of_mem maker hOther)
      rw [plan]
      split_ifs with hDust
      · exact ih hRemaining hRest
      · have hPos : 0 < min remaining maker.remainingAmount := by
          have hNonzero : min remaining maker.remainingAmount ≠ 0 := fun hZero =>
            hDust (by rw [hZero, cost_zero])
          omega
        intro fill hFill
        rcases List.mem_cons.mp hFill with rfl | hFill
        · exact hPos
        · exact ih (by omega) hRest fill hFill

/-- The plan is empty exactly when it fills nothing. -/
theorem plan_eq_nil_iff {remaining : Int} {makers : List Order} (hRemaining : 0 ≤ remaining)
    (hMakers : ∀ maker ∈ makers, 0 ≤ maker.remainingAmount) :
    plan remaining makers = [] ↔ ((plan remaining makers).map Prod.snd).sum = 0 := by
  have hPos := plan_pos hRemaining hMakers
  constructor
  · intro hNil
    rw [hNil]
    rfl
  · intro hZero
    by_contra hSome
    have hSum := List.sum_pos ((plan remaining makers).map Prod.snd)
      (by simpa using fun amount maker hMem => hPos (maker, amount) hMem) (by simpa using hSome)
    omega

/-- Executed fills are reported by new trades, in their order. -/
theorem Executed.trades (h : Executed taker now fills progress db progress' db') :
    db'.trades.map
      (fun trade => (trade.makerOrderId, trade.takerOrderId, trade.amount, trade.price)) =
      db.trades.map
        (fun trade => (trade.makerOrderId, trade.takerOrderId, trade.amount, trade.price)) ++
        fills.map (Reference.report taker) := by
  induction h with
  | nil => simp
  | @cons maker amount fills progress progress' db db' buyer seller executable buyerFound
      sellerFound buyerFits sellerFits rest ih =>
      have hTrades : (db.execute (progress.fill taker maker amount) buyer seller now).trades =
          db.trades ++
            [⟨(progress.fill taker maker amount).trade, db.trades.length, db.trades.length,
            now⟩] := rfl
      have hReport : ((progress.fill taker maker amount).trade.makerOrderId,
          (progress.fill taker maker amount).trade.takerOrderId,
          (progress.fill taker maker amount).trade.amount,
          (progress.fill taker maker amount).trade.price) = Reference.report taker
            (maker, amount) := by
        simp only [Fill.trade, Fill.price, Progress.fill, Fill.maker_ofTaker, Fill.taker_ofTaker,
          Fill.amount_ofTaker, Order.revised_id, Reference.report]
      rw [ih, hTrades, List.map_append, List.map_singleton, List.map_cons, List.append_assoc,
        List.singleton_append]
      exact congrArg (fun report => _ ++ report :: _) hReport

/-- The loop counts what was filled. -/
theorem Executed.counted (h : Executed taker now fills progress db progress' db') :
    progress'.takerRemaining = progress.takerRemaining - (fills.map Prod.snd).sum ∧
      progress'.matchedAmount = progress.matchedAmount + (fills.map Prod.snd).sum := by
  induction h with
  | nil => simp
  | cons executable buyerFound sellerFound buyerFits sellerFits rest ih =>
      obtain ⟨hRemaining, hMatched⟩ := ih
      simp only [Progress.advance, Progress.fill, Fill.amount_ofTaker] at hRemaining hMatched
      rw [hRemaining, hMatched, List.map_cons, List.sum_cons]
      omega

/-- Executed fills rewrite their makers and no other order. -/
theorem Executed.orders (h : Executed taker now fills progress db progress' db')
    (hDistinct : (fills.map (·.1.id)).Nodup)
    (hFound : ∀ fill ∈ fills, db.orders.find? fill.1.id = some fill.1) (id : OrderId) :
    db'.orders.find? id =
      match fills.find? (·.1.id = id) with
      | none => db.orders.find? id
      | some (maker, amount) => some (maker.revised (maker.remainingAmount - amount)
          (filledStatus (maker.remainingAmount - amount))) := by
  induction h with
  | nil => rfl
  | @cons maker amount fills progress progress' db db' buyer seller executable buyerFound
      sellerFound buyerFits sellerFits rest ih =>
      obtain ⟨hNew, hRest⟩ := List.nodup_cons.mp hDistinct
      have hMaker : db.orders.find? maker.id = some maker := hFound _ List.mem_cons_self
      have hRows :
          ∀ other, (db.execute (progress.fill taker maker amount) buyer seller now).orders.find?
          other = if other = maker.id then some (maker.revised (maker.remainingAmount - amount)
            (filledStatus (maker.remainingAmount - amount))) else db.orders.find? other := by
        intro other
        simp only [Database.execute, Progress.fill, Fill.maker_ofTaker, Fill.amount_ofTaker]
        exact Market.find?_putOrder hMaker
      rw [ih hRest, List.find?_cons]
      · by_cases hId : maker.id = id
        · have hNone : fills.find? (·.1.id = id) = none := by
            refine List.find?_eq_none.mpr fun fill hFill hKey => hNew ?_
            exact List.mem_map.mpr ⟨fill, hFill, (of_decide_eq_true hKey).trans hId.symm⟩
          simp only [hNone, hRows, hId, if_true, decide_true]
        · simp only [hId, decide_false, hRows, Ne.symm hId, if_false]
      · intro fill hFill
        have hOther : fill.1.id ≠ maker.id :=
          fun hEq => hNew (List.mem_map.mpr ⟨fill, hFill, hEq⟩)
        rw [hRows, if_neg hOther]
        exact hFound fill (List.mem_cons_of_mem _ hFill)

/-- The orders after the last write of a taker. -/
theorem orders_finish {settled : Database} (hWell : db.WellFormed)
    (hFound : db.orders.find? taker.id = some taker) (hQueued : taker.status = .queued)
    (hExecuted : Executed taker now
      (plan taker.remainingAmount (candidates db.orders.rows taker none)) (Progress.start taker) db
      progress settled) (id : OrderId) :
    (progress.finish taker (candidates db.orders.rows taker none) settled).orders.find? id =
      if id = taker.id then some (taker.revised progress.takerRemaining (takerStatus progress))
      else match (plan taker.remainingAmount (candidates db.orders.rows taker none)).find?
          (·.1.id = id) with
        | none => db.orders.find? id
        | some (maker, amount) => some (maker.revised (maker.remainingAmount - amount)
            (filledStatus (maker.remainingAmount - amount))) := by
  have hSettling := Settling.candidates hWell hFound hQueued (List.prefix_refl _)
  have hTaker := (hSettling.executed hExecuted).2.taker_found
  have hMakers := hSettling.plan_found taker.remainingAmount
  refine (Market.find?_putOrder hTaker).trans ?_
  split_ifs with hId
  · rfl
  · exact hExecuted.orders (hSettling.plan_distinct taker.remainingAmount) hMakers id

end MatchingService

namespace Reference

/-- The second database is the first one after the reference has matched the
taker: its trades report the fills in order, and every order is as the
reference leaves it. -/
structure Matched (db db' : Database) (taker : Order) : Prop where
  trades :
    db'.trades.map
      (fun trade => (trade.makerOrderId, trade.takerOrderId, trade.amount, trade.price)) =
      db.trades.map
        (fun trade => (trade.makerOrderId, trade.takerOrderId, trade.amount, trade.price)) ++
        (matching db.orders.rows taker).2.map (report taker)
  orders : ∀ id, db'.orders.find? id =
    (db.orders.find? id).map (finalOrder db.orders.rows taker)

open MatchingService in
/-- The plan of the settlement leads to the orders of the reference. -/
theorem matched_of_executed {db settled : Database} {taker : Order} {progress : Progress}
    {now : Nat} (hWell : db.WellFormed) (hFound : db.orders.find? taker.id = some taker)
    (hQueued : taker.status = .queued)
    (hExecuted : Executed taker now
      (plan taker.remainingAmount (candidates db.orders.rows taker none)) (Progress.start taker) db
      progress settled) :
    Matched db (progress.finish taker (candidates db.orders.rows taker none) settled) taker := by
  have hSettling := Settling.candidates hWell hFound hQueued (List.prefix_refl _)
  have hSound := hWell.orders taker (Table.mem_of_find? hFound)
  obtain ⟨hRemaining, hMatched⟩ := hExecuted.counted
  have hMatching := @matching_eq db.orders.rows taker
  have hTaker : finalTaker db.orders.rows taker =
      taker.revised progress.takerRemaining (takerStatus progress) := by
    have hEmpty := plan_eq_nil_iff hSound.remaining_nonneg fun maker hMaker =>
      (hSettling.maker_sound hMaker).remaining_nonneg
    rw [Progress.start, zero_add] at hMatched
    rw [← hMatched] at hEmpty
    have hLeft : taker.remainingAmount - ((plan taker.remainingAmount
        (candidates db.orders.rows taker none)).map Prod.snd).sum = progress.takerRemaining :=
      hRemaining.symm
    simp only [finalTaker, hMatching, hEmpty, hLeft, takerStatus]
  constructor
  · rw [hMatching]
    exact hExecuted.trades
  · intro id
    rw [orders_finish hWell hFound hQueued hExecuted]
    split_ifs with hId
    · rw [hId, hFound, Option.map_some, finalOrder, if_pos rfl, hTaker]
    · cases hFill : (plan taker.remainingAmount (candidates db.orders.rows taker none)).find?
          (·.1.id = id) with
      | none =>
          cases hOrder : db.orders.find? id with
          | none => rfl
          | some order =>
              obtain rfl := Table.key_of_find? hOrder
              simp only [Option.map_some, finalOrder, hId, if_false, hMatching, hFill]
      | some fill =>
          have hKey : fill.1.id = id := by simpa using List.find?_some hFill
          have hOrder := hSettling.plan_found taker.remainingAmount fill
            (List.mem_of_find?_eq_some hFill)
          subst hKey
          simp only [hOrder, Option.map_some, finalOrder, hId, if_false, hMatching, hFill]
          rfl

end Reference

namespace Database

variable {newDecimal : String → Option DecimalValue} {db : Database}

/-- Matching a queued order is the reference. It commits in every book of a
solvent market, and in any other book it does what the reference does if it
commits. -/
theorem call_processOrder_refines (hWell : db.WellFormed) {taker : Order}
    (hTaker : taker ∈ db.orders) (hQueued : taker.status = .queued) (generated : Generated) :
    (∀ outcome db', db.call newDecimal ⟨.processOrder taker.id, generated⟩ =
      .ok (outcome, db') → Reference.Matched db db' taker) ∧
    (db.Solvent → ∃ db', db.call newDecimal ⟨.processOrder taker.id, generated⟩ =
      .ok (.eventsStored true, db') ∧ Reference.Matched db db' taker) := by
  have hMatched : ∀ outcome db',
      db.call newDecimal ⟨.processOrder taker.id, generated⟩ = .ok (outcome, db') →
      Reference.Matched db db' taker := by
    intro outcome db' hCall
    obtain ⟨stored, _, hRun, hReturn⟩ := Engine.run_bind_eq_ok.mp hCall
    cases hReturn
    obtain ⟨order, hFound, hCases⟩ :=
      (MatchingService.run_processOrder_eq_ok hWell (Nat.lt_succ_self _)).mp hRun
    rw [Table.find?_of_mem hTaker, Option.some.injEq] at hFound
    subst hFound
    rcases hCases with ⟨hStatus, _⟩ | ⟨_, _, progress, settled, hExecuted, rfl⟩
    · exact absurd hQueued hStatus
    · exact Reference.matched_of_executed hWell (Table.find?_of_mem hTaker) hQueued hExecuted
  refine ⟨hMatched, fun hSolvent => ?_⟩
  obtain ⟨db', hCall⟩ := call_processOrder_commits hWell hSolvent hTaker hQueued generated
  exact ⟨db', hCall, hMatched _ _ hCall⟩

/-- The queued BUY order of the sample is matched as the reference matches it. -/
theorem call_processOrder_refines_sample :
    ∃ db', ((History.start Sample.start).calls Sample.newDecimal (Sample.calls.take 3)).db.call
        Sample.newDecimal ⟨.processOrder "buy", ⟨"", 0, "", 13⟩⟩ =
          .ok (.eventsStored true, db') ∧
      Reference.Matched
        ((History.start Sample.start).calls Sample.newDecimal (Sample.calls.take 3)).db
        db' ⟨"buy", 2, "buyer", .buy, .queued, 5 * one, 2 * one, 2 * one, 12⟩ := by
  obtain ⟨hWell, hSolvent⟩ :=
    @History.solvent_of_opening Sample.newDecimal Sample.start Sample.opening
    Sample.total_le (Sample.calls.take 3)
  exact (@call_processOrder_refines Sample.newDecimal _ hWell
    ⟨"buy", 2, "buyer", .buy, .queued, 5 * one, 2 * one, 2 * one, 12⟩
    (Table.mem_def.mpr (by decide +kernel)) rfl ⟨"", 0, "", 13⟩).2 hSolvent

end Database
end ExchangeMatching
