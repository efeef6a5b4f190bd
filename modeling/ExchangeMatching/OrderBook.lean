import ExchangeMatching.Statements
import ExchangeMatching.Library.SortedSearch

/-! The maker search. Candidates are read one at a time, best price first and
then by sequence, strictly after the last one seen; each is locked and read
again before it is accepted. -/
namespace ExchangeMatching

open Transactions

namespace MatchingOrderBook

structure MakerCursor where
  price : Int
  sequence : Nat
deriving DecidableEq, Repr

structure Candidate extends MakerCursor where
  id : OrderId
deriving DecidableEq, Repr

/-- Orders beyond the cursor, at a worse price or later at the same price. -/
def afterCursor (buying : Bool) (cursor : Option MakerCursor) (order : Order) : Bool :=
  match cursor with
  | none => true
  | some cursor =>
      (if buying then cursor.price < order.price else order.price < cursor.price) ||
        (order.price = cursor.price && cursor.sequence < order.sequence)

/-- The `where` clause of the candidate query. -/
def candidateCondition (taker : Order) (cursor : Option MakerCursor) (order : Order) : Bool :=
  let buying := taker.side = .buy
  order.side = (if buying then .sell else .buy) &&
    order.userId ≠ taker.userId &&
    order.status ∈ [.opened, .partiallyFilled] &&
    (if buying then order.price ≤ taker.price else taker.price ≤ order.price) &&
    afterCursor buying cursor order

/-- The `orderBy` clause: price ascending for a buyer and descending for a
seller, then sequence ascending. -/
def candidateOrder (taker left right : Order) : Bool :=
  let buying := taker.side = .buy
  (if buying then left.price < right.price else right.price < left.price) ||
    (left.price = right.price && left.sequence ≤ right.sequence)

def findNextCandidate (taker : Order) (cursor : Option MakerCursor) :
    Transaction (Option Candidate) := do
  let order ← Program.perform
    (.findFirstOrder (candidateCondition taker cursor) (candidateOrder taker))
  return order.map fun order => ⟨⟨order.price, order.sequence⟩, order.id⟩

def isEligibleMaker (taker maker : Order) : Bool :=
  if maker.userId = taker.userId then false
  else if maker.status ≠ .opened ∧ maker.status ≠ .partiallyFilled then false
  else if maker.remainingAmount ≤ 0 then false
  else if taker.side = .buy then maker.side = .sell && maker.price ≤ taker.price
  else maker.side = .buy && taker.price ≤ maker.price

/-- What a maker leaves to cover. Dust cannot cover the taker: settlement
skips zero-cost fragments. -/
def cover (remaining : Int) (maker : Order) : Except Failure Int := do
  let amount := if remaining < maker.remainingAmount then remaining else maker.remainingAmount
  if 0 < (← multiplyScaled amount maker.price) then subtractScaled remaining amount
  else return remaining

/-- The search loop, cut short by `fuel`. -/
def searchMakers (taker : Order) : Nat → Int → Option MakerCursor → List Order →
    Transaction (List Order)
  | 0, _, _, _ => .throw .fuelExhausted
  | fuel + 1, remaining, cursor, makers =>
      if 0 < remaining then do
        match ← findNextCandidate taker cursor with
        | none => return makers
        | some candidate =>
            -- Advance even if this candidate is cancelled or deleted while we wait.
            let cursor := some candidate.toMakerCursor
            if ← Program.perform (.lockOrder candidate.id none) then
              match ← Program.perform (.findOrder candidate.id none) with
              | none => searchMakers taker fuel remaining cursor makers
              | some maker =>
                  if isEligibleMaker taker maker then
                    let remaining ← Program.ofExcept (cover remaining maker)
                    searchMakers taker fuel remaining cursor (makers ++ [maker])
                  else searchMakers taker fuel remaining cursor makers
            else searchMakers taker fuel remaining cursor makers
      else return makers

def findAndLockEligibleMakers (fuel : Nat) (taker : Order) : Transaction (List Order) :=
  searchMakers taker fuel taker.remainingAmount none []

/-- The candidates beyond a cursor, in the order in which they are visited. -/
def candidates (orders : List Order) (taker : Order) (cursor : Option MakerCursor) : List Order :=
  (orders.filter (candidateCondition taker cursor)).insertionSort (candidateOrder taker · ·)

/-- The makers that the search takes from a list of candidates. -/
def selectMakers : Int → List Order → Except Failure (List Order)
  | _, [] => .ok []
  | remaining, maker :: makers =>
      if 0 < remaining then do
        let remaining ← cover remaining maker
        let selected ← selectMakers remaining makers
        return maker :: selected
      else .ok []

variable {taker : Order}

instance : Std.Total (fun left right => candidateOrder taker left right = true) where
  total left right := by
    simp only [candidateOrder, Bool.or_eq_true, Bool.and_eq_true, decide_eq_true_eq]
    split_ifs <;> simp only [decide_eq_true_eq] <;> omega

instance : IsTrans Order (fun left right => candidateOrder taker left right = true) where
  trans first second third := by
    simp only [candidateOrder, Bool.or_eq_true, Bool.and_eq_true, decide_eq_true_eq]
    split_ifs <;> simp only [decide_eq_true_eq] <;> omega

/-- Orders of the same price have different sequence numbers. -/
theorem untied_orders (market : Market) :
    SortedSearch.Untied (candidateOrder taker · ·) market.orders.rows := by
  intro left hLeft right hRight hBefore hAfter
  have hSequence : left.sequence = right.sequence := by
    revert hBefore hAfter
    simp only [candidateOrder, Bool.or_eq_true, Bool.and_eq_true, decide_eq_true_eq]
    split_ifs <;> simp only [decide_eq_true_eq] <;> omega
  exact List.inj_on_of_nodup_map market.sequences hLeft hRight hSequence

theorem afterCursor_iff {maker order : Order} :
    afterCursor (taker.side = .buy) (some ⟨maker.price, maker.sequence⟩) order = true ↔
      ¬candidateOrder taker order maker = true := by
  simp only [afterCursor, candidateOrder, Bool.or_eq_true, Bool.and_eq_true, decide_eq_true_eq]
  split_ifs <;> simp only [decide_eq_true_eq] <;> omega

/-- A cursor at a visited order excludes all that the earlier cursor excluded. -/
theorem candidateCondition_advance {cursor : Option MakerCursor} {maker : Order} (order : Order)
    (hMaker : candidateCondition taker cursor maker = true) :
    candidateCondition taker (some ⟨maker.price, maker.sequence⟩) order =
      (candidateCondition taker cursor order &&
        afterCursor (taker.side = .buy) (some ⟨maker.price, maker.sequence⟩) order) := by
  have hAfter : afterCursor (taker.side = .buy) (some ⟨maker.price, maker.sequence⟩) order =
      true → afterCursor (taker.side = .buy) cursor order = true := by
    simp only [candidateCondition, Bool.and_eq_true] at hMaker
    have hCursor := hMaker.2
    cases cursor with
    | none => exact fun _ => rfl
    | some cursor =>
        revert hCursor
        simp only [afterCursor, Bool.or_eq_true, Bool.and_eq_true, decide_eq_true_eq]
        split_ifs <;> simp only [decide_eq_true_eq] <;> omega
  simp only [candidateCondition]
  revert hAfter
  generalize afterCursor (taker.side = .buy) (some ⟨maker.price, maker.sequence⟩) order = later
  generalize afterCursor (taker.side = .buy) cursor order = earlier
  intro hAfter
  cases later with
  | false => simp only [Bool.and_false]
  | true => simp only [hAfter rfl, Bool.and_true]

/-- Advancing the cursor to the first candidate leaves the others. -/
theorem candidates_advance {market : Market} {cursor : Option MakerCursor} {maker : Order}
    {makers : List Order} (h : candidates market.orders.rows taker cursor = maker :: makers) :
    candidates market.orders.rows taker (some ⟨maker.price, maker.sequence⟩) = makers := by
  have hMaker : maker ∈ market.orders.rows.filter (candidateCondition taker cursor) := by
    rw [← List.mem_insertionSort (candidateOrder taker · ·), show List.insertionSort _ _ = _ from h]
    exact List.mem_cons_self
  have hRows : market.orders.rows.filter
        (candidateCondition taker (some ⟨maker.price, maker.sequence⟩)) =
      (market.orders.rows.filter (candidateCondition taker cursor)).filter
        (afterCursor (taker.side = .buy) (some ⟨maker.price, maker.sequence⟩)) := by
    rw [List.filter_filter]
    apply List.filter_congr
    intro order _
    rw [candidateCondition_advance order (List.of_mem_filter hMaker), Bool.and_comm]
  unfold candidates
  rw [hRows]
  exact SortedSearch.insertionSort_filter_after_head ((untied_orders market).filter _)
    (market.orders.nodup.of_map.filter _) h (fun order _ => afterCursor_iff)

theorem mem_candidates {orders : List Order} {cursor : Option MakerCursor} {order : Order} :
    order ∈ candidates orders taker cursor ↔
      order ∈ orders ∧ candidateCondition taker cursor order = true := by
  rw [candidates, List.mem_insertionSort, List.mem_filter]

/-- A candidate that still has something to trade passes the second check. -/
theorem isEligibleMaker_of_candidateCondition {cursor : Option MakerCursor} {maker : Order}
    (hMaker : candidateCondition taker cursor maker = true)
    (hPositive : 0 < maker.remainingAmount) : isEligibleMaker taker maker = true := by
  revert hMaker
  simp only [candidateCondition, isEligibleMaker, Bool.and_eq_true, decide_eq_true_eq,
    List.mem_cons, List.not_mem_nil, or_false]
  rintro ⟨⟨⟨⟨hSide, hUser⟩, hStatus⟩, hPrice⟩, _⟩
  rw [if_neg hUser, if_neg (by rcases hStatus with h | h <;> simp [h]), if_neg (by omega)]
  split_ifs at hSide hPrice ⊢ <;> simpa [hSide] using hPrice

/-- The limits of the two orders allow a trade. -/
def priceCrosses (taker maker : Order) : Prop :=
  match taker.side with
  | .buy => maker.price ≤ taker.price
  | .sell => taker.price ≤ maker.price

theorem isEligibleMaker_iff {maker : Order} : isEligibleMaker taker maker = true ↔
    maker.userId ≠ taker.userId ∧ maker.status.isResting = true ∧ 0 < maker.remainingAmount ∧
      maker.side ≠ taker.side ∧ priceCrosses taker maker := by
  have hStatus : (maker.status ≠ .opened ∧ maker.status ≠ .partiallyFilled) ↔
      ¬maker.status.isResting = true := by
    cases maker.status <;> simp [OrderStatus.isResting]
  have hChain : isEligibleMaker taker maker = true ↔
      ¬maker.userId = taker.userId ∧ maker.status.isResting = true ∧
      ¬maker.remainingAmount ≤ 0 ∧
        (if taker.side = .buy then maker.side = .sell && maker.price ≤ taker.price
          else maker.side = .buy && taker.price ≤ maker.price) = true := by
    simp only [isEligibleMaker, hStatus]
    split_ifs <;> simp_all
  rw [hChain, not_le]
  cases hTaker : taker.side <;> cases hMaker : maker.side <;> simp [priceCrosses, hTaker]

theorem isResting_of_candidateCondition {cursor : Option MakerCursor} {maker : Order}
    (hMaker : candidateCondition taker cursor maker = true) : maker.status.isResting = true := by
  simp only [candidateCondition, Bool.and_eq_true, decide_eq_true_eq, List.mem_cons,
    List.not_mem_nil, or_false] at hMaker
  rcases hMaker.1.1.2 with h | h <;> rw [h] <;> rfl

theorem run_findNextCandidate {generated : Generated} {db : Database} {Result : Type}
    {cursor : Option MakerCursor} {next : Option Candidate → Transaction Result} :
    engine.run generated (findNextCandidate taker cursor >>= next) db =
      engine.run generated (next ((candidates db.orders.rows taker cursor).head?.map
        fun order => ⟨⟨order.price, order.sequence⟩, order.id⟩)) db := rfl

/-- Alone in the database the search selects from the candidates in order. -/
theorem run_searchMakers {generated : Generated} {db : Database} {fuel : Nat} {remaining : Int}
    {cursor : Option MakerCursor} {makers : List Order}
    (hPositive : ∀ order ∈ db.orders, order.status.isResting → 0 < order.remainingAmount)
    (hFuel : (candidates db.orders.rows taker cursor).length < fuel) :
    engine.run generated (searchMakers taker fuel remaining cursor makers) db =
      (selectMakers remaining (candidates db.orders.rows taker cursor)).map
        fun selected => (makers ++ selected, db) := by
  induction fuel generalizing remaining cursor makers with
  | zero => exact absurd hFuel (Nat.not_lt_zero _)
  | succ fuel ih =>
      unfold searchMakers
      by_cases hRemaining : 0 < remaining
      · rw [if_pos hRemaining, run_findNextCandidate]
        cases hCandidates : candidates db.orders.rows taker cursor with
        | nil => simp [selectMakers, Except.map]
        | cons maker rest =>
            obtain ⟨hMem, hCondition⟩ := mem_candidates.mp (hCandidates ▸ List.mem_cons_self)
            have hFound : db.findOrder maker.id none = some maker := by
              rw [Database.findOrder, Table.find?_of_mem hMem]
              rfl
            have hEligible := isEligibleMaker_of_candidateCondition hCondition
              (hPositive maker hMem (isResting_of_candidateCondition hCondition))
            have hAdvance := candidates_advance hCandidates
            rw [hCandidates] at hFuel
            simp only [List.head?_cons, Option.map_some, Program.perform_bind, run_lockOrder,
              hFound, run_findOrder, Option.isSome_some, if_true, hEligible, selectMakers,
              hRemaining]
            cases cover remaining maker with
            | error failure => rfl
            | ok left =>
                simp only [Program.ofExcept, Program.mk_pure_bind]
                rw [ih (hAdvance.symm ▸ Nat.lt_of_succ_lt_succ hFuel), hAdvance]
                cases hSelected : selectMakers left rest with
                | error failure => simp only [Except.map, Bind.bind, Except.bind, hSelected]
                | ok selected =>
                    simp only [Except.map, Bind.bind, Except.bind, hSelected, pure, Except.pure,
                      List.append_assoc, List.singleton_append]
      · rw [if_neg hRemaining]
        cases candidates db.orders.rows taker cursor <;>
          simp [selectMakers, Except.map, hRemaining]

end MatchingOrderBook
end ExchangeMatching
