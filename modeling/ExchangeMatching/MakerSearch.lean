import ExchangeMatching.Library.Surroundings
import ExchangeMatching.Failures
import ExchangeMatching.PriceTime

/-! The maker search among cancellations and deletions. The caller holds the
market lock, so no order comes to the book; orders may leave it before the
search has locked them, and the search waits for an order that somebody else is
about to withdraw. -/
namespace ExchangeMatching

open Transactions MatchingOrderBook

namespace MakerSearch

/-- How others take an order off the book. -/
inductive Withdrawal where
  | cancel
  | delete
deriving DecidableEq, Repr

/-- The market without an order on its book. -/
def withdraw (market : Market) (id : OrderId) : Withdrawal → Market
  | .cancel => {
      wallets := market.wallets
      orders := market.orders.modify id
        (fun order => order.revised order.remainingAmount .cancelled)
        (fun order => order.revised_id _ _)
      sequences := by
        rw [Table.map_modify]
        · exact market.sequences
        · exact fun order => order.revised_sequence _ _
      trades := market.trades }
  | .delete => {
      wallets := market.wallets
      orders := market.orders.delete (·.id = id)
      sequences := market.sequences.sublist (List.filter_sublist.map Order.sequence)
      trades := market.trades }

/-- The committed rows, the withdrawals under way, each of which has locked its
order, and what the search has locked and visited, latest first. -/
structure World where
  db : Database
  withdrawals : List (OrderId × Withdrawal)
  withdrawn : List OrderId
  locked : List OrderId
  visited : List OrderId

namespace World

/-- The order that a statement locks. -/
def asked {Reply : Type} : Statement Reply → Option OrderId
  | .lockOrder id _ => some id
  | _ => none

/-- A lock waits for a withdrawal of the order. -/
def Effect (generated : Generated) {Reply : Type} (statement : Statement Reply) (world : World)
    (reply : Except Failure Reply) (world' : World) : Prop :=
  (∀ id ∈ asked statement, id ∉ world.withdrawals.map Prod.fst) ∧
    match effect generated statement world.db with
    | .error failure => reply = .error failure ∧ world' = world
    | .ok (value, writes) => reply = .ok value ∧ world' = { world with
        db := engine.applyAll world.db writes
        locked := (asked statement).toList.filter (fun id => (world.db.orders.find? id).isSome) ++
          world.locked
        visited := (asked statement).toList ++ world.visited }

/-- What others do. They may also change whatever is neither on the book nor
locked by the search, but without the market lock no order comes to the book. -/
inductive Outside (world : World) : World → Prop where
  | begin (id : OrderId) (withdrawal : Withdrawal) (unlocked : id ∉ world.locked)
      (free : id ∉ world.withdrawals.map Prod.fst) :
      Outside world { world with withdrawals := (id, withdrawal) :: world.withdrawals }
  | commit (id : OrderId) (withdrawal : Withdrawal) (mem : (id, withdrawal) ∈ world.withdrawals) :
      Outside world { world with
        db := { world.db with toMarket := withdraw world.db.toMarket id withdrawal }
        withdrawals := world.withdrawals.filter (·.1 ≠ id)
        withdrawn := id :: world.withdrawn }
  | rollback (id : OrderId) :
      Outside world { world with withdrawals := world.withdrawals.filter (·.1 ≠ id) }
  | other (db : Database)
      (book : ∀ order : Order, order.status.isResting = true →
        (order ∈ db.orders ↔ order ∈ world.db.orders))
      (locked : ∀ id ∈ world.locked, db.orders.find? id = world.db.orders.find? id) :
      Outside world { world with db := db }

/-- The search begins. -/
def start (db : Database) : World := ⟨db, [], [], [], []⟩

end World

def surroundings (generated : Generated) : Surroundings Statement Failure World where
  effect := World.Effect generated
  outside := World.Outside

variable {generated : Generated} {market : Market} {world world' : World}

/-- Withdrawing a resting order takes out that order and no other. -/
theorem mem_withdraw {id : OrderId} {withdrawal : Withdrawal} {order : Order}
    (hResting : order.status.isResting = true) :
    order ∈ (withdraw market id withdrawal).orders ↔
    order ∈ market.orders ∧ order.id ≠ id := by
  cases withdrawal with
  | cancel =>
      rw [withdraw, Table.mem_modify]
      constructor
      · rintro (hKept | ⟨old, _, _, rfl⟩)
        · exact hKept
        · cases hResting
      · exact Or.inl
  | delete =>
      rw [withdraw, Table.mem_delete, decide_eq_false_iff_not]

/-- The book is what it was at the start, less what was withdrawn. -/
structure Follows (market : Market) (world : World) : Prop where
  rows : ∀ order : Order, order.status.isResting = true → order ∈ world.db.orders →
    order ∈ market.orders
  kept : ∀ order ∈ market.orders, order.status.isResting = true →
    (order ∈ world.db.orders ↔ order.id ∉ world.withdrawn)
  free : ∀ id ∈ world.withdrawals.map Prod.fst, id ∉ world.locked

/-- Nothing is withdrawn that the search has locked. -/
structure Grows (world world' : World) : Prop where
  locked : world'.locked = world.locked
  visited : world'.visited = world.visited
  withdrawn : ∀ id ∈ world.withdrawn, id ∈ world'.withdrawn
  unlocked : ∀ id ∈ world'.withdrawn, id ∈ world.withdrawn ∨ id ∉ world.locked

/-- A search that has just started has seen nothing of the others. -/
theorem follows_start (db : Database) : Follows db.toMarket (.start db) where
  rows _ _ hOrder := hOrder
  kept _ hOrder _ := ⟨fun _ => List.not_mem_nil, fun _ => hOrder⟩
  free _ hId := by cases hId

/-- What others do during the search withdraws orders or happens elsewhere. -/
theorem Follows.of_outside (h : Follows market world) (hOutside : world.Outside world') :
    Follows market world' ∧ Grows world world' := by
  have hFree : ∀ id, ∀ other ∈ (world.withdrawals.filter (·.1 ≠ id)).map Prod.fst,
      other ∉ world.locked :=
    fun id other hOther => h.free other ((List.filter_sublist.map Prod.fst).mem hOther)
  cases hOutside with
  | begin id withdrawal unlocked free =>
      refine ⟨⟨h.rows, h.kept, ?_⟩, ⟨rfl, rfl, fun _ hId => hId, fun _ hId => Or.inl hId⟩⟩
      rw [List.map_cons, List.forall_mem_cons]
      exact ⟨unlocked, h.free⟩
  | commit id withdrawal mem =>
      refine ⟨⟨fun order hResting hOrder => ?_, fun order hOrder hResting => ?_, hFree id⟩,
        ⟨rfl, rfl, fun _ hId => List.mem_cons_of_mem id hId, fun other hOther => ?_⟩⟩
      · exact h.rows order hResting ((mem_withdraw hResting).mp hOrder).1
      · dsimp only
        rw [mem_withdraw hResting, h.kept order hOrder hResting, List.mem_cons, not_or, and_comm]
      · rcases List.mem_cons.mp hOther with rfl | hOld
        · exact Or.inr (h.free _ (List.mem_map.mpr ⟨_, mem, rfl⟩))
        · exact Or.inl hOld
  | rollback id =>
      exact ⟨⟨h.rows, h.kept, hFree id⟩,
        ⟨rfl, rfl, fun _ hId => hId, fun _ hId => Or.inl hId⟩⟩
  | other db book locked =>
      refine ⟨⟨fun order hResting hOrder => ?_, fun order hOrder hResting => ?_, h.free⟩,
        ⟨rfl, rfl, fun _ hId => hId, fun _ hId => Or.inl hId⟩⟩
      · exact h.rows order hResting ((book order hResting).mp hOrder)
      · exact (book order hResting).trans (h.kept order hOrder hResting)

/-- Withdrawals and locks accumulate. -/
theorem Grows.trans {world'' : World} (h : Grows world world') (hLater : Grows world' world'') :
    Grows world world'' where
  locked := hLater.locked.trans h.locked
  visited := hLater.visited.trans h.visited
  withdrawn id hId := hLater.withdrawn id (h.withdrawn id hId)
  unlocked id hId := by
    rcases hLater.unlocked id hId with hMiddle | hFree
    · exact h.unlocked id hMiddle
    · exact Or.inr (h.locked ▸ hFree)

/-- By induction the same holds after any number of their steps. -/
theorem Follows.of_later (h : Follows market world)
    (hLater : (surroundings generated).Later world world') :
    Follows market world' ∧ Grows world world' := by
  induction hLater with
  | refl => exact ⟨h, rfl, rfl, fun _ hId => hId, fun _ hId => Or.inl hId⟩
  | tail _ hOutside ih =>
      obtain ⟨hFollows, hGrows⟩ := ih.1.of_outside hOutside
      exact ⟨hFollows, ih.2.trans hGrows⟩

section Statements

variable {condition : Order → Bool} {orderBy : Order → Order → Bool} {id : OrderId}

/-- A query for the first order answers with the least one that satisfies its
condition. -/
theorem effect_findFirstOrder {reply : Except Failure (Option Order)} :
    (surroundings generated).effect (.findFirstOrder condition orderBy) world reply world' ↔
      reply = .ok ((world.db.orders.rows.filter condition).insertionSort (orderBy · ·)).head? ∧
        world' = world :=
  ⟨fun h => h.2, fun h => ⟨(fun _ hId => by cases hId), h⟩⟩

/-- A query by id answers with the row as it is now. -/
theorem effect_findOrder {reply : Except Failure (Option Order)} :
    (surroundings generated).effect (.findOrder id none) world reply world' ↔
      reply = .ok (world.db.orders.find? id) ∧ world' = world := by
  rw [← Database.findOrder_none]
  exact ⟨fun h => h.2, fun h => ⟨(fun _ hId => by cases hId), h⟩⟩

/-- A lock is granted for an order that nobody is withdrawing, and tells whether the
row exists. -/
theorem effect_lockOrder {reply : Except Failure Bool} :
    (surroundings generated).effect (.lockOrder id none) world reply world' ↔
      id ∉ world.withdrawals.map Prod.fst ∧ reply = .ok (world.db.orders.find? id).isSome ∧
        world' = { world with
          locked := [id].filter (fun id => (world.db.orders.find? id).isSome) ++ world.locked
          visited := id :: world.visited } := by
  rw [← Database.findOrder_none]
  constructor
  · exact fun h => ⟨h.1 id rfl, h.2⟩
  · rintro ⟨hFree, hEffect⟩
    refine ⟨fun other hOther => ?_, hEffect⟩
    obtain rfl : id = other := Option.some.inj hOther
    exact hFree

end Statements

/-- The cursor after some orders have been visited. -/
def cursorAt (passed : List Order) : Option MakerCursor :=
  passed.getLast?.map fun order => ⟨order.price, order.sequence⟩

variable {taker : Order} {cursor : Option MakerCursor} {passed rest makers : List Order}

/-- The candidates beyond a cursor are the rest of the sorted book. -/
theorem candidates_cursorAt
    (h : candidates market.orders.rows taker cursor = passed ++ rest) :
    candidates market.orders.rows taker ((cursorAt passed).or cursor) = rest := by
  induction passed generalizing cursor with
  | nil => exact h
  | cons maker passed ih =>
      have hRest := ih (candidates_advance h)
      rw [cursorAt, List.getLast?_cons]
      cases hLast : passed.getLast? with
      | none =>
          rw [cursorAt, hLast] at hRest
          exact hRest
      | some last =>
          rw [cursorAt, hLast] at hRest
          exact hRest

/-- The search at the head of its loop: it has passed a prefix of the sorted
book, and has accepted what was not withdrawn of it. -/
structure Searching (market : Market) (taker : Order) (cursor : Option MakerCursor)
    (makers passed : List Order) (world : World) : Prop where
  follows : Follows market world
  split : candidates market.orders.rows taker none =
    passed ++ candidates market.orders.rows taker cursor
  makers : makers = passed.filter (·.id ∉ world.withdrawn)
  settled : ∀ order ∈ passed, order.id ∈ world.locked ∨ order.id ∈ world.withdrawn
  visited : world.visited.reverse.Sublist (passed.map Order.id)
  last : world.visited.head? = passed.getLast?.map Order.id

/-- The state of a search is stable under what others do. -/
theorem Searching.of_later (h : Searching market taker cursor makers passed world)
    (hLater : (surroundings generated).Later world world') :
    Searching market taker cursor makers passed world' := by
  obtain ⟨hFollows, hGrows⟩ := h.follows.of_later hLater
  have hSettled : ∀ order ∈ passed, order.id ∈ world'.withdrawn ↔
      order.id ∈ world.withdrawn := by
    intro order hOrder
    refine ⟨fun hLast => ?_, hGrows.withdrawn order.id⟩
    rcases hGrows.unlocked order.id hLast with hFirst | hUnlocked
    · exact hFirst
    · exact (h.settled order hOrder).resolve_left hUnlocked
  refine ⟨hFollows, h.split, ?_, fun order hOrder => ?_, hGrows.visited ▸ h.visited,
    hGrows.visited ▸ h.last⟩
  · rw [h.makers]
    apply List.filter_congr
    intro order hOrder
    rw [decide_eq_decide, hSettled order hOrder]
  · rw [hGrows.locked, hSettled order hOrder]
    exact h.settled order hOrder

/-- An order of the book that is not withdrawn is still a candidate. -/
theorem Follows.mem_candidates (h : Follows market world) {order : Order} :
    order ∈ candidates world.db.orders.rows taker cursor ↔
      order ∈ candidates market.orders.rows taker cursor ∧ order.id ∉ world.withdrawn := by
  rw [MatchingOrderBook.mem_candidates, MatchingOrderBook.mem_candidates]
  constructor
  · rintro ⟨hRow, hCondition⟩
    have hResting := isResting_of_candidateCondition hCondition
    have hOrder := h.rows order hResting hRow
    exact ⟨⟨hOrder, hCondition⟩, (h.kept order hOrder hResting).mp hRow⟩
  · rintro ⟨⟨hOrder, hCondition⟩, hKept⟩
    exact ⟨(h.kept order hOrder (isResting_of_candidateCondition hCondition)).mpr hKept, hCondition⟩

/-- No candidate is listed twice. -/
theorem nodup_candidates (market : Market) (taker : Order) (cursor : Option MakerCursor) :
    (candidates market.orders.rows taker cursor).Nodup :=
  (List.perm_insertionSort _ _).nodup_iff.mpr (market.orders.nodup.of_map.filter _)

/-- And they are listed in the order of matching. -/
theorem pairwise_candidates (orders : List Order) (taker : Order) (cursor : Option MakerCursor) :
    (candidates orders taker cursor).Pairwise (candidateOrder taker · ·) :=
  List.pairwise_insertionSort _ _

/-- The next candidate is the first order of the rest that is not withdrawn. -/
theorem Follows.head?_candidates (h : Follows market world) {candidate : Order}
    (hHead : (candidates world.db.orders.rows taker cursor).head? = some candidate) :
    ∃ skipped rest, candidates market.orders.rows taker cursor = skipped ++ candidate :: rest ∧
      ∀ order ∈ skipped, order.id ∈ world.withdrawn := by
  obtain ⟨hCandidate, _⟩ := h.mem_candidates.mp (List.mem_of_mem_head? hHead)
  obtain ⟨skipped, rest, hSplit⟩ := List.append_of_mem hCandidate
  refine ⟨skipped, rest, hSplit, fun order hOrder => ?_⟩
  by_contra hKept
  have hOld : order ∈ candidates market.orders.rows taker cursor :=
    hSplit ▸ List.mem_append_left _ hOrder
  have hNow := MatchingOrderBook.mem_candidates.mp (h.mem_candidates.mpr ⟨hOld, hKept⟩)
  -- It would come before the candidate and not before it.
  have hFirst := SortedSearch.rel_of_head? (r := (candidateOrder taker · ·)) hHead
    (List.mem_filter.mpr hNow)
  have hPairwise := pairwise_candidates market.orders.rows taker cursor
  rw [hSplit] at hPairwise
  have hBefore := (List.pairwise_append.mp hPairwise).2.2 order hOrder candidate List.mem_cons_self
  have hEq := untied_orders market candidate
    (MatchingOrderBook.mem_candidates.mp hCandidate).1 order
    (MatchingOrderBook.mem_candidates.mp hOld).1 hFirst hBefore
  have hNodup := nodup_candidates market taker cursor
  rw [hSplit] at hNodup
  exact (List.nodup_append.mp hNodup).2.2 order hOrder candidate List.mem_cons_self hEq.symm

/-- No candidate is left when all of the rest is withdrawn, and only then. -/
theorem Follows.withdrawn_of_head?_candidates (h : Follows market world)
    (hHead : (candidates world.db.orders.rows taker cursor).head? = none) :
    ∀ order ∈ candidates market.orders.rows taker cursor, order.id ∈ world.withdrawn := by
  intro order hOrder
  rw [List.head?_eq_none_iff] at hHead
  by_contra hKept
  have hNow := h.mem_candidates.mpr ⟨hOrder, hKept⟩
  rw [hHead] at hNow
  cases hNow

/-- The search locks its next candidate. If the candidate is still on the book
then nobody can withdraw it any more. -/
theorem Searching.lock {candidate : Order} {locking locked : World} {found : Bool}
    (h : Searching market taker cursor makers passed world)
    (hHead : (candidates world.db.orders.rows taker cursor).head? = some candidate)
    (hLater : (surroundings generated).Later world locking)
    (hLock : (surroundings generated).effect (.lockOrder candidate.id none) locking
      (.ok found) locked) :
    (candidate.id ∉ locked.withdrawn → found = true ∧ candidate.id ∈ locked.locked) ∧
      ∃ passed, Searching market taker (some ⟨candidate.price, candidate.sequence⟩)
        (if candidate.id ∈ locked.withdrawn then makers else makers ++ [candidate]) passed
          locked := by
  obtain ⟨skipped, rest, hSplit, hSkipped⟩ := h.follows.head?_candidates hHead
  obtain ⟨_, hGrows⟩ := h.follows.of_later hLater
  have hNow := h.of_later hLater
  obtain ⟨hFree, hFound, rfl⟩ := effect_lockOrder.mp hLock
  rw [Except.ok.injEq] at hFound
  have hCandidate : candidate ∈ market.orders ∧ candidate.status.isResting = true := by
    have hMem := (h.follows.mem_candidates.mp (List.mem_of_mem_head? hHead)).1
    rw [MatchingOrderBook.mem_candidates] at hMem
    exact ⟨hMem.1, isResting_of_candidateCondition hMem.2⟩
  have hKept : candidate.id ∉ locking.withdrawn →
      (locking.db.orders.find? candidate.id).isSome = true := by
    intro hId
    rw [Table.find?_of_mem ((hNow.follows.kept candidate hCandidate.1 hCandidate.2).mpr hId)]
    rfl
  have hLocked : candidate.id ∉ locking.withdrawn → candidate.id ∈
      [candidate.id].filter (fun id => (locking.db.orders.find? id).isSome) ++ locking.locked := by
    intro hId
    rw [List.filter_cons, if_pos (hKept hId)]
    exact List.mem_cons_self
  refine ⟨fun hId => ⟨hFound.trans (hKept hId), hLocked hId⟩, passed ++ skipped ++ [candidate],
    ⟨hNow.follows.rows, hNow.follows.kept, fun id hId => ?_⟩, ?_, ?_, fun order hOrder => ?_,
    ?_, ?_⟩
  · rw [List.mem_append, not_or]
    refine ⟨fun hSelf => hFree ?_, hNow.follows.free id hId⟩
    exact List.mem_singleton.mp (List.mem_of_mem_filter hSelf) ▸ hId
  · have hRest := @candidates_cursorAt market taker cursor (skipped ++ [candidate]) rest
      (by rw [hSplit, List.append_assoc, List.singleton_append])
    rw [cursorAt, List.getLast?_concat, Option.map_some, Option.some_or] at hRest
    rw [hRest, h.split, hSplit]
    simp only [List.append_assoc, List.singleton_append]
  · have hNone : skipped.filter (·.id ∉ locking.withdrawn) = [] := by
      rw [List.filter_eq_nil_iff]
      intro order hOrder
      simpa using hGrows.withdrawn order.id (hSkipped order hOrder)
    rw [List.filter_append, List.filter_append, hNone, List.append_nil, ← hNow.makers,
      List.filter_cons]
    by_cases hId : candidate.id ∈ locking.withdrawn
    · simp [hId]
    · simp [hId]
  · rw [List.mem_append, List.mem_append, List.mem_singleton] at hOrder
    rcases hOrder with (hPassed | hOrder) | rfl
    · exact (hNow.settled order hPassed).imp_left (List.mem_append_right _)
    · exact Or.inr (hGrows.withdrawn order.id (hSkipped order hOrder))
    · by_cases hId : order.id ∈ locking.withdrawn
      · exact Or.inr hId
      · exact Or.inl (hLocked hId)
  · rw [List.reverse_cons, List.map_append, List.map_append]
    exact (hNow.visited.trans (List.sublist_append_left _ _)).append (List.Sublist.refl _)
  · rw [List.getLast?_concat]
    rfl

/-- Fewer candidates are left after one of them. -/
theorem candidates_length_lt {candidate : Order}
    (h : candidate ∈ candidates market.orders.rows taker cursor) :
    (candidates market.orders.rows taker (some ⟨candidate.price, candidate.sequence⟩)).length <
      (candidates market.orders.rows taker cursor).length := by
  obtain ⟨skipped, rest, hSplit⟩ := List.append_of_mem h
  have hRest := @candidates_cursorAt market taker cursor (skipped ++ [candidate]) rest
    (by rw [hSplit, List.append_assoc, List.singleton_append])
  rw [cursorAt, List.getLast?_concat, Option.map_some, Option.some_or] at hRest
  rw [hRest, hSplit, List.length_append, List.length_cons]
  omega

/-- What the search reads under its lock passes the second check if the
candidate is still on the book, and is then the candidate. -/
theorem Follows.read {candidate : Order} (h : Follows market world)
    (hCandidate : candidate ∈ market.orders) (hEligible : isEligibleMaker taker candidate = true) :
    (candidate.id ∉ world.withdrawn → world.db.orders.find? candidate.id = some candidate) ∧
      (candidate.id ∈ world.withdrawn → ∀ maker, world.db.orders.find? candidate.id =
        some maker → isEligibleMaker taker maker = false) := by
  have hResting := (isEligibleMaker_iff.mp hEligible).2.1
  have hKept := h.kept candidate hCandidate hResting
  refine ⟨fun hId => Table.find?_of_mem (hKept.mpr hId), fun hId maker hFound => ?_⟩
  by_contra hMaker
  rw [Bool.not_eq_false] at hMaker
  have hMem := h.rows maker (isEligibleMaker_iff.mp hMaker).2.1 (Table.mem_of_find? hFound)
  have hSame : maker = candidate := by
    have hMarket := Table.find?_of_mem hMem
    rw [Table.key_of_find? hFound, Table.find?_of_mem hCandidate] at hMarket
    exact (Option.some.inj hMarket).symm
  exact hKept.mp (hSame ▸ Table.mem_of_find? hFound) hId

/-- Every candidate is visited at most once. -/
theorem Searching.bounded (h : Searching market taker cursor makers passed world) :
    world.visited.Nodup ∧
      world.visited.length ≤ (candidates market.orders.rows taker none).length := by
  have hIds : ((candidates market.orders.rows taker none).map Order.id).Nodup :=
    ((List.perm_insertionSort _ _).map Order.id).nodup_iff.mpr
      (market.orders.nodup.sublist (List.filter_sublist.map Order.id))
  have hSublist : world.visited.reverse.Sublist
      ((candidates market.orders.rows taker none).map Order.id) := by
    rw [h.split, List.map_append]
    exact h.visited.trans (List.sublist_append_left _ _)
  refine ⟨List.nodup_reverse.mp (hIds.sublist hSublist), ?_⟩
  have hLength := hSublist.length_le
  rwa [List.length_reverse, List.length_map] at hLength

section Covering

variable {remaining left : Int} {maker : Order}

/-- Counting a maker can only fail because of a calculation out of range. -/
theorem refuses_cover (remaining : Int) (maker : Order) : Refuses (cover remaining maker) := by
  refine (refuses_multiplyScaled _ _).bind fun value => ?_
  by_cases hValue : 0 < value
  · rw [if_pos hValue]
    exact refuses_subtractScaled _ _
  · rw [if_neg hValue]
    exact .ok _

/-- What is left to cover stays in range. -/
theorem cover_range (hSound : maker.Sound) (hRange : 0 ≤ remaining ∧ remaining ≤ decimalMax)
    (h : cover remaining maker = .ok left) : 0 ≤ left ∧ left ≤ decimalMax := by
  have hMaker := hSound.remaining_nonneg
  rw [MatchingService.cover_eq hSound hRange.1 hRange.2, Except.ok.injEq] at h
  rw [← h]
  split_ifs
  · exact hRange
  · omega

/-- Also after several makers. -/
theorem foldlM_cover_range (hSound : ∀ maker ∈ makers, maker.Sound)
    (hRange : 0 ≤ remaining ∧ remaining ≤ decimalMax)
    (h : makers.foldlM cover remaining = .ok left) : 0 ≤ left ∧ left ≤ decimalMax := by
  induction makers generalizing remaining with
  | nil =>
      cases h
      exact hRange
  | cons maker makers ih =>
      rw [List.foldlM_cons] at h
      cases hCover : cover remaining maker with
      | error failure =>
          rw [hCover] at h
          cases h
      | ok next =>
          rw [hCover] at h
          exact ih (fun other hOther => hSound other (List.mem_cons_of_mem maker hOther))
            (cover_range (hSound maker List.mem_cons_self) hRange hCover) h

end Covering

/-- The maker search refuses a book only if some order of it would not have
passed the checks of its creation. -/
def Refused (market : Market) (taker : Order) (failure : Failure) : Prop :=
  failure ≠ .fuelExhausted ∧ ¬(taker.Valid ∧ ∀ order ∈ market.orders, order.Sound)

/-- The makers found so far are orders of the market. -/
theorem Searching.mem_orders (h : Searching market taker cursor makers passed world) {maker : Order}
    (hMaker : maker ∈ makers) : maker ∈ market.orders := by
  have hPassed : maker ∈ candidates market.orders.rows taker none := by
    rw [h.split]
    rw [h.makers] at hMaker
    exact List.mem_append_left _ (List.mem_of_mem_filter hMaker)
  exact (MatchingOrderBook.mem_candidates.mp hPassed).1

/-- If counting the next maker fails, the search is refused for exactly that reason. -/
theorem Searching.refused {maker : Order} {remaining : Int} {failure : Failure}
    (h : Searching market taker cursor makers passed world) (hMaker : maker ∈ market.orders)
    (hCover : makers.foldlM cover taker.remainingAmount = .ok remaining)
    (hFailed : cover remaining maker = .error failure) : Refused market taker failure := by
  constructor
  · obtain ⟨message, rfl⟩ := refuses_cover remaining maker failure hFailed
    exact fun hEq => by cases hEq
  · rintro ⟨hTaker, hSound⟩
    have hRange := foldlM_cover_range (fun other hOther => hSound other (h.mem_orders hOther))
      ⟨hTaker.remaining_nonneg, hTaker.remaining_le.trans hTaker.original_le⟩ hCover
    rw [MatchingService.cover_eq (hSound maker hMaker) hRange.1 hRange.2] at hFailed
    cases hFailed

/-- The search has ended: its makers cover the taker, or there are no more. -/
def Ended (market : Market) (taker : Order) (makers : List Order) (world : World) : Prop :=
  ∃ cursor passed, Searching market taker cursor makers passed world ∧
    ((∃ remaining ≤ 0, makers.foldlM cover taker.remainingAmount = .ok remaining) ∨
      ∀ order ∈ candidates market.orders.rows taker cursor, order.id ∈ world.withdrawn)

/-- No candidate is visited twice. -/
def Bounded (market : Market) (taker : Order) (world : World) : Prop :=
  world.visited.Nodup ∧ world.visited.length ≤ (candidates market.orders.rows taker none).length

/-- What the search has found is not changed by later withdrawals. -/
theorem Ended.of_later (h : Ended market taker makers world)
    (hLater : (surroundings generated).Later world world') : Ended market taker makers world' := by
  obtain ⟨cursor, passed, hSearching, hEnd⟩ := h
  refine ⟨cursor, passed, hSearching.of_later hLater, hEnd.imp_right fun hRest order hOrder => ?_⟩
  exact (hSearching.follows.of_later hLater).2.withdrawn order.id (hRest order hOrder)

/-- The search from the lock of a candidate on. -/
def visitCandidate (taker : Order) (fuel : Nat) (remaining : Int) (makers : List Order)
    (candidate : Order) : Transaction (List Order) :=
  let cursor := some ⟨candidate.price, candidate.sequence⟩
  .issue (.lockOrder candidate.id none) fun found =>
    if found then
      .issue (.findOrder candidate.id none) fun
        | none => searchMakers taker fuel remaining cursor makers
        | some maker =>
            if isEligibleMaker taker maker then do
              let remaining ← Program.ofExcept (cover remaining maker)
              searchMakers taker fuel remaining cursor (makers ++ [maker])
            else searchMakers taker fuel remaining cursor makers
    else searchMakers taker fuel remaining cursor makers

/-- With turns left and something to cover, the search asks for the next candidate. -/
theorem searchMakers_succ {fuel : Nat} {remaining : Int} (hRemaining : 0 < remaining) :
    searchMakers taker (fuel + 1) remaining cursor makers =
      .issue (.findFirstOrder (candidateCondition taker cursor) (candidateOrder taker)) fun first =>
        first.elim (.pure makers) (visitCandidate taker fuel remaining makers) := by
  rw [searchMakers, if_pos hRemaining]
  refine congrArg (Program.issue _) ?_
  funext first
  cases first with
  | none => rfl
  | some candidate =>
      refine congrArg (Program.issue _) ?_
      funext found
      cases found with
      | false => rfl
      | true =>
          refine congrArg (Program.issue _) ?_
          funext maker
          cases maker with
          | none => rfl
          | some maker => rfl

/-- After its next candidate the search is at the head of its loop again. -/
theorem safe_visitCandidate {fuel : Nat} {remaining : Int} {candidate : Order}
    (hValid : ∀ order ∈ market.orders, order.Valid)
    (hSearching : Searching market taker cursor makers passed world)
    (hHead : (candidates world.db.orders.rows taker cursor).head? = some candidate)
    (hCover : makers.foldlM cover taker.remainingAmount = .ok remaining)
    (hNext : ∀ {world makers passed remaining},
      Searching market taker (some ⟨candidate.price, candidate.sequence⟩) makers passed world →
      makers.foldlM cover taker.remainingAmount = .ok remaining →
      (surroundings generated).Safe (Bounded market taker) (Ended market taker)
        (Refused market taker)
        (searchMakers taker fuel remaining
          (some ⟨candidate.price, candidate.sequence⟩) makers) world) :
    (surroundings generated).Safe (Bounded market taker) (Ended market taker) (Refused market taker)
      (visitCandidate taker fuel remaining makers candidate) world := by
  have hCandidate := (hSearching.follows.mem_candidates.mp (List.mem_of_mem_head? hHead)).1
  rw [MatchingOrderBook.mem_candidates] at hCandidate
  have hPositive : 0 < candidate.remainingAmount :=
    (hValid candidate hCandidate.1).remaining_pos
      (OrderStatus.isActive_of_isResting (isResting_of_candidateCondition hCandidate.2))
  have hEligible := isEligibleMaker_of_candidateCondition hCandidate.2 hPositive
  intro locking hLocking
  refine ⟨(hSearching.of_later hLocking).bounded, fun found locked hLock => ?_,
    fun failure locked hLock => ?_⟩
  · obtain ⟨hKept, passed', hLocked⟩ := hSearching.lock hHead hLocking hLock
    cases found with
    | false =>
        have hGone : candidate.id ∈ locked.withdrawn := by
          by_contra hId
          cases (hKept hId).1
        rw [if_pos hGone] at hLocked
        exact hNext hLocked hCover
    | true =>
        intro reading hReading
        refine ⟨(hLocked.of_later hReading).bounded, fun maker read hRead => ?_,
          fun failure read hRead => ?_⟩
        · obtain ⟨hMaker, rfl⟩ := effect_findOrder.mp hRead
          rw [Except.ok.injEq] at hMaker
          have hNow := hLocked.of_later hReading
          have hGrows := (hLocked.follows.of_later hReading).2
          obtain ⟨hStill, hGone⟩ := hNow.follows.read hCandidate.1 hEligible
          by_cases hId : candidate.id ∈ locked.withdrawn
          · rw [if_pos hId] at hNow
            cases maker with
            | none => exact hNext hNow hCover
            | some maker =>
                have hRefused := hGone (hGrows.withdrawn _ hId) maker hMaker.symm
                simp only [hRefused, Bool.false_eq_true, if_false]
                exact hNext hNow hCover
          · rw [if_neg hId] at hNow
            have hHere : candidate.id ∉ read.withdrawn := fun hLater => by
              rcases hGrows.unlocked _ hLater with hOld | hUnlocked
              · exact hId hOld
              · exact hUnlocked (hKept hId).2
            obtain rfl := hMaker.trans (hStill hHere)
            simp only [hEligible, if_true]
            cases hLeft : cover remaining candidate with
            | ok left =>
                refine hNext hNow ?_
                -- The candidate is the last maker that covers something.
                rw [List.foldlM_append, hCover]
                change (cover remaining candidate >>= pure) = _
                rw [hLeft]
                rfl
            | error failure =>
                have hRefused := hSearching.refused hCandidate.1 hCover hLeft
                exact fun last hLast => ⟨(hNow.of_later hLast).bounded, hRefused⟩
        · cases (effect_findOrder.mp hRead).1
  · cases (effect_lockOrder.mp hLock).2.1

/-- The search is safe from any of its states, by induction on its turns. -/
theorem safe_searchMakers {fuel : Nat} {remaining : Int}
    (hValid : ∀ order ∈ market.orders, order.Valid)
    (hSearching : Searching market taker cursor makers passed world)
    (hCover : makers.foldlM cover taker.remainingAmount = .ok remaining)
    (hFuel : (candidates market.orders.rows taker cursor).length < fuel) :
    (surroundings generated).Safe (Bounded market taker) (Ended market taker) (Refused market taker)
      (searchMakers taker fuel remaining cursor makers) world := by
  induction fuel generalizing remaining cursor makers passed world with
  | zero => exact absurd hFuel (Nat.not_lt_zero _)
  | succ fuel ih =>
      by_cases hRemaining : 0 < remaining
      · rw [searchMakers_succ hRemaining]
        intro now hLater
        have hNow := hSearching.of_later hLater
        refine ⟨hNow.bounded, fun first found hFirst => ?_, fun failure found hFirst => ?_⟩
        · obtain ⟨hReply, rfl⟩ := effect_findFirstOrder.mp hFirst
          rw [Except.ok.injEq] at hReply
          cases first with
          | none =>
              have hRest := hNow.follows.withdrawn_of_head?_candidates hReply.symm
              have hEnded : Ended market taker makers found := ⟨cursor, passed, hNow, Or.inr hRest⟩
              exact fun last hLast => ⟨(hNow.of_later hLast).bounded, hEnded.of_later hLast⟩
          | some candidate =>
              have hLeft := candidates_length_lt
                (hNow.follows.mem_candidates.mp (List.mem_of_mem_head? hReply.symm)).1
              exact safe_visitCandidate hValid hNow hReply.symm hCover fun hVisited hCovered =>
                ih hVisited hCovered (by omega)
        · cases (effect_findFirstOrder.mp hFirst).1
      · rw [searchMakers, if_neg hRemaining]
        intro now hLater
        have hNow := hSearching.of_later hLater
        exact ⟨hNow.bounded, cursor, passed, hNow,
          Or.inl ⟨remaining, not_lt.mp hRemaining, hCover⟩⟩

end MakerSearch

namespace Reference

/-- A better price, or an older order at the same price. -/
def Outranks (taker left right : Order) : Prop :=
  match taker.side with
  | .buy => left.price < right.price ∨ (left.price = right.price ∧ left.sequence < right.sequence)
  | .sell => right.price < left.price ∨ (left.price = right.price ∧ left.sequence < right.sequence)

/-- Among orders with different sequence numbers the query's order is that of
priority. -/
theorem outranks_of_precedes {taker left right : Order} (h : precedes taker left right = true)
    (hSequence : left.sequence ≠ right.sequence) : Outranks taker left right := by
  have hLt : left.sequence ≤ right.sequence → left.sequence < right.sequence :=
    fun hLe => lt_of_le_of_ne hLe hSequence
  revert h
  unfold precedes Outranks
  cases taker.side <;> simp only [Bool.or_eq_true, Bool.and_eq_true, decide_eq_true_eq] <;>
    exact Or.imp_right (And.imp_right hLt)

/-- The book in strict priority order. -/
theorem pairwise_makers (market : Market) (taker : Order) :
    (makers market.orders.rows taker).Pairwise (Outranks taker) := by
  have hSequences : ((makers market.orders.rows taker).map Order.sequence).Nodup :=
    ((List.perm_insertionSort _ _).map Order.sequence).nodup_iff.mpr
      (market.sequences.sublist (List.filter_sublist.map Order.sequence))
  rw [List.Nodup, List.pairwise_map] at hSequences
  have hSorted : (makers market.orders.rows taker).Pairwise (precedes taker · ·) := by
    rw [← candidates_eq, ← candidateOrder_eq]
    exact MakerSearch.pairwise_candidates _ _ _
  exact (hSorted.and hSequences).imp fun h => outranks_of_precedes h.1 h.2

end Reference

namespace Sample

def offer (id : OrderId) (sequence : Nat) (price : Int) : Order :=
  ⟨id, sequence, "seller", .sell, .opened, price * one, one, one, 10⟩

/-- Three SELL orders on the book and a BUY order that crosses them. -/
def book : Database where
  wallets := start.wallets
  orders := ⟨[offer "last" 1 5, offer "first" 2 4, offer "second" 3 4], by decide⟩
  sequences := by decide
  trades := []
  matchingOutbox := .empty
  intents := List.nodup_nil
  realtimeOutbox := []

def taker : Order := ⟨"buy", 4, "buyer", .buy, .queued, 5 * one, 3 * one, 3 * one, 12⟩

/-- The second order is cancelled while the search waits for it. -/
def searched : MakerSearch.World where
  db := { book with toMarket := MakerSearch.withdraw book.toMarket "second" .cancel }
  withdrawals := []
  withdrawn := ["second"]
  locked := ["last", "second", "first"]
  visited := ["last", "second", "first"]

end Sample

namespace MakerSearch

variable {generated : Generated} {db : Database} {taker : Order} {fuel : Nat} {world : World}
  {rest : Transaction (List Order)}

/-- A statement can take effect once the withdrawal that it waits for has ended. -/
theorem exists_effect {Reply : Type} (statement : Statement Reply) (world : World) :
    ∃ now reply world', (surroundings generated).Later world now ∧
      (surroundings generated).effect statement now reply world' := by
  have hNow : ∃ now, (surroundings generated).Later world now ∧
      ∀ id ∈ World.asked statement, id ∉ now.withdrawals.map Prod.fst := by
    cases hAsked : World.asked statement with
    | none => exact ⟨world, .refl, fun id hId => by cases hId⟩
    | some id =>
        refine ⟨_, .single (.rollback id), fun other hOther hMem => ?_⟩
        obtain rfl : id = other := Option.some.inj hOther
        obtain ⟨withdrawal, hWithdrawal, hId⟩ := List.mem_map.mp hMem
        have hKept : withdrawal ∈ world.withdrawals.filter (·.1 ≠ id) := hWithdrawal
        simpa [hId] using List.of_mem_filter hKept
  obtain ⟨now, hLater, hFree⟩ := hNow
  suffices h : ∃ reply world', World.Effect generated statement now reply world' by
    obtain ⟨reply, world', hEffect⟩ := h
    exact ⟨now, reply, world', hLater, hEffect⟩
  unfold World.Effect
  cases effect generated statement now.db with
  | error failure => exact ⟨_, _, hFree, rfl, rfl⟩
  | ok out => exact ⟨_, _, hFree, rfl, rfl⟩

/-- The search ends within its fuel and visits no order of the book twice. It
returns the visited prefix of the book in strict priority order, without what was
withdrawn before the search had locked it. -/
theorem search_enumerates (hValid : ∀ order ∈ db.orders, order.Valid)
    (hFuel : (Reference.makers db.orders.rows taker).length < fuel)
    (hRuns : (surroundings generated).Runs (findAndLockEligibleMakers fuel taker)
      (.start db) rest world) :
    world.visited.Nodup ∧
    world.visited.length ≤ (Reference.makers db.orders.rows taker).length ∧
    (∀ failure, rest = .throw failure →
      failure ≠ .fuelExhausted ∧ ¬(taker.Valid ∧ ∀ order ∈ db.orders, order.Sound)) ∧
    (∃ ended last, (surroundings generated).Runs rest world ended last ∧
      Surroundings.Finished ended) ∧
    ∀ makers, rest = .pure makers →
      (makers.map Order.id).Nodup ∧
      makers.Pairwise (Reference.Outranks taker) ∧
      ∃ passed left, Reference.makers db.orders.rows taker = passed ++ left ∧
        world.visited.head? = passed.getLast?.map Order.id ∧
        (∀ order, order ∈ makers ↔ order ∈ passed ∧ order.id ∉ world.withdrawn) ∧
        (∀ maker ∈ makers, maker.id ∈ world.locked) ∧
        ((∃ remaining ≤ 0, makers.foldlM cover taker.remainingAmount = .ok remaining) ∨
          ∀ order ∈ left, order.id ∈ world.withdrawn) := by
  have hStart : Searching db.toMarket taker none [] [] (.start db) :=
    ⟨follows_start db, rfl, rfl, (fun _ hOrder => by cases hOrder), List.Sublist.refl _, rfl⟩
  rw [← Reference.candidates_eq] at hFuel ⊢
  have hSafe := (safe_searchMakers hValid hStart rfl hFuel).runs hRuns
  obtain ⟨hNodup, hLength⟩ := hSafe.now
  refine ⟨hNodup, hLength, fun failure hRest => ?_,
    Surroundings.exists_finished exists_effect rest world, fun makers hRest => ?_⟩
  · subst hRest
    exact (hSafe world .refl).2
  · subst hRest
    obtain ⟨_, cursor, passed, hSearching, hEnd⟩ := hSafe world .refl
    have hSublist : makers.Sublist (candidates db.orders.rows taker none) := by
      rw [hSearching.makers, hSearching.split]
      exact List.filter_sublist.trans (List.sublist_append_left _ _)
    have hIds : ((candidates db.orders.rows taker none).map Order.id).Nodup :=
      ((List.perm_insertionSort _ _).map Order.id).nodup_iff.mpr
        (db.orders.nodup.sublist (List.filter_sublist.map Order.id))
    have hMakers : ∀ order, order ∈ makers ↔
        order ∈ passed ∧ order.id ∉ world.withdrawn := by
      intro order
      rw [hSearching.makers, List.mem_filter, decide_eq_true_eq]
    refine ⟨hIds.sublist (hSublist.map Order.id), ?_, passed, _, hSearching.split, hSearching.last,
      hMakers, fun maker hMaker => ?_, hEnd⟩
    · have hSorted := Reference.pairwise_makers db.toMarket taker
      rw [← Reference.candidates_eq] at hSorted
      exact hSorted.sublist hSublist
    · obtain ⟨hPassed, hKept⟩ := (hMakers maker).mp hMaker
      exact (hSearching.settled maker hPassed).resolve_right hKept

/-- The search returns the other two orders, the one with the better price first. -/
theorem search_enumerates_sample :
    (surroundings ⟨"", 0, "", 13⟩).Runs (findAndLockEligibleMakers 4 Sample.taker)
      (.start Sample.book)
      (.pure [Sample.offer "first" 2 4, Sample.offer "last" 1 5]) Sample.searched ∧
    Sample.searched.visited.Nodup ∧
    [Sample.offer "first" 2 4, Sample.offer "last" 1 5].Pairwise
      (Reference.Outranks Sample.taker) := by
  have hRun : (surroundings ⟨"", 0, "", 13⟩).Runs (findAndLockEligibleMakers 4 Sample.taker)
      (.start Sample.book) (.pure [Sample.offer "first" 2 4, Sample.offer "last" 1 5])
        Sample.searched := by
    rw [findAndLockEligibleMakers, searchMakers_succ (by decide)]
    -- The first order is locked and found.
    refine .reply (effect_findFirstOrder.mpr ⟨rfl, rfl⟩) ?_
    refine .reply (effect_lockOrder.mpr ⟨by decide, rfl, rfl⟩) ?_
    refine .reply (effect_findOrder.mpr ⟨rfl, rfl⟩) ?_
    -- The second one is withdrawn before its lock is granted.
    refine .reply (effect_findFirstOrder.mpr ⟨rfl, rfl⟩) ?_
    refine .outside (.begin "second" .cancel (by decide) (by decide)) ?_
    refine .outside (.commit "second" .cancel (by decide)) ?_
    refine .reply (effect_lockOrder.mpr ⟨by decide, rfl, rfl⟩) ?_
    refine .reply (effect_findOrder.mpr ⟨rfl, rfl⟩) ?_
    -- The last one is found, and then no other.
    refine .reply (effect_findFirstOrder.mpr ⟨rfl, rfl⟩) ?_
    refine .reply (effect_lockOrder.mpr ⟨by decide, rfl, rfl⟩) ?_
    refine .reply (effect_findOrder.mpr ⟨rfl, rfl⟩) ?_
    refine .reply (effect_findFirstOrder.mpr ⟨rfl, rfl⟩) ?_
    exact .nil
  have hValid : ∀ order ∈ Sample.book.orders, order.Valid := by
    intro order hOrder
    change order ∈ [Sample.offer "last" 1 5, Sample.offer "first" 2 4, Sample.offer "second" 3 4]
      at hOrder
    simp only [List.mem_cons, List.not_mem_nil, or_false] at hOrder
    rcases hOrder with rfl | rfl | rfl <;> exact Order.check_eq_ok.mp rfl
  obtain ⟨hNodup, _, _, _, hReturned⟩ := search_enumerates hValid (by decide) hRun
  exact ⟨hRun, hNodup, (hReturned _ rfl).2.1⟩

end MakerSearch
end ExchangeMatching
