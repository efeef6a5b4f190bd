import ExchangeMatching.Protected

/-! The maker search among other transactions. While the market is locked no
order starts to rest on the book, so a candidate that the search has visited
and no longer accepts is one that the search would not visit any more. -/
namespace ExchangeMatching

open Transactions MatchingOrderBook

namespace Database

variable {db : Database}

/-- A write keeps the orders but for their remaining amount and status. -/
theorem exists_revised_apply {order : Order} {id : OrderId} (write : Write)
    (hFound : db.orders.find? id = some order) :
    ∃ remaining status, (db.apply write).orders.find? id =
      some (order.revised remaining status) := by
  cases write with
  | wallet row | newTrade row | newEvents events => exact ⟨_, _, hFound⟩
  | order other remaining status =>
      by_cases hId : id = other
      · subst hId
        refine ⟨remaining, status, ?_⟩
        rw [toMarket_apply_order, Market.putOrder, Table.find?_modify_self, hFound, Option.map_some]
      · exact ⟨_, _, (Market.find?_putOrder_of_ne hId).trans hFound⟩
  | newOrder row => exact ⟨_, _, Market.find?_addOrder_of_some hFound⟩
  | newIntent row =>
      rw [toMarket_apply_newIntent]
      exact ⟨_, _, hFound⟩

end Database

namespace Workload

variable {Index : Type} {workload : Workload Index} {newDecimal : String → Option DecimalValue}
  {admits : Index → Database → Prop} {index : Index} {held : List Resource} {db db' : Database}

/-- Without the market lock a call puts no order on the book. -/
theorem mem_of_permitted {order : Order} {write : Write} (h : workload.Permits index held write)
    (hMarket : .market ∉ held) (hMem : order ∈ (db.apply write).orders)
    (hResting : order.status.isResting = true) : order ∈ db.orders := by
  cases write with
  | wallet row | newTrade row | newEvents events => exact hMem
  | order id remaining status =>
      rw [Database.toMarket_apply_order, Market.putOrder, Table.mem_modify] at hMem
      rcases hMem with ⟨hOld, _⟩ | ⟨old, _, _, rfl⟩
      · exact hOld
      · have hStatus := h.2.resolve_left hMarket
        rw [Order.revised_status, hStatus] at hResting
        cases hResting
  | newOrder row =>
      rw [Database.toMarket_apply_newOrder] at hMem
      by_cases hFresh : db.IsFresh row
      · rcases Market.mem_addOrder hFresh hMem with hOld | rfl
        · exact hOld
        · rw [h.2.2] at hResting
          cases hResting
      · rwa [Market.addOrder, dif_neg hFresh] at hMem
  | newIntent row => rwa [Database.toMarket_apply_newIntent] at hMem

theorem exists_revised_of_rely {order : Order} {id : OrderId}
    (h : (workload.protocol newDecimal admits).Rely workload.Permits index held db db')
    (hFound : db.orders.find? id = some order) :
    ∃ remaining status, db'.orders.find? id = some (order.revised remaining status) := by
  induction h with
  | refl => exact ⟨_, _, hFound⟩
  | tail _ hStep ih =>
      obtain ⟨remaining, status, hOrder⟩ := ih
      cases hStep with
      | @write _ _ write ne disjoint permitted =>
          obtain ⟨remaining', status', hLater⟩ := Database.exists_revised_apply write hOrder
          exact ⟨remaining', status', hLater⟩

/-- Under the market lock no order comes to the book. -/
theorem mem_of_rely {order : Order}
    (h : (workload.protocol newDecimal admits).Rely workload.Permits index held db db')
    (hMarket : .market ∈ held) (hMem : order ∈ db'.orders)
    (hResting : order.status.isResting = true) : order ∈ db.orders := by
  induction h with
  | refl => exact hMem
  | tail _ hStep ih =>
      cases hStep with
      | write ne disjoint permitted =>
          exact ih
            (mem_of_permitted permitted (fun hOther => disjoint _ hOther hMarket) hMem hResting)

variable {taker candidate : Order} {cursor : Option MakerCursor}

theorem filter_subset_of_rely
    (h : (workload.protocol newDecimal admits).Rely workload.Permits index held db db')
    (hMarket : .market ∈ held) :
    db'.orders.rows.filter (candidateCondition taker cursor) ⊆
      db.orders.rows.filter (candidateCondition taker cursor) := by
  intro order hMem
  obtain ⟨hOrder, hCondition⟩ := List.mem_filter.mp hMem
  exact List.mem_filter.mpr
    ⟨mem_of_rely h hMarket hOrder (isResting_of_candidateCondition hCondition), hCondition⟩

/-- The first candidate stays the first one until it leaves the book. -/
theorem head?_candidates_of_rely
    (h : (workload.protocol newDecimal admits).Rely workload.Permits index held db db')
    (hMarket : .market ∈ held)
    (hHead : (candidates db.orders.rows taker cursor).head? = some candidate)
    (hMem : candidate ∈ db'.orders) :
    (candidates db'.orders.rows taker cursor).head? = some candidate := by
  have hCandidate := mem_candidates.mp (List.mem_of_mem_head? hHead)
  exact SortedSearch.head?_of_subset ((untied_orders db.toMarket).filter _)
    (filter_subset_of_rely h hMarket) hHead (List.mem_filter.mpr ⟨hMem, hCandidate.2⟩)

/-- A search that has visited a candidate that left the book visits the same
orders as a search that never saw it. -/
theorem candidates_skip_of_rely
    (h : (workload.protocol newDecimal admits).Rely workload.Permits index held db db')
    (hMarket : .market ∈ held)
    (hHead : (candidates db.orders.rows taker cursor).head? = some candidate)
    (hGone : candidate ∉ db'.orders) :
    candidates db'.orders.rows taker (some ⟨candidate.price, candidate.sequence⟩) =
      candidates db'.orders.rows taker cursor := by
  have hCandidate := mem_candidates.mp (List.mem_of_mem_head? hHead)
  unfold candidates
  congr 1
  apply List.filter_congr
  intro order hMem
  rw [candidateCondition_advance order hCandidate.2]
  cases hCondition : candidateCondition taker cursor order with
  | false => rfl
  | true =>
      rw [Bool.true_and, afterCursor_iff]
      intro hBefore
      have hOld := filter_subset_of_rely h hMarket (List.mem_filter.mpr ⟨hMem, hCondition⟩)
      have hEq : order = candidate := (untied_orders db.toMarket).filter _ order hOld candidate
        (List.mem_filter.mpr hCandidate) hBefore
        (SortedSearch.rel_of_head? (r := (candidateOrder taker · ·)) hHead hOld)
      exact hGone (hEq ▸ hMem)

theorem candidates_nil_of_rely
    (h : (workload.protocol newDecimal admits).Rely workload.Permits index held db db')
    (hMarket : .market ∈ held) (hNone : (candidates db.orders.rows taker cursor).head? = none) :
    (candidates db'.orders.rows taker cursor).head? = none := by
  rw [List.head?_eq_none_iff, List.eq_nil_iff_forall_not_mem] at hNone ⊢
  intro order hMem
  obtain ⟨hOrder, hCondition⟩ := mem_candidates.mp hMem
  exact hNone order (mem_candidates.mpr
    ⟨mem_of_rely h hMarket hOrder (isResting_of_candidateCondition hCondition), hCondition⟩)

end Workload

namespace MatchingOrderBook

variable {generated : Generated} {db : Database} {taker : Order} {fuel : Nat} {remaining : Int}
  {cursor cursor' : Option MakerCursor} {makers : List Order}

/-- The search depends on its cursor only through the orders still to visit. -/
theorem run_searchMakers_congr
    (h : candidates db.orders.rows taker cursor = candidates db.orders.rows taker cursor') :
    engine.run generated (searchMakers taker fuel remaining cursor makers) db =
      engine.run generated (searchMakers taker fuel remaining cursor' makers) db := by
  cases fuel with
  | zero => rfl
  | succ fuel =>
      unfold searchMakers
      split_ifs
      · rw [run_findNextCandidate, run_findNextCandidate, h]
      · rfl

/-- The rest of a turn of the search that has found a candidate. -/
def visit (taker : Order)
    (search : Int → Option MakerCursor → List Order → Transaction (List Order))
    (remaining : Int) (makers : List Order) (candidate : Candidate) : Transaction (List Order) := do
  match ← OrdersRepository.lockAndLoadOrder candidate.id none with
  | none => search remaining (some candidate.toMakerCursor) makers
  | some maker =>
      if isEligibleMaker taker maker then
        let remaining ← Program.ofExcept (cover remaining maker)
        search remaining (some candidate.toMakerCursor) (makers ++ [maker])
      else search remaining (some candidate.toMakerCursor) makers

theorem searchMakers_succ (hRemaining : 0 < remaining) :
    searchMakers taker (fuel + 1) remaining cursor makers = (do
      match ← findNextCandidate taker cursor with
      | none => return makers
      | some candidate => visit taker (searchMakers taker fuel) remaining makers candidate) := by
  rw [searchMakers, if_pos hRemaining]
  congr 1
  funext found
  cases found with
  | none => rfl
  | some candidate =>
      simp only [visit, OrdersRepository.lockAndLoadOrder, Option.filter_none, Program.perform_bind,
        Program.issue_bind]
      congr 1
      funext locked
      cases locked <;> rfl

/-- A search that ends finds the same makers with more turns, and with one
turn more than there are orders to visit. -/
theorem run_searchMakers_turns {fuel' : Nat} {out : List Order × Database}
    (h : engine.run generated (searchMakers taker fuel remaining cursor makers) db = .ok out)
    (hTurns : fuel ≤ fuel' ∨ (candidates db.orders.rows taker cursor).length < fuel') :
    engine.run generated (searchMakers taker fuel' remaining cursor makers) db = .ok out := by
  induction fuel generalizing fuel' remaining cursor makers db with
  | zero => cases h
  | succ fuel ih =>
      cases fuel' with
      | zero => simp at hTurns
      | succ fuel' =>
          by_cases hRemaining : 0 < remaining
          · rw [searchMakers_succ hRemaining, run_findNextCandidate] at h ⊢
            cases hCandidates : candidates db.orders.rows taker cursor with
            | nil =>
                rw [hCandidates] at h
                exact h
            | cons order rest =>
                have hRest : fuel ≤ fuel' ∨ (candidates db.orders.rows taker
                    (some ⟨order.price, order.sequence⟩)).length < fuel' := by
                  rw [candidates_advance hCandidates]
                  rw [hCandidates] at hTurns
                  exact hTurns.imp Nat.le_of_succ_le_succ Nat.lt_of_succ_lt_succ
                rw [hCandidates] at h
                simp only [List.head?_cons, Option.map_some, visit, run_lockAndLoadOrder] at h ⊢
                split at h
                · exact ih h hRest
                · split_ifs at h ⊢
                  · obtain ⟨left, middle, hCover, hRun⟩ := Engine.run_bind_eq_ok.mp h
                    obtain ⟨hLeft, rfl⟩ := Engine.run_ofExcept_eq_ok.mp hCover
                    exact Engine.run_bind_eq_ok.mpr ⟨left, db, hCover, ih hRun hRest⟩
                  · exact ih h hRest
          · rw [searchMakers, if_neg hRemaining] at h ⊢
            exact h

end MatchingOrderBook

namespace Workload

variable {Index : Type} {workload : Workload Index} {newDecimal : String → Option DecimalValue}
  {admits : Index → Database → Prop} {index : Index} {held : List Resource}
  {db now later : Database} {taker candidate : Order} {fuel : Nat} {remaining : Int}
  {cursor : Option MakerCursor} {makers : List Order}

/-- Searching on from a visited candidate, in a later state, is searching
there from the start. -/
theorem run_visit_of_rely {out : List Order × Database} (hRemaining : 0 < remaining)
    (hRely : (workload.protocol newDecimal admits).Rely workload.Permits index held now later)
    (hMarket : .market ∈ held)
    (hHead : (candidates now.orders.rows taker cursor).head? = some candidate)
    (h : engine.run (workload.invocation index).generated (visit taker (searchMakers taker fuel)
      remaining makers ⟨⟨candidate.price, candidate.sequence⟩, candidate.id⟩) later = .ok out) :
    engine.run (workload.invocation index).generated
      (searchMakers taker (fuel + 1) remaining cursor makers) later = .ok out := by
  by_cases hMem : candidate ∈ later.orders
  · rw [searchMakers_succ hRemaining, run_findNextCandidate,
      head?_candidates_of_rely hRely hMarket hHead hMem]
    exact h
  · -- The candidate is still stored, but it rests no more and is passed over.
    have hNow := (mem_candidates.mp (List.mem_of_mem_head? hHead)).1
    obtain ⟨left, status, hLater⟩ := exists_revised_of_rely hRely (Table.find?_of_mem hNow)
    have hStatus : ¬status.isResting = true := by
      intro hResting
      have hOld := mem_of_rely hRely hMarket (Table.mem_of_find? hLater) hResting
      have hSame := Table.find?_of_mem hOld
      rw [Order.revised_id, Table.find?_of_mem hNow, Option.some.injEq] at hSame
      exact hMem (hSame ▸ Table.mem_of_find? hLater)
    have hRefused : ¬isEligibleMaker taker (candidate.revised left status) = true :=
      fun hEligible => hStatus (isEligibleMaker_iff.mp hEligible).2.1
    simp only [visit, run_lockAndLoadOrder, Option.filter_none, Database.findOrder_none, hLater,
      if_neg hRefused] at h
    rw [run_searchMakers_congr (candidates_skip_of_rely hRely hMarket hHead hMem)] at h
    exact run_searchMakers_turns h (Or.inl (Nat.le_succ fuel))

/-- An order is locked before it is read; a missing one may end the call. -/
theorem replays_lockAndLoadOrder {Result : Type} {id : OrderId} {userId : Option UserId}
    {next : Option Order → Transaction Result}
    {Q : Result → List Write → List Resource → Database → Prop}
    (hNone : ∀ now, (workload.protocol newDecimal admits).Rely workload.Permits index held db now →
      now.findOrder id (userId.filter (· ≠ "")) = none →
      (∃ failure, next none = .throw failure) ∨
        (∀ later, (workload.protocol newDecimal admits).Rely workload.Permits index held now later →
          later.findOrder id (userId.filter (· ≠ "")) = none) ∧
        (workload.protocol newDecimal admits).Replays workload.Permits index (next none)
          [] held now Q)
    (hSome : ∀ order held' now, held ⊆ held' →
      (workload.protocol newDecimal admits).Replays workload.Permits index (next (some order)) []
        held' now Q) :
    (workload.protocol newDecimal admits).Replays workload.Permits index
      (OrdersRepository.lockAndLoadOrder id userId >>= next) [] held db Q := by
  have hNoWrites : ∀ held, ∀ write ∈ ([] : List Write), workload.Permits index held
      write := by simp
  simp only [OrdersRepository.lockAndLoadOrder, Program.perform_bind, Program.issue_bind]
  generalize userId.filter (· ≠ "") = asked at hNone ⊢
  intro now hNow reply written hEffect
  cases hLoaded : now.findOrder id asked with
  | none =>
      have hReply : (reply, written) = (false, []) :=
        (Except.ok.inj hEffect).symm.trans (congrArg (·.isSome, []) hLoaded)
      cases hReply
      have hHeld : (workload.protocol newDecimal admits).heldAfter (.lockOrder id asked) now
          [] held = held := by
        simp [Protocol.heldAfter, Protocol.lock, protocol, locks, hLoaded]
      rw [hHeld]
      rcases hNone now hNow hLoaded with ⟨failure, hThrow⟩ | ⟨hStable, hRest⟩
      · refine ⟨by simp, fun later _ out hRun => ?_, ?_⟩
        · change engine.run _ (next none) later = .ok out at hRun
          rw [hThrow] at hRun
          cases hRun
        · change Protocol.Replays _ _ index (next none) [] held now Q
          rw [hThrow]
          exact trivial
      · refine ⟨by simp, fun later hLater out hRun => ?_, hRest⟩
        have hUnlocked : (workload.protocol newDecimal admits).effect index
            (.lockOrder id asked) later [] = .ok (false, []) := by
          change effect (workload.invocation index).generated (.lockOrder id asked) later = _
          rw [effect, hStable later hLater]
          rfl
        rw [Protocol.runFrom_issue_of_effect hUnlocked]
        exact hRun
  | some order =>
      have hReply : (reply, written) = (true, []) :=
        (Except.ok.inj hEffect).symm.trans (congrArg (·.isSome, []) hLoaded)
      cases hReply
      have hProtected : workload.Protected index held (.lockOrder id asked) now :=
        Option.isSome_of_mem hLoaded
      refine ⟨by simp, fun later hLater out hRun => ?_, ?_⟩
      · rw [Protocol.runFrom_issue_of_effect
          (effect_later_of_protected (hNoWrites held) hProtected hEffect hLater)]
        exact hRun
      · have hLocked : Resource.order id ∈
            (workload.protocol newDecimal admits).heldAfter (.lockOrder id asked) now [] held :=
          Protocol.mem_heldAfter.mpr (Or.inl (Option.map_eq_some_iff.mpr ⟨order, hLoaded, rfl⟩))
        have hStored := Option.isSome_of_isSome_filter _ _ (Option.isSome_of_mem hLoaded)
        obtain ⟨stored, hOrder⟩ := Option.isSome_iff_exists.mp hStored
        change Protocol.Replays _ _ index (.issue (.findOrder id asked) next) [] _ now Q
        refine replays_protected (hNoWrites _) fun now' hNow' found written hEffect' => ?_
        obtain ⟨left, status, hLater⟩ := exists_revised_of_rely hNow' hOrder
        refine ⟨⟨hLocked, Option.isSome_of_mem hLater⟩, ?_⟩
        have hSame : now'.findOrder id asked = now.findOrder id asked :=
          findOrder_of_agrees (agrees_of_rely hNow') hLocked hStored
        have hFound : (found, written) = (some order, []) :=
          (Except.ok.inj hEffect').symm.trans (congrArg (·, []) (hSame.trans hLoaded))
        cases hFound
        exact hSome order _ now' fun resource hMem =>
          Protocol.mem_heldAfter_of_mem (Protocol.mem_heldAfter_of_mem hMem)

theorem replays_visit {found : Candidate}
    {search : Int → Option MakerCursor → List Order → Transaction (List Order)}
    (hSearch : ∀ remaining cursor makers held db, .market ∈ held →
      (workload.protocol newDecimal admits).Replays workload.Permits index
        (search remaining cursor makers) [] held db
        (fun _ writes held' _ => writes = [] ∧ .market ∈ held'))
    (hMarket : .market ∈ held) (hFound : db.orders.find? found.id = some candidate) :
    (workload.protocol newDecimal admits).Replays workload.Permits index
      (visit taker search remaining makers found) [] held db
      (fun _ writes held' _ => writes = [] ∧ .market ∈ held') := by
  refine replays_lockAndLoadOrder (fun now hNow hNone => ?_) fun maker held' now hHeld => ?_
  · obtain ⟨_, _, hLater⟩ := exists_revised_of_rely hNow hFound
    rw [Option.filter_none, Database.findOrder_none, hLater] at hNone
    cases hNone
  · dsimp only
    split_ifs
    · cases cover remaining maker with
      | ok left => exact hSearch _ _ _ _ _ (hHeld hMarket)
      | error failure => exact trivial
    · exact hSearch _ _ _ _ _ (hHeld hMarket)

/-- The candidate query needs no lock if what follows makes up for it. -/
theorem replays_findNextCandidate {Result : Type} {next : Option Candidate → Transaction Result}
    {Q : Result → List Write → List Resource → Database → Prop}
    (h : ∀ now, (workload.protocol newDecimal admits).Rely workload.Permits index held db now →
      ∀ head, (candidates now.orders.rows taker cursor).head? = head →
      (∀ later, (workload.protocol newDecimal admits).Rely workload.Permits index held now later →
        ∀ out, engine.run (workload.invocation index).generated
            (next (head.map fun order => ⟨⟨order.price, order.sequence⟩, order.id⟩)) later =
              .ok out →
          engine.run (workload.invocation index).generated
            (findNextCandidate taker cursor >>= next) later = .ok out) ∧
      (workload.protocol newDecimal admits).Replays workload.Permits index
        (next (head.map fun order => ⟨⟨order.price, order.sequence⟩, order.id⟩))
          [] held now Q) :
    (workload.protocol newDecimal admits).Replays workload.Permits index
      (findNextCandidate taker cursor >>= next) [] held db Q := by
  intro now hNow reply written hEffect
  cases hEffect
  obtain ⟨hReplay, hNext⟩ := h now hNow _ rfl
  exact ⟨by simp, hReplay, hNext⟩

/-- The search can be replayed while the market is locked. -/
theorem replays_searchMakers (hMarket : .market ∈ held) :
    (workload.protocol newDecimal admits).Replays workload.Permits index
      (searchMakers taker fuel remaining cursor makers) [] held db
      (fun _ writes held' _ => writes = [] ∧ .market ∈ held') := by
  induction fuel generalizing remaining cursor makers held db with
  | zero => exact trivial
  | succ fuel ih =>
      by_cases hRemaining : 0 < remaining
      · rw [searchMakers_succ hRemaining]
        refine replays_findNextCandidate fun now _ head hHead => ?_
        rw [← searchMakers_succ hRemaining]
        cases head with
        | none =>
            refine ⟨fun later hLater out hRun => ?_, fun _ _ => ⟨rfl, hMarket⟩⟩
            rw [searchMakers_succ hRemaining, run_findNextCandidate,
              candidates_nil_of_rely hLater hMarket hHead]
            exact hRun
        | some candidate =>
            have hFound := Table.find?_of_mem (mem_candidates.mp (List.mem_of_mem_head? hHead)).1
            exact ⟨fun later hLater out => run_visit_of_rely hRemaining hLater hMarket hHead,
              replays_visit (fun _ _ _ _ _ => ih) hMarket hFound⟩
      · rw [searchMakers, if_neg hRemaining]
        exact fun _ _ => ⟨rfl, hMarket⟩

end Workload

end ExchangeMatching
