import ExchangeMatching.Effects
import ExchangeMatching.Solvency
import Mathlib.Data.List.Induction

/-! Nobody's funds get stuck. A user who places no more orders and asks for the
cancellation of each active one ends with nothing reserved, whatever others do
in between. -/
namespace ExchangeMatching

namespace Order

/-- What closed orders reserve. -/
theorem sum_reserves_eq_zero {orders : List Order} {userId : UserId}
    (h : ∀ order ∈ orders, order.userId = userId → order.status.isActive = false)
    (side : OrderSide) : (orders.map (reserves userId side)).sum = 0 := by
  refine List.sum_eq_zero fun amount hAmount => ?_
  obtain ⟨order, hOrder, rfl⟩ := List.mem_map.mp hAmount
  by_cases hUser : order.userId = userId
  · exact reserves_of_closed (h order hOrder hUser)
  · rw [reserves, if_neg]
    exact fun hBoth => hUser hBoth.1.symm

end Order

namespace Database

variable {newDecimal : String → Option DecimalValue} {db db' : Database} {invocation : Invocation}

/-- A stored order was stored before, or its user has just created it. -/
theorem Transition.stored_before (hWell : db.WellFormed)
    (h : db.Transition newDecimal invocation db') {order : Order} (hOrder : order ∈ db'.orders) :
    (db.orders.find? order.id).isSome = true ∨
      ∃ side amountInput priceInput, invocation.call =
        .createOrder order.userId side amountInput priceInput := by
  have hFound := Table.find?_of_mem hOrder
  cases h with
  | created valid found fits fresh freshIntent =>
      rw [orders_stored fresh] at hFound
      split_ifs at hFound with hId
      · cases hFound
        exact Or.inr ⟨_, _, _, rfl⟩
      · exact Or.inl (Option.isSome_of_eq_some hFound)
  | @cancelled userId row wallet generated found owner active caller walletFound fits =>
      rw [orders_released found] at hFound
      split_ifs at hFound with hId
      · exact Or.inl (hId ▸ Option.isSome_of_eq_some found)
      · exact Or.inl (Option.isSome_of_eq_some hFound)
  | matched found queued executed =>
      rw [(Reference.matched_of_executed hWell found queued executed).orders] at hFound
      obtain ⟨row, hRow, _⟩ := Option.map_eq_some_iff.mp hFound
      exact Or.inl (Option.isSome_of_eq_some hRow)
  | @rejected row wallet generated found queued walletFound fits =>
      rw [orders_released found] at hFound
      split_ifs at hFound with hId
      · exact Or.inl (hId ▸ Option.isSome_of_eq_some found)
      · exact Or.inl (Option.isSome_of_eq_some hFound)
  | skipped call notQueued => exact Or.inl (Option.isSome_of_eq_some hFound)

/-- The order is stored and will not be matched or cancelled any more. -/
def Closed (db : Database) (id : OrderId) : Prop :=
  ∃ order, db.orders.find? id = some order ∧ order.status.isActive = false

theorem Closed.of_evolves {id : OrderId} (h : db.Closed id)
    (hEvolves : db.toMarket.Evolves db'.toMarket) : db'.Closed id := by
  obtain ⟨order, hFound, hClosed⟩ := h
  obtain ⟨later, hLater, hLeads⟩ := hEvolves.leads hFound
  exact ⟨later, hLater, by rwa [hLeads.final hClosed]⟩

/-- A cancellation by the owner closes the order, if it is not closed already. -/
theorem closed_of_cancel {history : History} (hWell : history.db.WellFormed)
    (hSolvent : history.db.Solvent) {order : Order} (hOrder : order ∈ history.db.orders)
    (hCall : invocation.call = .cancelOrder order.userId order.id) :
    (history.call newDecimal invocation).db.Closed order.id := by
  obtain ⟨call, generated⟩ := invocation
  obtain rfl : call = .cancelOrder order.userId order.id := hCall
  cases hActive : order.status.isActive with
  | false =>
      have hClosed : history.db.Closed order.id := ⟨order, Table.find?_of_mem hOrder, hActive⟩
      exact hClosed.of_evolves
        (@History.calls_evolve newDecimal history hWell
          [⟨.cancelOrder order.userId order.id, generated⟩])
  | true =>
      obtain ⟨db', hCommits⟩ :=
        @call_cancelOrder_commits newDecimal _ hWell hSolvent _ hOrder hActive generated
      simp only [History.call, hCommits]
      have hTransition := call_transition hWell hCommits
      generalize hInvocation : (⟨.cancelOrder order.userId order.id, generated⟩ : Invocation) =
        invocation at hTransition
      cases hTransition with
      | @cancelled _ row _ _ found owner active caller walletFound fits =>
          have hId : row.id = order.id :=
            (Call.cancelOrder.inj (Invocation.mk.inj hInvocation).1).2.symm
          exact ⟨_, (orders_released found _).trans (if_pos hId.symm), rfl⟩
      | skipped call notQueued =>
          rw [← hInvocation] at call
          rcases call with ⟨hProcess, _⟩ | hReject <;> contradiction
      | created | matched | rejected => cases hInvocation

end Database

namespace History

variable {newDecimal : String → Option DecimalValue} {start : Database}

/-- Orders of a user who places no more were placed before. -/
theorem stored_before_calls (hOpening : start.Opening) (invocations : List Invocation)
    {userId : UserId} {later : List Invocation}
    (hNoMore : ∀ invocation ∈ later, ∀ side amountInput priceInput,
      invocation.call ≠ .createOrder userId side amountInput priceInput)
    {order : Order}
    (hOrder : order ∈ ((History.start start).calls newDecimal (invocations ++ later)).db.orders)
    (hUser : order.userId = userId) :
    (((History.start start).calls newDecimal invocations).db.orders.find? order.id).isSome =
      true := by
  induction later using List.reverseRecOn generalizing order with
  | nil =>
      rw [List.append_nil] at hOrder
      exact Option.isSome_of_eq_some (Table.find?_of_mem hOrder)
  | append_singleton later invocation ih =>
      have hEarlier := @ih fun other hMem => hNoMore other (List.mem_append_left _ hMem)
      have hWell := (@exact_of_opening newDecimal start hOpening (invocations ++ later)).1
      rw [← List.append_assoc, @calls_append _ _ (invocations ++ later), calls_cons, calls_nil,
        History.call] at hOrder
      split at hOrder
      · next hCall =>
        rcases (Database.call_transition hWell hCall).stored_before hWell hOrder with
          hStored | hCreated
        · obtain ⟨row, hRow⟩ := Option.isSome_iff_exists.mp hStored
          have hSame := (Database.call_evolves hWell hCall).userId_eq hRow
            (Table.find?_of_mem hOrder)
          have hRowUser : row.userId = userId := hSame.symm.trans hUser
          rw [← Table.key_of_find? hRow]
          exact hEarlier (Table.mem_of_find? hRow) hRowUser
        · obtain ⟨side, amountInput, priceInput, hCreate⟩ := hCreated
          rw [hUser] at hCreate
          have hLast := hNoMore invocation (List.mem_append_right _ (List.mem_singleton.mpr rfl))
          exact absurd hCreate (hLast side amountInput priceInput)
      · exact hEarlier hOrder hUser

/-- An order that is closed or whose owner asks for its cancellation is closed in the end. -/
theorem closed_of_cancels (hOpening : start.Opening)
    (hTotal : ∀ asset, start.wallets.sum (·.total asset) ≤ decimalMax)
    (invocations : List Invocation) {later : List Invocation} {order : Order}
    (hOrder : order ∈ ((History.start start).calls newDecimal invocations).db.orders)
    (hCancel : order.status.isActive = true →
      ∃ invocation ∈ later, invocation.call = .cancelOrder order.userId order.id) :
    ((History.start start).calls newDecimal (invocations ++ later)).db.Closed order.id := by
  obtain ⟨hWell, _⟩ := @exact_of_opening newDecimal start hOpening invocations
  cases hActive : order.status.isActive with
  | false =>
      have hClosed : ((History.start start).calls newDecimal invocations).db.Closed order.id :=
        ⟨order, Table.find?_of_mem hOrder, hActive⟩
      rw [calls_append]
      exact hClosed.of_evolves (calls_evolve hWell later)
  | true =>
      obtain ⟨invocation, hMem, hCall⟩ := hCancel hActive
      obtain ⟨before, after, rfl⟩ := List.append_of_mem hMem
      obtain ⟨hMiddle, hSolvent⟩ :=
        @solvent_of_opening newDecimal start hOpening hTotal (invocations ++ before)
      have hEvolves := @calls_evolve newDecimal _ hWell before
      rw [← calls_append] at hEvolves
      obtain ⟨row, hRow, hLeads⟩ := hEvolves.leads (Table.find?_of_mem hOrder)
      have hUser : row.userId = order.userId := by rw [hLeads.kept, Order.revised_userId]
      have hId : row.id = order.id := Table.key_of_find? hRow
      rw [← hUser, ← hId] at hCall
      have hClosed := @Database.closed_of_cancel newDecimal invocation _ hMiddle hSolvent row
        (Table.mem_of_find? hRow) hCall
      rw [← List.append_assoc, @calls_append _ _ (invocations ++ before), calls_cons, ← hId]
      refine hClosed.of_evolves (calls_evolve ?_ after)
      have hNext :=
        (@exact_of_opening newDecimal start hOpening (invocations ++ before ++ [invocation])).1
      rwa [@calls_append _ _ (invocations ++ before)] at hNext

/-- From any reachable state on, a user who places no more orders and asks once
for the cancellation of each active one ends with nothing reserved. What the
others call in between, and in which order, makes no difference. -/
theorem funds_released (hOpening : start.Opening)
    (hTotal : ∀ asset, start.wallets.sum (·.total asset) ≤ decimalMax)
    (invocations later : List Invocation) (userId : UserId)
    (hNoMore : ∀ invocation ∈ later, ∀ side amountInput priceInput,
      invocation.call ≠ .createOrder userId side amountInput priceInput)
    (hCancels : ∀ order ∈ ((History.start start).calls newDecimal invocations).db.orders,
      order.userId = userId → order.status.isActive = true →
        ∃ invocation ∈ later, invocation.call = .cancelOrder userId order.id) :
    (∀ order ∈ ((History.start start).calls newDecimal (invocations ++ later)).db.orders,
      order.userId = userId → order.status.isActive = false) ∧
    ∀ wallet ∈ ((History.start start).calls newDecimal (invocations ++ later)).db.wallets,
      wallet.userId = userId → ∀ side : OrderSide, wallet.get side.reserved = 0 := by
  have hClosed :
      ∀ order ∈ ((History.start start).calls newDecimal (invocations ++ later)).db.orders,
      order.userId = userId → order.status.isActive = false := by
    intro order hOrder hUser
    obtain ⟨row, hRow⟩ := Option.isSome_iff_exists.mp
      (stored_before_calls hOpening invocations hNoMore hOrder hUser)
    have hUserRow : row.userId = userId := by
      have hEvolves := @calls_evolve newDecimal _
        (@exact_of_opening newDecimal start hOpening invocations).1 later
      rw [← calls_append] at hEvolves
      exact (hEvolves.userId_eq hRow (Table.find?_of_mem hOrder)).symm.trans hUser
    obtain ⟨found, hFound, hInactive⟩ := closed_of_cancels hOpening hTotal invocations
      (Table.mem_of_find? hRow) fun hActive => by
        rw [hUserRow]
        exact hCancels row (Table.mem_of_find? hRow) hUserRow hActive
    rw [Table.key_of_find? hRow, Table.find?_of_mem hOrder, Option.some.injEq] at hFound
    rwa [hFound]
  refine ⟨hClosed, fun wallet hWallet hUser side => ?_⟩
  have hExact := (@exact_of_opening newDecimal start hOpening (invocations ++ later)).2
  rw [← Market.balance_of_find? (Table.find?_of_mem hWallet), hExact, hUser]
  exact Order.sum_reserves_eq_zero hClosed side

/-- After a partial fill the buyer of the sample cancels the rest. -/
theorem funds_released_sample : ∃ wallet, ((History.start Sample.start).calls Sample.newDecimal
      (Sample.calls ++ [⟨.cancelOrder "buyer" "buy", ⟨"", 0, "", 14⟩⟩])).db.wallets.find?
        "buyer" = some wallet ∧
    wallet.reservedBtc = 0 ∧ wallet.reservedUsd = 0 := by
  have hReleased := (funds_released Sample.opening Sample.total_le Sample.calls
    [⟨.cancelOrder "buyer" "buy", ⟨"", 0, "", 14⟩⟩] "buyer"
      (by simp) fun order hOrder hUser hActive =>
    ⟨_, List.mem_cons_self, by
      have hOnly : ∀ order ∈ Sample.final.db.orders.rows, order.userId = "buyer" →
          order.id = "buy" := by
        decide +kernel
      rw [hOnly order hOrder hUser]⟩).2
  obtain ⟨wallet, hWallet⟩ : ∃ wallet, ((History.start Sample.start).calls Sample.newDecimal
      (Sample.calls ++ [⟨.cancelOrder "buyer" "buy", ⟨"", 0, "", 14⟩⟩])).db.wallets.find?
        "buyer" = some wallet :=
    Option.isSome_iff_exists.mp (by decide +kernel)
  have hZero := hReleased wallet (Table.mem_of_find? hWallet) (Table.key_of_find? hWallet)
  exact ⟨wallet, hWallet, hZero .sell, hZero .buy⟩

end History
end ExchangeMatching
