import ExchangeMatching.Statements

/-! Balance changes. Every change carries the bounds that the live balances
must satisfy, in the condition of the update itself. -/
namespace ExchangeMatching

open Transactions DecimalArithmetic

inductive WalletAsset where
  | btc
  | usd
deriving DecidableEq, Repr

def WalletAsset.name : WalletAsset → String
  | .btc => "BTC"
  | .usd => "USD"

def BalanceChange.delta : BalanceChange → Int
  | .increment amount => amount
  | .decrement amount => amount

/-- The bound on one live balance. -/
def balanceConstraint (change : BalanceField × BalanceChange) :
    Except Failure (BalanceField × Bound) := do
  let delta := change.2.delta
  assertDecimalFitsSchema (.finite (.ofUnits decimalScale delta)) change.1.name
  if delta < 0 then
    .error (.badRequest "Balance changes must be nonnegative")
  else
    match change.2 with
    | .increment amount => return (change.1, .lte (← subtractScaled decimalMax amount))
    | .decrement amount => return (change.1, .gte amount)

def balanceConstraints (data : BalanceUpdate) : Except Failure BalanceWhere :=
  data.mapM balanceConstraint

namespace WalletsRepository

def findByUserId (userId : UserId) : Transaction (Option Wallet) :=
  .perform (.findWallet userId)

/-- Move an amount from the available to the reserved balance. -/
def reserveFunds (userId : UserId) (asset : WalletAsset) (amount : Int) : Transaction Nat := do
  let data : BalanceUpdate :=
    match asset with
    | .usd => [(.availableUsd, .decrement amount), (.reservedUsd, .increment amount)]
    | .btc => [(.availableBtc, .decrement amount), (.reservedBtc, .increment amount)]
  let constraints ← Program.ofExcept (balanceConstraints data)
  .perform (.updateWallet userId constraints data)

def updateBalances (userId : UserId) (data : BalanceUpdate) : Transaction Unit := do
  let constraints ← Program.ofExcept (balanceConstraints data)
  let count ← Program.perform (.updateWallet userId constraints data)
  if count = 0 then
    .throw (.badRequest "Balance update would exceed its numeric bounds")
  else return ()

def releaseFunds (userId : UserId) (asset : WalletAsset) (amount : Int) : Transaction Unit :=
  updateBalances userId <|
    match asset with
    | .usd => [(.availableUsd, .increment amount), (.reservedUsd, .decrement amount)]
    | .btc => [(.availableBtc, .increment amount), (.reservedBtc, .decrement amount)]

def lockWallets : List UserId → Transaction Unit
  | [] => return ()
  | userId :: userIds => do
      Program.perform (.lockWallet userId)
      lockWallets userIds

/-- The wallets of some users, locked in the order of the user ids. -/
def lockAndLoadByUserIds (userIds : List UserId) : Transaction (List Wallet) := do
  let uniqueUserIds := userIds.eraseDups.insertionSort (· ≤ ·)
  if uniqueUserIds.length = 0 then return []
  else
    lockWallets uniqueUserIds
    .perform (.findWallets uniqueUserIds)

end WalletsRepository

namespace WalletsService

def findByUserId (userId : UserId) : Transaction (Option Wallet) :=
  WalletsRepository.findByUserId userId

def reserveFunds (wallet : Wallet) (side : OrderSide) (amount price : Int) : Transaction Unit := do
  let asset := match side with
    | .buy => WalletAsset.usd
    | .sell => WalletAsset.btc
  let requiredAmount ← match side with
    | .buy => Program.ofExcept (multiplyScaled amount price)
    | .sell => pure amount
  let count ← WalletsRepository.reserveFunds wallet.userId asset requiredAmount
  if count = 0 then .throw (.badRequest ("Insufficient " ++ asset.name ++ " balance"))
  else return ()

def releaseFunds (order : Order) : Transaction Unit := do
  let asset := match order.side with
    | .buy => WalletAsset.usd
    | .sell => WalletAsset.btc
  let releasedAmount ← match order.side with
    | .buy => Program.ofExcept (multiplyScaled order.remainingAmount order.price)
    | .sell => pure order.remainingAmount
  WalletsRepository.releaseFunds order.userId asset releasedAmount

end WalletsService

/-- The bound that a change puts on the live balance. -/
def BalanceChange.bound : BalanceChange → Bound
  | .increment amount => .lte (decimalMax - amount)
  | .decrement amount => .gte amount

namespace BalanceUpdate

/-- All deltas lie in the range of the columns. -/
def DeltasInRange (data : BalanceUpdate) : Prop :=
  ∀ change ∈ data, 0 ≤ change.2.delta ∧ change.2.delta ≤ decimalMax

/-- The wallet takes the whole update without leaving its range. -/
structure Fits (data : BalanceUpdate) (wallet : Wallet) : Prop where
  deltas : data.DeltasInRange
  result : (wallet.update data).InRange

end BalanceUpdate

namespace OrderSide

/-- The balances between which the side moves its funds. -/
def available : OrderSide → BalanceField
  | .buy => .availableUsd
  | .sell => .availableBtc

def reserved : OrderSide → BalanceField
  | .buy => .reservedUsd
  | .sell => .reservedBtc

def asset : OrderSide → WalletAsset
  | .buy => .usd
  | .sell => .btc

/-- The funds that an amount binds at a limit price. -/
def reservation (side : OrderSide) (amount price : Int) : Int :=
  match side with
  | .buy => cost amount price
  | .sell => amount

def reserve (side : OrderSide) (amount : Int) : BalanceUpdate :=
  [(side.available, .decrement amount), (side.reserved, .increment amount)]

def release (side : OrderSide) (amount : Int) : BalanceUpdate :=
  [(side.available, .increment amount), (side.reserved, .decrement amount)]

theorem reservation_nonneg (side : OrderSide) {amount price : Int} (hAmount : 0 ≤ amount)
    (hPrice : 0 ≤ price) : 0 ≤ side.reservation amount price := by
  cases side with
  | buy => exact cost_nonneg hAmount hPrice
  | sell => exact hAmount

theorem reserve_distinct (side : OrderSide) (amount : Int) :
    ((side.reserve amount).map Prod.fst).Nodup := by
  cases side <;> simp [reserve, available, reserved]

theorem release_distinct (side : OrderSide) (amount : Int) :
    ((side.release amount).map Prod.fst).Nodup := by
  cases side <;> simp [release, available, reserved]

end OrderSide

/-- The funds that an order binds while it is active. -/
def Order.reservation (order : Order) : Int :=
  order.side.reservation order.remainingAmount order.price

theorem balanceConstraint_eq_ok {change : BalanceField × BalanceChange}
    {result : BalanceField × Bound} :
    balanceConstraint change = .ok result ↔
      (0 ≤ change.2.delta ∧ change.2.delta ≤ decimalMax) ∧
      result = (change.1, change.2.bound) := by
  obtain ⟨field, change⟩ := change
  unfold balanceConstraint
  rw [check_bind_eq_ok, assertDecimalFitsSchema_ofUnits]
  dsimp only
  split_ifs with hNegative
  · have hRefused : ¬0 ≤ change.delta := not_le.mpr hNegative
    simp [hRefused]
  · have hNonneg := not_lt.mp hNegative
    rw [Int.natAbs_of_nonneg hNonneg]
    cases change with
    | increment amount =>
        change 0 ≤ amount at hNonneg
        simp only [BalanceChange.delta, BalanceChange.bound, bind_eq_ok, subtractScaled_eq_ok,
          hNonneg, true_and]
        constructor
        · rintro ⟨hMax, _, ⟨rfl, _⟩, hResult⟩
          exact ⟨hMax, (Except.ok.inj hResult).symm⟩
        · rintro ⟨hMax, rfl⟩
          exact ⟨hMax, _, ⟨rfl, by omega⟩, rfl⟩
    | decrement amount =>
        change 0 ≤ amount at hNonneg
        simp only [BalanceChange.delta, BalanceChange.bound, hNonneg, true_and]
        constructor
        · rintro ⟨hMax, hResult⟩
          exact ⟨hMax, (Except.ok.inj hResult).symm⟩
        · rintro ⟨hMax, rfl⟩
          exact ⟨hMax, rfl⟩

/-- The constraints are computed when every delta is in range, and bound each
named balance. -/
theorem balanceConstraints_eq_ok {data : BalanceUpdate} {constraints : BalanceWhere} :
    balanceConstraints data = .ok constraints ↔
      data.DeltasInRange ∧ constraints = data.map (fun change => (change.1, change.2.bound)) := by
  unfold balanceConstraints BalanceUpdate.DeltasInRange
  induction data generalizing constraints with
  | nil => simp [pure, Except.pure, eq_comm]
  | cons change data ih =>
      simp only [List.mapM_cons, bind_eq_ok, balanceConstraint_eq_ok, ih, List.forall_mem_cons,
        List.map_cons]
      constructor
      · rintro ⟨_, ⟨hChange, rfl⟩, _, ⟨hData, rfl⟩, hResult⟩
        exact ⟨⟨hChange, hData⟩, (Except.ok.inj hResult).symm⟩
      · rintro ⟨⟨hChange, hData⟩, rfl⟩
        exact ⟨_, ⟨hChange, rfl⟩, _, ⟨hData, rfl⟩, rfl⟩

namespace Wallet

/-- An update leaves the balances that it does not name. -/
theorem get_update_of_notMem {wallet : Wallet} {data : BalanceUpdate} {field : BalanceField}
    (h : field ∉ data.map Prod.fst) : (wallet.update data).get field = wallet.get field := by
  induction data generalizing wallet with
  | nil => rfl
  | cons change data ih =>
      rw [List.map_cons, List.mem_cons, not_or] at h
      rw [update_cons, ih h.2, get_set, if_neg h.1]

/-- An update that names a balance once changes it by that one change. -/
theorem get_update_of_mem {wallet : Wallet} {data : BalanceUpdate}
    {change : BalanceField × BalanceChange} (hDistinct : (data.map Prod.fst).Nodup)
    (hMem : change ∈ data) :
    (wallet.update data).get change.1 = change.2.apply (wallet.get change.1) := by
  induction data generalizing wallet with
  | nil => cases hMem
  | cons head data ih =>
      rw [List.map_cons, List.nodup_cons] at hDistinct
      rw [update_cons]
      rcases List.mem_cons.mp hMem with rfl | hTail
      · rw [get_update_of_notMem hDistinct.1, get_set, if_pos rfl]
      · have hNe : change.1 ≠ head.1 := fun hEq =>
          hDistinct.1 (hEq ▸ List.mem_map.mpr ⟨change, hTail, rfl⟩)
        rw [ih hDistinct.2 hTail, get_set, if_neg hNe]

/-- For a wallet in range, the bounds hold exactly when the result of the
update is in range. The row checks of the table then hold as well. -/
theorem satisfies_iff {wallet : Wallet} {data : BalanceUpdate} (hRange : wallet.InRange)
    (hDistinct : (data.map Prod.fst).Nodup) (hDeltas : data.DeltasInRange) :
    wallet.satisfies (data.map fun change => (change.1, change.2.bound)) = true ↔
      (wallet.update data).InRange := by
  have hBound : ∀ change ∈ data, change.2.bound.holds (wallet.get change.1) = true ↔
      0 ≤ (wallet.update data).get change.1 ∧ (wallet.update data).get change.1 ≤ decimalMax := by
    rintro ⟨field, change⟩ hMem
    have hField := hRange field
    have hDelta := hDeltas _ hMem
    rw [get_update_of_mem hDistinct hMem]
    cases change with
    | increment amount =>
        simp only [BalanceChange.delta] at hDelta
        simp only [BalanceChange.bound, Bound.holds, BalanceChange.apply, decide_eq_true_eq]
        omega
    | decrement amount =>
        simp only [BalanceChange.delta] at hDelta
        simp only [BalanceChange.bound, Bound.holds, BalanceChange.apply, decide_eq_true_eq]
        omega
  simp only [satisfies, List.all_map, List.all_eq_true, Function.comp_apply]
  constructor
  · intro hAll field
    by_cases hNamed : field ∈ data.map Prod.fst
    · obtain ⟨change, hMem, rfl⟩ := List.mem_map.mp hNamed
      exact (hBound change hMem).mp (hAll change hMem)
    · rw [get_update_of_notMem hNamed]
      exact hRange field
  · exact fun hResult change hMem => (hBound change hMem).mpr (hResult change.1)

end Wallet

section Runs

variable {generated : Generated} {db : Database} {userId : UserId} {data : BalanceUpdate}

/-- All stored wallets are in range. -/
def Market.WalletsInRange (market : Market) : Prop := ∀ wallet ∈ market.wallets, wallet.InRange

/-- Under its own constraints an update reaches a row in range exactly when
the wallet takes it, and the row checks of the table never refuse it. -/
theorem effect_updateWallet_of_inRange {wallet : Wallet} (hRange : wallet.InRange)
    (hDistinct : (data.map Prod.fst).Nodup) (hDeltas : data.DeltasInRange)
    (hFound : db.wallets.find? userId = some wallet) :
    effect generated (.updateWallet userId
        (data.map fun change => (change.1, change.2.bound)) data) db =
      if (wallet.update data).InRange then .ok (1, [.wallet (wallet.update data)]) else
        .ok (0, []) := by
  have hSatisfies := Wallet.satisfies_iff hRange hDistinct hDeltas
  simp only [effect, hFound]
  split_ifs with hUpdated hResult hResult
  · rw [Wallet.check_eq_ok.mpr hResult]
  · exact absurd (hSatisfies.mp hUpdated) hResult
  · exact absurd (hSatisfies.mpr hResult) hUpdated
  · rfl

theorem effect_updateWallet (hRange : db.WalletsInRange) (hDistinct : (data.map Prod.fst).Nodup)
    (hDeltas : data.DeltasInRange) :
    effect generated (.updateWallet userId
        (data.map fun change => (change.1, change.2.bound)) data) db =
      match db.wallets.find? userId with
      | none => .ok (0, [])
      | some wallet =>
          if (wallet.update data).InRange then .ok (1, [.wallet (wallet.update data)])
          else .ok (0, []) := by
  cases hFound : db.wallets.find? userId with
  | none => simp only [effect, hFound]
  | some wallet =>
      exact effect_updateWallet_of_inRange (hRange _ (Table.mem_of_find? hFound)) hDistinct hDeltas
        hFound

/-- An update under its own constraints, where a miss fails the transaction. -/
def guardedUpdate (failure : Failure) (userId : UserId)
    (data : BalanceUpdate) : Transaction Unit := do
  let constraints ← Program.ofExcept (balanceConstraints data)
  let count ← Program.perform (.updateWallet userId constraints data)
  if count = 0 then .throw failure else return ()

theorem run_guardedUpdate {failure : Failure} {wallet : Wallet} (hRange : db.WalletsInRange)
    (hDistinct : (data.map Prod.fst).Nodup) (hDeltas : data.DeltasInRange)
    (hFound : db.wallets.find? userId = some wallet) :
    engine.run generated (guardedUpdate failure userId data) db =
      if (wallet.update data).InRange then .ok ((), db.apply (.wallet (wallet.update data)))
      else .error failure := by
  have hConstraints := balanceConstraints_eq_ok.mpr ⟨hDeltas, rfl⟩
  have hEffect := @effect_updateWallet generated db userId data hRange hDistinct hDeltas
  rw [hFound, ← engine_effect] at hEffect
  dsimp only at hEffect
  unfold guardedUpdate
  simp only [hConstraints, Program.ofExcept, Program.mk_pure_bind, Program.perform_bind]
  split_ifs at hEffect ⊢ with hResult
  · exact Engine.run_issue_of_ok hEffect
  · exact Engine.run_issue_of_ok hEffect

theorem run_guardedUpdate_eq_ok {failure : Failure} {out : Unit × Database}
    (hRange : db.WalletsInRange) (hDistinct : (data.map Prod.fst).Nodup) :
    engine.run generated (guardedUpdate failure userId data) db = .ok out ↔
      ∃ wallet, db.wallets.find? userId = some wallet ∧ data.Fits wallet ∧
        out = ((), db.apply (.wallet (wallet.update data))) := by
  constructor
  · intro hRun
    obtain ⟨_, _, hConstraints, hUpdate⟩ := Engine.run_bind_eq_ok.mp hRun
    rw [Engine.run_ofExcept_eq_ok, balanceConstraints_eq_ok] at hConstraints
    obtain ⟨⟨hDeltas, rfl⟩, rfl⟩ := hConstraints
    obtain ⟨count, writes, hEffect, hCount⟩ := Engine.run_issue_eq_ok.mp hUpdate
    cases hFound : db.wallets.find? userId with
    | none =>
        rw [engine_effect, effect_updateWallet hRange hDistinct hDeltas, hFound] at hEffect
        cases hEffect
        cases hCount
    | some wallet =>
        rw [run_guardedUpdate hRange hDistinct hDeltas hFound] at hRun
        split_ifs at hRun with hResult
        exact ⟨wallet, rfl, ⟨hDeltas, hResult⟩, (Except.ok.inj hRun).symm⟩
  · rintro ⟨wallet, hFound, hFits, rfl⟩
    rw [run_guardedUpdate hRange hDistinct hFits.deltas hFound, if_pos hFits.result]

theorem run_updateBalances_eq_ok {out : Unit × Database} (hRange : db.WalletsInRange)
    (hDistinct : (data.map Prod.fst).Nodup) :
    engine.run generated (WalletsRepository.updateBalances userId data) db = .ok out ↔
      ∃ wallet, db.wallets.find? userId = some wallet ∧ data.Fits wallet ∧
        out = ((), db.apply (.wallet (wallet.update data))) :=
  run_guardedUpdate_eq_ok hRange hDistinct

/-- Reserving is one guarded update of the wallet that was read. -/
theorem reserveFunds_eq {wallet : Wallet} {side : OrderSide} {amount price : Int} :
    WalletsService.reserveFunds wallet side amount price = (do
      let required ← match side with
        | .buy => Program.ofExcept (multiplyScaled amount price)
        | .sell => pure amount
      guardedUpdate (.badRequest ("Insufficient " ++ side.asset.name ++ " balance")) wallet.userId
        (side.reserve required)) := by
  have hReserve : ∀ required, (do
        let count ← WalletsRepository.reserveFunds wallet.userId side.asset required
        if count = 0 then .throw (.badRequest ("Insufficient " ++ side.asset.name ++ " balance"))
        else return ()) =
      guardedUpdate (.badRequest ("Insufficient " ++ side.asset.name ++ " balance")) wallet.userId
        (side.reserve required) := by
    intro required
    cases side <;> exact Program.bind_assoc ..
  simp only [← hReserve]
  cases side <;> rfl

theorem releaseFunds_eq {order : Order} :
    WalletsService.releaseFunds order = (do
      let released ← match order.side with
        | .buy => Program.ofExcept (multiplyScaled order.remainingAmount order.price)
        | .sell => pure order.remainingAmount
      WalletsRepository.updateBalances order.userId (order.side.release released)) := by
  unfold WalletsService.releaseFunds
  cases order.side <;> rfl

/-- The funds of a side are computed when they fit the columns. -/
theorem run_required_bind_eq_ok {Result : Type} {side : OrderSide} {amount price : Int}
    {next : Int → Transaction Result} {out : Result × Database} (hAmount : 0 ≤ amount)
    (hPrice : 0 ≤ price) (hNext : ∀ required, engine.run generated (next required) db = .ok out →
      required ≤ decimalMax) :
    engine.run generated (do
        let required ← match side with
          | .buy => Program.ofExcept (multiplyScaled amount price)
          | .sell => pure amount
        next required) db = .ok out ↔
      engine.run generated (next (side.reservation amount price)) db = .ok out := by
  cases side with
  | sell => rfl
  | buy =>
      simp only [OrderSide.reservation]
      cases hCost : multiplyScaled amount price with
      | ok required =>
          obtain ⟨rfl, _⟩ := (multiplyScaled_eq_ok hAmount hPrice).mp hCost
          rfl
      | error failure =>
          simp only [Program.ofExcept, Program.throw_bind, Engine.run_throw, reduceCtorEq,
            false_iff]
          intro hRun
          have hOk := (multiplyScaled_eq_ok hAmount hPrice).mpr ⟨rfl, hNext _ hRun⟩
          rw [hOk] at hCost
          cases hCost

/-- Reserving succeeds exactly when the stored wallet can bind the funds. -/
theorem run_reserveFunds_eq_ok {wallet : Wallet} {side : OrderSide} {amount price : Int}
    {out : Unit × Database} (hRange : db.WalletsInRange) (hAmount : 0 ≤ amount)
    (hPrice : 0 ≤ price) :
    engine.run generated (WalletsService.reserveFunds wallet side amount price) db = .ok out ↔
      ∃ row, db.wallets.find? wallet.userId = some row ∧
        (side.reserve (side.reservation amount price)).Fits row ∧
        out =
          ((), db.apply (.wallet (row.update (side.reserve (side.reservation amount price))))) := by
  rw [reserveFunds_eq, run_required_bind_eq_ok hAmount hPrice, run_guardedUpdate_eq_ok hRange
    (side.reserve_distinct _)]
  intro required hRun
  obtain ⟨_, _, hFits, _⟩ := (run_guardedUpdate_eq_ok hRange (side.reserve_distinct _)).mp hRun
  exact (hFits.deltas (side.available, .decrement required) (by simp [OrderSide.reserve])).2

theorem run_releaseFunds_eq_ok {order : Order} {out : Unit × Database} (hRange : db.WalletsInRange)
    (hAmount : 0 ≤ order.remainingAmount) (hPrice : 0 ≤ order.price) :
    engine.run generated (WalletsService.releaseFunds order) db = .ok out ↔
      ∃ row, db.wallets.find? order.userId = some row ∧
        (order.side.release order.reservation).Fits row ∧
        out = ((), db.apply (.wallet (row.update (order.side.release order.reservation)))) := by
  rw [releaseFunds_eq, run_required_bind_eq_ok hAmount hPrice, run_updateBalances_eq_ok hRange
    (order.side.release_distinct _)]
  · rfl
  intro required hRun
  obtain ⟨_, _, hFits, _⟩ :=
    (run_updateBalances_eq_ok hRange (order.side.release_distinct _)).mp hRun
  exact (hFits.deltas (order.side.available, .increment required) (by simp [OrderSide.release])).2

end Runs
end ExchangeMatching
