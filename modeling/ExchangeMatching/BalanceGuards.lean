import ExchangeMatching.Balances
import ExchangeMatching.Failures

/-! The guards of balance changes. A change is applied exactly when every
balance that it leads to is in range; otherwise nothing is written, and the
checks of the database have nothing left to refuse. -/
namespace ExchangeMatching

open Transactions

namespace BalanceUpdate

/-- What the update makes of one balance. -/
def result (data : BalanceUpdate) (wallet : Wallet) (field : BalanceField) : Int :=
  match data.find? (·.1 = field) with
  | none => wallet.get field
  | some change => change.2.apply (wallet.get field)

/-- Every balance is in range after the update. -/
def StaysInRange (data : BalanceUpdate) (wallet : Wallet) : Prop :=
  ∀ field, 0 ≤ data.result wallet field ∧ data.result wallet field ≤ decimalMax

instance (data : BalanceUpdate) : Decidable data.DeltasInRange :=
  inferInstanceAs (Decidable (∀ change ∈ data, _))

instance (data : BalanceUpdate) (wallet : Wallet) : Decidable (data.StaysInRange wallet) :=
  decidable_of_iff (∀ field ∈ BalanceField.all, 0 ≤ data.result wallet field ∧
    data.result wallet field ≤ decimalMax)
    ⟨fun h field => h field field.mem_all, fun h field _ => h field⟩

end BalanceUpdate

namespace WalletAsset

/-- The changes of `reserveFunds`. -/
def reserve (asset : WalletAsset) (amount : Int) : BalanceUpdate :=
  match asset with
  | .usd => [(.availableUsd, .decrement amount), (.reservedUsd, .increment amount)]
  | .btc => [(.availableBtc, .decrement amount), (.reservedBtc, .increment amount)]

/-- The changes of `releaseFunds`. -/
def release (asset : WalletAsset) (amount : Int) : BalanceUpdate :=
  match asset with
  | .usd => [(.availableUsd, .increment amount), (.reservedUsd, .decrement amount)]
  | .btc => [(.availableBtc, .increment amount), (.reservedBtc, .decrement amount)]

theorem reserve_distinct (asset : WalletAsset) (amount : Int) :
    ((asset.reserve amount).map Prod.fst).Nodup := by
  cases asset <;> simp [reserve]

theorem release_distinct (asset : WalletAsset) (amount : Int) :
    ((asset.release amount).map Prod.fst).Nodup := by
  cases asset <;> simp [release]

end WalletAsset

/-- The second database is the first one with one wallet changed by the update. -/
structure Database.Applied (db : Database) (wallet : Wallet) (data : BalanceUpdate)
    (db' : Database) : Prop where
  row : ∃ row, db'.wallets.find? wallet.userId = some row ∧
    ∀ field, row.get field = data.result wallet field
  others : ∀ userId, userId ≠ wallet.userId → db'.wallets.find? userId = db.wallets.find? userId
  rest : { db' with toMarket := { db'.toMarket with wallets := db.wallets } } = db

/-- The program makes the update exactly when the balances stay in range. When
they do not it ends as refused and has written nothing. Deltas that are not in
range themselves are rejected without any statement. -/
structure ExactGuard {Result : Type} (generated : Generated) (db : Database) (wallet : Wallet)
    (data : BalanceUpdate) (program : Transaction Result)
    (applied refused : Except Failure Result) : Prop where
  applies : data.DeltasInRange → data.StaysInRange wallet →
    ∃ db', engine.ending generated program db = (applied, db') ∧ db.Applied wallet data db'
  refuses : data.DeltasInRange → ¬data.StaysInRange wallet →
    engine.ending generated program db = (refused, db)
  rejects : ¬data.DeltasInRange → ∃ message, program = .throw (.badRequest message)
  unchecked : ∀ name, (engine.ending generated program db).1 ≠ .error (.checkViolation name) ∧
    (engine.ending generated program db).1 ≠ .error (.numericOverflow name)

section Guards

variable {Result : Type} {generated : Generated} {db : Database} {wallet : Wallet}
  {data : BalanceUpdate}

/-- The update as a whole does to every balance what its own change says. -/
theorem Wallet.get_update_eq_result (hDistinct : (data.map Prod.fst).Nodup) (field : BalanceField) :
    (wallet.update data).get field = data.result wallet field := by
  let changes : Table (BalanceField × BalanceChange) Prod.fst := ⟨data, hDistinct⟩
  have hFind : data.find? (·.1 = field) = changes.find? field := rfl
  unfold BalanceUpdate.result
  rw [hFind]
  cases hChange : changes.find? field with
  | none =>
      refine Wallet.get_update_of_notMem fun hMem => ?_
      rw [Table.find?_eq_none_iff] at hChange
      obtain ⟨change, hNamed, hField⟩ := List.mem_map.mp hMem
      exact hChange change hNamed hField
  | some change =>
      have hMem : change ∈ data := Table.mem_of_find? hChange
      obtain rfl := Table.key_of_find? hChange
      exact Wallet.get_update_of_mem hDistinct hMem

theorem inRange_update_iff (hDistinct : (data.map Prod.fst).Nodup) :
    (wallet.update data).InRange ↔ data.StaysInRange wallet := by
  simp only [Wallet.InRange, BalanceUpdate.StaysInRange, Wallet.get_update_eq_result hDistinct]

variable (hFound : db.wallets.find? wallet.userId = some wallet)

include hFound in
theorem applied_wallet (hDistinct : (data.map Prod.fst).Nodup) :
    db.Applied wallet data (db.apply (.wallet (wallet.update data))) where
  row := ⟨wallet.update data, (Market.find?_putWallet_update hFound).trans (if_pos rfl),
    Wallet.get_update_eq_result hDistinct⟩
  others _ hOther := (Market.find?_putWallet_update hFound).trans (if_neg hOther)
  rest := rfl

include hFound in
/-- What comes after the guarded update depends on whether it was made. -/
theorem ending_updateWallet (hRange : wallet.InRange) (hDistinct : (data.map Prod.fst).Nodup)
    (hDeltas : data.DeltasInRange) (next : Nat → Transaction Result) :
    (data.StaysInRange wallet → engine.ending generated (.issue (.updateWallet wallet.userId
        (data.map fun change => (change.1, change.2.bound)) data) next) db =
      engine.ending generated (next 1) (db.apply (.wallet (wallet.update data)))) ∧
    (¬data.StaysInRange wallet → engine.ending generated (.issue (.updateWallet wallet.userId
        (data.map fun change => (change.1, change.2.bound)) data) next) db =
      engine.ending generated (next 0) db) := by
  have hEffect := @effect_updateWallet_of_inRange generated db wallet.userId data wallet hRange
    hDistinct hDeltas hFound
  rw [← inRange_update_iff hDistinct]
  constructor
  · intro hStays
    rw [if_pos hStays] at hEffect
    rw [Engine.ending, engine_effect, hEffect]
    rfl
  · intro hLeaves
    rw [if_neg hLeaves] at hEffect
    rw [Engine.ending, engine_effect, hEffect]
    rfl

include hFound in
/-- A guarded update whose program only looks at the count is exact. -/
theorem exactGuard (hRange : wallet.InRange) (hDistinct : (data.map Prod.fst).Nodup)
    {program : Transaction Result} (next : Nat → Transaction Result)
    {applied refused : Except Failure Result} (hProgram : program = do
      let constraints ← Program.ofExcept (balanceConstraints data)
      let count ← Program.perform (.updateWallet wallet.userId constraints data)
      next count)
    (hApplied : ∀ db, engine.ending generated (next 1) db = (applied, db))
    (hRefused : ∀ db, engine.ending generated (next 0) db = (refused, db))
    (hChecks : ∀ name, (applied ≠ .error (.checkViolation name) ∧
      applied ≠ .error (.numericOverflow name)) ∧
      refused ≠ .error (.checkViolation name) ∧ refused ≠ .error (.numericOverflow name)) :
    ExactGuard generated db wallet data program applied refused := by
  by_cases hDeltas : data.DeltasInRange
  · have hIssue : program = .issue (.updateWallet wallet.userId
        (data.map fun change => (change.1, change.2.bound)) data) next := by
      rw [hProgram, balanceConstraints_eq_ok.mpr ⟨hDeltas, rfl⟩]
      rfl
    obtain ⟨hStays, hLeaves⟩ :=
      @ending_updateWallet Result generated db wallet data hFound hRange hDistinct hDeltas next
    rw [← hIssue] at hStays hLeaves
    refine ⟨fun _ hResult =>
      ⟨_, (hStays hResult).trans (hApplied _), applied_wallet hFound hDistinct⟩,
      fun _ hResult => (hLeaves hResult).trans (hRefused _), fun hBad => absurd hDeltas hBad,
        fun name => ?_⟩
    by_cases hResult : data.StaysInRange wallet
    · rw [hStays hResult, hApplied]
      exact (hChecks name).1
    · rw [hLeaves hResult, hRefused]
      exact (hChecks name).2
  · cases hConstraints : balanceConstraints data with
    | ok constraints => exact absurd (balanceConstraints_eq_ok.mp hConstraints).1 hDeltas
    | error failure =>
        obtain ⟨message, rfl⟩ := refuses_balanceConstraints data failure hConstraints
        have hThrow : program = .throw (.badRequest message) := by
          rw [hProgram, hConstraints]
          rfl
        refine ⟨fun hGood => absurd hGood hDeltas, fun hGood => absurd hGood hDeltas,
          fun _ => ⟨message, hThrow⟩, fun name => ?_⟩
        rw [hThrow]
        constructor
        · intro hCheck
          cases hCheck
        · intro hOverflow
          cases hOverflow

/-- As a transaction of its own, an operation in range commits the update. -/
theorem ExactGuard.run {program : Transaction Result} {value : Result}
    {refused : Except Failure Result}
    (h : ExactGuard generated db wallet data program (.ok value) refused)
    (hDeltas : data.DeltasInRange) (hStays : data.StaysInRange wallet) :
    ∃ db', engine.run generated program db = .ok (value, db') ∧ db.Applied wallet data db' := by
  obtain ⟨db', hEnding, hApplied⟩ := h.applies hDeltas hStays
  refine ⟨db', ?_, hApplied⟩
  rw [Engine.run_eq_ending, hEnding]

end Guards

/-- For every wallet in range and every update that names each balance at most
once, the three operations are exact guards. -/
theorem balance_guards_exact {generated : Generated} {db : Database} {wallet : Wallet}
    (hFound : db.wallets.find? wallet.userId = some wallet) (hRange : wallet.InRange) :
    (∀ data : BalanceUpdate, (data.map Prod.fst).Nodup →
      ExactGuard generated db wallet data (WalletsRepository.updateBalances wallet.userId data)
        (.ok ()) (.error (.badRequest "Balance update would exceed its numeric bounds"))) ∧
    (∀ asset amount, ExactGuard generated db wallet (asset.reserve amount)
      (WalletsRepository.reserveFunds wallet.userId asset amount) (.ok 1) (.ok 0)) ∧
    ∀ asset amount, ExactGuard generated db wallet (asset.release amount)
      (WalletsRepository.releaseFunds wallet.userId asset amount)
      (.ok ()) (.error (.badRequest "Balance update would exceed its numeric bounds")) := by
  have hUpdate : ∀ data : BalanceUpdate, (data.map Prod.fst).Nodup →
      ExactGuard generated db wallet data (WalletsRepository.updateBalances wallet.userId data)
        (.ok ()) (.error (.badRequest "Balance update would exceed its numeric bounds")) := by
    intro data hDistinct
    exact exactGuard hFound hRange hDistinct _ rfl (fun _ => rfl) (fun _ => rfl) (by simp)
  refine ⟨hUpdate, fun asset amount => ?_, fun asset amount => ?_⟩
  · exact exactGuard hFound hRange (asset.reserve_distinct amount) .pure (by cases asset <;> rfl)
      (fun _ => rfl) (fun _ => rfl) (by simp)
  · have hRelease : WalletsRepository.releaseFunds wallet.userId asset amount =
        WalletsRepository.updateBalances wallet.userId
          (asset.release amount) := by cases asset <;> rfl
    rw [hRelease]
    exact hUpdate _ (asset.release_distinct amount)

/-- The seller of the sample can reserve its ten BTC, in a transaction that commits,
and no unit more, and its USD can be filled up to the last unit of the column. -/
theorem balance_guards_exact_sample :
    (∃ db', engine.run ⟨"", 0, "", 0⟩ (WalletsRepository.reserveFunds "seller" .btc (10 * one))
      Sample.start = .ok (1, db')) ∧
    engine.ending ⟨"", 0, "", 0⟩ (WalletsRepository.reserveFunds "seller" .btc (10 * one + 1))
      Sample.start = (.ok 0, Sample.start) ∧
    ∃ db', engine.ending ⟨"", 0, "", 0⟩ (WalletsRepository.updateBalances "seller"
      [(.availableUsd, .increment decimalMax), (.reservedBtc, .decrement 0)]) Sample.start =
        (.ok (), db') := by
  have hFound : Sample.start.wallets.find? "seller" =
      some ⟨"seller", 10 * one, 0, 0, 0⟩ := by decide
  obtain ⟨hUpdate, hReserve, _⟩ := @balance_guards_exact ⟨"", 0, "", 0⟩ Sample.start
    ⟨"seller", 10 * one, 0, 0, 0⟩ hFound (by decide)
  obtain ⟨db', hAll, _⟩ := (hReserve .btc (10 * one)).run (by decide) (by decide)
  obtain ⟨db'', hBoundary, _⟩ :=
    (hUpdate [(.availableUsd, .increment decimalMax), (.reservedBtc, .decrement 0)]
    (by decide)).applies (by decide) (by decide)
  exact ⟨⟨db', hAll⟩, (hReserve .btc (10 * one + 1)).refuses (by decide) (by decide), db'',
    hBoundary⟩

end ExchangeMatching
