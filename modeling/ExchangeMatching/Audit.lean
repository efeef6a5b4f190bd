import ExchangeMatching.Lifecycle
import ExchangeMatching.Postings

/-! The ledger oracle against the invariants of the market. A snapshot passes
exactly when the market is well formed, the reservations are exact, every trade
is recorded and accounted for, and the ledger balances from the given opening
on. -/
namespace ExchangeMatching
namespace MonetaryInvariants

open Checked

variable {market : Market} {orders : List Order} {books books' : Books} {label : String}

section Orders

variable {executed : OrderId → Int} {accounts accounts' : Accounts}

/-- An order that passes, booked to the reservations of the replay. -/
def reserved (accounts : Accounts) (order : Order) : Accounts := fun userId =>
  (accounts userId).map fun account =>
    { account with
      reservedBtc := account.reservedBtc + Order.reserves userId .sell order
      reservedUsd := account.reservedUsd + Order.reserves userId .buy order }

/-- For a sound order the oracle adds to the account what the market counts as
reserved. -/
theorem reserve_of {order : Order} (hSound : order.Sound) :
    reserve accounts (.of order) order.remainingAmount order.price = reserved accounts order := by
  have hCost := cost_eq hSound.remaining_nonneg hSound.price_pos.le
  have hSide : (OrderSnapshot.of order).side = order.side := rfl
  have hUserId : (OrderSnapshot.of order).userId = order.userId := rfl
  have hMem : (OrderSnapshot.of order).status ∈ active ↔ order.status.isActive = true := by
    change order.status ∈ active ↔ _
    cases order.status <;> decide
  funext userId
  by_cases hActive : order.status.isActive = true
  · rw [reserve, if_pos (hMem.mpr hActive)]
    simp only [Accounts.change, reserved, Order.reserves_of_isActive hActive, Order.reservation,
      hSide, hUserId, hCost]
    by_cases hUser : userId = order.userId
    · simp only [if_pos hUser]
      cases order.side <;>
        simp only [reduceCtorEq, if_true, if_false, add_zero, OrderSide.reservation]
    · simp only [if_neg hUser, add_zero, Option.map_id']
  · have hClosed : order.status.isActive = false := Bool.eq_false_iff.mpr hActive
    rw [reserve, if_neg fun h => hActive (hMem.mp h)]
    simp only [reserved, Order.reserves_of_closed hClosed, add_zero, Option.map_id']

/-- The oracle's three assertions on a status are the check of the database,
as long as no more was executed than ordered. -/
theorem statusConsistent_iff {order : Order} (hLe : order.remainingAmount ≤ order.originalAmount)
    (hOriginal : 0 < order.originalAmount) : order.statusConsistent = true ↔
      (if order.status = .filled then order.remainingAmount = 0 else 0 < order.remainingAmount) ∧
      (order.status = .partiallyFilled → order.remainingAmount < order.originalAmount) ∧
      (order.status ∈ [.queued, .opened, .rejected] →
        order.remainingAmount = order.originalAmount) := by
  rw [Order.statusConsistent_iff]
  cases order.status <;>
    simp only [reduceCtorEq, if_true, if_false, List.mem_cons, List.not_mem_nil, or_true, or_false,
      true_implies, false_implies, and_true, true_and] <;> omega

/-- The oracle passes an order that the database accepts, whose cost was in
range when it was created, and of which the replay has executed what is
missing. -/
theorem checkOrder_eq_ok {order : Order} (hExecuted : 0 ≤ executed order.id) :
    checkOrder executed accounts (.of order) = .ok accounts' ↔
      (order.Sound ∧ order.originalAmount - order.remainingAmount = executed order.id ∧
        (accounts order.userId).isSome) ∧ accounts' = reserved accounts order := by
  unfold checkOrder
  simp only [OrderSnapshot.amounts_of, bounded_bind_eq_ok, ensure_bind_eq_ok, pure_eq_ok]
  have hStatus : (OrderSnapshot.of order).status = order.status := rfl
  have hId : (OrderSnapshot.of order).id = order.id := rfl
  have hUserId : (OrderSnapshot.of order).userId = order.userId := rfl
  rw [hStatus, hId, hUserId]
  constructor
  · rintro ⟨hOriginal, hRemaining, hPrice, ⟨hPositive, hCostPos, hCostLe⟩, hDone, hLeft,
      hPartial, hUntouched, hAccount, rfl⟩
    rw [cost_eq hOriginal.1 hPrice.1] at hCostPos hCostLe
    have hPricePos : 0 < order.price := by
      refine lt_of_le_of_ne hPrice.1 fun hZero => ?_
      rw [← hZero, ExchangeMatching.cost, FloorProduct.floorProduct, mul_zero, Int.zero_ediv]
        at hCostPos
      exact absurd hCostPos (lt_irrefl 0)
    have hLe : order.remainingAmount ≤ order.originalAmount := by omega
    have hSound : order.Sound := ⟨⟨hPricePos, hPrice.2, hPositive, hOriginal.2, hRemaining.1, hLe,
      (statusConsistent_iff hLe hPositive).mpr ⟨hLeft, hPartial, hUntouched⟩⟩, hCostPos,
        hCostLe⟩
    exact ⟨⟨hSound, hDone, hAccount⟩, reserve_of hSound⟩
  · rintro ⟨⟨hSound, hDone, hAccount⟩, rfl⟩
    have hCost := cost_eq hSound.original_pos.le hSound.price_pos.le
    obtain ⟨hLeft, hPartial, hUntouched⟩ :=
      (statusConsistent_iff hSound.remaining_le hSound.original_pos).mp hSound.consistent
    exact ⟨⟨hSound.original_pos.le, hSound.original_le⟩,
      ⟨hSound.remaining_nonneg, hSound.remaining_le.trans hSound.original_le⟩,
      ⟨hSound.price_pos.le, hSound.price_le⟩,
      ⟨hSound.original_pos, hCost ▸ hSound.cost_pos, hCost ▸ hSound.cost_le⟩, hDone, hLeft,
      hPartial, hUntouched, hAccount, (reserve_of hSound).symm⟩

end Orders

section Wallets

variable {accounts : Accounts} {totals totals' : Int × Int}

/-- A wallet holds what its account was left with. -/
structure Agrees (wallet : Wallet) (account : Account) : Prop where
  inRange : wallet.InRange
  reservedBtc : wallet.reservedBtc = account.reservedBtc
  reservedUsd : wallet.reservedUsd = account.reservedUsd
  btc : wallet.total .btc = account.btc
  usd : wallet.total .usd = account.usd

/-- The totals with one more wallet. -/
def collect (totals : Int × Int) (wallet : Wallet) : Int × Int :=
  (totals.1 + wallet.total .btc, totals.2 + wallet.total .usd)

/-- A wallet passes exactly if it agrees with its account, and its totals are
collected. -/
theorem checkWallet_eq_ok {wallet : Wallet} :
    checkWallet accounts totals (.of wallet) = .ok totals' ↔
      (∃ account, accounts wallet.userId = some account ∧ Agrees wallet account) ∧
        totals' = collect totals wallet := by
  have hUserId : (WalletSnapshot.of wallet).userId = wallet.userId := rfl
  have hBtc : wallet.total .btc = wallet.availableBtc + wallet.reservedBtc := rfl
  have hUsd : wallet.total .usd = wallet.availableUsd + wallet.reservedUsd := rfl
  unfold checkWallet
  simp only [WalletSnapshot.amounts_of, hUserId, require_bind_eq_ok, bounded_bind_eq_ok,
    ensure_bind_eq_ok, pure_eq_ok]
  constructor
  · rintro ⟨account, hAccount, hAvailableBtc, hAvailableUsd, hReservedBtc, hReservedUsd,
      hBtcReserved, hUsdReserved, hBtcLedger, hUsdLedger, rfl⟩
    exact ⟨⟨account, hAccount, Wallet.inRange_iff.mpr ⟨hAvailableBtc, hReservedBtc, hAvailableUsd,
      hReservedUsd⟩, hBtcReserved, hUsdReserved, by omega, by omega⟩, rfl⟩
  · rintro ⟨⟨account, hAccount, hRange, hBtcReserved, hUsdReserved, hBtcLedger, hUsdLedger⟩,
      rfl⟩
    obtain ⟨hAvailableBtc, hReservedBtc, hAvailableUsd, hReservedUsd⟩ :=
      Wallet.inRange_iff.mp hRange
    exact ⟨account, hAccount, hAvailableBtc, hAvailableUsd, hReservedBtc, hReservedUsd,
      hBtcReserved, hUsdReserved, by omega, by omega, rfl⟩

end Wallets

section Loops

variable {executed : OrderId → Int} {accounts : Accounts}

/-- All trades booked: the ledger moves by the sums of their postings. -/
theorem foldl_post (trades : List Trade) : trades.foldl (post market) books =
    { ledger := fun userId => (books.ledger userId).map fun account =>
        { account with
          btc := account.btc + (trades.map (market.posting userId .btc)).sum
          usd := account.usd + (trades.map (market.posting userId .usd)).sum }
      executed := fun id => books.executed id + (trades.map fun trade =>
        if trade.makerOrderId = id ∨ trade.takerOrderId = id then trade.amount else 0).sum
      fees := ⟨books.fees.btcFees + (trades.map (·.fees .btc)).sum,
        books.fees.usdFees + (trades.map (·.fees .usd)).sum⟩ } := by
  induction trades generalizing books with
  | nil => simp only [List.foldl_nil, List.map_nil, List.sum_nil, add_zero, Option.map_id']
  | cons trade trades ih =>
      rw [List.foldl_cons, ih]
      simp only [post, Option.map_map, Function.comp_def, List.map_cons, List.sum_cons, add_assoc]

/-- All orders booked: the reservations grow by what each of them reserves. -/
theorem foldl_reserved (orders : List Order) :
    orders.foldl reserved accounts = fun userId => (accounts userId).map fun account =>
      { account with
        reservedBtc := account.reservedBtc + (orders.map (Order.reserves userId .sell)).sum
        reservedUsd := account.reservedUsd + (orders.map (Order.reserves userId .buy)).sum } := by
  induction orders generalizing accounts with
  | nil => simp only [List.foldl_nil, List.map_nil, List.sum_nil, add_zero, Option.map_id']
  | cons order orders ih =>
      rw [List.foldl_cons, ih]
      simp only [reserved, Option.map_map, Function.comp_def, List.map_cons, List.sum_cons,
        add_assoc]

/-- Collecting the totals of all wallets adds them up. -/
theorem foldl_collect (wallets : List Wallet) (totals : Int × Int) : wallets.foldl collect totals =
    (totals.1 + (wallets.map (·.total .btc)).sum, totals.2 + (wallets.map (·.total .usd)).sum) := by
  induction wallets generalizing totals with
  | nil => simp only [List.foldl_nil, List.map_nil, List.sum_nil, add_zero]
  | cons wallet wallets ih =>
      rw [List.foldl_cons, ih]
      simp only [collect, List.map_cons, List.sum_cons, add_assoc]

end Loops

section Opening

variable {opening : Market} {balances : List OpeningBalance}

/-- The balance that the oracle is given is what the opening wallet holds. -/
structure Opens (balance : OpeningBalance) (wallet : Wallet) : Prop where
  userId : balance.userId = wallet.userId
  btc : units balance.btc = .ok (wallet.total .btc)
  usd : units balance.usd = .ok (wallet.total .usd)

/-- The accounts of the replay before the first trade. -/
def openAccounts (opening : Market) : Accounts := fun userId =>
  (opening.wallets.find? userId).map fun wallet => ⟨wallet.total .btc, wallet.total .usd, 0, 0⟩

/-- The opening balances are listed in the order of the wallets. -/
theorem map_userId_of_opens {wallets : List Wallet} (h : List.Forall₂ Opens balances wallets) :
    balances.map OpeningBalance.userId = wallets.map Wallet.userId := by
  induction h with
  | nil => rfl
  | cons hHead _ ih => rw [List.map_cons, List.map_cons, ih, hHead.userId]

/-- From the balances of an opening the oracle opens one account for every wallet. -/
theorem openLedger_of_opens (h : List.Forall₂ Opens balances opening.wallets.rows) :
    openLedger balances = .ok (openAccounts opening) := by
  -- The loop overwrites accounts, so it is followed from any accounts on.
  have hLoop : ∀ {balances wallets}, List.Forall₂ Opens balances wallets →
      (wallets.map Wallet.userId).Nodup → ∀ accounts : Accounts,
      balances.foldlM (fun ledger balance => do
        let btc ← units balance.btc
        let usd ← units balance.usd
        return Function.update ledger balance.userId (some ⟨btc, usd, 0, 0⟩)) accounts =
      (Except.ok fun userId => ((wallets.find? (·.userId = userId)).map fun wallet : Wallet =>
        (⟨wallet.total .btc, wallet.total .usd, 0, 0⟩ : Account)).or (accounts userId)) := by
    intro balances wallets hOpens
    induction hOpens with
    | nil => exact fun _ _ => rfl
    | @cons balance wallet balances wallets hHead _ ih =>
        intro hNodup accounts
        rw [List.map_cons, List.nodup_cons] at hNodup
        rw [List.foldlM_cons, hHead.btc, hHead.usd, ok_bind, ok_bind, hHead.userId]
        change (pure _ >>= _) = _
        rw [pure_bind, ih hNodup.2]
        refine congrArg Except.ok (funext fun userId => ?_)
        by_cases hUser : wallet.userId = userId
        · have hNone : wallets.find? (·.userId = userId) = none := by
            rw [List.find?_eq_none]
            intro other hOther hSame
            exact hNodup.1
              (List.mem_map.mpr ⟨other, hOther, (of_decide_eq_true hSame).trans hUser.symm⟩)
          have hHere : (wallet :: wallets).find? (·.userId = userId) = some wallet :=
            List.find?_cons_of_pos (decide_eq_true hUser)
          rw [hNone, hHere, ← hUser, Function.update_self]
          rfl
        · rw [List.find?_cons_of_neg (by simpa using hUser),
            Function.update_of_ne (Ne.symm hUser)]
  rw [openLedger, hLoop h opening.wallets.nodup]
  refine congrArg Except.ok (funext fun userId => ?_)
  rw [Option.or_none]
  rfl

/-- And it starts from the totals of the opening. -/
theorem openingTotals_of_opens {wallets : List Wallet} (h : List.Forall₂ Opens balances wallets) :
    openingTotals balances =
      .ok ((wallets.map (·.total .btc)).sum, (wallets.map (·.total .usd)).sum) := by
  have hLoop : ∀ totals : Int × Int, balances.foldlM (fun totals balance => do
        let btc ← units balance.btc
        let usd ← units balance.usd
        return (totals.1 + btc, totals.2 + usd)) totals =
      (Except.ok (totals.1 + (wallets.map (·.total .btc)).sum,
        totals.2 + (wallets.map (·.total .usd)).sum) : Except AssertionError (Int × Int)) := by
    induction h with
    | nil =>
        intro totals
        simp only [List.foldlM_nil, List.map_nil, List.sum_nil, add_zero]
        rfl
    | cons hHead _ ih =>
        intro totals
        rw [List.foldlM_cons, hHead.btc, hHead.usd, ok_bind, ok_bind, pure_bind, ih]
        simp only [List.map_cons, List.sum_cons, add_assoc]
  rw [openingTotals, hLoop]
  simp only [zero_add]

/-- The balances of an opening, printed as the oracle is given them. -/
def OpeningBalance.of (wallet : Wallet) : OpeningBalance where
  userId := wallet.userId
  btc := toDecimalString (wallet.total .btc)
  usd := toDecimalString (wallet.total .usd)

/-- Reading the balances off the wallets gives balances that open them. -/
theorem opens_of (wallets : List Wallet) : List.Forall₂ Opens (wallets.map .of) wallets := by
  induction wallets with
  | nil => exact .nil
  | cons wallet wallets ih =>
      exact .cons ⟨rfl, units_toDecimalString _, units_toDecimalString _⟩ ih

end Opening

/-- The rows of a market as a query returns them, in any order. -/
structure Snapshot (market : Market) where
  wallets : List Wallet
  orders : List Order
  trades : List Trade
  ofWallets : wallets.Perm market.wallets.rows
  ofOrders : orders.Perm market.orders.rows
  ofTrades : trades.Perm market.trades

/-- All rows of a market, as they are stored. -/
def Snapshot.ofMarket (market : Market) : Snapshot market :=
  ⟨market.wallets.rows, market.orders.rows, market.trades, .refl _, .refl _, .refl _⟩

def Snapshot.state (snapshot : Snapshot market) : MonetaryState where
  wallets := snapshot.wallets.map .of
  orders := snapshot.orders.map .of
  trades := snapshot.trades.map .of

/-- The fees that the trades of a market record. -/
def recordedFees (market : Market) : Fees :=
  ⟨(market.trades.map (·.fees .btc)).sum, (market.trades.map (·.fees .usd)).sum⟩

/-- All that the oracle can find wrong is right, from the given opening on. -/
structure Audited (opening market : Market) : Prop where
  wellFormed : market.WellFormed
  users : (market.wallets.rows.map Wallet.userId).Perm (opening.wallets.rows.map Wallet.userId)
  owners : ∀ order ∈ market.orders, (opening.wallets.find? order.userId).isSome
  tradeIds : (market.trades.map Trade.id).Nodup
  accounted : market.Accounted
  exact : market.Exact
  balanced : Market.Balanced opening market

section Replay

variable {opening : Market} (snapshot : Snapshot market)

/-- The accounts are those of the opening wallets. -/
def Covers (opening : Market) (accounts : Accounts) : Prop :=
  ∀ userId, (accounts userId).isSome = (opening.wallets.find? userId).isSome

/-- The trade passes, and the opening knows both of its users. -/
def Admits (opening market : Market) (trade : Trade) : Prop :=
  ∃ buy sell, Passes market trade buy sell ∧ (opening.wallets.find? buy.userId).isSome ∧
    (opening.wallets.find? sell.userId).isSome

/-- The books of the replay after all trades. -/
def replayed (opening market : Market) : Books where
  ledger userId := (opening.wallets.find? userId).map fun wallet =>
    ⟨wallet.total .btc + (market.trades.map (market.posting userId .btc)).sum,
      wallet.total .usd + (market.trades.map (market.posting userId .usd)).sum, 0, 0⟩
  executed := market.executed
  fees := recordedFees market

/-- The accounts of the replay after all orders. -/
def reservedAccounts (opening market : Market) : Accounts := fun userId =>
  (opening.wallets.find? userId).map fun wallet =>
    ⟨wallet.total .btc + (market.trades.map (market.posting userId .btc)).sum,
      wallet.total .usd + (market.trades.map (market.posting userId .usd)).sum,
      market.orders.sum (Order.reserves userId .sell),
      market.orders.sum (Order.reserves userId .buy)⟩

/-- The books do not depend on the order in which the trades are read. -/
theorem foldl_post_snapshot :
    snapshot.trades.foldl (post market) ⟨openAccounts opening, fun _ => 0, ⟨0, 0⟩⟩ =
      replayed opening market := by
  have hSum : ∀ quantity : Trade → Int,
      (snapshot.trades.map quantity).sum = (market.trades.map quantity).sum :=
    fun quantity => (snapshot.ofTrades.map quantity).sum_eq
  rw [foldl_post]
  refine Books.ext (funext fun userId => ?_) (funext fun id => ?_) ?_
  · simp only [openAccounts, replayed, Option.map_map, Function.comp_def, hSum]
  · have hFiltered := Grouping.sum_filter market.trades
      (fun trade => trade.makerOrderId = id ∨ trade.takerOrderId = id) (·.amount)
    refine (zero_add _).trans ?_
    rw [(snapshot.ofTrades.map _).sum_eq]
    exact hFiltered.symm
  · simp only [hSum, zero_add]
    rfl

/-- The replay of the trades succeeds exactly if each of them is admitted, and then
gives the replayed books. -/
theorem replay_trades {result : Books} :
    snapshot.state.trades.foldlM (checkTrade snapshot.state.orders)
        ⟨openAccounts opening, fun _ => 0, ⟨0, 0⟩⟩ = .ok result ↔
      (∀ trade ∈ market.trades, Admits opening market trade) ∧
        result = replayed opening market := by
  have hStep : ∀ books trade result, Covers opening books.ledger →
      (checkTrade (snapshot.orders.map .of) books (.of trade) = .ok result ↔
        Admits opening market trade ∧ result = post market books trade) := by
    intro books trade result hCovers
    unfold Covers at hCovers
    rw [checkTrade_eq_ok snapshot.ofOrders]
    simp only [hCovers, Admits]
  have hKeeps : ∀ books trade, Covers opening books.ledger → Admits opening market trade →
      Covers opening (post market books trade).ledger :=
    fun books trade hCovers _ userId => (Option.isSome_map ..).trans (hCovers userId)
  have hStart : Covers opening (openAccounts opening) := fun userId => Option.isSome_map ..
  change (snapshot.trades.map TradeSnapshot.of).foldlM
    (checkTrade (snapshot.orders.map .of)) _ = _ ↔ _
  rw [List.foldlM_map, foldlM_eq_ok hStep hKeeps hStart, foldl_post_snapshot]
  simp only [snapshot.ofTrades.mem_iff]

/-- The order passes after the replay, and the opening knows its user. -/
def AdmitsOrder (opening market : Market) (order : Order) : Prop :=
  order.Sound ∧ order.originalAmount - order.remainingAmount = market.executed order.id ∧
    (opening.wallets.find? order.userId).isSome

/-- The replay of the orders succeeds exactly if each is admitted. -/
theorem replay_orders (hExecuted : ∀ id, 0 ≤ market.executed id) {accounts : Accounts} :
    snapshot.state.orders.foldlM (checkOrder (replayed opening market).executed)
        (replayed opening market).ledger = .ok accounts ↔
      (∀ order ∈ market.orders, AdmitsOrder opening market order) ∧
        accounts = reservedAccounts opening market := by
  have hStep : ∀ accounts order result, Covers opening accounts →
      (checkOrder market.executed accounts (.of order) = .ok result ↔
        AdmitsOrder opening market order ∧ result = reserved accounts order) := by
    intro accounts order result hCovers
    unfold Covers at hCovers
    rw [checkOrder_eq_ok (hExecuted _)]
    simp only [hCovers, AdmitsOrder]
  have hKeeps : ∀ accounts order, Covers opening accounts → AdmitsOrder opening market order →
      Covers opening (reserved accounts order) :=
    fun accounts order hCovers _ userId => (Option.isSome_map ..).trans (hCovers userId)
  have hStart : Covers opening (replayed opening market).ledger :=
    fun userId => Option.isSome_map ..
  have hSum : ∀ quantity : Order → Int,
      (snapshot.orders.map quantity).sum = market.orders.sum quantity :=
    fun quantity => (snapshot.ofOrders.map quantity).sum_eq
  change (snapshot.orders.map OrderSnapshot.of).foldlM (checkOrder market.executed) _ = _ ↔ _
  rw [List.foldlM_map, foldlM_eq_ok hStep hKeeps hStart, foldl_reserved]
  refine and_congr ?_ (Eq.congr_right (funext fun userId => ?_))
  · simp only [snapshot.ofOrders.mem_iff, Table.mem_def]
  · simp only [replayed, reservedAccounts, Option.map_map, Function.comp_def, hSum, zero_add]

/-- And the wallets pass exactly if all of them agree with the accounts. -/
theorem replay_wallets {totals totals' : Int × Int} :
    snapshot.state.wallets.foldlM (checkWallet (reservedAccounts opening market)) totals =
      .ok totals' ↔
      (∀ wallet ∈ market.wallets, ∃ account, reservedAccounts opening market wallet.userId =
        some account ∧ Agrees wallet account) ∧
      totals' = (totals.1 + market.wallets.sum (·.total .btc),
        totals.2 + market.wallets.sum (·.total .usd)) := by
  have hStep : ∀ totals wallet result, True →
      (checkWallet (reservedAccounts opening market) totals (.of wallet) = .ok result ↔
        (∃ account, reservedAccounts opening market wallet.userId = some account ∧
          Agrees wallet account) ∧ result = collect totals wallet) :=
    fun totals wallet result _ => checkWallet_eq_ok
  have hSum : ∀ quantity : Wallet → Int,
      (snapshot.wallets.map quantity).sum = market.wallets.sum quantity :=
    fun quantity => (snapshot.ofWallets.map quantity).sum_eq
  change (snapshot.wallets.map WalletSnapshot.of).foldlM (checkWallet _) _ = _ ↔ _
  rw [List.foldlM_map, foldlM_eq_ok hStep (fun _ _ _ _ => trivial) trivial, foldl_collect,
    hSum, hSum]
  simp only [snapshot.ofWallets.mem_iff, Table.mem_def]

/-- The wallets of the snapshot are those of the opening, as many and as many
users, if each of them has an account. -/
theorem users_perm (hLength : market.wallets.rows.length = opening.wallets.rows.length)
    (hUsers : ∀ wallet ∈ market.wallets, (opening.wallets.find? wallet.userId).isSome) :
    (market.wallets.rows.map Wallet.userId).Perm (opening.wallets.rows.map Wallet.userId) := by
  refine (List.subperm_of_subset market.wallets.nodup fun userId hUserId => ?_).perm_of_length_le ?_
  · obtain ⟨wallet, hWallet, rfl⟩ := List.mem_map.mp hUserId
    exact Table.isSome_find?_iff.mp (hUsers wallet hWallet)
  · rw [List.length_map, List.length_map, hLength]

/-- The population checks of the oracle, for rows with unique keys. -/
theorem population_iff {balances : List OpeningBalance} {fees : Fees}
    (hOpening : List.Forall₂ Opens balances opening.wallets.rows) :
    assertMonetaryInvariants snapshot.state balances = .ok fees ↔
      market.wallets.rows.length = opening.wallets.rows.length ∧
      (market.trades.map Trade.id).Nodup ∧
      ∃ books, snapshot.state.trades.foldlM (checkTrade snapshot.state.orders)
          ⟨openAccounts opening, fun _ => 0, ⟨0, 0⟩⟩ = .ok books ∧
      ∃ accounts, snapshot.state.orders.foldlM (checkOrder books.executed) books.ledger =
        .ok accounts ∧
      ∃ totals, snapshot.state.wallets.foldlM (checkWallet accounts)
          (books.fees.btcFees, books.fees.usdFees) = .ok totals ∧
      totals.1 = opening.wallets.sum (·.total .btc) ∧
      totals.2 = opening.wallets.sum (·.total .usd) ∧ fees = books.fees := by
  have hBalances : (balances.map OpeningBalance.userId).dedup.length = balances.length := by
    rw [map_userId_of_opens hOpening, List.dedup_eq_self.mpr opening.wallets.nodup, List.length_map,
      hOpening.length_eq]
  have hOrders : ((snapshot.state.orders.map OrderSnapshot.id).dedup.length) =
      snapshot.state.orders.length := by
    have hIds : snapshot.state.orders.map OrderSnapshot.id = snapshot.orders.map Order.id :=
      List.map_map
    rw [hIds, List.dedup_eq_self.mpr ((snapshot.ofOrders.map _).nodup_iff.mpr market.orders.nodup),
      Snapshot.state, List.length_map, List.length_map]
  have hWallets : (snapshot.state.wallets.map WalletSnapshot.userId).dedup.length =
      snapshot.state.wallets.length := by
    have hIds : snapshot.state.wallets.map WalletSnapshot.userId =
      snapshot.wallets.map Wallet.userId :=
      List.map_map
    rw [hIds, List.dedup_eq_self.mpr
      ((snapshot.ofWallets.map _).nodup_iff.mpr market.wallets.nodup),
      Snapshot.state, List.length_map, List.length_map]
  have hLength : snapshot.state.wallets.length = market.wallets.rows.length := by
    rw [Snapshot.state, List.length_map, snapshot.ofWallets.length_eq]
  have hTrades : (snapshot.state.trades.map TradeSnapshot.id).dedup.length =
      snapshot.state.trades.length ↔ (market.trades.map Trade.id).Nodup := by
    have hIds : snapshot.state.trades.map TradeSnapshot.id = snapshot.trades.map Trade.id :=
      List.map_map
    have hCount : snapshot.state.trades.length = (snapshot.trades.map Trade.id).length := by
      rw [Snapshot.state, List.length_map, List.length_map]
    rw [hIds, hCount, ← (snapshot.ofTrades.map Trade.id).nodup_iff]
    exact ⟨fun h => List.dedup_eq_self.mp ((List.dedup_sublist _).eq_of_length h),
      fun h => by rw [List.dedup_eq_self.mpr h]⟩
  unfold assertMonetaryInvariants
  simp only [openLedger_of_opens hOpening, ok_bind, ensure_bind_eq_ok, hBalances, hOrders, hWallets,
    hLength, hTrades, hOpening.length_eq, true_and]
  rw [Checked.bind_eq_ok]
  refine and_congr_right fun hPopulation => ?_
  rw [and_iff_right hPopulation]
  refine and_congr_right fun _ => exists_congr fun books => and_congr_right fun _ => ?_
  rw [Checked.bind_eq_ok]
  refine exists_congr fun accounts => and_congr_right fun _ => ?_
  rw [Checked.bind_eq_ok]
  refine exists_congr fun totals => and_congr_right fun _ => ?_
  simp only [openingTotals_of_opens hOpening, ok_bind, ensure_bind_eq_ok, pure_eq_ok]
  rfl

/-- An admitted trade moves something. -/
theorem Admits.amount_pos {trade : Trade} (h : Admits opening market trade) : 0 < trade.amount := by
  obtain ⟨buy, sell, hPasses, _⟩ := h
  exact hPasses.joins.amount_pos

/-- Nothing negative is executed when all trades are positive. -/
theorem executed_nonneg (h : ∀ trade ∈ market.trades, 0 < trade.amount) (id : OrderId) :
    0 ≤ market.executed id := by
  refine List.sum_nonneg fun amount hAmount => ?_
  obtain ⟨trade, hTrade, rfl⟩ := List.mem_map.mp hAmount
  exact (h trade (List.mem_filter.mp hTrade).1).le

/-- What the users of other orders have booked is nothing. -/
theorem posting_of_stranger {trade : Trade} {userId : UserId}
    (h : ∀ order ∈ market.orders, order.userId ≠ userId) (asset : TradeFeeAsset) :
    market.posting userId asset trade = 0 := by
  have hOwns : ∀ id, market.owns userId id = false := fun id => by
    cases hFound : market.orders.find? id with
    | none => rw [Market.owns, hFound, Option.any_none]
    | some order =>
        rw [Market.owns_of_find? hFound]
        exact decide_eq_false (h order (Table.mem_of_find? hFound))
  simp only [Market.posting, hOwns, Bool.false_eq_true, false_and, if_false, sub_zero, add_zero]

/-- A user without orders has nothing reserved. -/
theorem sum_reserves_of_stranger {userId : UserId}
    (h : ∀ order ∈ market.orders, order.userId ≠ userId) (side : OrderSide) :
    market.orders.sum (Order.reserves userId side) = 0 := by
  refine List.sum_eq_zero fun amount hAmount => ?_
  obtain ⟨order, hOrder, rfl⟩ := List.mem_map.mp hAmount
  rw [Order.reserves, if_neg fun hReserves => h order hOrder hReserves.1.symm]

/-- A recorded trade of an accounted market is in the ranges that the oracle
asserts: it is no larger than its BUY order and costs no more than it. -/
theorem passes_of_joins (hWell : market.WellFormed) (hAccounted : market.Accounted) {trade : Trade}
    (hTrade : trade ∈ market.trades) {buy sell : Order}
    (hBuy : market.orders.find? trade.buyOrderId = some buy)
    (hSell : market.orders.find? trade.sellOrderId = some sell) (hJoins : trade.Joins buy sell) :
    Passes market trade buy sell := by
  have hBuySound := hWell.orders buy (Table.mem_of_find? hBuy)
  have hSellSound := hWell.orders sell (Table.mem_of_find? hSell)
  have hPositive : ∀ trade ∈ market.trades, 0 < trade.amount := fun other hOther => by
    obtain ⟨_, _, _, _, hOtherJoins⟩ := hAccounted.recorded other hOther
    exact hOtherJoins.amount_pos
  obtain ⟨buy', sell', hBuy', hSell', hMaker, hTaker, _⟩ :=
    Market.Recorded.orders ⟨buy, sell, hBuy, hSell, hJoins⟩
  obtain rfl : buy = buy' := Option.some.inj (hBuy.symm.trans hBuy')
  obtain rfl : sell = sell' := Option.some.inj (hSell.symm.trans hSell')
  have hNames : trade.makerOrderId = buy.id ∨ trade.takerOrderId = buy.id := by
    have hData := data_iff.mp hJoins.data
    rw [hData.1, hData.2.1]
    cases hSide : trade.takerSide <;> unfold Trade.fill Fill.maker Fill.taker <;> rw [hSide]
    · exact Or.inr rfl
    · exact Or.inl rfl
  have hAmount : trade.amount ≤ buy.originalAmount := by
    have hDone := hAccounted.executed trade.buyOrderId buy hBuy
    have hLe : trade.amount ≤ market.executed buy.id := by
      refine List.single_le_sum (fun amount hAmount => ?_) _ (List.mem_map.mpr
        ⟨trade, List.mem_filter.mpr ⟨hTrade, decide_eq_true hNames⟩, rfl⟩)
      obtain ⟨other, hOther, rfl⟩ := List.mem_map.mp hAmount
      exact (hPositive other (List.mem_filter.mp hOther).1).le
    have hRemaining := hBuySound.remaining_nonneg
    rw [Table.key_of_find? hBuy] at hLe
    omega
  have hPrice : (trade.price = buy.price ∨ trade.price = sell.price) ∧
      trade.price ≤ buy.price := by
    have hLimits := hJoins.limits
    obtain ⟨_, _, _, _, _, _, _, _, _, _, hMakerPrice⟩ := data_iff.mp hJoins.data
    rw [hMakerPrice]
    unfold Fill.price Fill.maker Trade.fill
    cases trade.takerSide
    · exact ⟨Or.inr rfl, hLimits⟩
    · exact ⟨Or.inl rfl, le_refl _⟩
  have hPriceRange : 0 < trade.price ∧ trade.price ≤ decimalMax := by
    rcases hPrice.1 with hEq | hEq <;> rw [hEq]
    · exact ⟨hBuySound.price_pos, hBuySound.price_le⟩
    · exact ⟨hSellSound.price_pos, hSellSound.price_le⟩
  have hQuantity : ∀ asset, 0 ≤ trade.quantity asset ∧ trade.quantity asset ≤ decimalMax := by
    intro asset
    cases asset with
    | btc => exact ⟨hJoins.amount_pos.le, hAmount.trans hBuySound.original_le⟩
    | usd =>
        refine ⟨cost_nonneg hJoins.amount_pos.le hPriceRange.1.le, ?_⟩
        calc ExchangeMatching.cost trade.amount trade.price
            ≤ ExchangeMatching.cost buy.originalAmount buy.price :=
              FloorProduct.floorProduct_mono one_pos hAmount hPrice.2 hBuySound.original_pos.le
                hPriceRange.1.le
          _ ≤ decimalMax := hBuySound.cost_le
  have hFee : ∀ asset rate, 0 ≤ rate → rate ≤ one →
      0 ≤ ExchangeMatching.cost (trade.quantity asset) rate ∧
        ExchangeMatching.cost (trade.quantity asset) rate ≤ decimalMax := by
    intro asset rate hRate hOne
    refine ⟨cost_nonneg (hQuantity asset).1 hRate, le_trans ?_ (hQuantity asset).2⟩
    calc ExchangeMatching.cost (trade.quantity asset) rate
        ≤ ExchangeMatching.cost (trade.quantity asset) one :=
          FloorProduct.floorProduct_mono one_pos (le_refl _) hOne (hQuantity asset).1 hRate
      _ = trade.quantity asset := Int.mul_ediv_cancel _ one_pos.ne'
  obtain ⟨⟨_, hMakerFee⟩, _, hTakerFee⟩ :=
    Market.Recorded.fees ⟨buy, sell, hBuy, hSell, hJoins⟩
  exact ⟨hBuy, hSell, hJoins, hAmount.trans hBuySound.original_le, hPriceRange.1.le, hPriceRange.2,
    hMakerFee ▸ hFee _ _ (by decide) (by decide), hTakerFee ▸ hFee _ _ (by decide) (by decide)⟩

/-- What the assertions of the oracle come to, loop by loop. -/
structure Verified (opening market : Market) : Prop where
  population : market.wallets.rows.length = opening.wallets.rows.length
  tradeIds : (market.trades.map Trade.id).Nodup
  trades : ∀ trade ∈ market.trades, Admits opening market trade
  orders : ∀ order ∈ market.orders, AdmitsOrder opening market order
  wallets : ∀ wallet ∈ market.wallets, ∃ account,
    reservedAccounts opening market wallet.userId = some account ∧ Agrees wallet account
  totals : ∀ asset, market.wallets.sum (·.total asset) + (market.trades.map (·.fees asset)).sum =
    opening.wallets.sum (·.total asset)

/-- The oracle passes exactly for a market that verifies, and returns the fees that
are on record. -/
theorem assertMonetaryInvariants_iff_verified {balances : List OpeningBalance} {fees : Fees}
    (hOpening : List.Forall₂ Opens balances opening.wallets.rows) :
    assertMonetaryInvariants snapshot.state balances = .ok fees ↔
      Verified opening market ∧ fees = recordedFees market := by
  rw [population_iff snapshot hOpening]
  constructor
  · rintro ⟨hLength, hIds, books, hBooks, accounts, hAccounts, totals, hTotals, hBtc, hUsd, rfl⟩
    obtain ⟨hTrades, rfl⟩ := (replay_trades snapshot).mp hBooks
    have hExecuted := executed_nonneg fun trade hTrade => (hTrades trade hTrade).amount_pos
    obtain ⟨hOrders, rfl⟩ := (replay_orders snapshot hExecuted).mp hAccounts
    obtain ⟨hWallets, rfl⟩ := (replay_wallets snapshot).mp hTotals
    refine ⟨⟨hLength, hIds, hTrades, hOrders, hWallets, fun asset => ?_⟩, rfl⟩
    rw [add_comm]
    cases asset
    · exact hBtc
    · exact hUsd
  · rintro ⟨⟨hLength, hIds, hTrades, hOrders, hWallets, hTotals⟩, rfl⟩
    have hExecuted := executed_nonneg fun trade hTrade => (hTrades trade hTrade).amount_pos
    exact ⟨hLength, hIds, _, (replay_trades snapshot).mpr ⟨hTrades, rfl⟩, _,
      (replay_orders snapshot hExecuted).mpr ⟨hOrders, rfl⟩, _,
      (replay_wallets snapshot).mpr ⟨hWallets, rfl⟩, (add_comm ..).trans (hTotals .btc),
      (add_comm ..).trans (hTotals .usd), rfl⟩

/-- A market that verifies line by line satisfies the sums of the audit. -/
theorem Verified.audited (h : Verified opening market) : Audited opening market := by
  have hKnown : ∀ wallet ∈ market.wallets, (opening.wallets.find? wallet.userId).isSome := by
    intro wallet hWallet
    obtain ⟨account, hAccount, _⟩ := h.wallets wallet hWallet
    rw [reservedAccounts, Option.map_eq_some_iff] at hAccount
    obtain ⟨opened, hOpened, _⟩ := hAccount
    exact Option.isSome_of_eq_some hOpened
  have hUsers := users_perm h.population hKnown
  have hFound : ∀ userId, (market.wallets.find? userId).isSome ↔
    (opening.wallets.find? userId).isSome :=
    fun userId => by rw [Table.isSome_find?_iff, Table.isSome_find?_iff, hUsers.mem_iff]
  -- Nobody without a wallet has an order.
  have hStranger : ∀ userId, market.wallets.find? userId = none →
      opening.wallets.find? userId = none ∧ ∀ order ∈ market.orders, order.userId ≠ userId := by
    intro userId hNone
    have hOpened : opening.wallets.find? userId = none := by
      rw [← Option.not_isSome_iff_eq_none, ← hFound, hNone]
      decide
    refine ⟨hOpened, ?_⟩
    rintro order hOrder rfl
    have hOwner := (h.orders order hOrder).2.2
    rw [hOpened] at hOwner
    cases hOwner
  have hRecorded : market.AllRecorded := fun trade hTrade => by
    obtain ⟨buy, sell, hPasses, _⟩ := h.trades trade hTrade
    exact ⟨buy, sell, hPasses.buyFound, hPasses.sellFound, hPasses.joins⟩
  have hAgrees : ∀ userId wallet, market.wallets.find? userId = some wallet →
      ∃ opened, opening.wallets.find? userId = some opened ∧ Agrees wallet
        ⟨opened.total .btc + (market.trades.map (market.posting userId .btc)).sum,
          opened.total .usd + (market.trades.map (market.posting userId .usd)).sum,
          market.orders.sum (Order.reserves userId .sell),
          market.orders.sum (Order.reserves userId .buy)⟩ := by
    intro userId wallet hWallet
    obtain ⟨account, hAccount, hAgrees⟩ := h.wallets wallet (Table.mem_of_find? hWallet)
    rw [Table.key_of_find? hWallet, reservedAccounts, Option.map_eq_some_iff] at hAccount
    obtain ⟨opened, hOpened, rfl⟩ := hAccount
    exact ⟨opened, hOpened, hAgrees⟩
  refine
    { wellFormed := ⟨fun wallet hWallet => ?_, fun order hOrder => (h.orders order hOrder).1⟩
      users := hUsers
      owners := fun order hOrder => (h.orders order hOrder).2.2
      tradeIds := h.tradeIds
      accounted := ⟨hRecorded, fun id order hOrder => ?_⟩
      exact := fun userId side => ?_
      balanced := ⟨hRecorded, fun userId asset => ?_, h.totals⟩ }
  · obtain ⟨_, _, hAgrees⟩ := h.wallets wallet hWallet
    exact hAgrees.inRange
  · rw [← Table.key_of_find? hOrder]
    exact (h.orders order (Table.mem_of_find? hOrder)).2.1
  · cases hWallet : market.wallets.find? userId with
    | none =>
        rw [Market.balance, hWallet, sum_reserves_of_stranger (hStranger userId hWallet).2]
        rfl
    | some wallet =>
        obtain ⟨_, _, hAgrees⟩ := hAgrees userId wallet hWallet
        rw [Market.balance_of_find? hWallet]
        cases side
        · exact hAgrees.reservedUsd
        · exact hAgrees.reservedBtc
  · cases hWallet : market.wallets.find? userId with
    | none =>
        obtain ⟨hOpened, hOrders⟩ := hStranger userId hWallet
        have hPostings : (market.trades.map (market.posting userId asset)).sum = 0 :=
          List.sum_eq_zero fun amount hAmount => by
            obtain ⟨trade, _, rfl⟩ := List.mem_map.mp hAmount
            exact posting_of_stranger hOrders asset
        rw [hPostings, Market.holdings, Market.holdings, Market.balance, Market.balance,
          Market.balance, Market.balance, hWallet, hOpened]
        rfl
    | some wallet =>
        obtain ⟨opened, hOpened, hAgrees⟩ := hAgrees userId wallet hWallet
        rw [Market.holdings, Market.holdings, Market.balance_of_find? hWallet,
          Market.balance_of_find? hWallet, Market.balance_of_find? hOpened,
          Market.balance_of_find? hOpened]
        cases asset
        · exact hAgrees.btc
        · exact hAgrees.usd

/-- Conversely an audited market passes each line of the replay. -/
theorem Audited.verified (h : Audited opening market) : Verified opening market where
  population := by
    have hLength := h.users.length_eq
    rwa [List.length_map, List.length_map] at hLength
  tradeIds := h.tradeIds
  trades trade hTrade := by
    obtain ⟨buy, sell, hBuy, hSell, hJoins⟩ := h.balanced.recorded trade hTrade
    exact ⟨buy, sell, passes_of_joins h.wellFormed h.accounted hTrade hBuy hSell hJoins,
      h.owners buy (Table.mem_of_find? hBuy), h.owners sell (Table.mem_of_find? hSell)⟩
  orders order hOrder := ⟨h.wellFormed.orders order hOrder,
    h.accounted.executed order.id order (Table.find?_of_mem hOrder), h.owners order hOrder⟩
  wallets wallet hWallet := by
    have hFound := Table.find?_of_mem hWallet
    have hUser : wallet.userId ∈ opening.wallets.rows.map Wallet.userId :=
      h.users.mem_iff.mp (List.mem_map_of_mem hWallet)
    obtain ⟨opened, hOpened⟩ := Option.isSome_iff_exists.mp (Table.isSome_find?_iff.mpr hUser)
    refine ⟨_, by rw [reservedAccounts, hOpened, Option.map_some],
      h.wellFormed.wallets wallet hWallet, ?_, ?_, ?_, ?_⟩
    · exact (Market.balance_of_find? hFound).symm.trans (h.exact wallet.userId .sell)
    · exact (Market.balance_of_find? hFound).symm.trans (h.exact wallet.userId .buy)
    · rw [← Market.holdings_of_mem hWallet, h.balanced.holdings, Market.holdings,
        Market.balance_of_find? hOpened, Market.balance_of_find? hOpened]
      rfl
    · rw [← Market.holdings_of_mem hWallet, h.balanced.holdings, Market.holdings,
        Market.balance_of_find? hOpened, Market.balance_of_find? hOpened]
      rfl
  totals := h.balanced.totals

/-- The oracle passes a snapshot exactly when the market keeps all its
invariants from the opening on, and returns the fees that the trades record. -/
theorem assertMonetaryInvariants_eq_ok {balances : List OpeningBalance} {fees : Fees}
    (hOpening : List.Forall₂ Opens balances opening.wallets.rows) :
    assertMonetaryInvariants snapshot.state balances = .ok fees ↔
      Audited opening market ∧ fees = recordedFees market := by
  rw [assertMonetaryInvariants_iff_verified snapshot hOpening]
  exact and_congr_left fun _ => ⟨Verified.audited, Audited.verified⟩

/-- The sample passes. Had its trade not been recorded, it would not. -/
theorem assertMonetaryInvariants_eq_ok_sample :
    (Audited Sample.start.toMarket Sample.final.db.toMarket ∧
      ⟨300000, 2500000⟩ = recordedFees Sample.final.db.toMarket) ∧
    ¬Audited Sample.start.toMarket { Sample.final.db.toMarket with trades := [] } := by
  have hPasses : assertMonetaryInvariants (Snapshot.ofMarket Sample.final.db.toMarket).state
      (Sample.start.wallets.rows.map .of) = .ok ⟨300000, 2500000⟩ := by decide +kernel
  have hFails : (assertMonetaryInvariants
      (Snapshot.ofMarket { Sample.final.db.toMarket with trades := [] }).state
      (Sample.start.wallets.rows.map .of)).isOk = false := by decide +kernel
  refine ⟨(assertMonetaryInvariants_eq_ok _ (opens_of _)).mp hPasses, fun hAudited => ?_⟩
  rw [(assertMonetaryInvariants_eq_ok _ (opens_of _)).mpr ⟨hAudited, rfl⟩] at hFails
  cases hFails

end Replay

end MonetaryInvariants
end ExchangeMatching
