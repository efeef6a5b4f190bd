import ExchangeMatching.Transitions

/-! Balances of users, and how each market event changes them. A user without
a wallet counts as having nothing. -/
namespace ExchangeMatching

/-- The change with its sign. -/
def BalanceChange.signed : BalanceChange → Int
  | .increment amount => amount
  | .decrement amount => -amount

/-- A change of a balance adds a signed amount. -/
theorem BalanceChange.apply_eq (balance : Int) (change : BalanceChange) :
    change.apply balance = balance + change.signed := by
  cases change with
  | increment amount => rfl
  | decrement amount => exact Int.sub_eq_add_neg

namespace BalanceUpdate

/-- What an update adds to a balance. -/
def net (data : BalanceUpdate) (field : BalanceField) : Int :=
  (data.map fun change => if change.1 = field then change.2.signed else 0).sum

/-- The net change of a field is the sum of its signed changes. -/
@[simp] theorem net_nil (field : BalanceField) : net [] field = 0 := rfl

@[simp] theorem net_cons (change : BalanceField × BalanceChange) (data : BalanceUpdate)
    (field : BalanceField) :
    net (change :: data) field = (if change.1 = field then change.2.signed else 0) +
      net data field := by
  simp [net]

end BalanceUpdate

/-- An update changes each field by its net change, in whatever order the changes
are listed. -/
theorem Wallet.get_update (wallet : Wallet) (data : BalanceUpdate) (field : BalanceField) :
    (wallet.update data).get field = wallet.get field + data.net field := by
  induction data generalizing wallet with
  | nil => simp
  | cons change data ih =>
      rw [Wallet.update_cons, ih, Wallet.get_set, BalanceUpdate.net_cons]
      split_ifs with hField hOther hOther
      · rw [← hField, BalanceChange.apply_eq, add_assoc]
      · exact absurd hField.symm hOther
      · exact absurd hOther.symm hField
      · rw [zero_add]

/-- What one order keeps reserved for a user on one side of the book. -/
def Order.reserves (userId : UserId) (side : OrderSide) (order : Order) : Int :=
  if userId = order.userId ∧ order.side = side ∧ order.status.isActive then order.reservation else 0

namespace Market

/-- A balance of a user. -/
def balance (market : Market) (userId : UserId) (field : BalanceField) : Int :=
  ((market.wallets.find? userId).map (·.get field)).getD 0

/-- Wallets that reserve nothing and hold amounts that their columns can
store; no orders, and so no trades. -/
structure Opening (market : Market) : Prop where
  inRange : market.WalletsInRange
  unreserved : ∀ wallet ∈ market.wallets, wallet.reservedBtc = 0 ∧ wallet.reservedUsd = 0
  noOrders : market.orders.rows = []
  noTrades : market.trades = []

section Lookups

variable {market : Market} {userId other : UserId} {wallet : Wallet} {field : BalanceField}

/-- The balance of a user is read from the user's wallet. -/
theorem balance_of_find? (h : market.wallets.find? userId = some wallet) :
    market.balance userId field = wallet.get field := by
  rw [balance, h, Option.map_some, Option.getD_some]

/-- An update of one wallet changes the balances of its user. -/
theorem balance_update {data : BalanceUpdate} (h : market.wallets.find? userId = some wallet) :
    (market.putWallet (wallet.update data)).balance other field =
      market.balance other field + if other = userId then data.net field else 0 := by
  unfold balance
  rw [find?_putWallet_update h]
  split_ifs with hUser
  · rw [hUser, h, Option.map_some, Option.map_some, Option.getD_some, Option.getD_some,
      Wallet.get_update]
  · rw [add_zero]

/-- Orders carry no balances, so updating or adding one changes none. -/
@[simp] theorem balance_putOrder (id : OrderId) (remaining : Int) (status : OrderStatus) :
    (market.putOrder id remaining status).balance userId field = market.balance userId field := rfl

@[simp] theorem balance_fillOrders (fill : Fill) :
    (market.fillOrders fill).balance userId field = market.balance userId field := rfl

@[simp] theorem balance_addOrder (order : Order) :
    (market.addOrder order).balance userId field = market.balance userId field := by
  rw [balance, wallets_addOrder, balance]

/-- A settled fill changes the balances of its buyer and its seller. -/
theorem balance_settle {fill : Fill} {buyer seller : Wallet} {now : Nat} (hCrossing : fill.Crossing)
    (hBuyer : market.wallets.find? fill.buy.userId = some buyer)
    (hSeller : market.wallets.find? fill.sell.userId = some seller) :
    (market.settle fill buyer seller now).balance userId field =
      market.balance userId field +
        (if userId = fill.buy.userId then fill.buyerUpdate.net field else 0) +
        if userId = fill.sell.userId then fill.sellerUpdate.net field else 0 := by
  calc (market.settle fill buyer seller now).balance userId field
      = ((market.putWallet (buyer.update fill.buyerUpdate)).putWallet
          (seller.update fill.sellerUpdate)).balance userId field := rfl
    _ = _ := by
      rw [balance_update (find?_seller_of_putWallet hCrossing hBuyer hSeller),
        balance_update hBuyer]

end Lookups

namespace Opening

variable {market : Market} (h : market.Opening)
include h

/-- A market that opens has no orders and no trades yet, so nothing in it can be
inconsistent. -/
theorem wellFormed : market.WellFormed where
  wallets := h.inRange
  orders order hOrder := by
    rw [Table.mem_def, h.noOrders] at hOrder
    cases hOrder

/-- Nothing is reserved at an opening. -/
theorem balance_reserved (userId : UserId) (side : OrderSide) :
    market.balance userId side.reserved = 0 := by
  cases hFound : market.wallets.find? userId with
  | none => rw [balance, hFound, Option.map_none, Option.getD_none]
  | some wallet =>
      obtain ⟨hBtc, hUsd⟩ := h.unreserved wallet (Table.mem_of_find? hFound)
      rw [balance_of_find? hFound]
      cases side with
      | buy => exact hUsd
      | sell => exact hBtc

/-- Sums over the orders of an opening are empty. -/
theorem sum_orders (quantity : Order → Int) : market.orders.sum quantity = 0 := by
  rw [Table.sum, h.noOrders, List.map_nil, List.sum_nil]

end Opening
end Market

/-! A small exchange, on which general results are tried. -/
namespace Sample

/-- The decimal constructor, on the inputs used here. -/
def newDecimal (input : String) : Option DecimalValue :=
  if input = "1" then some (.finite ⟨1, 0⟩)
  else if input = "2" then some (.finite ⟨2, 0⟩)
  else if input = "5" then some (.finite ⟨5, 0⟩)
  else if input = "0.4" then some (.finite ⟨4, -1⟩)
  else if input = "0.00000003" then some (.finite ⟨3, -8⟩)
  else if input = "0.00000001" then some (.finite ⟨1, -8⟩)
  else none

/-- One user holds 10 BTC and the other 100 USD. -/
def start : Database where
  wallets := ⟨[⟨"seller", 10 * one, 0, 0, 0⟩, ⟨"buyer", 0, 0, 100 * one, 0⟩], by decide⟩
  orders := .empty
  sequences := List.nodup_nil
  trades := []
  matchingOutbox := .empty
  intents := List.nodup_nil
  realtimeOutbox := []

/-- Half of a BUY order is filled by a SELL order that rests in the book. -/
def calls : List Invocation := [
  ⟨.createOrder "seller" .sell "1" "5", ⟨"sell", 1, "intent 1", 10⟩⟩,
  ⟨.processOrder "sell", ⟨"", 0, "", 11⟩⟩,
  ⟨.createOrder "buyer" .buy "2" "5", ⟨"buy", 2, "intent 2", 12⟩⟩,
  ⟨.processOrder "buy", ⟨"", 0, "", 13⟩⟩]

/-- The exchange after these calls. -/
def final : History := (History.start start).calls newDecimal calls

/-- The sample market satisfies the conditions of an opening. -/
theorem opening : start.Opening where
  inRange := show ∀ wallet ∈ start.wallets.rows, wallet.InRange by decide
  unreserved := show ∀ wallet ∈ start.wallets.rows, wallet.reservedBtc = 0 ∧
    wallet.reservedUsd = 0 by
    decide
  noOrders := rfl
  noTrades := rfl

end Sample
end ExchangeMatching
