import ExchangeMatching.Audit
import ExchangeMatching.Delivery
import ExchangeMatching.Serializability
import ExchangeMatching.Solvency
import ExchangeMatching.TradeHistory

/-! The ledger oracle over runs. Whatever the exchange does keeps an audited
market audited, so the oracle never raises a false alarm; and no wallet can
change behind the back of the orders and trades without an alarm. -/
namespace ExchangeMatching

namespace MonetaryInvariants

variable {opening market market' : Market}

/-- An audited market whose next trade gets a new id. -/
structure Certified (opening market : Market) : Prop extends Audited opening market where
  numbered : market.Numbered

theorem Certified.start (h : opening.Opening) : Certified opening opening where
  wellFormed := h.wellFormed
  users := .refl _
  owners order hOrder := by
    rw [Table.mem_def, h.noOrders] at hOrder
    cases hOrder
  tradeIds := by
    rw [h.noTrades]
    exact List.nodup_nil
  accounted := h.accounted
  exact := h.exact
  balanced := .start h
  numbered := Market.Evolves.numbered h .refl

/-- Every user with a wallet had one at the opening. -/
theorem Audited.isSome_wallet (h : Audited opening market) (userId : UserId) :
    (market.wallets.find? userId).isSome = (opening.wallets.find? userId).isSome := by
  rw [Bool.eq_iff_iff, Table.isSome_find?_iff, Table.isSome_find?_iff, h.users.mem_iff]

theorem Certified.of_event (h : Certified opening market) (hEvent : market.Event market') :
    Certified opening market' where
  wellFormed := h.wellFormed.of_event hEvent
  users := hEvent.users ▸ h.users
  owners order hOrder := by
    rw [← h.isSome_wallet, ← hEvent.isSome_wallet]
    exact hEvent.owners (fun row hRow => h.isSome_wallet row.userId ▸ h.owners row hRow) order
      hOrder
  tradeIds := (h.numbered.of_event hEvent).ids ▸ List.nodup_range
  accounted := h.accounted.of_event hEvent
  exact := h.exact.of_event hEvent
  balanced := h.balanced.of_event hEvent
  numbered := h.numbered.of_event hEvent

theorem Certified.of_evolves (h : Certified opening market) (hEvolves : market.Evolves market') :
    Certified opening market' := by
  induction hEvolves with
  | refl => exact h
  | tail _ event ih => exact ih.of_event event

/-- Orders, trades and opening determine what every user holds. -/
theorem Audited.wallets_eq (h : Audited opening market) (h' : Audited opening market')
    (hOrders : market'.orders = market.orders) (hTrades : market'.trades = market.trades)
    (userId : UserId) : market'.wallets.find? userId = market.wallets.find? userId := by
  have hPosting : market'.posting = market.posting := by
    unfold Market.posting Market.owns
    rw [hOrders]
  have hReserved : ∀ side : OrderSide,
      market'.balance userId side.reserved = market.balance userId side.reserved :=
    fun side => by rw [h'.exact, h.exact, hOrders]
  have hHoldings : ∀ asset, market'.holdings userId asset = market.holdings userId asset :=
    fun asset => by rw [h'.balanced.holdings, h.balanced.holdings, hPosting, hTrades]
  have hSome := (h'.isSome_wallet userId).trans (h.isSome_wallet userId).symm
  cases hFound : market.wallets.find? userId with
  | none =>
      rwa [hFound, Option.isSome_none, Option.isSome_eq_false_iff, Option.isNone_iff_eq_none]
        at hSome
  | some wallet =>
      rw [hFound, Option.isSome_some] at hSome
      obtain ⟨wallet', hFound'⟩ := Option.isSome_iff_exists.mp hSome
      have hBuy := hReserved .buy
      have hSell := hReserved .sell
      have hBtc := hHoldings .btc
      have hUsd := hHoldings .usd
      simp only [Market.holdings, Market.balance_of_find? hFound, Market.balance_of_find? hFound',
        OrderSide.reserved, TradeFeeAsset.available, TradeFeeAsset.reserved, Wallet.get]
        at hBuy hSell hBtc hUsd
      have hUserId := (Table.key_of_find? hFound').trans (Table.key_of_find? hFound).symm
      rw [hFound', Wallet.ext (y := wallet) hUserId (by omega) (by omega) (by omega) (by omega)]

/-- The oracle tells the truth about a market: every snapshot of it passes, and
no snapshot with the same orders and trades does in which a wallet differs. -/
structure OracleExact (market : Market) (balances : List OpeningBalance) : Prop where
  passes : ∀ snapshot : Snapshot market,
    assertMonetaryInvariants snapshot.state balances = .ok (recordedFees market)
  detects : ∀ (altered : Market) (snapshot : Snapshot altered) (fees : Fees),
    altered.orders = market.orders → altered.trades = market.trades →
    assertMonetaryInvariants snapshot.state balances = .ok fees →
    ∀ userId, altered.wallets.find? userId = market.wallets.find? userId

theorem Certified.oracleExact (h : Certified opening market) {balances : List OpeningBalance}
    (hOpening : List.Forall₂ Opens balances opening.wallets.rows) :
    OracleExact market balances where
  passes snapshot :=
    (assertMonetaryInvariants_iff_verified snapshot hOpening).mpr ⟨h.toAudited.verified, rfl⟩
  detects _ snapshot _ hOrders hTrades hPasses :=
    h.toAudited.wallets_eq
      ((assertMonetaryInvariants_iff_verified snapshot hOpening).mp hPasses).1.audited hOrders
        hTrades

end MonetaryInvariants

open MonetaryInvariants Transactions Processes

variable {newDecimal : String → Option DecimalValue} {opening : Market} {start : Database}
  {balances : List OpeningBalance}

namespace History

theorem certified_of_calls (hStart : Certified opening start.toMarket)
    (invocations : List Invocation) :
    Certified opening ((History.start start).calls newDecimal invocations).db.toMarket :=
  hStart.of_evolves (@calls_evolve newDecimal (History.start start) hStart.wellFormed invocations)

/-- Over any calls from a certified start the oracle tells the truth. -/
theorem oracle_after_calls (hStart : Certified opening start.toMarket)
    (hOpening : List.Forall₂ Opens balances opening.wallets.rows) (invocations : List Invocation) :
    OracleExact ((History.start start).calls newDecimal invocations).db.toMarket balances :=
  (certified_of_calls hStart invocations).oracleExact hOpening

/-- The sample market passes with the fees of its one trade. -/
theorem oracle_after_calls_sample :
    OracleExact Sample.final.db.toMarket (Sample.start.wallets.rows.map .of) ∧
    recordedFees Sample.final.db.toMarket = ⟨300000, 2500000⟩ :=
  ⟨oracle_after_calls (.start Sample.opening) (opens_of _) Sample.calls, by decide +kernel⟩

end History

namespace Workload

variable {Index : Type} [DecidableEq Index] {workload : Workload Index}

/-- Over any interleaving of transactions the oracle, which reads one committed
state, tells the truth. -/
theorem oracle_after_interleaving
    {system : System Statement Failure Database Write Resource Outcome Index}
    (hStart : Certified opening start.toMarket)
    (hOpening : List.Forall₂ Opens balances opening.wallets.rows)
    (hRun : (workload.protocol newDecimal workload.Admits).Reaches (.start start) system) :
    OracleExact system.committed.toMarket balances := by
  have hSerial := calls_of_serially (Protocol.serially_of_reaches permits_mono
    (fun _ _ _ => replays_transaction) hRun)
  have hCertified := @History.certified_of_calls newDecimal opening start hStart
    (system.log.map fun entry => workload.invocation entry.1)
  rw [hSerial] at hCertified
  exact hCertified.oracleExact hOpening

/-- A cancellation overtakes a match. -/
theorem oracle_after_race : ∃ system,
    (Sample.race.protocol Sample.newDecimal Sample.race.Admits).Reaches
      (.start Sample.beforeRace) system ∧
    system.committed.orders.rows.map Order.status = [.cancelled, .opened] ∧
    OracleExact system.committed.toMarket (Sample.start.wallets.rows.map .of) := by
  have hStart : Certified Sample.start.toMarket Sample.beforeRace.toMarket :=
    History.certified_of_calls (.start Sample.opening) (Sample.calls.take 3)
  have hRun := @Sample.reaches_scheduled Sample.race Sample.race.Admits Sample.beforeRace
    Sample.raceSchedule (fun index _ h => by cases index <;> cases h) (by decide +kernel)
  exact ⟨_, hRun, by decide +kernel, oracle_after_interleaving hStart (opens_of _) hRun⟩

end Workload

namespace World

variable {Index : Type} [DecidableEq Index]

/-- The restore script adds intents only. -/
theorem toMarket_restoreMatchingIntents {db db' : Database} {now : Nat} {skipped : List OrderId}
    (h : db.restoreMatchingIntents now skipped = .ok db') : db'.toMarket = db.toMarket := by
  unfold Database.restoreMatchingIntents at h
  generalize db.pendingOrders skipped = orders at h
  induction orders generalizing db with
  | nil =>
      cases h
      rfl
  | cons order orders ih =>
      rw [List.foldlM_cons] at h
      obtain ⟨middle, hFirst, hRest⟩ := bind_eq_ok.mp h
      have hMiddle : middle.toMarket = db.toMarket := by
        unfold Database.restoreIntent at hFirst
        dsimp only at hFirst
        split_ifs at hFirst with hPresent hFresh <;> cases hFirst
        · rfl
        · exact Database.toMarket_apply_newIntent _
      exact (ih hRest).trans hMiddle

/-- Over any interleaving of users, dispatchers, workers, redelivered jobs,
crashes and restores the market goes on as the calls lead it. -/
theorem evolves_of_reaches {cluster cluster' : Cluster Command Thrown (World Index) Index}
    (hWell : cluster.world.db.WellFormed)
    (hRun : (services newDecimal).Reaches cluster cluster') :
    cluster.world.db.toMarket.Evolves cluster'.world.db.toMarket := by
  have hCall : ∀ {db db' : Database} {invocation : Invocation} {outcome : Outcome},
      cluster.world.db.toMarket.Evolves db.toMarket →
      db.call newDecimal invocation = .ok (outcome, db') →
      cluster.world.db.toMarket.Evolves db'.toMarket := by
    intro db db' invocation outcome hEvolves hRun
    obtain ⟨hNow, _⟩ := hEvolves.induction hWell trivial fun _ _ _ _ _ => trivial
    exact hEvolves.trans (Database.call_evolves hNow hRun)
  refine Services.Reaches.keeps
    (P := fun world : World Index => cluster.world.db.toMarket.Evolves world.db.toMarket) hRun ?_
      ?_ .refl
  · intro index Reply command world reply world' hEffect hEvolves
    cases command with
    | claimNextBatch =>
        obtain ⟨_, _, _, _, _, rfl⟩ := hEffect
        exact hEvolves
    | add job =>
        cases hEffect
        exact hEvolves
    | removeClaimedRow id claimToken =>
        cases hEffect
        exact hEvolves
    | releaseClaim id claimToken lastError =>
        obtain ⟨_, rfl⟩ := hEffect
        exact hEvolves
    | transaction call =>
        obtain ⟨_, _, hRun, rfl⟩ := hEffect
        exact hCall hEvolves hRun
    | moveToCompleted jobId =>
        cases hEffect
        exact hEvolves
  · intro world world' hOutside hEvolves
    cases hOutside with
    | createOrder userId side amountInput priceInput generated run => exact hCall hEvolves run
    | cancelOrder userId orderId generated run => exact hCall hEvolves run
    | restore now skipped run =>
        exact (toMarket_restoreMatchingIntents run).symm ▸ hEvolves
    | turnUp order stored => exact hEvolves
    | giveUp jobId => exact hEvolves
    | retry job retained ended => exact hEvolves
    | forget job retained dispensable => exact hEvolves

/-- Whatever is delivered, redelivered, lost or restored, and wherever
processes crash, the oracle tells the truth. -/
theorem oracle_after_crashes {cluster : Cluster Command Thrown (World Index) Index}
    (hStart : Certified opening start.toMarket)
    (hOpening : List.Forall₂ Opens balances opening.wallets.rows)
    (hRun : (services newDecimal).Reaches (.start (World.start start)) cluster) :
    OracleExact cluster.world.db.toMarket balances :=
  (hStart.of_evolves (evolves_of_reaches hStart.wellFormed hRun)).oracleExact hOpening

theorem oracle_after_delivery : ∃ cluster : Cluster Command Thrown (World Bool) Bool,
    (services Sample.newDecimal).Reaches (.start (World.start Sample.start)) cluster ∧
    cluster.world.queue.completed = ["sell"] ∧
    OracleExact cluster.world.db.toMarket (Sample.start.wallets.rows.map .of) := by
  obtain ⟨cluster, hRun, hWorld⟩ := Sample.reaches_delivered
  refine ⟨cluster, hRun, ?_, oracle_after_crashes (.start Sample.opening) (opens_of _) hRun⟩
  rw [hWorld]
  decide +kernel

end World
end ExchangeMatching
