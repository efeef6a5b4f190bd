import ExchangeMatching.Cancellations
import ExchangeMatching.Custody
import ExchangeMatching.Library.Numeral
import ExchangeMatching.Views
import Mathlib.Data.List.TakeWhile

/-! Requests over HTTP. The guard lets a request act for the user for whom its
token verifies; without such a token nobody can bind a user's funds, place an
order for the user or cancel one. -/
namespace ExchangeMatching

namespace JwtAuthGuard

/-- The first two of the parts between spaces. -/
def splitHeader (header : String) : String × Option String :=
  let scheme := header.toList.takeWhile (· ≠ ' ')
  match header.toList.dropWhile (· ≠ ' ') with
  | [] => (.ofList scheme, none)
  | _ :: rest => (.ofList scheme, some (.ofList (rest.takeWhile (· ≠ ' '))))

/-- The user of a request, or the message of the exception. -/
def canActivate (verifyAsync : String → Except Thrown JwtPayload) (authorization : Option String) :
    Except String JwtPayload :=
  match authorization.filter (· ≠ "") with
  | none => .error "Missing Authorization header"
  | some header =>
      let (scheme, token) := splitHeader header
      match token.filter (· ≠ "") with
      | none => .error "Invalid Authorization header"
      | some token =>
          if scheme ≠ "Bearer" then .error "Invalid Authorization header"
          else match verifyAsync token with
            | .ok payload => .ok payload
            | .error _ => .error "Invalid or expired token"

variable {verifyAsync : String → Except Thrown JwtPayload} {authorization : Option String}
  {payload : JwtPayload}

/-- The part of a header after its scheme. -/
theorem splitHeader_eq {header scheme token : String} : splitHeader header = (scheme, some token) ↔
    ∃ rest, header.toList = scheme.toList ++ ' ' :: (token.toList ++ rest) ∧
      ' ' ∉ scheme.toList ∧ ' ' ∉ token.toList ∧ ∀ char ∈ rest.head?, char = ' ' := by
  have hNoSpace : ∀ chars : List Char, ' ' ∉ chars.takeWhile (· ≠ ' ') := fun chars hMem => by
    simpa using List.mem_takeWhile_imp hMem
  have hStop : ∀ chars : List Char, ∀ char ∈ (chars.dropWhile (· ≠ ' ')).head?,
      char = ' ' := by
    intro chars char hChar
    have hHead := List.head?_dropWhile_not (· ≠ ' ') chars
    rw [Option.mem_def.mp hChar] at hHead
    simpa using hHead
  unfold splitHeader
  constructor
  · intro h
    cases hRest : header.toList.dropWhile (· ≠ ' ') with
    | nil =>
        rw [hRest] at h
        cases h
    | cons space rest =>
        rw [hRest] at h
        obtain ⟨rfl, rfl⟩ : String.ofList (header.toList.takeWhile (· ≠ ' ')) = scheme ∧
            String.ofList (rest.takeWhile (· ≠ ' ')) = token := by simpa using h
        have hSpace : space = ' ' := hStop header.toList space (by rw [hRest]; rfl)
        rw [String.toList_ofList, String.toList_ofList]
        refine ⟨rest.dropWhile (· ≠ ' '), ?_, hNoSpace _, hNoSpace _, hStop rest⟩
        calc header.toList
            = header.toList.takeWhile (· ≠ ' ') ++ header.toList.dropWhile (· ≠ ' ') :=
              List.takeWhile_append_dropWhile.symm
          _ = header.toList.takeWhile (· ≠ ' ') ++ ' ' :: rest := by rw [hRest, hSpace]
          _ = _ := by rw [List.takeWhile_append_dropWhile]
  · rintro ⟨rest, hHeader, hScheme, hToken, hRest⟩
    obtain ⟨hTake, hDrop⟩ := @DecimalArithmetic.Numeral.takeWhile_append_of_head (· ≠ ' ')
      scheme.toList
      (' ' :: (token.toList ++ rest))
        (fun char hChar => decide_eq_true fun hSpace => hScheme (hSpace ▸ hChar))
      (by simp)
    obtain ⟨hTakeToken, _⟩ :=
      @DecimalArithmetic.Numeral.takeWhile_append_of_head (· ≠ ' ') token.toList rest
      (fun char hChar => decide_eq_true fun hSpace => hToken (hSpace ▸ hChar))
      (fun char hChar => by simp [hRest char hChar])
    rw [hHeader, hTake, hDrop]
    simp only [hTakeToken, String.ofList_toList]

/-- The header is made of the word Bearer, one space and the token, which goes up
to the next space. -/
def Bears (token : String) (authorization : Option String) : Prop :=
  ∃ rest, authorization = some (.ofList ("Bearer ".toList ++ (token.toList ++ rest))) ∧
    token ≠ "" ∧ ' ' ∉ token.toList ∧ ∀ char ∈ rest.head?, char = ' '

/-- A request is let through exactly when its header bears a token that verifies. -/
theorem canActivate_eq_ok : canActivate verifyAsync authorization = .ok payload ↔
    ∃ token, Bears token authorization ∧ verifyAsync token = .ok payload := by
  have hBearer : ∀ token rest : List Char,
      "Bearer ".toList ++ (token ++ rest) = "Bearer".toList ++ ' ' :: (token ++ rest) :=
        fun _ _ => rfl
  unfold canActivate
  constructor
  · intro h
    cases hHeader : authorization.filter (· ≠ "") with
    | none =>
        rw [hHeader] at h
        cases h
    | some header =>
        rw [hHeader] at h
        cases hSplit : splitHeader header with
        | mk scheme found =>
            simp only [hSplit] at h
            cases hFound : found.filter (· ≠ "") with
            | none =>
                rw [hFound] at h
                cases h
            | some token =>
                simp only [hFound] at h
                obtain ⟨rfl, hNonempty⟩ := Option.filter_eq_some_iff.mp hFound
                split_ifs at h with hScheme
                rw [ne_eq, not_not] at hScheme
                subst hScheme
                obtain ⟨rest, hText, _, hToken, hRest⟩ := splitHeader_eq.mp hSplit
                refine ⟨token, ⟨rest, ?_, of_decide_eq_true hNonempty, hToken, hRest⟩, ?_⟩
                · rw [(Option.filter_eq_some_iff.mp hHeader).1, hBearer, ← hText,
                    String.ofList_toList]
                · cases hVerify : verifyAsync token with
                  | error thrown =>
                      rw [hVerify] at h
                      cases h
                  | ok user =>
                      rw [hVerify] at h
                      cases h
                      rfl
  · rintro ⟨token, ⟨rest, rfl, hNonempty, hToken, hRest⟩, hVerify⟩
    have hSplit : splitHeader (.ofList ("Bearer ".toList ++ (token.toList ++ rest))) =
      ("Bearer", some token) :=
      splitHeader_eq.mpr ⟨rest, by rw [String.toList_ofList, hBearer], by decide, hToken, hRest⟩
    have hHeader : String.ofList ("Bearer ".toList ++ (token.toList ++ rest)) ≠ "" := by
      intro hEmpty
      have hLists := congrArg String.toList hEmpty
      rw [String.toList_ofList] at hLists
      simp at hLists
    simp only [Option.filter_some, hHeader, ne_eq, not_false_eq_true, decide_true, if_true, hSplit,
      hNonempty, not_true_eq_false, if_false, hVerify]

end JwtAuthGuard

/-- The header that the client sends with the token that it keeps. -/
def authorizationHeader (accessToken : Option String) : Option String :=
  (accessToken.filter (· ≠ "")).map fun token => "Bearer " ++ token

inductive Route where
  | createOrder (side : OrderSide) (amount price : String)
  | cancelOrder (orderId : OrderId)
  | view (view : View)
deriving DecidableEq, Repr

structure Request where
  authorization : Option String
  route : Route
  now : Nat
deriving DecidableEq, Repr

/-- What the backend works on: requests of clients, and jobs of the worker. -/
inductive Input where
  | request (request : Request) (generated : Generated)
  | processOrder (orderId : OrderId) (generated : Generated)
  | rejectOrder (orderId : OrderId) (generated : Generated)
deriving DecidableEq, Repr

inductive Reply where
  | unauthorized (message : String)
  | failed (failure : Failure)
  | order (summary : OrderSummary)
  | view (answer : Answer)
  | processed (stored : Bool)

namespace Server

variable (newDecimal : String → Option DecimalValue) (startsWith : String → String → Bool)
  (text : TradeId → String) (verifyAsync : Nat → String → Except Thrown JwtPayload)

def run (invocation : Invocation) (db : Database) : Reply × Database :=
  match db.call newDecimal invocation with
  | .error failure => (.failed failure, db)
  | .ok (.order order, db') => (.order (toOrderSummary order), db')
  | .ok (.eventsStored stored, db') => (.processed stored, db')

/-- The controllers behind the guard. -/
def handle (user : JwtPayload) (route : Route) (generated : Generated)
    (db : Database) : Reply × Database :=
  match route with
  | .createOrder side amount price =>
      run newDecimal ⟨.createOrder user.sub side amount price, generated⟩ db
  | .cancelOrder orderId => run newDecimal ⟨.cancelOrder user.sub orderId, generated⟩ db
  | .view view =>
      (.view (view.answer newDecimal startsWith text db.toMarket user.sub generated.now), db)

def serve (db : Database) : Input → Reply × Database
  | .request request generated =>
      match JwtAuthGuard.canActivate (verifyAsync request.now) request.authorization with
      | .error message => (.unauthorized message, db)
      | .ok user => handle newDecimal startsWith text user request.route generated db
  | .processOrder orderId generated => run newDecimal ⟨.processOrder orderId, generated⟩ db
  | .rejectOrder orderId generated =>
      run newDecimal ⟨.rejectOrderAfterFailedProcessing orderId, generated⟩ db

/-- The database after some inputs. -/
def after (db : Database) (inputs : List Input) : Database :=
  inputs.foldl (fun db input => (serve newDecimal startsWith text verifyAsync db input).2) db

/-- The input is a request that the guard lets act for the user. -/
def ActsFor (userId : UserId) : Input → Prop
  | .request request _ => ∃ user,
      JwtAuthGuard.canActivate (verifyAsync request.now) request.authorization = .ok user ∧
      user.sub = userId
  | .processOrder _ _ | .rejectOrder _ _ => False

/-- The call that an input leads to. -/
def invocation : Input → Option Invocation
  | .request request generated =>
      match JwtAuthGuard.canActivate (verifyAsync request.now) request.authorization,
      request.route with
      | .ok user, .createOrder side amount price =>
          some ⟨.createOrder user.sub side amount price, generated⟩
      | .ok user, .cancelOrder orderId => some ⟨.cancelOrder user.sub orderId, generated⟩
      | .ok _, .view _ | .error _, _ => none
  | .processOrder orderId generated => some ⟨.processOrder orderId, generated⟩
  | .rejectOrder orderId generated => some ⟨.rejectOrderAfterFailedProcessing orderId, generated⟩

variable {newDecimal startsWith text verifyAsync}

theorem run_snd (history : History) (invocation : Invocation) :
    (run newDecimal invocation history.db).2 = (history.call newDecimal invocation).db := by
  unfold run History.call
  cases history.db.call newDecimal invocation with
  | error failure => rfl
  | ok out =>
      obtain ⟨outcome, db'⟩ := out
      cases outcome with
      | order order => rfl
      | eventsStored stored => rfl

theorem serve_snd (history : History) (input : Input) :
    (serve newDecimal startsWith text verifyAsync history.db input).2 =
      (history.calls newDecimal (invocation verifyAsync input).toList).db := by
  have hOne : ∀ invocation : Invocation, (run newDecimal invocation history.db).2 =
      (history.calls newDecimal (some invocation).toList).db := by
    intro invocation
    rw [Option.toList_some, History.calls_cons, History.calls_nil]
    exact run_snd history invocation
  cases input with
  | processOrder orderId generated => exact hOne _
  | rejectOrder orderId generated => exact hOne _
  | request request generated =>
      obtain ⟨authorization, route, now⟩ := request
      simp only [serve, invocation]
      cases JwtAuthGuard.canActivate (verifyAsync now) authorization with
      | error message => rfl
      | ok user =>
          cases route with
          | createOrder side amount price => exact hOne _
          | cancelOrder orderId => exact hOne _
          | view view => rfl

/-- Serving inputs runs the calls that they lead to. -/
theorem after_eq (history : History) (inputs : List Input) :
    after newDecimal startsWith text verifyAsync history.db inputs =
      (history.calls newDecimal (inputs.filterMap (invocation verifyAsync))).db := by
  induction inputs generalizing history with
  | nil => rfl
  | cons input inputs ih =>
      rw [after, List.foldl_cons, serve_snd history input, ← after, ih, ← History.calls_append,
        List.filterMap_cons]
      cases invocation verifyAsync input <;> rfl

end Server

namespace Database

variable {newDecimal : String → Option DecimalValue} {db db' db'' : Database} {userId : UserId}

/-- Nothing was done in the name of the user: no funds were bound, no order was
placed, and none was cancelled. -/
structure Untouched (userId : UserId) (db db' : Database) : Prop where
  wallet : ∀ wallet, db.wallets.find? userId = some wallet →
    ∃ wallet', db'.wallets.find? userId = some wallet' ∧ ¬wallet.Spends wallet'
  orders : ∀ later ∈ db'.orders, later.userId = userId →
    ∃ order, db.orders.find? later.id = some order ∧
    order.userId = userId ∧ (later.status = .cancelled → order.status = .cancelled)

theorem Untouched.refl (userId : UserId) (db : Database) : Untouched userId db db where
  wallet wallet hFound := ⟨wallet, hFound, wallet.not_spends_self⟩
  orders later hLater hUser := ⟨later, Table.find?_of_mem hLater, hUser, id⟩

theorem Untouched.trans (h : Untouched userId db db') (hNext : Untouched userId db' db'') :
    Untouched userId db db'' where
  wallet wallet hFound := by
    obtain ⟨wallet', hMiddle, hFirst⟩ := h.wallet wallet hFound
    obtain ⟨wallet'', hLast, hSecond⟩ := hNext.wallet wallet' hMiddle
    exact ⟨wallet'', hLast, Wallet.not_spends_trans hFirst hSecond⟩
  orders later hLater hUser := by
    obtain ⟨middle, hMiddle, hMiddleUser, hSecond⟩ := hNext.orders later hLater hUser
    obtain ⟨order, hOrder, hOwner, hFirst⟩ :=
      h.orders middle (Table.mem_of_find? hMiddle) hMiddleUser
    rw [Table.key_of_find? hMiddle] at hOrder
    exact ⟨order, hOrder, hOwner, hFirst ∘ hSecond⟩

/-- Matching cancels nothing. -/
theorem status_finalOrder {orders : List Order} {taker order : Order}
    (h : (Reference.finalOrder orders taker order).status = .cancelled) :
    order.status = .cancelled := by
  unfold Reference.finalOrder at h
  split_ifs at h with hTaker
  · rw [Reference.finalTaker, Order.revised_status] at h
    split_ifs at h
  · split at h
    · exact h
    · rw [Order.revised_status] at h
      split_ifs at h

/-- Only a cancellation in the name of the owner cancels an order. -/
theorem Transition.cancelled_before {invocation : Invocation} (hWell : db.WellFormed)
    (h : db.Transition newDecimal invocation db')
    (hCaller : ∀ orderId, invocation.call ≠ .cancelOrder "" orderId)
    (hNot : ∀ orderId, invocation.call ≠ .cancelOrder userId orderId) {later : Order}
    (hLater : later ∈ db'.orders) (hUser : later.userId = userId)
    (hCancelled : later.status = .cancelled) :
    ∃ order, db.orders.find? later.id = some order ∧ order.status = .cancelled := by
  have hFound := Table.find?_of_mem hLater
  cases h with
  | created valid found fits fresh freshIntent =>
      rw [orders_stored fresh] at hFound
      split_ifs at hFound with hId
      · cases hFound
        cases hCancelled
      · exact ⟨later, hFound, hCancelled⟩
  | @cancelled caller row wallet generated found owner active callerFound walletFound fits =>
      rw [orders_released found] at hFound
      split_ifs at hFound with hId
      · cases hFound
        rw [Order.revised_userId] at hUser
        have hOwner := owner fun hEmpty => hCaller row.id (by rw [hEmpty])
        exact absurd (by rw [← hOwner, hUser]) (hNot row.id)
      · exact ⟨later, hFound, hCancelled⟩
  | matched found queued executed =>
      rw [(Reference.matched_of_executed hWell found queued executed).orders] at hFound
      obtain ⟨order, hOrder, hFinal⟩ := Option.map_eq_some_iff.mp hFound
      exact ⟨order, hOrder, status_finalOrder (hFinal ▸ hCancelled)⟩
  | @rejected row wallet generated found queued walletFound fits =>
      rw [orders_released found] at hFound
      split_ifs at hFound with hId
      · cases hFound
        cases hCancelled
      · exact ⟨later, hFound, hCancelled⟩
  | skipped call notQueued => exact ⟨later, hFound, hCancelled⟩

/-- A call that the user has not made leaves the user untouched. -/
theorem Transition.untouched {invocation : Invocation} (hWell : db.WellFormed)
    (h : db.Transition newDecimal invocation db')
    (hCaller : ∀ orderId, invocation.call ≠ .cancelOrder "" orderId)
    (hNoCancel : ∀ orderId, invocation.call ≠ .cancelOrder userId orderId)
    (hNoCreate : ∀ side amountInput priceInput,
      invocation.call ≠ .createOrder userId side amountInput priceInput) :
    Untouched userId db db' where
  wallet wallet hFound := by
    obtain ⟨wallet', hLater, hSpends⟩ := h.unspent hWell hFound
    refine ⟨wallet', hLater, fun hSpent => ?_⟩
    obtain ⟨side, amountInput, priceInput, hCreate⟩ := hSpends hSpent
    exact hNoCreate side amountInput priceInput hCreate
  orders later hLater hUser := by
    rcases h.stored_before hWell hLater with hStored | ⟨side, amountInput, priceInput, hCreate⟩
    · obtain ⟨order, hOrder⟩ := Option.isSome_iff_exists.mp hStored
      have hSame := (h.evolves hWell).userId_eq hOrder (Table.find?_of_mem hLater)
      refine ⟨order, hOrder, hSame.symm.trans hUser, fun hCancelled => ?_⟩
      obtain ⟨row, hRow, hBefore⟩ :=
        h.cancelled_before hWell hCaller hNoCancel hLater hUser hCancelled
      rw [hOrder, Option.some.injEq] at hRow
      rwa [hRow]
    · rw [hUser] at hCreate
      exact absurd hCreate (hNoCreate side amountInput priceInput)

end Database
namespace History

variable {newDecimal : String → Option DecimalValue} {start : Database} {userId : UserId}

theorem untouched_calls (hOpening : start.Opening) (invocations later : List Invocation)
    (hCallers : ∀ invocation ∈ later, ∀ orderId, invocation.call ≠ .cancelOrder "" orderId)
    (hNoCancel : ∀ invocation ∈ later, ∀ orderId, invocation.call ≠ .cancelOrder userId orderId)
    (hNoCreate : ∀ invocation ∈ later, ∀ side amountInput priceInput,
      invocation.call ≠ .createOrder userId side amountInput priceInput) :
    Database.Untouched userId ((History.start start).calls newDecimal invocations).db
      ((History.start start).calls newDecimal (invocations ++ later)).db := by
  induction later using List.reverseRecOn with
  | nil =>
      rw [List.append_nil]
      exact .refl userId _
  | append_singleton later invocation ih =>
      have hLast : invocation ∈ later ++ [invocation] :=
        List.mem_append_right _ (List.mem_singleton.mpr rfl)
      have hEarlier := ih (fun other hMem => hCallers other (List.mem_append_left _ hMem))
        (fun other hMem => hNoCancel other (List.mem_append_left _ hMem))
        (fun other hMem => hNoCreate other (List.mem_append_left _ hMem))
      have hWell := (@exact_of_opening newDecimal start hOpening (invocations ++ later)).1
      rw [← List.append_assoc, @calls_append _ _ (invocations ++ later), calls_cons, calls_nil,
        History.call]
      split
      · next hCall =>
        exact hEarlier.trans ((Database.call_transition hWell hCall).untouched hWell
          (hCallers invocation hLast) (hNoCancel invocation hLast) (hNoCreate invocation hLast))
      · exact hEarlier

end History

namespace Server

variable {newDecimal : String → Option DecimalValue} {startsWith : String → String → Bool}
  {text : TradeId → String} {verifyAsync : Nat → String → Except Thrown JwtPayload}
  {start : Database}

/-- The call of a request is one of its user. -/
theorem user_of_invocation {input : Input} {invocation : Invocation}
    (h : Server.invocation verifyAsync input = some invocation) (userId : UserId) :
    ((∃ orderId, invocation.call = .cancelOrder userId orderId) ∨
      ∃ side amountInput priceInput, invocation.call =
        .createOrder userId side amountInput priceInput) →
    ActsFor verifyAsync userId input := by
  cases input with
  | processOrder orderId generated =>
      cases h
      rintro (⟨_, hCall⟩ | ⟨_, _, _, hCall⟩) <;> cases hCall
  | rejectOrder orderId generated =>
      cases h
      rintro (⟨_, hCall⟩ | ⟨_, _, _, hCall⟩) <;> cases hCall
  | request request generated =>
      obtain ⟨authorization, route, now⟩ := request
      unfold Server.invocation at h
      cases hUser : JwtAuthGuard.canActivate (verifyAsync now) authorization with
      | error message =>
          simp only [hUser] at h
          cases h
      | ok user =>
          simp only [hUser] at h
          cases route with
          | createOrder side amount price =>
              cases h
              rintro (⟨_, hCall⟩ | ⟨_, _, _, hCall⟩)
              · cases hCall
              · cases hCall
                exact ⟨user, hUser, rfl⟩
          | cancelOrder orderId =>
              cases h
              rintro (⟨_, hCall⟩ | ⟨_, _, _, hCall⟩)
              · cases hCall
                exact ⟨user, hUser, rfl⟩
              · cases hCall
          | view view => cases h

/-- While no request bears a token that verifies for a user, nothing is done in
the user's name: whatever headers clients send and whatever the worker does, the
user's available funds do not shrink, no order is placed for the user and none is
cancelled. The guard accepts the headers that bear a token that verifies, and no
others. Tokens are issued to users only, who have an id. -/
theorem untouched_without_token (hOpening : start.Opening) (earlier later : List Input)
    (userId : UserId)
    (hIssued : ∀ now token payload, verifyAsync now token = .ok payload → payload.sub ≠ "")
    (hNoToken : ∀ request generated, .request request generated ∈ later → ∀ token payload,
      JwtAuthGuard.Bears token request.authorization →
      verifyAsync request.now token = .ok payload → payload.sub ≠ userId) :
    Database.Untouched userId (after newDecimal startsWith text verifyAsync start earlier)
        (after newDecimal startsWith text verifyAsync start (earlier ++ later)) ∧
      ∀ now authorization payload,
        JwtAuthGuard.canActivate (verifyAsync now) authorization = .ok payload ↔
          ∃ token, JwtAuthGuard.Bears token authorization ∧
            verifyAsync now token = .ok payload := by
  refine ⟨?_, fun now authorization payload => JwtAuthGuard.canActivate_eq_ok⟩
  have hNobody : ∀ input ∈ later, ¬ActsFor verifyAsync userId input := by
    intro input hInput hActs
    cases input with
    | processOrder orderId generated => exact hActs
    | rejectOrder orderId generated => exact hActs
    | request request generated =>
        obtain ⟨user, hUser, hSub⟩ := hActs
        obtain ⟨token, hBears, hVerify⟩ := JwtAuthGuard.canActivate_eq_ok.mp hUser
        exact hNoToken request generated hInput token user hBears hVerify hSub
  have hStart : ∀ inputs, after newDecimal startsWith text verifyAsync start inputs =
      ((History.start start).calls newDecimal (inputs.filterMap (invocation verifyAsync))).db :=
    after_eq (History.start start)
  rw [hStart, hStart, List.filterMap_append]
  refine History.untouched_calls hOpening _ _ (fun called hCalled orderId hCall => ?_)
    (fun called hCalled orderId hCall => ?_)
      (fun called hCalled side amountInput priceInput hCall => ?_)
  · obtain ⟨input, hInput, hFrom⟩ := List.mem_filterMap.mp hCalled
    have hActs := user_of_invocation hFrom "" (Or.inl ⟨orderId, hCall⟩)
    cases input with
    | request request generated =>
        obtain ⟨user, hUser, hSub⟩ := hActs
        obtain ⟨token, _, hVerify⟩ := JwtAuthGuard.canActivate_eq_ok.mp hUser
        exact hIssued _ _ _ hVerify hSub
    | processOrder orderId generated => exact hActs
    | rejectOrder orderId generated => exact hActs
  · obtain ⟨input, hInput, hFrom⟩ := List.mem_filterMap.mp hCalled
    exact hNobody input hInput (user_of_invocation hFrom userId (Or.inl ⟨orderId, hCall⟩))
  · obtain ⟨input, hInput, hFrom⟩ := List.mem_filterMap.mp hCalled
    exact hNobody input hInput (user_of_invocation hFrom userId (Or.inr ⟨_, _, _, hCall⟩))

end Server

namespace Sample

/-- The tokens of the two users of the sample. -/
def verifyAsync (_now : Nat) (token : String) : Except Thrown JwtPayload :=
  if token = "seller.jwt" then .ok ⟨"seller", "Seller"⟩
  else if token = "buyer.jwt" then .ok ⟨"buyer", "Buyer"⟩
  else .error (.error "jwt malformed")

/-- The seller places an order. -/
def sellerRequests : List Input :=
  [.request ⟨some "Bearer seller.jwt", .createOrder .sell "1" "5", 10⟩
    ⟨"sell", 1, "intent 1", 10⟩]

/-- The buyer places one, and a client without a token tries to cancel the other. -/
def otherRequests : List Input := [
  .request ⟨some "Bearer buyer.jwt", .createOrder .buy "2" "5", 12⟩ ⟨"buy", 2, "intent 2", 12⟩,
  .request ⟨some "Bearer", .cancelOrder "sell", 13⟩ ⟨"", 0, "", 13⟩,
  .processOrder "sell" ⟨"", 0, "", 14⟩]

end Sample

namespace Server

theorem untouched_without_token_sample : Database.Untouched "seller"
    (after Sample.newDecimal (fun id start => start.isPrefixOf id) toString Sample.verifyAsync
      Sample.start Sample.sellerRequests)
    (after Sample.newDecimal (fun id start => start.isPrefixOf id) toString Sample.verifyAsync
      Sample.start (Sample.sellerRequests ++ Sample.otherRequests)) := by
  refine (untouched_without_token Sample.opening _ _ "seller"
    (fun now token payload hVerify hEmpty => ?_)
    (fun request generated hInput token payload hBears hVerify hSeller => ?_)).1
  · unfold Sample.verifyAsync at hVerify
    split_ifs at hVerify <;> cases hVerify <;> simp at hEmpty
  · have hUser := JwtAuthGuard.canActivate_eq_ok.mpr ⟨token, hBears, hVerify⟩
    simp only [Sample.otherRequests, List.mem_cons, List.not_mem_nil, or_false, Input.request.injEq,
      reduceCtorEq] at hInput
    rcases hInput with ⟨rfl, rfl⟩ | ⟨rfl, rfl⟩
    · have hBuyer : JwtAuthGuard.canActivate (Sample.verifyAsync 12) (some "Bearer buyer.jwt") =
          .ok ⟨"buyer", "Buyer"⟩ := by decide +kernel
      rw [hBuyer, Except.ok.injEq] at hUser
      rw [← hUser] at hSeller
      contradiction
    · have hRefused : JwtAuthGuard.canActivate (Sample.verifyAsync 13) (some "Bearer") =
          .error "Invalid Authorization header" := by decide +kernel
      rw [hRefused] at hUser
      cases hUser

end Server
end ExchangeMatching
