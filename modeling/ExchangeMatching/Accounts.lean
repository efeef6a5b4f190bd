import ExchangeMatching.Library.Grouping
import ExchangeMatching.Library.Interleaving
import ExchangeMatching.Library.Numeral
import ExchangeMatching.Schema

/-! Users and their wallets, and the login that creates both at the first use
of a username. Lookups see what is committed. A user is inserted together with
its wallet in one transaction, and the insert of a username waits for a
transaction under way that has inserted the same one. -/
namespace ExchangeMatching

open Processes DecimalArithmetic

structure User where
  id : UserId
  username : String
deriving DecidableEq, Repr

structure UserWithOptionalWallet extends User where
  wallet : Option Wallet
deriving DecidableEq, Repr

structure UserWithWallet extends User where
  wallet : Wallet
deriving DecidableEq, Repr

/-- The width of the username column. -/
def usernameMax : Nat := 50

/-- The committed users and wallets, with the constraints of their tables. -/
structure Accounts where
  users : Table User User.id
  wallets : Table Wallet Wallet.userId
  usernames : (users.rows.map User.username).Nodup
  short : ∀ user ∈ users, user.username.length ≤ usernameMax
  /-- A wallet belongs to a user. -/
  foreignKey : ∀ wallet ∈ wallets, (users.find? wallet.userId).isSome
  /-- The trigger `users_must_have_wallet_trigger`. -/
  mustHaveWallet : ∀ user ∈ users, (wallets.find? user.id).isSome

namespace Accounts

def empty : Accounts where
  users := .empty
  wallets := .empty
  usernames := List.nodup_nil
  short := fun _ hUser => absurd hUser List.not_mem_nil
  foreignKey := fun _ hWallet => absurd hWallet List.not_mem_nil
  mustHaveWallet := fun _ hUser => absurd hUser List.not_mem_nil

/-- A user by name, with its wallet. -/
def findUnique (accounts : Accounts) (username : String) : Option UserWithOptionalWallet :=
  (accounts.users.rows.find? (·.username = username)).map fun user =>
    ⟨user, accounts.wallets.find? user.id⟩

/-- The keys of the user are not in use, and its name fits the column. -/
def IsNew (accounts : Accounts) (user : User) : Prop :=
  accounts.users.find? user.id = none ∧
  (∀ row ∈ accounts.users.rows, row.username ≠ user.username) ∧
    user.username.length ≤ usernameMax

instance (accounts : Accounts) (user : User) : Decidable (accounts.IsNew user) :=
  inferInstanceAs (Decidable (_ ∧ _ ∧ _))

theorem wallets_find?_eq_none {accounts : Accounts} {id : UserId}
    (h : accounts.users.find? id = none) : accounts.wallets.find? id = none := by
  rw [Table.find?_eq_none_iff]
  rintro wallet hWallet rfl
  have hUser := accounts.foreignKey wallet hWallet
  rw [h] at hUser
  cases hUser

/-- A user and its wallet become visible together. -/
def create (accounts : Accounts) (user : User) (wallet : Wallet) : Option Accounts :=
  if h : accounts.IsNew user ∧ wallet.userId = user.id then
    some {
      users := accounts.users.insert user h.1.1
      wallets := accounts.wallets.insert wallet (h.2 ▸ wallets_find?_eq_none h.1.1)
      usernames := by
        have hAppend : (accounts.users.insert user h.1.1).rows = accounts.users.rows ++
          [user] := rfl
        rw [hAppend, List.map_append, List.map_singleton, ← List.concat_eq_append,
          List.nodup_concat]
        refine ⟨fun hMem => ?_, accounts.usernames⟩
        obtain ⟨row, hRow, hName⟩ := List.mem_map.mp hMem
        exact h.1.2.1 row hRow hName
      short := by
        intro row hRow
        rcases Table.mem_insert.mp hRow with hOld | rfl
        · exact accounts.short row hOld
        · exact h.1.2.2
      foreignKey := by
        intro row hRow
        rw [Table.find?_insert]
        split_ifs with hId
        · rfl
        · rcases Table.mem_insert.mp hRow with hOld | rfl
          · exact accounts.foreignKey row hOld
          · exact absurd h.2 hId
      mustHaveWallet := by
        intro row hRow
        rw [Table.find?_insert]
        split_ifs with hId
        · rfl
        · rcases Table.mem_insert.mp hRow with hOld | rfl
          · exact accounts.mustHaveWallet row hOld
          · exact absurd h.2.symm hId }
  else none

/-- Every user and every wallet is still there, unchanged. -/
structure Within (accounts accounts' : Accounts) : Prop where
  users : ∀ user ∈ accounts.users, user ∈ accounts'.users
  wallets : ∀ wallet ∈ accounts.wallets, wallet ∈ accounts'.wallets

variable {accounts accounts' : Accounts} {user : User} {wallet : Wallet} {username : String}

theorem Within.refl (accounts : Accounts) : accounts.Within accounts := ⟨fun _ h => h, fun _ h => h⟩

theorem Within.trans {accounts'' : Accounts} (h : accounts.Within accounts')
    (h' : accounts'.Within accounts'') : accounts.Within accounts'' :=
  ⟨fun user hUser => h'.users user (h.users user hUser),
    fun wallet hWallet => h'.wallets wallet (h.wallets wallet hWallet)⟩

/-- What `create` does, and when. -/
theorem create_eq_some (h : accounts.create user wallet = some accounts') :
    accounts.IsNew user ∧ wallet.userId = user.id ∧
      (∀ row, row ∈ accounts'.users ↔ row ∈ accounts.users ∨ row = user) ∧
      ∀ row, row ∈ accounts'.wallets ↔ row ∈ accounts.wallets ∨ row = wallet := by
  rw [create] at h
  split_ifs at h with hNew
  cases h
  simp only [Table.mem_insert, implies_true, and_true]
  exact hNew

theorem exists_create (hNew : accounts.IsNew user) (hWallet : wallet.userId = user.id) :
    ∃ accounts', accounts.create user wallet = some accounts' := by
  rw [create, dif_pos ⟨hNew, hWallet⟩]
  exact ⟨_, rfl⟩

theorem findUnique_eq_none : accounts.findUnique username = none ↔
    ∀ user ∈ accounts.users, user.username ≠ username := by
  simp [findUnique, Table.mem_def]

/-- A user is found with the one wallet that it must have. -/
theorem of_findUnique {row : UserWithOptionalWallet} (h : accounts.findUnique username = some row) :
    row.toUser ∈ accounts.users ∧ row.username = username ∧
      ∃ wallet ∈ accounts.wallets, wallet.userId = row.id ∧ row.wallet = some wallet := by
  rw [findUnique, Option.map_eq_some_iff] at h
  obtain ⟨user, hFound, rfl⟩ := h
  have hUser : user ∈ accounts.users := List.mem_of_find?_eq_some hFound
  obtain ⟨wallet, hWallet⟩ := Option.isSome_iff_exists.mp (accounts.mustHaveWallet user hUser)
  exact ⟨hUser, by simpa using List.find?_some hFound, wallet, Table.mem_of_find? hWallet,
    Table.key_of_find? hWallet, hWallet⟩

theorem filter_username (h : user ∈ accounts.users) :
    accounts.users.rows.filter (fun row => row.username = user.username) = [user] :=
  Grouping.filter_key_eq_singleton accounts.usernames h

theorem filter_userId (h : wallet ∈ accounts.wallets) :
    accounts.wallets.rows.filter (fun row => row.userId = wallet.userId) = [wallet] :=
  Grouping.filter_key_eq_singleton accounts.wallets.nodup h

end Accounts

/-- What the client and the service throw. -/
inductive AccountFailure where
  | knownRequest (code : String)
  | raised (message : String)
  | internalServerError (message : String)
deriving DecidableEq, Repr

/-- The balances of a new wallet, in units. -/
structure WalletCreateInput where
  availableBtc : Int
  reservedBtc : Int
  availableUsd : Int
  reservedUsd : Int
deriving DecidableEq, Repr

def initialBtcBalance : Int := 100 * one
def initialUsdBalance : Int := 100000 * one
def zeroBalance : Int := 0

def buildInitialWalletCreateInput : WalletCreateInput where
  availableBtc := initialBtcBalance
  reservedBtc := zeroBalance
  availableUsd := initialUsdBalance
  reservedUsd := zeroBalance

def WalletCreateInput.wallet (input : WalletCreateInput) (userId : UserId) : Wallet :=
  ⟨userId, input.availableBtc, input.reservedBtc, input.availableUsd, input.reservedUsd⟩

inductive AccountCommand : Type → Type where
  | findUnique (username : String) : AccountCommand (Option UserWithOptionalWallet)
  | createUser (username : String) : AccountCommand User
  | createWallet (userId : UserId) (input : WalletCreateInput) : AccountCommand Wallet
  | commit : AccountCommand Unit
  | rollback : AccountCommand Unit

abbrev AccountProcess (Result : Type) := Process AccountCommand AccountFailure Result

/-- Run a transaction. It is rolled back when its body throws. -/
def transaction {Result : Type} (body : AccountProcess Result) : AccountProcess Result := do
  match ← body.attempt with
  | .ok result =>
      Process.perform .commit
      return result
  | .error failure =>
      Process.perform .rollback
      .throw failure

namespace UsersRepository

def findByUsername (username : String) : AccountProcess (Option UserWithOptionalWallet) :=
  .perform (.findUnique username)

def createWithWallet (username : String) : AccountProcess UserWithOptionalWallet :=
  transaction do
    let user ← .perform (.createUser username)
    let wallet ← .perform (.createWallet user.id buildInitialWalletCreateInput)
    return ⟨user, some wallet⟩

def isUniqueUsernameViolation : AccountFailure → Bool
  | .knownRequest code => code = "P2002"
  | _ => false

end UsersRepository

namespace UsersService

def ensureWallet (user : UserWithOptionalWallet) : AccountProcess UserWithWallet :=
  match user.wallet with
  | none => .throw (.internalServerError "Wallet not found for user")
  | some wallet => return ⟨user.toUser, wallet⟩

def findByUsername (username : String) : AccountProcess (Option UserWithWallet) := do
  match ← UsersRepository.findByUsername username with
  | none => return none
  | some user => return some (← ensureWallet user)

def createWithWallet (username : String) : AccountProcess UserWithWallet := do
  let user ← UsersRepository.createWithWallet username
  ensureWallet user

def isUniqueUsernameViolation (error : AccountFailure) : Bool :=
  UsersRepository.isUniqueUsernameViolation error

end UsersService

structure JwtPayload where
  sub : UserId
  username : String
deriving DecidableEq, Repr

structure UserProfile where
  id : UserId
  username : String
deriving DecidableEq, Repr

structure WalletSummary where
  availableBtc : String
  reservedBtc : String
  availableUsd : String
  reservedUsd : String
deriving DecidableEq, Repr

structure AuthSessionResponse where
  accessToken : String
  user : UserProfile
  wallet : WalletSummary
deriving DecidableEq, Repr

def toUserProfile (user : User) : UserProfile := ⟨user.id, user.username⟩

def toDecimalString (value : Int) : String :=
  (Decimal.ofUnits decimalScale value).toFixed decimalScale

def toWalletSummary (wallet : Wallet) : WalletSummary where
  availableBtc := toDecimalString wallet.availableBtc
  reservedBtc := toDecimalString wallet.reservedBtc
  availableUsd := toDecimalString wallet.availableUsd
  reservedUsd := toDecimalString wallet.reservedUsd

namespace AuthService

/-- `signAsync` signs the token of one call. -/
def buildSession (signAsync : JwtPayload → String)
    (user : UserWithWallet) : AuthSessionResponse where
  accessToken := signAsync ⟨user.id, user.username⟩
  user := toUserProfile user.toUser
  wallet := toWalletSummary user.wallet

def login (signAsync : JwtPayload → String)
    (username : String) : AccountProcess AuthSessionResponse := do
  let normalizedUsername := trim username
  match ← UsersService.findByUsername normalizedUsername with
  | some existingUser => return buildSession signAsync existingUser
  | none =>
      match ← (UsersService.createWithWallet normalizedUsername).attempt with
      | .ok createdUser => return buildSession signAsync createdUser
      | .error error =>
          if !UsersService.isUniqueUsernameViolation error then .throw error
          else
            match ← UsersService.findByUsername normalizedUsername with
            | none => .throw error
            | some user => return buildSession signAsync user

end AuthService

/-- The committed tables, and what each transaction under way has inserted. -/
structure AccountsDatabase (Index : Type) where
  accounts : Accounts
  inserted : Index → Option UserWithOptionalWallet

namespace AccountsDatabase

variable {Index : Type} [DecidableEq Index]

/-- No transaction is under way. -/
def start (accounts : Accounts) : AccountsDatabase Index := ⟨accounts, fun _ => none⟩

def put (db : AccountsDatabase Index) (index : Index) (row : Option UserWithOptionalWallet) :
    AccountsDatabase Index :=
  { db with inserted := Function.update db.inserted index row }

variable {db : AccountsDatabase Index} {index other : Index} {row : Option UserWithOptionalWallet}

theorem inserted_put_self : (db.put index row).inserted index = row := Function.update_self ..

theorem inserted_put_of_ne (hNe : other ≠ index) :
    (db.put index row).inserted other = db.inserted other := Function.update_of_ne hNe ..

/-- Keys are unique among the rows of all transactions, and a generated id is
new. An insert that meets an uncommitted row with its username has no answer
until that transaction ends. -/
inductive Inserts (index : Index) (username : String) (db : AccountsDatabase Index) :
    Except AccountFailure User → AccountsDatabase Index → Prop where
  | tooLong (long : usernameMax < username.length) :
      Inserts index username db (.error (.knownRequest "P2000")) db
  | taken (user : User) (committed : user ∈ db.accounts.users) (name : user.username = username) :
      Inserts index username db (.error (.knownRequest "P2002")) db
  | created (id : UserId) (isNew : db.accounts.IsNew ⟨id, username⟩)
      (alone : ∀ other row, db.inserted other = some row → row.id ≠ id ∧
        row.username ≠ username) :
      Inserts index username db (.ok ⟨id, username⟩)
        (db.put index (some ⟨⟨id, username⟩, none⟩))

/-- A commit makes both rows visible. The trigger refuses a user without a
wallet. -/
inductive Commits (index : Index) (db : AccountsDatabase Index) :
    Except AccountFailure Unit → AccountsDatabase Index → Prop where
  | committed {user : User} {wallet : Wallet} {accounts : Accounts}
      (pending : db.inserted index = some ⟨user, some wallet⟩)
      (visible : db.accounts.create user wallet = some accounts) :
      Commits index db (.ok ()) { db.put index none with accounts := accounts }
  | orphan {user : User} (pending : db.inserted index = some ⟨user, none⟩) :
      Commits index db (.error (.raised ("User " ++ user.id ++ " must have a wallet")))
        (db.put index none)

def Answers (index : Index) : {Reply : Type} → AccountCommand Reply → AccountsDatabase Index →
    Except AccountFailure Reply → AccountsDatabase Index → Prop
  | _, .findUnique username, db, reply, db' =>
      reply = .ok (db.accounts.findUnique username) ∧ db' = db
  | _, .createUser username, db, reply, db' => db.Inserts index username reply db'
  | _, .createWallet userId input, db, reply, db' => ∃ user : User,
      db.inserted index = some ⟨user, none⟩ ∧ user.id = userId ∧
      reply = .ok (input.wallet userId) ∧
      db' = db.put index (some ⟨user, some (input.wallet userId)⟩)
  | _, .commit, db, reply, db' => db.Commits index reply db'
  | _, .rollback, db, reply, db' => reply = .ok () ∧ db' = db.put index none

end AccountsDatabase

/-- The database that the logins share. -/
def accountService (Index : Type) [DecidableEq Index] :
    Interleaving.Service AccountCommand AccountFailure (AccountsDatabase Index) Index where
  Answers := fun index _ => AccountsDatabase.Answers index

end ExchangeMatching
