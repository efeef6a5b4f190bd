import ExchangeMatching.Accounts
import Mathlib.Algebra.Group.Action.Defs
import Mathlib.Data.Fintype.EquivFin
import Mathlib.Data.String.Basic

/-! Starter funds are minted once per user. Any number of logins may miss a user
before one of them inserts it. The others wait for that insert or meet the
committed user, and return its session. -/
namespace ExchangeMatching

open Processes Interleaving

/-- The wallet of a new user. -/
def User.starterWallet (user : User) : Wallet := buildInitialWalletCreateInput.wallet user.id

/-- The user is committed, and the wallet is its own. -/
structure Accounts.Has (accounts : Accounts) (stored : UserWithWallet) : Prop where
  user : stored.toUser ∈ accounts.users
  wallet : stored.wallet ∈ accounts.wallets
  userId : stored.wallet.userId = stored.id

/-- A username and a user id belong to one user and one wallet. -/
theorem Accounts.Has.eq_of_username {accounts : Accounts} {stored stored' : UserWithWallet}
    (h : accounts.Has stored) (h' : accounts.Has stored')
    (hName : stored'.username = stored.username) : stored' = stored := by
  obtain ⟨user, wallet⟩ := stored
  obtain ⟨user', wallet'⟩ := stored'
  have hUser : user' = user := List.inj_on_of_nodup_map accounts.usernames h'.user h.user hName
  subst hUser
  have hWallet : wallet' = wallet :=
    List.inj_on_of_nodup_map accounts.wallets.nodup h'.wallet h.wallet
      (h'.userId.trans h.userId.symm)
  rw [hWallet]

theorem Accounts.Within.has {accounts accounts' : Accounts} {user : UserWithWallet}
    (h : accounts.Within accounts') (hHas : accounts.Has user) : accounts'.Has user :=
  ⟨h.users _ hHas.user, h.wallets _ hHas.wallet, hHas.userId⟩

namespace Login

variable {Index : Type}

section Discipline

variable (accounts : Accounts) (username : Index → String)

/-- What holds at any time, after a start with these accounts: new users are
users that a login asked for, with starter wallets, and what the transactions
under way have inserted can still be committed. -/
structure Sound (db : AccountsDatabase Index) : Prop where
  kept : accounts.Within db.accounts
  minted : ∀ user ∈ db.accounts.users, user ∉ accounts.users →
    (∃ index, user.username = trim (username index)) ∧ user.starterWallet ∈ db.accounts.wallets
  pending : ∀ index row, db.inserted index = some row → db.accounts.IsNew row.toUser ∧
    row.username = trim (username index) ∧
    ∀ wallet ∈ row.wallet, wallet = row.toUser.starterWallet
  apart : ∀ index other row row', other ≠ index → db.inserted index = some row →
    db.inserted other = some row' → row'.id ≠ row.id ∧ row'.username ≠ row.username

/-- What the other logins leave alone. -/
structure Rely (index : Index) (db db' : AccountsDatabase Index) : Prop where
  accounts : db.accounts.Within db'.accounts
  inserted : db'.inserted index = db.inserted index

/-- The transaction that a command belongs to. -/
def Requires (index : Index) : {Reply : Type} → AccountCommand Reply →
    AccountsDatabase Index → Prop
  | _, .findUnique _, db => db.inserted index = none
  | _, .createUser name, db => db.inserted index = none ∧ name = trim (username index)
  | _, .createWallet userId input, db => ∃ user : User, db.inserted index = some ⟨user, none⟩ ∧
      userId = user.id ∧ input = buildInitialWalletCreateInput
  | _, .commit, db => ∃ user : User, db.inserted index = some ⟨user, some user.starterWallet⟩
  | _, .rollback, _ => True

variable {accounts username} {index : Index} {db db' : AccountsDatabase Index}

theorem Rely.refl (index : Index) (db : AccountsDatabase Index) : Rely index db db :=
  ⟨.refl _, rfl⟩

theorem Rely.trans {db'' : AccountsDatabase Index} (h : Rely index db db')
    (h' : Rely index db' db'') : Rely index db db'' :=
  ⟨h.accounts.trans h'.accounts, h'.inserted.trans h.inserted⟩

variable [DecidableEq Index]

/-- A row of the transaction under way replaces the one before. -/
theorem Sound.put (h : Sound accounts username db) {entry : Option UserWithOptionalWallet}
    (hEntry : ∀ row, entry = some row → db.accounts.IsNew row.toUser ∧
      row.username = trim (username index) ∧
      (∀ wallet ∈ row.wallet, wallet = row.toUser.starterWallet) ∧
      ∀ other row', other ≠ index → db.inserted other = some row' →
        row'.id ≠ row.id ∧ row'.username ≠ row.username) :
    Sound accounts username (db.put index entry) := by
  refine ⟨h.kept, h.minted, fun other row hRow => ?_,
    fun first second row row' hNe hRow hRow' => ?_⟩
  · by_cases hOther : other = index
    · rw [hOther, AccountsDatabase.inserted_put_self] at hRow
      obtain ⟨hNew, hName, hWallet, _⟩ := hEntry row hRow
      exact ⟨hNew, hOther ▸ hName, hWallet⟩
    · rw [AccountsDatabase.inserted_put_of_ne hOther] at hRow
      exact h.pending other row hRow
  · by_cases hFirst : first = index
    · rw [hFirst, AccountsDatabase.inserted_put_self] at hRow
      rw [hFirst] at hNe
      rw [AccountsDatabase.inserted_put_of_ne hNe] at hRow'
      exact (hEntry row hRow).2.2.2 second row' hNe hRow'
    · rw [AccountsDatabase.inserted_put_of_ne hFirst] at hRow
      by_cases hSecond : second = index
      · rw [hSecond, AccountsDatabase.inserted_put_self] at hRow'
        obtain ⟨hId, hName⟩ := (hEntry row' hRow').2.2.2 first row hFirst hRow
        exact ⟨hId.symm, hName.symm⟩
      · rw [AccountsDatabase.inserted_put_of_ne hSecond] at hRow'
        exact h.apart first second row row' hNe hRow hRow'

theorem Sound.clear (h : Sound accounts username db) :
    Sound accounts username (db.put index none) :=
  h.put fun _ hRow => by cases hRow

theorem rely_put {entry : Option UserWithOptionalWallet} {other : Index} (hOther : other ≠ index) :
    Rely other db (db.put index entry) :=
  ⟨.refl _, AccountsDatabase.inserted_put_of_ne hOther⟩

/-- A commit keeps the rows of the other transactions insertable. -/
theorem Sound.commit (h : Sound accounts username db) {user : User} {accounts' : Accounts}
    (hInserted : db.inserted index = some ⟨user, some user.starterWallet⟩)
    (hCreate : db.accounts.create user user.starterWallet = some accounts') :
    Sound accounts username { db.put index none with accounts := accounts' } ∧
      db.accounts.Within accounts' := by
  obtain ⟨hNew, _, hUsers, hWallets⟩ := Accounts.create_eq_some hCreate
  have hWithin : db.accounts.Within accounts' :=
    ⟨fun row hRow => (hUsers row).mpr (Or.inl hRow),
      fun row hRow => (hWallets row).mpr (Or.inl hRow)⟩
  refine ⟨⟨h.kept.trans hWithin, fun row hRow hOld => ?_, fun other row hRow => ?_,
    h.clear.apart⟩, hWithin⟩
  · rcases (hUsers row).mp hRow with hBefore | rfl
    · obtain ⟨hAsked, hWallet⟩ := h.minted row hBefore hOld
      exact ⟨hAsked, hWithin.wallets _ hWallet⟩
    · exact ⟨⟨index, (h.pending index _ hInserted).2.1⟩, (hWallets _).mpr (Or.inr rfl)⟩
  · have hOther : other ≠ index := by
      rintro rfl
      rw [AccountsDatabase.inserted_put_self] at hRow
      cases hRow
    rw [AccountsDatabase.inserted_put_of_ne hOther] at hRow
    obtain ⟨hRowNew, hName, hWallet⟩ := h.pending other row hRow
    obtain ⟨hId, hUsername⟩ := h.apart index other _ row hOther hInserted hRow
    refine ⟨⟨Table.find?_eq_none_iff.mpr fun stored hStored => ?_, fun stored hStored => ?_,
      hRowNew.2.2⟩, hName, hWallet⟩
    · rcases (hUsers stored).mp hStored with hBefore | rfl
      · exact Table.find?_eq_none_iff.mp hRowNew.1 stored hBefore
      · exact hId.symm
    · rcases (hUsers stored).mp hStored with hBefore | rfl
      · exact hRowNew.2.1 stored hBefore
      · exact hUsername.symm

variable (accounts username) in
/-- A login relies on its own row and on what is committed, and keeps the
database sound for the others. -/
def contract : Contract (accountService Index) where
  Sound := Sound accounts username
  Rely := Rely
  Requires := fun index _ => Requires username index
  refl := Rely.refl
  trans := Rely.trans
  answer := by
    intro index Reply command db reply db' hSound hRequires hAnswers
    cases command with
    | findUnique name =>
        obtain ⟨_, rfl⟩ := hAnswers
        exact ⟨hSound, fun other _ => Rely.refl other _⟩
    | createUser name =>
        cases hAnswers with
        | tooLong long => exact ⟨hSound, fun other _ => Rely.refl other _⟩
        | taken user committed name => exact ⟨hSound, fun other _ => Rely.refl other _⟩
        | created id isNew alone =>
            refine ⟨hSound.put fun row hRow => ?_, fun other hOther => rely_put hOther⟩
            cases hRow
            refine ⟨isNew, hRequires.2, fun wallet hWallet => ?_,
              fun other row' _ hRow' => alone other row' hRow'⟩
            cases hWallet
    | createWallet userId input =>
        obtain ⟨_, _, _, rfl⟩ := hRequires
        obtain ⟨user, pending, rfl, _, rfl⟩ := hAnswers
        refine ⟨hSound.put fun row hRow => ?_, fun other hOther => rely_put hOther⟩
        cases hRow
        obtain ⟨hNew, hName, _⟩ := hSound.pending index _ pending
        refine ⟨hNew, hName, fun wallet hWallet => ?_, fun other row' hOther hRow' => ?_⟩
        · cases hWallet
          rfl
        · exact hSound.apart index other ⟨user, none⟩ row' hOther pending hRow'
    | commit =>
        obtain ⟨user, hInserted⟩ := hRequires
        cases hAnswers with
        | committed pending visible =>
            rw [pending] at hInserted
            cases hInserted
            obtain ⟨hCommitted, hWithin⟩ := hSound.commit pending visible
            exact ⟨hCommitted, fun other hOther =>
              ⟨hWithin, AccountsDatabase.inserted_put_of_ne hOther⟩⟩
        | orphan pending => exact ⟨hSound.clear, fun other hOther => rely_put hOther⟩
    | rollback =>
        obtain ⟨_, rfl⟩ := hAnswers
        exact ⟨hSound.clear, fun other hOther => rely_put hOther⟩

end Discipline

section Calls

variable [DecidableEq Index] {accounts : Accounts} {username : Index → String} {index : Index}
  {db : AccountsDatabase Index}

/-- A lookup finds a committed user with its wallet, or there was none. -/
theorem findByUsername_safe (name : String) (hIdle : db.inserted index = none) :
    (contract accounts username).Safe index (UsersService.findByUsername name) db
      (fun result now => ∃ found, result = .ok found ∧ now.inserted index = none ∧
        ((found = none ∧ ∀ user ∈ db.accounts.users, user.username ≠ name) ∨
          ∃ user, found = some user ∧ now.accounts.Has user ∧ user.username = name)) := by
  apply Contract.Safe.bind_of_ok (R := fun row now => now.inserted index = none ∧
    ((row = none ∧ ∀ user ∈ db.accounts.users, user.username ≠ name) ∨
      ∃ user wallet, row = some ⟨user, some wallet⟩ ∧ now.accounts.Has ⟨user, wallet⟩ ∧
        user.username = name))
  · apply Contract.Safe.perform
    intro now _ hRely
    refine ⟨hRely.inserted.trans hIdle, fun reply later last hAnswers _ hLater => ?_⟩
    obtain ⟨rfl, rfl⟩ := hAnswers
    refine ⟨_, rfl, (hLater.inserted.trans hRely.inserted).trans hIdle, ?_⟩
    cases hFound : later.accounts.findUnique name with
    | none =>
        have hNone := Accounts.findUnique_eq_none.mp hFound
        exact Or.inl ⟨rfl, fun user hUser => hNone user (hRely.accounts.users user hUser)⟩
    | some row =>
        obtain ⟨hUser, hName, wallet, hWallet, hUserId, hRow⟩ := Accounts.of_findUnique hFound
        refine Or.inr ⟨row.toUser, wallet, ?_, hLater.accounts.has ⟨hUser, hWallet, hUserId⟩,
          hName⟩
        rw [← hRow]
  · intro row now _ hRow
    obtain ⟨hNow, ⟨rfl, hMissing⟩ | ⟨user, wallet, rfl, hHas, hName⟩⟩ := hRow
    · exact fun last _ hLater => ⟨_, rfl, hLater.inserted.trans hNow, Or.inl ⟨rfl, hMissing⟩⟩
    · exact fun last _ hLater =>
        ⟨_, rfl, hLater.inserted.trans hNow, Or.inr ⟨_, rfl, hLater.accounts.has hHas, hName⟩⟩

/-- Why the insert of a username fails. -/
def Refused (name : String) (failure : AccountFailure) (db : AccountsDatabase Index) : Prop :=
  (failure = .knownRequest "P2002" ∧ ∃ user ∈ db.accounts.users, user.username = name) ∨
    (failure = .knownRequest "P2000" ∧ usernameMax < name.length)

omit [DecidableEq Index] in
theorem Refused.within {name : String} {failure : AccountFailure} {db' : AccountsDatabase Index}
    (h : Refused name failure db) (hWithin : db.accounts.Within db'.accounts) :
    Refused name failure db' := by
  rcases h with ⟨hFailure, user, hUser, hName⟩ | hLong
  · exact Or.inl ⟨hFailure, user, hWithin.users user hUser, hName⟩
  · exact Or.inr hLong

/-- The rows that a transaction inserts are its own until it ends. -/
theorem insert_safe (hIdle : db.inserted index = none) :
    (contract accounts username).Safe index
      (do
        let user ← Process.perform (.createUser (trim (username index)))
        let wallet ← Process.perform (.createWallet user.id buildInitialWalletCreateInput)
        return (⟨user, some wallet⟩ : UserWithOptionalWallet) :
          AccountProcess UserWithOptionalWallet) db
      (fun result now => match result with
        | .ok row => now.inserted index = some row ∧ row.username = trim (username index) ∧
            row.wallet = some row.toUser.starterWallet
        | .error failure => Refused (trim (username index)) failure now) := by
  apply Contract.Safe.bind (Q := fun result now => match result with
    | .ok user => now.inserted index = some ⟨user, none⟩ ∧ user.username = trim (username index)
    | .error failure => Refused (trim (username index)) failure now)
  · apply Contract.Safe.perform
    intro now _ hRely
    refine ⟨⟨hRely.inserted.trans hIdle, rfl⟩, fun reply later last hAnswers _ hLater => ?_⟩
    cases hAnswers with
    | tooLong long => exact Or.inr ⟨rfl, long⟩
    | taken user committed name =>
        exact Or.inl ⟨rfl, user, hLater.accounts.users user committed, name⟩
    | created id isNew alone =>
        exact ⟨hLater.inserted.trans AccountsDatabase.inserted_put_self, rfl⟩
  · intro user now _ hUser
    obtain ⟨hNow, hName⟩ := hUser
    apply Contract.Safe.bind_of_ok (R := fun wallet now =>
      wallet = user.starterWallet ∧ now.inserted index = some ⟨user, some user.starterWallet⟩)
    · apply Contract.Safe.perform
      intro before _ hRely
      refine ⟨⟨user, hRely.inserted.trans hNow, rfl, rfl⟩,
        fun reply later last hAnswers _ hLater => ?_⟩
      obtain ⟨_, pending, _, rfl, rfl⟩ := hAnswers
      rw [hRely.inserted.trans hNow] at pending
      cases pending
      exact ⟨_, rfl, rfl, hLater.inserted.trans AccountsDatabase.inserted_put_self⟩
    · intro wallet before _ hWallet
      obtain ⟨rfl, hBefore⟩ := hWallet
      exact fun last _ hLater => ⟨hLater.inserted.trans hBefore, hName, rfl⟩
  · exact fun failure now _ hFailed => hFailed

/-- A commit leaves the user and its starter wallet stored. -/
theorem commit_safe {user : User}
    (hInserted : db.inserted index = some ⟨user, some user.starterWallet⟩) :
    (contract accounts username).Safe index (.perform .commit) db
      (fun result now => ∃ value, result = .ok value ∧ now.inserted index = none ∧
        now.accounts.Has ⟨user, user.starterWallet⟩) := by
  apply Contract.Safe.perform
  intro now _ hRely
  have hNow := hRely.inserted.trans hInserted
  refine ⟨⟨user, hNow⟩, fun reply later last hAnswers _ hLater => ?_⟩
  cases hAnswers with
  | committed pending visible =>
      rw [hNow] at pending
      cases pending
      obtain ⟨_, hUserId, hUsers, hWallets⟩ := Accounts.create_eq_some visible
      exact ⟨_, rfl, hLater.inserted.trans AccountsDatabase.inserted_put_self,
        hLater.accounts.has ⟨(hUsers _).mpr (Or.inr rfl), (hWallets _).mpr (Or.inr rfl), hUserId⟩⟩
  | orphan pending =>
      rw [hNow] at pending
      cases pending

theorem rollback_safe : (contract accounts username).Safe index (.perform .rollback) db
    (fun result now => ∃ value, result = .ok value ∧ now.inserted index = none ∧
      db.accounts.Within now.accounts) := by
  apply Contract.Safe.perform
  intro now _ hRely
  refine ⟨trivial, fun reply later last hAnswers _ hLater => ?_⟩
  obtain ⟨rfl, rfl⟩ := hAnswers
  have hWithin : db.accounts.Within now.accounts := hRely.accounts
  exact ⟨_, rfl, hLater.inserted.trans AccountsDatabase.inserted_put_self,
    hWithin.trans hLater.accounts⟩

/-- A failed insert leaves nothing behind. A user that is returned is committed,
with its starter wallet. -/
theorem createWithWallet_safe (hIdle : db.inserted index = none) :
    (contract accounts username).Safe index
      (UsersService.createWithWallet (trim (username index))) db
      (fun result now => now.inserted index = none ∧ match result with
        | .ok user => now.accounts.Has user ∧ user.username = trim (username index)
        | .error failure => Refused (trim (username index)) failure now) := by
  apply Contract.Safe.bind (Q := fun result now => now.inserted index = none ∧ match result with
    | .ok row => row.wallet = some row.toUser.starterWallet ∧
        now.accounts.Has ⟨row.toUser, row.toUser.starterWallet⟩ ∧
        row.username = trim (username index)
    | .error failure => Refused (trim (username index)) failure now)
  · apply Contract.Safe.bind_of_ok (insert_safe hIdle).attempt
    intro caught now _ hCaught
    cases caught with
    | ok row =>
        obtain ⟨user, wallet⟩ := row
        obtain ⟨hInserted, hName, hWallet⟩ := hCaught
        dsimp only at hWallet
        subst hWallet
        apply Contract.Safe.bind_of_ok (commit_safe hInserted)
        intro value before _ hStored
        exact fun last _ hLater =>
          ⟨hLater.inserted.trans hStored.1, rfl, hLater.accounts.has hStored.2, hName⟩
    | error failure =>
        apply Contract.Safe.bind_of_ok rollback_safe
        intro value before _ hBefore
        exact fun last _ hLater => ⟨hLater.inserted.trans hBefore.1,
          hCaught.within (hBefore.2.trans hLater.accounts)⟩
  · intro row now _ hRow
    obtain ⟨user, wallet⟩ := row
    obtain ⟨hNow, hWallet, hHas, hName⟩ := hRow
    dsimp only at hWallet
    subst hWallet
    exact fun last _ hLater => ⟨hLater.inserted.trans hNow, hLater.accounts.has hHas, hName⟩
  · exact fun failure now _ hFailed => hFailed

/-- How a login ends: with the session of the one user of its name, or because
the name is too long. -/
def Ends (signAsync : JwtPayload → String) (name : String) (index : Index)
    (result : Except AccountFailure AuthSessionResponse) (db : AccountsDatabase Index) : Prop :=
  db.inserted index = none ∧ match result with
    | .ok session => ∃ user, db.accounts.Has user ∧ user.username = name ∧
        session = AuthService.buildSession signAsync user
    | .error failure => failure = .knownRequest "P2000" ∧ usernameMax < name.length

/-- A user that was found is stored from then on. -/
theorem session_safe {signAsync : JwtPayload → String} {user : UserWithWallet} {name : String}
    (hIdle : db.inserted index = none) (hHas : db.accounts.Has user)
    (hName : user.username = name) : (contract accounts username).Safe index
      (pure (AuthService.buildSession signAsync user) : AccountProcess AuthSessionResponse) db
      (Ends signAsync name index) :=
  fun _ _ hRely => ⟨hRely.inserted.trans hIdle, user, hRely.accounts.has hHas, hName, rfl⟩

/-- The second lookup finds the user that the insert met. -/
theorem login_safe (signAsync : JwtPayload → String) (hIdle : db.inserted index = none) :
    (contract accounts username).Safe index (AuthService.login signAsync (username index)) db
      (Ends signAsync (trim (username index)) index) := by
  apply Contract.Safe.bind_of_ok (findByUsername_safe (trim (username index)) hIdle)
  intro found now _ hFound
  obtain ⟨hNow, ⟨rfl, _⟩ | ⟨user, rfl, hHas, hName⟩⟩ := hFound
  · apply Contract.Safe.bind_of_ok (createWithWallet_safe hNow).attempt
    intro caught before _ hCaught
    obtain ⟨hBefore, hEnds⟩ := hCaught
    cases caught with
    | ok user => exact session_safe hBefore hEnds.1 hEnds.2
    | error failure =>
        rcases hEnds with ⟨rfl, user, hUser, hUsername⟩ | ⟨rfl, hLong⟩
        · apply Contract.Safe.bind_of_ok (findByUsername_safe (trim (username index)) hBefore)
          intro found last _ hFound
          obtain ⟨hLast, ⟨_, hMissing⟩ | ⟨user, rfl, hHas, hName⟩⟩ := hFound
          · exact absurd hUsername (hMissing user hUser)
          · exact session_safe hLast hHas hName
        · exact fun last _ hLater => ⟨hLater.inserted.trans hBefore, rfl, hLong⟩
  · exact session_safe hNow hHas hName

end Calls

section Length

theorem ensureWallet_atMost (user : UserWithOptionalWallet) :
    AtMost 0 (UsersService.ensureWallet user) := by
  rw [UsersService.ensureWallet]
  cases user.wallet with
  | none => exact .throw _
  | some wallet => exact .pure _

theorem findByUsername_atMost (name : String) : AtMost 1 (UsersService.findByUsername name) := by
  change AtMost (1 + 0) _
  apply AtMost.bind (.perform _)
  intro found
  cases found with
  | none => exact .pure _
  | some row =>
      change AtMost (0 + 0) _
      exact (ensureWallet_atMost row).bind fun _ => .pure _

theorem transaction_atMost {Result : Type} {count : Nat} {body : AccountProcess Result}
    (h : AtMost count body) : AtMost (count + 1) (transaction body) := by
  apply h.attempt.bind
  intro caught
  change AtMost (1 + 0) _
  cases caught with
  | ok result => exact (AtMost.perform _).bind fun _ => .pure _
  | error failure => exact (AtMost.perform _).bind fun _ => .throw _

theorem createWithWallet_atMost (name : String) :
    AtMost 3 (UsersService.createWithWallet name) := by
  change AtMost (1 + 1 + 1 + 0) _
  apply AtMost.bind (transaction_atMost _) ensureWallet_atMost
  apply (AtMost.perform _).bind
  intro user
  change AtMost (1 + 0) _
  exact (AtMost.perform _).bind fun _ => .pure _

/-- Two lookups and one transaction of three commands. -/
theorem login_atMost (signAsync : JwtPayload → String) (name : String) :
    AtMost 5 (AuthService.login signAsync name) := by
  change AtMost (1 + (3 + (1 + 0))) _
  apply (findByUsername_atMost _).bind
  intro found
  cases found with
  | some user => exact .pure _
  | none =>
      apply (createWithWallet_atMost _).attempt.bind
      intro caught
      cases caught with
      | ok user => exact .pure _
      | error failure =>
          dsimp only
          split_ifs
          · exact .throw _
          · apply (findByUsername_atMost _).bind
            intro found
            cases found with
            | none => exact .throw _
            | some user => exact .pure _

end Length

section Progress

variable [DecidableEq Index] {accounts : Accounts} {username : Index → String} {index : Index}
  {db : AccountsDatabase Index}

theorem exists_id (accounts : Accounts) : ∃ id, accounts.users.find? id = none := by
  obtain ⟨id, hId⟩ := Infinite.exists_notMem_finset (accounts.users.rows.map User.id).toFinset
  rw [List.mem_toFinset] at hId
  exact ⟨id, Table.find?_eq_none_iff.mpr fun user hUser hEq =>
    hId (hEq ▸ List.mem_map_of_mem hUser)⟩

/-- A command is answered, unless the transaction of another login has rows and
this one has none. -/
theorem answerable_or_waiting (hSound : Sound accounts username db) {Reply : Type}
    {command : AccountCommand Reply}
    {next : Except AccountFailure Reply → AccountProcess AuthSessionResponse}
    (hRequires : Requires username index command db) :
    (accountService Index).Answerable index db (.issue command next) ∨
      (db.inserted index = none ∧ ∃ other row, db.inserted other = some row) := by
  cases command with
  | findUnique name => exact Or.inl ⟨⟨rfl, rfl⟩⟩
  | createUser name =>
      by_cases hOpen : ∃ other row, db.inserted other = some row
      · exact Or.inr ⟨hRequires.1, hOpen⟩
      · left
        by_cases hLong : usernameMax < name.length
        · exact ⟨.tooLong hLong⟩
        · by_cases hTaken : ∃ user ∈ db.accounts.users.rows, user.username = name
          · obtain ⟨user, hUser, hName⟩ := hTaken
            exact ⟨.taken user hUser hName⟩
          · obtain ⟨id, hId⟩ := exists_id db.accounts
            exact ⟨.created id
              ⟨hId, fun user hUser hName => hTaken ⟨user, hUser, hName⟩, not_lt.mp hLong⟩
              fun other row hRow => absurd ⟨other, row, hRow⟩ hOpen⟩
  | createWallet userId input =>
      obtain ⟨user, hInserted, rfl, _⟩ := hRequires
      exact Or.inl ⟨⟨user, hInserted, rfl, rfl, rfl⟩⟩
  | commit =>
      obtain ⟨user, hInserted⟩ := hRequires
      obtain ⟨accounts', hCreate⟩ :=
        @Accounts.exists_create _ _ user.starterWallet (hSound.pending index _ hInserted).1 rfl
      exact Or.inl ⟨.committed hInserted hCreate⟩
  | rollback => exact Or.inl ⟨⟨rfl, rfl⟩⟩

variable {signAsync : Index → JwtPayload → String}
  {state : State AccountCommand AccountFailure AuthSessionResponse (AccountsDatabase Index) Index}

/-- A transaction that has inserted a row can go on. -/
theorem answerable_of_inserted
    (h : (contract accounts username).Holds
      (fun index => Ends (signAsync index) (trim (username index)) index) state)
    {row : UserWithOptionalWallet} (hInserted : state.world.inserted index = some row) :
    (accountService Index).Answerable index state.world (state.calls index) := by
  cases hCall : state.calls index with
  | pure session =>
      have hIdle := (h.result (show _ = ended (.ok session) from hCall)).1
      rw [hInserted] at hIdle
      cases hIdle
  | throw failure =>
      have hIdle := (h.result (show _ = ended (.error failure) from hCall)).1
      rw [hInserted] at hIdle
      cases hIdle
  | issue command next =>
      rcases answerable_or_waiting h.sound (h.requires hCall) with hAnswerable | ⟨hIdle, _⟩
      · exact hAnswerable
      · rw [hInserted] at hIdle
        cases hIdle

/-- The logins never wait for each other in a circle. -/
theorem finished_or_step
    (h : (contract accounts username).Holds
      (fun index => Ends (signAsync index) (trim (username index)) index) state) :
    state.Finished ∨ ∃ next, (accountService Index).Step state next := by
  by_cases hOpen : ∃ index row, state.world.inserted index = some row
  · obtain ⟨index, row, hInserted⟩ := hOpen
    exact Or.inr (answerable_of_inserted h hInserted).step
  · by_cases hFinished : state.Finished
    · exact Or.inl hFinished
    · rw [State.Finished, not_forall] at hFinished
      obtain ⟨index, hRunning⟩ := hFinished
      cases hCall : state.calls index with
      | pure session => exact absurd ⟨.ok session, hCall⟩ hRunning
      | throw failure => exact absurd ⟨.error failure, hCall⟩ hRunning
      | issue command next =>
          rcases answerable_or_waiting h.sound (h.requires hCall) with hAnswerable | ⟨_, hOther⟩
          · rw [← hCall] at hAnswerable
            exact Or.inr hAnswerable.step
          · exact absurd hOther hOpen

end Progress

/-- Calls of `login` that have not started, on these accounts. -/
def logins (signAsync : Index → JwtPayload → String) (username : Index → String)
    (accounts : Accounts) :
    State AccountCommand AccountFailure AuthSessionResponse (AccountsDatabase Index) Index :=
  ⟨.start accounts, fun index => AuthService.login (signAsync index) (username index)⟩

theorem holds_logins [DecidableEq Index] (signAsync : Index → JwtPayload → String)
    (username : Index → String) (accounts : Accounts) :
    (contract accounts username).Holds
      (fun index => Ends (signAsync index) (trim (username index)) index)
      (logins signAsync username accounts) where
  sound := {
    kept := .refl _
    minted := fun _ hUser hNew => absurd hUser hNew
    pending := fun _ _ hRow => by cases hRow
    apart := fun _ _ _ _ _ hRow => by cases hRow }
  safe index := login_safe (signAsync index) rfl

/-- In every interleaving of a finite set of logins, each login ends after at
most five answers and none waits forever. Users and wallets that existed are
kept, and a new user is one that was asked for, with the starter balances. A
login fails only for a name that is too long. In the end there is one user with
one wallet for each name, and every login for the name has its session. -/
theorem starter_funds_once [Fintype Index] [DecidableEq Index]
    (signAsync : Index → JwtPayload → String) (username : Index → String) (accounts : Accounts)
    {count : Nat}
    {last : State AccountCommand AccountFailure AuthSessionResponse (AccountsDatabase Index) Index}
    (hRun : (accountService Index).Takes count (logins signAsync username accounts) last) :
    count ≤ 5 * Fintype.card Index ∧
    (last.Finished ∨ ∃ next, (accountService Index).Step last next) ∧
    (∀ user ∈ accounts.users, user ∈ last.world.accounts.users) ∧
    (∀ wallet ∈ accounts.wallets, wallet ∈ last.world.accounts.wallets) ∧
    (∀ user ∈ last.world.accounts.users, user ∉ accounts.users →
      (∃ index, user.username = trim (username index)) ∧
      ⟨user.id, 100 * one, 0, 100000 * one, 0⟩ ∈ last.world.accounts.wallets) ∧
    (∀ index failure, last.calls index = .throw failure → 50 < (trim (username index)).length) ∧
    (last.Finished → ∀ index, (trim (username index)).length ≤ 50 → ∃ user wallet,
      last.world.accounts.users.rows.filter (fun row => row.username = trim (username index)) =
        [user] ∧
      last.world.accounts.wallets.rows.filter (fun row => row.userId = user.id) = [wallet] ∧
      (user ∈ accounts.users → wallet ∈ accounts.wallets) ∧
      (user ∉ accounts.users → wallet = ⟨user.id, 100 * one, 0, 100000 * one, 0⟩) ∧
      ∀ other, trim (username other) = trim (username index) →
        last.calls other = .pure (AuthService.buildSession (signAsync other) ⟨user, wallet⟩)) := by
  have hHolds := (holds_logins signAsync username accounts).of_takes hRun
  have hSound : Sound accounts username last.world := hHolds.sound
  have hLength : count ≤ ∑ _index : Index, 5 :=
    Service.Takes.length_le (fun index => login_atMost (signAsync index) (username index)) hRun
  rw [Finset.sum_const, Finset.card_univ, smul_eq_mul, mul_comm] at hLength
  have hThrown : ∀ index failure, last.calls index = .throw failure →
      50 < (trim (username index)).length := fun index failure hCall =>
    (hHolds.result (show _ = ended (.error failure) from hCall)).2.2
  have hSession : last.Finished → ∀ index, (trim (username index)).length ≤ 50 → ∃ stored,
      last.world.accounts.Has stored ∧ stored.username = trim (username index) ∧
      last.calls index = .pure (AuthService.buildSession (signAsync index) stored) := by
    intro hFinished index hShort
    obtain ⟨result, hCall⟩ := hFinished index
    cases result with
    | ok session =>
        obtain ⟨_, stored, hHas, hName, rfl⟩ := hHolds.result hCall
        exact ⟨stored, hHas, hName, hCall⟩
    | error failure => exact absurd (hThrown index failure hCall) (not_lt.mpr hShort)
  refine ⟨hLength, finished_or_step hHolds, hSound.kept.users, hSound.kept.wallets, hSound.minted,
    hThrown,
    fun hFinished index hShort => ?_⟩
  obtain ⟨stored, hHas, hName, _⟩ := hSession hFinished index hShort
  have hOwn : ∀ wallet ∈ last.world.accounts.wallets, wallet.userId = stored.id →
    stored.wallet = wallet :=
    fun wallet hWallet hUserId =>
      List.inj_on_of_nodup_map last.world.accounts.wallets.nodup hHas.wallet
      hWallet (hHas.userId.trans hUserId.symm)
  refine ⟨stored.toUser, stored.wallet, ?_, ?_, fun hOld => ?_, fun hNew => ?_,
    fun other hOther => ?_⟩
  · rw [← hName]
    exact Accounts.filter_username hHas.user
  · rw [← hHas.userId]
    exact Accounts.filter_userId hHas.wallet
  · obtain ⟨wallet, hFound⟩ := Option.isSome_iff_exists.mp (accounts.mustHaveWallet _ hOld)
    have hWallet := Table.mem_of_find? hFound
    rw [hOwn wallet (hSound.kept.wallets wallet hWallet) (Table.key_of_find? hFound)]
    exact hWallet
  · exact hOwn _ (hSound.minted _ hHas.user hNew).2 rfl
  · obtain ⟨stored', hHas', hName', hCall⟩ := hSession hFinished other (hOther ▸ hShort)
    have hSame : stored' = stored :=
      hHas.eq_of_username hHas' (hName'.trans (hOther.trans hName.symm))
    rw [hCall, hSame]

/-- Two logins miss the user, and the second meets it at its insert. -/
theorem logins_sample : ∃ last,
    (accountService Bool).Takes 8
      (logins (fun _ payload => payload.sub)
        (fun index => bif index then "alice" else " alice ") .empty) last ∧ last.Finished := by
  have hTrim : trim " alice " = trim "alice" := by decide +kernel
  have hNew : Accounts.empty.IsNew ⟨"1", trim "alice"⟩ := by decide +kernel
  obtain ⟨accounts, hCreate⟩ :=
    @Accounts.exists_create .empty ⟨"1", trim "alice"⟩
      (User.starterWallet ⟨"1", trim "alice"⟩) hNew rfl
  obtain ⟨_, _, hUsers, _⟩ := Accounts.create_eq_some hCreate
  have hUser : (⟨"1", trim "alice"⟩ : User) ∈ accounts.users := (hUsers _).mpr (Or.inr rfl)
  have hAlone : ∀ (other : Bool) row, (AccountsDatabase.start .empty).inserted other = some row →
      row.id ≠ "1" ∧ row.username ≠ trim "alice" := by
    intro other row hRow
    cases hRow
  cases hFound : accounts.findUnique (trim " alice ") with
  | none => exact absurd hTrim.symm (Accounts.findUnique_eq_none.mp hFound _ hUser)
  | some row =>
      obtain ⟨user, wallet⟩ := row
      obtain ⟨_, _, wallet, _, _, rfl⟩ := Accounts.of_findUnique hFound
      refine ⟨_, .succ (.answer true _ _ rfl ⟨rfl, rfl⟩) <|
        .succ (.answer false _ _ rfl ⟨rfl, rfl⟩) <|
        .succ (.answer true _ _ rfl (AccountsDatabase.Inserts.created "1" hNew hAlone)) <|
        .succ (.answer true _ _ rfl ⟨_, rfl, rfl, rfl, rfl⟩) <|
        .succ (.answer true _ _ rfl (AccountsDatabase.Commits.committed rfl hCreate)) <|
        .succ (.answer false _ _ rfl (AccountsDatabase.Inserts.taken _ hUser hTrim.symm)) <|
        .succ (.answer false _ _ rfl ⟨rfl, rfl⟩) <|
        .succ (.answer false _ _ rfl ⟨congrArg _ hFound.symm, rfl⟩) <| .zero _, ?_⟩
      intro index
      cases index with
      | true => exact ⟨.ok _, rfl⟩
      | false => exact ⟨.ok _, rfl⟩

theorem starter_funds_once_sample : ∃ last,
    (accountService Bool).Takes 8
      (logins (fun _ payload => payload.sub)
        (fun index => bif index then "alice" else " alice ") .empty) last ∧
    ∃ user, last.world.accounts.users.rows.filter (fun row => row.username = trim "alice") =
      [user] ∧ last.world.accounts.wallets.rows.filter (fun row => row.userId = user.id) =
        [⟨user.id, 100 * one, 0, 100000 * one, 0⟩] ∧
      last.calls true = last.calls false := by
  have hTrim : trim " alice " = trim "alice" := by decide +kernel
  obtain ⟨last, hRun, hFinished⟩ := logins_sample
  obtain ⟨_, _, _, _, _, _, hEnds⟩ := starter_funds_once _ _ _ hRun
  obtain ⟨user, wallet, hUser, hWallet, _, hNew, hSessions⟩ :=
    hEnds hFinished true (by decide +kernel)
  rw [hNew List.not_mem_nil] at hWallet
  exact ⟨last, hRun, user, hUser, hWallet, (hSessions true rfl).trans (hSessions false hTrim).symm⟩

end Login
end ExchangeMatching
