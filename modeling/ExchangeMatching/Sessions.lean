import ExchangeMatching.Login
import ExchangeMatching.Requests

/-! Sessions tell users apart. Whatever logins run side by side, the token of a
session lets its requests and its socket act for the one user of its name. -/
namespace ExchangeMatching

open Interleaving RealtimeGateway

/-- Text without a blank is not trimmed. -/
theorem trim_of_no_blank {value : String} (h : ∀ char ∈ value.toList, isTrimmed char = false) :
    trim value = value := by
  have hKept : ∀ {chars : List Char}, (∀ char ∈ chars, isTrimmed char = false) →
      chars.dropWhile isTrimmed = chars := by
    intro chars hChars
    cases chars with
    | nil => rfl
    | cons char chars =>
        rw [List.dropWhile_cons, hChars char List.mem_cons_self, if_neg Bool.false_ne_true]
  have hReverse : ∀ char ∈ value.toList.reverse, isTrimmed char = false :=
    fun char hChar => h char (List.mem_reverse.mp hChar)
  rw [trim, hKept h, hKept hReverse, List.reverse_reverse, String.ofList_toList]

/-- The text of a token, as it is sent in headers and handshakes. -/
structure IsTokenText (token : String) : Prop where
  nonempty : token ≠ ""
  noBlank : ∀ char ∈ token.toList, isTrimmed char = false

namespace IsTokenText

variable {token : String}

theorem noSpace (h : IsTokenText token) : ' ' ∉ token.toList := fun hSpace => by
  have hBlank := h.noBlank ' ' hSpace
  revert hBlank
  decide

/-- The guard verifies the token of the header that the client sends. -/
theorem canActivate_eq_ok (h : IsTokenText token) {verifyAsync : String → Except Thrown JwtPayload}
    {payload : JwtPayload} :
    JwtAuthGuard.canActivate verifyAsync (authorizationHeader (some token)) = .ok payload ↔
      verifyAsync token = .ok payload := by
  have hHeader : authorizationHeader (some token) =
      some (.ofList ("Bearer ".toList ++ (token.toList ++ []))) := by
    rw [authorizationHeader, Option.filter_some, if_pos (decide_eq_true h.nonempty),
      Option.map_some, List.append_nil, String.ofList_append, String.ofList_toList,
      String.ofList_toList]
  rw [JwtAuthGuard.canActivate_eq_ok, hHeader]
  constructor
  · rintro ⟨found, ⟨rest, hText, _, hFound, hRest⟩, hVerify⟩
    have hParts := List.append_cancel_left (String.ofList_injective (Option.some.inj hText))
    rw [List.append_nil] at hParts
    cases rest with
    | nil =>
        rw [List.append_nil] at hParts
        rwa [String.toList_inj.mp hParts]
    | cons char rest =>
        have hSpace : char = ' ' := hRest char rfl
        refine absurd ?_ h.noSpace
        rw [hParts, hSpace]
        exact List.mem_append_right _ List.mem_cons_self
  · exact fun hVerify => ⟨token, ⟨[], rfl, h.nonempty, h.noSpace, by simp⟩, hVerify⟩

/-- The gateway verifies the token of the handshake as it is. -/
theorem extractToken_eq (h : IsTokenText token) : extractToken (some token) = some token := by
  have hNoPrefix : bearerPrefix.toList.isPrefixOf token.toList = false := by
    rw [Bool.eq_false_iff, ne_eq, List.isPrefixOf_iff_prefix]
    rintro ⟨rest, hToken⟩
    refine h.noSpace ?_
    rw [← hToken]
    exact List.mem_append_left _ (by decide)
  simp only [extractToken, Option.map_some, trim_of_no_blank h.noBlank, Option.filter_some,
    h.nonempty, ne_eq, not_false_eq_true, decide_true, if_true, hNoPrefix, Bool.false_eq_true,
    if_false]

end IsTokenText

/-- At some time the token of a payload verifies, and it never verifies as
anything else. -/
structure Signs (signAsync : JwtPayload → String)
    (verifyAsync : Nat → String → Except Thrown JwtPayload)
    (now : Nat) (payload : JwtPayload) : Prop where
  text : IsTokenText (signAsync payload)
  verifies : verifyAsync now (signAsync payload) = .ok payload
  authentic : ∀ later other, verifyAsync later (signAsync payload) = .ok other → other = payload

namespace Login

variable {Index : Type} [DecidableEq Index]

/-- After any interleaving of logins, the token of each session lets requests act
for the user of the name that was asked for, and lets a socket into the room of
that user and no other. Two sessions act for one user exactly when their logins
asked for the same name. -/
theorem sessions_identify {signAsync : Index → JwtPayload → String} {username : Index → String}
    {accounts : Accounts} {verifyAsync : Nat → String → Except Thrown JwtPayload} {now count : Nat}
    {last : State AccountCommand AccountFailure AuthSessionResponse (AccountsDatabase Index) Index}
    (hRun : (accountService Index).Takes count (logins signAsync username accounts) last)
    (hSigns : ∀ index, ∀ user ∈ last.world.accounts.users,
      Signs (signAsync index) verifyAsync now ⟨user.id, user.username⟩) :
    (∀ index session, last.calls index = .pure session →
      ∃ user ∈ last.world.accounts.users, user.username = trim (username index) ∧
        JwtAuthGuard.canActivate (verifyAsync now)
          (authorizationHeader (some session.accessToken)) = .ok ⟨user.id, user.username⟩ ∧
        ∀ userId, Gateway.Verified verifyAsync (some session.accessToken) userId ↔
          userId = user.id) ∧
    ∀ index other session session' payload payload', last.calls index = .pure session →
      last.calls other = .pure session' →
      JwtAuthGuard.canActivate (verifyAsync now) (authorizationHeader (some session.accessToken)) =
        .ok payload →
      JwtAuthGuard.canActivate (verifyAsync now) (authorizationHeader (some session'.accessToken)) =
        .ok payload' →
      (payload.sub = payload'.sub ↔ trim (username index) = trim (username other)) := by
  have hHolds := (holds_logins signAsync username accounts).of_takes hRun
  have hSession : ∀ index session, last.calls index = .pure session → ∃ stored,
      last.world.accounts.Has stored ∧ stored.username = trim (username index) ∧
      session.accessToken = signAsync index ⟨stored.id, stored.username⟩ := by
    intro index session hCall
    obtain ⟨_, stored, hHas, hName, rfl⟩ :=
      hHolds.result (show _ = ended (.ok session) from hCall)
    exact ⟨stored, hHas, hName, rfl⟩
  have hActs : ∀ index, ∀ user ∈ last.world.accounts.users, JwtAuthGuard.canActivate
      (verifyAsync now) (authorizationHeader (some (signAsync index ⟨user.id, user.username⟩))) =
        .ok ⟨user.id, user.username⟩ := fun index user hUser =>
    (hSigns index user hUser).text.canActivate_eq_ok.mpr (hSigns index user hUser).verifies
  refine ⟨fun index session hCall => ?_,
    fun index other session session' payload payload' hCall hCall' hUser hUser' => ?_⟩
  · obtain ⟨stored, hHas, hName, hToken⟩ := hSession index session hCall
    refine ⟨stored.toUser, hHas.user, hName, hToken ▸ hActs index _ hHas.user, fun userId => ?_⟩
    have hSigned := hSigns index _ hHas.user
    have hExtract := hSigned.text.extractToken_eq
    rw [hToken]
    constructor
    · rintro ⟨token, later, payload, hFound, hVerify, rfl⟩
      rw [hExtract, Option.some.injEq] at hFound
      rw [← hFound] at hVerify
      rw [hSigned.authentic later _ hVerify]
    · rintro rfl
      exact ⟨_, now, _, hExtract, hSigned.verifies, rfl⟩
  · obtain ⟨stored, hHas, hName, hToken⟩ := hSession index session hCall
    obtain ⟨stored', hHas', hName', hToken'⟩ := hSession other session' hCall'
    rw [hToken, hActs index _ hHas.user, Except.ok.injEq] at hUser
    rw [hToken', hActs other _ hHas'.user, Except.ok.injEq] at hUser'
    subst hUser hUser'
    dsimp only
    rw [← hName, ← hName']
    constructor
    · intro hIds
      have hSame : stored.toUser = stored'.toUser :=
        List.inj_on_of_nodup_map last.world.accounts.users.nodup hHas.user hHas'.user hIds
      rw [hSame]
    · intro hNames
      rw [hHas'.eq_of_username hHas hNames]

/-- Two logins for one name find the user. -/
theorem sessions_identify_sample : ∃ (last : State AccountCommand AccountFailure AuthSessionResponse
    (AccountsDatabase Bool) Bool) (session session' : AuthSessionResponse),
    last.calls true = .pure session ∧ last.calls false = .pure session' ∧
    ∀ payload payload', JwtAuthGuard.canActivate (Gateway.Sample.verifyAsync 0)
        (authorizationHeader (some session.accessToken)) = .ok payload →
      JwtAuthGuard.canActivate (Gateway.Sample.verifyAsync 0)
        (authorizationHeader (some session'.accessToken)) = .ok payload' →
      payload.sub = payload'.sub := by
  have hTrim : trim " alice " = trim "alice" := by decide +kernel
  obtain ⟨accounts, hCreate⟩ := @Accounts.exists_create .empty ⟨"user 1", trim "alice"⟩
    (User.starterWallet ⟨"user 1", trim "alice"⟩) (by decide +kernel) rfl
  obtain ⟨_, _, hUsers, _⟩ := Accounts.create_eq_some hCreate
  have hUser : (⟨"user 1", trim "alice"⟩ : User) ∈ accounts.users := (hUsers _).mpr (Or.inr rfl)
  cases hFound : accounts.findUnique (trim "alice") with
  | none => exact absurd rfl (Accounts.findUnique_eq_none.mp hFound _ hUser)
  | some row =>
      obtain ⟨user, wallet⟩ := row
      obtain ⟨_, _, wallet, _, _, rfl⟩ := Accounts.of_findUnique hFound
      obtain ⟨last, hRun, hTrue, hFalse, hAccounts⟩ : ∃ last, (accountService Bool).Takes 2
          (logins (fun _ _ => "signed") (fun index => bif index then "alice" else " alice ")
            accounts) last ∧
          last.calls true = .pure (AuthService.buildSession (fun _ => "signed") ⟨user, wallet⟩) ∧
          last.calls false = .pure (AuthService.buildSession (fun _ => "signed") ⟨user, wallet⟩) ∧
          last.world.accounts = accounts :=
        ⟨_, .succ (.answer true _ _ rfl ⟨congrArg _ hFound.symm, rfl⟩) <|
          .succ (.answer false _ _ rfl ⟨congrArg _ ((congrArg _ hTrim).trans hFound).symm, rfl⟩) <|
            .zero _,
          rfl, rfl, rfl⟩
      have hAlice : trim "alice" = "alice" := by decide +kernel
      refine ⟨last, _, _, hTrue, hFalse, fun payload payload' hPayload hPayload' => ?_⟩
      refine ((sessions_identify hRun fun index user hUser => ?_).2 true false _ _ payload payload'
        hTrue hFalse hPayload hPayload').mpr hTrim.symm
      rw [hAccounts, hUsers, hAlice] at hUser
      rcases hUser with hNone | rfl
      · cases hNone
      · have hSigned : "signed".toList.all (isTrimmed · = false) = true := by decide +kernel
        refine ⟨⟨by decide, fun char hChar => ?_⟩, rfl,
          fun later other hOther => (Except.ok.inj hOther).symm⟩
        exact of_decide_eq_true (List.all_eq_true.mp hSigned char hChar)

end Login
end ExchangeMatching
