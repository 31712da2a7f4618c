import Medkit.Lib.Machine
import Medkit.Lib.OrderedMap
import Medkit.Lib.Bytes

/-! Tokens of the gateway: clients authenticate, refresh their access tokens and revoke
refresh tokens. Signing is taken to be correct: a token that decodes is one that was
issued. Times are readings of the system clock in nanoseconds, the times inside tokens
whole seconds. -/
namespace Medkit.Gateway

open Lib

/-! ## Configuration -/

inductive UserRole where
  | viewer
  | operator
  | configurator
  | admin
deriving DecidableEq

def roleToString : UserRole → Str
  | .viewer => str "viewer"
  | .operator => str "operator"
  | .configurator => str "configurator"
  | .admin => str "admin"

structure ClientCredentials where
  clientId : Str
  clientSecret : Str
  role : UserRole := .viewer
  enabled : Bool := true

structure AuthConfig where
  tokenExpirySeconds : Int := 3600
  refreshTokenExpirySeconds : Int := 86400
  issuer : Str := str "ros2_medkit_gateway"
  clients : List ClientCredentials := []

def AuthConfig.Accepted (config : AuthConfig) : Prop :=
  0 < config.tokenExpirySeconds ∧ 0 < config.refreshTokenExpirySeconds ∧
    config.tokenExpirySeconds ≤ config.refreshTokenExpirySeconds
deriving Decidable

/-! ## Tokens -/

inductive TokenType where
  | access
  | refresh
deriving DecidableEq

def tokenTypeToString : TokenType → Str
  | .access => str "access"
  | .refresh => str "refresh"

structure JwtClaims where
  iss : Str
  sub : Str
  exp : Int
  iat : Int
  jti : Str
  typ : TokenType := .access
  role : UserRole := .viewer
  permissions : List Str := []
  refreshTokenId : Option Str := none
deriving DecidableEq

/-- A signed token stands for its claims; any other text fails to decode with the error
that the library gives. -/
inductive Token where
  | signed (claims : JwtClaims)
  | invalid (error : Str)

structure RefreshTokenRecord where
  tokenId : Str
  clientId : Str
  role : UserRole
  issuedAt : Int
  expiresAt : Int
  revoked : Bool := false

structure AuthErrorResponse where
  error : Str
  errorDescription : Str

def invalidClient (description : Str) : AuthErrorResponse := ⟨str "invalid_client", description⟩

def invalidGrant (description : Str) : AuthErrorResponse := ⟨str "invalid_grant", description⟩

structure TokenResponse where
  accessToken : Token
  tokenType : Str := str "Bearer"
  expiresIn : Int
  refreshToken : Option Token
  scope : Str

structure TokenValidationResult where
  valid : Bool := false
  error : Str := []
  claims : Option JwtClaims := none

def nanoseconds (seconds : Int) : Int := seconds * 1000000000

def timestamp (now : Int) : Int := now / 1000000000

def JwtClaims.isExpired (claims : JwtClaims) (now : Int) : Bool := nanoseconds claims.exp < now

/-! ## The manager -/

structure AuthManager where
  clients : OMap Str ClientCredentials := ∅
  refreshTokens : OMap Str RefreshTokenRecord := ∅
  /-- what has been signed -/
  issued : List JwtClaims := []
  /-- the last reading of the clock -/
  clock : Int := 0

namespace AuthManager

variable (config : AuthConfig) (m : AuthManager)

def initial (config : AuthConfig) : AuthManager where
  clients := config.clients.foldl (fun clients client => clients.insert client.clientId client) ∅

def read (now : Int) : AuthManager := { m with clock := now }

def sign (claims : JwtClaims) : AuthManager := { m with issued := claims :: m.issued }

/-- Decoding verifies the signature, the issuer and the dates. -/
def decodeJwt (now : Int) : Token → Except Str JwtClaims
  | .invalid error => .error error
  | .signed claims =>
      if claims ∉ m.issued then .error (str "JWT decode error: invalid signature")
      else if nanoseconds claims.exp < now ∨ now < nanoseconds claims.iat then
        .error (str "Token verification failed: token expired")
      else if claims.iss ≠ config.issuer then
        .error (str "Token verification failed: claim value does not match expected value")
      else .ok claims

def accessClaims (sub : Str) (role : UserRole) (now : Int) (jti refreshTokenId : Str) : JwtClaims where
  iss := config.issuer
  sub := sub
  iat := timestamp now
  exp := timestamp now + config.tokenExpirySeconds
  jti := jti
  typ := .access
  role := role
  refreshTokenId := some refreshTokenId

def refreshClaims (sub : Str) (role : UserRole) (now : Int) (jti : Str) : JwtClaims where
  iss := config.issuer
  sub := sub
  iat := timestamp now
  exp := timestamp now + config.refreshTokenExpirySeconds
  jti := jti
  typ := .refresh
  role := role

def authenticate (clientId clientSecret : Str) (refreshId accessId : Str) (now : Int) :
    AuthManager × Except AuthErrorResponse TokenResponse :=
  match m.clients[clientId]? with
  | none => (m, .error (invalidClient (str "Unknown client_id")))
  | some client =>
      if ¬ client.enabled then (m, .error (invalidClient (str "Client is disabled")))
      else if client.clientSecret ≠ clientSecret then
        (m, .error (invalidClient (str "Invalid client_secret")))
      else
        let refresh := refreshClaims config clientId client.role now refreshId
        let record : RefreshTokenRecord :=
          { tokenId := refreshId, clientId := clientId, role := client.role,
            issuedAt := timestamp now, expiresAt := refresh.exp }
        let access := accessClaims config clientId client.role now accessId refreshId
        let m := ((m.read now).sign refresh).sign access
        ({ m with refreshTokens := m.refreshTokens.insert refreshId record },
          .ok { accessToken := .signed access, expiresIn := config.tokenExpirySeconds,
                refreshToken := some (.signed refresh), scope := roleToString client.role })

/-- The clock is read on decoding, for the expiry and for the new token. -/
def refreshAccessToken (token : Token) (accessId : Str) (decoded checked now : Int) :
    AuthManager × Except AuthErrorResponse TokenResponse :=
  match m.decodeJwt config decoded token with
  | .error error => (m.read decoded, .error (invalidGrant error))
  | .ok claims =>
      if claims.typ ≠ .refresh then
        (m.read decoded, .error (invalidGrant (str "Token is not a refresh token")))
      else
        match m.refreshTokens[claims.jti]? with
        | none => (m.read decoded, .error (invalidGrant (str "Refresh token not found")))
        | some record =>
            if record.revoked then
              (m.read decoded, .error (invalidGrant (str "Refresh token has been revoked")))
            else if claims.isExpired checked then
              (m.read checked, .error (invalidGrant (str "Refresh token has expired")))
            else
              match m.clients[claims.sub]? with
              | none => (m.read checked, .error (invalidGrant (str "Client no longer exists")))
              | some client =>
                  if ¬ client.enabled then
                    (m.read checked, .error (invalidGrant (str "Client is disabled")))
                  else
                    let access := accessClaims config claims.sub record.role now accessId claims.jti
                    ((m.read now).sign access,
                      .ok { accessToken := .signed access, expiresIn := config.tokenExpirySeconds,
                            refreshToken := some token, scope := roleToString record.role })

def validateToken (token : Token) (expectedType : TokenType) (decoded checked : Int) :
    TokenValidationResult :=
  match m.decodeJwt config decoded token with
  | .error error => { error := error }
  | .ok claims =>
      if claims.typ ≠ expectedType then
        { error := str "Invalid token type: expected " ++ tokenTypeToString expectedType ++
            str ", got " ++ tokenTypeToString claims.typ }
      else if claims.isExpired checked then { error := str "Token has expired" }
      else
        match m.clients[claims.sub]? with
        | none => { error := str "Client no longer exists" }
        | some client =>
            if ¬ client.enabled then { error := str "Client has been disabled" }
            else if (claims.refreshTokenId.bind fun id => m.refreshTokens[id]?).any (·.revoked) then
              { error := str "Associated refresh token has been revoked" }
            else { valid := true, claims := some claims }

def revokeRefreshToken (token : Token) (decoded : Int) : AuthManager × Bool :=
  match m.decodeJwt config decoded token with
  | .error _ => (m.read decoded, false)
  | .ok claims =>
      match m.refreshTokens[claims.jti]? with
      | none => (m.read decoded, false)
      | some record =>
          ({ m.read decoded with
              refreshTokens := m.refreshTokens.insert claims.jti { record with revoked := true } },
            true)

def cleanupExpiredTokens (now : Int) : AuthManager × Nat :=
  ({ m.read now with
      refreshTokens := m.refreshTokens.keep fun _ record => ¬ record.expiresAt < timestamp now },
    (m.refreshTokens.toList.filter fun entry => entry.2.expiresAt < timestamp now).length)

def registerClient (clientId clientSecret : Str) (role : UserRole) : AuthManager × Bool :=
  if clientId ∈ m.clients then (m, false)
  else
    ({ m with clients := m.clients.insert clientId ⟨clientId, clientSecret, role, true⟩ }, true)

def setEnabled (clientId : Str) (enabled : Bool) : AuthManager × Bool :=
  if clientId ∈ m.clients then
    ({ m with clients := m.clients.modify clientId fun client => { client with enabled := enabled } },
      true)
  else (m, false)

def disableClient (clientId : Str) : AuthManager × Bool := m.setEnabled clientId false

def enableClient (clientId : Str) : AuthManager × Bool := m.setEnabled clientId true

end AuthManager

/-! ## Runs -/

/-- The calls, with the ids they draw and the clock readings they make. -/
inductive AuthOp where
  | authenticate (clientId clientSecret refreshId accessId : Str) (now : Int)
  | refreshAccessToken (token : Token) (accessId : Str) (decoded checked now : Int)
  | validateToken (token : Token) (expectedType : TokenType) (decoded checked : Int)
  | revokeRefreshToken (token : Token) (decoded : Int)
  | cleanupExpiredTokens (now : Int)
  | registerClient (clientId clientSecret : Str) (role : UserRole)
  | disableClient (clientId : Str)
  | enableClient (clientId : Str)

inductive AuthReply where
  | tokens (result : Except AuthErrorResponse TokenResponse)
  | validated (result : TokenValidationResult)
  | done (success : Bool)
  | erased (count : Nat)

def authStep (config : AuthConfig) (m : AuthManager) : AuthOp → AuthManager × AuthReply
  | .authenticate clientId clientSecret refreshId accessId now =>
      let (m, result) := m.authenticate config clientId clientSecret refreshId accessId now
      (m, .tokens result)
  | .refreshAccessToken token accessId decoded checked now =>
      let (m, result) := m.refreshAccessToken config token accessId decoded checked now
      (m, .tokens result)
  | .validateToken token expectedType decoded checked =>
      (m.read checked, .validated (m.validateToken config token expectedType decoded checked))
  | .revokeRefreshToken token decoded =>
      let (m, success) := m.revokeRefreshToken config token decoded
      (m, .done success)
  | .cleanupExpiredTokens now =>
      let (m, count) := m.cleanupExpiredTokens now
      (m, .erased count)
  | .registerClient clientId clientSecret role =>
      let (m, success) := m.registerClient clientId clientSecret role
      (m, .done success)
  | .disableClient clientId =>
      let (m, success) := m.disableClient clientId
      (m, .done success)
  | .enableClient clientId =>
      let (m, success) := m.enableClient clientId
      (m, .done success)

def authMachine (config : AuthConfig) : Machine AuthManager AuthOp AuthReply where
  init := .initial config
  step := authStep config

def ClockOk (m : AuthManager) : AuthOp → Prop
  | .authenticate _ _ _ _ now => m.clock ≤ now
  | .refreshAccessToken _ _ decoded checked now =>
      m.clock ≤ decoded ∧ decoded ≤ checked ∧ checked ≤ now
  | .validateToken _ _ decoded checked => m.clock ≤ decoded ∧ decoded ≤ checked
  | .revokeRefreshToken _ decoded => m.clock ≤ decoded
  | .cleanupExpiredTokens now => m.clock ≤ now
  | _ => True

instance (m : AuthManager) : DecidablePred (ClockOk m)
  | .authenticate _ _ _ _ _ | .revokeRefreshToken _ _ | .cleanupExpiredTokens _ =>
      inferInstanceAs (Decidable (_ ≤ _))
  | .refreshAccessToken _ _ _ _ _ => inferInstanceAs (Decidable (_ ≤ _ ∧ _ ≤ _ ∧ _ ≤ _))
  | .validateToken _ _ _ _ => inferInstanceAs (Decidable (_ ≤ _ ∧ _ ≤ _))
  | .registerClient _ _ _ | .disableClient _ | .enableClient _ => isTrue trivial

def FreshId (m : AuthManager) : AuthOp → Prop
  | .authenticate _ _ refreshId _ _ => ∀ claims ∈ m.issued, claims.jti ≠ refreshId
  | _ => True

/-- Cleaning up erases no revoked record while an access token that carries its id has
not expired. -/
def CleanupWaits (m : AuthManager) : AuthOp → Prop
  | .cleanupExpiredTokens now => ∀ entry ∈ m.refreshTokens.toList, entry.2.revoked = true →
      entry.2.expiresAt < timestamp now →
      ∀ claims ∈ m.issued, claims.refreshTokenId = some entry.1 → claims.isExpired now = true
  | _ => True

/-! ## Revocation -/

/-- The refresh token is out of use: it is recorded as revoked, or its record is gone and
so is the time of the access tokens that carry its id. -/
structure OutOfUse (id : Str) (m : AuthManager) : Prop where
  drawn : ∃ claims ∈ m.issued, claims.jti = id
  dead : (∃ record, m.refreshTokens[id]? = some record ∧ record.revoked = true) ∨
    (m.refreshTokens[id]? = none ∧
      ∀ claims ∈ m.issued, claims.refreshTokenId = some id → nanoseconds claims.exp < m.clock)

variable {config : AuthConfig} {m : AuthManager} {id : Str}

variable {token : Token} {now decoded : Int} {claims : JwtClaims}

theorem decodeJwt_ok (h : m.decodeJwt config now token = .ok claims) :
    token = .signed claims ∧ claims ∈ m.issued ∧ now ≤ nanoseconds claims.exp := by
  revert h
  fun_cases AuthManager.decodeJwt config m now token with
  | case1 | case2 | case3 | case4 => intro h; cases h
  | case5 claims' hissued hdates _ =>
    intro h
    cases h
    exact ⟨rfl, not_not.mp hissued, not_lt.mp fun hlt => hdates (.inl hlt)⟩

section

variable (h : OutOfUse id m)

include h

theorem OutOfUse.mono {m' : AuthManager} (hrecord : m'.refreshTokens[id]? = m.refreshTokens[id]?)
    (hclock : m.clock ≤ m'.clock) (hissued : ∀ claims ∈ m.issued, claims ∈ m'.issued)
    (hnew : m.refreshTokens[id]? = none → ∀ claims ∈ m'.issued, claims.refreshTokenId = some id →
      claims ∈ m.issued) : OutOfUse id m' := by
  obtain ⟨claims, hclaims, hjti⟩ := h.drawn
  refine ⟨⟨claims, hissued claims hclaims, hjti⟩, ?_⟩
  rcases h.dead with ⟨record, hlookup, hrevoked⟩ | ⟨hnone, hexpired⟩
  · exact .inl ⟨record, hrecord.trans hlookup, hrevoked⟩
  · refine .inr ⟨hrecord.trans hnone, ?_⟩
    intro claims hclaims hid
    exact lt_of_lt_of_le (hexpired claims (hnew hnone claims hclaims hid) hid) hclock

theorem OutOfUse.read (hnow : m.clock ≤ now) : OutOfUse id (m.read now) :=
  h.mono rfl hnow (fun _ hc => hc) (fun _ _ hc _ => hc)

theorem OutOfUse.authenticate {clientId clientSecret refreshId accessId : Str}
    (hclock : m.clock ≤ now) (hfresh : ∀ claims ∈ m.issued, claims.jti ≠ refreshId) :
    OutOfUse id (m.authenticate config clientId clientSecret refreshId accessId now).1 := by
  obtain ⟨drawn, hdrawn, hjti⟩ := h.drawn
  have hne : refreshId ≠ id := fun heq => hfresh drawn hdrawn (hjti.trans heq.symm)
  fun_cases AuthManager.authenticate config m clientId clientSecret refreshId accessId now with
  | case1 | case2 | case3 => exact h
  | case4 =>
    apply h.mono
    · exact OMap.getElem?_insert_of_ne hne _
    · exact hclock
    · intro claims hclaims
      exact List.mem_cons_of_mem _ (List.mem_cons_of_mem _ hclaims)
    · intro _ claims hclaims hid
      rcases List.mem_cons.mp hclaims with rfl | hclaims
      · exact absurd (Option.some.inj hid) hne
      · rcases List.mem_cons.mp hclaims with rfl | hclaims
        · cases hid
        · exact hclaims

theorem OutOfUse.refreshAccessToken {accessId : Str} {checked : Int} (hdecoded : m.clock ≤ decoded)
    (hchecked : decoded ≤ checked) (hnow : checked ≤ now) :
    OutOfUse id (m.refreshAccessToken config token accessId decoded checked now).1 := by
  fun_cases AuthManager.refreshAccessToken config m token accessId decoded checked now with
  | case1 | case2 | case3 | case4 => exact h.read hdecoded
  | case5 | case6 | case7 => exact h.read (hdecoded.trans hchecked)
  | case8 claims _ _ record hrecord =>
    apply h.mono
    · rfl
    · exact (hdecoded.trans hchecked).trans hnow
    · exact fun claims hclaims => List.mem_cons_of_mem _ hclaims
    · intro hnone claims' hclaims hid
      rcases List.mem_cons.mp hclaims with rfl | hclaims
      · -- a token is only minted while the record is there
        cases hid
        rw [hnone] at hrecord
        cases hrecord
      · exact hclaims

theorem OutOfUse.revokeRefreshToken (hdecoded : m.clock ≤ decoded) :
    OutOfUse id (m.revokeRefreshToken config token decoded).1 := by
  fun_cases AuthManager.revokeRefreshToken config m token decoded with
  | case1 | case2 => exact h.read hdecoded
  | case3 claims _ record hrecord =>
    by_cases hid : claims.jti = id
    · subst hid
      exact ⟨h.drawn, .inl ⟨{ record with revoked := true }, by simp, rfl⟩⟩
    · exact h.mono (OMap.getElem?_insert_of_ne hid _) hdecoded (fun _ hc => hc)
        (fun _ _ hc _ => hc)

theorem OutOfUse.cleanupExpiredTokens (hclock : m.clock ≤ now)
    (hwaits : CleanupWaits m (.cleanupExpiredTokens now)) :
    OutOfUse id (m.cleanupExpiredTokens now).1 := by
  have hlookup : (m.cleanupExpiredTokens now).1.refreshTokens[id]? =
      (m.refreshTokens[id]?).filter fun record => ¬ record.expiresAt < timestamp now := by
    rw [AuthManager.cleanupExpiredTokens, OMap.getElem?_keep]
  refine ⟨h.drawn, ?_⟩
  rcases h.dead with ⟨record, hrecord, hrevoked⟩ | ⟨hnone, hexpired⟩
  · rw [hrecord, Option.filter_some] at hlookup
    by_cases hold : record.expiresAt < timestamp now
    · refine .inr ⟨by simpa [hold] using hlookup, ?_⟩
      intro claims hclaims hid
      have hmem : (id, record) ∈ m.refreshTokens.toList :=
        Std.ExtTreeMap.mem_toList_iff_getElem?_eq_some.mpr hrecord
      exact of_decide_eq_true (hwaits _ hmem hrevoked hold claims hclaims hid)
    · exact .inl ⟨record, by simpa [hold] using hlookup, hrevoked⟩
  · refine .inr ⟨hlookup.trans (by rw [hnone, Option.filter_none]), ?_⟩
    intro claims hclaims hid
    exact lt_of_lt_of_le (hexpired claims hclaims hid) hclock

theorem OutOfUse.step (op : AuthOp) (hclock : ClockOk m op) (hfresh : FreshId m op)
    (hwaits : CleanupWaits m op) : OutOfUse id (authStep config m op).1 := by
  cases op with
  | authenticate => exact h.authenticate hclock hfresh
  | refreshAccessToken => exact h.refreshAccessToken hclock.1 hclock.2.1 hclock.2.2
  | validateToken => exact h.read (hclock.1.trans hclock.2)
  | revokeRefreshToken => exact h.revokeRefreshToken hclock
  | cleanupExpiredTokens => exact h.cleanupExpiredTokens hclock hwaits
  | registerClient clientId clientSecret role =>
    change OutOfUse id (m.registerClient clientId clientSecret role).1
    unfold AuthManager.registerClient
    split
    · exact h
    · exact h.mono rfl le_rfl (fun _ hc => hc) (fun _ _ hc _ => hc)
  | disableClient clientId | enableClient clientId =>
    change OutOfUse id (m.setEnabled clientId _).1
    unfold AuthManager.setEnabled
    split
    · exact h.mono rfl le_rfl (fun _ hc => hc) (fun _ _ hc _ => hc)
    · exact h

end

theorem outOfUse_of_revoked (htoken : token = .signed claims)
    (h : (m.revokeRefreshToken config token decoded).2 = true) :
    OutOfUse claims.jti (m.revokeRefreshToken config token decoded).1 := by
  revert h
  fun_cases AuthManager.revokeRefreshToken config m token decoded with
  | case1 | case2 => intro h; cases h
  | case3 claims' hdecoded record =>
    intro _
    obtain ⟨hsigned, hissued, -⟩ := decodeJwt_ok hdecoded
    rw [htoken] at hsigned
    cases hsigned
    exact ⟨⟨claims, hissued, rfl⟩, .inl ⟨{ record with revoked := true }, by simp, rfl⟩⟩

theorem OutOfUse.rejects (h : OutOfUse id m) {expectedType : TokenType} {checked : Int}
    (hdecoded : m.clock ≤ decoded) (hid : claims.refreshTokenId = some id) :
    (m.validateToken config (.signed claims) expectedType decoded checked).valid = false := by
  fun_cases AuthManager.validateToken config m (.signed claims) expectedType decoded checked with
  | case1 | case2 | case3 | case4 | case5 | case6 => rfl
  | case7 claims' hok _ _ _ _ _ hrevoked =>
    obtain ⟨hsigned, hissued, hlive⟩ := decodeJwt_ok hok
    cases hsigned
    rcases h.dead with ⟨record, hrecord, hr⟩ | ⟨-, hexpired⟩
    · simp [hid, hrecord, hr] at hrevoked
    · have hlt := hexpired claims hissued hid
      omega

/-- If drawn ids are new and cleaning up waits for the access tokens of revoked records,
no access token that carries the id of a revoked refresh token is accepted afterwards. -/
theorem revoked_tokens_stay_rejected (config : AuthConfig)
    (newer older : List (Event AuthManager AuthOp AuthReply)) (m : AuthManager)
    (revoke : Event AuthManager AuthOp AuthReply) (refresh : JwtClaims) (revokedAt : Int)
    (hrun : (authMachine config).Runs
      (fun m op => ClockOk m op ∧ FreshId m op ∧ CleanupWaits m op) (newer ++ revoke :: older) m)
    (hop : revoke.op = .revokeRefreshToken (.signed refresh) revokedAt)
    (hrevoked : (revoke.before.revokeRefreshToken config (.signed refresh) revokedAt).2 = true)
    (access : JwtClaims) (haccess : access.refreshTokenId = some refresh.jti)
    (expectedType : TokenType) (decoded checked : Int) (hclock : m.clock ≤ decoded) :
    (m.validateToken config (.signed access) expectedType decoded checked).valid = false := by
  have hout : OutOfUse refresh.jti m := by
    apply hrun.since (OutOfUse refresh.jti)
    · intro _
      rw [hop]
      exact outOfUse_of_revoked rfl hrevoked
    · intro later _ hguard hlater
      exact hlater.step later.op hguard.1 hguard.2.1 hguard.2.2
  exact hout.rejects hclock haccess

def shortTokens : AuthConfig where
  tokenExpirySeconds := 10
  refreshTokenExpirySeconds := 10
  clients := [{ clientId := str "tester", clientSecret := str "secret" }]

def testerRefresh : JwtClaims :=
  AuthManager.refreshClaims shortTokens (str "tester") .viewer 0 (str "r1")

/-- The tester logs in, refreshes shortly before the refresh token expires and revokes it. -/
def refreshedAndRevoked : List AuthOp :=
  [.authenticate (str "tester") (str "secret") (str "r1") (str "a1") 0,
    .refreshAccessToken (.signed testerRefresh) (str "a2") (nanoseconds 9) (nanoseconds 9)
      (nanoseconds 9),
    .revokeRefreshToken (.signed testerRefresh) (nanoseconds 9)]

def lateAccess : JwtClaims :=
  AuthManager.accessClaims shortTokens (str "tester") .viewer (nanoseconds 9) (str "a2") (str "r1")

theorem revoked_tokens_stay_rejected_for_tester :
    (((authMachine shortTokens).exec (.initial shortTokens) refreshedAndRevoked).validateToken
      shortTokens (.signed lateAccess) .access (nanoseconds 10) (nanoseconds 10)).valid = false := by
  have hguarded : (authMachine shortTokens).Guarded
      (fun m op => ClockOk m op ∧ FreshId m op ∧ CleanupWaits m op) (.initial shortTokens)
      refreshedAndRevoked :=
    ⟨⟨le_rfl, fun _ hc => absurd hc List.not_mem_nil, trivial⟩,
      ⟨by decide, trivial, trivial⟩, ⟨by decide, trivial, trivial⟩, trivial⟩
  have hrun := Machine.Runs.exec (.start (m := authMachine shortTokens)) refreshedAndRevoked hguarded
  exact revoked_tokens_stay_rejected shortTokens [] _ _ _ testerRefresh (nanoseconds 9) hrun rfl
    (by decide) lateAccess rfl .access (nanoseconds 10) (nanoseconds 10) (by decide)

/-- After the record of the revoked token is cleaned up, the access token is accepted. -/
theorem revoked_token_accepted_after_cleanup :
    let m := (authMachine shortTokens).exec (.initial shortTokens)
      (refreshedAndRevoked ++ [.cleanupExpiredTokens (nanoseconds 11)])
    shortTokens.Accepted ∧ lateAccess.refreshTokenId = some testerRefresh.jti ∧
    (((authMachine shortTokens).exec (.initial shortTokens)
      (refreshedAndRevoked.take 2)).revokeRefreshToken shortTokens (.signed testerRefresh)
        (nanoseconds 9)).2 = true ∧
    (m.validateToken shortTokens (.signed lateAccess) .access (nanoseconds 12)
      (nanoseconds 12)).valid = true := by
  decide

/-! ## Lifetimes -/

def AuthConfig.lifetime (config : AuthConfig) : TokenType → Int
  | .access => config.tokenExpirySeconds
  | .refresh => config.refreshTokenExpirySeconds

def LifetimesKept (config : AuthConfig) (m : AuthManager) : Prop :=
  ∀ claims ∈ m.issued, claims.exp = claims.iat + config.lifetime claims.typ

theorem LifetimesKept.step (h : LifetimesKept config m) (op : AuthOp) :
    LifetimesKept config (authStep config m op).1 := by
  cases op with
  | authenticate clientId clientSecret refreshId accessId now =>
    simp only [authStep]
    fun_cases AuthManager.authenticate config m clientId clientSecret refreshId accessId now with
    | case1 | case2 | case3 => exact h
    | case4 => exact List.forall_mem_cons.mpr ⟨rfl, List.forall_mem_cons.mpr ⟨rfl, h⟩⟩
  | refreshAccessToken token accessId decoded checked now =>
    simp only [authStep]
    fun_cases AuthManager.refreshAccessToken config m token accessId decoded checked now with
    | case1 | case2 | case3 | case4 | case5 | case6 | case7 => exact h
    | case8 => exact List.forall_mem_cons.mpr ⟨rfl, h⟩
  | validateToken => exact h
  | revokeRefreshToken token decoded =>
    simp only [authStep]
    fun_cases AuthManager.revokeRefreshToken config m token decoded <;> exact h
  | cleanupExpiredTokens => exact h
  | registerClient clientId clientSecret role =>
    simp only [authStep]
    fun_cases AuthManager.registerClient m clientId clientSecret role <;> exact h
  | disableClient clientId | enableClient clientId =>
    simp only [authStep, AuthManager.disableClient, AuthManager.enableClient,
      AuthManager.setEnabled]
    split <;> exact h

/-- After any calls, a token is accepted only if it was issued and while the lifetime of its
type lasts: no refresh prolongs a token that was handed out before. -/
theorem accepted_tokens_recent (config : AuthConfig) (ops : List AuthOp) (token : Token)
    (expectedType : TokenType) (decoded checked : Int) :
    let m := (authMachine config).exec (authMachine config).init ops
    (m.validateToken config token expectedType decoded checked).valid = false ∨
      ∃ claims ∈ m.issued, token = .signed claims ∧ claims.typ = expectedType ∧
        max decoded checked ≤ nanoseconds (claims.iat + config.lifetime expectedType) := by
  intro m
  have hkept : LifetimesKept config m :=
    ((authMachine config).reachable_exec ops).invariant (LifetimesKept config)
      (fun _ hclaims => absurd hclaims List.not_mem_nil) fun _ op h => h.step op
  fun_cases AuthManager.validateToken config m token expectedType decoded checked with
  | case1 | case2 | case3 | case4 | case5 | case6 => exact .inl rfl
  | case7 claims hok htyp hlive =>
    obtain ⟨hsigned, hissued, hdecoded⟩ := decodeJwt_ok hok
    have htyp := not_not.mp htyp
    refine .inr ⟨claims, hissued, hsigned, htyp, ?_⟩
    rw [← htyp, ← hkept claims hissued]
    apply max_le hdecoded
    simpa [JwtClaims.isExpired] using hlive

end Medkit.Gateway
