import OpenSphere.Registry.Contract
import OpenSphere.Sql.Table

/-!
# GitHub as the provider of registry credentials

The functions of the provider, given what GitHub answers to their requests.  None of them
reads or writes anything that the replicas share.

The refresh token of a credential is the one that GitHub issued with it
(`refreshToken_of_refresh`, `refreshToken_of_poll`), and a personal token comes without one
(`refreshToken_of_pat`).
-/

open Sql
open Js (Value Decimal)

namespace Registry

variable {P : Platform} {r : Replies} {c : Credentials} {t : String}

structure Platform where
  dateParse : DateParse
  /-- `new Date(t).toISOString()`. -/
  isoDate : Int → String

/-- The user of a token: the body and the headers of the response. -/
structure UserReply where
  body : Value
  /-- `x-oauth-scopes`. -/
  scopes : Option String
  /-- `github-authentication-token-expiration`. -/
  expiration : Option String

/-- What GitHub answers to the requests of one function. -/
structure Replies where
  post : Except Failure Value
  user : Except Failure UserReply
  now : Int

/-- `throw authError(code)`. -/
def authError {α : Type} (code : String) : Except Failure α :=
  .error ⟨"GitHub registry authentication: " ++ code, some code⟩

def safeToken (x : Value) : Except Failure String :=
  match x with
  | .string t =>
      if Js.length t < 16 || 4096 < Js.length t ||
          (chars t).any (fun c => Js.whitespace c || c.toNat ≤ 0x1f || c.toNat == 0x7f) then
        authError "InvalidCredential"
      else .ok t
  | _ => authError "InvalidCredential"

/-- `t.split(/[ ,]+/).filter(Boolean)`. -/
def words (t : String) : List String :=
  (((chars t).splitOnP (fun c => c == ' ' || c == ',')).filter (! ·.isEmpty)).map String.ofList

/-- `limitedScopes(value)`.  There are two scopes that may be left, in this order. -/
def limitedScopes (x : Value) : Except Failure (List String) :=
  let scopes := words ((x.orEmpty.toText).getD "")
  if scopesValid scopes then .ok (["offline_access", "read:packages"].filter (scopes.contains ·))
  else authError "ReadOnlyPackagesScopeRequired"

def safeInteger (x : Value) : Option Int :=
  match x with
  | .number t => do
      let d ← Decimal.ofText t
      if d.safeInteger then some (d.coeff * 10 ^ d.exp.toNat / 10 ^ (-d.exp).toNat) else none
  | _ => none

def seconds (x : Value) (max : Int) : Except Failure Int :=
  match safeInteger x with
  | some n => if n < 1 || max < n then authError "InvalidProviderResponse" else .ok n
  | none => authError "InvalidProviderResponse"

def client (t : String) : Except Failure String :=
  if !clientFormat t || ["ghp_", "gho_", "ghu_", "ghs_", "ghr_", "github_pat_"].any (startsWith t ·) then
    authError "OpenSphereOAuthClientIdRequired"
  else .ok t

/-- `t.toLowerCase()` of a text in which only ASCII letters have two cases. -/
def toLowerCase (t : String) : String := String.ofList ((chars t).map Char.toLower)

/-- What `inspect` returns. -/
structure Identity where
  username : String
  userId : String
  scopes : List String
  expiresAt : Option String

def inspect (P : Platform) (r : Replies) (token : Value) (username userId : Option String)
    (scopes : Value) : Except Failure Identity := do
  let _ ← safeToken token
  let reply ← r.user
  let login := (((reply.body.get "login").or (.string "")).toText).getD ""
  match safeInteger (reply.body.get "id") with
  | none => authError "InvalidProviderIdentity"
  | some id =>
      if !loginFormat login || id < 1 then authError "InvalidProviderIdentity"
      else if ((truthy username).any fun t => toLowerCase login != toLowerCase t) ||
          (truthy userId).any fun t => toString id != t then
        authError "IdentityMismatch"
      else do
        let given := match scopes with
          | .undefined => none
          | x => some x
        let actual ← match reply.scopes, given with
          | some t, _ => limitedScopes (.string t)
          | none, some x => limitedScopes x
          | none, none => authError "ReadOnlyPackagesScopeUnverifiable"
        given.forM fun x => do let _ ← limitedScopes x
        let expiry := (truthy reply.expiration).bind P.dateParse
        if expiry.any (· ≤ r.now) then authError "CredentialExpired"
        else return ⟨login, toString id, actual, expiry.map P.isoDate⟩

def providerError {α : Type} (x : Value) (reauthorize : List String) : Except Failure α :=
  authError (match x with
    | .string t => if reauthorize.contains t then "ReauthorizationRequired" else "ProviderRejected"
    | _ => "ProviderRejected")

def lifetime (P : Platform) (r : Replies) (x : Value) : Except Failure String := do
  let n ← seconds x (86400 * 366)
  return P.isoDate (r.now + n * 1000)

/-- `b ? x : null`. -/
def given {α : Type} (b : Bool) (x : Except Failure α) : Except Failure (Option α) :=
  if b then x.map some else .ok none

def credential (P : Platform) (r : Replies) (body : Value) (clientId : String)
    (userId : Option String) : Except Failure Credentials := do
  if (body.get "error").truthy then
    providerError (body.get "error") ["bad_refresh_token", "access_denied", "expired_token"]
  else if toLowerCase (((body.get "token_type").toText).getD "") != "bearer" then
    authError "InvalidProviderResponse"
  else do
    let token ← safeToken (body.get "access_token")
    let identity ← inspect P r (body.get "access_token") none userId (body.get "scope")
    let expiresAt ← given (body.get "expires_in").truthy (lifetime P r (body.get "expires_in"))
    let refreshToken ← given (body.get "refresh_token").truthy (safeToken (body.get "refresh_token"))
    if refreshToken.isSome &&
        (expiresAt.isNone || !(body.get "refresh_token_expires_in").truthy) then
      authError "InvalidProviderResponse"
    else do
      let clientId ← client clientId
      let refreshExpiresAt ← given refreshToken.isSome
        (lifetime P r (body.get "refresh_token_expires_in"))
      return ⟨identity.username, token, ⟨"1.0", "github-device", some clientId, identity.userId,
        identity.scopes, expiresAt, refreshToken, refreshExpiresAt, some (P.isoDate r.now)⟩⟩

def pat (P : Platform) (r : Replies) (username token : String) : Except Failure Credentials := do
  let identity ← inspect P r (.string token) (some username) none .undefined
  return ⟨identity.username, token, ⟨"1.0", "pat", none, identity.userId, identity.scopes,
    identity.expiresAt, none, none, some (P.isoDate r.now)⟩⟩

def start (P : Platform) (r : Replies) (clientId : String) : Except Failure Flow := do
  let clientId ← client clientId
  let body ← r.post
  if (body.get "error").truthy then
    authError (match body.get "error" with
      | .string "device_flow_disabled" => "DeviceFlowDisabled"
      | _ => "ProviderRejected")
  else
    match body.get "verification_uri", body.get "user_code", body.get "device_code" with
    | .string "https://github.com/login/device", .string userCode, .string deviceCode =>
        if !Js.test (.seq [.times (fun c => upper c || digit c) 4, .text "-",
              .times (fun c => upper c || digit c) 4]) userCode ||
            !Js.test (.repeated (fun c => letterOrDigit c || c == '_' || c == '-') 16 (some 256))
              deviceCode then
          authError "InvalidProviderResponse"
        else do
          let expiresIn ← seconds (body.get "expires_in") 1800
          let interval ← seconds ((body.get "interval").or (.number "5")) 60
          return ⟨clientId, deviceCode, userCode, "https://github.com/login/device",
            P.isoDate (r.now + expiresIn * 1000), interval, r.now + interval * 1000⟩
    | _, _, _ => authError "InvalidProviderResponse"

/-- What `poll` returns. -/
inductive Polled where
  | pending (flow : Flow)
  | authorized (credentials : Credentials)

def wantedInterval (x : Value) : Except Failure Int :=
  match x with
  | .undefined => .ok 0
  | x => seconds x 900

def poll (P : Platform) (r : Replies) (flow : Flow) : Except Failure Polled := do
  if (P.dateParse flow.expiresAt).any (· ≤ r.now) then authError "ReauthorizationRequired"
  else if r.now < flow.nextPollAt then return .pending flow
  else do
    let clientId ← client flow.clientId
    let body ← r.post
    match body.get "error" with
    | .string "authorization_pending" =>
        return .pending { flow with nextPollAt := r.now + flow.interval * 1000 }
    | .string "slow_down" => do
        let wanted ← wantedInterval (body.get "interval")
        let interval := min 900 (max (flow.interval + 5) wanted)
        return .pending { flow with interval := interval, nextPollAt := r.now + interval * 1000 }
    | _ => do
        let c ← credential P r body clientId none
        return .authorized c

def refresh (P : Platform) (r : Replies) (current : Credentials) : Except Failure Credentials := do
  if current.lifecycle.mode != "github-device" || current.refreshToken.isNone ||
      (current.lifecycle.refreshExpiresAt.bind P.dateParse).any (· ≤ r.now) then
    authError "ReauthorizationRequired"
  else do
    let clientId ← client (current.lifecycle.clientId.getD "")
    let body ← r.post
    let next ← credential P r body clientId (some current.lifecycle.userId)
    if next.refreshToken.isNone then authError "ReauthorizationRequired"
    else return next

/-! ## Refresh tokens -/

/-- The refresh token that GitHub issues with an answer. -/
def Replies.issued (r : Replies) : Option String :=
  match r.post with
  | .ok body =>
      match body.get "refresh_token" with
      | .string t => some t
      | _ => none
  | .error _ => none

theorem safeToken_eq_ok {x : Value} (h : safeToken x = .ok t) : x = .string t := by
  unfold safeToken at h
  split at h
  · split at h
    · cases h
    · cases h
      rfl
  · cases h

theorem given_eq_some {α : Type} {b : Bool} {x : Except Failure α} {y : α}
    (h : given b x = .ok (some y)) : x = .ok y := by
  unfold given at h
  split at h
  · cases x with
    | error e => cases h
    | ok z =>
        cases h
        rfl
  · cases h

theorem refreshToken_of_credential {body : Value}
    {clientId : String} {userId : Option String}
    (h : credential P r body clientId userId = .ok c) (ht : c.refreshToken = some t) :
    body.get "refresh_token" = .string t := by
  unfold credential at h
  split at h
  · cases h
  split at h
  · cases h
  obtain ⟨token, -, h⟩ := bind_eq_ok.mp h
  obtain ⟨identity, -, h⟩ := bind_eq_ok.mp h
  obtain ⟨expiresAt, -, h⟩ := bind_eq_ok.mp h
  obtain ⟨refreshToken, hrefresh, h⟩ := bind_eq_ok.mp h
  split at h
  · cases h
  obtain ⟨clientId', -, h⟩ := bind_eq_ok.mp h
  obtain ⟨refreshExpiresAt, -, h⟩ := bind_eq_ok.mp h
  cases h
  obtain ⟨ht, -⟩ := Option.filter_eq_some_iff.mp ht
  subst ht
  exact safeToken_eq_ok (given_eq_some hrefresh)

theorem refreshToken_of_pat {username token : String}
    (h : pat P r username token = .ok c) : c.refreshToken = none := by
  obtain ⟨identity, -, h⟩ := bind_eq_ok.mp h
  cases h
  rfl

theorem issued_of_body {body : Value} (h : r.post = .ok body)
    (ht : body.get "refresh_token" = .string t) : r.issued = some t := by
  rw [Replies.issued, h]
  simp only [ht]

theorem refreshToken_of_poll {flow : Flow}
    (h : poll P r flow = .ok (.authorized c)) (ht : c.refreshToken = some t) :
    r.issued = some t := by
  unfold poll at h
  split at h
  · cases h
  split at h
  · cases h
  obtain ⟨clientId, -, h⟩ := bind_eq_ok.mp h
  obtain ⟨body, hbody, h⟩ := bind_eq_ok.mp h
  split at h
  · cases h
  · obtain ⟨wanted, -, h⟩ := bind_eq_ok.mp h
    cases h
  · obtain ⟨c', hc, h⟩ := bind_eq_ok.mp h
    cases h
    exact issued_of_body hbody (refreshToken_of_credential hc ht)

theorem refreshToken_of_refresh {current : Credentials}
    (h : refresh P r current = .ok c) (ht : c.refreshToken = some t) : r.issued = some t := by
  unfold refresh at h
  split at h
  · cases h
  obtain ⟨clientId, -, h⟩ := bind_eq_ok.mp h
  obtain ⟨body, hbody, h⟩ := bind_eq_ok.mp h
  obtain ⟨c', hc, h⟩ := bind_eq_ok.mp h
  split at h
  · cases h
  · cases h
    exact issued_of_body hbody (refreshToken_of_credential hc ht)

end Registry
