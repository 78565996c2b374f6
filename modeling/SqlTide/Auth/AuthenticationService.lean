import SqlTide.Auth.ControlStore

/-!
# The authentication service and its cache

Calls of `authenticate` step by step, next to calls of the control store of which each commits and
then increments the revision. The transactions of the store are taken as one step each. A state
keeps the versions of the tables that have been committed, and which of them is settled: the latest
one that a call has committed which has also incremented the revision.
-/

namespace SqlTide.Auth

open Foundations

inductive AuthFailureKind
  | authenticationError
  | authorizationError
  | controlStoreError
  | accountConflict
  | storeError (kind : StoreErrorKind)
  deriving DecidableEq, Repr

structure AuthFailure where
  kind : AuthFailureKind
  message : String
  deriving DecidableEq, Repr

inductive UnknownUserPolicy
  | autoProvision
  | deny
  deriving DecidableEq, Repr

structure AuthSettings where
  usernameHeader : String := "X-SQLTide-User"
  unknownUserPolicy : UnknownUserPolicy := .autoProvision
  defaultRole : String := "viewer"
  deriving DecidableEq, Repr

structure AuthenticatedRequest where
  principal : Principal
  roles : List String
  csrfToken : Option String
  deriving DecidableEq, Repr

/-- The headers that a proxy sets, or the session cookie. -/
inductive AuthHeaders
  | proxy (username displayName email : Option String)
  | session (token : Option String)
  deriving DecidableEq, Repr

/-- What a request is authenticated by. -/
inductive Credentials
  | proxy (subject : String) (displayName email : Option String)
  | session (token : String)
  deriving DecidableEq, Repr

def authenticationCacheTtl : ℕ := 5000000

def authenticationCacheMaxEntries : ℕ := 1024

section

variable (settings : AuthSettings) (H : Hashing)

/-- The first lines of `_authenticate_proxy` and `_authenticate_session`. -/
def credentials : AuthHeaders → Except AuthFailure Credentials
  | .session none => .error ⟨.authenticationError, "Authentication required"⟩
  | .session (some token) => .ok (.session token)
  | .proxy username displayName email =>
    match cleanOptional username, username with
    | some _, some username =>
      match canonicalUsername username with
      | .error error => .error ⟨.authenticationError, error.message⟩
      | .ok subject => .ok (.proxy subject (cleanOptional displayName) (cleanOptional email))
    | _, _ => .error ⟨.authenticationError,
        "Trusted proxy did not provide required header '" ++ settings.usernameHeader ++ "'"⟩

def Credentials.cacheKey : Credentials → String
  | .proxy subject _ _ => "proxy:" ++ subject
  | .session token => "session:" ++ H.sha256Hexdigest token

/-- A request that was authenticated, and until when its session lasts. -/
structure Authenticated where
  request : AuthenticatedRequest
  sessionExpiresAt : Option ℕ
  deriving DecidableEq, Repr

def Authenticated.Unexpired (authenticated : Authenticated) (utc : ℕ) : Prop :=
  ∀ expiresAt ∈ authenticated.sessionExpiresAt, utc < expiresAt

instance (authenticated : Authenticated) (utc : ℕ) : Decidable (authenticated.Unexpired utc) :=
  inferInstanceAs (Decidable (∀ expiresAt ∈ authenticated.sessionExpiresAt, utc < expiresAt))

/-- What is authenticated by an account, if it is active. -/
def accountAuthenticated (account : UserAccount) : Option Authenticated :=
  if account.isActive then
    some ⟨⟨⟨account.userId, account.username, account.displayName, account.email, .trustedProxy⟩,
      account.roles, none⟩, none⟩
  else none

def sessionAuthenticated (session : ResolvedSession) : Authenticated :=
  ⟨⟨session.principal, session.roles, some session.csrfToken⟩, some session.expiresAt⟩

/-- The result of a transaction that nobody interferes with. -/
def answer {α : Type} (d : Tables) (body : Tx α) : Except StoreError (α × List Write) :=
  (controlStore H).alone d body []

/-- What the store resolves for credentials. -/
def Tables.resolve (d : Tables) : Credentials → (utc : ℕ) → Option Authenticated
  | .proxy subject _ _, _ =>
    match answer H d (resolveExternalIdentity .trustedProxy subject) with
    | .ok (some account, _) => accountAuthenticated account
    | _ => none
  | .session token, utc =>
    match answer H d (resolveSession H token utc) with
    | .ok (some session, _) => some (sessionAuthenticated session)
    | _ => none

/-- Where a call of `authenticate` stands. -/
inductive AuthPhase
  | readRevision
  | lookUp (revision : ℕ)
  | resolve
  | provisionExisting
  | provisionUsername
  | createUser
  | incrementRevision (userId : String) (version : ℕ)
  | reload (userId : String)
  | resolveCompeting
  | remember (authenticated : Authenticated) (resolvedAt : ℕ)
  deriving DecidableEq, Repr

/-- What a thread does. `floor` is the version that was settled when the call began. -/
inductive Activity
  | idle
  | authenticating (credentials : Credentials) (floor : ℕ) (phase : AuthPhase)
  | calling (call : StoreCall)
  | committed (version : ℕ)
  deriving DecidableEq, Repr

/-- How a call ended; `resolvedAt` is the time at which the request was resolved or found. -/
inductive Outcome
  | authenticated (credentials : Credentials) (floor resolvedAt : ℕ) (authenticated : Authenticated)
  | failed (failure : AuthFailure)
  | done
  deriving DecidableEq, Repr

structure Thread where
  activity : Activity := .idle
  outcome : Option Outcome := none
  deriving DecidableEq, Repr

structure CacheEntry where
  key : String
  expiresAt : ℕ
  revision : ℕ
  authenticated : Authenticated
  deriving DecidableEq, Repr

structure ServiceState where
  history : List Tables
  current : Tables
  revision : ℕ
  settled : ℕ
  cache : List CacheEntry
  threads : String → Thread

/-- A thread calls, or takes its next step: at a time of the monotonic clock and of the calendar,
with an identifier for a new user. -/
inductive ServiceEvent
  | authenticate (thread : String) (headers : AuthHeaders)
  | call (thread : String) (call : StoreCall)
  | step (thread : String) (monotonic utc : ℕ) (userId : String)
  deriving DecidableEq, Repr

namespace ServiceState

variable (s : ServiceState) (thread : String)

/-- All versions of the tables, the current one last. -/
def versions : List Tables := s.history ++ [s.current]

def goTo (activity : Activity) : ServiceState :=
  { s with
    threads := Function.update s.threads thread { s.threads thread with activity := activity } }

def finish (outcome : Outcome) : ServiceState :=
  { s with threads := Function.update s.threads thread ⟨.idle, some outcome⟩ }

def commit (writes : List Write) : ServiceState :=
  if writes.isEmpty then s
  else
    { s with
      history := s.history ++ [s.current], current := (controlStore H).view writes s.current }

/-- `_invalidate_authentication` of a call that committed a version. -/
def invalidateAuthentication (version : ℕ) : ServiceState :=
  { s with revision := s.revision + 1, settled := max s.settled version }

def cached (key : String) (revision monotonic : ℕ) : Option CacheEntry :=
  (s.cache.find? (·.key = key)).filter fun entry =>
    monotonic < entry.expiresAt && entry.revision = revision

def forget (key : String) : ServiceState := { s with cache := s.cache.filter (·.key ≠ key) }

def remember (key : String) (authenticated : Authenticated) (monotonic : ℕ) : ServiceState :=
  let kept := if authenticationCacheMaxEntries ≤ s.cache.length then
      s.cache.filter (monotonic < ·.expiresAt)
    else s.cache
  { s with
    cache := kept.filter (·.key ≠ key) ++
      [⟨key, monotonic + authenticationCacheTtl, s.revision, authenticated⟩] }

end ServiceState

/-- Whether a call that has written increments the revision. -/
def StoreCall.invalidatesAuthentication : StoreCall → Bool
  | .createUser .. | .revokeSession .. | .setUserActive .. | .updateProfile .. | .updateAccount ..
  | .resetPassword .. | .grantRole .. | .revokeRole .. => true
  | .getUserById _ | .getUserByUsername _ | .resolveExternalIdentity _ _ | .authenticatePassword ..
  | .resolveSession _ _ => false

def storeFailure (error : StoreError) : Outcome := .failed ⟨.storeError error.kind, error.message⟩

/-- The account is active and its request remembered, or it is refused. -/
def rememberActive (s : ServiceState) (thread : String) (credentials : Credentials) (floor utc : ℕ)
    (account : UserAccount) : ServiceState :=
  match accountAuthenticated account with
  | some authenticated =>
    s.goTo thread (.authenticating credentials floor (.remember authenticated utc))
  | none => s.finish thread (.failed ⟨.authorizationError, "Account is disabled"⟩)

/-- The next step of `_authenticate_proxy` after the cache, with those of `provision_proxy_user`. -/
def stepProxy (s : ServiceState) (thread : String) (subject : String)
    (displayName email : Option String) (floor utc : ℕ) (newUserId : String) (phase : AuthPhase) :
    ServiceState :=
  let goOn :=
    fun phase => s.goTo thread (.authenticating (.proxy subject displayName email) floor phase)
  let resolved := fun (absent : ServiceState) =>
    match answer H s.current (resolveExternalIdentity .trustedProxy subject) with
    | .ok (some account, _) =>
      rememberActive s thread (.proxy subject displayName email) floor utc account
    | .ok (none, _) => absent
    | .error error => s.finish thread (storeFailure error)
  match phase with
  | .resolve =>
    resolved (match settings.unknownUserPolicy with
      | .deny => s.finish thread (.failed ⟨.authorizationError, "Authenticated proxy user '" ++
          subject ++ "' is not provisioned in SQLTide"⟩)
      | .autoProvision => goOn .provisionExisting)
  | .provisionExisting => resolved (goOn .provisionUsername)
  | .provisionUsername =>
    match answer H s.current (getUserByUsername subject) with
    | .ok (some _, _) => goOn .resolveCompeting
    | .ok (none, _) => goOn .createUser
    | .error error => s.finish thread (storeFailure error)
  | .createUser =>
    match answer H s.current (createUser H subject displayName email none (some .trustedProxy)
        (some subject) [settings.defaultRole] none utc newUserId "") with
    | .ok (_, writes) =>
      (s.commit H writes).goTo thread (.authenticating (.proxy subject displayName email) floor
        (.incrementRevision newUserId (s.commit H writes).history.length))
    | .error error =>
      if error.kind = .accountConflict then goOn .resolveCompeting
      else s.finish thread (storeFailure error)
  | .incrementRevision userId version =>
    (s.invalidateAuthentication version).goTo thread
      (.authenticating (.proxy subject displayName email) floor (.reload userId))
  | .reload userId =>
    match answer H s.current (getUserById userId) with
    | .ok (some account, _) =>
      rememberActive s thread (.proxy subject displayName email) floor utc account
    | .ok (none, _) => s.finish thread
        (.failed ⟨.controlStoreError, "Created account could not be reloaded"⟩)
    | .error error => s.finish thread (storeFailure error)
  | .resolveCompeting =>
    resolved (s.finish thread (.failed ⟨.accountConflict, "Proxy identity '" ++ subject ++
      "' conflicts with an existing unlinked username"⟩))
  | .readRevision | .lookUp _ | .remember _ _ => s

/-- The next step of `_authenticate_session` after the cache. -/
def stepSession (s : ServiceState) (thread : String) (token : String) (floor utc : ℕ)
    (phase : AuthPhase) : ServiceState :=
  match phase with
  | .resolve =>
    match answer H s.current (resolveSession H token utc) with
    | .ok (some session, writes) =>
      (s.commit H writes).goTo thread (.authenticating (.session token) floor
        (.remember (sessionAuthenticated session) utc))
    | .ok (none, _) => s.finish thread
        (.failed ⟨.authenticationError, "Session is invalid or expired"⟩)
    | .error error => s.finish thread (storeFailure error)
  | _ => s

/-- The next step of a call of `authenticate`. -/
def stepAuthenticate (s : ServiceState) (thread : String) (credentials : Credentials)
    (floor monotonic utc : ℕ) (newUserId : String) (phase : AuthPhase) : ServiceState :=
  match phase, credentials with
  | .readRevision, _ => s.goTo thread (.authenticating credentials floor (.lookUp s.revision))
  | .lookUp revision, _ =>
    match s.cached (credentials.cacheKey H) revision monotonic with
    | some entry => s.finish thread (.authenticated credentials floor utc entry.authenticated)
    | none => (s.forget (credentials.cacheKey H)).goTo thread
      (.authenticating credentials floor .resolve)
  | .remember authenticated resolvedAt, _ =>
    (s.remember (credentials.cacheKey H) authenticated monotonic).finish thread
      (.authenticated credentials floor resolvedAt authenticated)
  | phase, .proxy subject displayName email =>
    stepProxy settings H s thread subject displayName email floor utc newUserId phase
  | phase, .session token => stepSession H s thread token floor utc phase

def serviceNext (s : ServiceState) : ServiceEvent → ServiceState
  | .authenticate thread headers =>
    match (s.threads thread).activity, credentials settings headers with
    | .idle, .ok credentials => s.goTo thread (.authenticating credentials s.settled .readRevision)
    | .idle, .error failure => s.finish thread (.failed failure)
    | _, _ => s
  | .call thread call =>
    match (s.threads thread).activity with
    | .idle => s.goTo thread (.calling call)
    | _ => s
  | .step thread monotonic utc newUserId =>
    match (s.threads thread).activity with
    | .idle => s
    | .calling call =>
      match answer H s.current (storeBody H call) with
      | .error error => s.finish thread (storeFailure error)
      | .ok (_, writes) =>
        if call.invalidatesAuthentication && !writes.isEmpty then
          (s.commit H writes).goTo thread (.committed (s.commit H writes).history.length)
        else (s.commit H writes).finish thread .done
    | .committed version => (s.invalidateAuthentication version).finish thread .done
    | .authenticating credentials floor phase =>
      stepAuthenticate settings H s thread credentials floor monotonic utc newUserId phase

/-- A service that has just been started. -/
def ServiceState.started (d : Tables) : ServiceState := ⟨[], d, 0, 0, [], fun _ => {}⟩

end

end SqlTide.Auth
