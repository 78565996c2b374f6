import SqlTide.Auth.ControlTables
import SqlTide.SqlText.Primitives

/-!
# The account control store

The transactions of the control store, statement by statement. A call hands in what it takes from
its surroundings: the clock, new identifiers and tokens, the salt of a hash. `set_user_active` and
the other administrative calls read the account once more after their commit; that is a call of
`get_user_by_id` here.
-/

namespace SqlTide.Auth

open Foundations Transaction

inductive StoreErrorKind
  | accountConflict
  | accountNotFound
  | accountValidation
  | passwordValidation
  | integrity
  | noResultFound
  deriving DecidableEq, Repr

structure StoreError where
  kind : StoreErrorKind
  message : String
  deriving DecidableEq, Repr

structure UserAccount where
  userId : String
  username : String
  displayName : Option String
  email : Option String
  isActive : Bool
  createdAt : ℕ
  updatedAt : ℕ
  roles : List String
  authenticationSources : List AuthenticationSource
  deriving DecidableEq, Repr

structure SessionCredentials where
  token : String
  csrfToken : String
  expiresAt : ℕ
  deriving DecidableEq, Repr

structure Principal where
  userId : String
  username : String
  displayName : Option String
  email : Option String
  authenticationSource : AuthenticationSource
  deriving DecidableEq, Repr

structure ResolvedSession where
  principal : Principal
  roles : List String
  csrfToken : String
  expiresAt : ℕ
  deriving DecidableEq, Repr

/-- The password hasher of argon2 and SHA-256 of session tokens. A hash is verified by the password
that it was made from, and by no other; no token has the digest of the empty string. -/
structure Hashing where
  hash : (password salt : String) → String
  verify : (passwordHash password : String) → Bool
  checkNeedsRehash : (passwordHash : String) → Bool
  sha256Hexdigest : (token : String) → String
  verify_hash : ∀ password salt other, verify (hash password salt) other = true ↔ other = password
  sha256Hexdigest_empty : ∀ token, sha256Hexdigest token = sha256Hexdigest "" → token = ""

/-- A hash that is the password. -/
def transparentHashing : Hashing where
  hash password _ := password
  verify passwordHash password := password = passwordHash
  checkNeedsRehash _ := false
  sha256Hexdigest token := token
  verify_hash password _ other := by simp
  sha256Hexdigest_empty _ h := h

def adminRole : String := "admin"

def passwordMinLength : ℕ := 12

def sessionLastSeenWriteInterval : ℕ := 60000000

abbrev Tx (α : Type) := Transaction Tables RowKey Write StoreError α

/-- The calls of the store with their arguments. -/
inductive StoreCall
  | createUser (username : String) (displayName email password : Option String)
      (authenticationSource : Option AuthenticationSource) (externalSubject : Option String)
      (roles : List String) (actorUserId : Option String) (now : ℕ) (userId salt : String)
  | getUserById (userId : String)
  | getUserByUsername (username : String)
  | resolveExternalIdentity (source : AuthenticationSource) (subject : String)
  | authenticatePassword (username password : String) (sessionTtlSeconds now : ℕ)
      (token csrfToken salt : String)
  | resolveSession (token : String) (now : ℕ)
  | revokeSession (token : String) (actorUserId : Option String) (now : ℕ)
  | setUserActive (userId : String) (isActive : Bool) (actorUserId : Option String) (now : ℕ)
  | updateProfile (userId : String) (displayName email actorUserId : Option String) (now : ℕ)
  | updateAccount (userId : String) (displayName email : Option String) (isActive : Bool)
      (actorUserId : Option String) (now : ℕ)
  | resetPassword (userId password : String) (actorUserId : Option String) (now : ℕ) (salt : String)
  | grantRole (userId roleName : String) (actorUserId : Option String) (now : ℕ)
  | revokeRole (userId roleName : String) (actorUserId : Option String) (now : ℕ)
  deriving DecidableEq, Repr

inductive StoreResult
  | unit
  | account (account : Option UserAccount)
  | session (session : Option (UserAccount × SessionCredentials))
  | resolved (session : Option ResolvedSession)
  deriving DecidableEq, Repr

section

variable (H : Hashing)

def isUsernameCharacter (character : Char) : Bool :=
  ('a' ≤ character && character ≤ 'z') || ('0' ≤ character && character ≤ '9')

def canonicalUsername (value : String) : Except StoreError String :=
  let canonical := casefold (String.ofList (SqlText.pythonStrip value.toList))
  match canonical.toList with
  | [] => .error usernameError
  | character :: rest =>
    if isUsernameCharacter character && decide (rest.length ≤ 127) &&
        rest.all fun c => isUsernameCharacter c || c ∈ ['.', '_', '@', '+', '-'] then
      .ok canonical
    else .error usernameError
where
  usernameError : StoreError :=
    ⟨.accountValidation, "Username must start with an alphanumeric character and contain only " ++
      "letters, numbers, '.', '_', '@', '+', or '-'"⟩

def hashPassword (password salt : String) : Except StoreError String :=
  if password.length < passwordMinLength then
    .error ⟨.passwordValidation, "Password must contain at least " ++ toString passwordMinLength ++
      " characters"⟩
  else .ok (H.hash password salt)

def verifyPassword (passwordHash password salt : String) : Bool × Option String :=
  if H.verify passwordHash password then
    (true, if H.checkNeedsRehash passwordHash then some (H.hash password salt) else none)
  else (false, none)

def cleanOptional : Option String → Option String
  | none => none
  | some value =>
    let cleaned := String.ofList (SqlText.pythonStrip value.toList)
    if cleaned = "" then none else some cleaned

def fail {α : Type} (kind : StoreErrorKind) (message : String) : Tx α := .rollback ⟨kind, message⟩

def ofExcept {α : Type} : Except StoreError α → Tx α
  | .ok a => .commit a
  | .error error => .rollback error

def userNotFound {α : Type} (userId : String) : Tx α :=
  fail .accountNotFound ("User '" ++ userId ++ "' was not found")

/-- An INSERT with the constraints that it may violate. -/
def insertRow (row : Write) (violation : Tables → Option StoreError) : Tx PUnit :=
  .insert (fun _ => row.locks) row violation

/-- An UPDATE or DELETE by a primary key, and whether it matches a row. -/
def updateRow (write : Write) (isMatched : Tables → Bool) : Tx Bool :=
  .execute (fun d => if isMatched d then write.locks else [])
    (fun d => if isMatched d then [write] else []) isMatched

def audit (operation : String) (actorUserId affectedUserId : Option String)
    (details : List (String × Json)) (now : ℕ) : Tx PUnit :=
  insertRow (.insertAudit ⟨operation, actorUserId, affectedUserId, now, details⟩) fun _ => none

def Tables.hasRole (d : Tables) (userId roleName : String) : Bool :=
  (d.userRoles.find (userId, roleName)).isSome

/-- The answer of the join that counts the active administrators. -/
def Tables.activeAdminCount (d : Tables) : ℕ :=
  (d.users.rows.filter (·.isActive)).flatMap (fun user =>
    d.userRoles.rows.filter fun row => row.userId = user.id && row.roleName = adminRole) |>.length

def isLastAdmin (userId : String) : Tx Bool := do
  let role ← selectForUpdate
    (fun d : Tables => if (d.roles.find adminRole).isSome then [RowKey.role adminRole] else [])
    fun d => d.roles.find adminRole
  match role with
  | none => fail .noResultFound "No row was found when one was required"
  | some _ => do
    let isAdmin ← select fun d : Tables => d.hasRole userId adminRole
    if isAdmin then do
      let activeAdminCount ← select Tables.activeAdminCount
      pure (decide (activeAdminCount ≤ 1))
    else pure false

/-- What follows only if the user is not the last administrator, where that is `asked`. -/
def unlessLastAdmin (asked : Bool) (userId message : String) (rest : Tx PUnit) : Tx PUnit := do
  let lastAdmin ← (if asked then isLastAdmin userId else pure false)
  if lastAdmin then fail .accountConflict message else rest

/-- The sessions that an UPDATE of a user's sessions matches. -/
def Tables.openSessions (d : Tables) (userId : String) : List String :=
  (d.sessions.rows.filter fun row => row.userId = userId && row.revokedAt.isNone).map (·.tokenHash)

/-- The UPDATE that revokes the sessions of a user. -/
def revokeUserSessions (userId : String) (now : ℕ) : Tx PUnit :=
  .execute (fun d => (Write.revokeSessions (d.openSessions userId) now).locks)
    (fun d => [.revokeSessions (d.openSessions userId) now]) fun _ => ⟨⟩

/-- An UPDATE of the row of a user. -/
def updateUser (userId : String) (write : Write) : Tx Bool :=
  updateRow write fun d => (d.users.find userId).isSome

/-- `_assign_role`, where `conflict` is what the caller makes of an integrity error. -/
def assignRole (userId roleName : String) (actorUserId : Option String) (now : ℕ)
    (conflict : StoreError) : Tx PUnit := do
  let rolePresent ← select fun d : Tables => (d.roles.find roleName).isSome
  if rolePresent then
    insertRow (.insertUserRole ⟨userId, roleName, now, actorUserId⟩) fun d =>
       if d.hasRole userId roleName || (d.users.find userId).isNone then some conflict else none
  else fail .accountNotFound ("Role '" ++ roleName ++ "' was not found")

def assignRoles (userId : String) (actorUserId : Option String) (now : ℕ) (conflict : StoreError) :
    List String → Tx PUnit
  | [] => pure ⟨⟩
  | role :: roles => do
    assignRole userId role actorUserId now conflict
    assignRoles userId actorUserId now conflict roles

def Tables.rolesForUser (d : Tables) (userId : String) : List String :=
  sortedBy (fun name => [name])
    ((d.userRoles.rows.filter fun row => row.userId = userId).map (·.roleName))

def accountFromRow (row : UserRow) : Tx UserAccount := do
  let roles ← select fun d : Tables => d.rolesForUser row.id
  let sources ← select fun d : Tables =>
    sortedBy (fun source => [source.value])
      ((d.externalIdentities.rows.filter fun identity => identity.userId = row.id).map (·.source))
  let passwordPresent ← select fun d : Tables =>
    (d.passwordCredentials.find row.id).isSome
  pure ⟨row.id, row.username, row.displayName, row.email, row.isActive, row.createdAt,
    row.updatedAt,
    roles, (sources ++ if passwordPresent then [AuthenticationSource.password] else []).eraseDups⟩

def accountFromOptional : Option UserRow → Tx (Option UserAccount)
  | none => pure none
  | some row => do
    let account ← accountFromRow row
    pure (some account)

/-- The identity that `create_user` links. -/
def linkIdentity (canonical : String) (authenticationSource : Option AuthenticationSource)
    (externalSubject : Option String) (now : ℕ) (userId : String) (conflict : StoreError) :
    Tx PUnit :=
  match authenticationSource with
  | none => pure ⟨⟩
  | some .local =>
    fail .accountValidation "Local principals are not persisted as external identities"
  | some source =>
    let subject := String.ofList (SqlText.pythonStrip
      ((if externalSubject.getD "" = "" then canonical else externalSubject.getD "").toList))
    if subject = "" then fail .accountValidation "External identity subject must not be blank"
    else
      insertRow (.insertExternalIdentity ⟨source, subject, userId, now⟩) fun d =>
        if (d.externalIdentities.find (source, subject)).isSome then some conflict else none

/-- The INSERT of the hash of a user who has none. -/
def insertCredential (userId passwordHash : String) (now : ℕ) (conflict : StoreError) : Tx PUnit :=
  insertRow (.insertPasswordCredential ⟨userId, passwordHash, now⟩) fun d =>
    if (d.passwordCredentials.find userId).isSome then some conflict else none

/-- The UPDATE of the hash of a user. -/
def updateCredential (userId passwordHash : String) (now : ℕ) : Tx PUnit := do
  let _ ← updateRow (.setPasswordHash userId passwordHash now) fun d =>
    (d.passwordCredentials.find userId).isSome

/-- The password that `create_user` gives a user. -/
def firstPassword (password : Option String) (now : ℕ) (userId salt : String)
    (conflict : StoreError) : Tx PUnit :=
  match password with
  | none => pure ⟨⟩
  | some password => do
    let passwordHash ← ofExcept (hashPassword H password salt)
    insertCredential userId passwordHash now conflict

def createUser (username : String) (displayName email password : Option String)
    (authenticationSource : Option AuthenticationSource) (externalSubject : Option String)
    (roles : List String) (actorUserId : Option String) (now : ℕ) (userId salt : String) :
    Tx PUnit := do
  let canonical ← ofExcept (canonicalUsername username)
  let conflict : StoreError :=
    ⟨.accountConflict, "User or external identity '" ++ canonical ++ "' already exists"⟩
  insertRow
    (.insertUser ⟨userId, canonical, cleanOptional displayName, cleanOptional email, true,
    now, now⟩)
    fun d =>
      if (d.users.find userId).isSome || d.users.rows.any (·.username = canonical) then
        some conflict
      else none
  linkIdentity canonical authenticationSource externalSubject now userId conflict
  firstPassword H password now userId salt conflict
  assignRoles userId actorUserId now conflict roles
  audit "user.created" actorUserId (some userId) [("username", .str canonical)] now

def getUserById (userId : String) : Tx (Option UserAccount) := do
  let row ← select fun d : Tables => d.users.find userId
  accountFromOptional row

def getUserByUsername (username : String) : Tx (Option UserAccount) := do
  let canonical ← ofExcept (canonicalUsername username)
  let row ← select fun d : Tables => d.users.rows.find? (·.username = canonical)
  accountFromOptional row

def resolveExternalIdentity (source : AuthenticationSource) (subject : String) :
    Tx (Option UserAccount) := do
  let row ← select fun d : Tables =>
    (d.externalIdentities.find (source, subject)).bind fun identity => d.users.find identity.userId
  accountFromOptional row

/-- The join of `authenticate_password`: the user of a name with the hash of the password. -/
def Tables.credentialByUsername (d : Tables) (username : String) : Option (UserRow × String) :=
  (d.users.rows.find? (·.username = username)).bind fun user =>
    (d.passwordCredentials.find user.id).map fun credential => (user, credential.passwordHash)

/-- The UPDATE of a hash that is to be strengthened. -/
def rehash (userId : String) (replacement : Option String) (now : ℕ) : Tx PUnit :=
  match replacement with
  | none => pure ⟨⟩
  | some replacement => updateCredential userId replacement now

/-- The INSERT of `_create_session`. -/
def createSession (row : SessionRow) : Tx PUnit :=
  insertRow (.insertSession row) fun d =>
    if (d.sessions.find row.tokenHash).isSome then
      some ⟨.integrity, "UNIQUE constraint failed: sqltide_sessions.token_hash"⟩
    else none

/-- `authenticate_password`. The dummy hash that is verified for an unknown user has no effect. -/
def authenticatePassword (username password : String) (sessionTtlSeconds now : ℕ)
    (token csrfToken salt : String) : Tx (Option (UserAccount × SessionCredentials)) :=
  match canonicalUsername username with
  | .error _ => pure none
  | .ok canonical => do
    let row ← select fun d : Tables => d.credentialByUsername canonical
    match row with
    | none => pure none
    | some (user, candidateHash) =>
      let verified := verifyPassword H candidateHash password salt
      if !user.isActive || !verified.1 then pure none
      else do
        rehash user.id verified.2 now
        let expiresAt := now + sessionTtlSeconds * 1000000
        createSession
          ⟨H.sha256Hexdigest token, user.id, csrfToken, now, now, expiresAt, none⟩
        audit "session.created" (some user.id) (some user.id) [] now
        let account ← accountFromRow user
        pure (some (account, ⟨token, csrfToken, expiresAt⟩))

/-- The UPDATE of when a session was last seen. -/
def touchSession (session : SessionRow) (now : ℕ) : Tx PUnit :=
  if sessionLastSeenWriteInterval ≤ now - session.lastSeenAt then do
    let _ ← updateRow (.setLastSeen session.tokenHash now) fun d =>
      (d.sessions.find session.tokenHash).isSome
  else pure ⟨⟩

/-- The join of `resolve_session`. -/
def Tables.sessionWithUser (d : Tables) (tokenHash : String) : Option (SessionRow × UserRow) :=
  (d.sessions.find tokenHash).bind fun session =>
    (d.users.find session.userId).map fun user => (session, user)

def resolveSession (token : String) (now : ℕ) : Tx (Option ResolvedSession) :=
  if token = "" then pure none
  else do
    let row ← select fun d : Tables => d.sessionWithUser (H.sha256Hexdigest token)
    match row with
    | none => pure none
    | some (session, user) =>
      if session.revokedAt.isSome || !user.isActive then pure none
      else if session.expiresAt ≤ now then pure none
      else do
        touchSession session now
        let roles ← select fun d : Tables => d.rolesForUser user.id
        pure (some ⟨⟨user.id, user.username, user.displayName, user.email, .password⟩, roles,
          session.csrfToken, session.expiresAt⟩)

def revokeSession (token : String) (actorUserId : Option String) (now : ℕ) : Tx PUnit := do
  let userId ← select fun d : Tables =>
    (d.sessions.find (H.sha256Hexdigest token)).map (·.userId)
  match userId with
  | none => pure ⟨⟩
  | some userId => do
    let _ ← updateRow (.revokeSessions [H.sha256Hexdigest token] now) fun d =>
      (d.sessions.find (H.sha256Hexdigest token)).isSome
    audit "session.revoked" actorUserId (some userId) [] now

/-- The statements of `set_user_active` after the administrators were counted. -/
def changeActive (userId : String) (isActive : Bool) (actorUserId : Option String) (now : ℕ) :
    Tx PUnit := do
  let affected ← updateUser userId (.setActive userId isActive now)
  if affected then do
    (if isActive then pure ⟨⟩ else revokeUserSessions userId now)
    audit (if isActive then "user.enabled" else "user.disabled") actorUserId (some userId) [] now
  else userNotFound userId

def setUserActive (userId : String) (isActive : Bool) (actorUserId : Option String) (now : ℕ) :
    Tx PUnit :=
  unlessLastAdmin (!isActive) userId "Cannot disable the last active administrator"
    (changeActive userId isActive actorUserId now)

def updateProfile (userId : String) (displayName email actorUserId : Option String) (now : ℕ) :
    Tx PUnit := do
  let affected ← updateUser userId
    (.setProfile userId (cleanOptional displayName) (cleanOptional email) now)
  if affected then audit "user.profile_updated" actorUserId (some userId) [] now
  else userNotFound userId

/-- The statements of `update_account` after the administrators were counted. -/
def changeAccount (userId : String) (displayName email : Option String) (isActive : Bool)
    (actorUserId : Option String) (now : ℕ) : Tx PUnit := do
  let _ ← updateUser userId
    (.setAccount userId (cleanOptional displayName) (cleanOptional email) isActive now)
  (if isActive then pure ⟨⟩ else revokeUserSessions userId now)
  audit "user.updated" actorUserId (some userId) [("active", .bool isActive)] now

/-- `update_account`. The administrators are counted only if the user was active when it was
read. -/
def updateAccount (userId : String) (displayName email : Option String) (isActive : Bool)
    (actorUserId : Option String) (now : ℕ) : Tx PUnit := do
  let current ← select fun d : Tables => d.users.find userId
  match current with
  | none => userNotFound userId
  | some current =>
    unlessLastAdmin (!isActive && current.isActive) userId
      "Cannot disable the last active administrator"
      (changeAccount userId displayName email isActive actorUserId now)

def resetPassword (userId password : String) (actorUserId : Option String) (now : ℕ)
    (salt : String) : Tx PUnit := do
  let passwordHash ← ofExcept (hashPassword H password salt)
  let present ← select fun d : Tables => (d.users.find userId).isSome
  if present then do
    let credentialUser ← select fun d : Tables =>
      (d.passwordCredentials.find userId).isSome
    (if credentialUser then updateCredential userId passwordHash now
      else insertCredential userId passwordHash now
        ⟨.integrity, "UNIQUE constraint failed: sqltide_password_credentials.user_id"⟩)
    revokeUserSessions userId now
    audit "password.reset" actorUserId (some userId) [] now
  else userNotFound userId

def grantRole (userId roleName : String) (actorUserId : Option String) (now : ℕ) : Tx PUnit := do
  assignRole userId roleName actorUserId now
    ⟨.accountConflict, "Role '" ++ roleName ++ "' is already assigned or does not exist"⟩
  audit "role.granted" actorUserId (some userId) [("role", .str roleName)] now

/-- The statements of `revoke_role` after the administrators were counted. -/
def deleteRole (userId roleName : String) (actorUserId : Option String) (now : ℕ) : Tx PUnit := do
  let affected ← updateRow (.deleteUserRole userId roleName) fun d => d.hasRole userId roleName
  if affected then audit "role.revoked" actorUserId (some userId) [("role", .str roleName)] now
  else fail .accountNotFound ("Role '" ++ roleName ++ "' is not assigned to user")

def revokeRole (userId roleName : String) (actorUserId : Option String) (now : ℕ) : Tx PUnit :=
  unlessLastAdmin (roleName = adminRole) userId "Cannot remove the last active administrator"
    (deleteRole userId roleName actorUserId now)

/-- The transaction that answers a call. -/
def storeBody : StoreCall → Tx StoreResult
  | .createUser username displayName email password source subject roles actor now userId salt => do
    createUser H username displayName email password source subject roles actor now userId salt
    pure .unit
  | .getUserById userId => do
    let account ← getUserById userId
    pure (.account account)
  | .getUserByUsername username => do
    let account ← getUserByUsername username
    pure (.account account)
  | .resolveExternalIdentity source subject => do
    let account ← resolveExternalIdentity source subject
    pure (.account account)
  | .authenticatePassword username password ttl now token csrfToken salt => do
    let session ← authenticatePassword H username password ttl now token csrfToken salt
    pure (.session session)
  | .resolveSession token now => do
    let session ← resolveSession H token now
    pure (.resolved session)
  | .revokeSession token actor now => do
    revokeSession H token actor now
    pure .unit
  | .setUserActive userId isActive actor now => do
    setUserActive userId isActive actor now
    pure .unit
  | .updateProfile userId displayName email actor now => do
    updateProfile userId displayName email actor now
    pure .unit
  | .updateAccount userId displayName email isActive actor now => do
    updateAccount userId displayName email isActive actor now
    pure .unit
  | .resetPassword userId password actor now salt => do
    resetPassword H userId password actor now salt
    pure .unit
  | .grantRole userId roleName actor now => do
    grantRole userId roleName actor now
    pure .unit
  | .revokeRole userId roleName actor now => do
    revokeRole userId roleName actor now
    pure .unit

def controlStore : TransactionalStore Tables RowKey Write StoreError StoreCall StoreResult :=
  ⟨Tables.apply, RowKey.conflicts, storeBody H⟩

end

/-- A control store with its clients. -/
abbrev ControlState := StoreState String Tables RowKey Write StoreError StoreCall StoreResult

abbrev ControlEvent := StoreEvent String StoreCall

end SqlTide.Auth
