import SqlTide.Foundations.Json
import SqlTide.Foundations.KeyedTables
import SqlTide.Foundations.PythonText
import SqlTide.Foundations.ReadCommitted
import SqlTide.Foundations.Sorting

/-!
# The tables of the account control store

Rows, the writes that the statements of the store make, and the rows that these lock. Times are
numbers of microseconds.
-/

namespace SqlTide.Auth

open Foundations

structure UserRow where
  id : String
  username : String
  displayName : Option String
  email : Option String
  isActive : Bool
  createdAt : ℕ
  updatedAt : ℕ
  deriving DecidableEq, Repr

inductive AuthenticationSource
  | local
  | password
  | trustedProxy
  deriving DecidableEq, Repr

/-- The value of the enumeration. -/
def AuthenticationSource.value : AuthenticationSource → String
  | .local => "local"
  | .password => "password"
  | .trustedProxy => "trusted_proxy"

structure ExternalIdentityRow where
  source : AuthenticationSource
  subject : String
  userId : String
  createdAt : ℕ
  deriving DecidableEq, Repr

structure PasswordCredentialRow where
  userId : String
  passwordHash : String
  passwordChangedAt : ℕ
  deriving DecidableEq, Repr

structure SessionRow where
  tokenHash : String
  userId : String
  csrfToken : String
  createdAt : ℕ
  lastSeenAt : ℕ
  expiresAt : ℕ
  revokedAt : Option ℕ
  deriving DecidableEq, Repr

structure RoleRow where
  name : String
  description : String
  isSystem : Bool
  deriving DecidableEq, Repr

structure UserRoleRow where
  userId : String
  roleName : String
  assignedAt : ℕ
  assignedBy : Option String
  deriving DecidableEq, Repr

structure AuditRow where
  operation : String
  actorUserId : Option String
  affectedUserId : Option String
  occurredAt : ℕ
  details : List (String × Json)
  deriving Repr

structure Tables where
  users : KeyedTable String UserRow UserRow.id
  externalIdentities : KeyedTable (AuthenticationSource × String) ExternalIdentityRow
    fun row => (row.source, row.subject)
  passwordCredentials : KeyedTable String PasswordCredentialRow PasswordCredentialRow.userId
  sessions : KeyedTable String SessionRow SessionRow.tokenHash
  roles : KeyedTable String RoleRow RoleRow.name
  userRoles : KeyedTable (String × String) UserRoleRow fun row => (row.userId, row.roleName)
  audit : List AuditRow

/-- A row that a statement locks, or a unique name that it takes. A foreign key to a role locks the
key of its row only, which a SELECT ... FOR UPDATE of the row conflicts with. -/
inductive RowKey
  | user (id : String)
  | username (name : String)
  | externalIdentity (source : AuthenticationSource) (subject : String)
  | passwordCredential (userId : String)
  | session (tokenHash : String)
  | role (name : String)
  | roleKey (name : String)
  | userRole (userId roleName : String)
  deriving DecidableEq, Repr

def RowKey.conflicts : RowKey → RowKey → Bool
  | .roleKey _, .roleKey _ => false
  | .roleKey name, .role other => name = other
  | .role name, .roleKey other => name = other
  | row, other => row = other

/-- What one statement writes. -/
inductive Write
  | insertUser (row : UserRow)
  | insertExternalIdentity (row : ExternalIdentityRow)
  | insertPasswordCredential (row : PasswordCredentialRow)
  | insertSession (row : SessionRow)
  | insertUserRole (row : UserRoleRow)
  | insertAudit (row : AuditRow)
  | setActive (userId : String) (isActive : Bool) (now : ℕ)
  | setProfile (userId : String) (displayName email : Option String) (now : ℕ)
  | setAccount (userId : String) (displayName email : Option String) (isActive : Bool) (now : ℕ)
  | setPasswordHash (userId passwordHash : String) (now : ℕ)
  | setLastSeen (tokenHash : String) (now : ℕ)
  | revokeSessions (tokenHashes : List String) (now : ℕ)
  | deleteUserRole (userId roleName : String)
  deriving Repr

/-- The rows and names that a write locks. -/
def Write.locks : Write → List RowKey
  | .insertUser row => [.user row.id, .username row.username]
  | .insertExternalIdentity row => [.externalIdentity row.source row.subject]
  | .insertPasswordCredential row => [.passwordCredential row.userId]
  | .insertSession row => [.session row.tokenHash]
  | .insertUserRole row => [.userRole row.userId row.roleName, .roleKey row.roleName]
  | .insertAudit _ => []
  | .setActive userId _ _ | .setProfile userId _ _ _ | .setAccount userId _ _ _ _ => [.user userId]
  | .setPasswordHash userId _ _ => [.passwordCredential userId]
  | .setLastSeen tokenHash _ => [.session tokenHash]
  | .revokeSessions tokenHashes _ => tokenHashes.map .session
  | .deleteUserRole userId roleName => [.userRole userId roleName]

/-- The values that an UPDATE of a user gives its row. -/
def userChange (row : UserRow) : Write → UserRow
  | .setActive userId isActive now =>
    if row.id = userId then { row with isActive := isActive, updatedAt := now } else row
  | .setProfile userId displayName email now =>
    if row.id = userId then
      { row with displayName := displayName, email := email, updatedAt := now }
    else row
  | .setAccount userId displayName email isActive now =>
    if row.id = userId then
      { row with
        displayName := displayName, email := email, isActive := isActive, updatedAt := now }
    else row
  | _ => row

def passwordChange (userId passwordHash : String) (now : ℕ) (row : PasswordCredentialRow) :
    PasswordCredentialRow :=
  if row.userId = userId then { row with passwordHash := passwordHash, passwordChangedAt := now }
  else row

/-- The values that an UPDATE of sessions gives a row. -/
def sessionChange (row : SessionRow) : Write → SessionRow
  | .setLastSeen tokenHash now =>
    if row.tokenHash = tokenHash then { row with lastSeenAt := now } else row
  | .revokeSessions tokenHashes now =>
    if row.tokenHash ∈ tokenHashes then { row with revokedAt := some now } else row
  | _ => row

@[simp] theorem userChange_id (row : UserRow) (write : Write) :
    (userChange row write).id = row.id := by
  cases write <;> simp only [userChange]
  all_goals split_ifs <;> rfl

@[simp] theorem passwordChange_userId (userId passwordHash : String) (now : ℕ)
    (row : PasswordCredentialRow) :
    (passwordChange userId passwordHash now row).userId = row.userId := by
  unfold passwordChange
  split_ifs <;> rfl

@[simp] theorem sessionChange_tokenHash (row : SessionRow) (write : Write) :
    (sessionChange row write).tokenHash = row.tokenHash := by
  cases write <;> simp only [sessionChange]
  all_goals split_ifs <;> rfl

@[simp] theorem sessionChange_userId (row : SessionRow) (write : Write) :
    (sessionChange row write).userId = row.userId := by
  cases write <;> simp only [sessionChange]
  all_goals split_ifs <;> rfl

def Tables.apply (d : Tables) (write : Write) : Tables :=
  match write with
  | .insertUser row => { d with users := d.users.insert row }
  | .insertExternalIdentity row => { d with externalIdentities := d.externalIdentities.insert row }
  | .insertPasswordCredential row =>
    { d with passwordCredentials := d.passwordCredentials.insert row }
  | .insertSession row => { d with sessions := d.sessions.insert row }
  | .insertUserRole row => { d with userRoles := d.userRoles.insert row }
  | .insertAudit row => { d with audit := d.audit ++ [row] }
  | .setActive _ _ _ | .setProfile _ _ _ _ | .setAccount _ _ _ _ _ =>
    { d with users := d.users.modify (userChange · write) (userChange_id · write) }
  | .setPasswordHash userId passwordHash now =>
    { d with
      passwordCredentials := d.passwordCredentials.modify (passwordChange userId passwordHash now)
        (passwordChange_userId userId passwordHash now) }
  | .setLastSeen _ _ | .revokeSessions _ _ =>
    { d with
      sessions := d.sessions.modify (sessionChange · write) (sessionChange_tokenHash · write) }
  | .deleteUserRole userId roleName =>
    { d with
      userRoles := d.userRoles.filter fun row =>
        ¬ (row.userId = userId ∧ row.roleName = roleName) }

end SqlTide.Auth
