import SqlTide.Auth.ControlStore

/-!
# The statements of the control store

`StoreCall.Makes` says which writes a call can make, and `confined_storeBody` that its statements
make no others. `Unguarded` statements leave the row of the role alone that counting the
administrators locks.
-/

namespace SqlTide.Auth

open Foundations Transaction

/-- The writes that the statements of a call make. -/
inductive StoreCall.Makes : StoreCall → Write → Prop
  | audit {call : StoreCall} (row : AuditRow) : call.Makes (.insertAudit row)
  | createUser {username displayName email password source subject roles actor now userId salt}
      (row : UserRow) :
      (createUser username displayName email password source subject roles actor now userId
        salt).Makes (.insertUser row)
  | linkIdentity {username displayName email password source subject roles actor now userId salt}
      (row : ExternalIdentityRow) :
      (createUser username displayName email password source subject roles actor now userId
        salt).Makes (.insertExternalIdentity row)
  | firstPassword {username displayName email password source subject roles actor now userId salt}
      (row : PasswordCredentialRow) :
      (createUser username displayName email password source subject roles actor now userId
        salt).Makes (.insertPasswordCredential row)
  | assignRole {username displayName email password source subject roles actor now userId salt}
      (row : UserRoleRow) :
      (createUser username displayName email password source subject roles actor now userId
        salt).Makes (.insertUserRole row)
  | rehash {username password ttl now token csrfToken salt} (userId passwordHash : String) :
      (authenticatePassword username password ttl now token csrfToken salt).Makes
        (.setPasswordHash userId passwordHash now)
  | createSession {username password ttl now token csrfToken salt} (row : SessionRow) :
      (authenticatePassword username password ttl now token csrfToken salt).Makes
        (.insertSession row)
  | touchSession {token now} (tokenHash : String) :
      (resolveSession token now).Makes (.setLastSeen tokenHash now)
  | revokeSession {token actor now} (tokenHashes : List String) :
      (revokeSession token actor now).Makes (.revokeSessions tokenHashes now)
  | changeActive {userId isActive actor now} :
      (setUserActive userId isActive actor now).Makes (.setActive userId isActive now)
  | disableUser {userId actor now} (tokenHashes : List String) :
      (setUserActive userId false actor now).Makes (.revokeSessions tokenHashes now)
  | updateProfile {userId displayName email actor now} (displayName' email' : Option String) :
      (updateProfile userId displayName email actor now).Makes
        (.setProfile userId displayName' email' now)
  | changeAccount {userId displayName email isActive actor now}
      (displayName' email' : Option String) :
      (updateAccount userId displayName email isActive actor now).Makes
        (.setAccount userId displayName' email' isActive now)
  | disableAccount {userId displayName email actor now} (tokenHashes : List String) :
      (updateAccount userId displayName email false actor now).Makes
        (.revokeSessions tokenHashes now)
  | insertPassword {userId password actor now salt} (passwordHash : String) :
      (resetPassword userId password actor now salt).Makes
        (.insertPasswordCredential ⟨userId, passwordHash, now⟩)
  | changePassword {userId password actor now salt} (passwordHash : String) :
      (resetPassword userId password actor now salt).Makes
        (.setPasswordHash userId passwordHash now)
  | revokeSessions {userId password actor now salt} (tokenHashes : List String) :
      (resetPassword userId password actor now salt).Makes (.revokeSessions tokenHashes now)
  | grantRole {userId roleName actor now} (row : UserRoleRow) :
      (grantRole userId roleName actor now).Makes (.insertUserRole row)
  | revokeRole {userId roleName actor now} :
      (revokeRole userId roleName actor now).Makes (.deleteUserRole userId roleName)

/-- A statement of a call, which locks what it writes. -/
structure StoreCall.Statement (call : StoreCall) (locks : List RowKey) (writes : List Write) :
    Prop where
  makes : ∀ write ∈ writes, call.Makes write
  locked : ∀ write ∈ writes, ∀ lock ∈ write.locks, lock ∈ locks

/-- A statement that does not lock the row of a role. -/
structure StoreCall.Unguarded (call : StoreCall) (locks : List RowKey) (writes : List Write) : Prop
    extends call.Statement locks writes where
  unguarded : ∀ name, .role name ∉ locks

section

variable {call : StoreCall}

theorem role_notMem_locks (write : Write) (name : String) : .role name ∉ write.locks := by
  cases write <;> simp [Write.locks]

theorem statement_read (locks : List RowKey) : call.Statement locks [] := ⟨by simp, by simp⟩

variable {locks : List RowKey} {write : Write} {actorUserId : Option String} {conflict : StoreError}

theorem unguarded_read (h : ∀ name, .role name ∉ locks) : call.Unguarded locks [] :=
  ⟨statement_read locks, h⟩

theorem unguarded_write (hmakes : call.Makes write) : call.Unguarded write.locks [write] :=
  ⟨⟨by simpa using hmakes, by simp⟩, role_notMem_locks write⟩

theorem StoreCall.Statement.append {locks' : List RowKey} {writes writes' : List Write}
    (h : call.Statement locks writes) (h' : call.Statement locks' writes') :
    call.Statement (locks ++ locks') (writes ++ writes') where
  makes write hwrite := by
    rcases List.mem_append.mp hwrite with hwrite | hwrite
    · exact h.makes write hwrite
    · exact h'.makes write hwrite
  locked write hwrite lock hlock := by
    rcases List.mem_append.mp hwrite with hwrite | hwrite
    · exact List.mem_append_left _ (h.locked write hwrite lock hlock)
    · exact List.mem_append_right _ (h'.locked write hwrite lock hlock)

variable {α : Type} {property : List RowKey → List Write → Prop} {userId : String} {now : ℕ}

theorem confined_fail
    (kind : StoreErrorKind)
    (message : String) : (fail kind message : Tx α).Confined property := .rollback _

theorem confined_userNotFound
    (userId : String) : (userNotFound userId : Tx α).Confined property := .rollback _

theorem confined_ofExcept (value : Except StoreError α) : (ofExcept value).Confined property := by
  cases value with
  | ok a => exact .commit a
  | error error => exact .rollback error

theorem unguarded_select (read : Tables → α) : (select read : Tx α).Confined call.Unguarded :=
  confined_select read (unguarded_read (by simp))

theorem unguarded_insertRow {row : Write} {violation : Tables → Option StoreError}
    (hmakes : call.Makes row) : (insertRow row violation).Confined call.Unguarded :=
  confined_insert (fun _ => unguarded_write hmakes)
    fun _ => unguarded_read (role_notMem_locks row)

theorem unguarded_updateRow {isMatched : Tables → Bool}
    (hmakes : call.Makes write) : (updateRow write isMatched).Confined call.Unguarded := by
  refine confined_execute fun d => ?_
  split_ifs
  · exact unguarded_write hmakes
  · exact unguarded_read (by simp)

theorem unguarded_audit (operation : String) (actorUserId affectedUserId : Option String)
    (details : List (String × Json)) (now : ℕ) :
    (audit operation actorUserId affectedUserId details now).Confined call.Unguarded :=
  unguarded_insertRow (.audit _)

theorem unguarded_revokeUserSessions
    (hmakes : ∀ tokenHashes, call.Makes (.revokeSessions tokenHashes now)) :
    (revokeUserSessions userId now).Confined call.Unguarded :=
  confined_execute fun _ => unguarded_write (hmakes _)

theorem unguarded_updateCredential {passwordHash : String}
    (hmakes : call.Makes (.setPasswordHash userId passwordHash now)) :
    (updateCredential userId passwordHash now).Confined call.Unguarded :=
  (unguarded_updateRow hmakes).bind fun _ => confined_pure _

theorem unguarded_touchSession {session : SessionRow}
    (hmakes : ∀ tokenHash, call.Makes (.setLastSeen tokenHash now)) :
    (touchSession session now).Confined call.Unguarded := by
  unfold touchSession
  split_ifs
  · exact (unguarded_updateRow (hmakes _)).bind fun _ => confined_pure _
  · exact confined_pure _

theorem unguarded_assignRole {roleName : String}
    (hmakes : ∀ row, call.Makes (.insertUserRole row)) :
    (assignRole userId roleName actorUserId now conflict).Confined call.Unguarded := by
  refine (unguarded_select _).bind fun rolePresent => ?_
  split_ifs
  · exact unguarded_insertRow (hmakes _)
  · exact confined_fail _ _

theorem unguarded_assignRoles
    (hmakes : ∀ row, call.Makes (.insertUserRole row)) (roles : List String) :
    (assignRoles userId actorUserId now conflict roles).Confined call.Unguarded := by
  induction roles with
  | nil => exact confined_pure _
  | cons role roles ih => exact (unguarded_assignRole hmakes).bind fun _ => ih

theorem unguarded_accountFromRow (row : UserRow) : (accountFromRow row).Confined call.Unguarded :=
  (unguarded_select _).bind fun _ => (unguarded_select _).bind fun _ =>
    (unguarded_select _).bind fun _ => confined_pure _

theorem unguarded_accountFromOptional (row : Option UserRow) :
    (accountFromOptional row).Confined call.Unguarded := by
  cases row with
  | none => exact confined_pure _
  | some row => exact (unguarded_accountFromRow row).bind fun _ => confined_pure _

theorem statement_isLastAdmin (userId : String) : (isLastAdmin userId).Confined call.Statement := by
  have hread {α : Type} (read : Tables → α) : (select read : Tx α).Confined call.Statement :=
    confined_select read (statement_read _)
  refine (confined_selectForUpdate _ fun _ => statement_read _).bind fun role => ?_
  cases role with
  | none => exact confined_fail _ _
  | some row =>
    refine (hread _).bind fun isAdmin => ?_
    split_ifs
    · exact (hread _).bind fun _ => confined_pure _
    · exact confined_pure _

theorem Confined.statement {body : Tx α} (h : body.Confined call.Unguarded) :
    body.Confined call.Statement :=
  h.mono fun _ _ hunguarded => hunguarded.toStatement

theorem statement_unlessLastAdmin {asked : Bool} {message : String} {rest : Tx PUnit}
    (h : rest.Confined call.Unguarded) :
    (unlessLastAdmin asked userId message rest).Confined call.Statement := by
  refine Transaction.Confined.bind ?_ fun lastAdmin => ?_
  · split_ifs
    · exact statement_isLastAdmin userId
    · exact confined_pure _
  · split_ifs
    · exact confined_fail _ _
    · exact Confined.statement h

theorem unguarded_changeActive (userId : String) (isActive : Bool) (actorUserId : Option String)
    (now : ℕ) : (changeActive userId isActive actorUserId now).Confined
      (StoreCall.setUserActive userId isActive actorUserId now).Unguarded := by
  refine (unguarded_updateRow .changeActive).bind fun affected => ?_
  cases affected with
  | false => exact confined_userNotFound _
  | true =>
    refine Transaction.Confined.bind ?_ fun _ => unguarded_audit _ _ _ _ _
    cases isActive with
    | false => exact unguarded_revokeUserSessions .disableUser
    | true => exact confined_pure _

theorem unguarded_changeAccount (userId : String) (displayName email : Option String)
    (isActive : Bool) (actorUserId : Option String) (now : ℕ) :
    (changeAccount userId displayName email isActive actorUserId now).Confined
      (StoreCall.updateAccount userId displayName email isActive actorUserId now).Unguarded := by
  refine (unguarded_updateRow (.changeAccount _ _)).bind fun _ => ?_
  refine Transaction.Confined.bind ?_ fun _ => unguarded_audit _ _ _ _ _
  cases isActive with
  | false => exact unguarded_revokeUserSessions .disableAccount
  | true => exact confined_pure _

theorem unguarded_deleteRole (userId roleName : String) (actorUserId : Option String) (now : ℕ) :
    (deleteRole userId roleName actorUserId now).Confined
      (StoreCall.revokeRole userId roleName actorUserId now).Unguarded := by
  refine (unguarded_updateRow .revokeRole).bind fun affected => ?_
  split_ifs
  · exact unguarded_audit _ _ _ _ _
  · exact confined_fail _ _

end

section

variable (H : Hashing)

theorem unguarded_createUser (username : String) (displayName email password : Option String)
    (source : Option AuthenticationSource) (subject : Option String) (roles : List String)
    (actorUserId : Option String) (now : ℕ) (userId salt : String) :
    (createUser H username displayName email password source subject roles actorUserId now userId
      salt).Confined (StoreCall.createUser username displayName email password source subject roles
        actorUserId now userId salt).Unguarded := by
  unfold createUser
  generalize canonicalUsername username = canonical
  refine (confined_ofExcept _).bind fun canonical => ?_
  refine (unguarded_insertRow (.createUser _)).bind fun _ => ?_
  refine Transaction.Confined.bind ?_ fun _ => Transaction.Confined.bind ?_ fun _ =>
    (unguarded_assignRoles .assignRole roles).bind fun _ => unguarded_audit _ _ _ _ _
  · unfold linkIdentity
    split
    · exact confined_pure _
    · exact confined_fail _ _
    · extract_lets linkedSubject
      clear_value linkedSubject
      split_ifs
      · exact confined_fail _ _
      · exact unguarded_insertRow (.linkIdentity _)
  · cases password with
    | none => exact confined_pure _
    | some password =>
      exact (confined_ofExcept _).bind fun _ => unguarded_insertRow (.firstPassword _)

theorem unguarded_authenticatePassword (username password : String) (ttl now : ℕ)
    (token csrfToken salt : String) :
    (authenticatePassword H username password ttl now token csrfToken salt).Confined
      (StoreCall.authenticatePassword username password ttl now token csrfToken
        salt).Unguarded := by
  unfold authenticatePassword
  split
  · exact confined_pure _
  refine (unguarded_select _).bind fun row => ?_
  cases row with
  | none => exact confined_pure _
  | some row =>
    dsimp only
    split_ifs
    · exact confined_pure _
    refine Transaction.Confined.bind ?_ fun _ => ?_
    · unfold rehash
      split
      · exact confined_pure _
      · exact unguarded_updateCredential (.rehash _ _)
    exact (unguarded_insertRow (.createSession _)).bind fun _ =>
      (unguarded_audit _ _ _ _ _).bind fun _ =>
        (unguarded_accountFromRow _).bind fun _ => confined_pure _

theorem unguarded_resolveSession (token : String) (now : ℕ) :
    (resolveSession H token now).Confined (StoreCall.resolveSession token now).Unguarded := by
  unfold resolveSession
  split_ifs
  · exact confined_pure _
  refine (unguarded_select _).bind fun row => ?_
  cases row with
  | none => exact confined_pure _
  | some row =>
    dsimp only
    split_ifs
    · exact confined_pure _
    · exact confined_pure _
    exact (unguarded_touchSession .touchSession).bind fun _ =>
      (unguarded_select _).bind fun _ => confined_pure _

theorem unguarded_revokeSession (token : String) (actorUserId : Option String) (now : ℕ) :
    (revokeSession H token actorUserId now).Confined
      (StoreCall.revokeSession token actorUserId now).Unguarded := by
  refine (unguarded_select _).bind fun userId => ?_
  cases userId with
  | none => exact confined_pure _
  | some userId =>
    exact (unguarded_updateRow (.revokeSession _)).bind fun _ => unguarded_audit _ _ _ _ _

theorem statement_updateAccount (userId : String) (displayName email : Option String)
    (isActive : Bool) (actorUserId : Option String) (now : ℕ) :
    (updateAccount userId displayName email isActive actorUserId now).Confined
      (StoreCall.updateAccount userId displayName email isActive actorUserId now).Statement := by
  refine (confined_select _ (statement_read _)).bind fun current => ?_
  cases current with
  | none => exact confined_userNotFound _
  | some current => exact statement_unlessLastAdmin (unguarded_changeAccount _ _ _ _ _ _)

theorem unguarded_resetPassword (userId password : String) (actorUserId : Option String) (now : ℕ)
    (salt : String) :
    (resetPassword H userId password actorUserId now salt).Confined
      (StoreCall.resetPassword userId password actorUserId now salt).Unguarded := by
  refine (confined_ofExcept _).bind fun passwordHash => (unguarded_select _).bind fun present => ?_
  split_ifs
  · refine (unguarded_select _).bind fun credentialUser => Transaction.Confined.bind ?_ fun _ =>
      (unguarded_revokeUserSessions .revokeSessions).bind fun _ => unguarded_audit _ _ _ _ _
    split_ifs
    · exact unguarded_updateCredential (.changePassword _)
    · exact unguarded_insertRow (.insertPassword _)
  · exact confined_userNotFound _

theorem unguarded_updateProfile (userId : String) (displayName email actorUserId : Option String)
    (now : ℕ) :
    (updateProfile userId displayName email actorUserId now).Confined
      (StoreCall.updateProfile userId displayName email actorUserId now).Unguarded := by
  refine (unguarded_updateRow (.updateProfile _ _)).bind fun affected => ?_
  split_ifs
  · exact unguarded_audit _ _ _ _ _
  · exact confined_userNotFound _

theorem unguarded_grantRole (userId roleName : String) (actorUserId : Option String) (now : ℕ) :
    (grantRole userId roleName actorUserId now).Confined
      (StoreCall.grantRole userId roleName actorUserId now).Unguarded :=
  (unguarded_assignRole .grantRole).bind fun _ => unguarded_audit _ _ _ _ _

theorem unguarded_getUserByUsername (username : String) :
    (getUserByUsername username).Confined (StoreCall.getUserByUsername username).Unguarded := by
  unfold getUserByUsername
  generalize canonicalUsername username = canonical
  exact (confined_ofExcept _).bind fun _ => (unguarded_select _).bind fun _ =>
    unguarded_accountFromOptional _

/-- The calls that may count the administrators. -/
def StoreCall.countsAdmins : StoreCall → Prop
  | .setUserActive _ isActive _ _ | .updateAccount _ _ _ isActive _ _ => isActive = false
  | .revokeRole _ roleName _ _ => roleName = adminRole
  | _ => False

theorem unguarded_storeBody {call : StoreCall} (h : ¬ call.countsAdmins) :
    (storeBody H call).Confined call.Unguarded := by
  cases call <;> simp only [storeBody] <;>
    refine Transaction.Confined.bind ?_ fun _ => confined_pure _
  case createUser => exact unguarded_createUser H _ _ _ _ _ _ _ _ _ _ _
  case getUserById =>
    exact (unguarded_select _).bind fun _ => unguarded_accountFromOptional _
  case getUserByUsername => exact unguarded_getUserByUsername _
  case resolveExternalIdentity =>
    exact (unguarded_select _).bind fun _ => unguarded_accountFromOptional _
  case authenticatePassword => exact unguarded_authenticatePassword H _ _ _ _ _ _ _
  case resolveSession => exact unguarded_resolveSession H _ _
  case revokeSession => exact unguarded_revokeSession H _ _ _
  case setUserActive userId isActive actor now =>
    obtain rfl : isActive = true := by simpa [StoreCall.countsAdmins] using h
    exact unguarded_changeActive _ _ _ _
  case updateProfile => exact unguarded_updateProfile _ _ _ _ _
  case updateAccount userId displayName email isActive actor now =>
    obtain rfl : isActive = true := by simpa [StoreCall.countsAdmins] using h
    refine (unguarded_select _).bind fun current => ?_
    cases current with
    | none => exact confined_userNotFound _
    | some current => exact unguarded_changeAccount _ _ _ _ _ _
  case resetPassword => exact unguarded_resetPassword H _ _ _ _ _
  case grantRole => exact unguarded_grantRole _ _ _ _
  case revokeRole userId roleName actor now =>
    have hasked : ¬ roleName = adminRole := h
    simp only [revokeRole, unlessLastAdmin, hasked, decide_false, Bool.false_eq_true, if_false]
    exact (confined_pure _).bind fun lastAdmin => by
      split_ifs
      · exact confined_fail _ _
      · exact unguarded_deleteRole _ _ _ _

/-- The statements of a call make the writes of the call and no others. -/
theorem confined_storeBody (call : StoreCall) : (storeBody H call).Confined call.Statement := by
  by_cases h : call.countsAdmins
  · cases call <;> try exact absurd h id
    all_goals
      simp only [storeBody]
      refine Transaction.Confined.bind ?_ fun _ => confined_pure _
    case setUserActive => exact statement_unlessLastAdmin (unguarded_changeActive _ _ _ _)
    case updateAccount => exact statement_updateAccount _ _ _ _ _ _
    case revokeRole => exact statement_unlessLastAdmin (unguarded_deleteRole _ _ _ _)
  · exact Confined.statement (unguarded_storeBody H h)

end

end SqlTide.Auth
