import SqlTide.Auth.ControlStatements

/-!
# Invalidation of older sessions

A reset of a password or a disabled account revokes the sessions that are committed when its UPDATE
runs. A login reads a hash, verifies it and only later inserts its session: what is excluded are the
logins that a reset or disable overtakes in between, and the revocations that miss a session which
is committed before them.
-/

namespace SqlTide.Auth

open Foundations List TransactionalStore KeyedTable StoreCall Discipline

abbrev Log := List (Completed StoreCall StoreResult)

/-- A session with the password that it was obtained with. -/
structure ObtainedSession where
  userId : String
  token : String
  password : String
  deriving DecidableEq, Repr

/-- The session that a completed call returned to a login. -/
def obtained : Completed StoreCall StoreResult → Option ObtainedSession
  | ⟨.authenticatePassword _ password _ _ _ _ _, _, .session (some (account, credentials))⟩ =>
    some ⟨account.userId, credentials.token, password⟩
  | _ => none

/-- The token that a completed call resolved. -/
def resolvedToken : Completed StoreCall StoreResult → Option String
  | ⟨.resolveSession token _, _, .resolved (some _)⟩ => some token
  | _ => none

/-- The user whose older sessions a call is to invalidate. -/
def StoreCall.invalidates : StoreCall → Option String
  | .resetPassword userId _ _ _ _ | .setUserActive userId false _ _
  | .updateAccount userId _ _ false _ _ => some userId
  | _ => none

/-- The password that a call gives a user. -/
def StoreCall.newPassword (userId : String) : StoreCall → Option String
  | .resetPassword other password _ _ _ => if other = userId then some password else none
  | _ => none

/-- The password of the last reset of a user. -/
def lastPassword (log : Log) (userId : String) : Option String :=
  (log.filterMap fun entry => entry.call.newPassword userId).getLast?

/-- What a log of committed calls is to show: a session whose login had begun before a reset or
disable of its user was committed is resolved by no call that began afterwards, and whoever logs in
after a reset knows the new password. -/
structure InvalidatesOlder (log : Log) : Prop where
  sessions : ∀ (i j k : ℕ) login invalidation resolution session, log[i]? = some login →
    obtained login = some session → log[j]? = some invalidation →
    invalidation.call.invalidates = some session.userId → log[k]? = some resolution →
    resolvedToken resolution = some session.token → login.start ≤ j → resolution.start ≤ j
  passwords : ∀ (i : ℕ) login session password, log[i]? = some login →
    obtained login = some session →
    lastPassword (log.take i) session.userId = some password → session.password = password

/-- Whether a write revokes a session. -/
def Write.revokes (tokenHash : String) : Write → Bool
  | .revokeSessions tokenHashes _ => tokenHash ∈ tokenHashes
  | _ => false

/-- No reset or disable of its user has been committed since a login began, and no session of the
user has been committed since the UPDATE of a reset or disable. -/
def OvertakesNone : TransactionalStore.CommitCondition Tables RowKey Write StoreCall StoreResult :=
  fun call start result _ writes w =>
    (∀ session ∈ obtained ⟨call, start, result⟩, ∀ entry ∈ w.completed.drop start,
      entry.call.invalidates ≠ some session.userId) ∧
    ∀ userId ∈ call.invalidates, ∀ row ∈ w.committed.sessions.rows,
      row.userId = userId → row.revokedAt = none → writes.any (·.revokes row.tokenHash)

instance (call : StoreCall) (start : ℕ) (result : StoreResult) (held : List RowKey)
    (writes : List Write) (w : World Tables StoreCall StoreResult) :
    Decidable (OvertakesNone call start result held writes w) :=
  instDecidableAnd

section Tables

variable {H : Hashing} {d : Tables} {write : Write} {writes : List Write}
  {userId tokenHash : String}
  {row : SessionRow} {good : String → Prop}

theorem credential_apply (h : .passwordCredential userId ∉ write.locks) :
    (d.apply write).passwordCredentials.find userId = d.passwordCredentials.find userId := by
  cases write with
  | insertPasswordCredential row =>
    have hne : row.userId ≠ userId := by simpa [Write.locks, eq_comm] using h
    exact find_insert_of_ne hne
  | setPasswordHash other passwordHash now =>
    have hne : other ≠ userId := by simpa [Write.locks, eq_comm] using h
    rw [Tables.apply, find_modify]
    cases hfind : d.passwordCredentials.find userId with
    | none => rfl
    | some row =>
      have hid := key_of_find hfind
      simp [passwordChange, hid, hne.symm]
  | _ => rfl

theorem credential_isSome_apply (h : (d.passwordCredentials.find userId).isSome) :
    ((d.apply write).passwordCredentials.find userId).isSome := by
  obtain ⟨row, hrow⟩ := Option.isSome_iff_exists.mp h
  cases write with
  | insertPasswordCredential other => simp [Tables.apply, find_insert_of_some hrow]
  | setPasswordHash other passwordHash now => simp [Tables.apply, find_modify, hrow]
  | _ => exact h

theorem session_apply_eq_none (h : ∀ row, write = .insertSession row → row.tokenHash ≠ tokenHash)
    (hnone : d.sessions.find tokenHash = none) :
    (d.apply write).sessions.find tokenHash = none := by
  cases write with
  | insertSession row => rw [Tables.apply, find_insert_of_ne (h row rfl), hnone]
  | setLastSeen other now => simp [Tables.apply, find_modify, hnone]
  | revokeSessions others now => simp [Tables.apply, find_modify, hnone]
  | _ => exact hnone

theorem session_apply (h : d.sessions.find tokenHash = some row) :
    ∃ row', (d.apply write).sessions.find tokenHash = some row' ∧ row'.userId = row.userId ∧
      (row.revokedAt.isSome ∨ write.revokes tokenHash → row'.revokedAt.isSome) := by
  have hkey := key_of_find h
  cases write with
  | insertSession other =>
    exact ⟨row, find_insert_of_some h, rfl, by simp [Write.revokes]⟩
  | setLastSeen other now =>
    refine ⟨sessionChange row (.setLastSeen other now), ?_, by simp, ?_⟩
    · simp [Tables.apply, find_modify, h]
    · simp only [sessionChange, Write.revokes]
      split_ifs <;> simp
  | revokeSessions others now =>
    refine ⟨sessionChange row (.revokeSessions others now), ?_, by simp, ?_⟩
    · simp [Tables.apply, find_modify, h]
    · simp only [sessionChange, Write.revokes, hkey]
      split_ifs with hmem <;> simp [hmem]
  | _ => exact ⟨row, h, rfl, by simp [Write.revokes]⟩

theorem credential_view (h : ∀ write ∈ writes, .passwordCredential userId ∉ write.locks) :
    ((controlStore H).view writes d).passwordCredentials.find userId =
      d.passwordCredentials.find userId := by
  induction writes generalizing d with
  | nil => rfl
  | cons write writes ih =>
    refine (ih fun other hother => h other (by simp [hother])).trans ?_
    exact credential_apply (h write (by simp))

theorem credential_isSome_view (h : (d.passwordCredentials.find userId).isSome) :
    (((controlStore H).view writes d).passwordCredentials.find userId).isSome := by
  induction writes generalizing d with
  | nil => exact h
  | cons write writes ih => exact ih (credential_isSome_apply h)

theorem session_view_eq_none (h : ∀ row, .insertSession row ∈ writes → row.tokenHash ≠ tokenHash)
    (hnone : d.sessions.find tokenHash = none) :
    ((controlStore H).view writes d).sessions.find tokenHash = none := by
  induction writes generalizing d with
  | nil => exact hnone
  | cons write writes ih =>
    refine ih (fun row hrow => h row (by simp [hrow])) (session_apply_eq_none ?_ hnone)
    exact fun row hrow => h row (by simp [hrow])

theorem session_view (h : d.sessions.find tokenHash = some row) :
    ∃ row', ((controlStore H).view writes d).sessions.find tokenHash = some row' ∧
      row'.userId = row.userId ∧
      (row.revokedAt.isSome ∨ writes.any (·.revokes tokenHash) → row'.revokedAt.isSome) := by
  induction writes generalizing d row with
  | nil => exact ⟨row, h, rfl, by simp⟩
  | cons write writes ih =>
    obtain ⟨row₁, hfind₁, huser₁, (hrevoked₁ : _ ∨ write.revokes tokenHash → _)⟩ := session_apply h
    obtain ⟨row₂, hfind₂, huser₂, hrevoked₂⟩ := ih hfind₁
    refine ⟨row₂, hfind₂, huser₂.trans huser₁, fun hrevoked => hrevoked₂ ?_⟩
    rw [any_cons, Bool.or_eq_true] at hrevoked
    rcases hrevoked with hrevoked | hrevoked | hrevoked
    · exact Or.inl (hrevoked₁ (Or.inl hrevoked))
    · exact Or.inl (hrevoked₁ (Or.inr hrevoked))
    · exact Or.inr hrevoked

/-- A session that is inserted under a free hash belongs to the user it is inserted for. -/
theorem session_view_insert (hnone : d.sessions.find tokenHash = none)
    (hinsert : ∃ row, .insertSession row ∈ writes ∧ row.tokenHash = tokenHash)
    (howner : ∀ row, .insertSession row ∈ writes → row.userId = userId) :
    ∃ row', ((controlStore H).view writes d).sessions.find tokenHash = some row' ∧
      row'.userId = userId := by
  induction writes generalizing d with
  | nil => simp at hinsert
  | cons write writes ih =>
    have hrest : ∀ row, .insertSession row ∈ writes → row.userId = userId :=
      fun row hrow => howner row (by simp [hrow])
    by_cases hfirst : ∃ row, write = .insertSession row ∧ row.tokenHash = tokenHash
    · obtain ⟨row, rfl, hkey⟩ := hfirst
      have hfind : (d.apply (.insertSession row)).sessions.find tokenHash = some row := by
        rw [Tables.apply, find_insert (by rw [hkey]; exact hnone), if_pos hkey]
      obtain ⟨row', hfind', huser, _⟩ := session_view hfind
      exact ⟨row', hfind', huser.trans (howner row (by simp))⟩
    · push Not at hfirst
      refine ih (session_apply_eq_none hfirst hnone) ?_ hrest
      obtain ⟨row, hrow, hkey⟩ := hinsert
      rcases mem_cons.mp hrow with hrow | hrow
      · exact absurd hkey (hfirst row hrow.symm)
      · exact ⟨row, hrow, hkey⟩

/-- A credential of the user with a hash of a kind. -/
def Tables.HasCredential (d : Tables) (userId : String) (good : String → Prop) : Prop :=
  ∃ row, d.passwordCredentials.find userId = some row ∧ good row.passwordHash

theorem hasCredential_apply (h : d.HasCredential userId good)
    (hwrite : ∀ passwordHash now, write = .setPasswordHash userId passwordHash now →
      good passwordHash) : (d.apply write).HasCredential userId good := by
  obtain ⟨row, hrow, hgood⟩ := h
  cases write with
  | insertPasswordCredential other => exact ⟨row, find_insert_of_some hrow, hgood⟩
  | setPasswordHash other passwordHash now =>
    refine ⟨passwordChange other passwordHash now row, ?_, ?_⟩
    · simp [Tables.apply, find_modify, hrow]
    · have hid := key_of_find hrow
      unfold passwordChange
      split_ifs with heq
      · exact hwrite passwordHash now (by rw [← hid, heq])
      · exact hgood
  | _ => exact ⟨row, hrow, hgood⟩

theorem hasCredential_view (h : d.HasCredential userId good)
    (hwrites : ∀ passwordHash now, .setPasswordHash userId passwordHash now ∈ writes →
      good passwordHash) : ((controlStore H).view writes d).HasCredential userId good := by
  induction writes generalizing d with
  | nil => exact h
  | cons write writes ih =>
    refine ih (hasCredential_apply h fun passwordHash now hwrite => ?_) fun passwordHash now
      hmem => ?_
    · exact hwrites passwordHash now (by simp [hwrite])
    · exact hwrites passwordHash now (by simp [hmem])

theorem credential_apply_or (h : d.passwordCredentials.find userId = none)
    (hinsert : ∀ row, write = .insertPasswordCredential row → row.userId = userId →
      good row.passwordHash) :
    (d.apply write).passwordCredentials.find userId = none ∨
      (d.apply write).HasCredential userId good := by
  cases write with
  | insertPasswordCredential row =>
    by_cases hkey : row.userId = userId
    · refine Or.inr ⟨row, ?_, hinsert row rfl hkey⟩
      rw [Tables.apply, find_insert (by rw [hkey]; exact h), if_pos hkey]
    · left
      rw [Tables.apply, find_insert_of_ne hkey, h]
  | setPasswordHash other passwordHash now =>
    left
    simp [Tables.apply, find_modify, h]
  | _ => exact Or.inl h

/-- A credential that is new has one of the hashes that are written. -/
theorem credential_view_or
    (h : d.passwordCredentials.find userId = none ∨ d.HasCredential userId good)
    (hupdates : ∀ passwordHash now, .setPasswordHash userId passwordHash now ∈ writes →
      good passwordHash)
    (hinserts : ∀ row, .insertPasswordCredential row ∈ writes → row.userId = userId →
      good row.passwordHash) :
    ((controlStore H).view writes d).passwordCredentials.find userId = none ∨
      ((controlStore H).view writes d).HasCredential userId good := by
  induction writes generalizing d with
  | nil => exact h
  | cons write writes ih =>
    refine ih ?_ (fun passwordHash now hmem => hupdates passwordHash now (by simp [hmem]))
      fun row hmem hkey => hinserts row (by simp [hmem]) hkey
    rcases h with hnone | hhas
    · exact credential_apply_or hnone fun row hwrite => hinserts row (by simp [hwrite])
    · exact Or.inr (hasCredential_apply hhas fun passwordHash now hwrite =>
        hupdates passwordHash now (by simp [hwrite]))

end Tables

/-- A hash that is verified by at most one password. -/
def Hashing.Verifies (H : Hashing) (passwordHash password : String) : Prop :=
  ∀ other, H.verify passwordHash other = true → other = password

/-- What every reached world satisfies. -/
structure SessionInv (H : Hashing) (w : World Tables StoreCall StoreResult) : Prop where
  started : ∀ (i : ℕ) entry, w.completed[i]? = some entry → entry.start ≤ i
  stored : ∀ (i : ℕ) login session, w.completed[i]? = some login →
    obtained login = some session →
    ∃ row, w.committed.sessions.find (H.sha256Hexdigest session.token) = some row ∧
      row.userId = session.userId ∧ ∀ (j : ℕ) invalidation, w.completed[j]? = some invalidation →
        invalidation.call.invalidates = some session.userId → login.start ≤ j →
          row.revokedAt.isSome
  ordered : ∀ (i j : ℕ) login invalidation session, w.completed[i]? = some login →
    obtained login = some session → w.completed[j]? = some invalidation →
    invalidation.call.invalidates = some session.userId → login.start ≤ j → i < j
  credential : ∀ userId password, lastPassword w.completed userId = some password →
    w.committed.HasCredential userId (H.Verifies · password)
  older : InvalidatesOlder w.completed

/-- What others leave as it is. -/
structure SessionRely (held : List RowKey) (w w' : World Tables StoreCall StoreResult) : Prop where
  log : w.completed <+: w'.completed
  credential_isSome : ∀ userId, (w.committed.passwordCredentials.find userId).isSome →
    (w'.committed.passwordCredentials.find userId).isSome
  credential_locked : ∀ userId, .passwordCredential userId ∈ held →
    w'.committed.passwordCredentials.find userId = w.committed.passwordCredentials.find userId
  session_locked : ∀ tokenHash, .session tokenHash ∈ held →
    w.committed.sessions.find tokenHash = none → w'.committed.sessions.find tokenHash = none

def sessionDiscipline (H : Hashing) : Discipline RowKey Tables StoreCall StoreResult where
  inv := SessionInv H
  rely := SessionRely
  rely_refl _ _ := ⟨prefix_rfl, fun _ h => h, fun _ _ => rfl, fun _ _ h => h⟩
  rely_trans _ _ _ _ h h' :=
    ⟨h.log.trans h'.log, fun u hu => h'.credential_isSome u (h.credential_isSome u hu),
      fun u hu => (h'.credential_locked u hu).trans (h.credential_locked u hu),
      fun t ht hnone => h'.session_locked t ht (h.session_locked t ht hnone)⟩

/-- A world that a call has read from. -/
structure ReadFrom (H : Hashing) (start : ℕ) (w₀ w : World Tables StoreCall StoreResult) :
    Prop where
  inv : SessionInv H w₀
  log : w₀.completed <+: w.completed
  started : start ≤ w₀.completed.length

/-- What a login has established when it commits with a session. -/
structure LoginCommit (H : Hashing) (session : ObtainedSession) (start : ℕ) (held : List RowKey)
    (writes : List Write) (w : World Tables StoreCall StoreResult) : Prop where
  verified : ∃ w₀, ReadFrom H start w₀ w ∧
    w₀.committed.HasCredential session.userId (H.verify · session.password = true)
  rehashes : ∀ userId passwordHash now, .setPasswordHash userId passwordHash now ∈ writes →
    userId = session.userId ∧ H.Verifies passwordHash session.password
  inserts : ∃ row, .insertSession row ∈ writes ∧ row.tokenHash = H.sha256Hexdigest session.token
  owned : ∀ row, .insertSession row ∈ writes → row.userId = session.userId
  isFree : w.committed.sessions.find (H.sha256Hexdigest session.token) = none
  locked : .session (H.sha256Hexdigest session.token) ∈ held

/-- What a reset has established when it commits. -/
structure ResetCommit (H : Hashing) (userId password : String) (held : List RowKey)
    (writes : List Write) (w : World Tables StoreCall StoreResult) : Prop where
  updates : ∀ other passwordHash now, .setPasswordHash other passwordHash now ∈ writes →
    other = userId ∧ H.Verifies passwordHash password
  inserts : ∀ row, .insertPasswordCredential row ∈ writes → H.Verifies row.passwordHash password
  sets : ((∃ passwordHash now, .setPasswordHash userId passwordHash now ∈ writes) ∧
      (w.committed.passwordCredentials.find userId).isSome) ∨
    ((∃ passwordHash now, .insertPasswordCredential ⟨userId, passwordHash, now⟩ ∈ writes) ∧
      w.committed.passwordCredentials.find userId = none ∧ .passwordCredential userId ∈ held)

/-- What a call that resolved a token has read. -/
def Resolvable (H : Hashing) (token : String) (start : ℕ) (w : World Tables StoreCall StoreResult) :
    Prop :=
  ∃ w₀, ReadFrom H start w₀ w ∧ ∃ row,
    w₀.committed.sessions.find (H.sha256Hexdigest token) = some row ∧ row.revokedAt = none

def StoreCall.isLogin : StoreCall → Bool
  | .authenticatePassword .. => true
  | _ => false

/-- A call whose statements are the call's and which began when `start` calls had committed. -/
structure Begun (call : StoreCall) (start : ℕ) (held : List RowKey) (writes : List Write)
    (w : World Tables StoreCall StoreResult) : Prop extends call.Statement held writes where
  started : start ≤ w.completed.length

/-- What a call has established when it commits. -/
structure Established (H : Hashing) (call : StoreCall) (start : ℕ) (result : StoreResult)
    (held : List RowKey) (writes : List Write) (w : World Tables StoreCall StoreResult) : Prop
    extends Begun call start held writes w where
  login : ∀ session, obtained ⟨call, start, result⟩ = some session →
    LoginCommit H session start held writes w
  refused : call.isLogin = true → obtained ⟨call, start, result⟩ = none → writes = []
  reset : ∀ userId password, call.newPassword userId = some password →
    ResetCommit H userId password held writes w
  resolution : ∀ token, resolvedToken ⟨call, start, result⟩ = some token →
    Resolvable H token start w

section

variable {H : Hashing} {call : StoreCall} {held : List RowKey} {writes : List Write}
  {w w' w₀ : World Tables StoreCall StoreResult} {d : Tables} {userId password token : String}
  {start : ℕ} {result : StoreResult} {session : ObtainedSession}

theorem ReadFrom.later (h : ReadFrom H start w₀ w) (hrely : SessionRely held w w') :
    ReadFrom H start w₀ w' :=
  ⟨h.inv, h.log.trans hrely.log, h.started⟩

theorem LoginCommit.later (h : LoginCommit H session start held writes w)
    (hrely : SessionRely held w w') : LoginCommit H session start held writes w' := by
  obtain ⟨w₀, hread, hverified⟩ := h.verified
  exact ⟨⟨w₀, hread.later hrely, hverified⟩, h.rehashes, h.inserts, h.owned,
    hrely.session_locked _ h.locked h.isFree, h.locked⟩

theorem ResetCommit.later (h : ResetCommit H userId password held writes w)
    (hrely : SessionRely held w w') : ResetCommit H userId password held writes w' := by
  refine ⟨h.updates, h.inserts, ?_⟩
  rcases h.sets with ⟨hset, hsome⟩ | ⟨hinsert, hnone, hlock⟩
  · exact Or.inl ⟨hset, hrely.credential_isSome userId hsome⟩
  · exact Or.inr ⟨hinsert, (hrely.credential_locked userId hlock).trans hnone, hlock⟩

theorem Resolvable.later (h : Resolvable H token start w) (hrely : SessionRely held w w') :
    Resolvable H token start w' := by
  obtain ⟨w₀, hread, hrow⟩ := h
  exact ⟨w₀, hread.later hrely, hrow⟩

theorem Begun.later (h : Begun call start held writes w) (hrely : SessionRely held w w') :
    Begun call start held writes w' :=
  ⟨h.toStatement, h.started.trans hrely.log.length_le⟩

variable {locks : List RowKey} {more : List Write} {username passwordHash : String} {user : UserRow}
  {j : ℕ} {invalidation login : Completed StoreCall StoreResult}

theorem Begun.append (h : Begun call start held writes w)
    (hmore : call.Statement locks more) : Begun call start (held ++ locks) (writes ++ more) w :=
  ⟨h.toStatement.append hmore, h.started⟩

theorem begun_nil (h : start ≤ w.completed.length) : Begun call start [] [] w :=
  ⟨statement_read _, h⟩

variable {now i : ℕ} {salt : String} {entry : Completed StoreCall StoreResult} {log : Log}

theorem upholds_resolveSession (hstart : start ≤ w.completed.length) :
    (sessionDiscipline H).Upholds (controlStore H)
      (fun resolved held writes w => Begun (.resolveSession token now) start held writes w ∧
        (resolved.isSome → Resolvable H token start w))
      (resolveSession H token now) [] [] w := by
  unfold resolveSession
  have hbegun : Begun (.resolveSession token now) start [] [] w := begun_nil hstart
  have hnone {held writes} {w : World Tables StoreCall StoreResult}
      (h : Begun (.resolveSession token now) start held writes w) :
      (sessionDiscipline H).Upholds (controlStore H)
        (fun resolved held writes w => Begun (.resolveSession token now) start held writes w ∧
          (resolved.isSome → Resolvable H token start w))
        (pure none : Tx (Option ResolvedSession)) held writes w :=
    .commit fun w' hrely _ => ⟨h.later hrely, by simp⟩
  split_ifs with htoken
  · exact hnone hbegun
  refine upholds_select fun w₁ hrely hinv => ?_
  have hbegun₁ := hbegun.later hrely
  have hview : (controlStore H).view [] w₁.committed = w₁.committed := rfl
  rw [hview]
  cases hrow : w₁.committed.sessionWithUser (H.sha256Hexdigest token) with
  | none => exact hnone hbegun₁
  | some row =>
    obtain ⟨session, user⟩ := row
    dsimp only
    split_ifs with hrefused hexpired
    · exact hnone hbegun₁
    · exact hnone hbegun₁
    have hfind : w₁.committed.sessions.find (H.sha256Hexdigest token) = some session := by
      rw [Tables.sessionWithUser, Option.bind_eq_some_iff] at hrow
      obtain ⟨session', hsession', huser⟩ := hrow
      rw [Option.map_eq_some_iff] at huser
      obtain ⟨user', _, hpair⟩ := huser
      rw [hsession', (Prod.mk.inj hpair).1]
    have hrevoked : session.revokedAt = none := by
      rw [Bool.or_eq_true, not_or] at hrefused
      simpa using hrefused.1
    have hresolvable : Resolvable H token start w₁ :=
      ⟨w₁, ⟨hinv, prefix_rfl, hbegun₁.started⟩, session, hfind, hrevoked⟩
    have hrest : Transaction.Confined (StoreCall.resolveSession token now).Statement
        (do
          touchSession session now
          let roles ← Transaction.select fun d : Tables => d.rolesForUser user.id
          pure (some ⟨⟨user.id, user.username, user.displayName, user.email, .password⟩, roles,
            session.csrfToken, session.expiresAt⟩) : Tx (Option ResolvedSession)) :=
      Confined.statement ((unguarded_touchSession .touchSession).bind fun _ =>
        (unguarded_select _).bind fun _ => Transaction.confined_pure _)
    exact upholds_of_confined
      (A := fun held writes w =>
        Begun (.resolveSession token now) start held writes w ∧ Resolvable H token start w)
      (fun _ _ _ _ hrely h => ⟨h.1.later hrely, h.2.later hrely⟩)
      (fun _ _ _ _ _ hmore h => ⟨h.1.append hmore, h.2⟩)
      (fun _ _ _ _ _ h => ⟨h.1, fun _ => h.2⟩) hrest ⟨hbegun₁, hresolvable⟩

theorem Tables.credentialByUsername_eq_some
    (h : d.credentialByUsername username = some (user, passwordHash)) :
    d.HasCredential user.id (· = passwordHash) := by
  rw [Tables.credentialByUsername, Option.bind_eq_some_iff] at h
  obtain ⟨user', _, h⟩ := h
  rw [Option.map_eq_some_iff] at h
  obtain ⟨credential, hfind, hpair⟩ := h
  rw [Prod.mk.injEq] at hpair
  obtain ⟨rfl, hhash⟩ := hpair
  exact ⟨credential, hfind, hhash⟩

theorem Hashing.verifies_hash (password salt : String) :
    H.Verifies (H.hash password salt) password :=
  fun other hother => (H.verify_hash password salt other).mp hother

/-- A login that has verified its password and not yet inserted its session. -/
structure Verified (H : Hashing) (call : StoreCall) (session : ObtainedSession) (start : ℕ)
    (held : List RowKey) (writes : List Write) (w : World Tables StoreCall StoreResult) : Prop
    extends Begun call start held writes w where
  verified : ∃ w₀, ReadFrom H start w₀ w ∧
    w₀.committed.HasCredential session.userId (H.verify · session.password = true)
  rehashes : ∀ write ∈ writes, ∃ passwordHash now,
    write = .setPasswordHash session.userId passwordHash now ∧
      H.Verifies passwordHash session.password

theorem Verified.later (h : Verified H call session start held writes w)
    (hrely : SessionRely held w w') : Verified H call session start held writes w' := by
  obtain ⟨w₀, hread, hverified⟩ := h.verified
  exact ⟨h.toBegun.later hrely, ⟨w₀, hread.later hrely, hverified⟩, h.rehashes⟩

/-- The UPDATE of a verified hash writes a hash of the same password. -/
theorem upholds_rehash
    (hmakes : ∀ passwordHash, call.Makes (.setPasswordHash session.userId passwordHash now))
    (h : Verified H call session start [] [] w) :
    (sessionDiscipline H).Upholds (controlStore H) (fun _ => Verified H call session start)
      (rehash session.userId (verifyPassword H passwordHash session.password salt).2 now) []
        [] w := by
  cases hreplacement : (verifyPassword H passwordHash session.password salt).2 with
  | none => exact .commit fun w' hrely _ => h.later hrely
  | some replacement =>
    obtain rfl : replacement = H.hash session.password salt := by
      unfold verifyPassword at hreplacement
      split_ifs at hreplacement
      simpa [eq_comm] using hreplacement
    refine .statement fun w₁ hrely _ => .commit fun w₂ hrely₂ _ => Verified.later ?_ hrely₂
    have h₁ := h.later hrely
    split_ifs
    · refine ⟨h₁.toBegun.append ⟨by simp [hmakes], by simp⟩, h₁.verified, ?_⟩
      intro write hwrite
      rw [nil_append, mem_singleton] at hwrite
      exact ⟨_, _, hwrite, H.verifies_hash session.password salt⟩
    · simpa using h₁

theorem LoginCommit.audited (h : LoginCommit H session start held writes w) (row : AuditRow) :
    LoginCommit H session start (held ++ (Write.insertAudit row).locks)
      (writes ++ [.insertAudit row]) w where
  verified := h.verified
  rehashes userId passwordHash now hmem := h.rehashes userId passwordHash now (by simpa using hmem)
  inserts := by
    obtain ⟨row, hrow, hhash⟩ := h.inserts
    exact ⟨row, by simp [hrow], hhash⟩
  owned row hrow := h.owned row (by simpa using hrow)
  isFree := h.isFree
  locked := by simp [h.locked]

theorem Verified.insert (h : Verified H call session start held writes w) {row : SessionRow}
    (huser : row.userId = session.userId) (hhash : row.tokenHash = H.sha256Hexdigest session.token)
    (hfree : ((controlStore H).view writes w.committed).sessions.find row.tokenHash = none) :
    LoginCommit H session start (held ++ (Write.insertSession row).locks)
      (writes ++ [.insertSession row]) w where
  verified := h.verified
  rehashes userId passwordHash now hmem := by
    obtain ⟨_, _, heq, hverifies⟩ := h.rehashes _ (by simpa using hmem)
    cases heq
    exact ⟨rfl, hverifies⟩
  inserts := ⟨row, by simp, hhash⟩
  owned other hother := by
    rcases mem_append.mp hother with hother | hother
    · obtain ⟨_, _, heq, _⟩ := h.rehashes _ hother
      cases heq
    · obtain rfl : other = row := by simpa using hother
      exact huser
  isFree := by
    rw [← hhash]
    cases hfind : w.committed.sessions.find row.tokenHash with
    | none => rfl
    | some other =>
      obtain ⟨other', hother', _⟩ : ∃ other', ((controlStore H).view writes
          w.committed).sessions.find row.tokenHash = some other' ∧ _ := session_view hfind
      simp [hfree] at hother'
  locked := by simp [Write.locks, hhash]

theorem upholds_accountFromRow {row : UserRow} {A : World Tables StoreCall StoreResult → Prop}
    (hstable : ∀ w w', SessionRely held w w' → A w → A w') (h : A w) :
    (sessionDiscipline H).Upholds (controlStore H)
      (fun account held' writes' w =>
        account.userId = row.id ∧ held' = held ∧ writes' = writes ∧ A w)
      (accountFromRow row) held writes w := by
  unfold accountFromRow
  refine upholds_select fun w₁ h₁ _ => upholds_select fun w₂ h₂ _ =>
    upholds_select fun w₃ h₃ _ => .commit fun w₄ h₄ _ => ⟨rfl, rfl, rfl, ?_⟩
  exact hstable _ _ h₄ (hstable _ _ h₃ (hstable _ _ h₂ (hstable _ _ h₁ h)))

/-- What a login returns and what it has established by then. -/
def LoginPost (H : Hashing) (call : StoreCall) (password : String) (start : ℕ)
    (returned : Option (UserAccount × SessionCredentials)) (held : List RowKey)
    (writes : List Write)
    (w : World Tables StoreCall StoreResult) : Prop :=
  Begun call start held writes w ∧
    match returned with
    | none => writes = []
    | some (account, credentials) =>
      LoginCommit H ⟨account.userId, credentials.token, password⟩ start held writes w

theorem upholds_loggedIn {credentials : SessionCredentials}
    (hbegun : Begun call start held writes w)
    (hlogin : LoginCommit H ⟨user.id, credentials.token, password⟩ start held writes w) :
    (sessionDiscipline H).Upholds (controlStore H) (LoginPost H call password start)
      (do
        audit "session.created" (some user.id) (some user.id) [] now
        let account ← accountFromRow user
        pure (some (account, credentials))) held writes w := by
  refine upholds_insert fun w₁ hrely hinv _ => ?_
  have hbegun₁ := (hbegun.later hrely).append (unguarded_write (.audit
    ⟨"session.created", some user.id, some user.id, now, []⟩)).toStatement
  have hlogin₁ := (hlogin.later hrely).audited
    ⟨"session.created", some user.id, some user.id, now, []⟩
  generalize held ++ _ = held' at hbegun₁ hlogin₁ ⊢
  generalize writes ++ _ = writes' at hbegun₁ hlogin₁ ⊢
  refine (upholds_accountFromRow (A := fun w => Begun call start held' writes' w ∧
      LoginCommit H ⟨user.id, credentials.token, password⟩ start held' writes' w)
    (fun _ _ hrely h => ⟨h.1.later hrely, h.2.later hrely⟩) ⟨hbegun₁, hlogin₁⟩).bind hinv
      fun account held'' writes'' w₂ _ hpost => ?_
  obtain ⟨huser, rfl, rfl, hbegun₂, hlogin₂⟩ := hpost
  refine .commit fun w₃ hrely₃ _ => ⟨hbegun₂.later hrely₃, ?_⟩
  have hlogin₃ := hlogin₂.later hrely₃
  rwa [← huser] at hlogin₃

theorem upholds_authenticatePassword {csrfToken : String} {ttl : ℕ}
    (hstart : start ≤ w.completed.length) :
    (sessionDiscipline H).Upholds (controlStore H)
      (LoginPost H (.authenticatePassword username password ttl now token csrfToken salt) password
        start)
      (authenticatePassword H username password ttl now token csrfToken salt) [] [] w := by
  set call := StoreCall.authenticatePassword username password ttl now token csrfToken salt
    with hcall
  have hnone {w : World Tables StoreCall StoreResult} (h : Begun call start [] [] w) :
      (sessionDiscipline H).Upholds (controlStore H) (LoginPost H call password start)
        (pure none : Tx _) [] [] w :=
    .commit fun w' hrely _ => ⟨h.later hrely, rfl⟩
  unfold authenticatePassword
  split
  · exact hnone (begun_nil hstart)
  refine upholds_select fun w₁ hrely₁ hinv₁ => ?_
  have hbegun₁ : Begun call start [] [] w₁ := (begun_nil hstart).later hrely₁
  have hview : (controlStore H).view [] w₁.committed = w₁.committed := rfl
  rw [hview]
  cases hrow : w₁.committed.credentialByUsername _ with
  | none => exact hnone hbegun₁
  | some row =>
    obtain ⟨user, candidateHash⟩ := row
    dsimp only
    split_ifs with hrefused
    · exact hnone hbegun₁
    have hverify : H.verify candidateHash password = true := by
      by_contra hverify
      simp [verifyPassword, hverify] at hrefused
    obtain ⟨credential, hfind, hhash⟩ := Tables.credentialByUsername_eq_some hrow
    have hverified : Verified H call ⟨user.id, token, password⟩ start [] [] w₁ :=
      ⟨hbegun₁, ⟨w₁, ⟨hinv₁, prefix_rfl, hbegun₁.started⟩, credential, hfind,
        by rwa [hhash]⟩, by simp⟩
    refine (upholds_rehash (fun _ => .rehash _ _) hverified).bind hinv₁
      fun _ held writes w₂ hinv₂ hverified₂ => ?_
    refine upholds_insert fun w₃ hrely₃ hinv₃ hviolation => ?_
    have hverified₃ := hverified₂.later hrely₃
    have hfree : ((controlStore H).view writes w₃.committed).sessions.find
        (SessionRow.tokenHash ⟨H.sha256Hexdigest token, user.id, csrfToken, now, now,
          now + ttl * 1000000, none⟩) = none := by
      simpa using hviolation
    have hlogin := hverified₃.insert rfl rfl hfree
    exact upholds_loggedIn
      (hverified₃.toBegun.append (unguarded_write (.createSession _)).toStatement) hlogin
theorem ResetCommit.append (h : ResetCommit H userId password held writes w)
    (hmore : ∀ write ∈ more, ∀ other, .passwordCredential other ∉ write.locks) :
    ResetCommit H userId password (held ++ locks) (writes ++ more) w where
  updates other passwordHash now hmem := by
    rcases mem_append.mp hmem with hmem | hmem
    · exact h.updates other passwordHash now hmem
    · exact absurd (by simp [Write.locks]) (hmore _ hmem other)
  inserts row hmem := by
    rcases mem_append.mp hmem with hmem | hmem
    · exact h.inserts row hmem
    · exact absurd (by simp [Write.locks]) (hmore _ hmem row.userId)
  sets := by
    rcases h.sets with ⟨⟨passwordHash, now, hset⟩, hsome⟩ | ⟨⟨passwordHash, now, hinsert⟩,
      hnone, hlock⟩
    · exact Or.inl ⟨⟨passwordHash, now, by simp [hset]⟩, hsome⟩
    · exact Or.inr ⟨⟨passwordHash, now, by simp [hinsert]⟩, hnone, by simp [hlock]⟩

theorem upholds_resetPassword {actor : Option String} (hstart : start ≤ w.completed.length) :
    (sessionDiscipline H).Upholds (controlStore H)
      (fun _ held writes w => Begun (.resetPassword userId password actor now salt) start
        held writes
        w ∧ ResetCommit H userId password held writes w)
      (resetPassword H userId password actor now salt) [] [] w := by
  unfold resetPassword hashPassword
  split_ifs with hlength
  · exact .rollback
  have hverifies := H.verifies_hash password salt
  refine upholds_select fun w₁ hrely₁ _ => ?_
  split_ifs
  swap
  · exact .rollback
  refine upholds_select fun w₂ hrely₂ hinv₂ => ?_
  have hbegun : Begun (.resetPassword userId password actor now salt) start [] [] w₂ :=
    ((begun_nil hstart).later hrely₁).later hrely₂
  -- the rest revokes and audits
  have hrest {held writes} {w : World Tables StoreCall StoreResult}
      (hbegun : Begun (.resetPassword userId password actor now salt) start held writes w)
      (hreset : ResetCommit H userId password held writes w) :
      (sessionDiscipline H).Upholds (controlStore H)
        (fun _ held writes w => Begun (.resetPassword userId password actor now salt) start held
          writes w ∧ ResetCommit H userId password held writes w)
        (do
          revokeUserSessions userId now
          audit "password.reset" actor (some userId) [] now) held writes w := by
    refine .statement fun w₁ hrely _ => .statement fun w₂ hrely₂ _ => .commit fun w₃ hrely₃ _ => ?_
    refine ⟨(((hbegun.later hrely).append ?_).later hrely₂).append ?_ |>.later hrely₃,
      (((hreset.later hrely).append ?_).later hrely₂).append ?_ |>.later hrely₃⟩
    · exact (unguarded_write (.revokeSessions _)).toStatement
    · exact (unguarded_write (.audit _)).toStatement
    · simp [Write.locks]
    · simp [Write.locks]
  cases hcredential :
    (((controlStore H).view [] w₂.committed).passwordCredentials.find userId).isSome
  · refine upholds_insert fun w₃ hrely₃ _ hviolation =>
      hrest ((hbegun.later hrely₃).append
      (unguarded_write (.insertPassword _)).toStatement) ⟨by simp, ?_, Or.inr ⟨?_, ?_, ?_⟩⟩
    · intro row hrow
      obtain rfl := by simpa using hrow
      exact hverifies
    · exact ⟨H.hash password salt, now, by simp⟩
    · have hfree :
        ((controlStore H).view [] w₃.committed).passwordCredentials.find userId = none := by
        simpa using hviolation
      exact hfree
    · simp [Write.locks]
  · refine upholds_execute fun w₃ hrely₃ _ => ?_
    have hsome : (((controlStore H).view [] w₃.committed).passwordCredentials.find userId).isSome :=
      hrely₃.credential_isSome userId hcredential
    rw [if_pos hsome, if_pos hsome]
    refine hrest ((hbegun.later hrely₃).append (unguarded_write (.changePassword _)).toStatement)
      ⟨?_, by simp, Or.inl ⟨⟨H.hash password salt, now, by simp⟩, hsome⟩⟩
    intro other passwordHash now' hmem
    obtain ⟨rfl, rfl, rfl⟩ := by simpa using hmem
    exact ⟨rfl, hverifies⟩

/-- Calls that neither log in nor reset a password nor resolve a session. -/
def StoreCall.isPlain : StoreCall → Bool
  | .authenticatePassword .. | .resetPassword .. | .resolveSession _ _ => false
  | _ => true

theorem Begun.established (h : Begun call start held writes w) (hplain : call.isPlain = true) :
    Established H call start result held writes w where
  toBegun := h
  login session hsession := by
    cases call <;> simp [obtained, isPlain] at hsession hplain
  refused hlogin := by cases call <;> simp [isLogin, isPlain] at hlogin hplain
  reset userId password hreset := by
    cases call <;> simp [newPassword, isPlain] at hreset hplain
  resolution token htoken := by
    cases call <;> simp [resolvedToken, isPlain] at htoken hplain

theorem upholds_established (hstart : start ≤ w.completed.length) (hinv : SessionInv H w) :
    (sessionDiscipline H).Upholds (controlStore H) (Established H call start)
    (storeBody H call) [] []
      w := by
  by_cases hplain : call.isPlain = true
  · exact upholds_of_confined (A := Begun call start) (fun _ _ _ _ hrely h =>
      h.later hrely)
      (fun _ _ _ _ _ hmore h => h.append hmore) (fun _ _ _ _ _ h => h.established hplain)
      (confined_storeBody H call) (begun_nil hstart)
  · cases call <;> simp only [isPlain, not_true] at hplain
    case authenticatePassword username password ttl now token csrfToken salt =>
      refine (upholds_authenticatePassword hstart).bind hinv
        fun returned held writes w₁ _ hpost => .commit fun w₂ hrely _ => ?_
      obtain ⟨hbegun, hreturned⟩ := hpost
      cases returned with
      | none =>
        exact ⟨hbegun.later hrely, by simp [obtained], fun _ _ => hreturned,
          by simp [newPassword], by simp [resolvedToken]⟩
      | some returned =>
        refine ⟨hbegun.later hrely, ?_, by simp [obtained], by simp [newPassword],
          by simp [resolvedToken]⟩
        rintro session hsession
        obtain rfl := by simpa [obtained] using hsession
        exact LoginCommit.later hreturned hrely
    case resolveSession token now =>
      refine (upholds_resolveSession hstart).bind hinv
        fun resolved held writes w₁ _ hpost => .commit fun w₂ hrely _ => ?_
      obtain ⟨hbegun, hresolved⟩ := hpost
      refine ⟨hbegun.later hrely, by simp [obtained], by simp [isLogin],
        by simp [newPassword], ?_⟩
      intro token' htoken'
      cases resolved with
      | none => simp [resolvedToken] at htoken'
      | some resolved =>
        obtain rfl : token = token' := by simpa [resolvedToken] using htoken'
        exact (hresolved rfl).later hrely
    case resetPassword userId password actor now salt =>
      refine (upholds_resetPassword hstart).bind hinv
        fun _ held writes w₁ _ hpost => .commit fun w₂ hrely _ => ?_
      obtain ⟨hbegun, hreset⟩ := hpost
      refine ⟨hbegun.later hrely, by simp [obtained], by simp [isLogin], ?_,
        by simp [resolvedToken]⟩
      intro userId' password' hnew
      obtain ⟨rfl, rfl⟩ : userId = userId' ∧ password = password' := by
        simpa [newPassword] using hnew
      exact hreset.later hrely

theorem invalidates_of_obtained
    (h : obtained entry = some session) : entry.call.invalidates = none := by
  obtain ⟨call, start, result⟩ := entry
  cases call <;> first | rfl | simp [obtained] at h

theorem invalidates_of_newPassword (h : call.newPassword userId = some password) :
    call.invalidates = some userId := by
  cases call <;> simp [newPassword] at h
  exact congrArg some h.1

theorem lastPassword_append_of_none {more : Log}
    (h : ∀ entry ∈ more, entry.call.newPassword userId = none) :
    lastPassword (log ++ more) userId = lastPassword log userId := by
  have hnil : more.filterMap (fun entry => entry.call.newPassword userId) = [] := by
    simpa using h
  rw [lastPassword, lastPassword, filterMap_append, hnil, append_nil]

theorem lastPassword_append_some (h : entry.call.newPassword userId = some password) :
    lastPassword (log ++ [entry]) userId = some password := by
  simp [lastPassword, filterMap_append, h]

/-- The password of a login that no reset has overtaken is the last one. -/
theorem LoginCommit.password_eq (h : LoginCommit H session start held writes w)
    (hovertaken : ∀ entry ∈ w.completed.drop start, entry.call.invalidates ≠ some session.userId)
    (hlast : lastPassword w.completed session.userId = some password) :
    session.password = password := by
  obtain ⟨w₀, hread, credential, hfind, hverify⟩ := h.verified
  obtain ⟨more, hmore⟩ := hread.log
  have hlast₀ : lastPassword w₀.completed session.userId = some password := by
    rw [← hlast, ← hmore]
    refine (lastPassword_append_of_none fun entry hentry => ?_).symm
    rw [Option.eq_none_iff_forall_ne_some]
    intro password' hnew
    refine hovertaken entry ?_ (invalidates_of_newPassword hnew)
    rw [← hmore, drop_append_of_le_length hread.started]
    exact mem_append_right _ hentry
  obtain ⟨row, hrow, hverifies⟩ := hread.inv.credential _ _ hlast₀
  rw [hfind, Option.some_inj] at hrow
  exact hverifies _ (hrow ▸ hverify)

/-- After the writes of a reset the user's hash is verified by the new password only. -/
theorem ResetCommit.hasCredential (h : ResetCommit H userId password held writes w) :
    ((controlStore H).view writes w.committed).HasCredential userId (H.Verifies · password) := by
  rcases h.sets with ⟨⟨passwordHash, now, hmem⟩, hsome⟩ | ⟨⟨passwordHash, now, hmem⟩, hnone, _⟩
  · have hverifies := (h.updates _ _ _ hmem).2
    obtain ⟨before, after, rfl⟩ := append_of_mem hmem
    have hsome' :
      (((controlStore H).view before w.committed).passwordCredentials.find userId).isSome :=
      credential_isSome_view hsome
    obtain ⟨row, hrow⟩ := Option.isSome_iff_exists.mp hsome'
    have hset : (((controlStore H).view before w.committed).apply
        (.setPasswordHash userId passwordHash now)).HasCredential userId
          (H.Verifies · password) := by
      refine ⟨passwordChange userId passwordHash now row, ?_, ?_⟩
      · simp [Tables.apply, find_modify, hrow]
      · rw [passwordChange, if_pos (key_of_find hrow)]
        exact hverifies
    rw [view_append, view_cons]
    exact hasCredential_view hset fun other at' hafter =>
      (h.updates userId other at' (by simp [hafter])).2
  · have hverifies := h.inserts _ hmem
    obtain ⟨before, after, rfl⟩ := append_of_mem hmem
    have hbefore :
      ((controlStore H).view before w.committed).passwordCredentials.find userId = none ∨
        ((controlStore H).view before w.committed).HasCredential userId (H.Verifies · password) :=
      credential_view_or (Or.inl hnone) (fun other at' hupdate =>
          (h.updates userId other at' (by simp [hupdate])).2)
        fun row hrow _ => h.inserts row (by simp [hrow])
    have hinsert : (((controlStore H).view before w.committed).apply
        (.insertPasswordCredential ⟨userId, passwordHash, now⟩)).HasCredential userId
          (H.Verifies · password) := by
      rcases hbefore with hnone | hhas
      · refine ⟨⟨userId, passwordHash, now⟩, ?_, hverifies⟩
        rw [Tables.apply, find_insert (by exact hnone), if_pos rfl]
      · exact hasCredential_apply hhas (by simp)
    rw [view_append, view_cons]
    exact hasCredential_view hinsert fun other at' hafter =>
      (h.updates userId other at' (by simp [hafter])).2

theorem getElem?_completed {last : Completed StoreCall StoreResult}
    (h : (log ++ [last])[i]? = some entry) :
    (i < log.length ∧ log[i]? = some entry) ∨ (i = log.length ∧ entry = last) := by
  rcases lt_trichotomy i log.length with hlt | rfl | hgt
  · exact Or.inl ⟨hlt, by rwa [getElem?_append_left hlt] at h⟩
  · exact Or.inr ⟨rfl, by simpa [eq_comm] using h⟩
  · rw [getElem?_eq_none (by simpa using hgt)] at h
    simp at h

theorem OvertakesNone.lt_start (h : OvertakesNone call start result held writes w)
    (hlogin : obtained ⟨call, start, result⟩ = some session)
    (hj : (w.completed ++ [⟨call, start, result⟩])[j]? = some invalidation)
    (hinvalidates : invalidation.call.invalidates = some session.userId) : j < start := by
  by_contra hstart
  rcases getElem?_completed hj with ⟨_, hj⟩ | ⟨_, rfl⟩
  · refine h.1 session hlogin invalidation ?_ hinvalidates
    refine mem_of_getElem? (i := j - start) ?_
    rw [getElem?_drop, Nat.add_sub_cancel' (not_lt.mp hstart)]
    exact hj
  · simp [invalidates_of_obtained hlogin] at hinvalidates

variable (hinv : SessionInv H w) (h : Established H call start result held writes w)
  (hallowed : OvertakesNone call start result held writes w)

include hinv h hallowed

theorem Established.stored (hi : (w.completed ++ [⟨call, start, result⟩])[i]? = some login)
    (hlogin : obtained login = some session) :
    ∃ row, ((controlStore H).view writes w.committed).sessions.find
        (H.sha256Hexdigest session.token) = some row ∧ row.userId = session.userId ∧
      ∀ (j : ℕ) invalidation, (w.completed ++ [⟨call, start, result⟩])[j]? = some invalidation →
        invalidation.call.invalidates = some session.userId → login.start ≤ j →
          row.revokedAt.isSome := by
  rcases getElem?_completed hi with ⟨_, hi⟩ | ⟨rfl, rfl⟩
  · obtain ⟨row, hfind, huser, hrevoked⟩ := hinv.stored i login session hi hlogin
    obtain ⟨row', hfind', huser', hkept⟩ : ∃ row', ((controlStore H).view writes
        w.committed).sessions.find (H.sha256Hexdigest session.token) = some row' ∧ _ :=
      session_view hfind
    refine ⟨row', hfind', huser'.trans huser, fun j invalidation hj hinvalidates hstart => hkept ?_⟩
    rcases getElem?_completed hj with ⟨_, hj⟩ | ⟨_, rfl⟩
    · exact Or.inl (hrevoked j invalidation hj hinvalidates hstart)
    · -- the call that commits revokes every open session of its user
      cases hopen : row.revokedAt with
      | some revokedAt => exact Or.inl rfl
      | none =>
        right
        rw [← key_of_find hfind]
        exact hallowed.2 session.userId hinvalidates row (mem_of_find hfind) huser hopen
  · have hcommit := h.login session hlogin
    obtain ⟨row, hfind, huser⟩ := session_view_insert hcommit.isFree hcommit.inserts hcommit.owned
    refine ⟨row, hfind, huser, fun j invalidation hj hinvalidates hstart => ?_⟩
    exact absurd (hallowed.lt_start hlogin hj hinvalidates) (not_lt.mpr hstart)

omit h in
theorem OvertakesNone.ordered (hi : (w.completed ++ [⟨call, start, result⟩])[i]? = some login)
    (hlogin : obtained login = some session)
    (hj : (w.completed ++ [⟨call, start, result⟩])[j]? = some invalidation)
    (hinvalidates : invalidation.call.invalidates = some session.userId)
    (hstart : login.start ≤ j) : i < j := by
  rcases getElem?_completed hi with ⟨hlt, hi⟩ | ⟨rfl, rfl⟩
  · rcases getElem?_completed hj with ⟨_, hj⟩ | ⟨rfl, _⟩
    · exact hinv.ordered i j login invalidation session hi hlogin hj hinvalidates hstart
    · exact hlt
  · exact absurd (hallowed.lt_start hlogin hj hinvalidates) (not_lt.mpr hstart)

theorem Established.credential
    (hlast : lastPassword (w.completed ++ [⟨call, start, result⟩]) userId = some password) :
    ((controlStore H).view writes w.committed).HasCredential userId (H.Verifies · password) := by
  cases hnew : call.newPassword userId with
  | some password' =>
    rw [lastPassword_append_some hnew, Option.some_inj] at hlast
    exact hlast ▸ (h.reset userId password' hnew).hasCredential
  | none =>
    rw [lastPassword_append_of_none (by simpa using hnew)] at hlast
    refine hasCredential_view (hinv.credential userId password hlast) fun passwordHash now
      hmem => ?_
    -- only logins and resets write hashes, and this is no reset of the user
    have hmakes := h.makes _ hmem
    cases hsession : obtained ⟨call, start, result⟩ with
    | some session =>
      have hcommit := h.login session hsession
      obtain ⟨rfl, hverifies⟩ := hcommit.rehashes _ _ _ hmem
      rwa [hcommit.password_eq (hallowed.1 session hsession) hlast] at hverifies
    | none =>
      cases hmakes with
      | rehash => simp [h.refused rfl hsession] at hmem
      | changePassword => simp [newPassword] at hnew

/-- A resolution that began after an invalidation has not read an older session. -/
theorem Established.older : InvalidatesOlder (w.completed ++ [⟨call, start, result⟩]) where
  sessions i j k login invalidation resolution session hi hlogin hj hinvalidates hk htoken
    hstart := by
    by_contra hbegan
    rw [not_le] at hbegan
    have hij := hallowed.ordered hinv hi hlogin hj hinvalidates hstart
    rcases getElem?_completed hk with ⟨hlt, hk⟩ | ⟨rfl, rfl⟩
    · have hjk : j < w.completed.length :=
        hbegan.trans ((hinv.started k resolution hk).trans_lt hlt)
      rw [getElem?_append_left hjk] at hj
      rw [getElem?_append_left (hij.trans hjk)] at hi
      exact absurd (hinv.older.sessions i j k login invalidation resolution session hi hlogin hj
        hinvalidates hk htoken hstart) (not_le.mpr hbegan)
    · obtain ⟨w₀, hread, row, hfind, hopen⟩ := h.resolution session.token htoken
      have hj₀ : j < w₀.completed.length := hbegan.trans_le hread.started
      have hearlier {n : ℕ} (hn : n < w₀.completed.length) :
          (w.completed ++ [⟨call, start, result⟩])[n]? = w₀.completed[n]? := by
        obtain ⟨more, hmore⟩ := hread.log
        rw [← hmore, append_assoc, getElem?_append_left hn]
      rw [hearlier hj₀] at hj
      rw [hearlier (hij.trans hj₀)] at hi
      obtain ⟨row', hfind', _, hrevoked⟩ := hread.inv.stored i login session hi hlogin
      rw [hfind, Option.some_inj] at hfind'
      have := hrevoked j invalidation hj hinvalidates hstart
      simp [← hfind', hopen] at this
  passwords i login session password hi hlogin hlast := by
    rcases getElem?_completed hi with ⟨hlt, hi⟩ | ⟨rfl, rfl⟩
    · rw [take_append_of_le_length hlt.le] at hlast
      exact hinv.older.passwords i login session password hi hlogin hlast
    · rw [take_left] at hlast
      exact (h.login session hlogin).password_eq (hallowed.1 session hlogin) hlast

theorem Established.sessionInv :
    SessionInv H ((controlStore H).committed call start result writes w) where
  started i entry hi := by
    rcases getElem?_completed hi with ⟨_, hi⟩ | ⟨rfl, rfl⟩
    · exact hinv.started i entry hi
    · exact h.started
  stored i login session hi hlogin := h.stored hinv hallowed hi hlogin
  ordered i j login invalidation session hi hlogin hj hinvalidates hstart :=
    hallowed.ordered hinv hi hlogin hj hinvalidates hstart
  credential userId password hlast := h.credential hinv hallowed hlast
  older := h.older hinv hallowed

omit hinv hallowed in
/-- What a call writes it has locked, so it is not what others rely on. -/
theorem Established.sessionRely {others : List RowKey}
    (hcompatible : Discipline.Compatible (controlStore H) held others) :
    SessionRely others w ((controlStore H).committed call start result writes w) where
  log := prefix_append _ _
  credential_isSome userId hsome := credential_isSome_view hsome
  credential_locked userId hlock := by
    refine credential_view fun write hwrite hmem => ?_
    have := hcompatible _ (h.locked write hwrite _ hmem) _ hlock
    simp [controlStore, RowKey.conflicts] at this
  session_locked tokenHash hlock hnone := by
    refine session_view_eq_none (fun row hrow hhash => ?_) hnone
    have := hcompatible _ (h.locked _ hrow (.session row.tokenHash) (by simp [Write.locks])) _ hlock
    simp [controlStore, RowKey.conflicts, hhash] at this

end

theorem sessionInv_fresh (H : Hashing) (d : Tables) :
    SessionInv H (⟨d, []⟩ : World Tables StoreCall StoreResult) where
  started i entry hi := by simp at hi
  stored i login session hi := by simp at hi
  ordered i j login invalidation session hi := by simp at hi
  credential userId password hlast := by simp [lastPassword] at hlast
  older := ⟨fun i j k login invalidation resolution session hi => by simp at hi,
    fun i login session password hi => by simp at hi⟩

/-- A reset or disable invalidates everything older, in every run in which no login is overtaken by
one and none misses a session that is committed before it. -/
theorem run_invalidatesOlder (H : Hashing) (d : Tables) (events : List ControlEvent)
    (hallowed : Runs.Along (controlStore H).next (TransactionalStore.Commits OvertakesNone)
      (fresh d : ControlState) events) :
    InvalidatesOlder (Runs.run (controlStore H).next (fresh d : ControlState)
      events).world.completed := by
  have hcommits : Discipline.Guarantees (sessionDiscipline H) (controlStore H) (Established H)
      OvertakesNone :=
    fun call start result held writes w hinv h hallowed =>
      ⟨h.sessionInv hinv hallowed, fun others hcompatible => h.sessionRely hcompatible⟩
  have hsound := sound_run hcommits
    (fun call w hinv => upholds_established le_rfl hinv)
    (sound_fresh (sessionInv_fresh H d)) hallowed
  exact hsound.inv.older

/-- A user with a password. -/
def passwordTables : Tables where
  users := empty.insert ⟨"a", "alice", none, none, true, 0, 0⟩
  externalIdentities := .empty
  passwordCredentials := empty.insert ⟨"a", "old password", 0⟩
  sessions := .empty
  roles := .empty
  userRoles := .empty
  audit := []

/-- A login with the old password, whose steps are 6, and a reset, whose steps are 5. -/
def oldLogin (client : String) : ControlEvent :=
  .call client (.authenticatePassword "alice" "old password" 3600 0 "token" "csrf" "")

def passwordReset (client : String) : ControlEvent :=
  .call client (.resetPassword "a" "new password" none 1 "")

def steps (client : String) (n : ℕ) : List ControlEvent := replicate n (.step client)

theorem run_invalidatesOlder_sequential :
    InvalidatesOlder (Runs.run (controlStore transparentHashing).next
      (fresh passwordTables : ControlState)
      (oldLogin "x" :: steps "x" 6 ++ passwordReset "y" :: steps "y" 5 ++
        .call "z" (.resolveSession "token" 2) :: steps "z" 2)).world.completed :=
  run_invalidatesOlder transparentHashing passwordTables _ (by decide +kernel)

/-- The login has read the old hash when the reset runs, and the session that it inserts afterwards
is resolved. -/
theorem not_run_invalidatesOlder :
    ¬ ∀ (H : Hashing) (d : Tables) (events : List ControlEvent),
      InvalidatesOlder (Runs.run (controlStore H).next (fresh d : ControlState)
        events).world.completed := by
  intro h
  set log := (Runs.run (controlStore transparentHashing).next
    (fresh passwordTables : ControlState)
    (oldLogin "x" :: passwordReset "y" :: steps "y" 5 ++ steps "x" 6 ++
      .call "z" (.resolveSession "token" 2) :: steps "z" 2)).world.completed with hlog
  have holder : InvalidatesOlder log := h transparentHashing passwordTables _
  have hsession : log[1]?.bind obtained = some ⟨"a", "token", "old password"⟩ := by decide +kernel
  have hreset : log[0]?.bind (·.call.invalidates) = some "a" := by decide +kernel
  have hresolved : log[2]?.bind resolvedToken = some "token" := by decide +kernel
  have hstart : log[1]?.map (·.start) = some 0 ∧ log[2]?.map (·.start) = some 2 := by
    decide +kernel
  obtain ⟨login, hi, hlogin⟩ := Option.bind_eq_some_iff.mp hsession
  obtain ⟨reset, hj, hinvalidates⟩ := Option.bind_eq_some_iff.mp hreset
  obtain ⟨resolution, hk, htoken⟩ := Option.bind_eq_some_iff.mp hresolved
  have hbegan := holder.sessions 1 0 2 login reset resolution _ hi hlogin hj hinvalidates hk htoken
  rw [hi, hk, Option.map_some, Option.map_some, Option.some_inj, Option.some_inj] at hstart
  omega

end SqlTide.Auth
