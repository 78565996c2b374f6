import SqlTide.Auth.AuthenticationService

/-!
# Freshness of the authentication cache

An entry of the current revision is resolved by a version of the store that is at least as new as
the settled one, provided that this holds when it is remembered. What goes wrong otherwise is a call
that commits after the resolution and increments the revision before the entry is stored.
-/

namespace SqlTide.Auth

open Foundations List TransactionalStore KeyedTable

section

variable (settings : AuthSettings) (H : Hashing)

/-- A version that is not older than `floor` resolves the credentials. -/
def Resolves (s : ServiceState) (floor : ℕ) (credentials : Credentials) (utc : ℕ)
    (authenticated : Authenticated) : Prop :=
  ∃ d ∈ s.versions.drop floor, d.resolve H credentials utc = some authenticated

instance (s : ServiceState) (floor : ℕ) (credentials : Credentials) (utc : ℕ)
    (authenticated : Authenticated) :
    Decidable (Resolves H s floor credentials utc authenticated) :=
  inferInstanceAs (Decidable (∃ d ∈ s.versions.drop floor, _))

/-- Every call of `authenticate` has returned what the store resolved, at the time of its answer and
in a version not older than what was settled when the call began. -/
def ServesCurrent (s : ServiceState) : Prop :=
  ∀ thread credentials floor utc authenticated,
    (s.threads thread).outcome = some (.authenticated credentials floor utc authenticated) →
      Resolves H s floor credentials utc authenticated

/-- What is remembered is resolved by a version that is not older than the settled one, and no
session has expired when its entry is found. -/
def RemembersCurrent (s : ServiceState) : ServiceEvent → Prop
  | .step thread monotonic utc _ =>
    match (s.threads thread).activity with
    | .authenticating credentials _ (.remember authenticated resolvedAt) =>
      Resolves H s s.settled credentials resolvedAt authenticated
    | .authenticating credentials _ (.lookUp revision) =>
      ∀ entry ∈ s.cached (credentials.cacheKey H) revision monotonic,
        entry.authenticated.Unexpired utc
    | _ => True
  | _ => True

instance (s : ServiceState) (e : ServiceEvent) : Decidable (RemembersCurrent H s e) :=
  match e with
  | .authenticate _ _ | .call _ _ => instDecidableTrue
  | .step thread monotonic utc _ =>
    match h : (s.threads thread).activity with
    | .authenticating credentials _ (.remember authenticated resolvedAt) =>
      decidable_of_iff (Resolves H s s.settled credentials resolvedAt authenticated)
        (by simp [RemembersCurrent, h])
    | .authenticating credentials _ (.lookUp revision) =>
      decidable_of_iff (∀ entry ∈ s.cached (credentials.cacheKey H) revision monotonic,
        entry.authenticated.Unexpired utc) (by simp [RemembersCurrent, h])
    | .authenticating _ _ .readRevision | .authenticating _ _ .resolve
    | .authenticating _ _ .provisionExisting | .authenticating _ _ .provisionUsername
    | .authenticating _ _ .createUser | .authenticating _ _ (.incrementRevision _ _)
    | .authenticating _ _ (.reload _) | .authenticating _ _ .resolveCompeting | .idle | .calling _
    | .committed _ => .isTrue (by simp [RemembersCurrent, h])

end

section Answers

variable {H : Hashing} {d : Tables} {α β : Type} {writes writes' : List Write}

theorem alone_bind (body : Tx α) (next : α → Tx β) :
    (controlStore H).alone d (body >>= next) writes =
      ((controlStore H).alone d body writes).bind fun p => (controlStore H).alone d
        (next p.1) p.2 := by
  induction body generalizing writes with
  | commit result => rfl
  | rollback error => rfl
  | statement locks writes' rest ih => exact ih _

theorem alone_prefix {body : Tx α} {result : α}
    (h : (controlStore H).alone d body writes = .ok (result, writes')) : writes <+: writes' := by
  induction body generalizing writes with
  | commit a =>
    simp only [alone, Except.ok.injEq, Prod.mk.injEq] at h
    exact h.2 ▸ prefix_rfl
  | rollback error => simp [alone] at h
  | statement locks writes'' rest ih => exact (prefix_append _ _).trans (ih _ h)

theorem alone_select (read : Tables → α) (next : α → Tx β) :
    (controlStore H).alone d (Transaction.select read >>= next) writes =
      (controlStore H).alone d (next (read ((controlStore H).view writes d))) writes := by
  change (controlStore H).alone d _ (writes ++ []) = _
  rw [append_nil]
  rfl

theorem alone_pure (a : α) :
    (controlStore H).alone d (pure a : Tx α) writes = .ok (a, writes) := rfl

/-- The account of a row. -/
def Tables.account (d : Tables) (row : UserRow) : UserAccount :=
  ⟨row.id, row.username, row.displayName, row.email, row.isActive, row.createdAt, row.updatedAt,
    d.rolesForUser row.id,
    (sortedBy (fun source : AuthenticationSource => [source.value])
        ((d.externalIdentities.rows.filter fun identity => identity.userId = row.id).map
          (·.source)) ++
      if (d.passwordCredentials.find row.id).isSome then [AuthenticationSource.password]
      else []).eraseDups⟩

/-- The row that an identity is linked to. -/
def Tables.linkedUser (d : Tables) (source : AuthenticationSource) (subject : String) :
    Option UserRow :=
  (d.externalIdentities.find (source, subject)).bind fun identity => d.users.find identity.userId

theorem answer_accountFromOptional (row : Option UserRow) :
    answer H d (accountFromOptional row) = .ok (row.map d.account, []) := by
  cases row with
  | none => rfl
  | some row =>
    rw [answer, accountFromOptional, alone_bind, accountFromRow, alone_select, alone_select,
      alone_select, alone_pure]
    rfl

theorem answer_resolveExternalIdentity (source : AuthenticationSource) (subject : String) :
    answer H d (resolveExternalIdentity source subject) =
      .ok ((d.linkedUser source subject).map d.account, []) :=
  answer_accountFromOptional (d.linkedUser source subject)

theorem answer_getUserById (userId : String) :
    answer H d (getUserById userId) = .ok ((d.users.find userId).map d.account, []) :=
  answer_accountFromOptional (d.users.find userId)

theorem alone_touchSession (session : SessionRow) (utc : ℕ) :
    ∃ writes, (controlStore H).alone d (touchSession session utc) [] = .ok (⟨⟩, writes) ∧
      ∀ userId, ((controlStore H).view writes d).rolesForUser userId = d.rolesForUser userId := by
  unfold touchSession
  split_ifs
  · have hseen (userId : String) (isFound : Bool) : ((controlStore H).view
        (if isFound then [.setLastSeen session.tokenHash utc] else []) d).rolesForUser userId =
        d.rolesForUser userId := by
      cases isFound <;> rfl
    exact ⟨_, rfl, fun userId => hseen userId _⟩
  · exact ⟨[], rfl, fun _ => rfl⟩

/-- What `resolve_session` returns for a session of a user. -/
def Tables.resolvedSession (d : Tables) (utc : ℕ) (row : SessionRow × UserRow) :
    Option ResolvedSession :=
  if row.1.revokedAt.isSome || !row.2.isActive then none
  else if row.1.expiresAt ≤ utc then none
  else some ⟨⟨row.2.id, row.2.username, row.2.displayName, row.2.email, .password⟩,
    d.rolesForUser row.2.id, row.1.csrfToken, row.1.expiresAt⟩

theorem answer_resolveSession (token : String) (utc : ℕ) :
    ∃ writes, answer H d (resolveSession H token utc) = .ok (if token = "" then none else
      (d.sessionWithUser (H.sha256Hexdigest token)).bind (d.resolvedSession utc), writes) := by
  unfold resolveSession
  split_ifs with htoken
  · exact ⟨[], rfl⟩
  cases hrow : d.sessionWithUser (H.sha256Hexdigest token) with
  | none =>
    refine ⟨[], ?_⟩
    have hview : (controlStore H).view [] d = d := rfl
    rw [answer, alone_select, hview, hrow]
    rfl
  | some row =>
    obtain ⟨session, user⟩ := row
    have hview : (controlStore H).view [] d = d := rfl
    rw [answer, alone_select, hview, hrow, Option.bind_some]
    dsimp only [Tables.resolvedSession]
    split_ifs
    · exact ⟨[], rfl⟩
    · exact ⟨[], rfl⟩
    obtain ⟨writes, htouch, hroles⟩ := alone_touchSession (H := H) (d := d) session utc
    refine ⟨writes, ?_⟩
    rw [alone_bind, htouch]
    dsimp only [Except.bind]
    rw [alone_select, alone_pure, hroles]

theorem alone_insertRow {row : Write} {violation : Tables → Option StoreError} {next : PUnit → Tx β}
    {result : β} (h : (controlStore H).alone d (insertRow row violation >>= next) writes = .ok
    (result, writes')) :
    violation ((controlStore H).view writes d) = none ∧
      (controlStore H).alone d (next ⟨⟩) (writes ++ [row]) = .ok (result, writes') := by
  change (controlStore H).alone d (Transaction.bind _ next)
    (writes ++ if (violation _).isNone then [row] else []) = _ at h
  cases hviolation : violation ((controlStore H).view writes d) with
  | some error => simp [hviolation, Transaction.bind, alone] at h
  | none =>
    simp only [hviolation, Transaction.bind] at h
    exact ⟨rfl, h⟩

variable {credentials credentials' : Credentials} {authenticated : Authenticated} {utc utc' : ℕ}
  {subject userId : String}

theorem resolve_proxy (displayName email : Option String) :
    d.resolve H (.proxy subject displayName email) utc =
      (d.linkedUser .trustedProxy subject).bind fun row => accountAuthenticated
        (d.account row) := by
  rw [Tables.resolve, answer_resolveExternalIdentity]
  cases d.linkedUser .trustedProxy subject <;> rfl

theorem resolve_session (token : String) :
    d.resolve H (.session token) utc = if token = "" then none else
      ((d.sessionWithUser (H.sha256Hexdigest token)).bind (d.resolvedSession utc)).map
        sessionAuthenticated := by
  obtain ⟨writes, hanswer⟩ := answer_resolveSession (H := H) (d := d) token utc
  rw [Tables.resolve, hanswer]
  split_ifs
  · rfl
  · cases (d.sessionWithUser (H.sha256Hexdigest token)).bind (d.resolvedSession utc) <;> rfl

theorem resolvedSession_unexpired {row : SessionRow × UserRow} {session : ResolvedSession}
    (h : d.resolvedSession utc row = some session) (hutc : utc' < session.expiresAt) :
    d.resolvedSession utc' row = some session := by
  unfold Tables.resolvedSession at h ⊢
  split_ifs at h ⊢
  · obtain rfl := Option.some_inj.mp h
    exact absurd ‹row.1.expiresAt ≤ utc'› (not_le.mpr hutc)
  · exact h

theorem resolve_of_cacheKey (hkey : credentials.cacheKey H = credentials'.cacheKey H)
    (h : d.resolve H credentials utc = some authenticated) (hutc : authenticated.Unexpired utc') :
    d.resolve H credentials' utc' = some authenticated := by
  cases credentials with
  | proxy subject displayName email =>
    cases credentials' with
    | proxy subject' displayName' email' =>
      obtain rfl : subject = subject' := by simpa [Credentials.cacheKey] using hkey
      rw [resolve_proxy] at h ⊢
      exact h
    | session token =>
      have := congrArg String.toList hkey
      simp [Credentials.cacheKey] at this
  | session token =>
    cases credentials' with
    | proxy subject displayName email =>
      have := congrArg String.toList hkey
      simp [Credentials.cacheKey] at this
    | session token' =>
      have hdigest : H.sha256Hexdigest token = H.sha256Hexdigest token' := by
        simpa [Credentials.cacheKey] using hkey
      rw [resolve_session] at h ⊢
      split_ifs at h with htoken
      have htoken' : token' ≠ "" := by
        rintro rfl
        exact htoken (H.sha256Hexdigest_empty token hdigest)
      rw [if_neg htoken', ← hdigest]
      rw [Option.map_eq_some_iff] at h ⊢
      obtain ⟨session, hsession, rfl⟩ := h
      refine ⟨session, ?_, rfl⟩
      rw [Option.bind_eq_some_iff] at hsession ⊢
      obtain ⟨row, hrow, hresolved⟩ := hsession
      exact ⟨row, hrow, resolvedSession_unexpired hresolved (hutc _ rfl)⟩

/-- The identity of a proxy's subject is linked to a user. -/
def Tables.Linked (d : Tables) (subject userId : String) : Prop :=
  ∃ row, d.externalIdentities.find (.trustedProxy, subject) = some row ∧ row.userId = userId

theorem linked_apply {write : Write} (h : d.Linked subject userId) :
    (d.apply write).Linked subject userId := by
  obtain ⟨row, hrow, huser⟩ := h
  cases write with
  | insertExternalIdentity other => exact ⟨row, find_insert_of_some hrow, huser⟩
  | _ => exact ⟨row, hrow, huser⟩

theorem linked_view (h : d.Linked subject userId) :
    ((controlStore H).view writes d).Linked subject userId := by
  induction writes generalizing d with
  | nil => exact h
  | cons write writes ih => exact ih (linked_apply h)

/-- A subject as `canonical_username` leaves it. -/
def Credentials.Stripped : Credentials → Prop
  | .proxy subject _ _ => SqlText.pythonStrip subject.toList = subject.toList ∧ subject ≠ ""
  | .session _ => True

theorem pythonStrip_eq_self {text : List Char}
    (h : ∀ character ∈ text, SqlText.pythonIsspace character = false) :
    SqlText.pythonStrip text = text := by
  have hleft : text.dropWhile SqlText.pythonIsspace = text := by
    cases text with
    | nil => rfl
    | cons character rest => simp [h character]
  rw [SqlText.pythonStrip, hleft, rdropWhile_eq_self_iff]
  intro hne
  simp [h _ (getLast_mem hne)]

theorem not_isspace_of_isUsernameCharacter {character : Char}
    (h : isUsernameCharacter character = true) : SqlText.pythonIsspace character = false := by
  simp only [isUsernameCharacter, Bool.or_eq_true, Bool.and_eq_true, decide_eq_true_eq,
    Char.le_def, UInt32.le_iff_toNat_le] at h
  have hcode : character.toNat = character.val.toNat := rfl
  have hrange : 48 ≤ character.toNat ∧ character.toNat ≤ 122 := by
    simp at h
    omega
  simp [SqlText.pythonIsspace]
  omega

theorem stripped_of_canonicalUsername {value : String} (h : canonicalUsername value = .ok subject) :
    SqlText.pythonStrip subject.toList = subject.toList ∧ subject ≠ "" := by
  unfold canonicalUsername at h
  extract_lets canonical at h
  split at h
  · simp at h
  · rename_i character rest hcanonical
    split_ifs at h with haccepted
    obtain rfl : canonical = subject := by simpa using h
    simp only [Bool.and_eq_true, decide_eq_true_eq, all_eq_true, Bool.or_eq_true] at haccepted
    obtain ⟨⟨hfirst, _⟩, hrest⟩ := haccepted
    refine ⟨pythonStrip_eq_self fun c hc => ?_, by rintro hempty; simp [hempty] at hcanonical⟩
    rw [hcanonical] at hc
    rcases mem_cons.mp hc with rfl | hc
    · exact not_isspace_of_isUsernameCharacter hfirst
    · rcases hrest c hc with hchar | hchar
      · exact not_isspace_of_isUsernameCharacter hchar
      · fin_cases hchar <;> rfl

theorem stripped_of_credentials {settings : AuthSettings} {headers : AuthHeaders}
    (h : Auth.credentials settings headers = .ok credentials) : credentials.Stripped := by
  cases headers with
  | session token =>
    cases token with
    | none => cases h
    | some token =>
      obtain rfl : Credentials.session token = credentials := Except.ok.inj h
      trivial
  | proxy username displayName email =>
    rw [Auth.credentials.eq_def] at h
    dsimp only at h
    split at h
    · split at h
      · cases h
      · rename_i hcanonical
        cases h
        exact stripped_of_canonicalUsername hcanonical
    · cases h

theorem createUser_linked {displayName email : Option String} {role salt : String} {now : ℕ}
    {result : PUnit} (hsubject : SqlText.pythonStrip subject.toList = subject.toList ∧ subject ≠ "")
    (h : answer H d (createUser H subject displayName email none (some .trustedProxy) (some subject)
      [role] none now userId salt) = .ok (result, writes)) :
    ((controlStore H).view writes d).Linked subject userId := by
  unfold answer createUser at h
  generalize canonicalUsername subject = canonical at h
  cases canonical with
  | error error => simp [ofExcept, alone_bind, alone, Except.bind] at h
  | ok canonical =>
    obtain ⟨-, h⟩ := alone_insertRow h
    have hidentity : String.ofList (SqlText.pythonStrip
        (if (some subject).getD "" = "" then canonical else (some subject).getD "").toList) =
          subject := by
      simp [hsubject.1, hsubject.2]
    simp only [linkIdentity, hidentity, hsubject.2, if_false] at h
    obtain ⟨hfree, h⟩ := alone_insertRow h
    obtain ⟨more, rfl⟩ := alone_prefix h
    rw [view_append, view_append, view_cons]
    refine linked_view (linked_view ⟨⟨.trustedProxy, subject, userId, now⟩, ?_, rfl⟩)
    set created := (controlStore H).view _ d
    have hnone : created.externalIdentities.find (.trustedProxy, subject) = none := by
      simpa using hfree
    change (created.externalIdentities.insert _).find (.trustedProxy, subject) = _
    rw [find_insert (by exact hnone), if_pos rfl]

/-- The account of a user who is linked to a subject is what the store resolves for it. -/
theorem resolve_of_linked {row : UserRow} {displayName email : Option String}
    (h : d.Linked subject userId) (hrow : d.users.find userId = some row)
    (haccount : accountAuthenticated (d.account row) = some authenticated) :
    d.resolve H (.proxy subject displayName email) utc = some authenticated := by
  obtain ⟨identity, hidentity, rfl⟩ := h
  rw [resolve_proxy, Tables.linkedUser, hidentity, Option.bind_some, hrow, Option.bind_some,
    haccount]

end Answers

section Invariant

variable {settings : AuthSettings} {H : Hashing} {s s' : ServiceState} {floor floor' : ℕ}
  {credentials : Credentials} {authenticated : Authenticated} {utc : ℕ} {entry : CacheEntry}
  {activity : Activity} {outcome : Outcome} {thread : String} {phase : AuthPhase}

/-- An entry answers what a version resolves that is not older than `floor`. -/
def CacheEntry.Current (H : Hashing) (s : ServiceState) (floor : ℕ) (entry : CacheEntry) : Prop :=
  ∀ credentials : Credentials, credentials.cacheKey H = entry.key →
    ∀ utc, entry.authenticated.Unexpired utc →
      Resolves H s floor credentials utc entry.authenticated

/-- What a call of `authenticate` knows at a phase. -/
def AuthPhase.Inv (H : Hashing) (s : ServiceState) (credentials : Credentials) (floor : ℕ) :
    AuthPhase → Prop
  | .lookUp revision => ∀ entry ∈ s.cache, entry.revision = revision → entry.Current H s floor
  | .remember authenticated resolvedAt => Resolves H s floor credentials resolvedAt authenticated
  | .incrementRevision userId version => version ≤ s.history.length ∧
      ∀ subject displayName email, credentials = .proxy subject displayName email →
        s.current.Linked subject userId
  | .reload userId => ∀ subject displayName email, credentials = .proxy subject displayName email →
      s.current.Linked subject userId
  | _ => True

def Activity.Inv (H : Hashing) (s : ServiceState) : Activity → Prop
  | .authenticating credentials floor phase =>
    credentials.Stripped ∧ floor ≤ s.settled ∧ phase.Inv H s credentials floor
  | .committed version => version ≤ s.history.length
  | .idle | .calling _ => True

def Outcome.Inv (H : Hashing) (s : ServiceState) : Outcome → Prop
  | .authenticated credentials floor utc authenticated =>
    Resolves H s floor credentials utc authenticated
  | .failed _ | .done => True

structure ServiceInv (H : Hashing) (s : ServiceState) : Prop where
  settled : s.settled ≤ s.history.length
  tagged : ∀ entry ∈ s.cache, entry.revision ≤ s.revision
  entries : ∀ entry ∈ s.cache, entry.revision = s.revision → entry.Current H s s.settled
  activities : ∀ thread, (s.threads thread).activity.Inv H s
  outcomes : ∀ thread, ∀ outcome ∈ (s.threads thread).outcome, outcome.Inv H s

theorem Resolves.weaken (h : Resolves H s floor credentials utc authenticated)
    (hle : floor' ≤ floor) : Resolves H s floor' credentials utc authenticated := by
  obtain ⟨d, hd, hresolve⟩ := h
  refine ⟨d, ?_, hresolve⟩
  rw [← Nat.add_sub_cancel' hle, ← drop_drop] at hd
  exact mem_of_mem_drop hd

theorem CacheEntry.Current.weaken (h : entry.Current H s floor) (hle : floor' ≤ floor) :
    entry.Current H s floor' :=
  fun credentials hkey utc hutc => (h credentials hkey utc hutc).weaken hle

/-- A later state has the versions of the earlier one, and links that do not come undone. -/
structure ServiceState.Extends (s s' : ServiceState) : Prop where
  versions : s.versions <+: s'.versions
  history : s.history.length ≤ s'.history.length
  settled : s.settled ≤ s'.settled
  linked : ∀ subject userId, s.current.Linked subject userId → s'.current.Linked subject userId

theorem Resolves.extend (h : Resolves H s floor credentials utc authenticated) (hs : s.Extends s') :
    Resolves H s' floor credentials utc authenticated := by
  obtain ⟨d, hd, hresolve⟩ := h
  exact ⟨d, (hs.versions.drop floor).subset hd, hresolve⟩

theorem CacheEntry.Current.extend (h : entry.Current H s floor) (hs : s.Extends s') :
    entry.Current H s' floor :=
  fun credentials hkey utc hutc => (h credentials hkey utc hutc).extend hs

theorem Outcome.Inv.extend (h : outcome.Inv H s) (hs : s.Extends s') : outcome.Inv H s' := by
  cases outcome with
  | authenticated credentials floor utc authenticated => exact Resolves.extend h hs
  | failed failure => trivial
  | done => trivial

/-- What a thread knows lasts, if the cache gains only entries that it may be answered with. -/
theorem Activity.Inv.extend (h : activity.Inv H s) (hs : s.Extends s')
    (hcache : ∀ entry ∈ s'.cache, entry ∈ s.cache ∨ entry.Current H s' s.settled) :
    activity.Inv H s' := by
  cases activity with
  | authenticating credentials floor phase =>
    obtain ⟨hstripped, hfloor, hphase⟩ := h
    refine ⟨hstripped, hfloor.trans hs.settled, ?_⟩
    cases phase with
    | lookUp revision =>
      intro entry hentry hrevision
      rcases hcache entry hentry with hold | hnew
      · exact (hphase entry hold hrevision).extend hs
      · exact hnew.weaken hfloor
    | remember authenticated resolvedAt => exact Resolves.extend hphase hs
    | incrementRevision userId version =>
      exact ⟨hphase.1.trans hs.history, fun subject displayName email hcredentials =>
        hs.linked _ _ (hphase.2 subject displayName email hcredentials)⟩
    | reload userId =>
      exact fun subject displayName email hcredentials =>
        hs.linked _ _ (hphase subject displayName email hcredentials)
    | _ => trivial
  | committed version => exact le_trans h hs.history
  | idle => trivial
  | calling call => trivial

theorem ServiceInv.goTo (h : ServiceInv H s) (hactivity : activity.Inv H s) :
    ServiceInv H (s.goTo thread activity) where
  settled := h.settled
  tagged := h.tagged
  entries := h.entries
  activities other := by
    have hs : s.Extends (s.goTo thread activity) :=
      ⟨prefix_rfl, le_rfl, le_rfl, fun _ _ hlinked => hlinked⟩
    by_cases hother : other = thread
    · have hnext : ((s.goTo thread activity).threads other).activity = activity := by
        simp [ServiceState.goTo, hother]
      rw [hnext]
      exact hactivity.extend hs fun entry hentry => Or.inl hentry
    · have hsame : ((s.goTo thread activity).threads other).activity =
          (s.threads other).activity := by
        simp [ServiceState.goTo, hother]
      rw [hsame]
      exact (h.activities other).extend hs fun entry hentry => Or.inl hentry
  outcomes other outcome houtcome := by
    have hold : outcome ∈ (s.threads other).outcome := by
      by_cases hother : other = thread
      · simpa [ServiceState.goTo, hother] using houtcome
      · simpa [ServiceState.goTo, hother] using houtcome
    exact h.outcomes other outcome hold

theorem ServiceInv.finish (h : ServiceInv H s) (houtcome : outcome.Inv H s) :
    ServiceInv H (s.finish thread outcome) where
  settled := h.settled
  tagged := h.tagged
  entries := h.entries
  activities other := by
    have hs : s.Extends (s.finish thread outcome) :=
      ⟨prefix_rfl, le_rfl, le_rfl, fun _ _ hlinked => hlinked⟩
    by_cases hother : other = thread
    · have hidle : ((s.finish thread outcome).threads other).activity = .idle := by
        simp [ServiceState.finish, hother]
      rw [hidle]
      trivial
    · have hsame : ((s.finish thread outcome).threads other).activity =
          (s.threads other).activity := by
        simp [ServiceState.finish, hother]
      rw [hsame]
      exact (h.activities other).extend hs fun entry hentry => Or.inl hentry
  outcomes other outcome' houtcome' := by
    by_cases hother : other = thread
    · subst hother
      obtain rfl : outcome = outcome' := by simpa [ServiceState.finish] using houtcome'
      exact houtcome
    · exact h.outcomes other outcome' (by simpa [ServiceState.finish, hother] using houtcome')

/-- A step of the store or of the cache that leaves the threads where they are. -/
theorem ServiceInv.move (h : ServiceInv H s) (hs : s.Extends s') (hthreads : s'.threads = s.threads)
    (hsettled : s'.settled ≤ s'.history.length)
    (htagged : ∀ entry ∈ s'.cache, entry.revision ≤ s'.revision)
    (hentries : ∀ entry ∈ s'.cache, entry.revision = s'.revision → entry.Current H s' s'.settled)
    (hcache : ∀ entry ∈ s'.cache, entry ∈ s.cache ∨ entry.Current H s' s.settled) :
    ServiceInv H s' where
  settled := hsettled
  tagged := htagged
  entries := hentries
  activities thread := by
    rw [hthreads]
    exact (h.activities thread).extend hs hcache
  outcomes thread outcome houtcome := by
    rw [hthreads] at houtcome
    exact (h.outcomes thread outcome houtcome).extend hs

theorem ServiceState.extends_commit (s : ServiceState) (writes : List Write) :
    s.Extends (s.commit H writes) := by
  unfold ServiceState.commit
  split_ifs
  · exact ⟨prefix_rfl, le_rfl, le_rfl, fun _ _ h => h⟩
  · refine ⟨prefix_append _ _, by simp, le_rfl, fun _ _ h => linked_view h⟩

theorem ServiceInv.commit (h : ServiceInv H s) (writes : List Write) :
    ServiceInv H (s.commit H writes) := by
  have hs := s.extends_commit (H := H) writes
  have hkept : (s.commit H writes).threads = s.threads ∧ (s.commit H writes).cache = s.cache ∧
      (s.commit H writes).revision = s.revision ∧ (s.commit H writes).settled = s.settled := by
    unfold ServiceState.commit
    split_ifs <;> exact ⟨rfl, rfl, rfl, rfl⟩
  obtain ⟨hthreads, hcache, hrevision, hsettled⟩ := hkept
  refine h.move hs hthreads ?_ ?_ ?_ ?_
  · rw [hsettled]
    exact h.settled.trans hs.history
  · rw [hcache, hrevision]
    exact h.tagged
  · rw [hcache, hrevision, hsettled]
    exact fun entry hentry htag => (h.entries entry hentry htag).extend hs
  · rw [hcache]
    exact fun entry hentry => Or.inl hentry

theorem ServiceInv.invalidateAuthentication (h : ServiceInv H s) {version : ℕ}
    (hversion : version ≤ s.history.length) :
    ServiceInv H (s.invalidateAuthentication version) := by
  refine h.move ⟨prefix_rfl, le_rfl, le_max_left _ _, fun _ _ hlinked => hlinked⟩ rfl
    (max_le h.settled hversion) ?_ ?_ fun entry hentry => Or.inl hentry
  · exact fun entry hentry => (h.tagged entry hentry).trans (Nat.le_succ _)
  · intro entry hentry htag
    have := h.tagged entry hentry
    simp only [ServiceState.invalidateAuthentication] at htag
    omega

theorem ServiceInv.forget (h : ServiceInv H s) (key : String) : ServiceInv H (s.forget key) := by
  have hsub : ∀ entry ∈ (s.forget key).cache, entry ∈ s.cache := by
    intro entry hentry
    exact mem_of_mem_filter hentry
  refine h.move ⟨prefix_rfl, le_rfl, le_rfl, fun _ _ hlinked => hlinked⟩ rfl h.settled ?_ ?_
    fun entry hentry => Or.inl (hsub entry hentry)
  · exact fun entry hentry => h.tagged entry (hsub entry hentry)
  · exact fun entry hentry htag => h.entries entry (hsub entry hentry) htag

variable {monotonic : ℕ} {newUserId : String}

/-- What is remembered is what a version resolves that is not older than the settled one. -/
theorem ServiceInv.remember (h : ServiceInv H s)
    (hcurrent : Resolves H s s.settled credentials utc authenticated) :
    ServiceInv H (s.remember (credentials.cacheKey H) authenticated monotonic) := by
  have hentry {entry : CacheEntry}
      (hmem : entry ∈ (s.remember (credentials.cacheKey H) authenticated monotonic).cache) :
      entry ∈ s.cache ∨ entry = ⟨credentials.cacheKey H, monotonic + authenticationCacheTtl,
        s.revision, authenticated⟩ := by
    simp only [ServiceState.remember, mem_append, mem_singleton] at hmem
    rcases hmem with hmem | hmem
    · have hkept := mem_of_mem_filter hmem
      split_ifs at hkept
      · exact Or.inl (mem_of_mem_filter hkept)
      · exact Or.inl hkept
    · exact Or.inr hmem
  have hnew : CacheEntry.Current H s s.settled ⟨credentials.cacheKey H,
      monotonic + authenticationCacheTtl, s.revision, authenticated⟩ := by
    intro credentials' hkey utc' hutc'
    obtain ⟨d, hd, hresolve⟩ := hcurrent
    exact ⟨d, hd, resolve_of_cacheKey hkey.symm hresolve hutc'⟩
  refine h.move ⟨prefix_rfl, le_rfl, le_rfl, fun _ _ hlinked => hlinked⟩ rfl h.settled ?_ ?_ ?_
  · intro entry hmem
    rcases hentry hmem with hold | rfl
    · exact h.tagged entry hold
    · exact le_rfl
  · intro entry hmem htag
    rcases hentry hmem with hold | rfl
    · exact h.entries entry hold htag
    · exact hnew
  · intro entry hmem
    rcases hentry hmem with hold | rfl
    · exact Or.inl hold
    · exact Or.inr hnew

theorem resolves_current (hfloor : floor ≤ s.history.length)
    (h : s.current.resolve H credentials utc = some authenticated) :
    Resolves H s floor credentials utc authenticated := by
  refine ⟨s.current, ?_, h⟩
  rw [ServiceState.versions, drop_append_of_le_length hfloor]
  simp

variable (hinv : ServiceInv H s) (hstripped : credentials.Stripped) (hfloor : floor ≤ s.settled)

include hinv hstripped hfloor

theorem ServiceInv.goOn (hphase : phase.Inv H s credentials floor) :
    ServiceInv H (s.goTo thread (.authenticating credentials floor phase)) :=
  hinv.goTo ⟨hstripped, hfloor, hphase⟩

theorem ServiceInv.rememberActive {account : UserAccount}
    (haccount : ∀ authenticated, accountAuthenticated account = some authenticated →
      s.current.resolve H credentials utc = some authenticated) :
    ServiceInv H (Auth.rememberActive s thread credentials floor utc account) := by
  unfold Auth.rememberActive
  split
  · rename_i authenticated hauthenticated
    exact hinv.goOn hstripped hfloor
      (resolves_current (hfloor.trans hinv.settled) (haccount authenticated hauthenticated))
  · exact hinv.finish trivial

variable {subject : String} {displayName email : Option String}

theorem ServiceInv.resolved
    {absent : ServiceState} (hcredentials : credentials = .proxy subject displayName email)
    (habsent : ServiceInv H absent) :
    ServiceInv H (match answer H s.current (resolveExternalIdentity .trustedProxy subject) with
      | .ok (some account, _) => Auth.rememberActive s thread credentials floor utc account
      | .ok (none, _) => absent
      | .error error => s.finish thread (storeFailure error)) := by
  subst hcredentials
  rw [answer_resolveExternalIdentity]
  cases hlinked : s.current.linkedUser .trustedProxy subject with
  | none => exact habsent
  | some row =>
    refine hinv.rememberActive hstripped hfloor fun authenticated hauthenticated => ?_
    rw [resolve_proxy, hlinked]
    exact hauthenticated

theorem ServiceInv.stepProxy (hcredentials : credentials = .proxy subject displayName email)
    (hphase : phase.Inv H s credentials floor) :
    ServiceInv H (Auth.stepProxy settings H s thread subject displayName email floor utc newUserId
      phase) := by
  subst hcredentials
  cases phase with
  | resolve =>
    refine hinv.resolved hstripped hfloor rfl ?_
    cases settings.unknownUserPolicy with
    | deny => exact hinv.finish trivial
    | autoProvision => exact hinv.goOn hstripped hfloor trivial
  | provisionExisting =>
    exact hinv.resolved hstripped hfloor rfl (hinv.goOn hstripped hfloor trivial)
  | provisionUsername =>
    unfold Auth.stepProxy
    dsimp only
    split
    · exact hinv.goOn hstripped hfloor trivial
    · exact hinv.goOn hstripped hfloor trivial
    · exact hinv.finish trivial
  | createUser =>
    unfold Auth.stepProxy
    dsimp only
    split
    · rename_i writes hcreated
      refine (hinv.commit writes).goTo ⟨hstripped, hfloor.trans (s.extends_commit writes).settled,
        le_rfl, ?_⟩
      rintro subject' displayName' email' ⟨⟩
      have hlinked := createUser_linked hstripped hcreated
      unfold ServiceState.commit
      split_ifs with hempty
      · rwa [isEmpty_iff.mp hempty] at hlinked
      · exact hlinked
    · split_ifs
      · exact hinv.goOn hstripped hfloor trivial
      · exact hinv.finish trivial
  | incrementRevision userId version =>
    refine (hinv.invalidateAuthentication hphase.1).goTo
      ⟨hstripped, hfloor.trans (le_max_left _ _), hphase.2⟩
  | reload userId =>
    unfold Auth.stepProxy
    dsimp only
    rw [answer_getUserById]
    cases hrow : s.current.users.find userId with
    | none => exact hinv.finish trivial
    | some row =>
      exact hinv.rememberActive hstripped hfloor fun authenticated hauthenticated =>
        resolve_of_linked (hphase subject displayName email rfl) hrow hauthenticated
  | resolveCompeting => exact hinv.resolved hstripped hfloor rfl (hinv.finish trivial)
  | _ => exact hinv

theorem ServiceInv.stepSession {token : String} (hcredentials : credentials = .session token) :
    ServiceInv H (Auth.stepSession H s thread token floor utc phase) := by
  subst hcredentials
  unfold Auth.stepSession
  split
  · split
    · rename_i session writes hanswer
      have hresolve : s.current.resolve H (.session token) utc = some
        (sessionAuthenticated session) := by
        rw [Tables.resolve, hanswer]
      refine (hinv.commit writes).goTo ⟨trivial, hfloor.trans (s.extends_commit writes).settled, ?_⟩
      exact (resolves_current (hfloor.trans hinv.settled) hresolve).extend (s.extends_commit writes)
    · exact hinv.finish trivial
    · exact hinv.finish trivial
  · exact hinv

/-- A hit is an entry of the revision that the call has read. -/
theorem ServiceInv.lookUp {revision : ℕ}
    (hphase : AuthPhase.Inv H s credentials floor (.lookUp revision))
    (hunexpired : ∀ entry ∈ s.cached (credentials.cacheKey H) revision monotonic,
      entry.authenticated.Unexpired utc) :
    ServiceInv H (stepAuthenticate settings H s thread credentials floor monotonic utc newUserId
      (.lookUp revision)) := by
  simp only [stepAuthenticate]
  cases hcached : s.cached (credentials.cacheKey H) revision monotonic with
  | none => exact (hinv.forget _).goOn hstripped hfloor trivial
  | some entry =>
    obtain ⟨hfind, hhit⟩ := Option.filter_eq_some_iff.mp hcached
    rw [Bool.and_eq_true, decide_eq_true_eq, decide_eq_true_eq] at hhit
    have hkey : entry.key = credentials.cacheKey H := by simpa using find?_some hfind
    exact hinv.finish (hphase entry (mem_of_find?_eq_some hfind) hhit.2 credentials
      hkey.symm utc
      (hunexpired entry hcached))

theorem ServiceInv.stepAuthenticate (hphase : phase.Inv H s credentials floor)
    (hremembers : ∀ authenticated resolvedAt, phase = .remember authenticated resolvedAt →
      Resolves H s s.settled credentials resolvedAt authenticated)
    (hunexpired : ∀ revision, phase = .lookUp revision →
      ∀ entry ∈ s.cached (credentials.cacheKey H) revision monotonic,
        entry.authenticated.Unexpired utc) :
    ServiceInv H (Auth.stepAuthenticate settings H s thread credentials floor monotonic utc
      newUserId
      phase) := by
  cases phase with
  | readRevision =>
    exact hinv.goOn hstripped hfloor fun entry hentry htag =>
      (hinv.entries entry hentry htag).weaken hfloor
  | lookUp revision => exact hinv.lookUp hstripped hfloor hphase (hunexpired revision rfl)
  | remember authenticated resolvedAt =>
    exact (hinv.remember (hremembers authenticated resolvedAt rfl)).finish hphase
  | _ =>
    cases credentials with
    | proxy subject displayName email =>
      simp only [Auth.stepAuthenticate]
      exact hinv.stepProxy hstripped hfloor rfl hphase
    | session token =>
      simp only [Auth.stepAuthenticate]
      exact hinv.stepSession hstripped hfloor rfl

end Invariant

section Runs

variable {settings : AuthSettings} {H : Hashing} {s : ServiceState}

theorem ServiceInv.next (h : ServiceInv H s) (e : ServiceEvent) (hstep : RemembersCurrent H s e) :
    ServiceInv H (serviceNext settings H s e) := by
  cases e with
  | authenticate thread headers =>
    simp only [serviceNext]
    split
    · rename_i credentials hcredentials
      exact h.goTo ⟨stripped_of_credentials hcredentials, le_rfl, trivial⟩
    · exact h.finish trivial
    · exact h
  | call thread call =>
    simp only [serviceNext]
    split
    · exact h.goTo trivial
    · exact h
  | step thread monotonic utc newUserId =>
    have hactivity := h.activities thread
    simp only [serviceNext]
    cases hthread : (s.threads thread).activity with
    | idle => exact h
    | calling call =>
      dsimp only
      split
      · exact h.finish trivial
      · rename_i writes hanswer
        split_ifs
        · exact (h.commit writes).goTo le_rfl
        · exact (h.commit writes).finish trivial
    | committed version =>
      rw [hthread] at hactivity
      exact (h.invalidateAuthentication hactivity).finish trivial
    | authenticating credentials floor phase =>
      rw [hthread] at hactivity
      obtain ⟨hstripped, hfloor, hphase⟩ := hactivity
      refine h.stepAuthenticate hstripped hfloor hphase ?_ ?_
      · rintro authenticated resolvedAt rfl
        simpa [RemembersCurrent, hthread] using hstep
      · rintro revision rfl
        simpa [RemembersCurrent, hthread] using hstep

theorem serviceInv_started (d : Tables) : ServiceInv H (ServiceState.started d) where
  settled := le_rfl
  tagged entry hentry := by simp [ServiceState.started] at hentry
  entries entry hentry := by simp [ServiceState.started] at hentry
  activities thread := trivial
  outcomes thread outcome houtcome := by simp [ServiceState.started] at houtcome

/-- The cache outlives no revocation in a run in which everything is remembered before a call that
commits after its resolution increments the revision. -/
theorem run_servesCurrent (settings : AuthSettings) (H : Hashing) (d : Tables)
    (events : List ServiceEvent)
    (hremembers : Runs.Along (serviceNext settings H) (RemembersCurrent H) (ServiceState.started d)
      events) :
    ServesCurrent H (Runs.run (serviceNext settings H) (ServiceState.started d) events) := by
  have hinv := Runs.run_invariant (serviceNext settings H) (fun _ e h hstep => h.next e hstep)
    (serviceInv_started d) hremembers
  intro thread credentials floor utc authenticated houtcome
  exact hinv.outcomes thread _ houtcome

/-- A user with a session. -/
def sessionTables : Tables where
  users := empty.insert ⟨"a", "alice", none, none, true, 0, 0⟩
  externalIdentities := .empty
  passwordCredentials := .empty
  sessions := empty.insert ⟨"token", "a", "csrf", 0, 0, 3600000000, none⟩
  roles := .empty
  userRoles := .empty
  audit := []

/-- The steps of a call that finds nothing in the cache, up to the resolution of its session. -/
def resolveToken (thread : String) : List ServiceEvent :=
  [.authenticate thread (.session (some "token")), .step thread 0 1 "", .step thread 0 1 "",
    .step thread 0 1 ""]

def revokeToken (thread : String) : List ServiceEvent :=
  [.call thread (.revokeSession "token" none 2), .step thread 0 2 "", .step thread 0 2 ""]

theorem run_servesCurrent_revoked :
    ServesCurrent transparentHashing (Runs.run (serviceNext {} transparentHashing)
      (ServiceState.started sessionTables)
      (resolveToken "x" ++ .step "x" 0 1 "" :: revokeToken "y" ++ resolveToken "z")) :=
  run_servesCurrent {} transparentHashing sessionTables _ (by decide +kernel)

/-- The session is resolved before it is revoked, and remembered under the new revision. -/
theorem not_run_servesCurrent :
    ¬ ∀ (settings : AuthSettings) (H : Hashing) (d : Tables) (events : List ServiceEvent),
      ServesCurrent H (Runs.run (serviceNext settings H) (ServiceState.started d) events) := by
  intro h
  have hserves := h {} transparentHashing sessionTables
    (resolveToken "x" ++ revokeToken "y" ++ .step "x" 0 2 "" ::
      [.authenticate "z" (.session (some "token")), .step "z" 1 3 "", .step "z" 1 3 ""])
  have hstale := hserves "z" (.session "token") 1 3
    ⟨⟨⟨"a", "alice", none, none, .password⟩, [], some "csrf"⟩, some 3600000000⟩ (by decide +kernel)
  exact absurd hstale (by decide +kernel)

end Runs

end SqlTide.Auth
