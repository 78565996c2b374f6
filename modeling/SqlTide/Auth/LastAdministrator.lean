import Mathlib.Data.List.Perm.Basic
import SqlTide.Auth.ControlStatements

/-!
# The last active administrator

Whoever disables an administrator or takes the role away locks the role and counts. While the role
is locked nobody else does either, so what was counted lasts. `update_account` counts only if it
read the user as active: the runs in which it nevertheless disables an active administrator are
excluded.
-/

namespace SqlTide.Auth

open Foundations TransactionalStore KeyedTable StoreCall Discipline

/-- An active user with the admin role. -/
def Tables.activeAdmin (d : Tables) (userId : String) : Bool :=
  (d.users.find userId).any (·.isActive) && d.hasRole userId adminRole

def Tables.adminExists (d : Tables) : Bool := d.users.rows.any fun user => d.activeAdmin user.id

/-- An update of an account that did not lock the role does not disable an active administrator. -/
def DisablesNoAdmin : TransactionalStore.CommitCondition Tables RowKey Write StoreCall StoreResult
  | .updateAccount userId _ _ false _ _, _, _, held, _, w =>
    .role adminRole ∈ held ∨ w.committed.activeAdmin userId = false
  | _, _, _, _, _, _ => True

instance (call : StoreCall) (start : ℕ) (result : StoreResult) (held : List RowKey)
    (writes : List Write) (w : World Tables StoreCall StoreResult) :
    Decidable (DisablesNoAdmin call start result held writes w) :=
  match call with
  | .updateAccount _ _ _ false _ _ => instDecidableOr
  | .updateAccount _ _ _ true _ _ => instDecidableTrue
  | .createUser .. | .getUserById _ | .getUserByUsername _ | .resolveExternalIdentity _ _
  | .authenticatePassword .. | .resolveSession _ _ | .revokeSession _ _ _ | .setUserActive _ _ _ _
  | .updateProfile _ _ _ _ _ | .resetPassword _ _ _ _ _ | .grantRole _ _ _ _
  | .revokeRole _ _ _ _ => instDecidableTrue

/-- The user whom a write disables or takes the admin role from. -/
def Write.demoted : Write → Option String
  | .setActive userId false _ | .setAccount userId _ _ false _ => some userId
  | .deleteUserRole userId roleName => if roleName = adminRole then some userId else none
  | _ => none

/-- The user whom a call disables or takes the admin role from. -/
def StoreCall.demoted : StoreCall → Option String
  | .setUserActive userId false _ _ | .updateAccount userId _ _ false _ _ => some userId
  | .revokeRole userId roleName _ _ => if roleName = adminRole then some userId else none
  | _ => none

section Tables

variable {d : Tables} {userId : String} {write : Write}

theorem adminExists_iff : d.adminExists = true ↔ ∃ userId, d.activeAdmin userId = true := by
  rw [Tables.adminExists, List.any_eq_true]
  constructor
  · rintro ⟨user, _, h⟩
    exact ⟨user.id, h⟩
  · rintro ⟨userId, h⟩
    cases hfind : d.users.find userId with
    | none => simp [Tables.activeAdmin, hfind] at h
    | some user =>
      obtain ⟨hmem, rfl⟩ := find_eq_some.mp hfind
      exact ⟨user, hmem, h⟩

theorem StoreCall.Makes.demoted_eq {call : StoreCall} (h : call.Makes write)
    (hdemoted : write.demoted = some userId) : call.demoted = some userId := by
  cases h with
  | changeActive =>
    rename_i isActive _ _
    cases isActive <;> simp_all [Write.demoted, demoted]
  | changeAccount =>
    rename_i isActive _ _ _ _
    cases isActive <;> simp_all [Write.demoted, demoted]
  | revokeRole => simpa [Write.demoted, demoted] using hdemoted
  | _ => simp [Write.demoted] at hdemoted

theorem activeAdmin_apply (h : d.activeAdmin userId = true)
    (hdemoted : write.demoted ≠ some userId) : (d.apply write).activeAdmin userId = true := by
  rw [Tables.activeAdmin, Bool.and_eq_true, Option.any_eq_true] at h
  obtain ⟨⟨user, huser, hactive⟩, hrole⟩ := h
  rw [Tables.activeAdmin, Bool.and_eq_true, Option.any_eq_true]
  have hid := key_of_find huser
  cases write with
  | insertUser row => exact ⟨⟨user, find_insert_of_some huser, hactive⟩, hrole⟩
  | insertUserRole row =>
    refine ⟨⟨user, huser, hactive⟩, ?_⟩
    obtain ⟨row', hrow'⟩ := Option.isSome_iff_exists.mp hrole
    exact Option.isSome_iff_exists.mpr ⟨row', find_insert_of_some hrow'⟩
  | setActive other isActive now =>
    refine ⟨⟨userChange user _,
      by rw [Tables.apply, find_modify, huser]; rfl, ?_⟩, hrole⟩
    cases isActive with
    | true => simp only [userChange]; split_ifs <;> simp [hactive]
    | false => simp_all [userChange, Write.demoted, Ne.symm]
  | setProfile other displayName email now =>
    refine ⟨⟨userChange user _,
      by rw [Tables.apply, find_modify, huser]; rfl, ?_⟩, hrole⟩
    simp only [userChange]
    split_ifs <;> exact hactive
  | setAccount other displayName email isActive now =>
    refine ⟨⟨userChange user _,
      by rw [Tables.apply, find_modify, huser]; rfl, ?_⟩, hrole⟩
    cases isActive with
    | true => simp only [userChange]; split_ifs <;> simp [hactive]
    | false => simp_all [userChange, Write.demoted, Ne.symm]
  | deleteUserRole other roleName =>
    refine ⟨⟨user, huser, hactive⟩, ?_⟩
    obtain ⟨row, hrow⟩ := Option.isSome_iff_exists.mp hrole
    have hkey := key_of_find hrow
    have hkept : ¬ (row.userId = other ∧ row.roleName = roleName) := by
      rintro ⟨rfl, rfl⟩
      simp_all [Write.demoted]
    rw [Tables.hasRole, Tables.apply, find_filter, hrow, Option.filter_some]
    simp [hkept]
  | _ => exact ⟨⟨user, huser, hactive⟩, hrole⟩

theorem hasRole_apply (h : d.hasRole userId adminRole = false)
    (hrow : ∀ row, write = .insertUserRole row → row.roleName ≠ adminRole) :
    (d.apply write).hasRole userId adminRole = false := by
  cases write with
  | insertUserRole row =>
    have hne : (row.userId, row.roleName) ≠ (userId, adminRole) := by
      simp [hrow row rfl]
    have hfind : (d.userRoles.insert row).find (userId, adminRole) =
        d.userRoles.find (userId, adminRole) := find_insert_of_ne hne
    rw [Tables.hasRole, Tables.apply, hfind]
    exact h
  | deleteUserRole other roleName =>
    rw [Tables.hasRole, Option.isSome_eq_false_iff, Option.isNone_iff_eq_none] at h ⊢
    rw [Tables.apply, find_filter, h, Option.filter_none]
  | _ => exact h

/-- If more than one active administrator is counted, then there is another. -/
theorem exists_activeAdmin_ne (h : 1 < d.activeAdminCount) :
    ∃ other, other ≠ userId ∧ d.activeAdmin other = true := by
  by_contra hnone
  push Not at hnone
  refine absurd h (not_lt.mpr ?_)
  rw [Tables.activeAdminCount]
  set admins := (d.users.rows.filter (·.isActive)).flatMap fun user =>
    d.userRoles.rows.filter fun row => row.userId = user.id && row.roleName = adminRole with hadmins
  have hkey : ∀ row ∈ admins, row ∈ d.userRoles.rows ∧ (row.userId, row.roleName) =
      (userId, adminRole) := by
    intro row hrow
    simp only [hadmins, List.mem_flatMap, List.mem_filter, Bool.and_eq_true, decide_eq_true_eq]
      at hrow
    obtain ⟨user, ⟨huser, hactive⟩, hmem, hid, hname⟩ := hrow
    have hadmin : d.activeAdmin user.id = true := by
      rw [Tables.activeAdmin, Tables.hasRole, mem_rows.mp huser, ← hid, ← hname]
      have hrole := mem_rows.mp hmem
      simp only [hrole, Option.isSome_some, Option.any_some, hactive, Bool.and_self]
    have hid' : user.id = userId := by
      by_contra hne
      exact hnone _ hne hadmin
    exact ⟨hmem, by rw [hid, hid', hname]⟩
  have hnodup : admins.Nodup := by
    rw [hadmins, List.nodup_flatMap]
    refine ⟨fun user _ => (List.Nodup.of_map _ d.userRoles.nodup).filter _, ?_⟩
    refine (List.Pairwise.filter _ (List.pairwise_map.mp d.users.nodup)).imp ?_
    intro a b hne row hrow hrow'
    simp only [List.mem_filter, Bool.and_eq_true, decide_eq_true_eq] at hrow hrow'
    exact hne (hrow.2.1.symm.trans hrow'.2.1)
  clear_value admins
  rcases admins with _ | ⟨a, _ | ⟨b, rest⟩⟩
  · simp
  · simp
  · obtain ⟨ha, hkeya⟩ := hkey a (by simp)
    obtain ⟨hb, hkeyb⟩ := hkey b (by simp)
    have hab := List.inj_on_of_nodup_map d.userRoles.nodup ha hb (hkeya.trans hkeyb.symm)
    rw [hab] at hnodup
    simp at hnodup

end Tables

/-- The role is not the user's, or somebody else is an active administrator. -/
def Tables.Spares (d : Tables) (userId : String) : Prop :=
  d.hasRole userId adminRole = false ∨ ∃ other, other ≠ userId ∧ d.activeAdmin other = true

/-- While the role is locked, no active administrator ceases to be one and nobody is granted the
role. -/
def adminDiscipline : Discipline RowKey Tables StoreCall StoreResult where
  inv _ := True
  rely held w w' := .role adminRole ∈ held →
    (∀ userId, w.committed.activeAdmin userId = true → w'.committed.activeAdmin userId = true) ∧
    ∀ userId, w.committed.hasRole userId adminRole = false →
      w'.committed.hasRole userId adminRole = false
  rely_refl _ _ _ := ⟨fun _ h => h, fun _ h => h⟩
  rely_trans _ _ _ _ h₁ h₂ hlock :=
    ⟨fun u h => (h₂ hlock).1 u ((h₁ hlock).1 u h), fun u h => (h₂ hlock).2 u ((h₁ hlock).2 u h)⟩

/-- What a call has established when it commits. -/
structure GuardedCommit (call : StoreCall) (held : List RowKey) (writes : List Write)
    (w : World Tables StoreCall StoreResult) : Prop extends call.Statement held writes where
  guarded : ∀ userId, call.demoted = some userId →
    (.role adminRole ∈ held ∧ w.committed.Spares userId) ∨
      (.role adminRole ∉ held ∧ ∃ displayName email actor now,
        call = .updateAccount userId displayName email false actor now)

section

variable {H : Hashing} {call : StoreCall} {held : List RowKey} {writes : List Write}
  {w w' : World Tables StoreCall StoreResult} {d : Tables} {userId : String} {start : ℕ}
  {result : StoreResult}

theorem Tables.Spares.later (h : w.committed.Spares userId) (hrely : adminDiscipline.rely held w w')
    (hlock : .role adminRole ∈ held) : w'.committed.Spares userId := by
  rcases h with h | ⟨other, hne, h⟩
  · exact Or.inl ((hrely hlock).2 userId h)
  · exact Or.inr ⟨other, hne, (hrely hlock).1 other h⟩

theorem GuardedCommit.later (h : GuardedCommit call held writes w)
    (hrely : adminDiscipline.rely held w w') : GuardedCommit call held writes w' where
  toStatement := h.toStatement
  guarded userId hdemoted := by
    rcases h.guarded userId hdemoted with ⟨hlock, hspares⟩ | hskipped
    · exact Or.inl ⟨hlock, hspares.later hrely hlock⟩
    · exact Or.inr hskipped

theorem GuardedCommit.append (h : GuardedCommit call held writes w) {locks : List RowKey}
    {more : List Write} (hmore : call.Unguarded locks more) :
    GuardedCommit call (held ++ locks) (writes ++ more) w where
  toStatement := h.toStatement.append hmore.toStatement
  guarded userId hdemoted := by
    rcases h.guarded userId hdemoted with ⟨hlock, hspares⟩ | ⟨hlock, hskipped⟩
    · exact Or.inl ⟨List.mem_append_left _ hlock, hspares⟩
    · exact Or.inr ⟨by simp [hlock, hmore.unguarded], hskipped⟩

theorem upholds_unguarded {α : Type} {body : Tx α} (hbody : body.Confined call.Unguarded)
    (h : GuardedCommit call held writes w) :
    adminDiscipline.Upholds (controlStore H) (fun _ => GuardedCommit call) body held writes w :=
  upholds_of_confined (fun _ _ _ _ hrely hguarded => hguarded.later hrely)
    (fun _ _ _ _ _ hmore hguarded => hguarded.append hmore) (fun _ _ _ _ _ hguarded => hguarded)
    hbody h

theorem guardedCommit_nil (h : ∀ userId, call.demoted = some userId →
      .role adminRole ∈ held ∧ w.committed.Spares userId) : GuardedCommit call held [] w :=
  ⟨statement_read _, fun userId hdemoted => Or.inl (h userId hdemoted)⟩

/-- Who is not counted as the last administrator is not the last one while the lock is held. -/
theorem upholds_isLastAdmin :
    adminDiscipline.Upholds (controlStore H)
      (fun last held writes w => last = false →
        writes = [] ∧ .role adminRole ∈ held ∧ w.committed.Spares userId)
      (isLastAdmin userId) held [] w := by
  unfold isLastAdmin
  refine upholds_selectForUpdate fun w₁ _ _ => ?_
  have hview : (controlStore H).view [] w₁.committed = w₁.committed := rfl
  rw [hview]
  cases hrole : w₁.committed.roles.find adminRole with
  | none => exact .rollback
  | some role =>
    rw [Option.isSome_some, if_pos rfl]
    have hlock : RowKey.role adminRole ∈ held ++ [.role adminRole] := by simp
    refine upholds_select fun w₂ _ _ => ?_
    have hview : (controlStore H).view [] w₂.committed = w₂.committed := rfl
    rw [hview]
    cases hadmin : w₂.committed.hasRole userId adminRole with
    | false =>
      refine .commit fun w₃ hrely _ _ => ⟨rfl, hlock, ?_⟩
      exact Tables.Spares.later (Or.inl hadmin) hrely hlock
    | true =>
      refine upholds_select fun w₃ _ _ => .commit fun w₄ hrely _ hlast =>
        ⟨rfl, hlock, ?_⟩
      have hcount : 1 < w₃.committed.activeAdminCount  := not_le.mp (of_decide_eq_false hlast)
      exact Tables.Spares.later (Or.inr (exists_activeAdmin_ne hcount)) hrely hlock

theorem upholds_unlessLastAdmin {message : String} {rest : Tx PUnit}
    (hrest : rest.Confined call.Unguarded) (hdemoted : call.demoted = some userId) :
    adminDiscipline.Upholds (controlStore H) (fun _ => GuardedCommit call)
      (unlessLastAdmin true userId message rest) held [] w := by
  rw [unlessLastAdmin, if_pos rfl]
  refine upholds_isLastAdmin.bind trivial fun last held writes w _ hlast => ?_
  cases last with
  | true => exact .rollback
  | false =>
    obtain ⟨rfl, hlock, hspares⟩ := hlast rfl
    refine upholds_unguarded hrest (guardedCommit_nil fun other hother => ?_)
    rw [hdemoted, Option.some_inj] at hother
    exact ⟨hlock, hother ▸ hspares⟩

theorem upholds_updateAccount {displayName email actor : Option String} {now : ℕ} :
    adminDiscipline.Upholds (controlStore H)
      (fun _ => GuardedCommit (.updateAccount userId displayName email false actor now))
      (updateAccount userId displayName email false actor now) [] [] w := by
  unfold updateAccount
  refine upholds_select fun w₁ _ _ => ?_
  cases (controlStore H).view [] w₁.committed |>.users.find userId with
  | none => exact .rollback
  | some current =>
    have hrest := unguarded_changeAccount userId displayName email false actor now
    cases hactive : current.isActive with
    | true =>
      simp only [hactive, Bool.not_false, Bool.and_self]
      exact upholds_unlessLastAdmin hrest rfl
    | false =>
      -- the administrators are not counted, and the role is not locked
      simp only [hactive, Bool.and_false]
      have hguarded : GuardedCommit (.updateAccount userId displayName email false actor now) [] []
          w₁ := by
        refine ⟨statement_read _, fun other hother => Or.inr ⟨by simp, ?_⟩⟩
        rw [demoted, Option.some_inj] at hother
        exact ⟨displayName, email, actor, now, by rw [hother]⟩
      refine upholds_unguarded ((Transaction.confined_pure _).bind fun lastAdmin => ?_) hguarded
      split_ifs
      · exact confined_fail _ _
      · exact hrest

theorem demoted_eq_none (h : ¬ call.countsAdmins) : call.demoted = none := by
  cases call with
  | setUserActive userId isActive =>
    obtain rfl : isActive = true := by simpa [countsAdmins] using h
    rfl
  | updateAccount userId displayName email isActive =>
    obtain rfl : isActive = true := by simpa [countsAdmins] using h
    rfl
  | revokeRole userId roleName => exact if_neg h
  | _ => rfl

theorem upholds_storeBody :
    adminDiscipline.Upholds (controlStore H) (fun _ => GuardedCommit call) (storeBody H call) [] []
      w := by
  by_cases h : call.countsAdmins
  · -- the guarded calls return nothing, so their commit is that of their last statement
    have hunit {body : Tx PUnit} (hbody : adminDiscipline.Upholds (controlStore H)
        (fun _ => GuardedCommit call) body [] [] w) :
        adminDiscipline.Upholds (controlStore H) (fun _ => GuardedCommit call)
          (body >>= fun _ => pure StoreResult.unit) [] [] w :=
      hbody.bind trivial fun _ held writes w _ hguarded =>
        .commit fun w' hrely _ => hguarded.later hrely
    cases call <;> simp only [countsAdmins] at h <;> subst h
    case setUserActive => exact hunit (upholds_unlessLastAdmin (unguarded_changeActive _ _ _ _) rfl)
    case updateAccount => exact hunit upholds_updateAccount
    case revokeRole =>
      exact hunit (upholds_unlessLastAdmin (unguarded_deleteRole _ _ _ _) (by simp [demoted]))
  · refine upholds_unguarded (unguarded_storeBody H h) (guardedCommit_nil fun userId hdemoted => ?_)
    simp [demoted_eq_none h] at hdemoted

theorem activeAdmin_view (h : d.activeAdmin userId = true)
    (hdemoted : ∀ write ∈ writes, write.demoted ≠ some userId) :
    ((controlStore H).view writes d).activeAdmin userId = true := by
  induction writes generalizing d with
  | nil => exact h
  | cons write writes ih =>
    exact ih (activeAdmin_apply h (hdemoted write (by simp)))
      fun write' hwrite' => hdemoted write' (by simp [hwrite'])

theorem hasRole_view (h : d.hasRole userId adminRole = false)
    (hrow : ∀ row, .insertUserRole row ∈ writes → row.roleName ≠ adminRole) :
    ((controlStore H).view writes d).hasRole userId adminRole = false := by
  induction writes generalizing d with
  | nil => exact h
  | cons write writes ih =>
    refine ih (hasRole_apply h fun row hwrite => ?_) fun row hmem => hrow row (by simp [hmem])
    exact hrow row (by simp [hwrite])

/-- The commit of an allowed call leaves all other administrators as they are. -/
theorem GuardedCommit.activeAdmin (h : GuardedCommit call held writes w)
    (hadmin : w.committed.activeAdmin userId = true) (hdemoted : call.demoted ≠ some userId) :
    ((controlStore H).committed call start result writes w).committed.activeAdmin userId = true :=
  activeAdmin_view hadmin fun write hwrite heq => hdemoted ((h.makes write hwrite).demoted_eq heq)

/-- A call that does not lock the role does not demote an active administrator. -/
theorem GuardedCommit.demoted_ne (h : GuardedCommit call held writes w)
    (hallowed : DisablesNoAdmin call start result held writes w) (hlock : .role adminRole ∉ held)
    (hadmin : w.committed.activeAdmin userId = true) : call.demoted ≠ some userId := by
  intro hdemoted
  rcases h.guarded userId hdemoted with ⟨hheld, _⟩ | ⟨_, displayName, email, actor, now, rfl⟩
  · exact hlock hheld
  · rcases hallowed with hheld | hinactive
    · exact hlock hheld
    · simp [hinactive] at hadmin

theorem guarantees_guardedCommit :
    Discipline.Guarantees adminDiscipline (controlStore H)
      (fun call _ _ => GuardedCommit call) DisablesNoAdmin := by
  intro call start result held writes w _ hguarded hallowed
  refine ⟨trivial, fun others hcompatible hlock =>
    ⟨fun userId hadmin => ?_, fun userId hrole => ?_⟩⟩
  · have hunlocked : RowKey.role adminRole ∉ held := by
      intro hheld
      have := hcompatible _ hheld _ hlock
      simp [controlStore, RowKey.conflicts] at this
    exact hguarded.activeAdmin hadmin (hguarded.demoted_ne hallowed hunlocked hadmin)
  · refine hasRole_view hrole fun row hrow hname => ?_
    have := hcompatible _ (hguarded.locked _ hrow (.roleKey row.roleName) (by simp [Write.locks])) _
      hlock
    simp [controlStore, RowKey.conflicts, hname] at this

theorem GuardedCommit.adminExists (h : GuardedCommit call held writes w)
    (hallowed : DisablesNoAdmin call start result held writes w)
    (hexists : w.committed.adminExists = true) :
    ((controlStore H).committed call start result writes w).committed.adminExists = true := by
  obtain ⟨userId, hadmin⟩ := adminExists_iff.mp hexists
  rw [adminExists_iff]
  by_cases hdemoted : call.demoted = some userId
  · by_cases hlock : .role adminRole ∈ held
    · rcases h.guarded userId hdemoted with ⟨_, hrole | ⟨other, hne, hother⟩⟩ | ⟨hunlocked, _⟩
      · simp [Tables.activeAdmin, hrole] at hadmin
      · exact ⟨other, h.activeAdmin hother (by simp [hdemoted, hne.symm])⟩
      · exact absurd hlock hunlocked
    · exact absurd hdemoted (h.demoted_ne hallowed hlock hadmin)
  · exact ⟨userId, h.activeAdmin hadmin hdemoted⟩

/-- Once there is an active administrator, there is one after every commit of a run in which no
update of an account disables an active administrator uncounted. -/
theorem run_adminExists (H : Hashing) (d : Tables) (before after : List ControlEvent)
    (hallowed : Runs.Along (controlStore H).next
      (TransactionalStore.Commits DisablesNoAdmin) (fresh d : ControlState)
      (before ++ after)) (hexists : (Runs.run (controlStore H).next (fresh d : ControlState)
      before).world.committed.adminExists = true) :
    (Runs.run (controlStore H).next (fresh d : ControlState)
      (before ++ after)).world.committed.adminExists = true := by
  obtain ⟨hbefore, hafter⟩ := (Runs.along_append _).mp hallowed
  have hbodies : ∀ call (w : World Tables StoreCall StoreResult), adminDiscipline.inv w →
      adminDiscipline.Upholds (controlStore H) (fun _ => GuardedCommit call)
        ((controlStore H).body call) [] [] w :=
    fun call w _ => upholds_storeBody
  have hsound := sound_run guarantees_guardedCommit hbodies (sound_fresh trivial) hbefore
  rw [Runs.run_append]
  refine (Runs.run_invariant (I := fun s => Discipline.Sound adminDiscipline (controlStore H)
    (fun call _ _ => GuardedCommit call) s ∧ s.world.committed.adminExists = true) _ ?_
    ⟨hsound, hexists⟩ hafter).2
  rintro s e ⟨hsound, hexists⟩ hstep
  refine ⟨hsound.step guarantees_guardedCommit hbodies hstep, ?_⟩
  rcases hsound.world_next hstep with hworld | ⟨call, start, result, held, writes, hguarded,
    hcall, hworld⟩
  · rwa [hworld]
  · rw [hworld]
    exact hguarded.adminExists hcall hexists

end

/-- Two administrators, of whom one is disabled. -/
def adminTables : Tables where
  users := (empty.insert ⟨"a", "alice", none, none, true, 0, 0⟩).insert
    ⟨"b", "bob", none, none, false, 0, 0⟩
  externalIdentities := .empty
  passwordCredentials := .empty
  sessions := .empty
  roles := empty.insert ⟨adminRole, "SQLTide system administrator", true⟩
  userRoles := (empty.insert ⟨"a", adminRole, 0, none⟩).insert ⟨"b", adminRole, 0, none⟩
  audit := []

/-- The one is enabled, then the other disabled. -/
def exchangeOfAdmins : List ControlEvent :=
  [.call "y" (.setUserActive "b" true none 2), .step "y", .step "y",
    .call "z" (.setUserActive "a" false none 3), .step "z", .step "z", .step "z", .step "z",
    .step "z", .step "z"]

theorem run_adminExists_exchanged :
    (Runs.run (controlStore transparentHashing).next
      (fresh adminTables : ControlState)
      ([] ++ exchangeOfAdmins)).world.committed.adminExists = true :=
  run_adminExists transparentHashing adminTables [] exchangeOfAdmins (by decide +kernel)
    (by decide +kernel)

/-- An update that read `b` as disabled disables it after `a` was disabled because of `b`. -/
theorem not_run_adminExists :
    ¬ ∀ (H : Hashing) (d : Tables) (before after : List ControlEvent),
      (Runs.run (controlStore H).next (fresh d : ControlState)
        before).world.committed.adminExists = true →
      (Runs.run (controlStore H).next (fresh d : ControlState)
        (before ++ after)).world.committed.adminExists = true := by
  intro h
  have hexists := h transparentHashing adminTables []
    (.call "x" (.updateAccount "b" none none false none 1) :: exchangeOfAdmins ++
      [.step "x", .step "x", .step "x", .step "x"]) (by decide +kernel)
  exact absurd hexists (by decide +kernel)

end SqlTide.Auth
