import SqlTide.Foundations.Runs

/-!
# The target mutation lock

`acquire_target_mutation_lock` and `release_target_mutation_lock` talk to the
warehouse through single DDL statements only. The warehouse is the map from
table names to table comments that `system.tables` shows for one database, each
statement is one atomic step on it, and a client is the position it has reached
in the body of the call it is executing. Between two statements of one client
any statement of any other client may run.
-/

namespace SqlTide.Locking

open Function

/-- The tables of the target database, by name, with their comments. -/
abbrev Warehouse := String → Option String

/-- The three DDL statements the lock protocol uses. -/
inductive Ddl
  | createTable (name comment : String)
  | exchangeTables (left right : String)
  | dropTable (name : String)
  deriving DecidableEq, Repr

/-- One statement either takes effect as a whole or fails and changes nothing. -/
def Ddl.run (w : Warehouse) : Ddl → Option Warehouse
  | .createTable name comment =>
    match w name with
    | some _ => none
    | none => some (update w name (some comment))
  | .exchangeTables left right =>
    match w left, w right with
    | some l, some r =>
      some (update (update w left (some r)) right (some l))
    | _, _ => none
  | .dropTable name =>
    match w name with
    | some _ => some (update w name none)
    | none => none

/-- One target database, with the `hexdigest` of `sha256` that names release tables. -/
structure Target where
  database : String
  sha256Hexdigest : String → String

def targetMutationLockTableName : String := "_sqltide_target_mutation_lock"

def targetMutationLockCommentPrefix : String := "sqltide-target-lock-v2:"

def ownerComment (ownerId : String) : String := targetMutationLockCommentPrefix ++ ownerId

/-- `comment.removeprefix(...)` when the comment starts with the lock prefix. -/
def commentOwner (comment : String) : Option String :=
  if targetMutationLockCommentPrefix.toList.isPrefixOf comment.toList then
    some (String.ofList (comment.toList.drop targetMutationLockCommentPrefix.toList.length))
  else none

@[simp] theorem commentOwner_ownerComment (o : String) :
    commentOwner (ownerComment o) = some o := by
  simp [commentOwner, ownerComment]

variable {o : String} {w w' : Warehouse}

variable {comment name : String} {s : LockState}

theorem commentOwner_eq_some : commentOwner comment = some o ↔ comment = ownerComment o := by
  refine ⟨fun h => ?_, fun h => h ▸ commentOwner_ownerComment o⟩
  unfold commentOwner at h
  split_ifs at h with hprefix
  obtain ⟨rest, hrest⟩ := List.isPrefixOf_iff_prefix.mp hprefix
  rw [← hrest, List.drop_left] at h
  simp only [Option.some.injEq] at h
  apply String.toList_injective
  rw [← hrest, ← h, ownerComment, String.toList_append, String.toList_ofList]

theorem ownerComment_injective : Function.Injective ownerComment := by
  intro o o' h
  have := congrArg commentOwner h
  simpa using this

@[simp] theorem ownerComment_inj {o' : String} : ownerComment o = ownerComment o' ↔ o = o' :=
  ownerComment_injective.eq_iff

def Target.releaseName (T : Target) (ownerId : String) : String :=
  targetMutationLockTableName ++ "_release_" ++
    String.ofList ((T.sha256Hexdigest ownerId).toList.take 16)

@[simp] theorem Target.releaseName_ne (T : Target) (o : String) :
    T.releaseName o ≠ targetMutationLockTableName := by
  intro h
  have hlen := congrArg String.length h
  have hsuffix : ("_release_" : String).length = 9 := by decide
  simp only [Target.releaseName, String.length_append, hsuffix] at hlen
  omega

@[simp] theorem Target.ne_releaseName (T : Target) (o : String) :
    targetMutationLockTableName ≠ T.releaseName o := (T.releaseName_ne o).symm

/-- `_target_mutation_lock_record`: whether the table exists, and its recorded owner. -/
def targetMutationLockRecord (w : Warehouse) (tableName : String) : Bool × Option String :=
  match w tableName with
  | none => (false, none)
  | some comment => (true, commentOwner comment)

theorem targetMutationLockRecord_owner {table : String}
    (h : (targetMutationLockRecord w table).2 = some o) : w table = some (ownerComment o) := by
  unfold targetMutationLockRecord at h
  cases hw : w table with
  | none => simp [hw] at h
  | some comment =>
    rw [hw] at h
    exact congrArg some (commentOwner_eq_some.mp h)

/-- The next statement of the call a client is executing. -/
inductive Phase
  | idle
  | acquireCreate
  | acquireInspect
  | releaseCreate
  | releaseExchange
  | releaseInspect
  | restoreExchange
  | restoreDrop
  | releaseDropMarker
  | releaseDropLock
  deriving DecidableEq, Repr

/-- What the two calls raise: the failure of a statement is passed on as it is. -/
inductive LockError
  | warehouse (statement : Ddl)
  | alreadyLocked (owner : Option String)
  | ownershipChanged
  deriving DecidableEq, Repr

/-- The text of an error; the driver supplies the one of a failed statement. -/
def LockError.message (database : String) (driverMessage : Ddl → String) : LockError → String
  | .warehouse statement => driverMessage statement
  | .alreadyLocked none => "Target database '" ++ database ++ "' is already mutation-locked"
  | .alreadyLocked (some owner) =>
    "Target database '" ++ database ++ "' is already mutation-locked by '" ++ owner ++ "'"
  | .ownershipChanged =>
    "Target mutation lock ownership changed for database '" ++ database ++ "'"

inductive Outcome
  | acquired
  | released
  | failed (error : LockError)
  deriving DecidableEq, Repr

/-- One client. `outcome` is how its last call ended; `holds` records that a call
of its own acquired the lock and that it has not yet executed the final `DROP` of
a successful release. -/
structure Client where
  phase : Phase := .idle
  outcome : Option Outcome := none
  holds : Bool := false
  deriving DecidableEq, Repr

/-- The warehouse and every client, clients being identified by their owner ids. -/
structure LockState where
  warehouse : Warehouse
  clients : String → Client

namespace LockState

/-- A statement of `o` has run; `o` goes on with its next statement. -/
def advance (s : LockState) (o : String) (w : Warehouse) (phase : Phase) : LockState :=
  { warehouse := w
    clients := update s.clients o { s.clients o with phase := phase } }

/-- The call of `o` returns or raises. -/
def finish (s : LockState) (o : String) (w : Warehouse) (outcome : Outcome) (holds : Bool) :
    LockState :=
  { warehouse := w
    clients := update s.clients o ⟨.idle, some outcome, holds⟩ }

def fail (s : LockState) (o : String) (error : LockError) : LockState :=
  s.finish o s.warehouse (.failed error) (s.clients o).holds

/-- Execute one statement for `o`, raising its failure when it has one. -/
def statement (s : LockState) (o : String) (ddl : Ddl) (next : Warehouse → LockState) : LockState :=
  match ddl.run s.warehouse with
  | some w => next w
  | none => s.fail o (.warehouse ddl)

end LockState

theorem Ddl.run_createTable :
    (Ddl.createTable name comment).run w = some w' ↔
      w name = none ∧ w' = update w name (some comment) := by
  cases h : w name <;> simp [Ddl.run, h, eq_comm]

theorem Ddl.run_exchangeTables {left right : String} :
    (Ddl.exchangeTables left right).run w = some w' ↔
      ∃ l r, w left = some l ∧ w right = some r ∧
        w' = update (update w left (some r)) right (some l) := by
  cases hl : w left <;> cases hr : w right <;> simp [Ddl.run, hl, hr, eq_comm]

theorem Ddl.run_dropTable :
    (Ddl.dropTable name).run w = some w' ↔
      (∃ comment, w name = some comment) ∧ w' = update w name none := by
  cases h : w name <;> simp [Ddl.run, h, eq_comm]

/-- A statement of a call either takes effect or ends the call and changes no table. -/
theorem LockState.statement_cases (s : LockState) (o : String) (ddl : Ddl)
    (k : Warehouse → LockState) :
    (∃ w, ddl.run s.warehouse = some w ∧ s.statement o ddl k = k w) ∨
      (ddl.run s.warehouse = none ∧ s.statement o ddl k = s.fail o (.warehouse ddl)) := by
  unfold LockState.statement
  cases h : ddl.run s.warehouse with
  | none => exact .inr ⟨rfl, rfl⟩
  | some w => exact .inl ⟨w, rfl, rfl⟩

variable (T : Target)

/-- The next statement of `o` in `acquire_target_mutation_lock` or
`release_target_mutation_lock`, whichever it is executing. -/
def clientStep (o : String) (s : LockState) : LockState :=
  let lockTable := targetMutationLockTableName
  let releaseTable := T.releaseName o
  match (s.clients o).phase with
  | .idle => s
  | .acquireCreate =>
    match (Ddl.createTable lockTable (ownerComment o)).run s.warehouse with
    | some w => s.finish o w .acquired true
    | none => s.advance o s.warehouse .acquireInspect
  | .acquireInspect =>
    match targetMutationLockRecord s.warehouse lockTable with
    | (false, _) => s.fail o (.warehouse (.createTable lockTable (ownerComment o)))
    | (true, currentOwner) => s.fail o (.alreadyLocked currentOwner)
  | .releaseCreate =>
    s.statement o (.createTable releaseTable (ownerComment o)) fun w =>
      s.advance o w .releaseExchange
  | .releaseExchange =>
    s.statement o (.exchangeTables lockTable releaseTable) fun w =>
      s.advance o w .releaseInspect
  | .releaseInspect =>
    let record := targetMutationLockRecord s.warehouse releaseTable
    if !record.1 || record.2 != some o then s.advance o s.warehouse .restoreExchange
    else s.advance o s.warehouse .releaseDropMarker
  | .restoreExchange =>
    s.statement o (.exchangeTables lockTable releaseTable) fun w => s.advance o w .restoreDrop
  | .restoreDrop =>
    s.statement o (.dropTable releaseTable) fun w =>
      s.finish o w (.failed .ownershipChanged) (s.clients o).holds
  | .releaseDropMarker =>
    s.statement o (.dropTable releaseTable) fun w => s.advance o w .releaseDropLock
  | .releaseDropLock =>
    s.statement o (.dropTable lockTable) fun w => s.finish o w .released false

variable {T}

/-- The inspection goes on to release exactly when the marker read is the client's own. -/
theorem clientStep_inspect_own (hphase : (s.clients o).phase = .releaseInspect)
    (hmark : s.warehouse (T.releaseName o) = some (ownerComment o)) :
    clientStep T o s = s.advance o s.warehouse .releaseDropMarker := by
  simp [clientStep, hphase, targetMutationLockRecord, hmark]

theorem clientStep_inspect_foreign (hphase : (s.clients o).phase = .releaseInspect)
    (hmark : s.warehouse (T.releaseName o) ≠ some (ownerComment o)) :
    clientStep T o s = s.advance o s.warehouse .restoreExchange := by
  simp only [clientStep, hphase]
  refine if_pos ?_
  by_contra hrecord
  simp only [Bool.or_eq_true, Bool.not_eq_eq_eq_not, Bool.not_true, bne_iff_ne, ne_eq,
    not_or, not_not] at hrecord
  exact hmark (targetMutationLockRecord_owner hrecord.2)

variable (T)

/-- What can happen next: a client starts a call, executes its next statement, or
crashes, which leaves its tables as they are. -/
inductive LockEvent
  | acquire (ownerId : String)
  | release (ownerId : String)
  | step (ownerId : String)
  | crash (ownerId : String)
  deriving DecidableEq, Repr

def LockState.begin (s : LockState) (o : String) (phase : Phase) : LockState :=
  if (s.clients o).phase = .idle then s.advance o s.warehouse phase else s

def next (s : LockState) : LockEvent → LockState
  | .acquire o => s.begin o .acquireCreate
  | .release o => s.begin o .releaseCreate
  | .step o => clientStep T o s
  | .crash o => s.advance o s.warehouse .idle

/-- No client has started a call yet. -/
def LockState.fresh (w : Warehouse) : LockState := ⟨w, fun _ => {}⟩

end SqlTide.Locking
