import SqlTide.Destruction.Ordering

/-!
# The workflow of a destruction

One `DROP` statement for every planned relation that exists, dependants first.
-/

namespace SqlTide.Destruction

open Foundations

inductive WorkflowPhase
  | preflight
  | preparation
  | teardown
  | realization
  | stabilization
  | boundary
  | replay
  | audit
  | finalization
  deriving DecidableEq, Repr

inductive StatementIntent
  | assertion
  | query
  | mutation
  | wait
  deriving DecidableEq, Repr

structure WarehouseStatement where
  sequence : ℕ
  stepId : String
  phase : WorkflowPhase
  intent : StatementIntent
  sql : String
  continueOnError : Bool := false
  displayName : Option String := none
  deriving DecidableEq, Repr

def dropSqlKind : DestructionRelationKind → String
  | .view => "VIEW"
  | _ => "TABLE"

/-- `_drop_sql_kind(kind).lower()`. -/
def dropDisplayKind : DestructionRelationKind → String
  | .view => "view"
  | _ => "table"

def backtick : Char := '\x60'

def quoteIdentifier (value : String) : String :=
  String.ofList (backtick ::
    value.toList.flatMap (fun c => if c = backtick then [backtick, backtick] else [c]) ++
    [backtick])

def dropSettings (relationDropSizeOverride : Option Int) : String :=
  match relationDropSizeOverride with
  | none => ""
  | some limit => " SETTINGS max_table_size_to_drop = " ++ toString limit

/-- `f"{index:04d}"`. -/
def padIndex (index : ℕ) : String :=
  let digits := Nat.toDigits 10 index
  String.ofList (List.replicate (4 - digits.length) '0' ++ digits)

def relationStepPrefix : String := "destroy_relation_"

/-- The statement that drops the relation at the given place, counted from one. -/
def dropStatement (relationDropSizeOverride : Option Int) (index : ℕ)
    (r : DestructionRelationEvidence) : WarehouseStatement where
  sequence := index
  stepId := relationStepPrefix ++ padIndex index
  phase := .teardown
  intent := .mutation
  displayName := some ("Drop " ++ dropDisplayKind r.kind ++ " " ++ r.database ++ "." ++ r.name)
  sql := "DROP " ++ dropSqlKind r.kind ++ " IF EXISTS " ++ quoteIdentifier r.database ++ "." ++
    quoteIdentifier r.name ++ " SYNC" ++ dropSettings relationDropSizeOverride ++ ";"

/-- The existing relations of the plan in the order in which they are dropped. -/
def orderedRelations (plan : DestructionPlan) :
    Except DestructionError (List DestructionRelationEvidence) :=
  (reverseTopologicallyOrderRelations plan.relations).map fun ordered =>
    ordered.filter (·.doesExist)

def assembleDestructionWorkflow (plan : DestructionPlan) :
    Except DestructionError (List WarehouseStatement) :=
  (orderedRelations plan).map fun ordered =>
    ordered.mapIdx fun i r => dropStatement plan.relationDropSizeOverride (i + 1) r

end SqlTide.Destruction
