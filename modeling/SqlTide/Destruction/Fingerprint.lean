import SqlTide.Foundations.Json
import SqlTide.Foundations.Sorting
import SqlTide.Destruction.Plan

/-!
# Canonical payloads and fingerprints

`_canonical` turns a payload of Python values into JSON values, `json.dumps`
sorts the keys of every object and writes the text, and the fingerprint is the
digest of that text.
-/

namespace SqlTide.Destruction

open Foundations

/-- The Python values that payloads are made of. -/
inductive PyValue
  | none
  | bool (b : Bool)
  | int (n : Int)
  | str (s : String)
  | enum (value : String)
  | tuple (items : List PyValue)
  | dict (items : List (String × PyValue))
  deriving Repr

mutual

def canonical : PyValue → Json
  | .none => .null
  | .bool b => .bool b
  | .int n => .int n
  | .str s => .str s
  | .enum value => .str value
  | .tuple items => .arr (canonicalItems items)
  | .dict items => .obj (sortedBy (fun item => [item.1]) (canonicalFields items))

def canonicalItems : List PyValue → List Json
  | [] => []
  | v :: vs => canonical v :: canonicalItems vs

def canonicalFields : List (String × PyValue) → List (String × Json)
  | [] => []
  | (k, v) :: items => (k, canonical v) :: canonicalFields items

end

mutual

/-- `sort_keys=True`. -/
def sortKeys : Json → Json
  | .arr items => .arr (sortKeysItems items)
  | .obj fields => .obj (sortedBy (fun field => [field.1]) (sortKeysFields fields))
  | v => v

def sortKeysItems : List Json → List Json
  | [] => []
  | v :: vs => sortKeys v :: sortKeysItems vs

def sortKeysFields : List (String × Json) → List (String × Json)
  | [] => []
  | (k, v) :: fields => (k, sortKeys v) :: sortKeysFields fields

end

/-- `json.dumps` with sorted keys and compact separators. -/
def dumps (v : Json) : String := String.ofList (sortKeys v).render

def fingerprint (sha256Hexdigest : String → String) (v : PyValue) : String :=
  sha256Hexdigest (dumps (canonical v))

def optionalInt : Option Int → PyValue
  | none => .none
  | some n => .int n

def optionalStr : Option String → PyValue
  | none => .none
  | some s => .str s

def strTuple (names : List String) : PyValue := .tuple (names.map .str)

/-- The fields of a relation that identify it; the volatile footprint is left out. -/
def structuralRelationPayload (r : DestructionRelationEvidence) : PyValue :=
  .dict [("database", .str r.database), ("name", .str r.name), ("kind", .enum r.kind.value),
    ("exists", .bool r.doesExist), ("catalog_fingerprint", optionalStr r.catalogFingerprint),
    ("logical_names", strTuple r.logicalNames), ("pipeline_names", strTuple r.pipelineNames),
    ("ownership", .tuple (r.ownership.map fun o => .enum o.value)),
    ("dependency_relation_names", strTuple r.dependencyRelationNames)]

end SqlTide.Destruction
