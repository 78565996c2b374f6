import SqlTide.Foundations.Sorting
import SqlTide.Destruction.Plan

/-!
# The order of drops

Dependants are dropped before what they depend on; among the relations that may
go next the smallest name goes first.
-/

namespace SqlTide.Destruction

open Foundations

/-- The first relation whose name an earlier one has already. -/
def duplicateRelation (seen : List String) :
    List DestructionRelationEvidence → Option DestructionRelationEvidence
  | [] => none
  | r :: rs => if r.name ∈ seen then some r else duplicateRelation (r.name :: seen) rs

/-- The planned relations that a relation depends on. -/
def dependenciesOf (relations : List DestructionRelationEvidence)
    (r : DestructionRelationEvidence) : List String :=
  sortedNames (r.dependencyRelationNames.toFinset ∩ (relations.map (·.name)).toFinset)

def dependantCounts (relations : List DestructionRelationEvidence) (name : String) : Int :=
  (relations.filter fun r => name ∈ dependenciesOf relations r).length

/-- One dependant of `dependency` is gone; when it was the last one, the dependency is ready. -/
def releaseDependency (state : (String → Int) × List String) (dependency : String) :
    (String → Int) × List String :=
  let counts := Function.update state.1 dependency (state.1 dependency - 1)
  (counts, if counts dependency = 0 then state.2.orderedInsert (· ≤ ·) dependency else state.2)

/-- The main loop; `ready` is the heap, smallest name first. -/
def orderLoop (relations : List DestructionRelationEvidence) :
    ℕ → (String → Int) → List String → List DestructionRelationEvidence →
      (String → Int) × List DestructionRelationEvidence
  | fuel + 1, counts, name :: ready, ordered =>
    match relations.find? fun r => r.name = name with
    | none => (counts, ordered)
    | some r =>
      let state := (dependenciesOf relations r).foldl releaseDependency (counts, ready)
      orderLoop relations fuel state.1 state.2 (ordered ++ [r])
  | _, counts, _, ordered => (counts, ordered)

theorem mem_of_mem_orderLoop {relations : List DestructionRelationEvidence} {fuel : ℕ}
    {counts : String → Int} {ready : List String} {ordered : List DestructionRelationEvidence}
    (hordered : ∀ r ∈ ordered, r ∈ relations) {r : DestructionRelationEvidence}
    (h : r ∈ (orderLoop relations fuel counts ready ordered).2) : r ∈ relations := by
  induction fuel generalizing counts ready ordered with
  | zero =>
    rw [orderLoop] at h
    · exact hordered r h
    · simp
  | succ fuel ih =>
    cases ready with
    | nil => exact hordered r h
    | cons name ready =>
      rw [orderLoop] at h
      split at h
      · exact hordered r h
      · rename_i found hfound
        refine ih ?_ h
        intro r' hr'
        rcases List.mem_append.mp hr' with hr' | hr'
        · exact hordered r' hr'
        · rw [List.mem_singleton.mp hr']
          exact List.mem_of_find?_eq_some hfound

def reverseTopologicallyOrderRelations (relations : List DestructionRelationEvidence) :
    Except DestructionError (List DestructionRelationEvidence) :=
  match duplicateRelation [] relations with
  | some r => .error (.consistency
      ("Destruction evidence contains duplicate relation " ++ pyRepr r.name))
  | none =>
    let names := relations.map (·.name)
    let counts := dependantCounts relations
    let ready := sortedNames (names.filter fun name => counts name = 0).toFinset
    let result := orderLoop relations relations.length counts ready []
    if result.2.length ≠ relations.length then
      .error (.consistency ("Destruction relation dependency cycle blocks ordering: " ++
        pyReprTuple (sortedNames (names.filter fun name => 0 < result.1 name).toFinset)))
    else .ok result.2

end SqlTide.Destruction
