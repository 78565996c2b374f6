import Mathlib.Data.List.ReduceOption
import Mathlib.Tactic

/-!
# Queries over nullable columns

A small meaning of SQL: values that may be NULL, predicates with three truth values,
bags of rows with named columns, grouped maxima, inner and left joins, and statements
whose named subqueries see only the names that the statement defines before them.
-/

namespace SqlTide.Sql

open List

/-- A column value, `none` for NULL. Times are tick counts and booleans are 0 and 1. -/
abbrev Value := Option Int

/-- What a predicate evaluates to, `none` for unknown. -/
abbrev Truth := Option Bool

def both : Truth → Truth → Truth
  | some false, _ => some false
  | _, some false => some false
  | some true, some true => some true
  | _, _ => none

def either : Truth → Truth → Truth
  | some true, _ => some true
  | _, some true => some true
  | some false, some false => some false
  | _, _ => none

def negated (t : Truth) : Truth := t.map (!·)

def isNull (v : Value) : Truth := some v.isNone

/-- A stored boolean read as a predicate. -/
def asTruth (v : Value) : Truth := v.map (· != 0)

/-- A comparison is unknown as soon as one side is NULL. -/
def compared (relation : Int → Int → Bool) (a b : Value) : Truth :=
  Option.map₂ relation a b

def equal (a b : Value) : Truth := compared (fun x y => decide (x = y)) a b

def atMost (a b : Value) : Truth := compared (fun x y => decide (x ≤ y)) a b

def below (a b : Value) : Truth := compared (fun x y => decide (x < y)) a b

@[simp] theorem both_eq_true {a b : Truth} :
    both a b = some true ↔ a = some true ∧ b = some true := by
  rcases a with _ | _ | _ <;> rcases b with _ | _ | _ <;> simp [both]

@[simp] theorem either_eq_true {a b : Truth} :
    either a b = some true ↔ a = some true ∨ b = some true := by
  rcases a with _ | _ | _ <;> rcases b with _ | _ | _ <;> simp [either]

@[simp] theorem isNull_eq_true {v : Value} : isNull v = some true ↔ v = none := by
  cases v <;> simp [isNull]

variable {a b : Value} {values : List Value} {α : Type}

@[simp] theorem compared_eq_true {relation : Int → Int → Bool} :
    compared relation a b = some true ↔
      ∃ x y, a = some x ∧ b = some y ∧ relation x y = true := by
  cases a <;> cases b <;> simp [compared]

@[simp] theorem equal_eq_true : equal a b = some true ↔ ∃ x, a = some x ∧ b = some x := by
  simp only [equal, compared_eq_true, decide_eq_true_eq]
  constructor
  · rintro ⟨x, y, ha, hb, rfl⟩
    exact ⟨x, ha, hb⟩
  · rintro ⟨x, ha, hb⟩
    exact ⟨x, x, ha, hb, rfl⟩

@[simp] theorem atMost_eq_true :
    atMost a b = some true ↔ ∃ x y, a = some x ∧ b = some y ∧ x ≤ y := by
  simp [atMost]

@[simp] theorem below_eq_true : below a b = some true ↔ ∃ x y, a = some x ∧ b = some y ∧ x < y := by
  simp [below]

/-- The value a column of a type that admits NULL, or of one that does not, has by default. -/
def typeDefault (nullable : Bool) : Value := if nullable then none else some 0

/-- The greatest of the values that are not NULL. -/
def largest (values : List Value) : Value := values.reduceOption.max?

/-- The least of the values that are not NULL, NULL when there is none. -/
def smallest (values : List Value) : Value := values.reduceOption.min?

theorem largest_eq_some {m : Int} :
    largest values = some m ↔ some m ∈ values ∧ ∀ x, some x ∈ values → x ≤ m := by
  simp [largest, max?_eq_some_iff, reduceOption_mem_iff]

theorem largest_eq_none : largest values = none ↔ ∀ x, some x ∉ values := by
  rw [largest, max?_eq_none_iff, eq_nil_iff_forall_not_mem]
  simp only [reduceOption_mem_iff]

variable {x : Int} {nullable : Bool} {rows : List α} {predicate : α → Truth}

theorem exists_largest (h : some x ∈ values) : ∃ m, largest values = some m ∧ x ≤ m := by
  cases hlargest : largest values with
  | none => exact absurd h (largest_eq_none.mp hlargest x)
  | some m => exact ⟨m, rfl, (largest_eq_some.mp hlargest).2 x h⟩

/-- `max` over all rows: over none it is the default of the column's type. -/
def maximum (nullable : Bool) (values : List Value) : Value :=
  match largest values with
  | some m => some m
  | none => typeDefault nullable

theorem maximum_of_mem (h : some x ∈ values) : maximum nullable values = largest values := by
  obtain ⟨m, hm, -⟩ := exists_largest h
  simp [maximum, hm]

theorem maximum_of_notMem
    (h : ∀ x, some x ∉ values) : maximum nullable values = typeDefault nullable := by
  simp [maximum, largest_eq_none.mpr h]

/-- `SELECT key, max(value) .. GROUP BY key`; NULL keys form a group of their own. -/
def groupedMax {ι : Type} (items : List ι) (key value : ι → Value) : List (Value × Value) :=
  (items.map key).dedup.map fun k =>
    (k, largest ((items.filter fun item => key item = k).map value))

theorem mem_groupedMax {ι : Type} {items : List ι} {key value : ι → Value} {k m : Value} :
    (k, m) ∈ groupedMax items key value ↔
      (∃ item ∈ items, key item = k) ∧
        m = largest ((items.filter fun item => key item = k).map value) := by
  simp only [groupedMax, mem_map, mem_dedup, Prod.mk.injEq]
  constructor
  · rintro ⟨k, hkey, rfl, rfl⟩
    exact ⟨hkey, rfl⟩
  · rintro ⟨hkey, rfl⟩
    exact ⟨k, hkey, rfl, rfl⟩

abbrev Row := String → Value

/-- The row with the listed columns; a column that is not listed reads NULL. -/
def rowOf (fields : List (String × Value)) : Row := fun column => (fields.lookup column).join

structure Relation where
  nullable : String → Bool
  rows : List Row

/-- What a left join puts in the place of a missing row. -/
def Relation.defaultRow (relation : Relation) : Row :=
  fun column => typeDefault (relation.nullable column)

/-- A subquery in the place of a value: NULL when it has no row. -/
def scalarSubquery (relation : Relation) (column : String) : Value :=
  (relation.rows.head?.map (· column)).join

/-- `WHERE`: only the rows for which the predicate is true stay. -/
def holding {α : Type} (rows : List α) (predicate : α → Truth) : List α :=
  rows.filter fun row => predicate row = some true

@[simp] theorem mem_holding {row : α} :
    row ∈ holding rows predicate ↔ row ∈ rows ∧ predicate row = some true := by
  simp [holding]

@[simp] theorem holding_true (rows : List α) : holding rows (fun _ => some true) = rows := by
  simp [holding]

theorem holding_eq_nil : holding rows predicate = [] ↔ ∀ row ∈ rows, predicate row ≠ some true := by
  simp [holding, filter_eq_nil_iff]

section Joins

variable {α β : Type} (left : List α) (right : List β) (on : α → β → Truth)

def innerJoin : List (α × β) :=
  left.flatMap fun l => (holding right (on l)).map (l, ·)

def leftJoin (missing : β) : List (α × β) :=
  left.flatMap fun l =>
    match holding right (on l) with
    | [] => [(l, missing)]
    | found => found.map (l, ·)

variable {left right on}

theorem mem_innerJoin {l : α} {r : β} :
    (l, r) ∈ innerJoin left right on ↔ l ∈ left ∧ r ∈ right ∧ on l r = some true := by
  simp [innerJoin]

theorem mem_leftJoin {missing : β} {l : α} {r : β} :
    (l, r) ∈ leftJoin left right on missing ↔
      l ∈ left ∧ (r ∈ right ∧ on l r = some true ∨
        r = missing ∧ ∀ r' ∈ right, on l r' ≠ some true) := by
  simp only [leftJoin, mem_flatMap]
  constructor
  · rintro ⟨l', hl', hmem⟩
    split at hmem
    · next hnone =>
      simp only [mem_singleton, Prod.mk.injEq] at hmem
      obtain ⟨rfl, rfl⟩ := hmem
      exact ⟨hl', .inr ⟨rfl, holding_eq_nil.mp hnone⟩⟩
    · next hfound =>
      obtain ⟨r', hr', hpair⟩ := mem_map.mp hmem
      obtain ⟨rfl, rfl⟩ := Prod.mk.inj hpair
      exact ⟨hl', .inl (mem_holding.mp hr')⟩
  · rintro ⟨hl, hr⟩
    refine ⟨l, hl, ?_⟩
    split
    · next hnone =>
      rcases hr with ⟨hmem, hon⟩ | ⟨rfl, -⟩
      · exact absurd hon (holding_eq_nil.mp hnone r hmem)
      · simp
    · next hfound =>
      rcases hr with hr | ⟨-, hnone⟩
      · exact mem_map_of_mem (mem_holding.mpr hr)
      · exact absurd (holding_eq_nil.mpr hnone) hfound

variable {predicate : α × β → Truth}

/-- What a join makes of one left row that at most one right row matches. -/
theorem map_fst_holding_matches (l : α)
    (hunique : right.Pairwise fun r r' => ¬ (on l r = some true ∧ on l r' = some true)) :
    (holding ((holding right (on l)).map (l, ·)) predicate).map (·.1) =
      if right.any fun r => on l r = some true && predicate (l, r) = some true then [l]
      else [] := by
  induction right with
  | nil => simp [holding]
  | cons r right ih =>
    obtain ⟨hr, hunique⟩ := pairwise_cons.mp hunique
    by_cases hon : on l r = some true
    · have hnone : ∀ r' ∈ right, on l r' ≠ some true := fun r' hr' hon' => hr r' hr' ⟨hon, hon'⟩
      have hrest : (right.any fun r => on l r = some true && predicate (l, r) = some true)
          = false := by
        simp only [any_eq_false, Bool.and_eq_true, decide_eq_true_eq, not_and]
        exact fun r' hr' hon' => absurd hon' (hnone r' hr')
      have hfirst : holding (r :: right) (on l) = [r] := by
        have hnil := holding_eq_nil.mpr hnone
        simpa [holding, filter_cons, hon] using hnil
      rw [hfirst, any_cons, hrest, Bool.or_false]
      by_cases hpredicate : predicate (l, r) = some true <;> simp [holding, hpredicate, hon]
    · have hfirst : holding (r :: right) (on l) = holding right (on l) := by
        simp [holding, hon]
      rw [hfirst, ih hunique]
      simp [hon]

/-- A left row that at most one right row matches comes out of a join at most once. -/
theorem map_fst_holding_innerJoin
    (hunique : ∀ l, right.Pairwise fun r r' => ¬ (on l r = some true ∧ on l r' = some true)) :
    (holding (innerJoin left right on) predicate).map (·.1) =
      left.filter fun l =>
        right.any fun r => on l r = some true && predicate (l, r) = some true := by
  induction left with
  | nil => simp [innerJoin, holding]
  | cons l left ih =>
    have hsplit : holding (innerJoin (l :: left) right on) predicate =
        holding ((holding right (on l)).map (l, ·)) predicate ++
          holding (innerJoin left right on) predicate := by
      simp [innerJoin, holding]
    rw [hsplit, map_append, map_fst_holding_matches l (hunique l), ih, filter_cons]
    split_ifs <;> rfl

/-- A left row that at most one right row matches comes out of a left join at most once: with
its match, or with what stands for a missing one. -/
theorem map_fst_holding_leftJoin {missing : β}
    (hunique : ∀ l, right.Pairwise fun r r' => ¬ (on l r = some true ∧ on l r' = some true)) :
    (holding (leftJoin left right on missing) predicate).map (·.1) =
      left.filter fun l =>
        if right.any fun r => on l r = some true then
          right.any fun r => on l r = some true && predicate (l, r) = some true
        else predicate (l, missing) = some true := by
  induction left with
  | nil => simp [leftJoin, holding]
  | cons l left ih =>
    have hsplit : holding (leftJoin (l :: left) right on missing) predicate =
        holding (leftJoin [l] right on missing) predicate ++
          holding (leftJoin left right on missing) predicate := by
      simp [leftJoin, holding]
    have hone : (holding (leftJoin [l] right on missing) predicate).map (·.1) =
        if (if right.any fun r => on l r = some true then
            right.any fun r => on l r = some true && predicate (l, r) = some true
          else predicate (l, missing) = some true) then [l] else [] := by
      simp only [leftJoin, flatMap_cons, flatMap_nil, append_nil]
      cases hfound : holding right (on l) with
      | nil =>
        have hnone : (right.any fun r => on l r = some true) = false := by
          simpa using holding_eq_nil.mp hfound
        rw [hnone]
        by_cases hpredicate : predicate (l, missing) = some true <;> simp [holding, hpredicate]
      | cons r found =>
        have hsome : (right.any fun r => on l r = some true) = true := by
          have hmem : r ∈ holding right (on l) := by simp [hfound]
          simpa using ⟨r, mem_holding.mp hmem⟩
        rw [hsome, if_pos rfl, ← map_fst_holding_matches l (hunique l), hfound]
    rw [hsplit, map_append, hone, ih, filter_cons]
    split_ifs <;> rfl

end Joins

/-- What the names of a statement's subqueries stand for. -/
abbrev Scope := String → Relation

def Scope.empty : Scope := fun _ => ⟨fun _ => false, []⟩

/-- A piece of a statement over stored tables `σ`: the names it reads, and its meaning. -/
structure Fragment (σ α : Type) where
  reads : List String
  meaning : σ → Scope → α

namespace Fragment

variable {σ α β γ : Type}

/-- A piece that only reads stored tables. -/
def stored (read : σ → α) : Fragment σ α := ⟨[], fun store _ => read store⟩

/-- `FROM name`. -/
def named (name : String) : Fragment σ Relation := ⟨[name], fun _ scope => scope name⟩

def map (f : α → β) (a : Fragment σ α) : Fragment σ β :=
  ⟨a.reads, fun store scope => f (a.meaning store scope)⟩

def map₂ (f : α → β → γ) (a : Fragment σ α) (b : Fragment σ β) : Fragment σ γ :=
  ⟨a.reads ++ b.reads, fun store scope => f (a.meaning store scope) (b.meaning store scope)⟩

/-- A piece that reads no name, and is worth `a` over these tables. -/
structure EvaluatesTo (fragment : Fragment σ α) (store : σ) (a : α) : Prop where
  reads : fragment.reads = []
  meaning : ∀ scope, fragment.meaning store scope = a

theorem evaluatesTo_stored (read : σ → α) (store : σ) :
    (stored read).EvaluatesTo store (read store) := ⟨rfl, fun _ => rfl⟩

theorem EvaluatesTo.map {a : Fragment σ α} {store : σ} {x : α} (h : a.EvaluatesTo store x)
    (f : α → β) : (a.map f).EvaluatesTo store (f x) :=
  ⟨h.reads, fun scope => congrArg f (h.meaning scope)⟩

theorem EvaluatesTo.map₂ {a : Fragment σ α} {b : Fragment σ β} {store : σ} {x : α} {y : β}
    (ha : a.EvaluatesTo store x) (hb : b.EvaluatesTo store y) (f : α → β → γ) :
    (Fragment.map₂ f a b).EvaluatesTo store (f x y) := by
  refine ⟨?_, ?_⟩
  · simp [Fragment.map₂, ha.reads, hb.reads]
  · intro scope
    simp [Fragment.map₂, ha.meaning, hb.meaning]

end Fragment

/-- `WITH name AS (..), .. SELECT ..`. -/
structure Query (σ : Type) where
  ctes : List (String × Fragment σ Relation)
  body : Fragment σ (List Row)

namespace Query

variable {σ : Type}

/-- The names each subquery reads are defined before it, and the body's before the body. -/
def closedOver (query : Query σ) (known : List String) : List (String × Fragment σ Relation) → Bool
  | [] => query.body.reads ⊆ known
  | (name, fragment) :: rest =>
    fragment.reads ⊆ known && query.closedOver (name :: known) rest

def closed (query : Query σ) : Bool := query.closedOver [] query.ctes

def scope (query : Query σ) (store : σ) : Scope :=
  query.ctes.foldl
    (fun scope cte => Function.update scope cte.1 (cte.2.meaning store scope)) Scope.empty

/-- The rows of the statement, nothing when it reads a name that nobody defines. -/
def run (query : Query σ) (store : σ) : Option (List Row) :=
  if query.closed then some (query.body.meaning store (query.scope store)) else none

end Query

end SqlTide.Sql
