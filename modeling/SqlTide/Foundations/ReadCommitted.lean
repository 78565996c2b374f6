import SqlTide.Foundations.Runs

/-!
# Transactions under read-committed isolation

The body of a transaction is a tree of statements. Each statement reads the committed rows together
with the transaction's own writes, and takes locks that it keeps until the transaction ends: a
statement waits while another transaction has a lock that conflicts with one it wants. Writes become
visible to others with the commit.

Interference is dealt with by a rely condition, which says what the commits of others can do to the
world while certain rows are locked. `Upholds` is what a body establishes up to its commit under
that condition, and `Discipline.sound_run` puts the bodies together.
-/

namespace SqlTide.Foundations

open List

universe u

/-- The body of a transaction over a store `δ`, with locks `κ`, writes `ω` and errors `ε`. -/
inductive Transaction (δ κ ω ε α : Type u) : Type u
  | commit (result : α)
  | rollback (error : ε)
  | statement (locks : δ → List κ) (writes : δ → List ω) (next : δ → Transaction δ κ ω ε α)

namespace Transaction

variable {δ κ ω ε α β : Type u}

def bind : Transaction δ κ ω ε α → (α → Transaction δ κ ω ε β) → Transaction δ κ ω ε β
  | .commit a, next => next a
  | .rollback error, _ => .rollback error
  | .statement locks writes rest, next => .statement locks writes fun d => (rest d).bind next

instance : Monad (Transaction δ κ ω ε) where
  pure := .commit
  bind := .bind

/-- A SELECT. -/
def select (read : δ → α) : Transaction δ κ ω ε α :=
  .statement (fun _ => []) (fun _ => []) fun d => .commit (read d)

/-- A SELECT ... FOR UPDATE. -/
def selectForUpdate (locks : δ → List κ) (read : δ → α) : Transaction δ κ ω ε α :=
  .statement locks (fun _ => []) fun d => .commit (read d)

/-- A statement that writes, with what it answers. -/
def execute (locks : δ → List κ) (writes : δ → List ω) (answer : δ → α) : Transaction δ κ ω ε α :=
  .statement locks writes fun d => .commit (answer d)

/-- An INSERT, which a constraint may refuse. -/
def insert (locks : δ → List κ) (row : ω) (violation : δ → Option ε) :
    Transaction δ κ ω ε PUnit :=
  .statement locks (fun d => if (violation d).isNone then [row] else []) fun d =>
    match violation d with
    | some error => .rollback error
    | none => .commit ⟨⟩

/-- The locks and writes of every statement of a body have a property. -/
inductive Confined (property : List κ → List ω → Prop) : Transaction δ κ ω ε α → Prop
  | commit (result : α) : Confined property (.commit result)
  | rollback (error : ε) : Confined property (.rollback error)
  | statement {locks : δ → List κ} {writes : δ → List ω} {next : δ → Transaction δ κ ω ε α}
      (hstatement : ∀ d, property (locks d) (writes d)) (hnext : ∀ d, Confined property (next d)) :
      Confined property (.statement locks writes next)

section Confined

variable {property property' : List κ → List ω → Prop} {body : Transaction δ κ ω ε α}
  {next : α → Transaction δ κ ω ε β} {locks : δ → List κ}

theorem Confined.mono (h : body.Confined property)
    (himp : ∀ locks writes, property locks writes → property' locks writes) :
    body.Confined property' := by
  induction h with
  | commit result => exact .commit result
  | rollback error => exact .rollback error
  | statement hstatement _ ih => exact .statement (fun d => himp _ _ (hstatement d)) ih

theorem Confined.bind (h : body.Confined property) (hnext : ∀ a, (next a).Confined property) :
    (body >>= next).Confined property := by
  induction h with
  | commit result => exact hnext result
  | rollback error => exact .rollback error
  | statement hstatement _ ih => exact .statement hstatement ih

theorem confined_pure (a : α) : (pure a : Transaction δ κ ω ε α).Confined property := .commit a

theorem confined_select (read : δ → α) (h : property [] []) :
    (select read : Transaction δ κ ω ε α).Confined property :=
  .statement (fun _ => h) fun _ => .commit _

theorem confined_selectForUpdate (read : δ → α) (h : ∀ d, property (locks d) []) :
    (selectForUpdate locks read : Transaction δ κ ω ε α).Confined property :=
  .statement h fun _ => .commit _

theorem confined_execute {writes : δ → List ω} {answer : δ → α}
    (h : ∀ d, property (locks d) (writes d)) :
    (execute locks writes answer : Transaction δ κ ω ε α).Confined property :=
  .statement h fun _ => .commit _

theorem confined_insert {row : ω} {violation : δ → Option ε}
    (h : ∀ d, property (locks d) [row]) (hrefused : ∀ d, property (locks d) []) :
    (insert locks row violation : Transaction δ κ ω ε PUnit).Confined property := by
  refine .statement (fun d => ?_) fun d => ?_
  · split_ifs
    · exact h d
    · exact hrefused d
  · cases violation d with
    | some error => exact .rollback error
    | none => exact .commit _

end Confined

end Transaction

/-- A store that answers calls with transactions. -/
structure TransactionalStore (δ κ ω ε γ α : Type u) where
  apply : δ → ω → δ
  conflicts : κ → κ → Bool
  body : γ → Transaction δ κ ω ε α

/-- A call that has been committed, with its result; `start` calls had been committed when it
executed its first statement. -/
structure Completed (γ α : Type u) where
  call : γ
  start : ℕ
  result : α
  deriving DecidableEq, Repr

/-- What has been committed, and the calls that did it. -/
structure World (δ γ α : Type u) where
  committed : δ
  completed : List (Completed γ α)

/-- A transaction that has executed its first statement, after `start` calls had been committed. -/
structure OpenTransaction (δ κ ω ε γ α : Type u) where
  call : γ
  body : Transaction δ κ ω ε α
  writes : List ω
  start : ℕ

/-- A client, with how its last call ended; after a lost connection it has no answer. -/
structure StoreClient (δ κ ω ε γ α : Type u) where
  transaction : Option (OpenTransaction δ κ ω ε γ α) := none
  outcome : Option (Except ε α) := none

structure StoreState (ν : Type u) (δ κ ω ε γ α : Type u) where
  world : World δ γ α
  locks : List (κ × ν)
  clients : ν → StoreClient δ κ ω ε γ α

/-- A client calls, goes on with the next statement of its transaction, or is rolled back. -/
inductive StoreEvent (ν γ : Type u)
  | call (client : ν) (call : γ)
  | step (client : ν)
  | abort (client : ν)
  deriving DecidableEq

variable {ν δ κ ω ε γ α β : Type u}

section Steps

variable [DecidableEq ν]

namespace StoreState

/-- The locks of a client. -/
def heldBy (s : StoreState ν δ κ ω ε γ α) (client : ν) : List κ :=
  (s.locks.filter (·.2 = client)).map (·.1)

/-- The transaction of a client is over, and its locks are free. -/
def ended (s : StoreState ν δ κ ω ε γ α) (client : ν) (w : World δ γ α)
    (outcome : Option (Except ε α)) : StoreState ν δ κ ω ε γ α :=
  { world := w
    locks := s.locks.filter (·.2 ≠ client)
    clients := Function.update s.clients client ⟨none, outcome⟩ }

/-- The transaction of a client goes on, with the locks it has taken. -/
def advanced (s : StoreState ν δ κ ω ε γ α) (client : ν) (t : OpenTransaction δ κ ω ε γ α)
    (locked : List κ) : StoreState ν δ κ ω ε γ α :=
  { s with
    locks := s.locks ++ locked.map (·, client)
    clients := Function.update s.clients client { s.clients client with transaction := some t } }

end StoreState

namespace TransactionalStore

variable (S : TransactionalStore δ κ ω ε γ α)

/-- The store as a transaction sees it. -/
def view (writes : List ω) (d : δ) : δ := writes.foldl S.apply d

variable {S} in
theorem view_cons {write : ω} {writes : List ω} {d : δ} :
    S.view (write :: writes) d = S.view writes (S.apply d write) := rfl

variable {S} in
theorem view_append {writes more : List ω} {d : δ} :
    S.view (writes ++ more) d = S.view more (S.view writes d) :=
  foldl_append

/-- A transaction that nobody interferes with: its result and its writes. -/
def alone (d : δ) : Transaction δ κ ω ε β → List ω → Except ε (β × List ω)
  | .commit result, writes => .ok (result, writes)
  | .rollback error, _ => .error error
  | .statement _ writes' next, writes =>
    alone d (next (S.view writes d)) (writes ++ writes' (S.view writes d))

/-- The world after a commit. -/
def committed (call : γ) (start : ℕ) (result : α) (writes : List ω) (w : World δ γ α) :
    World δ γ α :=
  ⟨S.view writes w.committed, w.completed ++ [⟨call, start, result⟩]⟩

/-- Whether another client has a lock that conflicts with one of those wanted. -/
def waits (s : StoreState ν δ κ ω ε γ α) (client : ν) (wanted : List κ) : Bool :=
  s.locks.any fun lock => lock.2 ≠ client && wanted.any fun row =>
    S.conflicts lock.1 row || S.conflicts row lock.1

/-- The next statement of a transaction, or its end. -/
def proceed (s : StoreState ν δ κ ω ε γ α) (client : ν) (t : OpenTransaction δ κ ω ε γ α) :
    StoreState ν δ κ ω ε γ α :=
  match t.body with
  | .commit result =>
    s.ended client (S.committed t.call t.start result t.writes s.world) (some (.ok result))
  | .rollback error => s.ended client s.world (some (.error error))
  | .statement locks writes next =>
    let d := S.view t.writes s.world.committed
    if S.waits s client (locks d) then s
    else s.advanced client { t with body := next d, writes := t.writes ++ writes d } (locks d)

/-- A call begins with its first statement; one that needs none begins no transaction. -/
def begin (s : StoreState ν δ κ ω ε γ α) (client : ν) (call : γ) : StoreState ν δ κ ω ε γ α :=
  match (s.clients client).transaction, S.body call with
  | some _, _ => s
  | none, .commit result => s.ended client s.world (some (.ok result))
  | none, .rollback error => s.ended client s.world (some (.error error))
  | none, .statement locks writes next =>
    S.proceed s client ⟨call, .statement locks writes next, [], s.world.completed.length⟩

def next (s : StoreState ν δ κ ω ε γ α) : StoreEvent ν γ → StoreState ν δ κ ω ε γ α
  | .call client call => S.begin s client call
  | .step client =>
    match (s.clients client).transaction with
    | some t => S.proceed s client t
    | none => s
  | .abort client => s.ended client s.world none

/-- Nobody has called yet. -/
def fresh (d : δ) : StoreState ν δ κ ω ε γ α := ⟨⟨d, []⟩, [], fun _ => {}⟩

/-- A condition on the commits: on the call, how many calls had been committed when it began, its
result, its locks and writes and the world it commits to. -/
abbrev CommitCondition (δ κ ω γ α : Type u) := γ → ℕ → α → List κ → List ω → World δ γ α → Prop

/-- The commits of a step meet a condition. -/
def Commits (condition : CommitCondition δ κ ω γ α) (s : StoreState ν δ κ ω ε γ α) :
    StoreEvent ν γ → Prop
  | .step client =>
    match (s.clients client).transaction with
    | some ⟨call, .commit result, writes, start⟩ =>
      condition call start result (s.heldBy client) writes s.world
    | _ => True
  | _ => True

instance decidableCommits {condition : CommitCondition δ κ ω γ α}
    [∀ call start result held writes w, Decidable (condition call start result held writes w)]
    (s : StoreState ν δ κ ω ε γ α) (e : StoreEvent ν γ) : Decidable (Commits condition s e) :=
  match e with
  | .call _ _ | .abort _ => instDecidableTrue
  | .step client =>
    match h : (s.clients client).transaction with
    | some ⟨call, .commit result, writes, start⟩ =>
      decidable_of_iff (condition call start result (s.heldBy client) writes s.world)
        (by simp [Commits, h])
    | some ⟨_, .rollback _, _, _⟩ | some ⟨_, .statement _ _ _, _, _⟩ | none =>
      .isTrue (by simp [Commits, h])

end TransactionalStore

end Steps

/-- An invariant of the world, and what the commits of others can do to the world while the given
rows are locked. -/
structure Discipline (κ : Type u) (δ γ α : Type u) where
  inv : World δ γ α → Prop
  rely : List κ → World δ γ α → World δ γ α → Prop
  rely_refl : ∀ held w, rely held w w
  rely_trans : ∀ held w₁ w₂ w₃, rely held w₁ w₂ → rely held w₂ w₃ → rely held w₁ w₃

namespace Discipline

variable (D : Discipline κ δ γ α) (S : TransactionalStore δ κ ω ε γ α)

/-- Whatever others do in between, a body commits only with a result for which the condition holds
of its locks and writes and of the world at that moment. -/
inductive Upholds (condition : β → List κ → List ω → World δ γ α → Prop) :
    Transaction δ κ ω ε β → List κ → List ω → World δ γ α → Prop
  | commit {result : β} {held : List κ} {writes : List ω} {w : World δ γ α}
      (h : ∀ w', D.rely held w w' → D.inv w' → condition result held writes w') :
      Upholds condition (.commit result) held writes w
  | rollback {error : ε} {held : List κ} {writes : List ω} {w : World δ γ α} :
      Upholds condition (.rollback error) held writes w
  | statement {locks : δ → List κ} {writes' : δ → List ω} {next : δ → Transaction δ κ ω ε β}
      {held : List κ} {writes : List ω} {w : World δ γ α}
      (h : ∀ w', D.rely held w w' → D.inv w' →
        Upholds condition (next (S.view writes w'.committed))
          (held ++ locks (S.view writes w'.committed))
          (writes ++ writes' (S.view writes w'.committed)) w') :
      Upholds condition (.statement locks writes' next) held writes w

variable {D S} {condition : β → List κ → List ω → World δ γ α → Prop}
  {body : Transaction δ κ ω ε β} {held : List κ} {writes : List ω} {w w' : World δ γ α}

/-- What is upheld does not depend on the moment. -/
theorem Upholds.later (h : D.Upholds S condition body held writes w) (hrely : D.rely held w w') :
    D.Upholds S condition body held writes w' := by
  cases h with
  | commit h => exact .commit fun w'' hrely' => h w'' (D.rely_trans _ _ _ _ hrely hrely')
  | rollback => exact .rollback
  | statement h => exact .statement fun w'' hrely' => h w'' (D.rely_trans _ _ _ _ hrely hrely')

theorem Upholds.ends {result : β} (h : D.Upholds S condition (.commit result) held writes w)
    (hinv : D.inv w) : condition result held writes w := by
  cases h with
  | commit h => exact h w (D.rely_refl _ _) hinv

theorem Upholds.goesOn {locks : δ → List κ} {writes' : δ → List ω}
    {next : δ → Transaction δ κ ω ε β}
    (h : D.Upholds S condition (.statement locks writes' next) held writes w) (hinv : D.inv w) :
    D.Upholds S condition (next (S.view writes w.committed))
      (held ++ locks (S.view writes w.committed)) (writes ++ writes' (S.view writes w.committed))
      w := by
  cases h with
  | statement h => exact h w (D.rely_refl _ _) hinv

theorem Upholds.bind {β' : Type u} {condition' : β' → List κ → List ω → World δ γ α → Prop}
    {next : β → Transaction δ κ ω ε β'} (h : D.Upholds S condition body held writes w)
    (hinv : D.inv w) (hnext : ∀ result held writes w, D.inv w → condition result held writes w →
      D.Upholds S condition' (next result) held writes w) :
    D.Upholds S condition' (body >>= next) held writes w := by
  induction h with
  | commit h => exact hnext _ _ _ _ hinv (h _ (D.rely_refl _ _) hinv)
  | rollback => exact .rollback
  | statement h ih => exact .statement fun w' hrely hinv' => ih w' hrely hinv' hinv'

variable {α' : Type u} {read : δ → α'} {next : α' → Transaction δ κ ω ε β} {locks : δ → List κ}

theorem upholds_select (h : ∀ w', D.rely held w w' → D.inv w' →
      D.Upholds S condition (next (read (S.view writes w'.committed))) held writes w') :
    D.Upholds S condition (Transaction.select read >>= next) held writes w := by
  refine .statement fun w' hrely hinv => ?_
  rw [append_nil, append_nil]
  exact h w' hrely hinv

theorem upholds_selectForUpdate (h : ∀ w', D.rely held w w' → D.inv w' →
      D.Upholds S condition (next (read (S.view writes w'.committed)))
        (held ++ locks (S.view writes w'.committed)) writes w') :
    D.Upholds S condition (Transaction.selectForUpdate locks read >>= next) held writes w := by
  refine .statement fun w' hrely hinv => ?_
  rw [append_nil]
  exact h w' hrely hinv

theorem upholds_execute {rows : δ → List ω} (h : ∀ w', D.rely held w w' → D.inv w' →
      D.Upholds S condition (next (read (S.view writes w'.committed)))
        (held ++ locks (S.view writes w'.committed))
        (writes ++ rows (S.view writes w'.committed)) w') :
    D.Upholds S condition (Transaction.execute locks rows read >>= next) held writes w :=
  .statement h

theorem upholds_insert {row : ω} {violation : δ → Option ε} {next : PUnit → Transaction δ κ ω ε β}
    (h : ∀ w', D.rely held w w' → D.inv w' → violation (S.view writes w'.committed) = none →
      D.Upholds S condition (next ⟨⟩) (held ++ locks (S.view writes w'.committed))
        (writes ++ [row]) w') :
    D.Upholds S condition (Transaction.insert locks row violation >>= next) held writes w := by
  refine .statement fun w' hrely hinv => ?_
  dsimp only
  cases hviolation : violation (S.view writes w'.committed) with
  | some error => exact .rollback
  | none => exact h w' hrely hinv hviolation

/-- A body upholds what every one of its statements and what others may do keep. -/
theorem upholds_of_confined {property : List κ → List ω → Prop}
    {A : List κ → List ω → World δ γ α → Prop}
    (hstable : ∀ held writes w w', D.rely held w w' → A held writes w →
      A held writes w') (hstep : ∀ held writes w locks more, property locks more → A held writes w →
      A (held ++ locks) (writes ++ more) w)
    (hcondition : ∀ result held writes w, D.inv w → A held writes w →
      condition result held writes w) (hbody : body.Confined property)
    (hassertion : A held writes w) : D.Upholds S condition body held writes w := by
  induction hbody generalizing held writes w with
  | commit result =>
    exact .commit fun w' hrely hinv =>
      hcondition result held writes w' hinv (hstable held writes w w' hrely hassertion)
  | rollback error => exact .rollback
  | statement hstatement _ ih =>
    refine .statement fun w' hrely hinv => ih _ ?_
    exact hstep _ _ _ _ _ (hstatement _) (hstable held writes w w' hrely hassertion)

section Runs

variable [DecidableEq ν]

/-- What every reached state satisfies: locks of different clients do not conflict, and every open
transaction still upholds its condition. -/
structure Sound (D : Discipline κ δ γ α) (S : TransactionalStore δ κ ω ε γ α)
    (condition : TransactionalStore.CommitCondition δ κ ω γ α) (s : StoreState ν δ κ ω ε γ α) :
    Prop where
  inv : D.inv s.world
  exclusive : ∀ row client row' client', (row, client) ∈ s.locks → (row', client') ∈ s.locks →
    client ≠ client' → S.conflicts row row' = false
  idle : ∀ client, (s.clients client).transaction = none → s.heldBy client = []
  upholds : ∀ client t, (s.clients client).transaction = some t →
    D.Upholds S (condition t.call t.start) t.body (s.heldBy client) t.writes s.world

variable {D : Discipline κ δ γ α} {S : TransactionalStore δ κ ω ε γ α}
  {condition allowed : TransactionalStore.CommitCondition δ κ ω γ α}
  {s : StoreState ν δ κ ω ε γ α} {client other : ν} {t : OpenTransaction δ κ ω ε γ α}
  {w : World δ γ α} {locked : List κ}

theorem mem_heldBy {row : κ} : row ∈ s.heldBy client ↔ (row, client) ∈ s.locks := by
  simp [StoreState.heldBy]

variable {outcome : Option (Except ε α)}

theorem heldBy_ended : (s.ended client w outcome).heldBy client = [] := by
  simp [StoreState.heldBy, StoreState.ended, filter_filter]

theorem heldBy_ended_of_ne (h : other ≠ client) :
    (s.ended client w outcome).heldBy other = s.heldBy other := by
  rw [StoreState.heldBy, StoreState.heldBy, StoreState.ended, filter_filter]
  congr 2
  funext lock
  by_cases hlock : lock.2 = other
  · simp [hlock, h]
  · simp [hlock]

theorem heldBy_advanced : (s.advanced client t locked).heldBy client =
    s.heldBy client ++ locked := by
  simp [StoreState.heldBy, StoreState.advanced, filter_map, Function.comp_def]

theorem heldBy_advanced_of_ne (h : other ≠ client) :
    (s.advanced client t locked).heldBy other = s.heldBy other := by
  simp [StoreState.heldBy, StoreState.advanced, filter_map, Function.comp_def, Ne.symm h]

/-- Two lists of locks that different transactions can have at once. -/
def Compatible (S : TransactionalStore δ κ ω ε γ α) (held others : List κ) : Prop :=
  ∀ row ∈ held, ∀ row' ∈ others, S.conflicts row row' = false

theorem compatible_heldBy (h : Sound D S condition s) (hother : other ≠ client) :
    Compatible S (s.heldBy client) (s.heldBy other) := by
  intro row hrow row' hrow'
  exact h.exclusive row client row' other (mem_heldBy.mp hrow) (mem_heldBy.mp hrow') hother.symm

theorem sound_fresh {d : δ} (hinv : D.inv ⟨d, []⟩) :
    Sound D S condition (TransactionalStore.fresh d : StoreState ν δ κ ω ε γ α) where
  inv := hinv
  exclusive row c row' c' hc := by simp [TransactionalStore.fresh] at hc
  idle client _ := rfl
  upholds client t ht := by simp [TransactionalStore.fresh] at ht

theorem Sound.ended (h : Sound D S condition s) (hinv : D.inv w)
    (hrely : ∀ other ≠ client, D.rely (s.heldBy other) s.world w) :
    Sound D S condition (s.ended client w outcome) where
  inv := hinv
  exclusive row c row' c' hc hc' :=
    h.exclusive row c row' c' (mem_of_mem_filter hc) (mem_of_mem_filter hc')
  idle other hother := by
    by_cases hclient : other = client
    · rw [hclient, heldBy_ended]
    · rw [heldBy_ended_of_ne hclient]
      exact h.idle other (by simpa [StoreState.ended, hclient] using hother)
  upholds other t ht := by
    by_cases hother : other = client
    · subst hother
      simp [StoreState.ended] at ht
    · rw [heldBy_ended_of_ne hother]
      have ht' : (s.clients other).transaction = some t := by
        simpa [StoreState.ended, hother] using ht
      exact (h.upholds other t ht').later (hrely other hother)

theorem Sound.advanced (h : Sound D S condition s) (hfree : S.waits s client locked = false)
    (hupholds : D.Upholds S (condition t.call t.start) t.body (s.heldBy client ++ locked) t.writes
      s.world) :
    Sound D S condition (s.advanced client t locked) where
  inv := h.inv
  exclusive := by
    have hnew : ∀ row c, (row, c) ∈ s.locks → c ≠ client → ∀ row' ∈ locked,
        S.conflicts row row' = false ∧ S.conflicts row' row = false := by
      intro row c hc hne row' hrow'
      rw [TransactionalStore.waits, any_eq_false] at hfree
      have hlock : ∀ row' ∈ locked, S.conflicts row row' = false ∧
        S.conflicts row' row = false := by
        simpa [hne] using hfree (row, c) hc
      exact hlock row' hrow'
    intro row c row' c' hc hc' hne
    simp only [StoreState.advanced, mem_append, mem_map, Prod.mk.injEq] at hc hc'
    rcases hc with hc | ⟨_, hrow, rfl, rfl⟩ <;> rcases hc' with hc' | ⟨_, hrow', rfl, rfl⟩
    · exact h.exclusive row c row' c' hc hc' hne
    · exact (hnew row c hc hne _ hrow').1
    · exact (hnew row' c' hc' hne.symm _ hrow).2
    · exact absurd rfl hne
  idle other hother := by
    by_cases hclient : other = client
    · simp [StoreState.advanced, hclient] at hother
    · rw [heldBy_advanced_of_ne hclient]
      exact h.idle other (by simpa [StoreState.advanced, hclient] using hother)
  upholds other t' ht' := by
    by_cases hother : other = client
    · subst hother
      obtain rfl : t = t' := by simpa [StoreState.advanced] using ht'
      rw [heldBy_advanced]
      exact hupholds
    · rw [heldBy_advanced_of_ne hother]
      exact h.upholds other t' (by simpa [StoreState.advanced, hother] using ht')

/-- What the commits of a system have to establish: under the condition on the run, the invariant
and, for the transactions that are still open, their rely conditions. -/
def Guarantees (D : Discipline κ δ γ α) (S : TransactionalStore δ κ ω ε γ α)
    (condition allowed : TransactionalStore.CommitCondition δ κ ω γ α) : Prop :=
  ∀ call start result held writes w, D.inv w → condition call start result held writes w →
    allowed call start result held writes w →
    D.inv (S.committed call start result writes w) ∧
      ∀ others, Compatible S held others → D.rely others w (S.committed call start result writes w)

theorem Sound.proceed (h : Sound D S condition s) (hcommits : Guarantees D S condition allowed)
    (hupholds : D.Upholds S (condition t.call t.start) t.body (s.heldBy client) t.writes s.world)
    (hallowed : ∀ result, t.body = .commit result →
      allowed t.call t.start result (s.heldBy client) t.writes s.world) :
    Sound D S condition (S.proceed s client t) := by
  obtain ⟨call, body, writes, start⟩ := t
  cases body with
  | commit result =>
    have hcondition := hupholds.ends h.inv
    obtain ⟨hinv, hrely⟩ := hcommits _ _ _ _ _ _ h.inv hcondition (hallowed result rfl)
    exact h.ended hinv fun other hother => hrely _ (compatible_heldBy h hother)
  | rollback error => exact h.ended h.inv fun other _ => D.rely_refl _ _
  | statement locks writes' next =>
    simp only [TransactionalStore.proceed]
    split_ifs with hwaits
    · exact h
    · exact h.advanced (by simpa using hwaits) (hupholds.goesOn h.inv)

theorem Sound.step (h : Sound D S condition s) (hcommits : Guarantees D S condition allowed)
    (hbodies : ∀ call w, D.inv w →
      D.Upholds S (condition call w.completed.length) (S.body call) [] [] w) {e : StoreEvent ν γ}
    (hallowed : TransactionalStore.Commits allowed s e) : Sound D S condition (S.next s e) := by
  cases e with
  | call client call =>
    simp only [TransactionalStore.next, TransactionalStore.begin]
    cases ht : (s.clients client).transaction with
    | some t => exact h
    | none =>
      have hfirst := hbodies call s.world h.inv
      cases hbody : S.body call with
      | commit result => exact h.ended h.inv fun other _ => D.rely_refl _ _
      | rollback error => exact h.ended h.inv fun other _ => D.rely_refl _ _
      | statement locks writes next =>
        rw [hbody, ← h.idle client ht] at hfirst
        exact h.proceed hcommits hfirst fun result hresult => by simp at hresult
  | step client =>
    simp only [TransactionalStore.next]
    cases ht : (s.clients client).transaction with
    | none => exact h
    | some t =>
      refine h.proceed hcommits (h.upholds client t ht) fun result hbody => ?_
      obtain ⟨call, body, writes, start⟩ := t
      obtain rfl : body = .commit result := hbody
      simpa [TransactionalStore.Commits, ht] using hallowed
  | abort client => exact h.ended h.inv fun other _ => D.rely_refl _ _

theorem Sound.world_next (h : Sound D S condition s) {e : StoreEvent ν γ}
    (hallowed : TransactionalStore.Commits allowed s e) :
    (S.next s e).world = s.world ∨ ∃ call start result held writes,
      condition call start result held writes s.world ∧
        allowed call start result held writes s.world ∧
        (S.next s e).world = S.committed call start result writes s.world := by
  cases e with
  | call client call =>
    left
    simp only [TransactionalStore.next, TransactionalStore.begin]
    split
    · rfl
    · rfl
    · rfl
    · simp only [TransactionalStore.proceed]
      split_ifs <;> rfl
  | step client =>
    simp only [TransactionalStore.next]
    cases ht : (s.clients client).transaction with
    | none => exact Or.inl rfl
    | some t =>
      obtain ⟨call, body, writes, start⟩ := t
      cases body with
      | commit result =>
        refine Or.inr ⟨call, start, result, s.heldBy client, writes, ?_, ?_, rfl⟩
        · exact (h.upholds client _ ht).ends h.inv
        · simpa [TransactionalStore.Commits, ht] using hallowed
      | rollback error => exact Or.inl rfl
      | statement locks writes' next =>
        left
        simp only [TransactionalStore.proceed]
        split_ifs <;> rfl
  | abort client => exact Or.inl rfl

/-- In every run whose commits meet the condition, every reached state is sound. -/
theorem sound_run (hcommits : Guarantees D S condition allowed) (hbodies : ∀ call w, D.inv w →
      D.Upholds S (condition call w.completed.length) (S.body call) [] [] w)
    (h : Sound D S condition s) {events : List (StoreEvent ν γ)}
    (hallowed : Runs.Along S.next (TransactionalStore.Commits allowed) s events) :
    Sound D S condition (Runs.run S.next s events) :=
  Runs.run_invariant S.next (fun _ _ hsound hstep => hsound.step hcommits hbodies hstep) h hallowed

end Runs

end Discipline

end SqlTide.Foundations
