import SqlTide.SqlText.ScanLocality

/-!
# Top-level common table expressions

The `WITH` clause that a statement begins with is read into its named queries and the statement
behind it. Other named queries can be merged into the clause of a template.
-/

namespace SqlTide.SqlText

open Foundations List

/-- A common table expression and the span of its body. -/
structure SqlCommonTableExpression where
  name : String
  query : String
  span : SourceSpan
  deriving DecidableEq, Repr

structure SqlTopLevelCtes where
  ctes : List SqlCommonTableExpression
  trailingSql : String
  trailingSpan : SourceSpan
  deriving DecidableEq, Repr

section
variable (tables : PythonTables)

def tryConsumeKeyword (sql : List Char) (start : ℕ) (keyword : String) : Option ℕ :=
  let stop := start + keyword.length
  let candidate := (sql.take stop).drop start
  if pythonUpper tables candidate ≠ pythonUpper tables keyword.toList then none
  else if sql[stop]?.any (isIdentifierCharacter tables) then none
  else some stop

def consumeWithClauseStart (sql : List Char) (context : String) : ScanResult ℕ := do
  let index ← skipTrivia sql 0
  match tryConsumeKeyword tables sql index "WITH" with
  | none =>
    .error ⟨.missingWithClause, context ++ " must declare CTEs in a WITH clause",
      some (sourceSpan sql index sql.length)⟩
  | some withEnd => do
    let index ← skipTrivia sql withEnd
    match tryConsumeKeyword tables sql index "RECURSIVE" with
    | none => .ok index
    | some recursiveEnd => skipTrivia sql recursiveEnd

/-- The columns that `read_cte` passes over behind a name. -/
def skipColumns (sql : List Char) (index : ℕ) (context : String) : ScanResult ℕ :=
  if sql[index]? = some '(' then do
    let closeIndex ← findMatchingParenthesis sql index context
    skipTrivia sql (closeIndex + 1)
  else .ok index

def readCte (sql : List Char) (start : ℕ) (context : String) :
    ScanResult (SqlCommonTableExpression × ℕ) :=
  if sql[start]?.any (isIdentifierStart tables) = false then
    .error (.located sql (context ++ " expected a CTE name") start sql.length)
  else do
    let word := (sql.drop start).takeWhile (isIdentifierCharacter tables)
    let name := String.ofList word
    let index ← skipTrivia sql (start + word.length)
    let index ← skipColumns sql index context
    let asError :=
      ScanError.located sql (context ++ " CTE '" ++ name ++ "' must use AS (...)") start
      sql.length
    match tryConsumeKeyword tables sql index "AS" with
    | none => .error asError
    | some asEnd => do
      let bodyOpen ← skipTrivia sql asEnd
      if sql[bodyOpen]? ≠ some '(' then .error asError
      else do
        let bodyClose ← findMatchingParenthesis sql bodyOpen context
        .ok ({ name := name
               query := String.ofList (pythonStrip ((sql.take bodyClose).drop (bodyOpen + 1)))
               span := sourceSpan sql (bodyOpen + 1) bodyClose }, bodyClose + 1)

/-- The loop of `extract_top_level_ctes`: each iteration goes on by a name at least. -/
def extractLoop (sql : List Char) (context : String) :
    ℕ → ℕ → List SqlCommonTableExpression → ScanResult SqlTopLevelCtes
  | 0, index, _ => .error (.located sql (context ++ " expected a CTE name") index sql.length)
  | fuel + 1, index, ctes => do
    let (cte, next) ← readCte tables sql index context
    if cte.name ∈ ctes.map (·.name) then
      .error (.located sql (context ++ " defines duplicate CTE '" ++ cte.name ++ "'") cte.span.start
        sql.length)
    else do
      let index ← skipTrivia sql next
      if sql[index]? = some ',' then do
        let index ← skipTrivia sql (index + 1)
        extractLoop sql context fuel index (ctes ++ [cte])
      else
        .ok { ctes := ctes ++ [cte]
              trailingSql := String.ofList (pythonStrip (sql.drop index))
              trailingSpan := sourceSpan sql index sql.length }

def extractTopLevelCtes (sql : List Char) (context : String) : ScanResult SqlTopLevelCtes := do
  let index ← consumeWithClauseStart tables sql context
  extractLoop tables sql context (sql.length - index) index []

/-- A named query as `merge_template_ctes` writes it. -/
def renderedQuery (namedQuery : String × String) : String :=
  namedQuery.1 ++ " AS (\n" ++ namedQuery.2 ++ "\n)"

def mergeTemplateCtes (template : List Char) (namedQueries : List (String × String)) :
    ScanResult String :=
  if namedQueries.isEmpty then .ok (String.ofList template)
  else do
    let rendered := ",\n".intercalate (namedQueries.map renderedQuery)
    let offset ← skipTrivia template 0
    match tryConsumeKeyword tables template offset "WITH" with
    | none => .ok ("WITH " ++ rendered ++ "\n" ++ String.ofList template)
    | some withEnd => do
      let triviaEnd ← skipTrivia template withEnd
      let insertionPoint := (tryConsumeKeyword tables template triviaEnd "RECURSIVE").getD withEnd
      .ok (String.ofList (template.take insertionPoint) ++ " " ++ rendered ++ "," ++
        String.ofList (template.drop insertionPoint))

end

variable {tables : PythonTables} {sql sql' : List Char} {start start' index index' next stop : ℕ}
  {context keyword : String} {cte : SqlCommonTableExpression}

theorem tryConsumeKeyword_eq_some : tryConsumeKeyword tables sql start keyword = some stop ↔
    stop = start + keyword.length ∧
      pythonUpper tables ((sql.drop start).take keyword.length) =
        pythonUpper tables keyword.toList ∧
      ∀ character ∈ sql[start + keyword.length]?, isIdentifierCharacter tables character =
        false := by
  unfold tryConsumeKeyword
  dsimp only
  rw [drop_take, Nat.add_sub_cancel_left]
  split_ifs with hword hcharacter
  · simp [hword]
  · rw [Option.any_eq_true] at hcharacter
    obtain ⟨character, hmem, hcharacter⟩ := hcharacter
    simp only [false_iff, not_and]
    intro _ _ hnone
    rw [hnone character hmem] at hcharacter
    cases hcharacter
  · have hnone : ∀ character ∈ sql[start + keyword.length]?,
        isIdentifierCharacter tables character = false := by
      intro character hmem
      rw [Bool.eq_false_iff]
      intro hidentifier
      apply hcharacter
      rw [Option.any_eq_true]
      exact ⟨character, hmem, hidentifier⟩
    rw [Option.some.injEq, eq_comm]
    exact ⟨fun hstop => ⟨hstop, not_not.mp hword, hnone⟩, And.left⟩

theorem tryConsumeKeyword_local
    (h : Agree (keyword.length + 1) (sql.drop start) (sql'.drop start')) :
    tryConsumeKeyword tables sql start keyword = some (start + keyword.length) ↔
      tryConsumeKeyword tables sql' start' keyword = some (start' + keyword.length) := by
  have hword : (sql.drop start).take keyword.length = (sql'.drop start').take keyword.length :=
    h.mono (Nat.le_succ _)
  have hlast : Agree (0 + 1) (sql.drop (start + keyword.length))
    (sql'.drop (start' + keyword.length)) :=
    Agree.drop (h.mono (by omega))
  rw [tryConsumeKeyword_eq_some, tryConsumeKeyword_eq_some, hword, hlast.getElem?]
  simp only [true_and]

theorem skipColumns_local (hnext : skipColumns sql index context = .ok next)
    (h : Agree (next - index + 2) (sql.drop index) (sql'.drop index')) :
    index ≤ next ∧ skipColumns sql' index' context = .ok (index' + (next - index)) := by
  have hfirst : Agree (0 + 1) (sql.drop index) (sql'.drop index') := h.mono (by omega)
  unfold skipColumns at hnext ⊢
  rw [← hfirst.getElem?]
  split_ifs at hnext ⊢ with hopen
  · obtain ⟨closeIndex, hclose, hskip⟩ := bind_eq_ok.mp hnext
    have hlt := lt_of_findMatchingParenthesis hclose
    have hle := le_of_skipTrivia hskip
    have hrest := h.behind (by omega : index ≤ closeIndex + 1) hle
    have hindex : index' + (closeIndex - index) + 1 = index' + (closeIndex + 1 - index) := by omega
    refine ⟨by omega, ?_⟩
    rw [findMatchingParenthesis_local hclose (h.mono (by omega))]
    show skipTrivia sql' (index' + (closeIndex - index) + 1) = _
    rw [hindex, skipTrivia_local hskip hrest]
    congr 1
    omega
  · cases hnext
    exact ⟨le_rfl, by rw [Nat.sub_self]; rfl⟩

/-- Where the parts of a common table expression are: what comes behind the name, `AS`, and the
parentheses of the body. -/
structure CteAt (tables : PythonTables) (sql : List Char) (context : String) (start named asStart
    bodyOpen bodyClose : ℕ) : Prop where
  first : sql[start]?.any (isIdentifierStart tables) = true
  name : skipTrivia sql
    (start + ((sql.drop start).takeWhile (isIdentifierCharacter tables)).length) = .ok named
  columns : skipColumns sql named context = .ok asStart
  word : tryConsumeKeyword tables sql asStart "AS" = some (asStart + "AS".length)
  body : skipTrivia sql (asStart + "AS".length) = .ok bodyOpen
  opens : sql[bodyOpen]? = some '('
  closes : findMatchingParenthesis sql bodyOpen context = .ok bodyClose

/-- The expression that is read from these parts. -/
def cteOf (tables : PythonTables) (sql : List Char) (start bodyOpen bodyClose : ℕ) :
    SqlCommonTableExpression where
  name := String.ofList ((sql.drop start).takeWhile (isIdentifierCharacter tables))
  query := String.ofList (pythonStrip ((sql.take bodyClose).drop (bodyOpen + 1)))
  span := sourceSpan sql (bodyOpen + 1) bodyClose

theorem readCte_eq_ok : readCte tables sql start context = .ok (cte, next) ↔
    ∃ named asStart bodyOpen bodyClose,
      CteAt tables sql context start named asStart bodyOpen bodyClose ∧
        cte = cteOf tables sql start bodyOpen bodyClose ∧ next = bodyClose + 1 := by
  unfold readCte
  constructor
  · intro h
    split_ifs at h with hfirst
    rw [Bool.not_eq_false] at hfirst
    obtain ⟨named, hnamed, h⟩ := bind_eq_ok.mp h
    obtain ⟨asStart, hcolumns, h⟩ := bind_eq_ok.mp h
    cases hword : tryConsumeKeyword tables sql asStart "AS" with
    | none =>
      rw [hword] at h
      cases h
    | some asEnd =>
      rw [hword] at h
      obtain ⟨rfl, -⟩ := tryConsumeKeyword_eq_some.mp hword
      obtain ⟨bodyOpen, hbody, h⟩ := bind_eq_ok.mp h
      split_ifs at h with hopen
      obtain ⟨bodyClose, hclose, h⟩ := bind_eq_ok.mp h
      obtain ⟨rfl, rfl⟩ := Prod.mk.inj (Except.ok.inj h)
      exact ⟨named, asStart, bodyOpen, bodyClose,
        ⟨hfirst, hnamed, hcolumns, hword, hbody, not_not.mp hopen, hclose⟩, rfl, rfl⟩
  · rintro ⟨named, asStart, bodyOpen, bodyClose, hat, rfl, rfl⟩
    rw [if_neg (by simp [hat.first])]
    dsimp only
    rw [hat.name]
    show (skipColumns sql named context >>= _) = _
    rw [hat.columns]
    show (match tryConsumeKeyword tables sql asStart "AS" with
      | none => _
      | some asEnd => _) = _
    rw [hat.word]
    show (skipTrivia sql (asStart + "AS".length) >>= _) = _
    rw [hat.body]
    show (if sql[bodyOpen]? ≠ some '(' then _ else _) = _
    rw [if_neg (not_not.mpr hat.opens), hat.closes]
    rfl

theorem takeWhile_local {text text' : List Char} {p : Char → Bool}
    (h : Agree ((text.takeWhile p).length + 1) text text') : text'.takeWhile p =
    text.takeWhile p := by
  induction text generalizing text' with
  | nil => rw [h.nil]
  | cons character text ih =>
    rw [takeWhile_cons] at h
    cases hcharacter : p character with
    | false =>
      obtain ⟨rest, rfl, -⟩ := h.tail
      simp [hcharacter]
    | true =>
      rw [hcharacter, if_pos rfl, length_cons] at h
      obtain ⟨rest, rfl, hrest⟩ := h.tail
      rw [takeWhile_cons, takeWhile_cons, hcharacter, if_pos rfl, if_pos rfl, ih hrest]

theorem CteAt.le {named asStart bodyOpen bodyClose : ℕ}
    (h : CteAt tables sql context start named asStart bodyOpen bodyClose) :
    start + ((sql.drop start).takeWhile (isIdentifierCharacter tables)).length ≤ named ∧
      named ≤ asStart ∧ asStart + "AS".length ≤ bodyOpen ∧ bodyOpen < bodyClose := by
  have hcolumns : named ≤ asStart := (skipColumns_local h.columns rfl).1
  exact ⟨le_of_skipTrivia h.name, hcolumns, le_of_skipTrivia h.body,
    lt_of_findMatchingParenthesis h.closes⟩

/-- The same characters make the same expression. -/
theorem readCte_local (hread : readCte tables sql start context = .ok (cte, next))
    (h : Agree (next - start) (sql.drop start) (sql'.drop start')) :
    start < next ∧ ∃ cte', readCte tables sql' start' context = .ok
      (cte', start' + (next - start)) ∧
      cte'.name = cte.name ∧ cte'.query = cte.query := by
  obtain ⟨named, asStart, bodyOpen, bodyClose, hat, rfl, rfl⟩ := readCte_eq_ok.mp hread
  obtain ⟨hname, hcolumns, hbody, hclose⟩ := hat.le
  have hkeyword : "AS".length = 2 := rfl
  -- a part that begins behind the start
  have hpart : ∀ {index count}, start ≤ index → index + count ≤ bodyClose + 1 →
      Agree count (sql.drop index) (sql'.drop (start' + (index - start))) := by
    intro index count hle hcount
    have hshort : Agree (index - start + count) (sql.drop start) (sql'.drop start') :=
      h.mono (by omega)
    have hrest := hshort.behind hle le_rfl
    rwa [Nat.sub_self, Nat.zero_add] at hrest
  have hword : (sql'.drop start').takeWhile (isIdentifierCharacter tables) =
      (sql.drop start).takeWhile (isIdentifierCharacter tables) :=
    takeWhile_local (h.mono (by omega))
  have hat' : CteAt tables sql' context start' (start' + (named - start))
    (start' + (asStart - start))
      (start' + (bodyOpen - start)) (start' + (bodyClose - start)) := by
    constructor
    · have hfirst : Agree (0 + 1) (sql.drop start) (sql'.drop start') := h.mono (by omega)
      rw [← hfirst.getElem?]
      exact hat.first
    · have hskip := skipTrivia_local hat.name (hpart (by omega) (by omega))
      rw [hword]
      convert hskip using 2 <;> omega
    · have hskip := (skipColumns_local hat.columns (hpart (by omega) (by omega))).2
      convert hskip using 2
      omega
    · exact (tryConsumeKeyword_local (hpart (by omega) (by omega))).mp hat.word
    · have hskip := skipTrivia_local hat.body (hpart (by omega) (by omega))
      convert hskip using 2 <;> omega
    · have hopen : Agree (0 + 1) (sql.drop bodyOpen) (sql'.drop (start' + (bodyOpen - start))) :=
        hpart (by omega) (by omega)
      rw [← hopen.getElem?]
      exact hat.opens
    · have hfind := findMatchingParenthesis_local hat.closes (hpart (by omega) (by omega))
      convert hfind using 2
      omega
  have hquery : (sql'.take (start' + (bodyClose - start))).drop (start' + (bodyOpen - start) + 1) =
      (sql.take bodyClose).drop (bodyOpen + 1) := by
    have hbody : Agree (bodyClose - (bodyOpen + 1)) (sql.drop (bodyOpen + 1))
        (sql'.drop (start' + (bodyOpen + 1 - start))) := hpart (by omega) (by omega)
    have hcount : start' + (bodyClose - start) - (start' + (bodyOpen - start) + 1) =
        bodyClose - (bodyOpen + 1) := by omega
    have hindex : start' + (bodyOpen - start) + 1 = start' + (bodyOpen + 1 - start) := by omega
    rw [drop_take, drop_take, hcount, hindex]
    exact hbody.symm
  refine ⟨by omega, _, readCte_eq_ok.mpr ⟨_, _, _, _, hat', rfl, by omega⟩, ?_, ?_⟩
  · exact congrArg String.ofList hword
  · exact congrArg (fun text => String.ofList (pythonStrip text)) hquery

/-- The names and bodies that are read, and the statement behind them. -/
def SqlTopLevelCtes.Holds (result : SqlTopLevelCtes) (namedQueries : List (String × String))
    (trailing : List Char) : Prop :=
  result.ctes.map (fun cte => (cte.name, cte.query)) = namedQueries ∧
    result.trailingSql = String.ofList (pythonStrip trailing)

/-- From an index on, these expressions are read, and this statement is left behind them. -/
inductive ReadsCtes (tables : PythonTables) (sql : List Char) (context : String) :
    ℕ → List (String × String) → List Char → Prop
  | last {index next stop : ℕ} {cte : SqlCommonTableExpression} :
      readCte tables sql index context = .ok (cte, next) → skipTrivia sql next = .ok stop →
      sql[stop]? ≠ some ',' →
      ReadsCtes tables sql context index [(cte.name, cte.query)] (sql.drop stop)
  | cons {index next comma after : ℕ} {cte : SqlCommonTableExpression}
      {namedQueries : List (String × String)} {trailing : List Char} :
      readCte tables sql index context = .ok (cte, next) → skipTrivia sql next = .ok comma →
      sql[comma]? = some ',' → skipTrivia sql (comma + 1) = .ok after →
      ReadsCtes tables sql context after namedQueries trailing →
      ReadsCtes tables sql context index ((cte.name, cte.query) :: namedQueries) trailing

variable {namedQueries : List (String × String)} {trailing : List Char} {fuel : ℕ}
  {ctes : List SqlCommonTableExpression} {names : List String}

theorem lt_length_of_readCte (h : readCte tables sql index context = .ok (cte, next)) :
    index < sql.length := by
  obtain ⟨named, asStart, bodyOpen, bodyClose, hat, -, -⟩ := readCte_eq_ok.mp h
  have hfirst := hat.first
  rw [Option.any_eq_true] at hfirst
  obtain ⟨character, hcharacter, -⟩ := hfirst
  exact (List.getElem?_eq_some_iff.mp hcharacter).1

/-- One iteration: the expression counts, and a comma is what keeps the loop going. -/
theorem extractLoop_succ (hread : readCte tables sql index context = .ok (cte, next))
    (hskip : skipTrivia sql next = .ok stop) (hnew : cte.name ∉ ctes.map (·.name)) :
    extractLoop tables sql context (fuel + 1) index ctes =
      if sql[stop]? = some ',' then do
        let index ← skipTrivia sql (stop + 1)
        extractLoop tables sql context fuel index (ctes ++ [cte])
      else
        .ok { ctes := ctes ++ [cte]
              trailingSql := String.ofList (pythonStrip (sql.drop stop))
              trailingSpan := sourceSpan sql stop sql.length } := by
  rw [extractLoop, hread]
  show (if cte.name ∈ ctes.map (·.name) then _ else _) = _
  rw [if_neg hnew, hskip]
  rfl

theorem not_mem_of_nodup (hnames : (ctes.map (·.name) ++ cte.name :: names).Nodup) :
    cte.name ∉ ctes.map (·.name) :=
  fun hmem => disjoint_of_nodup_append hnames hmem mem_cons_self

theorem extractLoop_reads (h : ReadsCtes tables sql context index namedQueries trailing)
    (hfuel : sql.length - index ≤ fuel)
    (hnames : (ctes.map (·.name) ++ namedQueries.map (·.1)).Nodup) :
    ∃ result, extractLoop tables sql context fuel index ctes = .ok result ∧
      result.Holds (ctes.map (fun cte => (cte.name, cte.query)) ++ namedQueries) trailing := by
  induction h generalizing fuel ctes with
  | @last index next stop cte hread hskip hcomma =>
    have hlt := lt_length_of_readCte hread
    obtain ⟨fuel, rfl⟩ := Nat.exists_eq_add_of_le' (by omega : 1 ≤ fuel)
    rw [extractLoop_succ hread hskip (not_mem_of_nodup hnames), if_neg hcomma]
    exact ⟨_, rfl, by simp [SqlTopLevelCtes.Holds]⟩
  | @cons index next comma after cte namedQueries trailing hread hskip hcomma hafter _ ih =>
    have hlt := lt_length_of_readCte hread
    have hnext := (readCte_local hread rfl).1
    have hle := le_of_skipTrivia hskip
    have hle' := le_of_skipTrivia hafter
    obtain ⟨fuel, rfl⟩ := Nat.exists_eq_add_of_le' (by omega : 1 ≤ fuel)
    have hrest := @ih fuel (ctes ++ [cte]) (by omega) (by simpa using hnames)
    rw [extractLoop_succ hread hskip (not_mem_of_nodup hnames), if_pos hcomma, hafter]
    show ∃ result, extractLoop tables sql context fuel after (ctes ++ [cte]) = _ ∧ _
    simpa using hrest

/-- What is extracted has been read, and its names are different. -/
theorem reads_of_extractLoop {result : SqlTopLevelCtes}
    (h : extractLoop tables sql context fuel index ctes = .ok result)
    (hnames : (ctes.map (·.name)).Nodup) :
    ∃ namedQueries trailing, ReadsCtes tables sql context index namedQueries trailing ∧
      (ctes.map (·.name) ++ namedQueries.map (·.1)).Nodup ∧
      result.Holds (ctes.map (fun cte => (cte.name, cte.query)) ++ namedQueries) trailing := by
  induction fuel generalizing index ctes with
  | zero => cases h
  | succ fuel ih =>
    rw [extractLoop] at h
    obtain ⟨⟨cte, next⟩, hread, h⟩ := bind_eq_ok.mp h
    dsimp only at h
    split_ifs at h with hmem
    have hnames' : ((ctes ++ [cte]).map (·.name)).Nodup := by
      rw [map_append, nodup_append]
      refine ⟨hnames, nodup_singleton _, ?_⟩
      rintro name hname _ hlast rfl
      obtain rfl := mem_singleton.mp hlast
      exact hmem hname
    obtain ⟨stop, hskip, h⟩ := bind_eq_ok.mp h
    split_ifs at h with hcomma
    · obtain ⟨after, hafter, h⟩ := bind_eq_ok.mp h
      obtain ⟨namedQueries, trailing, hreads, hnodup, hholds⟩ := ih h hnames'
      exact ⟨_, trailing, .cons hread hskip hcomma hafter hreads, by simpa using hnodup,
        by simpa using hholds⟩
    · cases h
      exact ⟨_, _,
        .last hread hskip hcomma, by simpa using hnames', by simp [SqlTopLevelCtes.Holds]⟩

theorem drop_eq_drop (h : sql.drop index = sql'.drop index') (hle : index ≤ next) :
    sql.drop next = sql'.drop (index' + (next - index)) := by
  rw [← drop_drop, ← h, drop_drop, Nat.add_sub_cancel' hle]

theorem skipTrivia_of_drop_eq (hskip : skipTrivia sql index = .ok next)
    (h : sql.drop index = sql'.drop index') :
    skipTrivia sql' index' = .ok (index' + (next - index)) :=
  skipTrivia_local hskip (congrArg (take _) h)

/-- The same rest of a text has the same expression, and the same comes behind it. -/
theorem readCte_of_drop_eq (hread : readCte tables sql index context = .ok (cte, next))
    (hskip : skipTrivia sql next = .ok stop) (h : sql.drop index = sql'.drop index') :
    ∃ cte' next' stop', readCte tables sql' index' context = .ok (cte', next') ∧
      cte'.name = cte.name ∧ cte'.query = cte.query ∧ skipTrivia sql' next' = .ok stop' ∧
      sql.drop stop = sql'.drop stop' := by
  obtain ⟨hlt, cte', hread', hname, hquery⟩ := readCte_local hread (congrArg (take _) h)
  have hnext := drop_eq_drop h hlt.le
  exact ⟨cte', _, _, hread', hname, hquery, skipTrivia_of_drop_eq hskip hnext,
    drop_eq_drop hnext (le_of_skipTrivia hskip)⟩

theorem ReadsCtes.of_drop_eq (h : ReadsCtes tables sql context index namedQueries trailing)
    (hrest : sql.drop index = sql'.drop index') :
    ReadsCtes tables sql' context index' namedQueries trailing := by
  induction h generalizing index' with
  | @last index next stop cte hread hskip hcomma =>
    obtain ⟨cte', next', stop', hread', hname, hquery, hskip', hstop⟩ :=
      readCte_of_drop_eq hread hskip hrest
    rw [← hname, ← hquery, hstop]
    exact .last hread' hskip' (getElem?_of_drop_eq hstop ▸ hcomma)
  | @cons index next comma after cte namedQueries trailing hread hskip hcomma hafter _ ih =>
    obtain ⟨cte', next', comma', hread', hname, hquery, hskip', hstop⟩ :=
      readCte_of_drop_eq hread hskip hrest
    have hbehind := drop_eq_drop hstop (Nat.le_succ comma)
    rw [Nat.succ_eq_add_one, Nat.add_sub_cancel_left] at hbehind
    rw [← hname, ← hquery]
    exact .cons hread' hskip' (getElem?_of_drop_eq hstop ▸ hcomma)
      (skipTrivia_of_drop_eq hafter hbehind) (ih (drop_eq_drop hbehind (le_of_skipTrivia hafter)))

end SqlTide.SqlText
