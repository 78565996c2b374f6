import SqlTide.SqlText.BracketDepth
import SqlTide.SqlText.StrippedText
import SqlTide.SqlText.TopLevelCtes

/-!
# Merged common table expressions

What is merged into the clause of a template is extracted again: the named queries in their order,
the expressions of the template behind them, and the statement of the template.
-/

namespace SqlTide.SqlText

open Foundations List

/-- A text that leaves no quote, no comment and no parenthesis open, and closes none of what is
around it. -/
structure ClosedText (tables : PythonTables) (query : List Char) : Prop where
  lexemes : lexemes tables query ≠ none
  inside : ∀ index ≤ query.length, 0 ≤ parenthesisDepth tables query 0 index
  closed : parenthesisDepth tables query 0 query.length = 0

variable {tables : PythonTables} {sql template query text rest rest' : List Char}
  {index next offset : ℕ} {context : String}

/-- A body as it is written, from its opening parenthesis to its closing one. -/
def writtenBody (query : List Char) : List Char := '(' :: '\n' :: (query ++ ['\n', ')'])

theorem codeBefore_congr (h : rest.head? = rest'.head?) :
    CodeBefore tables text rest ↔ CodeBefore tables text rest' := by
  simp only [CodeBefore, Mode.EndsBefore, h]

/-- A code mode that a text begins in forgets what came before. -/
theorem codeBefore_behind_code {before : List Char} {ls : List Lexeme}
    (hbefore : (lexer tables).run .code before = (ls, .code)) :
    CodeBefore tables (before ++ text) rest ↔ CodeBefore tables text rest := by
  have hmode : ((lexer tables).run .code (before ++ text)).2 =
    ((lexer tables).run .code text).2 := by
    rw [Transducer.run_append, hbefore]
  unfold CodeBefore
  rw [hmode]
  cases text with
  | nil => simp [Mode.isName]
  | cons character text => rw [getLast?_append_of_ne_nil _ (by simp)]

theorem isLineCommentStart_before_newline (hne : text ≠ []) :
    isLineCommentStart (text ++ '\n' :: rest) = isLineCommentStart text := by
  obtain ⟨first, text, rfl⟩ := exists_cons_of_ne_nil hne
  cases text with
  | nil => simp [isLineCommentStart, isPrefixOf]
  | cons second text => rfl

theorem isBlockCommentStart_before_newline (hne : text ≠ []) :
    isBlockCommentStart (text ++ '\n' :: rest) = isBlockCommentStart text := by
  obtain ⟨first, text, rfl⟩ := exists_cons_of_ne_nil hne
  cases text with
  | nil => simp [isBlockCommentStart, isPrefixOf]
  | cons second text => rfl

theorem codeAt_writtenBody (hlt : index < query.length) :
    CodeAt tables (writtenBody query) (index + 2) ↔ CodeAt tables query index := by
  have hopen : (lexer tables).run .code ['(', '\n'] = ([.symbol '('], .code) := rfl
  have htake : (writtenBody query).take (index + 2) = ['(', '\n'] ++ query.take index := by
    simp [writtenBody, take_append_of_le_length hlt.le]
  have hdrop : (writtenBody query).drop (index + 2) = query.drop index ++ ['\n', ')'] := by
    simp [writtenBody, drop_append_of_le_length hlt.le]
  have hne : query.drop index ≠ [] := by
    rw [Ne, drop_eq_nil_iff]
    omega
  have hhead : (query.drop index ++ ['\n', ')']).head? = (query.drop index).head? :=
    head?_append_of_ne_nil _ hne
  have hcharacter : (writtenBody query)[index + 2]? = query[index]? := by
    rw [← head?_drop, hdrop, hhead, head?_drop]
  have hbefore : CodeBefore tables ((writtenBody query).take (index + 2))
      ((writtenBody query).drop (index + 2)) ↔
        CodeBefore tables (query.take index) (query.drop index) := by
    rw [htake, hdrop, codeBefore_behind_code hopen, codeBefore_congr hhead]
  rw [codeAt_iff, codeAt_iff, hbefore, hcharacter, hdrop, isLineCommentStart_before_newline hne,
    isBlockCommentStart_before_newline hne]

theorem codeAt_zero_writtenBody : CodeAt tables (writtenBody query) 0 where
  before := CodeBefore.nil
  line := rfl
  block := rfl
  character := ⟨'(', rfl, rfl⟩

theorem depthTo_writtenBody (hle : index ≤ query.length) :
    depthTo tables '(' ')' (writtenBody query) (index + 2) =
      1 + depthTo tables '(' ')' query index := by
  induction index with
  | zero =>
    have hopen : bracketAt tables '(' ')' (writtenBody query) 0 = 1 := by
      rw [bracketAt, if_pos codeAt_zero_writtenBody]
      rfl
    have hbreak : bracketAt tables '(' ')' (writtenBody query) 1 = 0 :=
      bracketAt_of_not_code (@not_codeAt_of_isspace tables _ '\n' 1 rfl rfl)
    simp [depthTo, hopen, hbreak]
  | succ index ih =>
    have hcharacter : (writtenBody query)[index + 2]? = query[index]? := by
      have hlt : index < query.length := hle
      simp [writtenBody, getElem?_append_left hlt]
    have hbracket : bracketAt tables '(' ')' (writtenBody query) (index + 2) =
        bracketAt tables '(' ')' query index := by
      simp only [bracketAt, codeAt_writtenBody hle, hcharacter]
    rw [Nat.add_right_comm, depthTo, ih (by omega), hbracket, depthTo]
    ring

theorem run_newline (h : lexemes tables query ≠ none) :
    ((lexer tables).run .code (query ++ ['\n'])).2 = .code := by
  have hclosed : ((lexer tables).run .code query).2.closed = true := by
    by_contra hopen
    exact h (if_neg hopen)
  rw [Transducer.run_append, run_of_endsBefore (endsBefore_newline hclosed delimiter_run_code)]
  rfl

theorem matchingParenthesis_writtenBody (h : ClosedText tables query) :
    MatchingParenthesis tables (writtenBody query) 0 (query.length + 3) := by
  have hopen : (lexer tables).run .code ['(', '\n'] = ([.symbol '('], .code) := rfl
  have htake : (writtenBody query).take (query.length + 3) = ['(', '\n'] ++ (query ++ ['\n']) := by
    have hsplit : writtenBody query = (['(', '\n'] ++ (query ++ ['\n'])) ++ [')'] := by
      simp [writtenBody]
    rw [hsplit, take_left' (by simp)]
  have hdrop : (writtenBody query).drop (query.length + 3) = [')'] := by
    simp [writtenBody]
  have hlast : (writtenBody query)[query.length + 3]? = some ')' := by
    rw [← head?_drop, hdrop]
    rfl
  have hbreak : (writtenBody query)[query.length + 2]? = some '\n' := by
    simp [writtenBody]
  have hone : depthTo tables '(' ')' (writtenBody query) 1 = 1 := by
    have hcode : bracketAt tables '(' ')' (writtenBody query) 0 = 1 := by
      rw [bracketAt, if_pos codeAt_zero_writtenBody]
      rfl
    simp [depthTo, hcode]
  have hinside : ∀ index ≤ query.length,
      parenthesisDepth tables (writtenBody query) 1 (index + 2) =
        parenthesisDepth tables query 0 index := by
    intro index hle
    show depthBetween tables '(' ')' (writtenBody query) 1 (index + 2) =
      depthBetween tables '(' ')' query 0 index
    rw [depthBetween, depthBetween, depthTo_writtenBody hle, hone]
    simp [depthTo]
  have hend : parenthesisDepth tables (writtenBody query) 1 (query.length + 3) = 0 := by
    have hnone : bracketAt tables '(' ')' (writtenBody query) (query.length + 2) = 0 :=
      bracketAt_of_not_code (not_codeAt_of_isspace hbreak rfl)
    have hinner : depthBetween tables '(' ')' (writtenBody query) 1 (query.length + 2) =
        parenthesisDepth tables query 0 query.length := hinside query.length le_rfl
    rw [parenthesisDepth, depthBetween_succ, hinner, h.closed, hnone, add_zero]
  refine ⟨by omega, ⟨?_, ?_, ?_, ?_⟩, hlast, hend, ?_⟩
  · rw [htake, hdrop, codeBefore_behind_code hopen]
    left
    rw [run_newline h.lexemes]
    exact code_endsBefore
  · rw [hdrop]
    rfl
  · rw [hdrop]
    rfl
  · exact ⟨')', hlast, rfl⟩
  · intro index hlt hle
    rcases Nat.lt_or_ge index 2 with hfirst | hlater
    · obtain rfl : index = 1 := by omega
      simp
    · obtain ⟨inner, rfl⟩ := Nat.exists_eq_add_of_le' hlater
      rcases Nat.lt_or_ge query.length inner with hbehind | hinner
      · obtain rfl : inner = query.length + 1 := by omega
        exact hend.ge
      · rw [hinside inner hinner]
        exact h.inside inner hinner

theorem findMatchingParenthesis_writtenBody (h : ClosedText tables query) (context : String) :
    findMatchingParenthesis (writtenBody query) 0 context = .ok (query.length + 3) := by
  have hread : CodeRead tables (writtenBody query) 0 1 :=
    (CodeRead.refl (Nat.zero_le _)).visit (@codeStart_of_skipNonCode (writtenBody query) 0 rfl) rfl
  have houtcome := findMatchingParenthesis_outcome hread context
  have hmatching := matchingParenthesis_writtenBody h
  cases hfind : findMatchingParenthesis (writtenBody query) 0 context with
  | error error =>
    rw [hfind] at houtcome
    exact absurd hmatching (houtcome _)
  | ok closeIndex =>
    rw [hfind] at houtcome
    rw [houtcome.2.unique hmatching]

theorem drop_add (h : sql.drop index = text ++ rest) : sql.drop (index + text.length) = rest := by
  rw [← drop_drop, h, drop_left]

theorem length_sub_of_drop (h : sql.drop index = text) : sql.length - index = text.length := by
  rw [← h, length_drop]

theorem skipTrivia_space {character : Char} (h : sql.drop index = character :: rest)
    (hspace : pythonIsspace character = true) : skipTrivia sql index = skipTrivia sql
    (index + 1) := by
  have hlength := length_sub_of_drop h
  have hnext : sql.length - (index + 1) = rest.length := by
    rw [length_cons] at hlength
    omega
  rw [skipTrivia, skipTrivia, hlength, hnext, length_cons, skipTriviaLoop, h]
  dsimp only
  rw [if_pos hspace]

theorem skipTrivia_code (h : StartsCode (sql.drop index)) : skipTrivia sql index = .ok index := by
  unfold skipTrivia
  cases hdrop : sql.drop index with
  | nil =>
    rw [length_sub_of_drop hdrop]
    rfl
  | cons character rest =>
    rw [hdrop] at h
    rw [length_sub_of_drop hdrop, length_cons, skipTriviaLoop, hdrop]
    dsimp only
    rw [if_neg (by simp [h.1 character rfl]), if_neg (by simp [h.2.1]), if_neg (by simp [h.2.2])]

theorem startsCode_of_character {first : Char} (hspace : pythonIsspace first = false)
    (hline : isLineCommentStart (first :: rest) = false)
    (hblock : isBlockCommentStart (first :: rest) = false) : StartsCode (first :: rest) := by
  refine ⟨?_, hline, hblock⟩
  rintro character ⟨⟩
  exact hspace

theorem skipTrivia_comma (h : sql.drop index = ',' :: rest) : skipTrivia sql index = .ok index := by
  apply skipTrivia_code
  rw [h]
  exact startsCode_of_character rfl rfl rfl

theorem startsCode_of_isIdentifierStart {first : Char} (h : isIdentifierStart tables first = true) :
    StartsCode (first :: rest) := by
  have hcode : CodeStart (first :: rest) :=
    codeStart_of_isIdentifierCharacter (isIdentifierCharacter_of_start h)
  refine startsCode_of_character ?_ hcode.line hcode.block
  cases hspace : pythonIsspace first with
  | false => rfl
  | true =>
    rw [not_isIdentifierStart_of_isspace hspace] at h
    cases h

theorem pythonStrip_newlines (query : List Char) :
    pythonStrip ('\n' :: (query ++ ['\n'])) = pythonStrip query := by
  have hbreak : pythonIsspace '\n' = true := rfl
  rw [pythonStrip, pythonStrip, dropWhile_cons_of_pos hbreak, dropWhile_append]
  split_ifs with hempty
  · rw [List.isEmpty_iff] at hempty
    rw [hempty, dropWhile_cons_of_pos hbreak]
    rfl
  · rw [rdropWhile_concat_pos _ _ _ hbreak]

/-- A query as it is written, with its body in a text that goes on. -/
theorem readCte_written {name : List Char} (hname : IsIdentifier tables name)
    (hbody : ClosedText tables query)
    (h : sql.drop index = name ++ (" AS ".toList ++ (writtenBody query ++ rest))) :
    ∃ cte, readCte tables sql index context =
        .ok (cte, index + (name ++ (" AS ".toList ++ writtenBody query)).length) ∧
      cte.name = String.ofList name ∧ cte.query = String.ofList (pythonStrip query) := by
  obtain ⟨first, word, hfirst, hstart, hword⟩ := hname.exists_cons
  have hnamed := drop_add h
  have htake : (sql.drop index).takeWhile (isIdentifierCharacter tables) = name := by
    rw [h, takeWhile_append_of_pos hname.all]
    have hspace : isIdentifierCharacter tables ' ' = false := rfl
    show name ++ (' ' :: _).takeWhile (isIdentifierCharacter tables) = name
    rw [takeWhile_cons_of_neg (by simp [hspace]), append_nil]
  have has : sql.drop (index + name.length + 1) = 'A' :: 'S' :: ' ' :: (writtenBody query ++
    rest) := by
    rw [← drop_drop, hnamed]
    rfl
  have hbehind : sql.drop (index + name.length + 1 + "AS".length) = ' ' :: (writtenBody query ++
    rest) := by
    rw [← drop_drop, has]
    rfl
  have hopen : sql.drop (index + name.length + 4) = writtenBody query ++ rest := by
    rw [← drop_drop, hnamed]
    rfl
  have hinner : (sql.drop (index + name.length + 4)).drop 1 =
      ('\n' :: (query ++ ['\n'])) ++ (')' :: rest) := by
    rw [hopen]
    simp [writtenBody]
  have hat : CteAt tables sql context index (index + name.length + 1) (index + name.length + 1)
      (index + name.length + 4) (index + name.length + 4 + (query.length + 3)) := by
    constructor
    · rw [← head?_drop, h, hfirst]
      exact hstart
    · rw [htake, skipTrivia_space hnamed rfl, skipTrivia_code]
      rw [has]
      exact startsCode_of_character rfl rfl rfl
    · have hhead := getElem?_of_drop_eq_cons has
      rw [skipColumns, if_neg (by simp [hhead])]
    · rw [tryConsumeKeyword_eq_some, has, getElem?_of_drop_eq_cons hbehind]
      refine ⟨rfl, rfl, ?_⟩
      rintro character ⟨⟩
      rfl
    · rw [skipTrivia_space hbehind rfl]
      apply skipTrivia_code
      show StartsCode (sql.drop (index + name.length + 4))
      rw [hopen]
      exact startsCode_of_character rfl rfl rfl
    · exact getElem?_of_drop_eq_cons hopen
    · apply findMatchingParenthesis_local (findMatchingParenthesis_writtenBody hbody context)
      rw [hopen, drop_zero, Agree, take_append_of_le_length]
      simp [writtenBody]
  refine ⟨_, readCte_eq_ok.mpr ⟨_, _, _, _, hat, rfl, ?_⟩, ?_, ?_⟩
  · simp [writtenBody]
    omega
  · exact congrArg String.ofList htake
  · have hquery : (sql.take (index + name.length + 4 + (query.length + 3))).drop
        (index + name.length + 4 + 1) = '\n' :: (query ++ ['\n']) := by
      have hcount : index + name.length + 4 + (query.length + 3) - (index + name.length + 4 + 1) =
          ('\n' :: (query ++ ['\n'])).length := by
        simp
        omega
      rw [drop_take, ← drop_drop, hinner, hcount, take_left]
    show String.ofList (pythonStrip _) = _
    rw [hquery, pythonStrip_newlines]

/-- The queries as `merge_template_ctes` joins them. -/
def writtenQueries : List (String × String) → List Char
  | [] => []
  | [namedQuery] => (renderedQuery namedQuery).toList
  | namedQuery :: following :: namedQueries =>
    (renderedQuery namedQuery).toList ++ (',' :: '\n' :: writtenQueries (following :: namedQueries))

theorem toList_renderedQuery (namedQuery : String × String) :
    (renderedQuery namedQuery).toList =
      namedQuery.1.toList ++ (" AS ".toList ++ writtenBody namedQuery.2.toList) := by
  simp [renderedQuery, writtenBody]

theorem toList_intercalate_renderedQuery (namedQueries : List (String × String)) :
    (",\n".intercalate (namedQueries.map renderedQuery)).toList = writtenQueries namedQueries := by
  induction namedQueries with
  | nil => simp [writtenQueries]
  | cons namedQuery namedQueries ih =>
    cases namedQueries with
    | nil => simp [writtenQueries]
    | cons next namedQueries =>
      rw [map_cons, map_cons, String.intercalate_cons_cons, ← map_cons]
      simp only [String.toList_append, ih, writtenQueries]
      simp

/-- What is extracted of a named query: the body without the white space around it. -/
def strippedQuery (namedQuery : String × String) : String × String :=
  (namedQuery.1, String.ofList (pythonStrip namedQuery.2.toList))

/-- What comes behind an expression: the statement, or a comma and other expressions. -/
inductive Continues (tables : PythonTables) (sql : List Char) (context : String) (index : ℕ) :
    List (String × String) → List Char → Prop
  | statement {stop : ℕ} : skipTrivia sql index = .ok stop → sql[stop]? ≠ some ',' →
      Continues tables sql context index [] (sql.drop stop)
  | comma {comma after : ℕ} {namedQueries : List (String × String)} {trailing : List Char} :
      skipTrivia sql index = .ok comma → sql[comma]? = some ',' →
      skipTrivia sql (comma + 1) = .ok after →
      ReadsCtes tables sql context after namedQueries trailing →
      Continues tables sql context index namedQueries trailing

variable {namedQueries : List (String × String)} {trailing : List Char}

theorem Continues.reads
    {cte : SqlCommonTableExpression} (h : Continues tables sql context next namedQueries trailing)
    (hread : readCte tables sql index context = .ok (cte, next)) :
    ReadsCtes tables sql context index ((cte.name, cte.query) :: namedQueries) trailing := by
  cases h with
  | statement hskip hcomma => exact .last hread hskip hcomma
  | comma hskip hcomma hafter hreads => exact .cons hread hskip hcomma hafter hreads

/-- A named query that can be written into a clause. -/
structure IsNamedQuery (tables : PythonTables) (namedQuery : String × String) : Prop where
  name : IsIdentifier tables namedQuery.1.toList
  body : ClosedText tables namedQuery.2.toList

theorem readCte_renderedQuery {namedQuery : String × String} (h : IsNamedQuery tables namedQuery)
    (hdrop : sql.drop index = (renderedQuery namedQuery).toList ++ rest) :
    ∃ cte, readCte tables sql index context =
        .ok (cte, index + (renderedQuery namedQuery).toList.length) ∧
      (cte.name, cte.query) = strippedQuery namedQuery := by
  rw [toList_renderedQuery] at hdrop ⊢
  obtain ⟨cte, hread, hname, hquery⟩ :=
    @readCte_written tables sql _ rest index context _ h.name h.body
    (by simpa using hdrop)
  exact ⟨cte, hread, by rw [hname, hquery, String.ofList_toList]; rfl⟩

/-- A list of queries begins with the first name. -/
theorem exists_writtenQueries {namedQuery : String × String}
    {namedQueries : List (String × String)} :
    ∃ rest, writtenQueries (namedQuery :: namedQueries) =
      namedQuery.1.toList ++ (" AS ".toList ++ rest) := by
  cases namedQueries with
  | nil => exact ⟨_, toList_renderedQuery namedQuery⟩
  | cons following namedQueries =>
    refine ⟨writtenBody namedQuery.2.toList ++
      (',' :: '\n' :: writtenQueries (following :: namedQueries)), ?_⟩
    rw [writtenQueries, toList_renderedQuery]
    simp

theorem startsCode_writtenQueries {namedQuery : String × String}
    (h : IsNamedQuery tables namedQuery) :
    StartsCode (writtenQueries (namedQuery :: namedQueries) ++ rest) := by
  obtain ⟨behind, hwritten⟩ := @exists_writtenQueries namedQuery namedQueries
  obtain ⟨first, word, hfirst, hstart, -⟩ := h.name.exists_cons
  rw [hwritten, hfirst]
  exact startsCode_of_isIdentifierStart hstart

theorem reads_writtenQueries {more : List (String × String)}
    (hne : namedQueries ≠ []) (hqueries : ∀ q ∈ namedQueries, IsNamedQuery tables q)
    (hdrop : sql.drop index = writtenQueries namedQueries ++ rest)
    (hmore : Continues tables sql context (index + (writtenQueries namedQueries).length) more
    trailing) :
    ReadsCtes tables sql context index (namedQueries.map strippedQuery ++ more) trailing := by
  induction namedQueries generalizing index with
  | nil => exact absurd rfl hne
  | cons namedQuery namedQueries ih =>
    have hquery := hqueries namedQuery mem_cons_self
    cases namedQueries with
    | nil =>
      obtain ⟨cte, hread, hcte⟩ :=
        @readCte_renderedQuery tables sql rest index context _ hquery hdrop
      rw [map_cons, ← hcte]
      exact Continues.reads hmore hread
    | cons following namedQueries =>
      rw [writtenQueries, append_assoc] at hdrop
      obtain ⟨cte, hread, hcte⟩ := readCte_renderedQuery hquery hdrop
      have hcomma := drop_add hdrop
      have hbreak : sql.drop (index + (renderedQuery namedQuery).toList.length + 1) =
          '\n' :: (writtenQueries (following :: namedQueries) ++ rest) := by
        rw [← drop_drop, hcomma]
        rfl
      have hnext : sql.drop (index + (renderedQuery namedQuery).toList.length + 1 + 1) =
          writtenQueries (following :: namedQueries) ++ rest := by
        rw [← drop_drop, hbreak]
        rfl
      have hreads := ih (by simp) (fun q hq => hqueries q (mem_cons_of_mem _ hq)) hnext <| by
        convert hmore using 1
        rw [writtenQueries, length_append, length_cons, length_cons]
        omega
      rw [map_cons, cons_append, ← hcte]
      refine .cons hread (skipTrivia_comma hcomma) (getElem?_of_drop_eq_cons hcomma) ?_ hreads
      rw [skipTrivia_space hbreak rfl]
      apply skipTrivia_code
      rw [hnext]
      exact startsCode_writtenQueries (hqueries following (by simp))

/-- The name is taken for the keyword `RECURSIVE`. -/
def ReadsRecursive (tables : PythonTables) (name : List Char) : Prop :=
  name.length = "RECURSIVE".length ∧ pythonUpper tables name = pythonUpper tables "RECURSIVE".toList

/-- A name with white space behind it is the keyword, or it is none. -/
theorem tryConsumeKeyword_recursive {name : List Char} (hname : IsIdentifier tables name)
    (h : sql.drop index = name ++ ' ' :: rest) (hkeyword : ¬ ReadsRecursive tables name) :
    tryConsumeKeyword tables sql index "RECURSIVE" = none := by
  by_contra hsome
  obtain ⟨stop, hstop⟩ := Option.ne_none_iff_exists'.mp hsome
  obtain ⟨-, hword, hlast⟩ := tryConsumeKeyword_eq_some.mp hstop
  rw [h] at hword
  have hspace := getElem?_of_drop_eq_cons (drop_add h)
  rcases Nat.lt_trichotomy name.length "RECURSIVE".length with hshort | heq | hlong
  · have hmem : ' ' ∈ (name ++ ' ' :: rest).take "RECURSIVE".length := by
      rw [mem_take_iff_getElem]
      refine ⟨name.length, by simp; omega, by simp⟩
    have hupper :
      ' ' ∈ (pythonUpper tables ((name ++ ' ' :: rest).take "RECURSIVE".length)).toList := by
      rw [pythonUpper, String.toList_ofList, mem_flatMap]
      refine ⟨' ', hmem, ?_⟩
      rw [tables.toUppercase_ascii ' ' (by decide)]
      decide
    have hletters : "RECURSIVE".toList.all (fun c => c.toNat < 128 && c.toUpper ≠ ' ') = true := by
      decide
    rw [hword, pythonUpper, String.toList_ofList, mem_flatMap] at hupper
    obtain ⟨letter, hletter, hspace⟩ := hupper
    have hascii := all_eq_true.mp hletters letter hletter
    simp only [Bool.and_eq_true, decide_eq_true_eq] at hascii
    rw [tables.toUppercase_ascii letter hascii.1, mem_singleton] at hspace
    exact hascii.2 hspace.symm
  · rw [← heq, take_left] at hword
    exact hkeyword ⟨heq, hword⟩
  · have hcharacter : sql[index + "RECURSIVE".length]? = name["RECURSIVE".length]? := by
      rw [← getElem?_drop, h, getElem?_append_left hlong]
    rw [hcharacter, getElem?_eq_getElem hlong] at hlast
    have hnone := hlast _ rfl
    rw [hname.all _ (getElem_mem hlong)] at hnone
    cases hnone

/-- What is extracted: the names, their bodies, and the statement behind the clause. -/
def Extracts (tables : PythonTables) (sql : List Char) (context : String)
    (namedQueries : List (String × String)) (trailingSql : String) : Prop :=
  ∃ result, extractTopLevelCtes tables sql context = .ok result ∧
    result.ctes.map (fun cte => (cte.name, cte.query)) = namedQueries ∧
    result.trailingSql = trailingSql

theorem extracts_of_reads (hstart : consumeWithClauseStart tables sql context = .ok index)
    (hreads : ReadsCtes tables sql context index namedQueries trailing)
    (hnames : (namedQueries.map (·.1)).Nodup) :
    Extracts tables sql context namedQueries (String.ofList (pythonStrip trailing)) := by
  obtain ⟨result, hresult, hqueries, htrailing⟩ :=
    @extractLoop_reads tables sql index context namedQueries trailing _ [] hreads le_rfl hnames
  refine ⟨result, ?_, hqueries, htrailing⟩
  rw [extractTopLevelCtes, hstart]
  exact hresult

theorem consumeWithClauseStart_of_with {triviaEnd : ℕ} (hoffset : skipTrivia sql 0 = .ok offset)
    (hwith : tryConsumeKeyword tables sql offset "WITH" = some (offset + "WITH".length))
    (htrivia : skipTrivia sql (offset + "WITH".length) = .ok triviaEnd) :
    consumeWithClauseStart tables sql context =
      match tryConsumeKeyword tables sql triviaEnd "RECURSIVE" with
      | none => .ok triviaEnd
      | some recursiveEnd => skipTrivia sql recursiveEnd := by
  rw [consumeWithClauseStart, hoffset]
  show (match tryConsumeKeyword tables sql offset "WITH" with
    | none => _
    | some withEnd => _) = _
  rw [hwith]
  show (skipTrivia sql (offset + "WITH".length) >>= _) = _
  rw [htrivia]
  rfl

/-- A clause that is read, from its `WITH` on. -/
theorem consumeWithClauseStart_eq_ok : consumeWithClauseStart tables sql context = .ok index ↔
    ∃ offset triviaEnd, skipTrivia sql 0 = .ok offset ∧
      tryConsumeKeyword tables sql offset "WITH" = some (offset + "WITH".length) ∧
      skipTrivia sql (offset + "WITH".length) = .ok triviaEnd ∧
      ((tryConsumeKeyword tables sql triviaEnd "RECURSIVE" = none ∧ index = triviaEnd) ∨
        (tryConsumeKeyword tables sql triviaEnd "RECURSIVE" = some
          (triviaEnd + "RECURSIVE".length) ∧
          skipTrivia sql (triviaEnd + "RECURSIVE".length) = .ok index)) := by
  constructor
  · intro h
    unfold consumeWithClauseStart at h
    obtain ⟨offset, hoffset, h⟩ := bind_eq_ok.mp h
    cases hwith : tryConsumeKeyword tables sql offset "WITH" with
    | none =>
      rw [hwith] at h
      cases h
    | some withEnd =>
      rw [hwith] at h
      obtain ⟨rfl, -⟩ := tryConsumeKeyword_eq_some.mp hwith
      obtain ⟨triviaEnd, htrivia, h⟩ := bind_eq_ok.mp h
      refine ⟨offset, triviaEnd, hoffset, hwith, htrivia, ?_⟩
      cases hrecursive : tryConsumeKeyword tables sql triviaEnd "RECURSIVE" with
      | none =>
        rw [hrecursive] at h
        exact Or.inl ⟨rfl, (Except.ok.inj h).symm⟩
      | some recursiveEnd =>
        rw [hrecursive] at h
        obtain ⟨rfl, -⟩ := tryConsumeKeyword_eq_some.mp hrecursive
        exact Or.inr ⟨rfl, h⟩
  · rintro ⟨offset, triviaEnd, hoffset, hwith, htrivia, ⟨hnone, rfl⟩ | ⟨hsome, hindex⟩⟩
    · rw [consumeWithClauseStart_of_with hoffset hwith htrivia, hnone]
    · rw [consumeWithClauseStart_of_with hoffset hwith htrivia, hsome]
      exact hindex

section
variable {namedQuery : String × String} {namedQueries own : List (String × String)}
  {trailing : List Char}

theorem nodup_strippedQueries {more : List String} (h : (namedQueries.map (·.1) ++ more).Nodup)
    (hmore : own.map (·.1) = more) : ((namedQueries.map strippedQuery ++ own).map (·.1)).Nodup := by
  rw [map_append, map_map, hmore]
  exact h

theorem exists_firstName
    (hdrop : sql.drop index = writtenQueries (namedQuery :: namedQueries) ++ rest) :
    ∃ behind, sql.drop index = namedQuery.1.toList ++ ' ' :: behind := by
  obtain ⟨behind, hwritten⟩ := @exists_writtenQueries namedQuery namedQueries
  refine ⟨"AS ".toList ++ (behind ++ rest), ?_⟩
  rw [hdrop, hwritten]
  simp

theorem extracts_withoutClause (hqueries : ∀ q ∈ namedQuery :: namedQueries, IsNamedQuery tables q)
    (hnames : ((namedQuery :: namedQueries).map (·.1)).Nodup)
    (hkeyword : ¬ ReadsRecursive tables namedQuery.1.toList)
    (hoffset : skipTrivia template 0 = .ok offset) (hcomma : template[offset]? ≠ some ',') :
    Extracts tables ("WITH ".toList ++ (writtenQueries (namedQuery :: namedQueries) ++
      ('\n' :: template)))
      context ((namedQuery :: namedQueries).map strippedQuery)
      (String.ofList (pythonStrip (template.drop offset))) := by
  generalize hsql : "WITH ".toList ++
    (writtenQueries (namedQuery :: namedQueries) ++ ('\n' :: template)) = sql
  have hfirst := hqueries namedQuery mem_cons_self
  have hzero : sql.drop 0 = "WITH ".toList ++
      (writtenQueries (namedQuery :: namedQueries) ++ ('\n' :: template)) := hsql.symm
  have hbehind : sql.drop (0 + "WITH".length) = ' ' ::
      (writtenQueries (namedQuery :: namedQueries) ++ ('\n' :: template)) := by
    rw [← hsql]
    rfl
  have hwritten : sql.drop 5 = writtenQueries (namedQuery :: namedQueries) ++
    ('\n' :: template) := by
    rw [← hsql]
    rfl
  have hstart : consumeWithClauseStart tables sql context = .ok 5 := by
    refine consumeWithClauseStart_eq_ok.mpr ⟨0, 5, ?_, ?_, ?_, Or.inl ⟨?_, rfl⟩⟩
    · apply skipTrivia_code
      rw [hzero]
      exact startsCode_of_character rfl rfl rfl
    · rw [tryConsumeKeyword_eq_some, hzero, getElem?_of_drop_eq_cons hbehind]
      refine ⟨rfl, rfl, ?_⟩
      rintro character ⟨⟩
      rfl
    · rw [skipTrivia_space hbehind rfl]
      apply skipTrivia_code
      show StartsCode (sql.drop 5)
      rw [hwritten]
      exact startsCode_writtenQueries hfirst
    · obtain ⟨behind, hname⟩ := exists_firstName hwritten
      exact tryConsumeKeyword_recursive hfirst.name hname hkeyword
  have hbreak := drop_add hwritten
  have htemplate : sql.drop (5 + (writtenQueries (namedQuery :: namedQueries)).length + 1) =
      template.drop 0 := by
    rw [← drop_drop, hbreak]
    rfl
  have hskip := skipTrivia_of_drop_eq hoffset htemplate.symm
  have hrest := drop_eq_drop htemplate.symm (Nat.zero_le offset)
  have hhead := getElem?_of_drop_eq hrest
  have hmore : Continues tables sql context
      (5 + (writtenQueries (namedQuery :: namedQueries)).length) [] (template.drop offset) := by
    rw [hrest]
    exact .statement ((skipTrivia_space hbreak rfl).trans hskip) (hhead ▸ hcomma)
  have hreads := reads_writtenQueries (by simp) hqueries hwritten hmore
  rw [append_nil] at hreads
  apply extracts_of_reads hstart hreads
  have hdistinct :=
    @nodup_strippedQueries (namedQuery :: namedQueries) [] [] (by simpa using hnames) rfl
  simpa using hdistinct

variable {insertionPoint start triviaEnd : ℕ} {name : List Char}

/-- The expressions of the template are read behind those that are merged. -/
theorem reads_insertion
    (hqueries : ∀ q ∈ namedQuery :: namedQueries, IsNamedQuery tables q) (hdrop : sql.drop index =
      writtenQueries (namedQuery :: namedQueries) ++ (',' :: template.drop insertionPoint))
    (hstart : skipTrivia template insertionPoint = .ok start)
    (hown : ReadsCtes tables template context start own trailing) :
    ReadsCtes tables sql context index ((namedQuery :: namedQueries).map strippedQuery ++ own)
      trailing := by
  have hcomma := drop_add hdrop
  have htemplate : sql.drop (index + (writtenQueries (namedQuery :: namedQueries)).length + 1) =
      template.drop insertionPoint := by
    rw [← drop_drop, hcomma]
    rfl
  have hrest := drop_eq_drop htemplate.symm (le_of_skipTrivia hstart)
  have hmore : Continues tables sql context
      (index + (writtenQueries (namedQuery :: namedQueries)).length) own trailing :=
    .comma (skipTrivia_comma hcomma) (getElem?_of_drop_eq_cons hcomma)
      (skipTrivia_of_drop_eq hstart htemplate.symm) (hown.of_drop_eq hrest)
  exact reads_writtenQueries (by simp) hqueries hdrop hmore

theorem agree_insertion {count : ℕ} (hle : insertionPoint ≤ template.length)
    (hcount : index + count ≤ insertionPoint) :
    Agree count (template.drop index) ((template.take insertionPoint ++ text).drop index) := by
  have hlength := length_take_of_le hle
  rw [Agree, drop_append_of_le_length (by omega), take_append_of_le_length
    (by rw [length_drop]; omega), drop_take, take_take, Nat.min_eq_left (by omega)]

theorem skipTrivia_zero_insertion {insertionPoint : ℕ} (hle : insertionPoint ≤ template.length)
    (hoffset : skipTrivia template 0 = .ok offset) (hcount : offset + 2 ≤ insertionPoint) :
    skipTrivia (template.take insertionPoint ++ text) 0 = .ok offset := by
  have hzero : Agree (offset - 0 + 2) (template.drop 0)
      ((template.take insertionPoint ++ text).drop 0) :=
    agree_insertion hle (by omega)
  have hskip := skipTrivia_local hoffset hzero
  rwa [Nat.sub_zero, Nat.zero_add] at hskip

/-- The clause of the template has `RECURSIVE`. -/
def RecursiveClause (tables : PythonTables) (template : List Char) : Prop :=
  ∃ offset triviaEnd, skipTrivia template 0 = .ok offset ∧
    tryConsumeKeyword tables template offset "WITH" = some (offset + "WITH".length) ∧
    skipTrivia template (offset + "WITH".length) = .ok triviaEnd ∧
    tryConsumeKeyword tables template triviaEnd "RECURSIVE" = some (triviaEnd + "RECURSIVE".length)

/-- The keyword of a clause stays where something is inserted behind it. -/
theorem tryConsumeKeyword_insertion {keyword : String}
    (hle : index + keyword.length ≤ template.length)
    (h : tryConsumeKeyword tables template index keyword = some (index + keyword.length)) :
    tryConsumeKeyword tables (template.take (index + keyword.length) ++ (' ' :: rest)) index
      keyword =
      some (index + keyword.length) := by
  obtain ⟨-, hword, -⟩ := tryConsumeKeyword_eq_some.mp h
  have hagree : Agree keyword.length (template.drop index)
      ((template.take (index + keyword.length) ++ (' ' :: rest)).drop index) :=
    agree_insertion hle le_rfl
  have hlength := length_take_of_le hle
  rw [tryConsumeKeyword_eq_some, ← hagree, hword]
  refine ⟨rfl, rfl, ?_⟩
  rw [getElem?_append_right (by omega), hlength, Nat.sub_self]
  rintro character ⟨⟩
  exact not_isIdentifierCharacter_of_isspace rfl

/-- Behind what is inserted into, there is white space and the first name. -/
theorem skipTrivia_insertion {insertionPoint : ℕ} {name : List Char}
    (hle : insertionPoint ≤ template.length) (hname : IsIdentifier tables name) :
    skipTrivia (template.take insertionPoint ++ (' ' :: (name ++ rest))) insertionPoint =
        .ok (insertionPoint + 1) ∧
      (template.take insertionPoint ++ (' ' :: (name ++ rest))).drop (insertionPoint + 1) =
        name ++ rest := by
  have hlength := length_take_of_le hle
  have hspace : (template.take insertionPoint ++ (' ' :: (name ++ rest))).drop insertionPoint =
      ' ' :: (name ++ rest) := drop_left' hlength
  have hbehind : (template.take insertionPoint ++ (' ' :: (name ++ rest))).drop
    (insertionPoint + 1) =
      name ++ rest := by
    rw [← drop_drop, hspace]
    rfl
  refine ⟨?_, hbehind⟩
  rw [skipTrivia_space hspace rfl]
  apply skipTrivia_code
  obtain ⟨first, word, rfl, hfirst, -⟩ := hname.exists_cons
  rw [hbehind]
  exact startsCode_of_isIdentifierStart hfirst

theorem consumeWithClauseStart_plain (hname : IsIdentifier tables name)
    (hkeyword : ¬ ReadsRecursive tables name) (hle : offset + "WITH".length ≤ template.length)
    (hoffset : skipTrivia template 0 = .ok offset)
    (hwith : tryConsumeKeyword tables template offset "WITH" = some (offset + "WITH".length)) :
    consumeWithClauseStart tables
      (template.take (offset + "WITH".length) ++ (' ' :: (name ++ ' ' :: rest))) context =
        .ok (offset + "WITH".length + 1) := by
  have hWith : "WITH".length = 4 := rfl
  obtain ⟨hskip, hbehind⟩ := @skipTrivia_insertion tables template (' ' :: rest) _ _ hle hname
  have hoffset' :=
    @skipTrivia_zero_insertion template (' ' :: (name ++ ' ' :: rest)) _ _ hle hoffset
    (by omega)
  exact consumeWithClauseStart_eq_ok.mpr ⟨offset, _, hoffset',
    tryConsumeKeyword_insertion hle hwith,
    hskip, Or.inl ⟨tryConsumeKeyword_recursive hname hbehind hkeyword, rfl⟩⟩

theorem consumeWithClauseStart_recursive
    (hname : IsIdentifier tables name) (hle : triviaEnd + "RECURSIVE".length ≤ template.length)
    (hoffset : skipTrivia template 0 = .ok offset)
    (hwith : tryConsumeKeyword tables template offset "WITH" = some (offset + "WITH".length))
    (htrivia : skipTrivia template (offset + "WITH".length) = .ok triviaEnd)
    (hrecursive : tryConsumeKeyword tables template triviaEnd "RECURSIVE" =
      some (triviaEnd + "RECURSIVE".length)) :
    consumeWithClauseStart tables
      (template.take (triviaEnd + "RECURSIVE".length) ++ (' ' :: (name ++ ' ' :: rest))) context =
        .ok (triviaEnd + "RECURSIVE".length + 1) := by
  have hWith : "WITH".length = 4 := rfl
  have hRecursive : "RECURSIVE".length = 9 := rfl
  have hlt := le_of_skipTrivia htrivia
  obtain ⟨hskip, hbehind⟩ := @skipTrivia_insertion tables template (' ' :: rest) _ _ hle hname
  have hoffset' :=
    @skipTrivia_zero_insertion template (' ' :: (name ++ ' ' :: rest)) _ _ hle hoffset
    (by omega)
  have hkeyword : Agree ("WITH".length + 1) (template.drop offset) ((template.take
      (triviaEnd + "RECURSIVE".length) ++ (' ' :: (name ++ ' ' :: rest))).drop offset) :=
    agree_insertion hle (by omega)
  have hbetween : Agree (triviaEnd - (offset + "WITH".length) + 2)
      (template.drop (offset + "WITH".length)) ((template.take
        (triviaEnd + "RECURSIVE".length) ++ (' ' :: (name ++ ' ' :: rest))).drop
          (offset + "WITH".length)) :=
    agree_insertion hle (by omega)
  have htrivia' := skipTrivia_local htrivia hbetween
  rw [Nat.add_sub_cancel' hlt] at htrivia'
  exact consumeWithClauseStart_eq_ok.mpr ⟨offset, triviaEnd, hoffset',
    (tryConsumeKeyword_local hkeyword).mp hwith, htrivia',
    Or.inr ⟨tryConsumeKeyword_insertion hle hrecursive, hskip⟩⟩

theorem mergeTemplateCtes_withClause (hoffset : skipTrivia template 0 = .ok offset)
    (hwith : tryConsumeKeyword tables template offset "WITH" = some (offset + "WITH".length))
    (htrivia : skipTrivia template (offset + "WITH".length) = .ok triviaEnd) :
    mergeTemplateCtes tables template (namedQuery :: namedQueries) =
      let insertionPoint := (tryConsumeKeyword tables template triviaEnd "RECURSIVE").getD
        (offset + "WITH".length)
      .ok (String.ofList (template.take insertionPoint) ++ " " ++
        ",\n".intercalate ((namedQuery :: namedQueries).map renderedQuery) ++ "," ++
        String.ofList (template.drop insertionPoint)) := by
  rw [mergeTemplateCtes, if_neg (by simp), hoffset]
  show (match tryConsumeKeyword tables template offset "WITH" with
    | none => _
    | some withEnd => _) = _
  rw [hwith]
  show (skipTrivia template (offset + "WITH".length) >>= _) = _
  rw [htrivia]
  rfl

theorem mergeTemplateCtes_withoutClause (hoffset : skipTrivia template 0 = .ok offset)
    (hwith : tryConsumeKeyword tables template offset "WITH" = none) :
    mergeTemplateCtes tables template (namedQuery :: namedQueries) =
      .ok ("WITH " ++ ",\n".intercalate ((namedQuery :: namedQueries).map renderedQuery) ++ "\n" ++
        String.ofList template) := by
  rw [mergeTemplateCtes, if_neg (by simp), hoffset]
  show (match tryConsumeKeyword tables template offset "WITH" with
    | none => _
    | some withEnd => _) = _
  rw [hwith]

/-- Queries are inserted behind the keywords of the clause, and what is inserted is read first. -/
theorem exists_insertionPoint (hname : IsIdentifier tables name)
    (hstart : consumeWithClauseStart tables template context = .ok start)
    (hlt : start < template.length)
    (hkeyword : RecursiveClause tables template ∨ ¬ ReadsRecursive tables name) :
    ∃ insertionPoint, insertionPoint ≤ template.length ∧
      skipTrivia template insertionPoint = .ok start ∧
      (∀ namedQuery namedQueries, mergeTemplateCtes tables template (namedQuery :: namedQueries) =
        .ok (String.ofList (template.take insertionPoint) ++ " " ++
          ",\n".intercalate ((namedQuery :: namedQueries).map renderedQuery) ++ "," ++
          String.ofList (template.drop insertionPoint))) ∧
      ∀ behind, consumeWithClauseStart tables
        (template.take insertionPoint ++ (' ' :: (name ++ ' ' :: behind))) context =
          .ok (insertionPoint + 1) := by
  obtain ⟨offset, triviaEnd, hoffset, hwith, htrivia, hrecursive⟩ :=
    consumeWithClauseStart_eq_ok.mp hstart
  have hWith : "WITH".length = 4 := rfl
  have hRecursive : "RECURSIVE".length = 9 := rfl
  have hle := le_of_skipTrivia htrivia
  rcases hrecursive with ⟨hnone, rfl⟩ | ⟨hsome, hindex⟩
  · have hname' : ¬ ReadsRecursive tables name := by
      refine hkeyword.resolve_left ?_
      rintro ⟨offset', triviaEnd', hoffset', -, htrivia', hsome⟩
      obtain rfl := Except.ok.inj (hoffset.symm.trans hoffset')
      obtain rfl := Except.ok.inj (htrivia.symm.trans htrivia')
      rw [hnone] at hsome
      cases hsome
    refine ⟨offset + "WITH".length, by omega, htrivia, fun namedQuery namedQueries => ?_,
      fun behind => ?_⟩
    · rw [mergeTemplateCtes_withClause hoffset hwith htrivia, hnone]
      rfl
    · exact consumeWithClauseStart_plain hname hname' (by omega) hoffset hwith
  · have hle' := le_of_skipTrivia hindex
    refine ⟨triviaEnd + "RECURSIVE".length, by omega, hindex, fun namedQuery namedQueries => ?_,
      fun behind => ?_⟩
    · rw [mergeTemplateCtes_withClause hoffset hwith htrivia, hsome]
      rfl
    · exact consumeWithClauseStart_recursive hname (by omega) hoffset hwith htrivia hsome

theorem extracts_withClause {result : SqlTopLevelCtes}
    (hqueries : ∀ q ∈ namedQuery :: namedQueries, IsNamedQuery tables q)
    (hnames : ((namedQuery :: namedQueries).map (·.1)).Nodup)
    (hkeyword : RecursiveClause tables template ∨ ¬ ReadsRecursive tables namedQuery.1.toList)
    (hresult : extractTopLevelCtes tables template context = .ok result)
    (hother : ∀ q ∈ namedQuery :: namedQueries, ∀ cte ∈ result.ctes, q.1 ≠ cte.name) :
    ∃ merged, mergeTemplateCtes tables template (namedQuery :: namedQueries) = .ok merged ∧
      Extracts tables merged.toList context
        ((namedQuery :: namedQueries).map strippedQuery ++
          result.ctes.map fun cte => (cte.name, cte.query)) result.trailingSql := by
  obtain ⟨start, hstart, hloop⟩ := bind_eq_ok.mp hresult
  obtain ⟨own, trailing, hreads, hdistinct, hqueries', htrailing⟩ :=
    reads_of_extractLoop hloop nodup_nil
  have hlt : start < template.length := by
    cases hreads with
    | last hread => exact lt_length_of_readCte hread
    | cons hread => exact lt_length_of_readCte hread
  obtain ⟨insertionPoint, hle, hskip, hmerged, hconsume⟩ := exists_insertionPoint
    (hqueries namedQuery mem_cons_self).name hstart hlt hkeyword
  refine ⟨_, hmerged namedQuery namedQueries, ?_⟩
  obtain ⟨behind, hwritten⟩ := @exists_writtenQueries namedQuery namedQueries
  generalize hsql : (String.ofList (template.take insertionPoint) ++ " " ++
    ",\n".intercalate ((namedQuery :: namedQueries).map renderedQuery) ++ "," ++
    String.ofList (template.drop insertionPoint)).toList = sql
  have hlist : sql = template.take insertionPoint ++
      (' ' :: (writtenQueries (namedQuery :: namedQueries) ++
        (',' :: template.drop insertionPoint))) := by
    rw [← hsql]
    simp only [String.toList_append, String.toList_ofList, toList_intercalate_renderedQuery]
    simp
  have hname : sql = template.take insertionPoint ++ (' ' :: (namedQuery.1.toList ++
      ' ' :: ("AS ".toList ++ behind ++ (',' :: template.drop insertionPoint)))) := by
    rw [hlist, hwritten]
    simp
  have hdrop : sql.drop (insertionPoint + 1) =
      writtenQueries (namedQuery :: namedQueries) ++ (',' :: template.drop insertionPoint) := by
    rw [hlist, ← drop_drop, drop_left' (length_take_of_le hle)]
    rfl
  have hconsume' : consumeWithClauseStart tables sql context = .ok (insertionPoint + 1) := by
    rw [hname]
    exact hconsume _
  have hown : result.ctes.map (fun cte => (cte.name, cte.query)) = own := hqueries'
  have hnodup : (((namedQuery :: namedQueries).map strippedQuery ++ own).map (·.1)).Nodup := by
    apply nodup_strippedQueries _ rfl
    rw [nodup_append]
    refine ⟨hnames, hdistinct, ?_⟩
    rintro _ hquery _ hcte rfl
    obtain ⟨q, hq, heq⟩ := mem_map.mp hquery
    rw [← hown, map_map] at hcte
    obtain ⟨cte, hcte, heq'⟩ := mem_map.mp hcte
    exact hother q hq cte hcte (heq.trans heq'.symm)
  rw [htrailing, hown]
  exact extracts_of_reads hconsume' (reads_insertion hqueries hdrop hskip hreads) hnodup

/-- Queries that are merged into a template are extracted in their order, without the white space
around their bodies. Behind them come the expressions of the template and its statement. -/
theorem extracts_merged {namedQueries : List (String × String)} (hne : namedQueries ≠ [])
    (htemplate : lexemes tables template ≠ none)
    (hqueries : ∀ q ∈ namedQueries, IsNamedQuery tables q) (hnames : (namedQueries.map (·.1)).Nodup)
    (hkeyword : RecursiveClause tables template ∨
      ∀ first ∈ namedQueries.head?, ¬ ReadsRecursive tables first.1.toList) :
    ∃ offset, skipTrivia template 0 = .ok offset ∧
      (tryConsumeKeyword tables template offset "WITH" = none → template[offset]? ≠ some ',' →
        ∃ merged, mergeTemplateCtes tables template namedQueries = .ok merged ∧
          Extracts tables merged.toList context (namedQueries.map strippedQuery)
            (String.ofList (pythonStrip (template.drop offset)))) ∧
      ∀ own, extractTopLevelCtes tables template context = .ok own →
        (∀ q ∈ namedQueries, ∀ cte ∈ own.ctes, q.1 ≠ cte.name) →
          ∃ merged, mergeTemplateCtes tables template namedQueries = .ok merged ∧
            Extracts tables merged.toList context
              (namedQueries.map strippedQuery ++ own.ctes.map fun cte => (cte.name, cte.query))
              own.trailingSql := by
  obtain ⟨namedQuery, namedQueries, rfl⟩ := exists_cons_of_ne_nil hne
  obtain ⟨offset, hoffset, -⟩ := skipTrivia_firstCode htemplate (CodeRead.refl (Nat.zero_le _))
  refine ⟨offset, hoffset, fun hwith hcomma => ?_, fun own hown hother => ?_⟩
  · refine ⟨_, mergeTemplateCtes_withoutClause hoffset hwith, ?_⟩
    have hkeyword' : ¬ ReadsRecursive tables namedQuery.1.toList := by
      refine (hkeyword.resolve_left ?_) namedQuery rfl
      rintro ⟨offset', _, hoffset', hwith', -⟩
      obtain rfl := Except.ok.inj (hoffset.symm.trans hoffset')
      rw [hwith] at hwith'
      cases hwith'
    have hextracts := @extracts_withoutClause tables template offset context _ _ hqueries hnames
      hkeyword' hoffset hcomma
    convert hextracts using 1
    simp only [String.toList_append, String.toList_ofList, toList_intercalate_renderedQuery]
    simp
  · exact extracts_withClause hqueries hnames (hkeyword.imp_right fun h => h namedQuery rfl)
      hown hother

end

theorem extracts_merged_two : ∃ merged,
    mergeTemplateCtes asciiTables "WITH b AS (SELECT 2)\nSELECT * FROM b".toList
        [("a", "SELECT ')' -- one")] = .ok merged ∧
      Extracts asciiTables merged.toList "template" [("a", "SELECT ')' -- one"), ("b", "SELECT 2")]
        "SELECT * FROM b" := by
  have hquery : IsNamedQuery asciiTables ("a", "SELECT ')' -- one") :=
    ⟨⟨⟨'a', rfl, rfl⟩, by simp; decide⟩, ⟨by decide +kernel, by decide +kernel, by decide +kernel⟩⟩
  have hfirst : ¬ ReadsRecursive asciiTables "a".toList := fun h => absurd h.1 (by decide)
  obtain ⟨_, -, -, hclause⟩ := @extracts_merged asciiTables
    "WITH b AS (SELECT 2)\nSELECT * FROM b".toList "template" [("a", "SELECT ')' -- one")] (by simp)
    (by decide +kernel) (by simpa using hquery) (by simp) (Or.inr (by simpa using hfirst))
  exact hclause ⟨[⟨"b", "SELECT 2", ⟨11, 19, 1, 12, 1, 20⟩⟩], "SELECT * FROM b",
    ⟨21, 36, 2, 1, 2, 16⟩⟩
    (by decide +kernel) (by simp)

/-- A query with the name of an expression of the template is a duplicate. -/
theorem not_extracts_of_sameName : ¬ ∀ template namedQueries own, ClosedText asciiTables template →
    (∀ q ∈ namedQueries, IsNamedQuery asciiTables q) → (namedQueries.map (·.1)).Nodup →
    extractTopLevelCtes asciiTables template "template" = .ok own →
    ∃ merged, mergeTemplateCtes asciiTables template namedQueries = .ok merged ∧
      Extracts asciiTables merged.toList "template"
        (namedQueries ++ own.ctes.map fun cte => (cte.name, cte.query)) own.trailingSql := by
  intro h
  have hquery : IsNamedQuery asciiTables ("a", "SELECT 1") :=
    ⟨⟨⟨'a', rfl, rfl⟩, by simp; decide⟩, ⟨by decide +kernel, by decide +kernel, by decide +kernel⟩⟩
  obtain ⟨merged, hmerged, result, hresult, -⟩ := h "WITH a AS (SELECT 2) SELECT 3".toList
    [("a", "SELECT 1")] ⟨[⟨"a", "SELECT 2", ⟨11, 19, 1, 12, 1, 20⟩⟩], "SELECT 3",
      ⟨21, 29, 1, 22, 1, 30⟩⟩
    ⟨by decide +kernel, by decide +kernel, by decide +kernel⟩ (by simpa using hquery) (by simp)
    (by decide +kernel)
  have htext : mergeTemplateCtes asciiTables "WITH a AS (SELECT 2) SELECT 3".toList
      [("a", "SELECT 1")] = .ok "WITH a AS (\nSELECT 1\n), a AS (SELECT 2) SELECT 3" := by
    decide +kernel
  have hduplicate : (extractTopLevelCtes asciiTables
      "WITH a AS (\nSELECT 1\n), a AS (SELECT 2) SELECT 3".toList "template").toOption = none := by
    decide +kernel
  obtain rfl := Except.ok.inj (htext.symm.trans hmerged)
  rw [hresult] at hduplicate
  cases hduplicate

end SqlTide.SqlText
