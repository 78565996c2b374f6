import SqlTide.SqlText.StrippedText
import SqlTide.SqlText.TemplatePredicates

/-!
# Templates with a predicate put in

The grammar says where the outer SELECT of a template has its WHERE clause and the clause after it.
The scan for keywords hits these places unless another word outside of the parentheses is spelled
like a keyword. The condition is put into parentheses as it stands, so that a line comment at its
end takes in what follows it, up to the next line break.
-/

namespace SqlTide.SqlText

open Foundations List

/-- The lexemes that are no comments. -/
def codeTokens (ls : List Lexeme) : List Lexeme := ls.filter (!·.isComment)

def whereWord : Lexeme := .word "WHERE".toList

def andWord : Lexeme := .word "AND".toList

section
variable (tables : PythonTables)

def isFrom : Lexeme → Bool
  | .word text => pythonUpper tables text = "FROM"
  | _ => false

/-- How what follows the WHERE clause begins: with another keyword, or with the end of the
statement. -/
def startsClause : Lexeme → Bool
  | .word text => pythonUpper tables text ≠ "WHERE"
  | .symbol character => character = ';'
  | _ => false

/-- The WHERE of an outer SELECT, and the condition up to the next clause. -/
structure WhereClause where
  keyword : Lexeme
  condition : List Lexeme
  isWhere : isWhere tables keyword = true
  balanced : Balanced parenthesis condition

def whereLexemes : Option (WhereClause tables) → List Lexeme
  | none => []
  | some clause => clause.keyword :: clause.condition

/-- A template as the grammar reads it: the outer SELECT with its FROM clause, its WHERE clause
where there is one, and the clauses that follow. -/
structure OuterSelect where
  template : List Char
  select : List Lexeme
  whereClause : Option (WhereClause tables)
  following : List Lexeme
  reads : lexemes tables template = some (select ++ whereLexemes tables whereClause ++ following)
  reads_from : ∃ l ∈ outside parenthesis 0 select, isFrom tables l = true
  balanced : Balanced parenthesis select
  following_balanced : Balanced parenthesis following
  starts : ∀ l ∈ following.head?, startsClause tables l = true

/-- A predicate that leaves nothing open before the parenthesis that closes it. -/
structure ClosedPredicate where
  text : String
  lexemes : List Lexeme
  reads : Reads tables text.toList lexemes [')']
  balanced : Balanced parenthesis lexemes

variable {tables} (outer : OuterSelect tables) (predicate : ClosedPredicate tables)

/-- The tokens of the template, with the predicate as its condition or beside its condition. -/
def OuterSelect.conjoined : List Lexeme :=
  codeTokens outer.select ++
    (match outer.whereClause with
      | none => whereWord :: .symbol '(' :: (codeTokens predicate.lexemes ++ [.symbol ')'])
      | some clause =>
        clause.keyword :: .symbol '(' :: (codeTokens clause.condition ++ .symbol ')' ::
          andWord :: .symbol '(' :: (codeTokens predicate.lexemes ++ [.symbol ')']))) ++
    codeTokens outer.following

/-- The result reads as the template with the predicate conjoined, and nothing else. -/
def PreservesTemplate : Prop :=
  ∃ result ls, appendTemplatePredicate tables outer.template predicate.text = .ok result ∧
    lexemes tables result.toList = some ls ∧ codeTokens ls = outer.conjoined predicate

/-- What is written behind the condition. -/
def behindCondition (predicate : String) (after : List Char) : List Char :=
  ") AND (".toList ++ predicate.toList ++ ')' :: (if after = [] then [] else '\n' :: after)

/-- No word of what is selected is taken for a keyword. -/
def PlainSelect : Prop :=
  ∀ l ∈ outside parenthesis 0 outer.select, isBoundary tables l = false ∧ isWhere tables l = false

/-- The clause after the FROM clause is the one that the scan looks for, and a condition neither has
such a word outside of its parentheses nor a line comment at its end. Or it has both of them, or
the comment alone, and what comes after the first line break behind the comment says over again
what the comment takes in. -/
inductive Keeps : Prop
  | added (hwhere : outer.whereClause = none)
      (hfollowing : ∀ l ∈ outer.following.head?, isBoundary tables l = true)
  | conjoined (clause : WhereClause tables) (hwhere : outer.whereClause = some clause)
      (hcondition : ∀ l ∈ outside parenthesis 0 clause.condition, isBoundary tables l = false)
      (hlast : ∀ l ∈ clause.condition.getLast?, l.isLineComment = false)
      (hfollowing : ∀ l ∈ outer.following.head?, isBoundary tables l = true)
  | resumed (clause : WhereClause tables) (hwhere : outer.whereClause = some clause)
      (front back : List Lexeme) (comment before after : List Char)
      (hcondition : clause.condition = front ++ [.lineComment comment] ++ back)
      (hfront : ∀ l ∈ outside parenthesis 0 front, isBoundary tables l = false)
      (hdepth : depthAfter parenthesis 0 front = 0)
      (hback : ∀ l ∈ (back ++ outer.following).head?, isBoundary tables l = true)
      (htext : outer.template = before ++ after)
      (hreads : Reads tables before
        (outer.select ++ clause.keyword :: (front ++ [.lineComment comment])) after)
      (hstarts : ∀ c ∈ after.head?, isIdentifierStart tables c = true)
      (hresumed : (lexemes tables (afterLine (behindCondition predicate.text after))).map
        codeTokens =
        some (codeTokens back ++ .symbol ')' :: andWord :: .symbol '(' ::
          (codeTokens predicate.lexemes ++ .symbol ')' :: codeTokens outer.following)))

end

section
variable {tables : PythonTables} {text rest before after : List Char} {ls : List Lexeme}

@[simp] theorem codeTokens_append (ls more : List Lexeme) :
    codeTokens (ls ++ more) = codeTokens ls ++ codeTokens more :=
  filter_append ..

@[simp] theorem codeTokens_symbol (character : Char) (more : List Lexeme) :
    codeTokens (.symbol character :: more) = .symbol character :: codeTokens more := rfl

@[simp] theorem codeTokens_whereWord (more : List Lexeme) :
    codeTokens (whereWord :: more) = whereWord :: codeTokens more := rfl

@[simp] theorem codeTokens_andWord (more : List Lexeme) :
    codeTokens (andWord :: more) = andWord :: codeTokens more := rfl

@[simp] theorem codeTokens_lineComment (text : List Char) (more : List Lexeme) :
    codeTokens (.lineComment text :: more) = codeTokens more := rfl

@[simp] theorem codeTokens_nil : codeTokens [] = [] := rfl

theorem reads_where : Reads tables "WHERE (".toList [whereWord, .symbol '('] rest :=
  ⟨rfl, code_endsBefore⟩

theorem reads_newlineWhere : Reads tables "\nWHERE (".toList [whereWord, .symbol '('] rest :=
  ⟨rfl, code_endsBefore⟩

theorem reads_opening : Reads tables " (".toList [.symbol '('] rest := ⟨rfl, code_endsBefore⟩

theorem reads_closing : Reads tables ")".toList [.symbol ')'] rest := ⟨rfl, code_endsBefore⟩

theorem reads_closingNewline : Reads tables ")\n".toList [.symbol ')'] rest :=
  ⟨rfl, code_endsBefore⟩

theorem reads_and : Reads tables ") AND (".toList [.symbol ')', andWord, .symbol '('] rest :=
  ⟨rfl, code_endsBefore⟩

theorem reads_newline : Reads tables ['\n'] [] rest := ⟨rfl, code_endsBefore⟩

/-- What a text reads as does not change if another word follows. -/
theorem Reads.before_word {word : Char} (h : Reads tables before ls after)
    (hne : after ≠ []) (hafter : ∀ c ∈ after.head?, isIdentifierStart tables c = true)
    (hword : isIdentifierStart tables word = true) : Reads tables before ls (word :: rest) := by
  obtain ⟨c, after, rfl⟩ := exists_cons_of_ne_nil hne
  exact ⟨h.1, endsBefore_word h.2 delimiter_run_code (hafter c rfl) hword⟩

theorem Reads.before_newline (h : Reads tables before ls after) :
    Reads tables before ls ('\n' :: rest) :=
  ⟨h.1, endsBefore_newline h.2.1 delimiter_run_code⟩

theorem Reads.before_closing (h : Reads tables before ls [')']) :
    Reads tables before ls (')' :: rest) := by
  refine ⟨h.1, h.2.1, fun c hc => h.2.2 c ?_⟩
  simpa using hc

theorem lexemes_added {lsBefore lsAfter : List Lexeme} (predicate : ClosedPredicate tables)
    (hreads : Reads tables before lsBefore after) (hrest : lexemes tables after = some lsAfter)
    (hstarts : ∀ c ∈ after.head?, isIdentifierStart tables c = true) :
    lexemes tables (if after = [] then
        before ++ ("\nWHERE (".toList ++ (predicate.text.toList ++ ")".toList))
      else before ++ ("WHERE (".toList ++ (predicate.text.toList ++ (")\n".toList ++ after)))) =
      some (lsBefore ++ (whereWord :: .symbol '(' :: (predicate.lexemes ++ .symbol ')' ::
        lsAfter))) := by
  split_ifs with hnil
  · subst hnil
    have hhead : Reads tables before lsBefore
        ("\nWHERE (".toList ++ (predicate.text.toList ++ ")".toList)) := hreads.before_newline
    have hpredicate : Reads tables predicate.text.toList predicate.lexemes ")".toList :=
      predicate.reads
    have hempty : lexemes tables [] = some lsAfter := hrest
    rw [hhead.lexemes_append, reads_newlineWhere.lexemes_append, hpredicate.lexemes_append,
      reads_closing.lexemes_eq]
    obtain rfl : [] = lsAfter := Option.some.inj hempty
    rfl
  · have hhead : Reads tables before lsBefore
        ("WHERE (".toList ++ (predicate.text.toList ++ (")\n".toList ++ after))) :=
      hreads.before_word hnil hstarts rfl
    have hpredicate : Reads tables predicate.text.toList predicate.lexemes
        (")\n".toList ++ after) := predicate.reads.before_closing
    rw [hhead.lexemes_append, reads_where.lexemes_append, hpredicate.lexemes_append,
      reads_closingNewline.lexemes_append, hrest]
    simp

theorem lexemes_closing {more : List Lexeme} (h : lexemes tables rest = some more) :
    lexemes tables (')' :: rest) = some (.symbol ')' :: more) := by
  have happend := (@reads_closing tables rest).lexemes_append
  rw [h] at happend
  exact happend

theorem lexemes_newline (rest : List Char) :
    lexemes tables (if rest = [] then [] else '\n' :: rest) = lexemes tables rest := by
  split_ifs with hnil
  · rw [hnil]
  · have happend := (@reads_newline tables rest).lexemes_append
    simpa using happend

/-- The lexemes of what is written behind the condition, where it is read as code. -/
theorem lexemes_behindCondition {lsAfter : List Lexeme} (predicate : ClosedPredicate tables)
    (hrest : lexemes tables after = some lsAfter) :
    lexemes tables (behindCondition predicate.text after) =
      some ([.symbol ')', andWord, .symbol '('] ++
        (predicate.lexemes ++ .symbol ')' :: lsAfter)) := by
  rw [← lexemes_newline] at hrest
  unfold behindCondition
  generalize (if after = [] then [] else '\n' :: after) = tail at hrest ⊢
  have hpredicate : Reads tables predicate.text.toList predicate.lexemes (')' :: tail) :=
    predicate.reads.before_closing
  have hbehind := (@reads_and tables (predicate.text.toList ++ ')' :: tail)).lexemes_append
  rw [hpredicate.lexemes_append, lexemes_closing hrest, Option.map_some, Option.map_some] at hbehind
  rw [append_assoc]
  exact hbehind

theorem Reads.before_opening {lsHead : List Lexeme} {keyword : Lexeme}
    (h : Reads tables before (lsHead ++ [keyword]) after)
    (hkeyword : isWhere tables keyword = true) :
    Reads tables before (lsHead ++ [keyword]) (" (".toList ++ rest) := by
  refine ⟨h.1, ?_⟩
  have hline : ((lexer tables).run .code before).2.isLine = false := by
    cases hmode : ((lexer tables).run .code before).2 with
    | line text =>
      have hlast := congrArg getLast? h.1
      rw [hmode] at hlast
      simp only [Mode.flush, getLast?_append, getLast?_singleton, Option.some_or,
        Option.some.injEq] at hlast
      rw [← hlast] at hkeyword
      cases hkeyword
    | code | word | number | quoted | escaped | closing | dash | slash | block | star => rfl
  exact endsBefore_of_separator h.2.1 hline delimiter_run_code
    (not_isIdentifierCharacter_of_isspace (by decide)) rfl (by decide) (by decide)

/-- What the result reads as: a clause is added, or the condition is conjoined, or the line comment
at the end of the condition takes in what follows it. -/
inductive Outcome (tables : PythonTables) (template : List Char) (ls : List Lexeme)
    (predicate : ClosedPredicate tables) (result : List Char) : Prop
  | added (boundary : ℕ) (before after : List Char) (lsBefore lsAfter : List Lexeme)
      (hboundary : BoundaryAt tables 0 0 template ls boundary before after lsBefore lsAfter)
      (hwhere : ∀ l ∈ outside parenthesis 0 lsBefore, isWhere tables l = false)
      (hresult : lexemes tables result = some (lsBefore ++ (whereWord :: .symbol '(' ::
        (predicate.lexemes ++ .symbol ')' :: lsAfter))))
  | conjoined (boundary position : ℕ) (before after head segment : List Char)
      (lsBefore lsAfter lsHead : List Lexeme) (keyword : Lexeme) (condition : List Lexeme)
      (hboundary : BoundaryAt tables 0 0 template ls boundary before after lsBefore lsAfter)
      (hwhere : WhereAt tables 0 0 before after lsBefore position head segment lsHead keyword
        condition)
      (hlast : ∀ l ∈ condition.getLast?, l.isLineComment = false)
      (hresult : lexemes tables result = some (lsHead ++ (keyword :: .symbol '(' :: (condition ++
        ([.symbol ')', andWord, .symbol '('] ++ (predicate.lexemes ++ .symbol ')' :: lsAfter))))))
  | takenIn (boundary position : ℕ) (before after head segment : List Char)
      (lsBefore lsAfter lsHead : List Lexeme) (keyword : Lexeme) (condition : List Lexeme)
      (hboundary : BoundaryAt tables 0 0 template ls boundary before after lsBefore lsAfter)
      (hwhere : WhereAt tables 0 0 before after lsBefore position head segment lsHead keyword
        condition)
      (front : List Lexeme) (comment comment' : List Char)
      (hcondition : condition = front ++ [.lineComment comment])
      (hresult : lexemes tables result = (lexemes tables
        (afterLine (behindCondition predicate.text after))).map fun more =>
          lsHead ++ (keyword :: .symbol '(' :: (front ++ .lineComment comment' :: more)))

theorem outcome_of_where {predicate : ClosedPredicate tables} {template head segment : List Char}
    {all lsBefore lsAfter lsHead condition : List Lexeme} {keyword : Lexeme} {boundary position : ℕ}
    (hboundary : BoundaryAt tables 0 0 template all boundary before after lsBefore lsAfter)
    (hwhere : WhereAt tables 0 0 before after lsBefore position head segment lsHead keyword
      condition) :
    Outcome tables template all predicate
      (head ++ (" (".toList ++ (pythonStrip segment ++ behindCondition predicate.text after))) := by
  have hhead : ∀ rest, lexemes tables (head ++ (" (".toList ++ rest)) =
      (lexemes tables rest).map fun more => lsHead ++ (keyword :: .symbol '(' :: more) := by
    intro rest
    have hread : Reads tables head (lsHead ++ [keyword]) (" (".toList ++ rest) :=
      hwhere.reads_head.before_opening hwhere.found
    rw [hread.lexemes_append, reads_opening.lexemes_append, Option.map_map]
    congr 1
    funext more
    simp
  cases stripped_of_reads hwhere.reads_segment with
  | plain hreads hclosed hline hlast =>
    have hsegment : Reads tables (pythonStrip segment) condition
        (behindCondition predicate.text after) := by
      refine ⟨hreads, ?_⟩
      exact endsBefore_of_separator hclosed hline delimiter_run_code rfl rfl (by decide) (by decide)
    refine .conjoined boundary position before after head segment lsBefore lsAfter lsHead keyword
      condition hboundary hwhere hlast ?_
    rw [hhead, hsegment.lexemes_append, lexemes_behindCondition predicate hboundary.rest]
    rfl
  | comment comment text' hreads hline =>
    obtain ⟨comment', hcomment⟩ := lexemes_line hline (behindCondition predicate.text after)
    refine .takenIn boundary position before after head segment lsBefore lsAfter lsHead keyword
      condition hboundary hwhere _ comment comment' hreads ?_
    rw [hhead, hcomment, Option.map_map]
    rfl

/-- The result, by what the scan finds. -/
theorem exists_outcome {template : List Char} {all : List Lexeme}
    (hread : lexemes tables template = some all) (predicate : ClosedPredicate tables) :
    ∃ result, appendTemplatePredicate tables template predicate.text = .ok result ∧
      Outcome tables template all predicate result.toList := by
  obtain ⟨⟨whereEnd, boundary⟩, hpositions, before, after, lsBefore, lsAfter, hboundary, hfound⟩ :=
    outerPredicatePositions_scanned hread
  have hlength : boundary = before.length := hboundary.position.trans (Nat.zero_add _)
  have htake : template.take boundary = before := by
    rw [hboundary.text_eq, hlength, take_left]
  have hdrop : template.drop boundary = after := by
    rw [hboundary.text_eq, hlength, drop_left]
  have hend : boundary = template.length ↔ after = [] := by
    rw [hboundary.text_eq, hlength, length_append]
    constructor
    · intro h
      exact eq_nil_of_length_eq_zero (by omega)
    · rintro rfl
      simp
  rw [appendTemplatePredicate, hpositions]
  rcases hfound with ⟨hnone, hplain⟩ | ⟨-, position, head, segment, lsHead, keyword, condition,
    hposition, hwhere⟩
  · obtain rfl : whereEnd = none := hnone
    have hadded := lexemes_added predicate hboundary.reads hboundary.rest hboundary.starts
    dsimp only [bind, Except.bind]
    rw [htake, hdrop]
    by_cases hnil : after = []
    · rw [if_pos (hend.mpr hnil)]
      rw [if_pos hnil] at hadded
      refine ⟨_, rfl, .added boundary before after lsBefore lsAfter hboundary (hplain rfl) ?_⟩
      simp only [String.toList_append, String.toList_ofList, append_assoc]
      exact hadded
    · rw [if_neg fun h => hnil (hend.mp h)]
      rw [if_neg hnil] at hadded
      refine ⟨_, rfl, .added boundary before after lsBefore lsAfter hboundary (hplain rfl) ?_⟩
      simp only [String.toList_append, String.toList_ofList, append_assoc]
      exact hadded
  · obtain rfl : whereEnd = some position := hposition
    have hsegment : before.drop position = segment := by
      rw [hwhere.text_eq, hwhere.position, Nat.zero_add, drop_left]
    have hhead : template.take position = head := by
      rw [hboundary.text_eq, hwhere.text_eq, hwhere.position, Nat.zero_add, append_assoc, take_left]
    have houtcome := @outcome_of_where tables before after predicate template head segment _ _ _ _ _
      _ _ _ hboundary hwhere
    dsimp only [bind, Except.bind]
    rw [htake, hdrop, hsegment, hhead]
    refine ⟨_, rfl, ?_⟩
    unfold behindCondition at houtcome
    by_cases hnil : after = []
    · rw [if_pos hnil] at houtcome
      rw [if_pos (hend.mpr hnil)]
      simp only [String.toList_append, String.toList_ofList, append_assoc] at houtcome ⊢
      exact houtcome
    · rw [if_neg hnil] at houtcome
      rw [if_neg fun h => hnil (hend.mp h)]
      simp only [String.toList_append, String.toList_ofList, append_assoc] at houtcome ⊢
      exact houtcome

end

end SqlTide.SqlText
