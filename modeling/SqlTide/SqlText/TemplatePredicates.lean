import SqlTide.SqlText.Scanning

/-!
# The predicate of a template

A predicate is put into the outer WHERE clause of a query template, at the places where a scan for
keywords outside of all parentheses finds that clause and the next one. The scan finds the first
such words of the template, whatever they stand for.
-/

namespace SqlTide.SqlText

open Foundations List

def predicateBoundaryKeywords : List String :=
  ["GROUP", "HAVING", "WINDOW", "QUALIFY", "ORDER", "LIMIT", "OFFSET", "SETTINGS", "FORMAT",
    "UNION", "EXCEPT", "INTERSECT"]

section
variable (tables : PythonTables)

/-- The loop of `outer_predicate_positions`: each iteration goes on by a character at least. -/
def outerPositionsLoop (template : List Char) :
    ℕ → Option ℕ → ℕ → ℕ → ScanResult (Option ℕ × ℕ)
  | 0, whereEnd, _, _ => .ok (whereEnd, template.length)
  | fuel + 1, whereEnd, depth, index => do
    let index ← skipTrivia template index
    match template.drop index with
    | [] => .ok (whereEnd, template.length)
    | character :: rest =>
      if isQuote character then do
        let index ← skipQuotedText template index character
        outerPositionsLoop template fuel whereEnd depth index
      else if character = '(' then
        outerPositionsLoop template fuel whereEnd (depth + 1) (index + 1)
      else if character = ')' then
        outerPositionsLoop template fuel whereEnd (depth - 1) (index + 1)
      else if !isIdentifierStart tables character then
        outerPositionsLoop template fuel whereEnd depth (index + 1)
      else
        let characters := rest.takeWhile (isIdentifierCharacter tables)
        let stop := index + 1 + characters.length
        let word := pythonUpper tables (character :: characters)
        if depth = 0 ∧ word = "WHERE" ∧ whereEnd = none then
          outerPositionsLoop template fuel (some stop) depth stop
        else if depth = 0 ∧ word ∈ predicateBoundaryKeywords then .ok (whereEnd, index)
        else outerPositionsLoop template fuel whereEnd depth stop

def outerPredicatePositions (template : List Char) : ScanResult (Option ℕ × ℕ) :=
  outerPositionsLoop tables template template.length none 0 0

def appendTemplatePredicate (template : List Char) (predicate : String) : ScanResult String := do
  let (whereEnd, boundary) ← outerPredicatePositions tables template
  let head := String.ofList (template.take boundary)
  let tail := String.ofList (template.drop boundary)
  match whereEnd with
  | none =>
    if boundary = template.length then .ok (head ++ "\nWHERE (" ++ predicate ++ ")")
    else .ok (head ++ "WHERE (" ++ predicate ++ ")\n" ++ tail)
  | some whereEnd =>
    let segment := String.ofList (pythonStrip ((template.take boundary).drop whereEnd))
    let tail := if boundary = template.length then "" else "\n" ++ tail
    .ok (String.ofList (template.take whereEnd) ++ " (" ++ segment ++ ") AND (" ++
      predicate ++ ")" ++
      tail)

def isWhere : Lexeme → Bool
  | .word text => pythonUpper tables text = "WHERE"
  | _ => false

def isBoundary : Lexeme → Bool
  | .word text => pythonUpper tables text ∈ predicateBoundaryKeywords
  | _ => false

end

variable {tables : PythonTables}

/-- The text before a boundary, and what follows: no word before it is one of the keywords. -/
structure BoundaryAt (tables : PythonTables) (depth offset : ℕ) (text : List Char)
    (ls : List Lexeme) (boundary : ℕ) (before after : List Char)
    (lsBefore lsAfter : List Lexeme) : Prop where
  text_eq : text = before ++ after
  lexemes_eq : ls = lsBefore ++ lsAfter
  position : boundary = offset + before.length
  reads : Reads tables before lsBefore after
  rest : lexemes tables after = some lsAfter
  starts : ∀ character ∈ after.head?, isIdentifierStart tables character = true
  plain : ∀ l ∈ outside parenthesis depth lsBefore, isBoundary tables l = false
  mark : ∀ l ∈ lsAfter.head?,
    isBoundary tables l = true ∧ depthAfter parenthesis depth lsBefore = 0

/-- The first WHERE before the boundary, and the condition. -/
structure WhereAt (tables : PythonTables) (depth offset : ℕ) (before after : List Char)
    (lsBefore : List Lexeme) (whereEnd : ℕ) (head segment : List Char) (lsHead : List Lexeme)
    (keyword : Lexeme) (condition : List Lexeme) : Prop where
  text_eq : before = head ++ segment
  lexemes_eq : lsBefore = lsHead ++ keyword :: condition
  position : whereEnd = offset + head.length
  reads_head : Reads tables head (lsHead ++ [keyword]) (segment ++ after)
  reads_segment : Reads tables segment condition after
  found : isWhere tables keyword = true
  plain : ∀ l ∈ outside parenthesis depth lsHead, isWhere tables l = false
  depth_eq : depthAfter parenthesis depth lsHead = 0

/-- What the loop finds from an offset on. -/
def Scanned (tables : PythonTables) (depth : ℕ) (whereEnd : Option ℕ) (offset : ℕ)
    (text : List Char) (ls : List Lexeme) (positions : Option ℕ × ℕ) : Prop :=
  ∃ before after lsBefore lsAfter,
    BoundaryAt tables depth offset text ls positions.2 before after lsBefore lsAfter ∧
    ((positions.1 = whereEnd ∧
        (whereEnd = none → ∀ l ∈ outside parenthesis depth lsBefore, isWhere tables l = false)) ∨
      (whereEnd = none ∧ ∃ position head segment lsHead keyword condition,
        positions.1 = some position ∧
        WhereAt tables depth offset before after lsBefore position head segment lsHead keyword
          condition))

variable {depth offset length boundary whereEnd : ℕ} {text rest : List Char}
  {ls more : List Lexeme} {positions : Option ℕ × ℕ}

theorem BoundaryAt.advance {before after : List Char} {lsBefore lsAfter : List Lexeme}
    {piece : List Char} (hreads : Reads tables piece ls rest)
    (hplain : ∀ l ∈ outside parenthesis depth ls, isBoundary tables l = false)
    (h : BoundaryAt tables (depthAfter parenthesis depth ls) (offset + piece.length) rest more
      boundary before after lsBefore lsAfter) :
    BoundaryAt tables depth offset (piece ++ rest) (ls ++ more) boundary (piece ++ before) after
      (ls ++ lsBefore) lsAfter where
  text_eq := by rw [h.text_eq, append_assoc]
  lexemes_eq := by rw [h.lexemes_eq, append_assoc]
  position := by rw [h.position, length_append, Nat.add_assoc]
  reads := (h.text_eq ▸ hreads).append h.reads
  rest := h.rest
  starts := h.starts
  plain l hl := by
    rw [outside_append] at hl
    rcases mem_append.mp hl with hl | hl
    · exact hplain l hl
    · exact h.plain l hl
  mark l hl := by
    rw [depthAfter_append]
    exact h.mark l hl

theorem WhereAt.advance {before after head segment : List Char}
    {lsBefore lsHead condition : List Lexeme} {keyword : Lexeme} {piece : List Char}
    (hreads : Reads tables piece ls (before ++ after))
    (hplain : ∀ l ∈ outside parenthesis depth ls, isWhere tables l = false)
    (h : WhereAt tables (depthAfter parenthesis depth ls) (offset + piece.length) before after
      lsBefore whereEnd head segment lsHead keyword condition) :
    WhereAt tables depth offset (piece ++ before) after (ls ++ lsBefore) whereEnd (piece ++ head)
      segment (ls ++ lsHead) keyword condition where
  text_eq := by rw [h.text_eq, append_assoc]
  lexemes_eq := by rw [h.lexemes_eq, append_assoc]
  position := by rw [h.position, length_append, Nat.add_assoc]
  reads_head := by
    rw [append_assoc]
    refine Reads.append ?_ h.reads_head
    rwa [h.text_eq, append_assoc] at hreads
  reads_segment := h.reads_segment
  found := h.found
  plain l hl := by
    rw [outside_append] at hl
    rcases mem_append.mp hl with hl | hl
    · exact hplain l hl
    · exact h.plain l hl
  depth_eq := by
    rw [depthAfter_append]
    exact h.depth_eq

/-- Lexemes that are none of the keywords do not change what is found. -/
theorem Scanned.advance {whereEnd : Option ℕ} (h : Advances tables text length ls rest)
    (hplain : ∀ l ∈ outside parenthesis depth ls, isBoundary tables l = false)
    (hwhere : whereEnd = none → ∀ l ∈ outside parenthesis depth ls, isWhere tables l = false)
    (hrest : Scanned tables (depthAfter parenthesis depth ls) whereEnd (offset + length) rest more
      positions) : Scanned tables depth whereEnd offset text (ls ++ more) positions := by
  obtain ⟨piece, rfl, rfl, hreads⟩ := h
  obtain ⟨before, after, lsBefore, lsAfter, hboundary, hfound⟩ := hrest
  refine ⟨_, _, _, _, hboundary.advance hreads hplain, ?_⟩
  rcases hfound with ⟨hsame, hnone⟩ | ⟨hnone, position, head, segment, lsHead, keyword, condition,
    hposition, hwhereAt⟩
  · refine Or.inl ⟨hsame, fun hunset l hl => ?_⟩
    rw [outside_append] at hl
    rcases mem_append.mp hl with hl | hl
    · exact hwhere hunset l hl
    · exact hnone hunset l hl
  · exact Or.inr ⟨hnone, position, _, _, _, _, _, hposition,
      hwhereAt.advance (hboundary.text_eq ▸ hreads) (hwhere hnone)⟩

variable {l keyword : Lexeme} {comments : List Lexeme} {before : List Char}

theorem parenthesis_of_isComment (h : l.isComment = true) : parenthesis l = none := by
  cases l <;> first | rfl | simp [Lexeme.isComment] at h

theorem not_isBoundary_of_isComment (h : l.isComment = true) : isBoundary tables l = false := by
  cases l <;> first | rfl | simp [Lexeme.isComment] at h

theorem not_isWhere_of_isComment (h : l.isComment = true) : isWhere tables l = false := by
  cases l <;> first | rfl | simp [Lexeme.isComment] at h

theorem parenthesis_of_isBoundary (h : isBoundary tables l = true) : parenthesis l = none := by
  cases l <;> first | rfl | simp [isBoundary] at h

theorem parenthesis_of_isWhere (h : isWhere tables l = true) : parenthesis l = none := by
  cases l <;> first | rfl | simp [isWhere] at h

theorem not_isBoundary_of_isWhere (h : isWhere tables l = true) : isBoundary tables l = false := by
  cases l with
  | word text =>
    have hword : pythonUpper tables text = "WHERE" := by simpa [isWhere] using h
    simp [isBoundary, hword, predicateBoundaryKeywords]
  | _ => rfl

theorem Scanned.where_found (h : Advances tables text length (comments ++ [keyword]) rest)
    (hcomments : ∀ l ∈ comments, l.isComment = true) (hkeyword : isWhere tables keyword = true)
    (hrest : Scanned tables 0 (some (offset + length)) (offset + length) rest more positions) :
    Scanned tables 0 none offset text (comments ++ [keyword] ++ more) positions := by
  obtain ⟨piece, rfl, rfl, hreads⟩ := h
  obtain ⟨before, after, lsBefore, lsAfter, hboundary, hfound⟩ := hrest
  have hposition : positions.1 = some (offset + piece.length) := by
    rcases hfound with ⟨hsame, -⟩ | ⟨hnone, -⟩
    · exact hsame
    · exact absurd hnone (by simp)
  have hnone : ∀ l ∈ comments, parenthesis l = none :=
    fun l hl => parenthesis_of_isComment (hcomments l hl)
  have hall : ∀ l ∈ comments ++ [keyword], parenthesis l = none := by
    intro l hl
    rcases mem_append.mp hl with hl | hl
    · exact hnone l hl
    · exact mem_singleton.mp hl ▸ parenthesis_of_isWhere hkeyword
  have hdepth : depthAfter parenthesis 0 (comments ++ [keyword]) = 0 := depthAfter_of_none hall
  have hplain : ∀ l ∈ outside parenthesis 0 (comments ++ [keyword]),
    isBoundary tables l = false := by
    intro l hl
    rcases mem_append.mp (mem_of_mem_outside hl) with hl | hl
    · exact not_isBoundary_of_isComment (hcomments l hl)
    · exact mem_singleton.mp hl ▸ not_isBoundary_of_isWhere hkeyword
  rw [← hdepth] at hboundary
  refine ⟨_, _, _, _, hboundary.advance hreads hplain, Or.inr ⟨rfl, offset + piece.length, piece,
    before, comments, keyword, lsBefore, hposition, ?_⟩⟩
  exact {
    text_eq := rfl
    lexemes_eq := by simp
    position := rfl
    reads_head := hboundary.text_eq ▸ hreads
    reads_segment := hboundary.reads
    found := hkeyword
    plain := fun l hl => not_isWhere_of_isComment (hcomments l (mem_of_mem_outside hl))
    depth_eq := depthAfter_of_none hnone }

theorem scanned_end {whereEnd : Option ℕ}
    (h : Advances tables text length comments []) (hcomments : ∀ l ∈ comments, l.isComment = true) :
    Scanned tables depth whereEnd offset text comments (whereEnd, offset + text.length) := by
  obtain ⟨piece, rfl, rfl, hreads⟩ := h
  refine ⟨piece, [], comments, [], ?_, Or.inl ⟨rfl, fun _ l hl => ?_⟩⟩
  · exact {
      text_eq := rfl
      lexemes_eq := by simp
      position := by simp
      reads := hreads
      rest := rfl
      starts := by simp
      plain := fun l hl => not_isBoundary_of_isComment (hcomments l (mem_of_mem_outside hl))
      mark := by simp }
  · exact not_isWhere_of_isComment (hcomments l (mem_of_mem_outside hl))

theorem scanned_boundary {whereEnd : Option ℕ}
    (h : Advances tables text length comments rest) (hcomments : ∀ l ∈ comments, l.isComment = true)
    (hrest : lexemes tables rest = some (keyword :: more))
    (hstarts : ∀ character ∈ rest.head?, isIdentifierStart tables character = true)
    (hkeyword : isBoundary tables keyword = true) :
    Scanned tables 0 whereEnd offset text (comments ++ keyword :: more)
      (whereEnd, offset + length) := by
  obtain ⟨piece, rfl, rfl, hreads⟩ := h
  have hnone : ∀ l ∈ comments, parenthesis l = none :=
    fun l hl => parenthesis_of_isComment (hcomments l hl)
  refine ⟨piece, rest, comments, keyword :: more, ?_, Or.inl ⟨rfl, fun _ l hl => ?_⟩⟩
  · exact {
      text_eq := rfl
      lexemes_eq := rfl
      position := rfl
      reads := hreads
      rest := hrest
      starts := hstarts
      plain := fun l hl => not_isBoundary_of_isComment (hcomments l (mem_of_mem_outside hl))
      mark := fun l hl => by
        cases hl
        exact ⟨hkeyword, depthAfter_of_none hnone⟩ }
  · exact not_isWhere_of_isComment (hcomments l (mem_of_mem_outside hl))

/-- The digits of a number are gone over one by one. -/
theorem outerPositionsLoop_digits {depth fuel : ℕ} {whereEnd : Option ℕ} {rest : List Char}
    (digits : List Char) (hdigits : ∀ c ∈ digits, isDigit tables c = true) (before : List Char) :
    outerPositionsLoop tables (before ++ (digits ++ rest)) (fuel + digits.length) whereEnd depth
        before.length =
      outerPositionsLoop tables (before ++ (digits ++ rest)) fuel whereEnd depth
        (before.length + digits.length) := by
  induction digits generalizing before with
  | nil => rfl
  | cons digit digits ih =>
    have hdigit := hdigits digit mem_cons_self
    obtain ⟨hidentifier, hstart⟩ := isDigit_iff.mp hdigit
    obtain ⟨-, hquote, hcode⟩ := startLexeme_of_isDigit (digits ++ rest) hdigit
    have hopen := ne_of_isIdentifierCharacter '(' hidentifier rfl
    have hclose := ne_of_isIdentifierCharacter ')' hidentifier rfl
    have hrest := ih (fun c hc => hdigits c (mem_cons_of_mem _ hc)) (before ++ [digit])
    rw [append_assoc, length_append] at hrest
    rw [length_cons, ← Nat.add_assoc, outerPositionsLoop, cons_append,
      skipTrivia_of_startsCode hcode]
    dsimp only [bind, Except.bind]
    rw [drop_left]
    dsimp only
    rw [hquote, if_neg (by simp), if_neg hopen, if_neg hclose, hstart, if_pos (by simp)]
    exact hrest.trans (congrArg _ (by simp; omega))

theorem outerPositionsLoop_number {fuel : ℕ} {whereEnd : Option ℕ} {character : Char}
    (hadvances : Advances tables text length comments (character :: rest))
    (hfuel : (rest.takeWhile (isDigit tables)).length ≤ fuel) :
    outerPositionsLoop tables (before ++ text) fuel whereEnd depth (before.length + length + 1) =
      outerPositionsLoop tables (before ++ text) (fuel - (rest.takeWhile (isDigit tables)).length)
        whereEnd depth
        (before.length + length + (1 + (rest.takeWhile (isDigit tables)).length)) := by
  obtain ⟨piece, hsplit, hpiece, -⟩ := hadvances
  have hdigits := @outerPositionsLoop_digits tables depth
    (fuel - (rest.takeWhile (isDigit tables)).length) whereEnd (rest.dropWhile (isDigit tables))
    (rest.takeWhile (isDigit tables)) (fun c hc => mem_takeWhile_imp hc)
    (before ++ piece ++ [character])
  have htext : before ++ text = before ++ piece ++ [character] ++
      (rest.takeWhile (isDigit tables) ++ rest.dropWhile (isDigit tables)) := by
    rw [takeWhile_append_dropWhile, hsplit]
    simp
  have hindex : (before ++ piece ++ [character]).length = before.length + length + 1 := by
    rw [length_append, length_append, hpiece, length_singleton]
  rw [← htext, hindex, Nat.sub_add_cancel hfuel] at hdigits
  rw [hdigits, Nat.add_assoc (before.length + length)]

/-- With this fuel, the loop finds the first keywords of every rest of a text that is so long. -/
def LoopScans (tables : PythonTables) (fuel : ℕ) : Prop :=
  ∀ {before text : List Char} {depth : ℕ} {whereEnd : Option ℕ} {ls : List Lexeme},
    text.length ≤ fuel → lexemes tables text = some ls →
    ∃ positions, outerPositionsLoop tables (before ++ text) fuel whereEnd depth before.length =
        .ok positions ∧
      Scanned tables depth whereEnd before.length text ls positions

theorem plain_of_token {whereEnd : Option ℕ} {token : Lexeme}
    (hcomments : ∀ l ∈ comments, l.isComment = true) (hboundary : isBoundary tables token = false)
    (hwhere : whereEnd = none → isWhere tables token = false) :
    ∀ l ∈ outside parenthesis depth (comments ++ [token]),
      isBoundary tables l = false ∧ (whereEnd = none → isWhere tables l = false) := by
  intro l hl
  rcases mem_append.mp (mem_of_mem_outside hl) with hl | hl
  · exact ⟨not_isBoundary_of_isComment (hcomments l hl),
      fun _ => not_isWhere_of_isComment (hcomments l hl)⟩
  · obtain rfl := mem_singleton.mp hl
    exact ⟨hboundary, hwhere⟩

theorem LoopScans.goOn {fuel length' depth' : ℕ} {whereEnd : Option ℕ}
    {token : Lexeme} {rest' : List Char} (h : LoopScans tables fuel)
    (hls : lexemes tables text = some ls) (hadvances : Advances tables text length comments rest)
    (hcomments : ∀ l ∈ comments, l.isComment = true)
    (hnext : Advances tables rest length' [token] rest') (hfuel : rest'.length ≤ fuel)
    (htoken : depthAt parenthesis depth token = depth')
    (hplain : ∀ l ∈ outside parenthesis depth (comments ++ [token]),
      isBoundary tables l = false ∧ (whereEnd = none → isWhere tables l = false)) :
    ∃ positions, outerPositionsLoop tables (before ++ text) fuel whereEnd depth'
        (before.length + length + length') = .ok positions ∧
      Scanned tables depth whereEnd before.length text ls positions := by
  have hnone : ∀ l ∈ comments, parenthesis l = none :=
    fun l hl => parenthesis_of_isComment (hcomments l hl)
  have hall := hadvances.trans hnext
  obtain ⟨more', hmore', rfl⟩ := hall.exists_lexemes hls
  have hdepth : depthAfter parenthesis depth (comments ++ [token]) = depth' := by
    rw [depthAfter_append, depthAfter_of_none hnone, depthAfter_cons, depthAfter_nil, htoken]
  obtain ⟨piece, hsplit, hlength, hreads⟩ := hall
  obtain ⟨positions, hloop, hscanned⟩ :=
    @h (before ++ piece) rest' depth' whereEnd more' hfuel hmore'
  refine ⟨positions, ?_, ?_⟩
  · rw [hsplit, ← hloop, append_assoc, length_append, hlength, Nat.add_assoc]
  · refine Scanned.advance ⟨piece, hsplit, hlength, hreads⟩ (fun l hl => (hplain l hl).1)
      (fun hunset l hl => (hplain l hl).2 hunset) ?_
    rw [hdepth, ← hlength, ← length_append]
    exact hscanned

theorem LoopScans.found {fuel length' : ℕ} {rest' : List Char} (h : LoopScans tables fuel)
    (hls : lexemes tables text = some ls) (hadvances : Advances tables text length comments rest)
    (hcomments : ∀ l ∈ comments, l.isComment = true)
    (hnext : Advances tables rest length' [keyword] rest') (hfuel : rest'.length ≤ fuel)
    (hkeyword : isWhere tables keyword = true) :
    ∃ positions, outerPositionsLoop tables (before ++ text) fuel
        (some (before.length + length + length')) 0 (before.length + length + length') =
          .ok positions ∧
      Scanned tables 0 none before.length text ls positions := by
  have hall := hadvances.trans hnext
  obtain ⟨more', hmore', rfl⟩ := hall.exists_lexemes hls
  obtain ⟨piece, hsplit, hpiece, hreads⟩ := id hall
  obtain ⟨positions, hloop, hscanned⟩ := @h (before ++ piece) rest' 0
    (some (before ++ piece).length) more' hfuel hmore'
  refine ⟨positions, ?_, ?_⟩
  · rw [hsplit, ← hloop, append_assoc, length_append, hpiece, Nat.add_assoc]
  · rw [length_append, hpiece] at hscanned
    exact Scanned.where_found hall hcomments hkeyword hscanned

/-- The loop stands at a character of code, behind the trivia in front of it. -/
structure AtCode (tables : PythonTables) (text : List Char) (ls : List Lexeme) (length : ℕ)
    (comments : List Lexeme) (character : Char) (rest : List Char) : Prop where
  lexed : lexemes tables text = some ls
  advances : Advances tables text length comments (character :: rest)
  isComment : ∀ l ∈ comments, l.isComment = true
  code : StartsCode (character :: rest)

section AtCode

variable {ls comments : List Lexeme} {character : Char} {fuel : ℕ}
  (h : AtCode tables text ls length comments character rest) (before : List Char)
  (whereEnd : Option ℕ) (hfuel : rest.length ≤ fuel)
include h hfuel

theorem AtCode.goOn (hscans : LoopScans tables fuel) {token : Lexeme} {depth' length' : ℕ}
    {rest' : List Char} (hnext : Advances tables (character :: rest) length' [token] rest')
    (hlength : 1 ≤ length') (htoken : depthAt parenthesis depth token = depth')
    (hboundary : isBoundary tables token = false) (hwhere : isWhere tables token = false) :
    ∃ positions, outerPositionsLoop tables (before ++ text) fuel whereEnd depth'
        (before.length + length + length') = .ok positions ∧
      Scanned tables depth whereEnd before.length text ls positions := by
  have hsum := hnext.length_eq
  rw [length_cons] at hsum
  exact hscans.goOn h.lexed h.advances h.isComment hnext (by omega) htoken
    (plain_of_token h.isComment hboundary fun _ => hwhere)

theorem AtCode.quoted (hscans : LoopScans tables fuel) (hquote : isQuote character = true) :
    ∃ index positions,
      skipQuotedText (before ++ text) (before.length + length) character = .ok index ∧
      outerPositionsLoop tables (before ++ text) fuel whereEnd depth index = .ok positions ∧
      Scanned tables depth whereEnd before.length text ls positions := by
  obtain ⟨more, hmore, -⟩ := h.advances.exists_lexemes h.lexed
  obtain ⟨piece, hsplit, hpiece, -⟩ := id h.advances
  obtain ⟨length', quoted, rest', hskip, hpositive, hnext⟩ :=
    @skipQuotedText_advances tables rest (before ++ piece) character hquote (by rw [hmore]; simp)
  rw [append_assoc, ← hsplit, length_append, hpiece] at hskip
  obtain ⟨positions, hloop, hscanned⟩ :=
    h.goOn before whereEnd hfuel hscans hnext (by omega) rfl rfl rfl
  exact ⟨_, positions, hskip, hloop, hscanned⟩

/-- A character that starts no word: a number is gone over to its end, the rest by itself. -/
theorem AtCode.single (hscans : ∀ fuel' ≤ fuel, LoopScans tables fuel')
    (hquote : isQuote character = false) (hopen : character ≠ '(') (hclose : character ≠ ')')
    (hstart : isIdentifierStart tables character = false) :
    ∃ positions, outerPositionsLoop tables (before ++ text) fuel whereEnd depth
        (before.length + length + 1) = .ok positions ∧
      Scanned tables depth whereEnd before.length text ls positions := by
  cases hidentifier : isIdentifierCharacter tables character with
  | false =>
    have hneutral : depthAt parenthesis depth (.symbol character) = depth := by
      simp [depthAt, parenthesis, hopen, hclose]
    exact h.goOn before whereEnd hfuel (hscans fuel le_rfl)
      (advances_symbol h.code hquote hidentifier) le_rfl hneutral rfl rfl
  | true =>
    have hnumber := @advances_number tables rest character (isDigit_iff.mpr ⟨hidentifier, hstart⟩)
    have hsum := hnumber.length_eq
    rw [length_cons] at hsum
    have hfewer : LoopScans tables (fuel - (rest.takeWhile (isDigit tables)).length) :=
      hscans _ (Nat.sub_le _ _)
    rw [outerPositionsLoop_number h.advances (by omega)]
    exact hfewer.goOn h.lexed h.advances h.isComment hnumber (by omega) rfl
      (plain_of_token h.isComment rfl fun _ => rfl)

/-- A word is the WHERE that is looked for, the keyword of a boundary, or neither. -/
theorem AtCode.word (hscans : LoopScans tables fuel)
    (hstart : isIdentifierStart tables character = true) {stop : ℕ}
    (hstop : stop = before.length + length + 1 +
      (rest.takeWhile (isIdentifierCharacter tables)).length) {name : String} (hname : name =
      pythonUpper tables (character :: rest.takeWhile (isIdentifierCharacter tables))) :
    ∃ positions,
      (if depth = 0 ∧ name = "WHERE" ∧ whereEnd = none then
        outerPositionsLoop tables (before ++ text) fuel (some stop) depth stop
      else if depth = 0 ∧ name ∈ predicateBoundaryKeywords then
        .ok (whereEnd, before.length + length)
      else outerPositionsLoop tables (before ++ text) fuel whereEnd depth stop) = .ok positions ∧
      Scanned tables depth whereEnd before.length text ls positions := by
  have hword := @advances_word tables rest character hstart
  have hsum := hword.length_eq
  rw [length_cons] at hsum
  rw [hstop, show before.length + length + 1 +
    (rest.takeWhile (isIdentifierCharacter tables)).length = before.length + length +
      (1 + (rest.takeWhile (isIdentifierCharacter tables)).length) by omega]
  split_ifs with hwhere hboundary
  · obtain ⟨rfl, hupper, rfl⟩ := hwhere
    exact hscans.found h.lexed h.advances h.isComment hword (by omega)
      (by simpa [isWhere, hname] using hupper)
  · obtain ⟨rfl, hupper⟩ := hboundary
    obtain ⟨more, hmore, rfl⟩ := h.advances.exists_lexemes h.lexed
    obtain ⟨more', -, rfl⟩ := hword.exists_lexemes hmore
    refine ⟨_, rfl, ?_⟩
    exact scanned_boundary h.advances h.isComment hmore (by simpa using hstart)
      (by simpa [isBoundary, hname] using hupper)
  · apply hscans.goOn h.lexed h.advances h.isComment hword (by omega) rfl
    by_cases hdepth : depth = 0
    · apply plain_of_token h.isComment
      · simpa [isBoundary, hdepth, hname] using hboundary
      · intro hunset
        simpa [isWhere, hdepth, hunset, hname] using hwhere
    · intro l hl
      rw [outside_of_none _ hdepth] at hl
      · exact absurd hl not_mem_nil
      · intro l hl
        rcases mem_append.mp hl with hl | hl
        · exact parenthesis_of_isComment (h.isComment l hl)
        · exact mem_singleton.mp hl ▸ rfl

end AtCode

theorem outerPositionsLoop_scanned (fuel : ℕ) : LoopScans tables fuel := by
  induction fuel using Nat.strong_induction_on with
  | _ fuel ih =>
    intro before text depth whereEnd ls hfuel hls
    cases fuel with
    | zero =>
      obtain rfl := eq_nil_of_length_eq_zero (Nat.le_zero.mp hfuel)
      obtain rfl : [] = ls := Option.some.inj hls
      refine ⟨_, rfl, ?_⟩
      simpa using scanned_end Advances.refl (by simp)
    | succ fuel =>
      obtain ⟨length, comments, rest, htrivia, hadvances, hcomments, hcode⟩ :=
        @skipTrivia_advances tables _ before (by rw [hls]; simp)
      have hdrop : (before ++ text).drop (before.length + length) = rest := by
        obtain ⟨piece, rfl, rfl, -⟩ := hadvances
        simp
      rw [outerPositionsLoop, htrivia]
      dsimp only [bind, Except.bind]
      rw [hdrop]
      cases rest with
      | nil =>
        obtain ⟨more, hmore, rfl⟩ := hadvances.exists_lexemes hls
        obtain rfl : [] = more := Option.some.inj hmore
        refine ⟨_, rfl, ?_⟩
        rw [append_nil, length_append]
        exact scanned_end hadvances hcomments
      | cons character rest =>
        have hat : AtCode tables text ls length comments character rest :=
          ⟨hls, hadvances, hcomments, hcode⟩
        have hscans : ∀ fuel' ≤ fuel, LoopScans tables fuel' :=
          fun fuel' hle => ih fuel' (Nat.lt_succ_of_le hle)
        have hshort : rest.length ≤ fuel := by
          have hsum := hadvances.length_eq
          rw [length_cons] at hsum
          omega
        dsimp only
        by_cases hquote : isQuote character = true
        · obtain ⟨index, positions, hskip, hloop, hscanned⟩ :=
            hat.quoted before whereEnd hshort (hscans fuel le_rfl) hquote
          rw [if_pos hquote, hskip]
          exact ⟨positions, hloop, hscanned⟩
        rw [if_neg hquote]
        by_cases hopen : character = '('
        · subst hopen
          exact hat.goOn before whereEnd hshort (hscans fuel le_rfl) (advances_character rfl) le_rfl
            rfl rfl rfl
        rw [if_neg hopen]
        by_cases hclose : character = ')'
        · subst hclose
          exact hat.goOn before whereEnd hshort (hscans fuel le_rfl) (advances_character rfl) le_rfl
            rfl rfl rfl
        rw [if_neg hclose]
        cases hstart : isIdentifierStart tables character with
        | false =>
          exact hat.single before whereEnd hshort hscans (Bool.eq_false_of_not_eq_true hquote) hopen
            hclose hstart
        | true => exact hat.word before whereEnd hshort (hscans fuel le_rfl) hstart rfl rfl

/-- The positions are those of the first keywords. -/
theorem outerPredicatePositions_scanned {template : List Char}
    (hls : lexemes tables template = some ls) :
    ∃ positions, outerPredicatePositions tables template = .ok positions ∧
      Scanned tables 0 none 0 template ls positions :=
  @outerPositionsLoop_scanned tables template.length [] template 0 none ls le_rfl hls

end SqlTide.SqlText
