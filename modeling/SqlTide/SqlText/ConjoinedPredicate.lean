import SqlTide.SqlText.PredicateInsertion

/-!
# Conjoined predicates

The tokens of a template come back with the predicate conjoined just where the scan stops at the
WHERE of the outer SELECT and at the clause behind its condition, and this condition does not end
with a line comment.
-/

namespace SqlTide.SqlText

open Foundations List

section
variable {tables : PythonTables} {text rest before after : List Char} {ls : List Lexeme}

theorem Reads.lexemes_text (h : Reads tables before ls after) :
    lexemes tables before = some ls := by
  rw [lexemes, if_pos h.2.1, h.1]

theorem eq_nil_of_reads {more : List Char} (h : Reads tables before ls (text ++ rest))
    (h' : Reads tables (before ++ text) ls more)
    (hstarts : ∀ c ∈ (text ++ rest).head?, isIdentifierStart tables c = true) : text = [] := by
  cases text with
  | nil => rfl
  | cons c text =>
    have hreads : Reads tables before ls (c :: text) := ⟨h.1, h.2.1, h.2.2⟩
    have happend := hreads.lexemes_append
    rw [h'.lexemes_text] at happend
    obtain ⟨more, hmore, hsame⟩ := Option.map_eq_some_iff.mp happend.symm
    have hstart : isIdentifierStart tables c = true := hstarts c rfl
    obtain ⟨others, -, hword⟩ := (advances_word hstart).exists_lexemes hmore
    rw [hword, append_right_eq_self] at hsame
    cases hsame

/-- A text is cut in one way only before a word. -/
theorem after_unique {before' after' : List Char} (htext : before ++ after = before' ++ after')
    (h : Reads tables before ls after) (h' : Reads tables before' ls after')
    (hstarts : ∀ c ∈ after.head?, isIdentifierStart tables c = true)
    (hstarts' : ∀ c ∈ after'.head?, isIdentifierStart tables c = true) : after = after' := by
  rcases append_eq_append_iff.mp htext with ⟨text, rfl, rfl⟩ | ⟨text, rfl, rfl⟩
  · rw [eq_nil_of_reads h h' hstarts, nil_append]
  · rw [eq_nil_of_reads h' h hstarts', nil_append]

theorem BoundaryAt.depth_eq {template : List Char} {all lsBefore lsAfter : List Lexeme}
    {boundary : ℕ} (h : BoundaryAt tables 0 0 template all boundary before after lsBefore lsAfter)
    (hbalanced : depthAfter parenthesis 0 all = 0) : depthAfter parenthesis 0 lsBefore = 0 := by
  cases lsAfter with
  | nil =>
    have hall := h.lexemes_eq
    rw [append_nil] at hall
    rw [← hall]
    exact hbalanced
  | cons l lsAfter => exact (h.mark l rfl).2

theorem codeTokens_cons_of_isBoundary {l : Lexeme} (h : isBoundary tables l = true)
    (more : List Lexeme) : codeTokens (l :: more) = l :: codeTokens more := by
  cases l <;> first | rfl | cases h

theorem codeTokens_cons_of_isWhere {l : Lexeme} (h : isWhere tables l = true) (more : List Lexeme) :
    codeTokens (l :: more) = l :: codeTokens more := by
  cases l <;> first | rfl | cases h

theorem codeTokens_cons_of_startsClause {l : Lexeme} (h : startsClause tables l = true)
    (more : List Lexeme) : codeTokens (l :: more) = l :: codeTokens more := by
  cases l <;> first | rfl | cases h

end

section
variable {tables : PythonTables} {outer : OuterSelect tables} {predicate : ClosedPredicate tables}

theorem balanced_clause (clause : WhereClause tables) :
    Balanced parenthesis (clause.keyword :: clause.condition) := by
  have hkeyword : Balanced parenthesis [clause.keyword] :=
    balanced_of_none (by simpa using parenthesis_of_isWhere clause.isWhere)
  exact hkeyword.append clause.balanced

theorem balanced_whereLexemes (outer : OuterSelect tables) :
    Balanced parenthesis (outer.select ++ whereLexemes tables outer.whereClause) := by
  refine outer.balanced.append ?_
  cases outer.whereClause with
  | none => rfl
  | some clause => exact balanced_clause clause

theorem depthAfter_template (outer : OuterSelect tables) :
    depthAfter parenthesis 0
      (outer.select ++ whereLexemes tables outer.whereClause ++ outer.following) = 0 :=
  ((balanced_whereLexemes outer).append outer.following_balanced).depthAfter_eq

variable {boundary : ℕ} {before after : List Char} {lsBefore lsAfter rest condition : List Lexeme}
  {l : Lexeme}

variable {first lsHead front : List Lexeme} {position : ℕ} {head segment : List Char}
  {keyword : Lexeme} {clause : WhereClause tables}

/-- The scan stops at the first clause that it looks for. -/
theorem boundary_eq (h : BoundaryAt tables 0 0 outer.template
      (outer.select ++ whereLexemes tables outer.whereClause ++ outer.following) boundary
        before after
      lsBefore lsAfter) (hsplit : outer.select ++ whereLexemes tables outer.whereClause ++
    outer.following = first ++ rest)
    (hplain : ∀ l ∈ outside parenthesis 0 first, isBoundary tables l = false)
    (hdepth : depthAfter parenthesis 0 first = 0)
    (hrest : ∀ l ∈ rest.head?, isBoundary tables l = true) : lsBefore = first ∧ lsAfter = rest := by
  have hmark : ∀ l, isBoundary tables l = true → parenthesis l = none :=
    fun l hl => parenthesis_of_isBoundary hl
  exact cut_unique (h.lexemes_eq.symm.trans hsplit) hmark (fun l hl => by simp [h.plain l hl])
    (fun l hl => by simp [hplain l hl]) (h.depth_eq (depthAfter_template outer)) hdepth
    (fun l hl => (h.mark l hl).1) hrest

theorem where_eq {keyword' : Lexeme}
    (h : WhereAt tables 0 0 before after lsBefore position head segment lsHead keyword condition)
    (hsplit : lsBefore = first ++ keyword' :: rest) (hkeyword : isWhere tables keyword' = true)
    (hplain : ∀ l ∈ outside parenthesis 0 first, isWhere tables l = false)
    (hdepth : depthAfter parenthesis 0 first = 0) :
    lsHead = first ∧ keyword = keyword' ∧ condition = rest := by
  have hparenthesis : ∀ l, isWhere tables l = true → parenthesis l = none :=
    fun l hl => parenthesis_of_isWhere hl
  have hcut := cut_unique (h.lexemes_eq.symm.trans hsplit) hparenthesis
    (fun l hl => by simp [h.plain l hl]) (fun l hl => by simp [hplain l hl]) h.depth_eq hdepth
    (by simpa using h.found) (by simpa using hkeyword)
  obtain ⟨hhead, htail⟩ := hcut
  obtain ⟨hword, hcondition⟩ := List.cons.inj htail
  exact ⟨hhead, hword, hcondition⟩

/-- Up to a place in the condition, the template has a WHERE and no other keyword. -/
theorem where_within (hselect : PlainSelect outer) {clause : WhereClause tables}
    {front : List Lexeme}
    (hfront : ∀ l ∈ outside parenthesis 0 front, isBoundary tables l = false) :
    (∀ l ∈ outside parenthesis 0 (outer.select ++ clause.keyword :: front),
      isBoundary tables l = false) ∧
    clause.keyword ∈ outside parenthesis 0 (outer.select ++ clause.keyword :: front) := by
  have hdepth := outer.balanced.depthAfter_eq
  have hparenthesis := parenthesis_of_isWhere clause.isWhere
  refine ⟨?_, mem_outside_append_cons hdepth hparenthesis⟩
  intro l hl
  rw [outside_append, hdepth, outside, if_pos ⟨rfl, hparenthesis⟩, depthAt, hparenthesis] at hl
  rcases mem_append.mp hl with hl | hl
  · exact (hselect l hl).1
  · rcases mem_cons.mp hl with rfl | hl
    · exact not_isBoundary_of_isWhere clause.isWhere
    · exact hfront l hl

theorem depthAfter_within (hfront : depthAfter parenthesis 0 front = 0) :
    depthAfter parenthesis 0 (outer.select ++ clause.keyword :: front) = 0 := by
  rw [depthAfter_append, outer.balanced.depthAfter_eq, depthAfter_cons, depthAt,
    parenthesis_of_isWhere clause.isWhere]
  exact hfront

/-- The result, where the scan stops at a place in the condition or at its end. -/
theorem outcome_within (hselect : PlainSelect outer) (hwhere : outer.whereClause = some clause)
    {back : List Lexeme} {result : List Char} (hcondition : clause.condition = front ++ back)
    (hfront : ∀ l ∈ outside parenthesis 0 front, isBoundary tables l = false)
    (hdepth : depthAfter parenthesis 0 front = 0)
    (hback : ∀ l ∈ (back ++ outer.following).head?, isBoundary tables l = true)
    (houtcome : Outcome tables outer.template (outer.select ++
      whereLexemes tables outer.whereClause ++ outer.following) predicate result) :
    ((∀ l ∈ front.getLast?, l.isLineComment = false) ∧
      lexemes tables result = some (outer.select ++ (clause.keyword :: .symbol '(' :: (front ++
        ([.symbol ')', andWord, .symbol '('] ++ (predicate.lexemes ++ .symbol ')' ::
          (back ++ outer.following))))))) ∨
    ∃ boundary before after first comment comment',
      BoundaryAt tables 0 0 outer.template (outer.select ++ whereLexemes tables outer.whereClause ++
        outer.following) boundary before after (outer.select ++ clause.keyword :: front)
        (back ++ outer.following) ∧
      front = first ++ [.lineComment comment] ∧
      lexemes tables result = (lexemes tables
        (afterLine (behindCondition predicate.text after))).map fun more =>
          outer.select ++ (clause.keyword :: .symbol '(' ::
            (first ++ .lineComment comment' :: more)) := by
  obtain ⟨hplain, hmem⟩ := @where_within tables outer hselect clause front hfront
  have hsplit : outer.select ++ whereLexemes tables outer.whereClause ++ outer.following =
      (outer.select ++ clause.keyword :: front) ++ (back ++ outer.following) := by
    rw [hwhere, whereLexemes, hcondition]
    simp
  have hboundary : ∀ {boundary : ℕ} {before after : List Char} {lsBefore lsAfter : List Lexeme},
      BoundaryAt tables 0 0 outer.template (outer.select ++
        whereLexemes tables outer.whereClause ++ outer.following) boundary before after lsBefore
        lsAfter →
      lsBefore = outer.select ++ clause.keyword :: front ∧ lsAfter = back ++ outer.following :=
    fun h => boundary_eq h hsplit hplain (depthAfter_within hdepth) hback
  cases houtcome with
  | added boundary before after lsBefore lsAfter hat hnone =>
    obtain ⟨rfl, rfl⟩ := hboundary hat
    have hfound := clause.isWhere
    rw [hnone clause.keyword hmem] at hfound
    cases hfound
  | conjoined boundary position before after head segment lsBefore lsAfter lsHead keyword condition
      hat hwhereAt hlast hread =>
    obtain ⟨rfl, rfl⟩ := hboundary hat
    obtain ⟨rfl, rfl, rfl⟩ := where_eq hwhereAt rfl clause.isWhere (fun l hl => (hselect l hl).2)
      outer.balanced.depthAfter_eq
    exact .inl ⟨hlast, hread⟩
  | takenIn boundary position before after head segment lsBefore lsAfter lsHead keyword condition
      hat hwhereAt first comment comment' hlast hread =>
    obtain ⟨rfl, rfl⟩ := hboundary hat
    obtain ⟨rfl, rfl, rfl⟩ := where_eq hwhereAt rfl clause.isWhere (fun l hl => (hselect l hl).2)
      outer.balanced.depthAfter_eq
    exact .inr ⟨boundary, before, after, first, comment, comment', hat, hlast, hread⟩

theorem preserves_of_keeps (hselect : PlainSelect outer) (hkeeps : Keeps outer predicate) :
    PreservesTemplate outer predicate := by
  obtain ⟨result, hresult, houtcome⟩ := exists_outcome outer.reads predicate
  have hdepth := outer.balanced.depthAfter_eq
  cases hkeeps with
  | added hwhere hfollowing =>
    have hsplit : outer.select ++ whereLexemes tables outer.whereClause ++ outer.following =
        outer.select ++ outer.following := by
      rw [hwhere, whereLexemes, append_nil]
    have hboundary : ∀ {boundary : ℕ} {before after : List Char} {lsBefore lsAfter : List Lexeme},
        BoundaryAt tables 0 0 outer.template (outer.select ++
          whereLexemes tables outer.whereClause ++ outer.following) boundary before after lsBefore
          lsAfter → lsBefore = outer.select ∧ lsAfter = outer.following :=
      fun h => boundary_eq h hsplit (fun l hl => (hselect l hl).1) hdepth hfollowing
    have hnone : ∀ {position : ℕ} {before after head segment : List Char}
        {lsHead condition : List Lexeme} {keyword : Lexeme},
        ¬ WhereAt tables 0 0 before after outer.select position head segment lsHead keyword
          condition := by
      intro position before after head segment lsHead condition keyword h
      have hmem : keyword ∈ outside parenthesis 0 outer.select := by
        rw [h.lexemes_eq]
        exact mem_outside_append_cons h.depth_eq (parenthesis_of_isWhere h.found)
      have hfound := h.found
      rw [(hselect keyword hmem).2] at hfound
      cases hfound
    cases houtcome with
    | added boundary before after lsBefore lsAfter hat hplain hread =>
      obtain ⟨rfl, rfl⟩ := hboundary hat
      refine ⟨result, _, hresult, hread, ?_⟩
      simp [OuterSelect.conjoined, hwhere]
    | conjoined boundary position before after head segment lsBefore lsAfter lsHead keyword
      condition
        hat hwhereAt =>
      obtain ⟨rfl, rfl⟩ := hboundary hat
      exact absurd hwhereAt hnone
    | takenIn boundary position before after head segment lsBefore lsAfter lsHead keyword condition
        hat hwhereAt =>
      obtain ⟨rfl, rfl⟩ := hboundary hat
      exact absurd hwhereAt hnone
  | conjoined clause hwhere hcondition hlast hfollowing =>
    rcases outcome_within hselect hwhere (append_nil _).symm hcondition
      clause.balanced.depthAfter_eq (by simpa using hfollowing) houtcome with ⟨-, hread⟩ |
      ⟨_, _, _, _, comment, _, -, hcomment, -⟩
    · refine ⟨result, _, hresult, hread, ?_⟩
      simp [OuterSelect.conjoined, hwhere, codeTokens_cons_of_isWhere clause.isWhere]
    · have hlast := hlast (.lineComment comment) (by rw [hcomment]; simp)
      cases hlast
  | resumed clause hwhere front back comment before after hcondition hfront hdepthFront hback htext
      hreads hstarts hresumed =>
    have hline : ∀ l ∈ outside parenthesis 0 (front ++ [.lineComment comment]),
        isBoundary tables l = false := by
      intro l hl
      rw [outside_append] at hl
      rcases mem_append.mp hl with hl | hl
      · exact hfront l hl
      · obtain rfl := mem_singleton.mp (mem_of_mem_outside hl)
        rfl
    have hdepthLine : depthAfter parenthesis 0 (front ++ [.lineComment comment]) = 0 := by
      rw [depthAfter_append, hdepthFront]
      rfl
    rcases outcome_within hselect hwhere hcondition hline hdepthLine hback houtcome with
      ⟨hlast, -⟩ | ⟨boundary, before', after', first, comment', comment'', hat, hcomment, hread⟩
    · have hlast := hlast (.lineComment comment) (by simp)
      cases hlast
    · have hafter : after = after' :=
        after_unique (htext.symm.trans hat.text_eq) hreads hat.reads hstarts hat.starts
      subst hafter
      obtain ⟨more, hmore, htokens⟩ := Option.map_eq_some_iff.mp hresumed
      rw [hmore] at hread
      refine ⟨result, _, hresult, hread, ?_⟩
      have hfirst : codeTokens first = codeTokens front := by
        have hsame := congrArg codeTokens hcomment
        simpa using hsame.symm
      simp [OuterSelect.conjoined, hwhere, codeTokens_cons_of_isWhere clause.isWhere, hcondition,
        hfirst, htokens]

variable (tables) in
theorem isWhere_whereWord : isWhere tables whereWord = true := by
  have hword : "WHERE".toList = ['W', 'H', 'E', 'R', 'E'] := rfl
  have hupper : pythonUpper tables "WHERE".toList = "WHERE" := by
    rw [pythonUpper, hword]
    simp only [flatMap_cons, flatMap_nil, tables.toUppercase_ascii 'W' (by decide),
      tables.toUppercase_ascii 'H' (by decide), tables.toUppercase_ascii 'E' (by decide),
      tables.toUppercase_ascii 'R' (by decide)]
    decide
  exact decide_eq_true hupper

theorem not_isWhere_of_startsClause (h : startsClause tables l = true) :
    isWhere tables l = false := by
  cases l with
  | word text => simpa [startsClause, isWhere] using h
  | _ => rfl

theorem ne_whereWord_of_isBoundary (h : isBoundary tables l = true) : l ≠ whereWord := by
  rintro rfl
  rw [not_isBoundary_of_isWhere (isWhere_whereWord tables)] at h
  cases h

theorem ne_whereWord_of_startsClause (h : startsClause tables l = true) : l ≠ whereWord := by
  rintro rfl
  have hnot := not_isWhere_of_startsClause h
  rw [isWhere_whereWord] at hnot
  cases hnot

/-- A WHERE before the one of the template is followed by a parenthesis in the result alone. -/
theorem not_earlier {selected xs ys : List Lexeme} {d : Lexeme}
    (hsplit : selected ++ rest = condition ++ lsAfter)
    (hmark : ∀ l ∈ lsAfter.head?, isBoundary tables l = true) (hd : d ≠ .symbol '(')
    (htokens : .symbol '(' :: (codeTokens condition ++ xs) = codeTokens selected ++
    d :: ys) : False := by
  rcases append_eq_append_iff.mp hsplit with ⟨more, rfl, rfl⟩ | ⟨more, rfl, rfl⟩
  · rw [codeTokens_append, append_assoc] at htokens
    exact hd (eq_of_shift htokens).symm
  · cases more with
    | nil =>
      rw [append_nil] at htokens
      exact hd (eq_of_shift htokens).symm
    | cons k more =>
      have hk : isBoundary tables k = true := hmark k rfl
      rw [codeTokens_append, codeTokens_cons_of_isBoundary hk, append_assoc] at htokens
      rw [← eq_of_shift htokens] at hk
      cases hk

section FoundWhere

variable {boundary position : ℕ} {before after head segment : List Char}
  {lsBefore lsAfter lsHead condition xs : List Lexeme} {keyword : Lexeme}

/-- Where the scan has found the WHERE of the template, its condition ends where the scan says or
goes on in what the scan leaves behind. -/
theorem condition_of_tokens {clause : WhereClause tables}
    (hsplit : condition ++ lsAfter = clause.condition ++ outer.following)
    (htokens : codeTokens condition ++ xs = codeTokens clause.condition ++ .symbol ')' ::
      andWord :: .symbol '(' :: (codeTokens predicate.lexemes ++ .symbol ')' ::
        codeTokens outer.following)) :
    ∃ back, clause.condition = condition ++ back ∧ lsAfter = back ++ outer.following ∧
      xs = codeTokens back ++ .symbol ')' :: andWord :: .symbol '(' ::
        (codeTokens predicate.lexemes ++ .symbol ')' :: codeTokens outer.following) := by
  rcases append_eq_append_iff.mp hsplit with ⟨more, hcondition, hfollowing⟩ |
    ⟨more, hcondition, hfollowing⟩
  · refine ⟨more, hcondition, hfollowing, ?_⟩
    rw [hcondition, codeTokens_append, append_assoc, append_cancel_left_eq] at htokens
    exact htokens
  · cases more with
    | nil =>
      rw [append_nil] at hcondition
      refine ⟨[], by simp [hcondition], hfollowing.symm, ?_⟩
      rw [hcondition, append_cancel_left_eq] at htokens
      exact htokens
    | cons l more =>
      have hl : startsClause tables l = true := outer.starts l (by rw [hfollowing]; rfl)
      rw [hcondition, codeTokens_append, append_assoc, append_cancel_left_eq,
        codeTokens_cons_of_startsClause hl] at htokens
      rw [(List.cons.inj htokens).1] at hl
      cases hl

variable
  (hat : BoundaryAt tables 0 0 outer.template
    (outer.select ++ whereLexemes tables outer.whereClause ++ outer.following) boundary before after
      lsBefore lsAfter)
  (hwhereAt : WhereAt tables 0 0 before after lsBefore position head segment lsHead keyword
    condition)
  (htokens : codeTokens lsHead ++ keyword :: .symbol '(' :: (codeTokens condition ++ xs) =
    outer.conjoined predicate)

include hat hwhereAt htokens

/-- With no WHERE in the template none has been found. -/
theorem whereClause_ne_none : outer.whereClause ≠ none := by
  intro hwhere
  have hall := hat.lexemes_eq
  simp only [hwhereAt.lexemes_eq, hwhere, whereLexemes, append_nil, append_assoc,
    cons_append] at hall
  simp only [OuterSelect.conjoined, hwhere, append_assoc, cons_append] at htokens
  have hstart : keyword ∉ outer.following.head? := by
    intro hmem
    have hfound := hwhereAt.found
    rw [not_isWhere_of_startsClause (outer.starts keyword hmem)] at hfound
    cases hfound
  rcases append_eq_append_iff.mp hall with ⟨more, rfl, hfollowing⟩ | ⟨more, hselect, hrest⟩
  · cases more with
    | nil =>
      rw [hfollowing] at hstart
      exact hstart rfl
    | cons l more =>
      have hl : startsClause tables l = true := outer.starts l (by rw [hfollowing]; rfl)
      rw [codeTokens_append, codeTokens_cons_of_startsClause hl, append_assoc,
        append_cancel_left_eq] at htokens
      exact ne_whereWord_of_startsClause hl (List.cons.inj htokens).1
  · cases more with
    | nil =>
      rw [nil_append] at hrest
      rw [← hrest] at hstart
      exact hstart rfl
    | cons l more =>
      obtain ⟨hword, hsplit⟩ := List.cons.inj hrest
      subst hword
      rw [hselect, codeTokens_append, codeTokens_cons_of_isWhere hwhereAt.found,
        append_assoc, append_cancel_left_eq] at htokens
      exact not_earlier hsplit.symm (fun l hl => (hat.mark l hl).1) (by simp [whereWord])
        (List.cons.inj htokens).2

/-- Where the result has the tokens of the template with the predicate conjoined, the scan has found
the WHERE of the template. -/
theorem where_of_tokens :
    ∃ clause back, outer.whereClause = some clause ∧ lsHead = outer.select ∧
      keyword = clause.keyword ∧ clause.condition = condition ++ back ∧
      lsAfter = back ++ outer.following ∧
      xs = codeTokens back ++ .symbol ')' :: andWord :: .symbol '(' ::
        (codeTokens predicate.lexemes ++ .symbol ')' :: codeTokens outer.following) := by
  obtain ⟨clause, hwhere⟩ :=
    Option.ne_none_iff_exists'.mp (whereClause_ne_none hat hwhereAt htokens)
  have hall := hat.lexemes_eq
  simp only [hwhereAt.lexemes_eq, hwhere, whereLexemes, append_assoc, cons_append] at hall
  simp only [OuterSelect.conjoined, hwhere, append_assoc, cons_append] at htokens
  have hplace : lsHead = outer.select ∧ keyword = clause.keyword ∧
      condition ++ lsAfter = clause.condition ++ outer.following := by
    rcases append_eq_append_iff.mp hall with ⟨more, hhead, hrest⟩ | ⟨more, hselect, hrest⟩
    · cases more with
      | nil =>
        obtain ⟨hword, hsplit⟩ := List.cons.inj hrest
        exact ⟨by simpa using hhead, hword.symm, hsplit.symm⟩
      | cons l more =>
        -- the scan has gone past the WHERE of the template
        obtain ⟨hword, -⟩ := List.cons.inj hrest
        have hmem : clause.keyword ∈ outside parenthesis 0 lsHead := by
          rw [hhead, hword]
          exact mem_outside_append_cons outer.balanced.depthAfter_eq
            (hword ▸ parenthesis_of_isWhere clause.isWhere)
        have hfound := clause.isWhere
        rw [hwhereAt.plain _ hmem] at hfound
        cases hfound
    · cases more with
      | nil =>
        obtain ⟨hword, hsplit⟩ := List.cons.inj hrest
        exact ⟨by simpa using hselect.symm, hword, hsplit⟩
      | cons l more =>
        -- the scan has found a WHERE before the one of the template
        exfalso
        obtain ⟨hword, hsplit⟩ := List.cons.inj hrest
        subst hword
        rw [hselect, codeTokens_append, codeTokens_cons_of_isWhere hwhereAt.found,
          append_assoc, append_cancel_left_eq] at htokens
        refine not_earlier hsplit.symm (fun l hl => (hat.mark l hl).1) ?_ (List.cons.inj htokens).2
        intro hword
        have hfound := clause.isWhere
        rw [hword] at hfound
        cases hfound
  obtain ⟨hhead, hword, hsplit⟩ := hplace
  rw [hhead, append_cancel_left_eq] at htokens
  obtain ⟨back, hcondition, hafter, hxs⟩ := condition_of_tokens hsplit
    (List.cons.inj (List.cons.inj htokens).2).2
  exact ⟨clause, back, hwhere, hhead, hword, hcondition, hafter, hxs⟩

end FoundWhere

/-- Where a clause has been added, the template has none. -/
theorem keeps_of_added (hat : BoundaryAt tables 0 0 outer.template
      (outer.select ++ whereLexemes tables outer.whereClause ++ outer.following) boundary
        before after
      lsBefore lsAfter) (hplain : ∀ l ∈ outside parenthesis 0 lsBefore, isWhere tables l = false)
    (htokens : codeTokens lsBefore ++ (whereWord :: .symbol '(' :: (codeTokens predicate.lexemes ++
      .symbol ')' :: codeTokens lsAfter)) = outer.conjoined predicate) :
    PlainSelect outer ∧ Keeps outer predicate := by
  have hall := hat.lexemes_eq
  have hmark := fun l hl => (hat.mark l hl).1
  -- another keyword than WHERE at the place where the clause has been added
  have hother : ∀ {l : Lexeme} {more : List Lexeme}, isBoundary tables l = true →
      outer.select ≠ lsBefore ++ l :: more := by
    intro l more hl hselect
    rw [OuterSelect.conjoined, hselect, codeTokens_append, codeTokens_cons_of_isBoundary hl,
      append_assoc, append_assoc, append_cancel_left_eq] at htokens
    exact ne_whereWord_of_isBoundary hl (List.cons.inj htokens).1.symm
  cases hwhere : outer.whereClause with
  | none =>
    simp only [hwhere, whereLexemes, append_nil] at hall
    rcases append_eq_append_iff.mp hall with ⟨more, hbefore, hfollowing⟩ | ⟨more, hselect, hafter⟩
    · cases more with
      | nil =>
        rw [append_nil] at hbefore
        rw [nil_append] at hfollowing
        refine ⟨fun l hl => ?_, .added hwhere (by rwa [hfollowing])⟩
        rw [← hbefore] at hl
        exact ⟨hat.plain l hl, hplain l hl⟩
      | cons l more =>
        exfalso
        have hl : startsClause tables l = true := outer.starts l (by rw [hfollowing]; rfl)
        simp only [OuterSelect.conjoined, hwhere, append_assoc, cons_append] at htokens
        rw [hbefore, codeTokens_append, codeTokens_cons_of_startsClause hl, append_assoc,
          append_cancel_left_eq] at htokens
        exact ne_whereWord_of_startsClause hl (List.cons.inj htokens).1
    · cases more with
      | nil =>
        rw [append_nil] at hselect
        rw [nil_append] at hafter
        refine ⟨fun l hl => ?_, .added hwhere (by rwa [← hafter])⟩
        rw [hselect] at hl
        exact ⟨hat.plain l hl, hplain l hl⟩
      | cons l more => exact absurd hselect (hother (hmark l (by rw [hafter]; rfl)))
  | some clause =>
    exfalso
    simp only [hwhere, whereLexemes, append_assoc, cons_append] at hall
    have hword : isBoundary tables clause.keyword = false :=
      not_isBoundary_of_isWhere clause.isWhere
    rcases append_eq_append_iff.mp hall with ⟨more, hbefore, hrest⟩ | ⟨more, hselect, hafter⟩
    · cases more with
      | nil =>
        have hkeyword := hmark clause.keyword (by rw [nil_append] at hrest; rw [← hrest]; rfl)
        rw [hword] at hkeyword
        cases hkeyword
      | cons l more =>
        obtain ⟨rfl, -⟩ := List.cons.inj hrest
        have hmem : clause.keyword ∈ outside parenthesis 0 lsBefore := by
          rw [hbefore]
          exact mem_outside_append_cons outer.balanced.depthAfter_eq
            (parenthesis_of_isWhere clause.isWhere)
        have hfound := clause.isWhere
        rw [hplain _ hmem] at hfound
        cases hfound
    · cases more with
      | nil =>
        have hkeyword := hmark clause.keyword (by rw [hafter]; rfl)
        rw [hword] at hkeyword
        cases hkeyword
      | cons l more => exact hother (hmark l (by rw [hafter]; rfl)) hselect

/-- Up to the end of the condition that the scan has found there is no other keyword. -/
theorem plain_of_where {template : List Char} {all : List Lexeme}
    (hat : BoundaryAt tables 0 0 template all boundary before after lsBefore lsAfter)
    (hwhereAt : WhereAt tables 0 0 before after lsBefore position head segment lsHead keyword
      condition) :
    (∀ l ∈ outside parenthesis 0 lsHead, isBoundary tables l = false ∧ isWhere tables l = false) ∧
      ∀ l ∈ outside parenthesis 0 condition, isBoundary tables l = false := by
  have hsplit : lsBefore = (lsHead ++ [keyword]) ++ condition := by
    rw [hwhereAt.lexemes_eq]
    simp
  have hdepth : depthAfter parenthesis 0 (lsHead ++ [keyword]) = 0 := by
    rw [depthAfter_append, hwhereAt.depth_eq, depthAfter_cons, depthAt,
      parenthesis_of_isWhere hwhereAt.found]
    rfl
  constructor
  · intro l hl
    refine ⟨hat.plain l ?_, hwhereAt.plain l hl⟩
    rw [hsplit]
    exact mem_outside_left (mem_outside_left hl)
  · intro l hl
    apply hat.plain l
    rw [hsplit]
    exact mem_outside_right hdepth hl

theorem keeps_of_preserves (h : PreservesTemplate outer predicate) :
    PlainSelect outer ∧ Keeps outer predicate := by
  obtain ⟨result, ls, hresult, hread, htokens⟩ := h
  obtain ⟨result', hresult', houtcome⟩ := exists_outcome outer.reads predicate
  obtain rfl := Except.ok.inj (hresult.symm.trans hresult')
  cases houtcome with
  | added boundary before after lsBefore lsAfter hat hplain hread' =>
    obtain rfl := Option.some.inj (hread.symm.trans hread')
    exact keeps_of_added hat hplain (by simpa using htokens)
  | conjoined boundary position before after head segment lsBefore lsAfter lsHead keyword condition
      hat hwhereAt hlast hread' =>
    obtain rfl := Option.some.inj (hread.symm.trans hread')
    obtain ⟨hselect, hcondition⟩ := plain_of_where hat hwhereAt
    rw [codeTokens_append, codeTokens_cons_of_isWhere hwhereAt.found, codeTokens_symbol,
      codeTokens_append]
      at htokens
    obtain ⟨clause, back, hwhere, rfl, rfl, hclause, hafter, hxs⟩ :=
      where_of_tokens hat hwhereAt htokens
    cases back with
    | nil =>
      rw [append_nil] at hclause
      rw [nil_append] at hafter
      refine ⟨hselect, .conjoined clause hwhere (by rwa [hclause]) (by rwa [hclause]) ?_⟩
      rw [← hafter]
      exact fun l hl => (hat.mark l hl).1
    | cons k back =>
      have hk : isBoundary tables k = true := (hat.mark k (by rw [hafter]; rfl)).1
      rw [codeTokens_cons_of_isBoundary hk, cons_append, cons_append, codeTokens_symbol] at hxs
      rw [← (List.cons.inj hxs).1] at hk
      cases hk
  | takenIn boundary position before after head segment lsBefore lsAfter lsHead keyword condition
      hat hwhereAt first comment comment' hcomment hread' =>
    obtain ⟨hselect, hcondition⟩ := plain_of_where hat hwhereAt
    obtain ⟨more, hmore, rfl⟩ := Option.map_eq_some_iff.mp (hread'.symm.trans hread)
    have hfirst : codeTokens condition = codeTokens first := by
      rw [hcomment]
      simp
    rw [codeTokens_append, codeTokens_cons_of_isWhere hwhereAt.found, codeTokens_symbol,
      codeTokens_append, codeTokens_lineComment, ← hfirst] at htokens
    obtain ⟨clause, back, hwhere, rfl, rfl, hclause, hafter, hxs⟩ :=
      where_of_tokens hat hwhereAt htokens
    have hdepth : depthAfter parenthesis 0 first = 0 := by
      have hbefore := hat.depth_eq (depthAfter_template outer)
      rw [hwhereAt.lexemes_eq, depthAfter_append, hwhereAt.depth_eq, depthAfter_cons, depthAt,
        parenthesis_of_isWhere hwhereAt.found, hcomment, depthAfter_append] at hbefore
      exact hbefore
    have hreads := hat.reads
    rw [hwhereAt.lexemes_eq, hcomment] at hreads
    refine ⟨hselect, .resumed clause hwhere first back comment before after
      (by rw [hclause, hcomment]) (fun l hl => hcondition l ?_) hdepth ?_ hat.text_eq hreads
      hat.starts ?_⟩
    · rw [hcomment]
      exact mem_outside_left hl
    · rw [← hafter]
      exact fun l hl => (hat.mark l hl).1
    · rw [hmore, Option.map_some, hxs]

/-- The result has the tokens of the template with the predicate conjoined just where no other word
is taken for a keyword and the condition does not end with a line comment, or what this comment
takes in comes again behind it. -/
theorem preservesTemplate_iff :
    PreservesTemplate outer predicate ↔ PlainSelect outer ∧ Keeps outer predicate :=
  ⟨keeps_of_preserves, fun h => preserves_of_keeps h.1 h.2⟩

end

/-- The tokens of `SELECT offset, id FROM orders`, which has no WHERE clause. -/
def offsetQuery : OuterSelect asciiTables where
  template := "SELECT offset, id FROM orders".toList
  select := [.word "SELECT".toList, .word "offset".toList, .symbol ',', .word "id".toList,
    .word "FROM".toList, .word "orders".toList]
  whereClause := none
  following := []
  reads := by decide +kernel
  reads_from := by decide +kernel
  balanced := by decide +kernel
  following_balanced := rfl
  starts := by simp

def laterOrders : ClosedPredicate asciiTables where
  text := "id > 7"
  lexemes := [.word "id".toList, .symbol '>', .number ['7']]
  reads := by
    refine ⟨by decide +kernel, by decide +kernel, ?_⟩
    intro character hcharacter
    cases hcharacter
    decide +kernel
  balanced := by decide +kernel

/-- The condition of `recentQuery`. -/
def recentOrders : WhereClause asciiTables where
  keyword := .word "WHERE".toList
  condition := [.word "id".toList, .symbol '<', .number ['3'], .word "OR".toList,
    .word "id".toList, .symbol '>', .number ['5']]
  isWhere := by decide +kernel
  balanced := by decide +kernel

/-- `SELECT id FROM orders` with a condition and an order. -/
def recentQuery : OuterSelect asciiTables where
  template := "SELECT id FROM orders WHERE id < 3 OR id > 5 ORDER BY id".toList
  select := [.word "SELECT".toList, .word "id".toList, .word "FROM".toList, .word "orders".toList]
  whereClause := some recentOrders
  following := [.word "ORDER".toList, .word "BY".toList, .word "id".toList]
  reads := by decide +kernel
  reads_from := by decide +kernel
  balanced := by decide +kernel
  following_balanced := by decide +kernel
  starts := by decide +kernel

/-- The condition is put into parentheses before the predicate is conjoined. -/
theorem preservesTemplate_iff_recent : PreservesTemplate recentQuery laterOrders :=
  preservesTemplate_iff.mpr ⟨by unfold PlainSelect; decide +kernel,
    .conjoined recentOrders rfl (by decide +kernel) (by decide +kernel) (by decide +kernel)⟩

/-- The predicate is put before the column `offset`, ahead of the FROM clause. -/
theorem not_preservesTemplate :
    ¬ ∀ (tables : PythonTables) (outer : OuterSelect tables) (predicate : ClosedPredicate tables),
      PreservesTemplate outer predicate := by
  intro h
  obtain ⟨result, ls, hresult, hread, htokens⟩ := h asciiTables offsetQuery laterOrders
  have hvalue : appendTemplatePredicate asciiTables offsetQuery.template laterOrders.text =
      .ok "SELECT WHERE (id > 7)\noffset, id FROM orders" := by decide +kernel
  obtain rfl := Except.ok.inj (hresult.symm.trans hvalue)
  have hother : (lexemes asciiTables
      "SELECT WHERE (id > 7)\noffset, id FROM orders".toList).map codeTokens ≠
        some (offsetQuery.conjoined laterOrders) := by decide +kernel
  rw [hread, Option.map_some, htokens] at hother
  exact hother rfl

end SqlTide.SqlText
