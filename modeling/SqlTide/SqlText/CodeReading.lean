import SqlTide.SqlText.CodeScans

/-!
# What the scans read as code

Up to an index that a scan over code reaches, the text has been read to the end of a lexeme, or it
is inside a word or a number. What decides is the next character, or the one before.
-/

namespace SqlTide.SqlText

open Foundations List Transducer

/-- A word or a number is being read. -/
def Mode.isName : Mode → Bool
  | .word _ | .number _ => true
  | _ => false

/-- Before the rest the text ends a lexeme, or it is inside a word or a number. -/
def CodeBefore (tables : PythonTables) (text rest : List Char) : Prop :=
  ((lexer tables).run .code text).2.EndsBefore tables rest ∨
    (((lexer tables).run .code text).2.isName = true ∧
      ∃ character ∈ text.getLast?, isIdentifierCharacter tables character = true)

variable {tables : PythonTables} {sql text piece rest : List Char} {ls : List Lexeme} {mode : Mode}
  {character : Char} {start index next : ℕ}

theorem endsBefore_of_isName (hname : mode.isName = true)
    (hrest : ∀ character ∈ rest.head?, isIdentifierCharacter tables character = false) :
    mode.EndsBefore tables rest := by
  cases mode with
  | word text =>
    refine ⟨rfl, fun character hcharacter => ?_⟩
    simp [readCharacter, hrest character hcharacter]
  | number text =>
    refine ⟨rfl, fun character hcharacter => ?_⟩
    simp [readCharacter, hrest character hcharacter]
  | code | quoted | escaped | closing | dash | slash | line | block | star =>
    exact absurd hname (by simp [Mode.isName])

theorem CodeBefore.endsBefore_of_head (h : CodeBefore tables text rest)
    (hrest : ∀ character ∈ rest.head?, isIdentifierCharacter tables character = false) :
    ((lexer tables).run .code text).2.EndsBefore tables rest := by
  rcases h with h | ⟨hname, -⟩
  · exact h
  · exact endsBefore_of_isName hname hrest

theorem CodeBefore.endsBefore_of_getLast (h : CodeBefore tables text rest)
    (htext : ∀ character ∈ text.getLast?, isIdentifierCharacter tables character = false) :
    ((lexer tables).run .code text).2.EndsBefore tables rest := by
  rcases h with h | ⟨-, character, hcharacter, hidentifier⟩
  · exact h
  · rw [htext character hcharacter] at hidentifier
    exact absurd hidentifier (by simp)

theorem CodeBefore.nil : CodeBefore tables [] rest := Or.inl code_endsBefore

/-- A character of code: no comment and no quoted text starts here. -/
structure CodeStart (text : List Char) : Prop where
  line : isLineCommentStart text = false
  block : isBlockCommentStart text = false
  quote : ∀ character ∈ text.head?, isQuote character = false

theorem codeStart_of_skipNonCode (h : skipNonCode sql index = .ok none) :
    CodeStart (sql.drop index) where
  line := (skipNonCode_none h rfl).1
  block := (skipNonCode_none h rfl).2.1
  quote := (skipNonCode_none h rfl).2.2

/-- After its first character, a lexeme of code has ended or it is a name. -/
theorem codeBefore_startLexeme (h : CodeStart (character :: rest)) :
    (startLexeme tables character).2.EndsBefore tables rest ∨
      ((startLexeme tables character).2.isName = true ∧
        isIdentifierCharacter tables character = true) := by
  have hquote := h.quote character rfl
  unfold startLexeme
  split_ifs with hspace hhash hdash hslash hopening hstart hidentifier
  · exact Or.inl code_endsBefore
  · subst hhash
    exact absurd h.line (by simp [isLineCommentStart])
  · subst hdash
    refine Or.inl ⟨rfl, fun next hnext => ?_⟩
    obtain ⟨rest, rfl⟩ := head?_eq_some_iff.mp hnext
    have hother : next ≠ '-' := by
      rintro rfl
      exact absurd h.line (by simp [isLineCommentStart])
    show readCharacter tables .dash next = endLexeme tables .dash next
    simp [readCharacter, hother]
  · subst hslash
    refine Or.inl ⟨rfl, fun next hnext => ?_⟩
    obtain ⟨rest, rfl⟩ := head?_eq_some_iff.mp hnext
    have hother : next ≠ '*' := by
      rintro rfl
      exact absurd h.block (by simp [isBlockCommentStart])
    show readCharacter tables .slash next = endLexeme tables .slash next
    simp [readCharacter, hother]
  · rw [hquote] at hopening
    exact absurd hopening (by simp)
  · exact Or.inr ⟨rfl, isIdentifierCharacter_of_start hstart⟩
  · exact Or.inr ⟨rfl, hidentifier⟩
  · exact Or.inl code_endsBefore

theorem CodeBefore.push (h : CodeBefore tables text (character :: rest))
    (hcode : CodeStart (character :: rest)) : CodeBefore tables (text ++ [character]) rest := by
  have hrun : ((lexer tables).run .code (text ++ [character])).2 =
      (readCharacter tables ((lexer tables).run .code text).2 character).2 := by
    rw [run_append]
    rfl
  have hlast : (text ++ [character]).getLast? = some character := by simp
  have hend : readCharacter tables ((lexer tables).run .code text).2 character =
      endLexeme tables ((lexer tables).run .code text).2 character →
      CodeBefore tables (text ++ [character]) rest := by
    intro hread
    unfold CodeBefore
    rw [hrun, hread, hlast]
    rcases @codeBefore_startLexeme tables _ _ hcode with hends | ⟨hname, hidentifier⟩
    · exact Or.inl hends
    · exact Or.inr ⟨hname, character, rfl, hidentifier⟩
  rcases h with h | ⟨hname, -⟩
  · exact hend (h.2 character rfl)
  · cases hidentifier : isIdentifierCharacter tables character with
    | false =>
      have hends := @endsBefore_of_isName tables (character :: rest) _ hname fun _ hcharacter =>
        Option.some.inj hcharacter ▸ hidentifier
      exact hend (hends.2 character rfl)
    | true =>
      -- the name goes on, unless a word follows a number
      cases hmode : ((lexer tables).run .code text).2 with
      | word before =>
        refine Or.inr ⟨?_, character, hlast, hidentifier⟩
        rw [hrun, hmode]
        simp [readCharacter, hidentifier, Mode.isName]
      | number before =>
        cases hstart : isIdentifierStart tables character with
        | true =>
          refine hend ?_
          rw [hmode]
          simp [readCharacter, hstart]
        | false =>
          refine Or.inr ⟨?_, character, hlast, hidentifier⟩
          rw [hrun, hmode]
          simp [readCharacter, hidentifier, hstart, Mode.isName]
      | code | quoted | escaped | closing | dash | slash | line | block | star =>
        rw [hmode] at hname
        exact absurd hname (by simp [Mode.isName])

/-- A piece that is read on its own, and does not begin like an identifier. -/
theorem CodeBefore.append (h : CodeBefore tables text (piece ++ rest))
    (hreads : Reads tables piece ls rest)
    (hhead : ∀ character ∈ piece.head?, isIdentifierCharacter tables character = false) :
    CodeBefore tables (text ++ piece) rest := by
  cases piece with
  | nil => simpa using h
  | cons character piece =>
    have hends : Mode.EndsBefore tables _ (character :: piece) :=
      h.endsBefore_of_head (by simpa using hhead)
    left
    rw [run_append, run_of_endsBefore hends]
    exact hreads.2

/-- From a start up to an index, a text has been read as code. -/
structure CodeRead (tables : PythonTables) (sql : List Char) (start index : ℕ) : Prop where
  le : start ≤ index
  stop : index ≤ sql.length
  code : CodeBefore tables ((sql.take index).drop start) (sql.drop index)

theorem CodeRead.refl (h : start ≤ sql.length) : CodeRead tables sql start start where
  le := le_rfl
  stop := h
  code := by
    rw [drop_of_length_le (by simp)]
    exact CodeBefore.nil

/-- What a range grows by. -/
theorem range_append (hle : start ≤ index) (hstop : index ≤ sql.length)
    (hpiece : sql.drop index = piece ++ rest) :
    (sql.take (index + piece.length)).drop start = (sql.take index).drop start ++ piece := by
  have htake : sql.take (index + piece.length) = sql.take index ++ piece := by
    rw [take_add, hpiece, take_left]
  rw [htake, drop_append_of_le_length]
  rw [length_take, Nat.min_eq_left hstop]
  exact hle

theorem not_isIdentifierCharacter_of_skipNonCode (h : skipNonCode sql index ≠ .ok none) :
    ∀ character ∈ (sql.drop index).head?, isIdentifierCharacter tables character = false := by
  intro character hcharacter
  obtain ⟨text, htext⟩ := head?_eq_some_iff.mp hcharacter
  unfold skipNonCode at h
  rw [htext] at h
  dsimp only at h
  split_ifs at h with hline hblock hquote
  · rcases Bool.or_eq_true_iff.mp hline with hmark | hmark
    · obtain ⟨rest, hrest⟩ := isPrefixOf_iff_prefix.mp hmark
      rw [← (List.cons.inj hrest).1]
      rfl
    · obtain ⟨rest, hrest⟩ := isPrefixOf_iff_prefix.mp hmark
      rw [← (List.cons.inj hrest).1]
      rfl
  · obtain ⟨rest, hrest⟩ := isPrefixOf_iff_prefix.mp hblock
    rw [← (List.cons.inj hrest).1]
    rfl
  · rcases (by simpa [isQuote, or_assoc] using hquote :
      character = '\'' ∨ character = '"' ∨ character = '`') with rfl | rfl | rfl <;> rfl
  · exact absurd rfl h

theorem CodeRead.skip (h : CodeRead tables sql start index)
    (hskip : skipNonCode sql index = .ok (some next)) : CodeRead tables sql start next := by
  obtain ⟨l, length, -, rfl, hpositive, hstop, hadvances⟩ := skipNonCode_some tables hskip
  obtain ⟨piece, hpiece, rfl, hreads⟩ := hadvances
  refine ⟨by have := h.le; omega, hstop, ?_⟩
  rw [range_append h.le h.stop hpiece]
  refine CodeBefore.append ?_ hreads ?_
  · rw [← hpiece]
    exact h.code
  · intro character hcharacter
    have hsome : skipNonCode sql index ≠ .ok none := by simp [hskip]
    refine not_isIdentifierCharacter_of_skipNonCode hsome character ?_
    rw [hpiece]
    obtain ⟨piece, rfl⟩ := head?_eq_some_iff.mp hcharacter
    rfl

theorem drop_eq_cons (h : sql[index]? = some character) :
    sql.drop index = character :: sql.drop (index + 1) := by
  obtain ⟨hlt, hget⟩ := List.getElem?_eq_some_iff.mp h
  rw [drop_eq_getElem_cons hlt, hget]

theorem CodeRead.visit (h : CodeRead tables sql start index) (hcode : CodeStart (sql.drop index))
    (hcharacter : sql[index]? = some character) : CodeRead tables sql start (index + 1) := by
  obtain ⟨hlt, hget⟩ := List.getElem?_eq_some_iff.mp hcharacter
  have hpiece : sql.drop index = [character] ++ sql.drop (index + 1) := drop_eq_cons hcharacter
  refine ⟨by have := h.le; omega, hlt, ?_⟩
  have hrange := range_append h.le h.stop hpiece
  rw [length_singleton] at hrange
  rw [hrange]
  rw [hpiece] at hcode
  have hbefore := h.code
  rw [hpiece] at hbefore
  exact CodeBefore.push hbefore hcode

theorem codeStart_of_isspace (h : pythonIsspace character = true) :
    CodeStart (character :: rest) where
  line := by
    have hdash : character ≠ '-' := by
      rintro rfl
      exact absurd h (by decide)
    have hhash : character ≠ '#' := by
      rintro rfl
      exact absurd h (by decide)
    simp [isLineCommentStart, isPrefixOf, Ne.symm hdash, Ne.symm hhash]
  block := by
    have hslash : character ≠ '/' := by
      rintro rfl
      exact absurd h (by decide)
    simp [isBlockCommentStart, isPrefixOf, Ne.symm hslash]
  quote _ hcharacter := Option.some.inj hcharacter ▸ not_isQuote_of_isspace h

theorem CodeRead.triviaLoop (fuel : ℕ) : ∀ {index : ℕ}, CodeRead tables sql start index →
    skipTriviaLoop sql fuel index = .ok next → CodeRead tables sql start next ∧ index ≤ next := by
  induction fuel with
  | zero =>
    intro index h hskip
    cases hskip
    exact ⟨h, le_rfl⟩
  | succ fuel ih =>
    intro index h hskip
    rw [skipTriviaLoop] at hskip
    cases htext : sql.drop index with
    | nil =>
      rw [htext] at hskip
      cases hskip
      exact ⟨h, le_rfl⟩
    | cons character text =>
      rw [htext] at hskip
      dsimp only at hskip
      have hcharacter : sql[index]? = some character := by
        rw [← head?_drop, htext]
        rfl
      split_ifs at hskip with hspace hline hblock
      · have hvisit := h.visit (htext ▸ codeStart_of_isspace hspace) hcharacter
        obtain ⟨hread, hle⟩ := ih hvisit hskip
        exact ⟨hread, by omega⟩
      · have hsome : skipNonCode sql index = .ok (some (skipLineComment sql index)) := by
          rw [skipNonCode, htext]
          exact if_pos hline
        obtain ⟨hread, hle⟩ := ih (h.skip hsome) hskip
        exact ⟨hread, (lt_of_skipNonCode hsome).le.trans hle⟩
      · obtain ⟨middle, hmiddle, hskip⟩ := bind_eq_ok.mp hskip
        have hsome : skipNonCode sql index = .ok (some middle) := by
          rw [skipNonCode, htext]
          dsimp only
          rw [if_neg hline, if_pos hblock, hmiddle]
          rfl
        obtain ⟨hread, hle⟩ := ih (h.skip hsome) hskip
        exact ⟨hread, (lt_of_skipNonCode hsome).le.trans hle⟩
      · cases hskip
        exact ⟨h, le_rfl⟩

theorem CodeRead.trivia (h : CodeRead tables sql start index)
    (hskip : skipTrivia sql index = .ok next) : CodeRead tables sql start next ∧ index ≤ next :=
  h.triviaLoop _ hskip

theorem codeRead_word {first : Char} {word : List Char} (hword : first :: word <+: sql.drop start)
    (hfirst : isIdentifierStart tables first = true)
    (hrest : ∀ character ∈ word, isIdentifierCharacter tables character = true) :
    CodeRead tables sql start (start + (word.length + 1)) := by
  obtain ⟨rest, hsplit⟩ := hword
  have hlength := congrArg List.length hsplit
  rw [length_append, length_cons, length_drop] at hlength
  have hstop : start ≤ sql.length := by omega
  have hempty : (sql.take start).drop start = [] := drop_of_length_le (by simp)
  have hrange := range_append (le_refl start) hstop hsplit.symm
  rw [hempty, nil_append, length_cons] at hrange
  have hrun : (lexer tables).run .code (first :: word) = ([], .word (first :: word)) := by
    rw [run_cons, lexer_step, readCharacter, startLexeme_of_identifierStart hfirst, run_word hrest]
    rfl
  refine ⟨by omega, by omega, ?_⟩
  rw [hrange]
  refine Or.inr ⟨by rw [hrun]; rfl, (first :: word).getLast (by simp),
    getLast?_eq_some_getLast _,
    ?_⟩
  rcases mem_cons.mp (getLast_mem (by simp : first :: word ≠ [])) with hlast | hlast
  · rw [hlast]
    exact isIdentifierCharacter_of_start hfirst
  · exact hrest _ hlast

theorem findMatchingParenthesis_ok {openIndex closeIndex : ℕ} {context : String}
    (hread : CodeRead tables sql start (openIndex + 1))
    (h : findMatchingParenthesis sql openIndex context = .ok closeIndex) :
    CodeRead tables sql start closeIndex ∧ openIndex < closeIndex ∧
      sql[closeIndex]? = some ')' := by
  unfold findMatchingParenthesis at h
  have hlength := hread.stop
  refine scanCode_induction
    (I := fun index _ => CodeRead tables sql start index ∧ openIndex < index)
    (Q := fun closeIndex => CodeRead tables sql start closeIndex ∧ openIndex < closeIndex ∧
      sql[closeIndex]? = some ')') ?_ ?_ ?_ _ ?_ ⟨hread, Nat.lt_succ_self _⟩ h
  · intro index depth next hindex _ hskip
    exact ⟨hindex.1.skip hskip, hindex.2.trans (lt_of_skipNonCode hskip)⟩
  · intro index depth character part hindex _ hskip hcharacter hpart
    have hnext : CodeRead tables sql start (index + 1) ∧ openIndex < index + 1 :=
      ⟨hindex.1.visit (codeStart_of_skipNonCode hskip) hcharacter,
        hindex.2.trans (Nat.lt_succ_self _)⟩
    split_ifs at hpart with hopen hclose hdepth
    · cases hpart
      exact ⟨Nat.lt_succ_self _, hnext⟩
    · cases hpart
      exact ⟨hindex.1, hindex.2, hclose ▸ hcharacter⟩
    · cases hpart
      exact ⟨Nat.lt_succ_self _, hnext⟩
    · cases hpart
      exact ⟨Nat.lt_succ_self _, hnext⟩
  · intro index depth result _ _ hresult
    simp at hresult
  · omega

theorem CodeRead.run_parenthesis (h : CodeRead tables sql start index)
    (hcharacter : sql[index]? = some ')') :
    ∃ ls, (lexer tables).run .code ((sql.take (index + 1)).drop start) = (ls, .code) := by
  have hpiece : sql.drop index = [')'] ++ sql.drop (index + 1) := drop_eq_cons hcharacter
  have hrange := range_append h.le h.stop hpiece
  rw [length_singleton] at hrange
  have hbefore := h.code
  rw [hpiece] at hbefore
  have hends : Mode.EndsBefore tables _ (')' :: sql.drop (index + 1)) :=
    hbefore.endsBefore_of_head fun _ hhead => by
      cases hhead
      rfl
  have hread := hends.2 ')' rfl
  rw [hrange, run_append, run_cons, lexer_step, hread]
  exact ⟨_, rfl⟩

end SqlTide.SqlText
