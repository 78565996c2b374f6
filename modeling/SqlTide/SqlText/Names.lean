import SqlTide.SqlText.CodeReading

/-!
# Names next to other text

A name and what follows it are read one by one, unless what follows goes on like an identifier:
then its first name is lost in the other.
-/

namespace SqlTide.SqlText

open Foundations List Transducer

/-- The lexemes of a text without its comments. -/
def tokens (tables : PythonTables) (text : List Char) : Option (List Lexeme) :=
  (lexemes tables text).map fun ls => ls.filter fun l => !l.isComment

theorem Reads.tokens_append {tables : PythonTables} {text rest : List Char} {ls : List Lexeme}
    (h : Reads tables text ls rest) : tokens tables (text ++ rest) =
      (tokens tables rest).map ((ls.filter fun l => !l.isComment) ++ ·) := by
  rw [tokens, tokens, h.lexemes_append]
  simp [Function.comp_def]

theorem Reads.tokens_eq {tables : PythonTables} {text rest : List Char} {ls : List Lexeme}
    (h : Reads tables text ls rest) :
    tokens tables text = some (ls.filter fun l => !l.isComment) := by
  obtain ⟨rfl, hends⟩ := h
  rw [tokens, lexemes, if_pos hends.1]
  rfl

theorem filter_of_not_isComment {ls : List Lexeme} (h : ∀ l ∈ ls, l.isComment = false) :
    (ls.filter fun l => !l.isComment) = ls :=
  filter_eq_self.mpr fun l hl => by simp [h l hl]

section
variable (tables : PythonTables)

structure IsIdentifier (text : List Char) : Prop where
  head : ∃ first ∈ text.head?, isIdentifierStart tables first = true
  all : ∀ character ∈ text, isIdentifierCharacter tables character = true

/-- An identifier after any number of qualifiers. -/
inductive IsQualifiedName : List Char → Prop
  | identifier {text : List Char} : IsIdentifier tables text → IsQualifiedName text
  | qualified {qualifier text : List Char} : IsIdentifier tables qualifier →
      IsQualifiedName text → IsQualifiedName (qualifier ++ '.' :: text)

/-- The text goes on like an identifier. -/
def ContinuesName (text : List Char) : Prop :=
  ∃ character ∈ text.head?, isIdentifierCharacter tables character = true

end

variable {tables : PythonTables} {text rest name : List Char} {ls more : List Lexeme}

instance : Decidable (ContinuesName tables text) :=
  match text with
  | [] => isFalse (by simp [ContinuesName])
  | character :: _ =>
    decidable_of_iff (isIdentifierCharacter tables character = true) (by simp [ContinuesName])

theorem IsIdentifier.exists_cons (h : IsIdentifier tables text) :
    ∃ first rest, text = first :: rest ∧ isIdentifierStart tables first = true ∧
      ∀ character ∈ rest, isIdentifierCharacter tables character = true := by
  obtain ⟨first, hfirst, hstart⟩ := h.head
  obtain ⟨rest, rfl⟩ := head?_eq_some_iff.mp hfirst
  exact ⟨first, rest, rfl, hstart, fun c hc => h.all c (mem_cons_of_mem _ hc)⟩

theorem IsIdentifier.length_pos (h : IsIdentifier tables text) : 0 < text.length := by
  obtain ⟨first, rest, rfl, -⟩ := h.exists_cons
  simp

theorem IsIdentifier.run (h : IsIdentifier tables text) :
    (lexer tables).run .code text = ([], .word text) := by
  obtain ⟨first, rest, rfl, hstart, hrest⟩ := h.exists_cons
  rw [run_cons, lexer_step, readCharacter, startLexeme_of_identifierStart hstart, run_word hrest]
  rfl

/-- A name is read as its parts, with the last one still open. -/
theorem IsQualifiedName.run (h : IsQualifiedName tables name) :
    ∃ ls text, (lexer tables).run .code name = (ls, .word text) ∧
      ∀ l ∈ ls, l.isComment = false := by
  induction h with
  | identifier h => exact ⟨[], _, h.run, by simp⟩
  | @qualified qualifier text h _ ih =>
    obtain ⟨ls, last, hrun, hls⟩ := ih
    have hdot : isIdentifierCharacter tables '.' = false := rfl
    refine ⟨.word qualifier :: .symbol '.' :: ls, last, ?_, ?_⟩
    · have hmiddle : (lexer tables).run (.word qualifier) ('.' :: text) =
          (.word qualifier :: .symbol '.' :: ls, .word last) := by
        rw [run_cons, lexer_step]
        have hread : readCharacter tables (.word qualifier) '.' =
            ([.word qualifier, .symbol '.'], .code) := by
          simp only [readCharacter, hdot]
          rfl
        rw [hread, hrun]
        rfl
      rw [run_append, h.run, hmiddle]
      rfl
    · simp only [mem_cons, forall_eq_or_imp]
      exact ⟨rfl, rfl, hls⟩

theorem IsQualifiedName.head (h : IsQualifiedName tables name) :
    ∃ first ∈ name.head?, isIdentifierStart tables first = true := by
  cases h with
  | identifier h => exact h.head
  | @qualified qualifier text h _ =>
    obtain ⟨first, rest, rfl, hstart, -⟩ := h.exists_cons
    exact ⟨first, rfl, hstart⟩

theorem IsQualifiedName.continuesName (h : IsQualifiedName tables name) :
    ContinuesName tables (name ++ rest) := by
  obtain ⟨first, hfirst, hstart⟩ := h.head
  obtain ⟨text, rfl⟩ := head?_eq_some_iff.mp hfirst
  exact ⟨first, rfl, isIdentifierCharacter_of_start hstart⟩

theorem IsQualifiedName.reads (h : IsQualifiedName tables name)
    (hrest : ¬ ContinuesName tables rest) :
    ∃ ls, lexemes tables name = some ls ∧ Reads tables name ls rest := by
  obtain ⟨ls, last, hrun, -⟩ := h.run
  refine ⟨ls ++ [.word last], ?_, ?_, ?_⟩
  · rw [lexemes, hrun]
    rfl
  · rw [hrun]
    rfl
  · rw [hrun]
    refine endsBefore_of_isName rfl fun character hcharacter => ?_
    cases hidentifier : isIdentifierCharacter tables character with
    | false => rfl
    | true => exact absurd ⟨character, hcharacter, hidentifier⟩ hrest

theorem flush_of_isName {mode : Mode} (h : mode.isName = true) :
    mode.flush ≠ [] ∧ ∀ l ∈ mode.flush, l.isComment = false := by
  cases mode with
  | word text => simp [Mode.flush, Lexeme.isComment]
  | number text => simp [Mode.flush, Lexeme.isComment]
  | code | quoted | escaped | closing | dash | slash | line | block | star =>
    exact absurd h (by simp [Mode.isName])

theorem readCharacter_of_isName {mode : Mode} {character : Char} (hname : mode.isName = true)
    (hcharacter : isIdentifierCharacter tables character = true) :
    (readCharacter tables mode character).2.isName = true ∧
      ∀ l ∈ (readCharacter tables mode character).1, l.isComment = false := by
  cases mode with
  | word text => simp [readCharacter, hcharacter, Mode.isName]
  | number text =>
    cases hstart : isIdentifierStart tables character with
    | false => simp [readCharacter, hcharacter, hstart, Mode.isName]
    | true =>
      simp [readCharacter, hstart, endLexeme, startLexeme_of_identifierStart hstart, Mode.flush,
        Mode.isName, Lexeme.isComment]
  | code | quoted | escaped | closing | dash | slash | line | block | star =>
    exact absurd hname (by simp [Mode.isName])

theorem run_names (text : List Char) {mode : Mode} (hname : mode.isName = true)
    (htext : ∀ character ∈ text, isIdentifierCharacter tables character = true) :
    ((lexer tables).run mode text).2.isName = true ∧
      ∀ l ∈ ((lexer tables).run mode text).1, l.isComment = false := by
  induction text generalizing mode with
  | nil => exact ⟨hname, by simp⟩
  | cons character text ih =>
    obtain ⟨hnext, hread⟩ := readCharacter_of_isName hname (htext character (by simp))
    obtain ⟨hrun, hrest⟩ := ih hnext fun c hc => htext c (mem_cons_of_mem _ hc)
    rw [run_cons, lexer_step]
    refine ⟨hrun, fun l hl => ?_⟩
    rcases mem_append.mp hl with hl | hl
    · exact hread l hl
    · exact hrest l hl

theorem startLexeme_of_identifierCharacter {character : Char}
    (h : isIdentifierCharacter tables character = true) :
    (startLexeme tables character).1 = [] ∧ (startLexeme tables character).2.isName = true := by
  cases hstart : isIdentifierStart tables character with
  | true => simp [startLexeme_of_identifierStart hstart, Mode.isName]
  | false =>
    have hdigit : isDigit tables character = true := isDigit_iff.mpr ⟨h, hstart⟩
    simp [(startLexeme_of_isDigit [] hdigit).1, Mode.isName]

theorem head_dropWhile :
    ¬ ContinuesName tables (text.dropWhile (isIdentifierCharacter tables)) := by
  rintro ⟨character, hcharacter, hidentifier⟩
  have hhead := head?_dropWhile_not (isIdentifierCharacter tables) text
  rw [Option.mem_def.mp hcharacter] at hhead
  simp [hidentifier] at hhead

theorem not_continuesName_iff : ¬ ContinuesName tables rest ↔
    ∀ character ∈ rest.head?, isIdentifierCharacter tables character = false := by
  simp [ContinuesName]

/-- A text that goes on like an identifier begins with names of its own. -/
theorem exists_names (h : ContinuesName tables text) :
    ∃ ls, ls ≠ [] ∧ (∀ l ∈ ls, l.isComment = false) ∧
      Reads tables (text.takeWhile (isIdentifierCharacter tables)) ls
        (text.dropWhile (isIdentifierCharacter tables)) := by
  obtain ⟨character, hcharacter, hidentifier⟩ := h
  obtain ⟨text, rfl⟩ := head?_eq_some_iff.mp hcharacter
  obtain ⟨hnone, hname⟩ := startLexeme_of_identifierCharacter hidentifier
  obtain ⟨hrun, hcomments⟩ := run_names (text.takeWhile (isIdentifierCharacter tables)) hname
    fun c hc => mem_takeWhile_imp hc
  obtain ⟨hflush, hflushed⟩ := flush_of_isName hrun
  have hends := endsBefore_of_isName hrun (not_continuesName_iff.mp (@head_dropWhile tables text))
  rw [takeWhile_cons_of_pos hidentifier, dropWhile_cons_of_pos hidentifier]
  unfold Reads
  rw [run_cons, lexer_step, readCharacter, hnone, nil_append]
  refine ⟨_, ?_, ?_, rfl, hends⟩
  · simp [hflush]
  · intro l hl
    rcases mem_append.mp hl with hl | hl
    · exact hcomments l hl
    · exact hflushed l hl

/-- Before such a text, the last part of a name takes the first names of the text. -/
theorem IsQualifiedName.reads_fused (h : IsQualifiedName tables name) (text : List Char) :
    ∃ ls fused, lexemes tables name = some ls ∧ fused.length = ls.length ∧
      (∀ l ∈ fused, l.isComment = false) ∧ (∀ l ∈ ls, l.isComment = false) ∧
      Reads tables (name ++ text.takeWhile (isIdentifierCharacter tables)) fused
        (text.dropWhile (isIdentifierCharacter tables)) := by
  obtain ⟨ls, last, hrun, hls⟩ := h.run
  have hall : (lexer tables).run .code (name ++ text.takeWhile (isIdentifierCharacter tables)) =
      (ls, .word (last ++ text.takeWhile (isIdentifierCharacter tables))) := by
    rw [run_append, hrun, run_word fun c hc => mem_takeWhile_imp hc]
    simp
  have hends := @endsBefore_of_isName tables _
    (.word (last ++ text.takeWhile (isIdentifierCharacter tables))) rfl
    (not_continuesName_iff.mp (@head_dropWhile tables text))
  refine ⟨ls ++ [.word last],
    ls ++ [.word (last ++ text.takeWhile (isIdentifierCharacter tables))], ?_, by simp, ?_, ?_, ?_⟩
  · rw [lexemes, hrun]
    rfl
  · intro l hl
    rcases mem_append.mp hl with hl | hl
    · exact hls l hl
    · obtain rfl := mem_singleton.mp hl
      rfl
  · intro l hl
    rcases mem_append.mp hl with hl | hl
    · exact hls l hl
    · obtain rfl := mem_singleton.mp hl
      rfl
  · rw [Reads, hall]
    exact ⟨rfl, hends⟩

/-- Next to a text that goes on like an identifier, a token is lost. -/
theorem IsQualifiedName.fuses (h : IsQualifiedName tables name) (htext : ContinuesName tables text)
    {following : List Lexeme} (hfollowing : tokens tables text = some following) :
    ∃ own together, tokens tables name = some own ∧ tokens tables (name ++ text) = some together ∧
      together.length < (own ++ following).length := by
  obtain ⟨names, hne, hnames, hreads⟩ := exists_names htext
  obtain ⟨ls, fused, hname, hlength, hfused, hls, hreads'⟩ := h.reads_fused text
  have hsplit := takeWhile_append_dropWhile (p := isIdentifierCharacter tables) (l := text)
  have hread := hreads.tokens_append
  have hread' := hreads'.tokens_append
  rw [hsplit, filter_of_not_isComment hnames, hfollowing] at hread
  rw [append_assoc, hsplit, filter_of_not_isComment hfused] at hread'
  obtain ⟨rest, hrest, rfl⟩ := Option.map_eq_some_iff.mp hread.symm
  rw [hrest] at hread'
  refine ⟨ls, fused ++ rest, ?_, hread', ?_⟩
  · rw [tokens, hname, Option.map_some, filter_of_not_isComment hls]
  · have hpositive := length_pos_of_ne_nil hne
    simp only [length_append]
    omega

theorem CodeBefore.lexemes_rest (h : CodeBefore tables text rest)
    (hclosed : lexemes tables (text ++ rest) ≠ none) : lexemes tables rest ≠ none := by
  intro hnone
  refine hclosed ?_
  by_cases hrest : ContinuesName tables rest
  · rcases h with h | ⟨hname, -⟩
    · rw [Reads.lexemes_append ⟨rfl, h⟩, hnone, Option.map_none]
    · obtain ⟨names, -, -, hreads⟩ := exists_names hrest
      have hsplit := takeWhile_append_dropWhile (p := isIdentifierCharacter tables) (l := rest)
      have hnames := hreads.lexemes_append
      rw [hsplit, hnone] at hnames
      obtain ⟨hrun, -⟩ := run_names (rest.takeWhile (isIdentifierCharacter tables)) hname
        fun c hc => mem_takeWhile_imp hc
      have hends := endsBefore_of_isName hrun
        (not_continuesName_iff.mp (@head_dropWhile tables rest))
      have htext : Reads tables (text ++ rest.takeWhile (isIdentifierCharacter tables)) _
          (rest.dropWhile (isIdentifierCharacter tables)) :=
        ⟨rfl, by rw [run_append]; exact hends⟩
      have hall := htext.lexemes_append
      rw [append_assoc, hsplit, Option.map_eq_none_iff.mp hnames.symm] at hall
      exact hall
  · rw [Reads.lexemes_append ⟨rfl, h.endsBefore_of_head (not_continuesName_iff.mp hrest)⟩, hnone,
      Option.map_none]

end SqlTide.SqlText
