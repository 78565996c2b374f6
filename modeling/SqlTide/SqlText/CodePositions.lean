import SqlTide.SqlText.Names

/-!
# Characters of code

The characters of a text that stand outside of comments and quoted text. A scan over code comes to
each of them, and what it passes over has none but an opening quote.
-/

namespace SqlTide.SqlText

open Foundations List Transducer

/-- The text that has been read leaves a comment or quoted text open before the rest, or its first
mark is not complete. -/
def Mode.Inside (mode : Mode) (rest : List Char) : Prop :=
  match mode with
  | .quoted _ _ | .escaped _ _ | .block _ | .star _ => True
  | .closing quote _ => rest.head? = some quote
  | .line _ => rest.head? ≠ some '\n'
  | .dash => rest.head? = some '-'
  | .slash => rest.head? = some '*'
  | .code | .word _ | .number _ => False

variable {tables : PythonTables} {sql text rest : List Char} {mode : Mode} {character quote : Char}
  {start index next length count : ℕ}

theorem not_endsBefore_of_inside (h : mode.Inside (character :: rest)) :
    ¬ mode.EndsBefore tables (character :: rest) := by
  rintro ⟨hclosed, hread⟩
  have hread := hread character rfl
  cases mode with
  | code => exact h
  | word text => exact h
  | number text => exact h
  | quoted quote text => simp [Mode.closed] at hclosed
  | escaped quote text => simp [Mode.closed] at hclosed
  | block text => simp [Mode.closed] at hclosed
  | star text => simp [Mode.closed] at hclosed
  | closing quote text =>
    obtain rfl : character = quote := Option.some.inj h
    simp [readCharacter, endLexeme, Mode.flush] at hread
  | line text =>
    have hnewline : character ≠ '\n' := fun heq => h (congrArg some heq)
    simp [readCharacter, endLexeme, Mode.flush, hnewline] at hread
  | dash =>
    obtain rfl : character = '-' := Option.some.inj h
    simp [readCharacter, endLexeme, Mode.flush] at hread
  | slash =>
    obtain rfl : character = '*' := Option.some.inj h
    simp [readCharacter, endLexeme, Mode.flush] at hread

theorem isName_of_inside (h : mode.Inside rest) : mode.isName = false := by
  cases mode with
  | code | word | number => exact absurd h id
  | quoted | escaped | closing | dash | slash | line | block | star => rfl

theorem inside_quoted (h : quotedLength quote text = some length) (hcount : count < length)
    (before : List Char) :
    ((lexer tables).run (.quoted quote before) (text.take count)).2.Inside (text.drop count) := by
  fun_induction quotedLength quote text generalizing length count before with
  | case1 => simp at h
  | case2 =>
    cases h
    obtain rfl : count = 0 := by omega
    trivial
  | case3 => simp at h
  | case4 next rest ih =>
    obtain ⟨length, hlength, rfl⟩ := Option.map_eq_some_iff.mp h
    rcases count with _ | _ | count
    · trivial
    · simp [run_cons, lexer_step, readCharacter, Mode.Inside]
    · simpa [run_cons, lexer_step, readCharacter] using ih hlength (by omega) _
  | case5 rest hescape ih =>
    obtain ⟨length, hlength, rfl⟩ := Option.map_eq_some_iff.mp h
    rcases count with _ | _ | count
    · trivial
    · simp [run_cons, lexer_step, readCharacter, Mode.Inside, hescape]
    · simpa [run_cons, lexer_step, readCharacter, hescape] using ih hlength (by omega) _
  | case6 next rest hnext =>
    cases h
    obtain rfl : count = 0 := by omega
    trivial
  | case7 character next rest hcharacter hother ih =>
    obtain ⟨length, hlength, rfl⟩ := Option.map_eq_some_iff.mp h
    rcases count with _ | count
    · trivial
    · simpa [run_cons, lexer_step, readCharacter, hcharacter, hother] using ih hlength (by omega) _

theorem inside_block (h : blockLength text = some length) (hcount : count < length)
    (before : List Char) :
    ((lexer tables).run (.block before) (text.take count)).2.Inside (text.drop count) := by
  fun_induction blockLength text generalizing length count before with
  | case1 => simp at h
  | case2 => simp at h
  | case3 character next rest hclosing =>
    obtain ⟨rfl, rfl⟩ := hclosing
    cases h
    rcases count with _ | _ | count
    · trivial
    · simp [run_cons, readCharacter, Mode.Inside]
    · simp at hcount
  | case4 character next rest hclosing ih =>
    obtain ⟨length, hlength, rfl⟩ := Option.map_eq_some_iff.mp h
    rcases count with _ | _ | count
    · trivial
    · by_cases hstar : character = '*' <;>
        simp [run_cons, readCharacter, Mode.Inside, hstar]
    · have hrest := ih hlength (Nat.lt_of_succ_lt_succ hcount) (before ++ [character])
      rw [take_succ_cons, run_block before (by simpa using hclosing) (by simp)]
      exact hrest

theorem inside_quoted_of_none (h : quotedLength quote text = none) (count : ℕ)
    (before : List Char) :
    ((lexer tables).run (.quoted quote before) (text.take count)).2.Inside (text.drop count) := by
  fun_induction quotedLength quote text generalizing count before with
  | case1 => cases count <;> trivial
  | case2 => simp at h
  | case3 character hother =>
    rcases count with _ | count
    · trivial
    · by_cases hescape : character = '\\' <;>
        simp [run_cons, lexer_step, readCharacter, Mode.Inside, hescape, hother]
  | case4 next rest ih =>
    rcases count with _ | _ | count
    · trivial
    · simp [run_cons, lexer_step, readCharacter, Mode.Inside]
    · simpa [run_cons, lexer_step, readCharacter] using ih (Option.map_eq_none_iff.mp h) count _
  | case5 rest hescape ih =>
    rcases count with _ | _ | count
    · trivial
    · simp [run_cons, lexer_step, readCharacter, Mode.Inside, hescape]
    · simpa [run_cons, lexer_step, readCharacter, hescape] using
        ih (Option.map_eq_none_iff.mp h) count _
  | case6 => simp at h
  | case7 character next rest hcharacter hother ih =>
    rcases count with _ | count
    · trivial
    · simpa [run_cons, lexer_step, readCharacter, hcharacter, hother] using
        ih (Option.map_eq_none_iff.mp h) count _

theorem inside_block_of_none (h : blockLength text = none) (count : ℕ) (before : List Char) :
    ((lexer tables).run (.block before) (text.take count)).2.Inside (text.drop count) := by
  fun_induction blockLength text generalizing count before with
  | case1 => cases count <;> trivial
  | case2 character =>
    rcases count with _ | count
    · trivial
    · by_cases hstar : character = '*' <;>
        simp [run_cons, readCharacter, Mode.Inside, hstar]
  | case3 => simp at h
  | case4 character next rest hclosing ih =>
    rcases count with _ | _ | count
    · trivial
    · by_cases hstar : character = '*' <;>
        simp [run_cons, readCharacter, Mode.Inside, hstar]
    · have hrest := ih (Option.map_eq_none_iff.mp h) (count + 1) (before ++ [character])
      rw [take_succ_cons, run_block before (by simpa using hclosing) (by simp)]
      exact hrest

theorem inside_line (hcount : '\n' ∉ text.take count) (before : List Char)
    (hrest : (text.drop count).head? ≠ some '\n') :
    ((lexer tables).run (.line before) (text.take count)).2.Inside (text.drop count) := by
  rw [run_line hcount]
  exact hrest

variable {first : Char} {inside : ℕ}

theorem inside_lineComment (hline : isLineCommentStart (first :: text) = true)
    (hfree : '\n' ∉ text.take (count + 1)) (hrest : text.drop count ≠ []) :
    ((lexer tables).run .code (first :: text.take count)).2.Inside (text.drop count) := by
  have hhead : (text.drop count).head? ≠ some '\n' := by
    intro hhead
    rw [head?_drop] at hhead
    exact hfree (mem_of_getElem? (by rw [getElem?_take, if_pos (Nat.lt_succ_self _), hhead]))
  have hbefore : '\n' ∉ text.take count :=
    fun hmem => hfree ((take_subset_take_left text (Nat.le_succ count)) hmem)
  rcases Bool.or_eq_true_iff.mp hline with hmark | hmark
  · obtain ⟨more, hmore⟩ := isPrefixOf_iff_prefix.mp hmark
    obtain ⟨rfl, rfl⟩ := List.cons.inj hmore
    cases count with
    | zero => rfl
    | succ count =>
      have hrun : (lexer tables).run .code ('-' :: '-' :: more.take count) =
          (lexer tables).run (.line ['-', '-']) (more.take count) := rfl
      have hinside := @inside_line tables more count
        (fun hmem => hbefore (mem_cons_of_mem _ hmem)) ['-', '-'] hhead
      exact hrun ▸ hinside
  · obtain ⟨more, hmore⟩ := isPrefixOf_iff_prefix.mp hmark
    obtain ⟨rfl, rfl⟩ := List.cons.inj hmore
    exact inside_line hbefore _ hhead

theorem inside_blockComment (hblock : isBlockCommentStart (first :: text) = true)
    (hlength : blockLength (text.drop 1) = some length) (hcount : count < 1 + length) :
    ((lexer tables).run .code (first :: text.take count)).2.Inside (text.drop count) := by
  obtain ⟨more, hmore⟩ := isPrefixOf_iff_prefix.mp hblock
  obtain ⟨rfl, rfl⟩ := List.cons.inj hmore
  cases count with
  | zero => rfl
  | succ count =>
    have hrun : (lexer tables).run .code ('/' :: '*' :: more.take count) =
        (lexer tables).run (.block ['/', '*']) (more.take count) := rfl
    have hinside := @inside_block tables more _ count hlength (by omega) ['/', '*']
    exact hrun ▸ hinside

theorem drop_past (hindex : sql.drop index = first :: text) :
    sql.drop (index + (count + 1)) = text.drop count := by
  rw [← drop_drop, hindex]
  rfl

theorem inside_of_skipNonCode_error {error : ScanError}
    (h : skipNonCode sql index = .error error) (hindex : sql.drop index = first :: text)
    (count : ℕ) : ((lexer tables).run .code (first :: text.take count)).2.Inside
    (text.drop count) := by
  unfold skipNonCode at h
  rw [hindex] at h
  dsimp only at h
  split_ifs at h with hline hblock hquote
  · have hskip := map_eq_error.mp h
    unfold skipBlockComment at hskip
    rw [drop_past hindex] at hskip
    cases hlength : blockLength (text.drop 1) with
    | some length =>
      rw [hlength] at hskip
      cases hskip
    | none =>
      obtain ⟨more, hmore⟩ := isPrefixOf_iff_prefix.mp hblock
      obtain ⟨rfl, rfl⟩ := List.cons.inj hmore
      cases count with
      | zero => rfl
      | succ count => exact @inside_block_of_none tables more hlength count ['/', '*']
  · have hskip := map_eq_error.mp h
    unfold skipQuotedText at hskip
    rw [drop_past hindex] at hskip
    cases hlength : quotedLength first text with
    | some length => simp [hlength] at hskip
    | none =>
      rw [run_cons, lexer_step, readCharacter, startLexeme_of_isQuote hquote]
      exact inside_quoted_of_none hlength count _

theorem inside_of_skipNonCode (h : skipNonCode sql index = .ok (some next))
    (hindex : sql.drop index = first :: text) (hcount : index + (count + 1) < next)
    (hnewline : (text.drop count).head? ≠ some '\n') :
    ((lexer tables).run .code (first :: text.take count)).2.Inside (text.drop count) := by
  unfold skipNonCode at h
  rw [hindex] at h
  dsimp only at h
  split_ifs at h with hline hblock hquote
  · obtain rfl := Option.some.inj (Except.ok.inj h)
    unfold skipLineComment at hcount
    rw [hindex] at hcount
    have hlength := congrArg List.length hindex
    rw [length_drop, length_cons] at hlength
    rcases newline_cases (first :: text) with ⟨hnone, hfind⟩ | ⟨line, rest, hsplit, hnone, hfind⟩
    · rw [hfind] at hcount
      dsimp only at hcount
      apply inside_lineComment hline
      · intro hmem
        exact hnone (mem_cons_of_mem _ (mem_of_mem_take hmem))
      · rw [Ne, drop_eq_nil_iff]
        omega
    · rw [hfind] at hcount
      dsimp only at hcount
      -- the comment goes on beyond this character, which is not its newline
      have hshort : count + 1 ≠ line.length := by
        intro heq
        apply hnewline
        rw [head?_drop, ← getElem?_cons_succ (a := first), hsplit, heq]
        simp
      cases line with
      | nil => simp at hcount
      | cons head line =>
        have htext : text = line ++ '\n' :: rest := (List.cons.inj hsplit).2
        rw [length_cons] at hcount hshort
        apply inside_lineComment hline
        · rw [htext, take_append_of_le_length (by omega)]
          intro hmem
          exact hnone (mem_cons_of_mem _ (mem_of_mem_take hmem))
        · rw [Ne, drop_eq_nil_iff, htext, length_append]
          omega
  · obtain ⟨_, hskip, hnext⟩ := map_eq_ok.mp h
    cases hnext
    unfold skipBlockComment at hskip
    rw [drop_past hindex] at hskip
    cases hlength : blockLength (text.drop 1) with
    | none =>
      rw [hlength] at hskip
      cases hskip
    | some length =>
      rw [hlength] at hskip
      cases hskip
      exact inside_blockComment hblock hlength (by omega)
  · obtain ⟨_, hskip, hnext⟩ := map_eq_ok.mp h
    cases hnext
    unfold skipQuotedText at hskip
    rw [drop_past hindex] at hskip
    cases hlength : quotedLength first text with
    | none => simp [hlength] at hskip
    | some length =>
      rw [drop_zero, hlength] at hskip
      cases hskip
      rw [run_cons, lexer_step, readCharacter, startLexeme_of_isQuote hquote]
      exact inside_quoted hlength (by omega) _
  · simp at h

/-- A character outside of comments and quoted text that is not white space. A quote that opens
quoted text is one. -/
structure CodeAt (tables : PythonTables) (sql : List Char) (index : ℕ) : Prop where
  before : CodeBefore tables (sql.take index) (sql.drop index)
  line : isLineCommentStart (sql.drop index) = false
  block : isBlockCommentStart (sql.drop index) = false
  character : ∃ character ∈ sql[index]?, pythonIsspace character = false

theorem endsBefore_iff : mode.EndsBefore tables rest ↔ mode.closed = true ∧
    rest.head?.all (fun character =>
      readCharacter tables mode character = endLexeme tables mode character) = true := by
  simp only [Mode.EndsBefore, Option.all_eq_true, Option.mem_def, decide_eq_true_eq]

instance : Decidable (mode.EndsBefore tables rest) := decidable_of_iff _ endsBefore_iff.symm

theorem codeBefore_iff : CodeBefore tables text rest ↔
    ((lexer tables).run .code text).2.EndsBefore tables rest ∨
      ((lexer tables).run .code text).2.isName = true ∧
        text.getLast?.any (isIdentifierCharacter tables) = true := by
  simp only [CodeBefore, Option.any_eq_true, Option.mem_def]

instance : Decidable (CodeBefore tables text rest) := decidable_of_iff _ codeBefore_iff.symm

theorem codeAt_iff : CodeAt tables sql index ↔
    CodeBefore tables (sql.take index) (sql.drop index) ∧
      isLineCommentStart (sql.drop index) = false ∧ isBlockCommentStart (sql.drop index) = false ∧
      sql[index]?.any (fun character => !pythonIsspace character) = true := by
  simp only [Option.any_eq_true, Bool.not_eq_true']
  exact ⟨fun h => ⟨h.before, h.line, h.block, h.character⟩,
    fun ⟨before, line, block, character⟩ => ⟨before, line, block, character⟩⟩

instance : Decidable (CodeAt tables sql index) := decidable_of_iff _ codeAt_iff.symm

theorem CodeAt.lt_length (h : CodeAt tables sql index) : index < sql.length := by
  obtain ⟨character, hcharacter, -⟩ := h.character
  exact (List.getElem?_eq_some_iff.mp hcharacter).1

theorem CodeAt.codeRead (h : CodeAt tables sql index) : CodeRead tables sql 0 index where
  le := Nat.zero_le index
  stop := h.lt_length.le
  code := by simpa using h.before

/-- What a scan over code comes to. -/
theorem codeAt_of_codeStart (hread : CodeRead tables sql 0 index)
    (hstart : CodeStart (sql.drop index)) (hcharacter : sql[index]? = some character)
    (hspace : pythonIsspace character = false) : CodeAt tables sql index where
  before := by simpa using hread.code
  line := hstart.line
  block := hstart.block
  character := ⟨character, hcharacter, hspace⟩

theorem not_codeAt_of_inside (hread : CodeRead tables sql 0 index)
    (hindex : sql.drop index = first :: text) (hfirst : isIdentifierCharacter tables first = false)
    (hinside : ((lexer tables).run .code (first :: text.take count)).2.Inside (text.drop count)) :
    ¬ CodeAt tables sql (index + (count + 1)) := by
  rintro ⟨hbefore, -, -, character, hcharacter, -⟩
  have hdrop : sql.drop (index + (count + 1)) = text.drop count := by
    rw [← drop_drop, hindex]
    rfl
  have hhead : (text.drop count).head? = some character := by
    rw [← hdrop, head?_drop]
    exact hcharacter
  have htake : sql.take (index + (count + 1)) = sql.take index ++ first :: text.take count := by
    rw [take_add, hindex, take_succ_cons]
  have hcode : CodeBefore tables (sql.take index) (first :: text) := by
    simpa [hindex] using hread.code
  have hends : Mode.EndsBefore tables _ (first :: text.take count) :=
    hcode.endsBefore_of_head (by simpa using hfirst)
  obtain ⟨rest, hrest⟩ := head?_eq_some_iff.mp hhead
  rw [htake, hdrop, hrest, CodeBefore, run_append, run_of_endsBefore hends] at hbefore
  rw [hrest] at hinside
  rcases hbefore with hbefore | ⟨hname, -⟩
  · exact not_endsBefore_of_inside hinside hbefore
  · rw [isName_of_inside hinside] at hname
    cases hname

/-- Where the first character of a piece is code, it is the quote that opens it. -/
theorem isQuote_of_codeAt_start (hskip : skipNonCode sql index ≠ .ok none)
    (hindex : sql.drop index = first :: text) (hcode : CodeAt tables sql index) :
    isQuote first = true := by
  have hline := hcode.line
  have hblock := hcode.block
  rw [hindex] at hline hblock
  unfold skipNonCode at hskip
  rw [hindex] at hskip
  dsimp only at hskip
  rw [if_neg (by simp [hline]), if_neg (by simp [hblock])] at hskip
  by_contra hquote
  rw [if_neg hquote] at hskip
  exact hskip rfl

/-- Of a piece whose further characters all leave it open, only the opening quote is code. -/
theorem isQuote_of_codeAt_inside (hread : CodeRead tables sql 0 index)
    (hskip : skipNonCode sql index ≠ .ok none) (hle : index ≤ inside)
    (hcode : CodeAt tables sql inside)
    (hinside : ∀ first text count, sql.drop index = first :: text → inside = index + (count + 1) →
      ((lexer tables).run .code (first :: text.take count)).2.Inside (text.drop count)) :
    inside = index ∧ ∃ character ∈ sql[inside]?, isQuote character = true := by
  obtain ⟨more, rfl⟩ := Nat.exists_eq_add_of_le hle
  cases hindex : sql.drop index with
  | nil =>
    rw [skipNonCode, hindex] at hskip
    exact absurd rfl hskip
  | cons first text =>
    cases more with
    | zero =>
      refine ⟨rfl, first, by rw [Nat.add_zero, ← head?_drop, hindex]; rfl, ?_⟩
      exact isQuote_of_codeAt_start hskip hindex hcode
    | succ count =>
      have hfirst : ∀ character ∈ (sql.drop index).head?,
          isIdentifierCharacter tables character = false :=
        not_isIdentifierCharacter_of_skipNonCode hskip
      rw [hindex] at hfirst
      exact absurd hcode (not_codeAt_of_inside hread hindex (hfirst first rfl)
        (hinside first text count hindex rfl))

/-- What a scan over code passes over has no code but its opening quote. -/
theorem isQuote_of_codeAt_skip (hread : CodeRead tables sql 0 index)
    (hskip : skipNonCode sql index = .ok (some next)) (hle : index ≤ inside)
    (hlt : inside < next) (hcode : CodeAt tables sql inside) :
    inside = index ∧ ∃ character ∈ sql[inside]?, isQuote character = true := by
  refine isQuote_of_codeAt_inside hread (by simp [hskip]) hle hcode ?_
  rintro first text count hindex rfl
  have hnewline : (text.drop count).head? ≠ some '\n' := by
    obtain ⟨character, hcharacter, hspace⟩ := hcode.character
    rw [← drop_past hindex, head?_drop, Option.mem_def.mp hcharacter]
    rintro heq
    cases heq
    exact absurd hspace (by decide)
  exact inside_of_skipNonCode hskip hindex hlt hnewline

/-- From where a piece opens that is never closed there is no code but its opening quote. -/
theorem isQuote_of_codeAt_skip_error {error : ScanError} (hread : CodeRead tables sql 0 index)
    (hskip : skipNonCode sql index = .error error) (hle : index ≤ inside)
    (hcode : CodeAt tables sql inside) : ∃ character ∈ sql[inside]?, isQuote character = true := by
  refine (isQuote_of_codeAt_inside hread (by simp [hskip]) hle hcode ?_).2
  intro first text count hindex _
  exact inside_of_skipNonCode_error hskip hindex count

/-- In a closed text, everything that is opened can be passed over. -/
theorem exists_skipNonCode (hclosed : lexemes tables sql ≠ none)
    (hread : CodeRead tables sql 0 index) : ∃ skipped, skipNonCode sql index = .ok skipped := by
  have hrest : lexemes tables (sql.drop index) ≠ none := by
    have hcode : CodeBefore tables (sql.take index) (sql.drop index) := by simpa using hread.code
    apply hcode.lexemes_rest
    rwa [List.take_append_drop]
  have hlength : (sql.take index).length = index := by
    rw [length_take, Nat.min_eq_left hread.stop]
  unfold skipNonCode
  cases hindex : sql.drop index with
  | nil => exact ⟨none, rfl⟩
  | cons character text =>
    rw [hindex] at hrest
    have hsplit : sql.take index ++ character :: text = sql := by
      rw [← hindex, List.take_append_drop]
    dsimp only
    split_ifs with hline hblock hquote
    · exact ⟨_, rfl⟩
    · obtain ⟨length, comment, rest, hskip, -⟩ :=
        @skipBlockComment_advances tables _ (sql.take index) hblock hrest
      rw [hsplit, hlength] at hskip
      exact ⟨_, by rw [hskip]; rfl⟩
    · obtain ⟨length, quoted, rest, hskip, -⟩ :=
        @skipQuotedText_advances tables _ (sql.take index) _ hquote hrest
      rw [hsplit, hlength] at hskip
      exact ⟨_, by rw [hskip]; rfl⟩
    · exact ⟨none, rfl⟩

/-- The scan goes on where the invariant holds, or its outcome is as it should be. -/
def VisitOutcome {σ α : Type} (I : ℕ → σ → Prop) (Q : ScanResult α → Prop) (index : ℕ) :
    ScanResult (Visit σ α) → Prop
  | .ok (.goOn next state) => index < next ∧ I next state
  | .ok (.done result) => Q (.ok result)
  | .error error => Q (.error error)

/-- What the pieces passed over and the body keep up holds of the outcome, also where a piece is
never closed. -/
theorem scanCode_outcome_of_error {σ α : Type} {stop : ℕ}
    {visit : ℕ → Char → σ → ScanResult (Visit σ α)} {atEnd : σ → ScanResult α} {I : ℕ → σ → Prop}
    {Q : ScanResult α → Prop} (hread : ∀ index state, I index state → CodeRead tables sql 0 index)
    (hskip : ∀ index state next, I index state → index < stop →
      skipNonCode sql index = .ok (some next) → I next state)
    (herror : ∀ index state error, I index state → index < stop →
      skipNonCode sql index = .error error → Q (.error error))
    (hvisit : ∀ index state character, I index state → index < stop →
      skipNonCode sql index = .ok none → sql[index]? = some character →
      VisitOutcome I Q index (visit index character state))
    (hend : ∀ index state, I index state → (stop ≤ index ∨ index = sql.length) → Q (atEnd state))
    (fuel : ℕ) : ∀ {index : ℕ} {state : σ}, stop ≤ index + fuel → I index state →
      Q (scanCode sql stop visit atEnd fuel index state) := by
  induction fuel with
  | zero =>
    intro index state hfuel hstate
    exact hend index state hstate (Or.inl hfuel)
  | succ fuel ih =>
    intro index state hfuel hstate
    rw [scanCode]
    split_ifs with hstop
    · exact hend index state hstate (Or.inl hstop)
    have hlt : index < stop := Nat.lt_of_not_le hstop
    cases hskipped : skipNonCode sql index with
    | error error => exact herror index state error hstate hlt hskipped
    | ok skipped =>
      cases skipped with
      | some next =>
        have hnext := hskip index state next hstate hlt hskipped
        have hprogress := lt_of_skipNonCode hskipped
        exact ih (by omega) hnext
      | none =>
        cases hcharacter : sql[index]? with
        | none =>
          have hle := getElem?_eq_none_iff.mp hcharacter
          have hstop := (hread index state hstate).stop
          exact hend index state hstate (Or.inr (by omega))
        | some character =>
          have houtcome := hvisit index state character hstate hlt hskipped hcharacter
          show Q ((visit index character state).bind _)
          cases hpart : visit index character state with
          | error error =>
            rw [hpart] at houtcome
            exact houtcome
          | ok part =>
            rw [hpart] at houtcome
            cases part with
            | goOn next state => exact ih (by have := houtcome.1; omega) houtcome.2
            | done result => exact houtcome

/-- In a closed text, what the pieces passed over and the body keep up holds of the outcome. -/
theorem scanCode_outcome {σ α : Type} {stop : ℕ} {visit : ℕ → Char → σ → ScanResult (Visit σ α)}
    {atEnd : σ → ScanResult α} {I : ℕ → σ → Prop} {Q : ScanResult α → Prop}
    (hclosed : lexemes tables sql ≠ none) (hread : ∀ index state, I index state →
      CodeRead tables sql 0 index) (hskip : ∀ index state next, I index state → index < stop →
      skipNonCode sql index = .ok (some next) → I next state)
    (hvisit : ∀ index state character, I index state → index < stop →
      skipNonCode sql index = .ok none → sql[index]? = some character →
      VisitOutcome I Q index (visit index character state))
    (hend : ∀ index state, I index state → (stop ≤ index ∨ index = sql.length) → Q (atEnd state))
    (fuel : ℕ) {state : σ} (hfuel : stop ≤ index + fuel) (hstate : I index state) :
    Q (scanCode sql stop visit atEnd fuel index state) := by
  refine scanCode_outcome_of_error hread hskip ?_ hvisit hend fuel hfuel hstate
  intro index state error hstate _ herror
  obtain ⟨skipped, hskipped⟩ := exists_skipNonCode hclosed (hread index state hstate)
  rw [hskipped] at herror
  cases herror

/-- The first character of code from an index on, or the end of the text. -/
structure FirstCode (tables : PythonTables) (sql : List Char) (start index : ℕ) : Prop where
  le : start ≤ index
  none : ∀ between, start ≤ between → between < index → ¬ CodeAt tables sql between
  code : CodeAt tables sql index ∨ index = sql.length

theorem FirstCode.unique {index' : ℕ} (h : FirstCode tables sql start index)
    (h' : FirstCode tables sql start index') : index = index' := by
  have hle : ∀ {index}, CodeAt tables sql index ∨ index = sql.length → index ≤ sql.length := by
    rintro index (hcode | rfl)
    · exact hcode.lt_length.le
    · exact le_rfl
  have hindex := hle h.code
  have hindex' := hle h'.code
  rcases Nat.lt_trichotomy index index' with hlt | heq | hlt
  · rcases h.code with hcode | hend
    · exact absurd hcode (h'.none index h.le hlt)
    · omega
  · exact heq
  · rcases h'.code with hcode | hend
    · exact absurd hcode (h.none index' h'.le hlt)
    · omega

theorem not_codeAt_of_isspace (hcharacter : sql[index]? = some character)
    (hspace : pythonIsspace character = true) : ¬ CodeAt tables sql index := by
  intro hcode
  obtain ⟨_, hcharacter', hspace'⟩ := hcode.character
  rw [hcharacter] at hcharacter'
  cases hcharacter'
  rw [hspace] at hspace'
  cases hspace'

/-- A comment has no code. -/
theorem not_codeAt_of_comment (hread : CodeRead tables sql 0 index)
    (hskip : skipNonCode sql index = .ok (some next))
    (hcomment : isLineCommentStart (sql.drop index) = true ∨
      isBlockCommentStart (sql.drop index) = true) (hle : index ≤ inside)
    (hlt : inside < next) : ¬ CodeAt tables sql inside := by
  intro hcode
  obtain ⟨rfl, -⟩ := isQuote_of_codeAt_skip hread hskip hle hlt hcode
  rcases hcomment with hcomment | hcomment
  · rw [hcode.line] at hcomment
    cases hcomment
  · rw [hcode.block] at hcomment
    cases hcomment

theorem skipTriviaLoop_firstCode (hclosed : lexemes tables sql ≠ none) (fuel : ℕ) :
    ∀ {index : ℕ}, sql.length ≤ index + fuel → CodeRead tables sql 0 index →
      ∃ next, skipTriviaLoop sql fuel index = .ok next ∧ CodeRead tables sql 0 next ∧
        FirstCode tables sql index next := by
  induction fuel with
  | zero =>
    intro index hfuel hread
    have hstop := hread.stop
    exact ⟨index, rfl, hread, le_rfl, fun _ _ _ => by omega, Or.inr (by omega)⟩
  | succ fuel ih =>
    intro index hfuel hread
    have hstop := hread.stop
    -- what the rest of the loop finds is found from here
    have hgo : ∀ {middle : ℕ}, index < middle → CodeRead tables sql 0 middle →
        (∀ between, index ≤ between → between < middle → ¬ CodeAt tables sql between) →
        ∃ next, skipTriviaLoop sql fuel middle = .ok next ∧ CodeRead tables sql 0 next ∧
          FirstCode tables sql index next := by
      intro middle hlt hmiddle hnone
      obtain ⟨next, hnext, hread', hfirst⟩ := ih (by omega) hmiddle
      refine ⟨next, hnext, hread', hlt.le.trans hfirst.le, fun between hle hbetween => ?_,
        hfirst.code⟩
      rcases Nat.lt_or_ge between middle with hbefore | hafter
      · exact hnone between hle hbefore
      · exact hfirst.none between hafter hbetween
    rw [skipTriviaLoop]
    cases htext : sql.drop index with
    | nil =>
      have hlength := drop_eq_nil_iff.mp htext
      exact ⟨index, rfl, hread, le_rfl, fun _ _ _ => by omega, Or.inr (by omega)⟩
    | cons character text =>
      have hcharacter : sql[index]? = some character := by
        rw [← head?_drop, htext]
        rfl
      dsimp only
      split_ifs with hspace hline hblock
      · apply hgo (Nat.lt_succ_self index)
        · exact hread.visit (htext ▸ codeStart_of_isspace hspace) hcharacter
        · intro between hle hlt
          obtain rfl : between = index := by omega
          exact not_codeAt_of_isspace hcharacter hspace
      · have hsome : skipNonCode sql index = .ok (some (skipLineComment sql index)) := by
          rw [skipNonCode, htext]
          exact if_pos hline
        rw [← htext] at hline
        exact hgo (lt_of_skipNonCode hsome) (hread.skip hsome) fun _ hle hlt =>
          not_codeAt_of_comment hread hsome (Or.inl hline) hle hlt
      · obtain ⟨skipped, hskipped⟩ := exists_skipNonCode hclosed hread
        have hmap := hskipped
        rw [skipNonCode, htext] at hmap
        dsimp only at hmap
        rw [if_neg hline, if_pos hblock] at hmap
        obtain ⟨middle, hmiddle, rfl⟩ := map_eq_ok.mp hmap
        rw [← htext] at hblock
        rw [hmiddle]
        exact hgo (lt_of_skipNonCode hskipped) (hread.skip hskipped) fun _ hle hlt =>
          not_codeAt_of_comment hread hskipped (Or.inr hblock) hle hlt
      · refine ⟨index, rfl, hread, le_rfl, fun _ _ _ => by omega, Or.inl ?_⟩
        exact ⟨by simpa using hread.code, by simpa [htext] using hline,
          by simpa [htext] using hblock, character, hcharacter, by simpa using hspace⟩

/-- `skip_trivia` goes to the next character of code. -/
theorem skipTrivia_firstCode (hclosed : lexemes tables sql ≠ none)
    (hread : CodeRead tables sql 0 start) :
    ∃ index, skipTrivia sql start = .ok index ∧ CodeRead tables sql 0 index ∧
      FirstCode tables sql start index :=
  skipTriviaLoop_firstCode hclosed _ (by omega) hread

theorem codeStart_of_isIdentifierCharacter (h : isIdentifierCharacter tables character = true) :
    CodeStart (character :: rest) where
  line := by
    have hdash := ne_of_isIdentifierCharacter '-' h rfl
    have hhash := ne_of_isIdentifierCharacter '#' h rfl
    simp [isLineCommentStart, isPrefixOf, Ne.symm hdash, Ne.symm hhash]
  block := by
    have hslash := ne_of_isIdentifierCharacter '/' h rfl
    simp [isBlockCommentStart, isPrefixOf, Ne.symm hslash]
  quote _ hcharacter := by
    cases hcharacter
    simp [isQuote, ne_of_isIdentifierCharacter '\'' h rfl, ne_of_isIdentifierCharacter '"' h rfl,
      ne_of_isIdentifierCharacter '`' h rfl]

theorem CodeRead.run (h : CodeRead tables sql start index) (hpiece : sql.drop index = text ++ rest)
    (htext : ∀ character ∈ text, ∀ rest, CodeStart (character :: rest)) :
    CodeRead tables sql start (index + text.length) := by
  induction text generalizing index with
  | nil => exact h
  | cons character text ih =>
    have hcharacter : sql[index]? = some character := by
      rw [← head?_drop, hpiece]
      rfl
    have hnext : sql.drop (index + 1) = text ++ rest := by
      rw [← drop_drop, hpiece]
      rfl
    have hstart : CodeStart (sql.drop index) := by
      rw [hpiece]
      exact htext character mem_cons_self _
    have hread := ih (h.visit hstart hcharacter) hnext fun c hc =>
      htext c (mem_cons_of_mem _ hc)
    rwa [Nat.add_assoc, Nat.add_comm 1] at hread

/-- What is read up to a run of characters that are code is read behind it. -/
theorem CodeRead.takeWhile {p : Char → Bool} (hread : CodeRead tables sql start index)
    (hp : ∀ character, p character = true → ∀ rest, CodeStart (character :: rest)) :
    CodeRead tables sql start (index + ((sql.drop index).takeWhile p).length) :=
  hread.run (takeWhile_append_dropWhile).symm fun character hcharacter =>
    hp character (mem_takeWhile_imp hcharacter)

end SqlTide.SqlText
