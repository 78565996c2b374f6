import SqlTide.SqlText.BracketDepth
import SqlTide.SqlText.ScanLocality

/-!
# The steps of the scanners and the parenthesis matcher

Each step of a scan ends behind its start and within the text, or in an error, so that the fuel of
the loops is no bound on them: any larger one gives the same result. The parenthesis matcher returns
the first balancing parenthesis of code, in texts that leave a quote or a comment open as well.
-/

namespace SqlTide.SqlText

open Foundations List

variable {tables : PythonTables} {sql text : List Char}
  {start index stop next openIndex fuel fuel' length : ℕ} {character quote : Char} {σ α : Type}

theorem quotedLength_bounds (h : quotedLength quote text = some length) :
    0 < length ∧ length ≤ text.length := by
  fun_induction quotedLength quote text generalizing length with
  | case1 => simp at h
  | case2 =>
    cases h
    simp
  | case3 => simp at h
  | case4 next rest ih =>
    obtain ⟨length, hlength, rfl⟩ := Option.map_eq_some_iff.mp h
    have := ih hlength
    simp only [length_cons]
    omega
  | case5 rest hescape ih =>
    obtain ⟨length, hlength, rfl⟩ := Option.map_eq_some_iff.mp h
    have := ih hlength
    simp only [length_cons]
    omega
  | case6 =>
    cases h
    simp
  | case7 character next rest hescape hother ih =>
    obtain ⟨length, hlength, rfl⟩ := Option.map_eq_some_iff.mp h
    have := ih hlength
    simp only [length_cons] at this ⊢
    omega

theorem blockLength_bounds (h : blockLength text = some length) :
    2 ≤ length ∧ length ≤ text.length := by
  fun_induction blockLength text generalizing length with
  | case1 => simp at h
  | case2 => simp at h
  | case3 =>
    cases h
    simp
  | case4 character next rest hclosing ih =>
    obtain ⟨length, hlength, rfl⟩ := Option.map_eq_some_iff.mp h
    have := ih hlength
    simp only [length_cons] at this ⊢
    omega

/-- The step ends behind its start and within the text. -/
def StepsWithin (sql : List Char) (start next : ℕ) : Prop := start < next ∧ next ≤ sql.length

theorem skipQuotedText_within (h : skipQuotedText sql start quote = .ok next) :
    StepsWithin sql start next := by
  unfold skipQuotedText at h
  cases hlength : quotedLength quote (sql.drop (start + 1)) with
  | none => simp [hlength] at h
  | some length =>
    rw [hlength] at h
    cases h
    have hbounds := quotedLength_bounds hlength
    rw [length_drop] at hbounds
    constructor <;> omega

theorem skipBlockComment_within (h : skipBlockComment sql start = .ok next) :
    StepsWithin sql start next := by
  unfold skipBlockComment at h
  cases hlength : blockLength (sql.drop (start + 2)) with
  | none => simp [hlength] at h
  | some length =>
    rw [hlength] at h
    cases h
    have hbounds := blockLength_bounds hlength
    rw [length_drop] at hbounds
    constructor <;> omega

theorem skipLineComment_within (hstart : start < sql.length) :
    StepsWithin sql start (skipLineComment sql start) := by
  refine ⟨lt_skipLineComment hstart, ?_⟩
  unfold skipLineComment
  cases hnewline : (sql.drop start).findIdx? (· = '\n') with
  | none => exact le_rfl
  | some offset =>
    have hoffset := (findIdx?_eq_some_iff_getElem.mp hnewline).1
    rw [length_drop] at hoffset
    exact (by omega : start + offset + 1 ≤ sql.length)

theorem skipNonCode_within (h : skipNonCode sql start = .ok (some next)) :
    StepsWithin sql start next := by
  refine ⟨lt_of_skipNonCode h, ?_⟩
  obtain ⟨_, _, _, _, _, hstop, _⟩ := skipNonCode_some asciiTables h
  exact hstop

/-- White space or a comment. -/
def startsTrivia (text : List Char) : Bool :=
  text.head?.any pythonIsspace || isLineCommentStart text || isBlockCommentStart text

theorem skipTriviaLoop_within (h : skipTriviaLoop sql fuel start = .ok next)
    (hstart : start ≤ sql.length) : next ≤ sql.length := by
  induction fuel generalizing start with
  | zero => exact Except.ok.inj h ▸ hstart
  | succ fuel ih =>
    rw [skipTriviaLoop] at h
    cases hdrop : sql.drop start with
    | nil =>
      rw [hdrop] at h
      exact Except.ok.inj h ▸ hstart
    | cons character rest =>
      have hlt := lt_length_of_drop_eq_cons hdrop
      rw [hdrop] at h
      dsimp only at h
      split_ifs at h
      · exact ih h hlt
      · exact ih h (skipLineComment_within hlt).2
      · obtain ⟨after, hafter, hrest⟩ := bind_eq_ok.mp h
        exact ih hrest (skipBlockComment_within hafter).2
      · exact Except.ok.inj h ▸ hstart

/-- White space and comments are gone beyond, and nothing else is. -/
theorem skipTrivia_lt_iff (h : skipTrivia sql start = .ok next) :
    start < next ↔ startsTrivia (sql.drop start) = true := by
  unfold skipTrivia at h
  cases hdrop : sql.drop start with
  | nil =>
    have hle := drop_eq_nil_iff.mp hdrop
    rw [Nat.sub_eq_zero_of_le hle] at h
    cases h
    simp [startsTrivia, isLineCommentStart, isBlockCommentStart]
  | cons character rest =>
    have hlt := lt_length_of_drop_eq_cons hdrop
    obtain ⟨fuel, hfuel⟩ := Nat.exists_eq_add_of_le' (by omega : 1 ≤ sql.length - start)
    rw [hfuel, skipTriviaLoop, hdrop] at h
    dsimp only at h
    split_ifs at h with hspace hline hblock
    · have := le_of_skipTriviaLoop h
      exact iff_of_true (by omega) (by simp [startsTrivia, hspace])
    · have := le_of_skipTriviaLoop h
      exact iff_of_true (by have := lt_skipLineComment hlt; omega) (by simp [startsTrivia, hline])
    · obtain ⟨after, hafter, hrest⟩ := bind_eq_ok.mp h
      have := le_of_skipTriviaLoop hrest
      have := (skipBlockComment_within hafter).1
      exact iff_of_true (by omega) (by simp [startsTrivia, hblock])
    · cases h
      exact iff_of_false (lt_irrefl _) (by simp [startsTrivia, hspace, hline, hblock])

theorem skipTriviaLoop_fuel (h : sql.length ≤ start + fuel) (h' : sql.length ≤ start + fuel') :
    skipTriviaLoop sql fuel start = skipTriviaLoop sql fuel' start := by
  induction fuel generalizing start fuel' with
  | zero =>
    have hdrop : sql.drop start = [] := drop_eq_nil_iff.mpr (by omega)
    cases fuel' with
    | zero => rfl
    | succ fuel' => rw [skipTriviaLoop, skipTriviaLoop, hdrop]
  | succ fuel ih =>
    cases fuel' with
    | zero =>
      have hdrop : sql.drop start = [] := drop_eq_nil_iff.mpr (by omega)
      rw [skipTriviaLoop, skipTriviaLoop, hdrop]
    | succ fuel' =>
      rw [skipTriviaLoop, skipTriviaLoop]
      cases hdrop : sql.drop start with
      | nil => rfl
      | cons character rest =>
        have hlt := lt_length_of_drop_eq_cons hdrop
        have hline := lt_skipLineComment hlt
        dsimp only
        rw [@ih (start + 1) fuel' (by omega) (by omega),
          @ih (skipLineComment sql start) fuel' (by omega) (by omega)]
        cases hskip : skipBlockComment sql start with
        | error error => rfl
        | ok after =>
          have hafter := (skipBlockComment_within hskip).1
          have hrest := @ih after fuel' (by omega) (by omega)
          split_ifs
          · rfl
          · rfl
          · exact hrest
          · rfl

/-- The body of a scan goes on by a character at least. -/
def VisitAdvances (visit : ℕ → Char → σ → ScanResult (Visit σ α)) : Prop :=
  ∀ index character state next state', visit index character state = .ok (.goOn next state') →
    index < next

theorem scanCode_fuel {visit : ℕ → Char → σ → ScanResult (Visit σ α)}
    {atEnd : σ → ScanResult α} (hvisit : VisitAdvances visit) {state : σ}
    (h : stop ≤ index + fuel) (h' : stop ≤ index + fuel') :
    scanCode sql stop visit atEnd fuel index state =
      scanCode sql stop visit atEnd fuel' index state := by
  induction fuel generalizing index fuel' state with
  | zero =>
    cases fuel' with
    | zero => rfl
    | succ fuel' => rw [scanCode, scanCode, if_pos (by omega)]
  | succ fuel ih =>
    cases fuel' with
    | zero => rw [scanCode, scanCode, if_pos (by omega)]
    | succ fuel' =>
      rw [scanCode, scanCode]
      split_ifs with hstop
      · rfl
      cases hskip : skipNonCode sql index with
      | error error => rfl
      | ok skipped =>
        cases skipped with
        | some next =>
          have hnext := lt_of_skipNonCode hskip
          exact ih (by omega) (by omega)
        | none =>
          cases hcharacter : sql[index]? with
          | none => rfl
          | some character =>
            show (visit index character state).bind _ = (visit index character state).bind _
            cases hpart : visit index character state with
            | error error => rfl
            | ok part =>
              cases part with
              | done result => rfl
              | goOn next state' =>
                have hnext := hvisit _ _ _ _ _ hpart
                exact ih (by omega) (by omega)

theorem visitParenthesis_advances : VisitAdvances visitParenthesis := by
  intro index character depth next depth' h
  rcases visitParenthesis_cases character depth with ⟨depth'', hgo⟩ | ⟨-, hdone⟩
  · rw [hgo] at h
    cases h
    exact Nat.lt_succ_self _
  · rw [hdone] at h
    cases h

/-- A closing parenthesis of code before which as many parentheses are closed as opened. -/
structure Balances (tables : PythonTables) (sql : List Char) (openIndex closeIndex : ℕ) : Prop where
  lt : openIndex < closeIndex
  code : CodeAt tables sql closeIndex
  character : sql[closeIndex]? = some ')'
  depth : parenthesisDepth tables sql (openIndex + 1) closeIndex = 0

/-- Before the first parenthesis that balances the opening one, no depth is negative. -/
theorem matchingParenthesis_iff_first {closeIndex : ℕ} :
    MatchingParenthesis tables sql openIndex closeIndex ↔
      Balances tables sql openIndex closeIndex ∧
        ∀ earlier < closeIndex, ¬ Balances tables sql openIndex earlier := by
  constructor
  · intro h
    refine ⟨⟨h.lt, h.code, h.character, h.depth⟩, fun earlier hearlier hbalances => ?_⟩
    have hmatching : MatchingParenthesis tables sql openIndex earlier :=
      ⟨hbalances.lt, hbalances.code, hbalances.character, hbalances.depth,
        fun index hindex hle => h.inside index hindex (by omega)⟩
    exact absurd (hmatching.unique h) hearlier.ne
  · rintro ⟨h, hfirst⟩
    refine ⟨h.lt, h.code, h.character, h.depth, fun index hindex => ?_⟩
    induction index, hindex using Nat.le_induction with
    | base => simp
    | succ index hindex ih =>
      intro hle
      have hbefore := ih (by omega)
      have hopen : openIndex < index := hindex
      have hbalances := hfirst index hle
      have hsucc : parenthesisDepth tables sql (openIndex + 1) (index + 1) =
          parenthesisDepth tables sql (openIndex + 1) index + bracketAt tables '(' ')' sql index :=
        depthBetween_succ
      by_contra hnegative
      -- only a parenthesis that closes depth zero makes the depth negative
      unfold bracketAt at hsucc
      split_ifs at hsucc with hcode hopening hclosing
      · omega
      · exact hbalances ⟨hopen, hcode, hclosing, by omega⟩
      · omega
      · omega

theorem CodeAt.read_succ (hcode : CodeAt tables sql openIndex)
    (hopen : sql[openIndex]? = some '(') : CodeRead tables sql 0 (openIndex + 1) := by
  refine hcode.codeRead.visit ⟨hcode.line, hcode.block, fun character hcharacter => ?_⟩ hopen
  rw [head?_drop, hopen] at hcharacter
  cases hcharacter
  rfl

theorem findMatchingParenthesis_eq_ok_iff (hcode : CodeAt tables sql openIndex)
    (hopen : sql[openIndex]? = some '(') (context : String) (closeIndex : ℕ) :
    findMatchingParenthesis sql openIndex context = .ok closeIndex ↔
      MatchingParenthesis tables sql openIndex closeIndex := by
  have houtcome := findMatchingParenthesis_outcome (hcode.read_succ hopen) context
  cases hfind : findMatchingParenthesis sql openIndex context with
  | error error =>
    rw [hfind] at houtcome
    exact iff_of_false (by simp) (houtcome closeIndex)
  | ok found =>
    rw [hfind] at houtcome
    constructor
    · intro heq
      exact Except.ok.inj heq ▸ houtcome.2
    · intro h
      rw [houtcome.2.unique h]

/-- The matcher returns the first closing parenthesis of code that balances the opening one, and
returns where there is one; each step of a scan goes on within the text, `skip_trivia` where there
is something to skip; and the loops end, however long they are let run. -/
theorem parenthesisMatcher_exact (tables : PythonTables) (sql : List Char) :
    (∀ openIndex context, CodeAt tables sql openIndex → sql[openIndex]? = some '(' →
      ((∃ closeIndex, findMatchingParenthesis sql openIndex context = .ok closeIndex) ↔
        ∃ closeIndex, Balances tables sql openIndex closeIndex) ∧
      ∀ closeIndex, findMatchingParenthesis sql openIndex context = .ok closeIndex ↔
        Balances tables sql openIndex closeIndex ∧
          ∀ earlier < closeIndex, ¬ Balances tables sql openIndex earlier) ∧
    (∀ start quote next, sql[start]? = some quote →
      skipQuotedText sql start quote = .ok next → StepsWithin sql start next) ∧
    (∀ start < sql.length, StepsWithin sql start (skipLineComment sql start)) ∧
    (∀ start next, skipBlockComment sql start = .ok next → StepsWithin sql start next) ∧
    (∀ start next, skipNonCode sql start = .ok (some next) → StepsWithin sql start next) ∧
    (∀ start next, start ≤ sql.length → skipTrivia sql start = .ok next →
      start ≤ next ∧ next ≤ sql.length ∧
        (start < next ↔ startsTrivia (sql.drop start) = true)) ∧
    (∀ start fuel, sql.length ≤ start + fuel →
      skipTriviaLoop sql fuel start = skipTrivia sql start) ∧
    (∀ (σ α : Type) (visit : ℕ → Char → σ → ScanResult (Visit σ α)) (atEnd : σ → ScanResult α),
      VisitAdvances visit → ∀ stop index fuel fuel' state, stop ≤ index + fuel →
        stop ≤ index + fuel' → scanCode sql stop visit atEnd fuel index state =
          scanCode sql stop visit atEnd fuel' index state) ∧
    VisitAdvances visitParenthesis := by
  refine ⟨?_, fun _ _ _ _ h => skipQuotedText_within h, fun _ h => skipLineComment_within h,
    fun _ _ h => skipBlockComment_within h, fun _ _ h => skipNonCode_within h, ?_, ?_, ?_,
    visitParenthesis_advances⟩
  · intro openIndex context hcode hopen
    have hfound : ∀ closeIndex, findMatchingParenthesis sql openIndex context = .ok closeIndex ↔
        Balances tables sql openIndex closeIndex ∧
          ∀ earlier < closeIndex, ¬ Balances tables sql openIndex earlier := by
      intro closeIndex
      rw [findMatchingParenthesis_eq_ok_iff hcode hopen, matchingParenthesis_iff_first]
    refine ⟨⟨?_, ?_⟩, hfound⟩
    · rintro ⟨closeIndex, h⟩
      exact ⟨closeIndex, ((hfound closeIndex).mp h).1⟩
    · intro h
      classical
      exact ⟨Nat.find h, (hfound _).mpr ⟨Nat.find_spec h, fun _ hlt => Nat.find_min h hlt⟩⟩
  · intro start next hstart h
    exact ⟨le_of_skipTrivia h, skipTriviaLoop_within h hstart, skipTrivia_lt_iff h⟩
  · intro start fuel hfuel
    exact skipTriviaLoop_fuel hfuel (by omega)
  · intro σ α visit atEnd hvisit stop index fuel fuel' state hfuel hfuel'
    exact scanCode_fuel hvisit hfuel hfuel'

/-- The parenthesis in quotes is not the one that closes, and behind it a quote stays open. -/
theorem parenthesisMatcher_exact_open_quote :
    findMatchingParenthesis "(')')'".toList 0 "call" = .ok 4 ∧
      Balances asciiTables "(')')'".toList 0 4 :=
  have hfound := ((parenthesisMatcher_exact asciiTables "(')')'".toList).1 0 "call"
    (by decide) rfl).2 4
  ⟨rfl, (hfound.mp rfl).1⟩

/-- `skip_trivia` stays where there is nothing to skip. -/
theorem skipTrivia_stays :
    ¬ ∀ (sql : List Char) (start next : ℕ), start < sql.length →
      skipTrivia sql start = .ok next → StepsWithin sql start next := by
  intro h
  have hsteps := h ['x'] 0 0 (by decide) rfl
  exact absurd hsteps.1 (lt_irrefl 0)

end SqlTide.SqlText
