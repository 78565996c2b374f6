import SqlTide.SqlText.CodePositions

/-!
# Brackets of code

The depth of a text at an index counts the brackets outside of comments and quoted text. A
parenthesis is closed where the depth beyond it gets negative.
-/

namespace SqlTide.SqlText

variable {tables : PythonTables} {sql : List Char} {character : Char} {start index next : ℕ}

/-- What a character of code adds to the depth. -/
def bracketAt (tables : PythonTables) (opening closing : Char) (sql : List Char) (index : ℕ) : ℤ :=
  if CodeAt tables sql index then
    if sql[index]? = some opening then 1 else if sql[index]? = some closing then -1 else 0
  else 0

/-- How many more brackets are opened than closed up to an index. -/
def depthTo (tables : PythonTables) (opening closing : Char) (sql : List Char) : ℕ → ℤ
  | 0 => 0
  | index + 1 => depthTo tables opening closing sql index + bracketAt tables opening closing
    sql index

/-- How many more brackets are opened than closed in a range. -/
def depthBetween (tables : PythonTables) (opening closing : Char) (sql : List Char)
    (start index : ℕ) : ℤ :=
  depthTo tables opening closing sql index - depthTo tables opening closing sql start

variable {opening closing : Char}

@[simp] theorem depthBetween_self : depthBetween tables opening closing sql start start = 0 :=
  sub_self _

theorem depthBetween_succ : depthBetween tables opening closing sql start (index + 1) =
    depthBetween tables opening closing sql start index + bracketAt tables opening closing sql
      index := by
  unfold depthBetween
  rw [depthTo]
  ring

theorem depthBetween_add : depthBetween tables opening closing sql start index +
    depthBetween tables opening closing sql index next =
      depthBetween tables opening closing sql start next := by
  unfold depthBetween
  ring

theorem depthBetween_eq_zero (hle : start ≤ index)
    (h : ∀ between, start ≤ between → between < index →
      bracketAt tables opening closing sql between = 0) :
    depthBetween tables opening closing sql start index = 0 := by
  induction index, hle using Nat.le_induction with
  | base => exact depthBetween_self
  | succ index hle ih =>
    rw [depthBetween_succ, h index hle (Nat.lt_succ_self index), add_zero]
    exact ih fun between hstart hlt => h between hstart (hlt.trans (Nat.lt_succ_self index))

theorem bracketAt_of_not_code (h : ¬ CodeAt tables sql index) :
    bracketAt tables opening closing sql index = 0 := if_neg h

variable {inside openIndex closeIndex : ℕ}

section

variable (hread : CodeRead tables sql 0 index) (hskip : skipNonCode sql index = .ok (some next))
  (hopening : isQuote opening = false) (hclosing : isQuote closing = false) (hle : index ≤ inside)

include hread hskip hopening hclosing hle

theorem bracketAt_of_skip (hlt : inside < next) :
    bracketAt tables opening closing sql inside = 0 := by
  by_cases hcode : CodeAt tables sql inside
  · obtain ⟨-, character, hcharacter, hquote⟩ := isQuote_of_codeAt_skip hread hskip hle hlt hcode
    rw [bracketAt, if_pos hcode, Option.mem_def.mp hcharacter, if_neg, if_neg]
    · rintro heq
      rw [Option.some.inj heq, hclosing] at hquote
      cases hquote
    · rintro heq
      rw [Option.some.inj heq, hopening] at hquote
      cases hquote
  · exact bracketAt_of_not_code hcode

theorem depthBetween_of_skip
    (hlt : inside ≤ next) : depthBetween tables opening closing sql start inside =
      depthBetween tables opening closing sql start index := by
  have hzero : depthBetween tables opening closing sql index inside = 0 :=
    depthBetween_eq_zero hle fun between hle' hlt' =>
      bracketAt_of_skip hread hskip hopening hclosing hle' (by omega)
  rw [← @depthBetween_add _ _ start index, hzero, add_zero]

end

theorem bracketAt_of_visit (hread : CodeRead tables sql 0 index)
    (hstart : CodeStart (sql.drop index)) (hcharacter : sql[index]? = some character)
    (hopening : pythonIsspace opening = false) (hclosing : pythonIsspace closing = false) :
    bracketAt tables opening closing sql index =
      if character = opening then 1 else if character = closing then -1 else 0 := by
  rw [bracketAt, hcharacter]
  simp only [Option.some.injEq]
  by_cases hspace : pythonIsspace character = false
  · rw [if_pos (codeAt_of_codeStart hread hstart hcharacter hspace)]
  · have hopening' : character ≠ opening := by
      rintro rfl
      exact hspace hopening
    have hclosing' : character ≠ closing := by
      rintro rfl
      exact hspace hclosing
    simp [hopening', hclosing']

abbrev parenthesisDepth (tables : PythonTables) : List Char → ℕ → ℕ → ℤ :=
  depthBetween tables '(' ')'

/-- The parenthesis that closes the one at an index. -/
structure MatchingParenthesis (tables : PythonTables) (sql : List Char)
    (openIndex closeIndex : ℕ) : Prop where
  lt : openIndex < closeIndex
  code : CodeAt tables sql closeIndex
  character : sql[closeIndex]? = some ')'
  depth : parenthesisDepth tables sql (openIndex + 1) closeIndex = 0
  inside : ∀ index, openIndex < index → index ≤ closeIndex →
    0 ≤ parenthesisDepth tables sql (openIndex + 1) index

theorem MatchingParenthesis.depth_succ (h : MatchingParenthesis tables sql openIndex closeIndex) :
    parenthesisDepth tables sql (openIndex + 1) (closeIndex + 1) = -1 := by
  have hlt := h.lt
  have hdepth : depthBetween tables '(' ')' sql (openIndex + 1) closeIndex = 0 := h.depth
  rw [parenthesisDepth, depthBetween_succ, hdepth, bracketAt, if_pos h.code, h.character]
  rfl

theorem MatchingParenthesis.unique {closeIndex' : ℕ}
    (h : MatchingParenthesis tables sql openIndex closeIndex)
    (h' : MatchingParenthesis tables sql openIndex closeIndex') : closeIndex = closeIndex' := by
  have hlt := h.lt
  have hlt' := h'.lt
  have hdepth := h.depth_succ
  have hdepth' := h'.depth_succ
  rcases Nat.lt_trichotomy closeIndex closeIndex' with hlt | heq | hlt
  · have := h'.inside (closeIndex + 1) (by omega) (by omega)
    omega
  · exact heq
  · have := h.inside (closeIndex' + 1) (by omega) (by omega)
    omega

/-- What `find_matching_parenthesis` comes to. -/
def MatchingOutcome (tables : PythonTables) (sql : List Char) (openIndex : ℕ) :
    ScanResult ℕ → Prop
  | .ok closeIndex => CodeRead tables sql 0 (closeIndex + 1) ∧
      MatchingParenthesis tables sql openIndex closeIndex
  | .error _ => ∀ closeIndex, ¬ MatchingParenthesis tables sql openIndex closeIndex

/-- `find_matching_parenthesis` finds the parenthesis, or there is none. -/
theorem findMatchingParenthesis_outcome
    (hread : CodeRead tables sql 0 (openIndex + 1)) (context : String) :
    MatchingOutcome tables sql openIndex (findMatchingParenthesis sql openIndex context) := by
  have hstop := hread.stop
  refine scanCode_outcome_of_error (I := fun index (depth : ℕ) => CodeRead tables sql 0 index ∧
      openIndex < index ∧ 0 < depth ∧
      (depth : ℤ) = 1 + parenthesisDepth tables sql (openIndex + 1) index ∧
      ∀ between, openIndex < between → between ≤ index →
        0 ≤ parenthesisDepth tables sql (openIndex + 1) between)
    (fun index depth h => (h.1 : CodeRead tables sql 0 index)) ?_ ?_ ?_ ?_ _ ?_ ?_
  · rintro index depth next ⟨hindex, hlt, hpositive, hdepth, hinside⟩ - hskip
    have hnext := lt_of_skipNonCode hskip
    have hsame : ∀ between, index ≤ between → between ≤ next →
        parenthesisDepth tables sql (openIndex + 1) between =
          parenthesisDepth tables sql (openIndex + 1) index :=
      fun between hle hle' => depthBetween_of_skip hindex hskip rfl rfl hle hle'
    refine ⟨hindex.skip hskip, by omega, hpositive, ?_, ?_⟩
    · rw [hsame next (by omega) le_rfl, hdepth]
    · intro between hlt' hle
      rcases Nat.le_total between index with hbefore | hafter
      · exact hinside between hlt' hbefore
      · rw [hsame between hafter hle]
        exact hinside index hlt le_rfl
  · rintro index depth error ⟨hindex, -, -, -, hinside⟩ - hskip closeIndex hmatching
    -- the parenthesis would stand after what is never closed, or its depth is negative before
    rcases Nat.lt_or_ge closeIndex index with hbefore | hafter
    · have hopen := hmatching.lt
      have hsucc := hmatching.depth_succ
      have := hinside (closeIndex + 1) (by omega) (by omega)
      omega
    · obtain ⟨character, hcharacter, hquote⟩ :=
        isQuote_of_codeAt_skip_error hindex hskip hafter hmatching.code
      rw [hmatching.character] at hcharacter
      cases hcharacter
      cases hquote
  · rintro index depth character ⟨hindex, hlt, hpositive, hdepth, hinside⟩ - hskip hcharacter
    have hstart := codeStart_of_skipNonCode hskip
    have hread' := hindex.visit hstart hcharacter
    have hsucc : parenthesisDepth tables sql (openIndex + 1) (index + 1) =
        parenthesisDepth tables sql (openIndex + 1) index + bracketAt tables '(' ')' sql index :=
      depthBetween_succ
    rw [bracketAt_of_visit hindex hstart hcharacter rfl rfl] at hsucc
    -- the depth that is counted goes along with the one of the positions
    have hgo : ∀ {depth' : ℕ}, 0 < depth' →
        (depth' : ℤ) = 1 + parenthesisDepth tables sql (openIndex + 1) (index + 1) →
        index < index + 1 ∧ CodeRead tables sql 0 (index + 1) ∧ openIndex < index + 1 ∧
          0 < depth' ∧ (depth' : ℤ) = 1 + parenthesisDepth tables sql (openIndex + 1) (index + 1) ∧
          ∀ between, openIndex < between → between ≤ index + 1 →
            0 ≤ parenthesisDepth tables sql (openIndex + 1) between := by
      intro depth' hpositive' hdepth'
      refine ⟨by omega, hread', by omega, hpositive', hdepth', fun between hlt' hle => ?_⟩
      rcases Nat.lt_or_ge index between with hafter | hbefore
      · obtain rfl : between = index + 1 := by omega
        omega
      · exact hinside between hlt' hbefore
    split_ifs with hopen hclose hlast
    · rw [if_pos hopen] at hsucc
      exact hgo (by omega) (by push_cast; omega)
    · have hcode : CodeAt tables sql index :=
        codeAt_of_codeStart hindex hstart hcharacter (by rw [hclose]; rfl)
      exact ⟨hread', hlt, hcode, by rw [hcharacter, hclose], by omega, hinside⟩
    · rw [if_neg hopen, if_pos hclose] at hsucc
      exact hgo (by omega) (by omega)
    · rw [if_neg hopen, if_neg hclose] at hsucc
      exact hgo hpositive (by omega)
  · rintro index depth ⟨hindex, hlt, hpositive, hdepth, hinside⟩ hend closeIndex hmatching
    have hclose := hmatching.code.lt_length
    have hsucc := hmatching.depth_succ
    have hopen := hmatching.lt
    have := hinside (closeIndex + 1) (by omega) (by omega)
    omega
  · omega
  · refine ⟨hread, by omega, by omega, by simp, fun between hlt hle => ?_⟩
    obtain rfl : between = openIndex + 1 := by omega
    simp

end SqlTide.SqlText
