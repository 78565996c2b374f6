import Mathlib
import SqlTide.SqlText.BracketDepth

/-!
# Projection spans

The outer SELECT list of a text is split at its commas. The scan counts parentheses, and square
brackets are characters like others to it.
-/

namespace SqlTide.SqlText

open Foundations List

def selectKeyword : List Char := "select".toList

def fromKeyword : List Char := "from".toList

/-- A letter of a keyword without regard to case: the long s is an s. -/
def foldsTo (expected actual : Char) : Bool :=
  actual.toLower = expected || (expected = 's' && actual = 'ſ')

section
variable (tables : PythonTables)

def keywordMatch (sql : List Char) (index : ℕ) : Option ℕ :=
  if 0 < index ∧ (sql[index - 1]?).any (isIdentifierCharacter tables) = true then none
  else [selectKeyword, fromKeyword].findSome? fun keyword =>
    let stop := index + keyword.length
    if stop ≤ sql.length ∧
        ((keyword.zip ((sql.take stop).drop index)).all fun (expected, actual) =>
          foldsTo expected actual) = true ∧
        (sql[stop]?).all (fun character => !isIdentifierCharacter tables character) = true then
      some stop
    else none

/-- The first loop of `outer_projection_spans`, to where the list starts and where it ends: each
iteration goes on by a character at least. -/
def projectionListLoop (sql : List Char) :
    ℕ → ℕ → Option ℕ → ℤ → ScanResult (Option ℕ × ℕ)
  | 0, _, projectionStart, _ => .ok (projectionStart, sql.length)
  | fuel + 1, index, projectionStart, depth =>
    if sql.length ≤ index then .ok (projectionStart, sql.length)
    else
      match keywordMatch tables sql index with
      | some keywordEnd =>
        if depth = 0 then
          if keywordEnd - index = selectKeyword.length then
            projectionListLoop sql fuel keywordEnd (some keywordEnd) depth
          else if projectionStart.isSome then .ok (projectionStart, index)
          else projectionListLoop sql fuel keywordEnd projectionStart depth
        else projectionListLoop sql fuel keywordEnd projectionStart depth
      | none => do
        match ← skipNonCode sql index, sql[index]? with
        | some next, _ => projectionListLoop sql fuel next projectionStart depth
        | none, some '(' => projectionListLoop sql fuel (index + 1) projectionStart (depth + 1)
        | none, some ')' => projectionListLoop sql fuel (index + 1) projectionStart (depth - 1)
        | none, _ => projectionListLoop sql fuel (index + 1) projectionStart depth

end

def trimmedSpan (sql : List Char) (start stop : ℕ) : SourceSpan :=
  let start := start + (((sql.take stop).drop start).takeWhile pythonIsspace).length
  let stop := stop - (((sql.take stop).drop start).rtakeWhile pythonIsspace).length
  sourceSpan sql start stop

/-- What the loop of `split_projection_spans` has gone through. -/
structure ProjectionScan where
  spans : List SourceSpan
  projectionStart : ℕ
  depth : ℤ

def splitProjectionSpans (sql : List Char) (start stop : ℕ) : ScanResult (List SourceSpan) :=
  scanCode sql stop
    (fun index character (scan : ProjectionScan) =>
      if character = '(' then .ok (.goOn (index + 1) { scan with depth := scan.depth + 1 })
      else if character = ')' then .ok (.goOn (index + 1) { scan with depth := scan.depth - 1 })
      else if character = ',' ∧ scan.depth = 0 then
        .ok (.goOn (index + 1)
          { scan with
            spans := scan.spans ++ [trimmedSpan sql scan.projectionStart index]
            projectionStart := index + 1 })
      else .ok (.goOn (index + 1) scan))
    (fun scan => .ok (scan.spans ++ [trimmedSpan sql scan.projectionStart stop]))
    (stop - start) start ⟨[], start, 0⟩

def outerProjectionSpans (tables : PythonTables) (sql : List Char) :
    ScanResult (List SourceSpan) := do
  match ← projectionListLoop tables sql sql.length 0 none 0 with
  | (none, _) => .error (.unlocated "Outer SELECT projection list could not be located")
  | (some projectionStart, projectionEnd) => splitProjectionSpans sql projectionStart projectionEnd

variable {tables : PythonTables} {sql text rest : List Char} {character expected : Char}
  {start stop index next : ℕ}

/-- The letters of the keywords. -/
def IsKeywordLetter (expected : Char) : Prop := expected ∈ selectKeyword ++ fromKeyword

theorem foldsTo_unique {expected' : Char} (h : foldsTo expected character = true)
    (h' : foldsTo expected' character = true) (hexpected : IsKeywordLetter expected)
    (hexpected' : IsKeywordLetter expected') : expected = expected' := by
  have hlong : 'ſ'.toLower = 'ſ' := by decide
  have hnone : (selectKeyword ++ fromKeyword).any (· = 'ſ') = false := by decide
  have hcases : ∀ {expected : Char}, foldsTo expected character = true → IsKeywordLetter expected →
      (character ≠ 'ſ' ∧ character.toLower = expected) ∨ (character = 'ſ' ∧ expected = 's') := by
    intro expected h hexpected
    rcases Bool.or_eq_true_iff.mp h with h | h
    · have hlower : character.toLower = expected := of_decide_eq_true h
      refine Or.inl ⟨?_, hlower⟩
      rintro rfl
      exact any_eq_false.mp hnone expected hexpected (by simp [← hlower, hlong])
    · simp only [Bool.and_eq_true, decide_eq_true_eq] at h
      exact Or.inr ⟨h.2, h.1⟩
  rcases hcases h hexpected with ⟨hother, hlower⟩ | ⟨hlong, hs⟩
  · rcases hcases h' hexpected' with ⟨-, hlower'⟩ | ⟨hlong', -⟩
    · exact hlower.symm.trans hlower'
    · exact absurd hlong' hother
  · rcases hcases h' hexpected' with ⟨hother', -⟩ | ⟨-, hs'⟩
    · exact absurd hlong hother'
    · rw [hs, hs']

theorem ne_of_foldsTo (hexpected : IsKeywordLetter expected) (h : foldsTo expected character = true)
    (other : Char) (hother : (selectKeyword ++ fromKeyword).any (foldsTo · other) = false) :
    character ≠ other := by
  rintro rfl
  exact any_eq_false.mp hother expected hexpected h

theorem codeStart_of_foldsTo (hexpected : IsKeywordLetter expected)
    (h : foldsTo expected character = true) : CodeStart (character :: rest) where
  line := by
    have hdash := ne_of_foldsTo hexpected h '-' (by decide)
    have hhash := ne_of_foldsTo hexpected h '#' (by decide)
    simp [isLineCommentStart, isPrefixOf, Ne.symm hdash, Ne.symm hhash]
  block := by
    have hslash := ne_of_foldsTo hexpected h '/' (by decide)
    simp [isBlockCommentStart, isPrefixOf, Ne.symm hslash]
  quote _ hcharacter := by
    cases hcharacter
    simp [isQuote, ne_of_foldsTo hexpected h '\'' (by decide),
      ne_of_foldsTo hexpected h '"' (by decide),
      ne_of_foldsTo hexpected h '`' (by decide)]

theorem not_isAlpha_of_isspace (h : pythonIsspace character = true) :
    character.isAlpha = false := by
  cases halpha : character.isAlpha with
  | false => rfl
  | true =>
    exfalso
    simp only [Char.isAlpha, Char.isUpper, Char.isLower, Bool.or_eq_true, Bool.and_eq_true,
      decide_eq_true_eq, ge_iff_le, UInt32.le_iff_toNat_le] at halpha
    have hlow : 'A'.val.toNat = 65 ∧ 'Z'.val.toNat = 90 ∧ 'a'.val.toNat = 97 ∧
      'z'.val.toNat = 122 := by
      decide
    have hval : character.toNat = character.val.toNat := rfl
    simp only [pythonIsspace, hval, Bool.or_eq_true, Bool.and_eq_true, decide_eq_true_eq] at h
    omega

theorem not_isspace_of_foldsTo (hexpected : IsKeywordLetter expected)
    (h : foldsTo expected character = true) : pythonIsspace character = false := by
  cases hspace : pythonIsspace character with
  | false => rfl
  | true =>
    exfalso
    rcases Bool.or_eq_true_iff.mp h with h | h
    · have hupper : ¬ (character.val ≥ 'A'.val ∧ character.val ≤ 'Z'.val) := by
        intro hupper
        have halpha : character.isAlpha = true := by
          simp only [Char.isAlpha, Char.isUpper, Bool.or_eq_true, decide_eq_true_eq]
          exact Or.inl hupper
        rw [not_isAlpha_of_isspace hspace] at halpha
        cases halpha
      have hlower : character.toLower = expected := of_decide_eq_true h
      rw [Char.toLower, dif_neg hupper] at hlower
      have hletters : (selectKeyword ++ fromKeyword).any pythonIsspace = false := by decide
      exact any_eq_false.mp hletters expected hexpected (hlower ▸ hspace)
    · simp only [Bool.and_eq_true, decide_eq_true_eq] at h
      rw [h.2] at hspace
      exact absurd hspace (by decide)

section

variable (h : keywordMatch tables sql index = some stop)

include h

theorem keywordMatch_some :
    ∃ keyword, (keyword = selectKeyword ∨ keyword = fromKeyword) ∧ stop = index + keyword.length ∧
      stop ≤ sql.length ∧ ∀ offset (hoffset : offset < keyword.length),
        ∃ character, sql[index + offset]? = some character ∧
          foldsTo keyword[offset] character = true := by
  unfold keywordMatch at h
  split_ifs at h
  obtain ⟨keyword, hkeyword, hmatch⟩ := exists_of_findSome?_eq_some h
  dsimp only at hmatch
  split_ifs at hmatch with hword
  cases hmatch
  obtain ⟨hlength, hletters, -⟩ := hword
  refine ⟨keyword, by simpa using hkeyword, rfl, hlength, fun offset hoffset => ?_⟩
  have hlt : offset < ((sql.take (index + keyword.length)).drop index).length := by
    rw [length_drop, length_take]
    omega
  have hmem : (keyword[offset], ((sql.take (index + keyword.length)).drop index)[offset]) ∈
      keyword.zip ((sql.take (index + keyword.length)).drop index) := by
    rw [← getElem_zip (h := by rw [length_zip]; omega)]
    exact getElem_mem _
  refine ⟨_, ?_, all_eq_true.mp hletters _ hmem⟩
  rw [← getElem?_eq_getElem, getElem?_drop, getElem?_take, if_pos (by omega)]

theorem exists_letter (hle : index ≤ next)
    (hlt : next < stop) : ∃ expected character, IsKeywordLetter expected ∧
      sql[next]? = some character ∧ foldsTo expected character = true := by
  obtain ⟨keyword, hkeyword, rfl, -, hletters⟩ := keywordMatch_some h
  obtain ⟨offset, rfl⟩ := Nat.exists_eq_add_of_le hle
  have hoffset : offset < keyword.length := by omega
  obtain ⟨character, hcharacter, hfolds⟩ := hletters offset hoffset
  refine ⟨keyword[offset], character, ?_, hcharacter, hfolds⟩
  rcases hkeyword with rfl | rfl
  · exact mem_append_left _ (getElem_mem hoffset)
  · exact mem_append_right _ (getElem_mem hoffset)

theorem keywordMatch_inside (hlt : index < next)
    (hstop : next < stop) : keywordMatch tables sql next = none := by
  cases hnext : keywordMatch tables sql next with
  | none => rfl
  | some stop' =>
    exfalso
    obtain ⟨keyword, hkeyword, rfl, -, hletters⟩ := keywordMatch_some h
    obtain ⟨keyword', hkeyword', rfl, -, hletters'⟩ := keywordMatch_some hnext
    obtain ⟨offset, rfl⟩ := Nat.exists_eq_add_of_lt hlt
    have hoffset : offset + 1 < keyword.length := by omega
    have hfirst : 0 < keyword'.length := by
      rcases hkeyword' with rfl | rfl <;> decide
    obtain ⟨character, hcharacter, hfolds⟩ := hletters (offset + 1) hoffset
    obtain ⟨character', hcharacter', hfolds'⟩ := hletters' 0 hfirst
    rw [← Nat.add_assoc, Nat.add_zero] at *
    rw [hcharacter] at hcharacter'
    cases hcharacter'
    have hletter : ∀ {keyword : List Char}, keyword = selectKeyword ∨ keyword = fromKeyword →
        ∀ {offset : ℕ} (hoffset : offset < keyword.length), IsKeywordLetter keyword[offset] := by
      rintro keyword (rfl | rfl) offset hoffset
      · exact mem_append_left _ (getElem_mem hoffset)
      · exact mem_append_right _ (getElem_mem hoffset)
    have hsame :=
      foldsTo_unique hfolds hfolds' (hletter hkeyword hoffset) (hletter hkeyword' hfirst)
    -- neither keyword has the first letter of one of them further on
    have htail : keyword.tail.any (fun letter => keyword'.head?.any (· = letter)) = false := by
      rcases hkeyword with rfl | rfl <;> rcases hkeyword' with rfl | rfl <;> decide
    have hmem : keyword[offset + 1] ∈ keyword.tail := by
      rw [← getElem_tail (by rw [length_tail]; omega)]
      exact getElem_mem _
    have hhead : keyword'.head? = some keyword'[0] := head?_eq_getElem? ▸ getElem?_eq_getElem hfirst
    exact any_eq_false.mp htail _ hmem (by simp [hhead, hsame])

theorem keywordMatch_bounds : index < stop ∧ stop ≤ sql.length := by
  obtain ⟨keyword, hkeyword, rfl, hlength, -⟩ := keywordMatch_some h
  have hpositive : 0 < keyword.length := by
    rcases hkeyword with rfl | rfl <;> decide
  exact ⟨by omega, hlength⟩

theorem codeStart_of_keyword (hle : index ≤ next)
    (hlt : next < stop) : CodeStart (sql.drop next) := by
  obtain ⟨expected, character, hexpected, hcharacter, hfolds⟩ := exists_letter h hle hlt
  rw [drop_eq_cons hcharacter]
  exact codeStart_of_foldsTo hexpected hfolds

end

theorem CodeRead.keyword (hread : CodeRead tables sql start index)
    (h : keywordMatch tables sql index = some stop) : CodeRead tables sql start stop := by
  obtain ⟨hlt, hstop⟩ := keywordMatch_bounds h
  obtain ⟨length, rfl⟩ := Nat.exists_eq_add_of_le hlt.le
  have hpiece : sql.drop index =
      (sql.take (index + length)).drop index ++ sql.drop (index + length) := by
    rw [drop_take, Nat.add_sub_cancel_left, ← drop_drop, take_append_drop]
  have hlength : ((sql.take (index + length)).drop index).length = length := by
    rw [length_drop, length_take]
    omega
  have hrun := hread.run hpiece fun character hcharacter rest => by
    obtain ⟨offset, hoffset, rfl⟩ := mem_iff_getElem.mp hcharacter
    rw [hlength] at hoffset
    obtain ⟨expected, character, hexpected, hget, hfolds⟩ :=
      exists_letter h (Nat.le_add_right index offset) (by omega)
    have hsame : ((sql.take (index + length)).drop index)[offset]? = some character := by
      rw [getElem?_drop, getElem?_take, if_pos (by omega), hget]
    obtain ⟨_, hsame⟩ := List.getElem_of_getElem? hsame
    rw [hsame]
    exact codeStart_of_foldsTo hexpected hfolds
  rwa [hlength] at hrun

theorem depthBetween_of_keyword {opening closing : Char} {inside : ℕ}
    (h : keywordMatch tables sql index = some stop)
    (hopening : (selectKeyword ++ fromKeyword).any (foldsTo · opening) = false)
    (hclosing : (selectKeyword ++ fromKeyword).any (foldsTo · closing) = false)
    (hle : index ≤ inside) (hlt : inside ≤ stop) :
    depthBetween tables opening closing sql start inside =
      depthBetween tables opening closing sql start index := by
  have hzero : depthBetween tables opening closing sql index inside = 0 := by
    apply depthBetween_eq_zero hle
    intro between hle' hlt'
    obtain ⟨expected, character, hexpected, hcharacter, hfolds⟩ :=
      exists_letter h hle' (by omega)
    have hopening := ne_of_foldsTo hexpected hfolds opening hopening
    have hclosing := ne_of_foldsTo hexpected hfolds closing hclosing
    rw [bracketAt, hcharacter]
    simp [hopening, hclosing]
  rw [← @depthBetween_add _ _ start index, hzero, add_zero]

def SelectAt (tables : PythonTables) (sql : List Char) (index : ℕ) : Prop :=
  CodeAt tables sql index ∧ keywordMatch tables sql index = some (index + selectKeyword.length)

def FromAt (tables : PythonTables) (sql : List Char) (index : ℕ) : Prop :=
  CodeAt tables sql index ∧ keywordMatch tables sql index = some (index + fromKeyword.length)

/-- Outside of all parentheses, and outside of all square brackets. -/
def OutsideAt (tables : PythonTables) (sql : List Char) (index : ℕ) : Prop :=
  parenthesisDepth tables sql 0 index = 0 ∧ depthBetween tables '[' ']' sql 0 index = 0

instance : Decidable (SelectAt tables sql index) := inferInstanceAs (Decidable (_ ∧ _))

instance : Decidable (FromAt tables sql index) := inferInstanceAs (Decidable (_ ∧ _))

instance : Decidable (OutsideAt tables sql index) := inferInstanceAs (Decidable (_ ∧ _))

/-- A range that the grammar may make the outer SELECT list: directly behind an outer SELECT and its
modifiers, up to where the next clause begins or the text ends. -/
structure OuterList (tables : PythonTables) (sql : List Char) (start stop : ℕ) : Prop where
  le : start ≤ stop
  select : ∃ index, index + selectKeyword.length ≤ start ∧ SelectAt tables sql index ∧
    OutsideAt tables sql index
  behind : CodeAt tables sql (start - 1)
  outside : OutsideAt tables sql start
  ends : stop = sql.length ∨
    (CodeAt tables sql stop ∧ OutsideAt tables sql stop ∧ sql[stop]? ≠ some ',')

/-- The list that the scan comes to: square brackets are no brackets to it. -/
structure ScannedList (tables : PythonTables) (sql : List Char) (start stop : ℕ) : Prop where
  le : start ≤ stop
  select : ∃ index, start = index + selectKeyword.length ∧ SelectAt tables sql index ∧
    parenthesisDepth tables sql 0 index = 0
  last : ∀ index, start ≤ index → index < stop → SelectAt tables sql index →
    parenthesisDepth tables sql 0 index ≠ 0
  first : ∀ index between, index < between → between < stop → SelectAt tables sql index →
    parenthesisDepth tables sql 0 index = 0 → FromAt tables sql between →
    parenthesisDepth tables sql 0 between ≠ 0
  ends : (FromAt tables sql stop ∧ parenthesisDepth tables sql 0 stop = 0) ∨ stop = sql.length

theorem keyword_of_length (h : keywordMatch tables sql index = some stop) :
    stop = index + selectKeyword.length ∨ stop = index + fromKeyword.length := by
  obtain ⟨keyword, rfl | rfl, rfl, -⟩ := keywordMatch_some h
  · exact Or.inl rfl
  · exact Or.inr rfl

theorem not_fromAt_of_selectAt (h : SelectAt tables sql index) : ¬ FromAt tables sql index := by
  rintro ⟨-, hfrom⟩
  rw [h.2] at hfrom
  exact absurd (Option.some.inj hfrom) (by simp [selectKeyword, fromKeyword])

/-- What the scan knows before an index. -/
def ListBefore (tables : PythonTables) (sql : List Char) (index : ℕ) : Option ℕ → Prop
  | none => ∀ between < index, SelectAt tables sql between →
      parenthesisDepth tables sql 0 between ≠ 0
  | some start => start ≤ index ∧
      (∃ select, start = select + selectKeyword.length ∧ SelectAt tables sql select ∧
        parenthesisDepth tables sql 0 select = 0) ∧
      (∀ between, start ≤ between → between < index → SelectAt tables sql between →
        parenthesisDepth tables sql 0 between ≠ 0) ∧
      ∀ select between, select < between → between < index → SelectAt tables sql select →
        parenthesisDepth tables sql 0 select = 0 → FromAt tables sql between →
        parenthesisDepth tables sql 0 between ≠ 0

variable {projectionStart : Option ℕ}

/-- Where no keyword of the list starts, the scan knows as much as before. -/
theorem ListBefore.goOn (h : ListBefore tables sql index projectionStart) (hle : index ≤ next)
    (hselect : ∀ between, index ≤ between → between < next → SelectAt tables sql between →
      parenthesisDepth tables sql 0 between ≠ 0)
    (hfrom : ∀ between, index ≤ between → between < next → projectionStart.isSome = true →
      FromAt tables sql between → parenthesisDepth tables sql 0 between ≠ 0) :
    ListBefore tables sql next projectionStart := by
  cases projectionStart with
  | none =>
    intro between hlt
    rcases Nat.lt_or_ge between index with hbefore | hafter
    · exact h between hbefore
    · exact hselect between hafter hlt
  | some start =>
    obtain ⟨hstart, hfound, hlast, hfirst⟩ := h
    refine ⟨hstart.trans hle, hfound, fun between hbetween hlt => ?_,
      fun select between hselect' hlt hat hdepth => ?_⟩
    · rcases Nat.lt_or_ge between index with hbefore | hafter
      · exact hlast between hbetween hbefore
      · exact hselect between hafter hlt
    · rcases Nat.lt_or_ge between index with hbefore | hafter
      · exact hfirst select between hselect' hbefore hat hdepth
      · exact hfrom between hafter hlt rfl

/-- Where no keyword starts, no keyword of the list does. -/
theorem ListBefore.goOn_of_no_keyword (h : ListBefore tables sql index projectionStart)
    (hle : index ≤ next)
    (hnone : ∀ between, index ≤ between → between < next → CodeAt tables sql between →
      keywordMatch tables sql between = none) : ListBefore tables sql next projectionStart := by
  apply h.goOn hle
  · intro between hbetween hlt hat
    rw [SelectAt, hnone between hbetween hlt hat.1] at hat
    cases hat.2
  · intro between hbetween hlt _ hat
    rw [FromAt, hnone between hbetween hlt hat.1] at hat
    cases hat.2

theorem ListBefore.select (h : ListBefore tables sql index projectionStart)
    (hat : SelectAt tables sql index) (hdepth : parenthesisDepth tables sql 0 index = 0) :
    ListBefore tables sql (index + selectKeyword.length) (some (index + selectKeyword.length)) := by
  have hfrom : ∀ select between, select < between → between < index →
      SelectAt tables sql select → parenthesisDepth tables sql 0 select = 0 →
      FromAt tables sql between → parenthesisDepth tables sql 0 between ≠ 0 := by
    cases projectionStart with
    | none =>
      intro select between hlt hbetween hselect hzero
      exact absurd hzero (h select (hlt.trans hbetween) hselect)
    | some start => exact h.2.2.2
  refine ⟨le_rfl, ⟨index, rfl, hat, hdepth⟩, fun _ _ _ => by omega,
    fun select between hlt hbetween hselect hzero hfromAt => ?_⟩
  rcases Nat.lt_trichotomy between index with hbefore | rfl | hafter
  · exact hfrom select between hlt hbefore hselect hzero hfromAt
  · exact absurd hfromAt (not_fromAt_of_selectAt hat)
  · rw [FromAt, keywordMatch_inside hat.2 hafter hbetween] at hfromAt
    exact absurd hfromAt.2 (by simp)

/-- What the first loop of `outer_projection_spans` comes to. -/
def ListOutcome (tables : PythonTables) (sql : List Char) : ScanResult (Option ℕ × ℕ) → Prop
  | .ok (some start, stop) => ScannedList tables sql start stop
  | .ok (none, _) => ∀ index, SelectAt tables sql index → parenthesisDepth tables sql 0 index ≠ 0
  | .error _ => False

theorem ListBefore.outcome_end (h : ListBefore tables sql sql.length projectionStart) :
    ListOutcome tables sql (.ok (projectionStart, sql.length)) := by
  cases projectionStart with
  | none => exact fun index hselect => h index hselect.1.lt_length hselect
  | some start =>
    obtain ⟨hstart, hfound, hlast, hfirst⟩ := h
    exact ⟨hstart, hfound, hlast, hfirst, Or.inr rfl⟩

theorem not_keyword_of_skip (hread : CodeRead tables sql 0 index)
    (hskip : skipNonCode sql index = .ok (some next)) {inside : ℕ} (hle : index ≤ inside)
    (hlt : inside < next) (hcode : CodeAt tables sql inside) :
    keywordMatch tables sql inside = none := by
  cases hmatch : keywordMatch tables sql inside with
  | none => rfl
  | some stop =>
    exfalso
    obtain ⟨-, character, hcharacter, hquote⟩ := isQuote_of_codeAt_skip hread hskip hle hlt hcode
    have hstart := codeStart_of_keyword hmatch le_rfl (keywordMatch_bounds hmatch).1
    have hhead : (sql.drop inside).head? = some character := by
      rw [head?_drop]
      exact hcharacter
    rw [hstart.quote character hhead] at hquote
    cases hquote

theorem codeAt_of_keyword (hread : CodeRead tables sql 0 index)
    (h : keywordMatch tables sql index = some stop) : CodeAt tables sql index := by
  obtain ⟨hlt, -⟩ := keywordMatch_bounds h
  obtain ⟨expected, character, hexpected, hcharacter, hfolds⟩ := exists_letter h le_rfl hlt
  exact codeAt_of_codeStart hread (codeStart_of_keyword h le_rfl hlt) hcharacter
    (not_isspace_of_foldsTo hexpected hfolds)

/-- Inside of a keyword no other one starts. -/
theorem eq_of_keywordMatch {between stop' : ℕ} (hmatch : keywordMatch tables sql index = some stop)
    (hle : index ≤ between) (hlt : between < stop)
    (hbetween : keywordMatch tables sql between = some stop') : between = index := by
  rcases Nat.eq_or_lt_of_le hle with heq | hafter
  · exact heq.symm
  · rw [keywordMatch_inside hmatch hafter hlt] at hbetween
    cases hbetween

/-- Where the first loop of `outer_projection_spans` is, with what it has found. -/
structure ListScan (tables : PythonTables) (sql : List Char) (index : ℕ)
    (projectionStart : Option ℕ) (depth : ℤ) : Prop where
  read : CodeRead tables sql 0 index
  depth_eq : depth = parenthesisDepth tables sql 0 index
  before : ListBefore tables sql index projectionStart

section
variable {projectionStart : Option ℕ} {depth : ℤ}

theorem ListScan.outcome_end (h : ListScan tables sql index projectionStart depth)
    (hend : sql.length ≤ index) : ListOutcome tables sql (.ok (projectionStart, sql.length)) := by
  obtain rfl : index = sql.length := le_antisymm h.read.stop hend
  exact h.before.outcome_end

theorem ListScan.depth_keyword (h : ListScan tables sql index projectionStart depth)
    (hmatch : keywordMatch tables sql index = some stop) :
    depth = parenthesisDepth tables sql 0 stop := by
  have hlt := (keywordMatch_bounds hmatch).1
  rw [h.depth_eq]
  exact (depthBetween_of_keyword hmatch (by decide) (by decide) hlt.le le_rfl).symm

theorem ListScan.select (h : ListScan tables sql index projectionStart 0)
    (hmatch : keywordMatch tables sql index = some (index + selectKeyword.length)) :
    ListScan tables sql (index + selectKeyword.length) (some (index + selectKeyword.length)) 0 where
  read := h.read.keyword hmatch
  depth_eq := h.depth_keyword hmatch
  before := h.before.select ⟨codeAt_of_keyword h.read hmatch, hmatch⟩ h.depth_eq.symm

theorem ListScan.outcome_from (h : ListScan tables sql index (some start) 0)
    (hmatch : keywordMatch tables sql index = some (index + fromKeyword.length)) :
    ListOutcome tables sql (.ok (some start, index)) := by
  obtain ⟨hstart, hfound, hlast, hfirst⟩ := h.before
  have hfrom : FromAt tables sql index := ⟨codeAt_of_keyword h.read hmatch, hmatch⟩
  exact ⟨hstart, hfound, hlast, hfirst, Or.inl ⟨hfrom, h.depth_eq.symm⟩⟩

/-- A FROM before any list and a keyword inside of parentheses are passed over. -/
theorem ListScan.keyword (h : ListScan tables sql index projectionStart depth)
    (hmatch : keywordMatch tables sql index = some stop) (hpassed : depth ≠ 0 ∨
      (stop = index + fromKeyword.length ∧ projectionStart.isSome = false)) :
    ListScan tables sql stop projectionStart depth where
  read := h.read.keyword hmatch
  depth_eq := h.depth_keyword hmatch
  before := by
    apply h.before.goOn (keywordMatch_bounds hmatch).1.le
    · intro between hle hbetween hat
      obtain rfl := eq_of_keywordMatch hmatch hle hbetween hat.2
      rcases hpassed with hdepth | ⟨hfrom, -⟩
      · exact h.depth_eq ▸ hdepth
      · exact absurd (Option.some.inj (hmatch.symm.trans hat.2))
          (by simp [hfrom, selectKeyword, fromKeyword])
    · intro between hle hbetween hsome hat
      obtain rfl := eq_of_keywordMatch hmatch hle hbetween hat.2
      rcases hpassed with hdepth | ⟨-, hnone⟩
      · exact h.depth_eq ▸ hdepth
      · rw [hnone] at hsome
        cases hsome

theorem ListScan.skip (h : ListScan tables sql index projectionStart depth)
    (hskip : skipNonCode sql index = .ok (some next)) :
    ListScan tables sql next projectionStart depth where
  read := h.read.skip hskip
  depth_eq := by
    rw [h.depth_eq]
    exact (depthBetween_of_skip h.read hskip rfl rfl (lt_of_skipNonCode hskip).le le_rfl).symm
  before := by
    apply h.before.goOn_of_no_keyword (lt_of_skipNonCode hskip).le
    intro between hle hbetween hcode
    exact not_keyword_of_skip h.read hskip hle hbetween hcode

theorem ListScan.visit (h : ListScan tables sql index projectionStart depth)
    (hmatch : keywordMatch tables sql index = none) (hskip : skipNonCode sql index = .ok none)
    (hcharacter : sql[index]? = some character) :
    ListScan tables sql (index + 1) projectionStart
      (depth + if character = '(' then 1 else if character = ')' then -1 else 0) where
  read := h.read.visit (codeStart_of_skipNonCode hskip) hcharacter
  depth_eq := by
    have hsucc : parenthesisDepth tables sql 0 (index + 1) =
        parenthesisDepth tables sql 0 index + bracketAt tables '(' ')' sql index :=
      depthBetween_succ
    rw [hsucc, h.depth_eq,
      bracketAt_of_visit h.read (codeStart_of_skipNonCode hskip) hcharacter rfl rfl]
  before := by
    apply h.before.goOn_of_no_keyword (Nat.le_succ index)
    intro between hle hbetween _
    obtain rfl : between = index := by omega
    exact hmatch

end

theorem projectionListLoop_outcome (hclosed : lexemes tables sql ≠ none) (fuel : ℕ) :
    ∀ {index : ℕ} {projectionStart : Option ℕ} {depth : ℤ}, sql.length ≤ index + fuel →
      ListScan tables sql index projectionStart depth →
      ListOutcome tables sql (projectionListLoop tables sql fuel index projectionStart depth) := by
  induction fuel with
  | zero => exact fun hfuel h => h.outcome_end hfuel
  | succ fuel ih =>
    intro index projectionStart depth hfuel h
    rw [projectionListLoop]
    by_cases hend : sql.length ≤ index
    · rw [if_pos hend]
      exact h.outcome_end hend
    rw [if_neg hend]
    cases hmatch : keywordMatch tables sql index with
    | some keywordEnd =>
      have hlt := (keywordMatch_bounds hmatch).1
      have hfuel : sql.length ≤ keywordEnd + fuel := by omega
      dsimp only
      split_ifs with hzero hselect hstart
      · obtain rfl : keywordEnd = index + selectKeyword.length := by omega
        exact ih hfuel (hzero ▸ (hzero ▸ h).select hmatch)
      · obtain ⟨start, rfl⟩ := Option.isSome_iff_exists.mp hstart
        have hfrom := (keyword_of_length hmatch).resolve_left fun heq => hselect (by omega)
        exact (hzero ▸ h).outcome_from (hfrom ▸ hmatch)
      · have hfrom := (keyword_of_length hmatch).resolve_left fun heq => hselect (by omega)
        exact ih hfuel (h.keyword hmatch (Or.inr ⟨hfrom, Bool.eq_false_of_not_eq_true hstart⟩))
      · exact ih hfuel (h.keyword hmatch (Or.inl hzero))
    | none =>
      obtain ⟨skipped, hskip⟩ := exists_skipNonCode hclosed h.read
      dsimp only
      rw [hskip]
      cases skipped with
      | some next =>
        have hlt := lt_of_skipNonCode hskip
        exact ih (by omega) (h.skip hskip)
      | none =>
        obtain ⟨character, hcharacter⟩ : ∃ character, sql[index]? = some character :=
          ⟨_, getElem?_eq_getElem (by omega)⟩
        have hvisit := h.visit hmatch hskip hcharacter
        show ListOutcome tables sql (match (none : Option ℕ), sql[index]? with
          | some next, _ => _
          | none, some '(' => _
          | none, some ')' => _
          | none, _ => _)
        rw [hcharacter]
        split
        · exact absurd ‹(none : Option ℕ) = some _› (by simp)
        · rename_i heq
          cases heq
          exact ih (by omega) hvisit
        · rename_i heq
          cases heq
          exact ih (by omega) hvisit
        · rename_i hopen hclose
          rw [if_neg fun heq => hopen (congrArg some heq),
            if_neg fun heq => hclose (congrArg some heq), add_zero] at hvisit
          exact ih (by omega) hvisit

end SqlTide.SqlText
