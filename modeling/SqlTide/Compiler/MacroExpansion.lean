import SqlTide.Foundations.DecimalText
import SqlTide.Foundations.Splices
import SqlTide.SqlText.BracketDepth
import Mathlib.Data.Set.Finite.List

/-!
# Macro expansion

A call in a SQL body is replaced by the text that its macro returns, and a call in the arguments of
another one by a placeholder, under which the evaluation of the arguments finds the value. The
grammar of the arguments and the macros themselves are Python's.
-/

namespace SqlTide.Compiler

open Foundations List SqlText

section

variable (tables : PythonTables)

def macroNameEnd (sql : List Char) (callStart : ℕ) : ℕ :=
  callStart + 1 + ((sql.drop (callStart + 1)).takeWhile (isIdentifierCharacter tables)).length

def skipWhitespace (sql : List Char) (start : ℕ) : ℕ :=
  start + ((sql.drop start).takeWhile pythonIsspace).length

def isMacroCallStart (sql : List Char) (atIndex : ℕ) : Bool :=
  if 0 < atIndex ∧ sql[atIndex - 1]?.any (isIdentifierCharacter tables) then false
  else if sql[atIndex + 1]?.any (isIdentifierStart tables) then
    sql[skipWhitespace sql (macroNameEnd tables sql atIndex)]? = some '('
  else false

/-- The loop of `find_next_macro_start`: each candidate is behind the one before. -/
def findMacroStart (sql : List Char) : ℕ → ℕ → ScanResult (Option ℕ)
  | 0, _ => .ok none
  | fuel + 1, start => do
    match ← findNextUnquotedCharacter sql '@' start with
    | none => .ok none
    | some index =>
      if isMacroCallStart tables sql index then .ok (some index)
      else findMacroStart sql fuel (index + 1)

def findNextMacroStart (sql : List Char) (start : ℕ) : ScanResult (Option ℕ) :=
  findMacroStart tables sql (sql.length + 1 - start) start

def parseMacroName (sql : List Char) (callStart : ℕ) : List Char :=
  (sql.drop (callStart + 1)).takeWhile (isIdentifierCharacter tables)

end

structure SourceLocation where
  line : ℕ
  column : ℕ
  deriving DecidableEq, Repr

/-- `_sql_location`, in the file that is expanded. -/
def sqlLocation (sql : List Char) (index : ℕ) (source : SourceLocation) : SourceLocation :=
  let (line, column) := lineAndColumn sql index
  ⟨source.line + (line - 1), if line = 1 then source.column + column - 1 else column⟩

/-- A macro error, with the place of the definition that it is related to. -/
structure MacroError where
  message : String
  location : Option SourceLocation := none
  definition : Option (String × ℕ) := none
  deriving DecidableEq, Repr

/-- What ends an expansion. How deep calls may be nested is up to Python's recursion limit. -/
inductive ExpansionError where
  | scan (error : ScanError)
  | macroError (error : MacroError)
  | recursionError
  deriving DecidableEq, Repr

/-- `_locate_macro_error`. -/
def ExpansionError.locate (location : SourceLocation) (definition : String × ℕ) :
    ExpansionError → ExpansionError
  | .macroError ⟨message, none, _⟩ => .macroError ⟨message, some location, some definition⟩
  | error => error

/-- What a call of Python code raises. -/
inductive CallFailure where
  | macroError (error : MacroError)
  | typeError (text : String)
  | other (text : String)

/-- `LoadedMacro`, with `_call_loaded_macro` for its function. -/
structure LoadedMacro (V : Type) where
  filePath : String
  definitionLine : ℕ
  call : List V × List (String × V) → Except CallFailure V

/-- The registry, and what is Python's: strings among the values, the check of nested results, and
the evaluation of arguments in which names stand for values. -/
structure MacroRuntime (V : Type) where
  macros : List (String × LoadedMacro V)
  asText : V → Option (List Char)
  validateNestedMacroResult : V → Except MacroError Unit
  parseArguments : List Char → List (List Char × V) →
    Except MacroError (List V × List (String × V))

/-- The loop over the calls of a text: what is between them stays, and they are replaced. -/
def spliceCalls {σ : Type} (tables : PythonTables) (sql : List Char)
    (replace : ℕ → σ → Except ExpansionError (List Char × ℕ × σ)) :
    ℕ → ℕ → σ → Except ExpansionError (List Char × σ)
  | 0, _, state => .ok ([], state)
  | fuel + 1, cursor, state =>
    if sql.length ≤ cursor then .ok ([], state)
    else do
      match ← (findNextMacroStart tables sql cursor).mapError .scan with
      | none => .ok (sql.drop cursor, state)
      | some start =>
        let (text, next, state) ← replace start state
        let (rest, state) ← spliceCalls tables sql replace fuel next state
        .ok ((sql.take start).drop cursor ++ text ++ rest, state)

def placeholder (index : ℕ) : List Char :=
  ("__sqltide_macro_arg_" ++ decimalText index).toList

theorem placeholder_injective : Function.Injective placeholder := by
  intro index index' h
  have htext := String.toList_inj.mp h
  rw [String.append_right_inj] at htext
  exact Int.ofNat.inj (decimalText_injective htext)

theorem exists_newIndex (argsSource : List Char) (index : ℕ) :
    ∃ newIndex, index ≤ newIndex ∧ ¬ placeholder newIndex <:+: argsSource := by
  by_contra! h
  have hinfinite : {text | text <:+: argsSource}.Infinite :=
    Set.infinite_of_injective_forall_mem
      (fun _ _ heq => Nat.add_left_cancel (placeholder_injective heq))
      fun more => h (index + more) (Nat.le_add_right _ _)
  apply hinfinite
  refine (finite_toSet argsSource.sublists).subset fun text htext => ?_
  exact mem_sublists.mpr htext.sublist

/-- The `while` loop of `_rewrite_nested_macro_calls`. -/
def newIndex (argsSource : List Char) (index : ℕ) : ℕ := Nat.find (exists_newIndex argsSource index)

section

variable {V : Type} (tables : PythonTables) (runtime : MacroRuntime V) (filePath : String)

/-- The step of `_rewrite_nested_macro_calls`: its state is the replacement index and the
placeholder values. -/
def replaceNestedCall (argsSource : List Char) (evaluate : ℕ → Except ExpansionError (V × ℕ))
    (start : ℕ) (state : ℕ × List (List Char × V)) :
    Except ExpansionError (List Char × ℕ × ℕ × List (List Char × V)) := do
  let (nestedResult, nextIndex) ← evaluate start
  let index := newIndex argsSource state.1
  .ok (placeholder index, nextIndex, index + 1, state.2 ++ [(placeholder index, nestedResult)])

def rewriteNestedMacroCalls (argsSource : List Char)
    (evaluate : ℕ → Except ExpansionError (V × ℕ)) :
    Except ExpansionError (List Char × ℕ × List (List Char × V)) :=
  spliceCalls tables argsSource (replaceNestedCall argsSource evaluate) argsSource.length 0 (0, [])

/-- `_parse_macro_arguments`. -/
def parseMacroArguments (argsSource : List Char)
    (evaluate : ℕ → Except ExpansionError (V × ℕ)) :
    Except ExpansionError (List V × List (String × V)) :=
  if pythonStrip argsSource = [] then .ok ([], [])
  else do
    let (rewritten, _, placeholderValues) ←
      rewriteNestedMacroCalls tables argsSource evaluate
    (runtime.parseArguments rewritten placeholderValues).mapError .macroError

/-- `_find_matching_paren`. -/
def findMatchingParen (sql : List Char) (opening : ℕ) : Except ExpansionError ℕ :=
  if sql[opening]? = some '(' then
    (findMatchingParenthesis sql opening "Macro call").mapError fun error =>
      .macroError { message := error.message }
  else .error (.macroError { message := "expected opening parenthesis" })

/-- The checks on a result at the top level of a SQL body. -/
def checkTopLevelResult (name : String) (result : V)
    (fail : String → ExpansionError) : Except ExpansionError Unit :=
  match runtime.asText result with
  | none => .error (fail ("Macro '@" ++ name ++ "' in '" ++ filePath ++
      "' must return a SQL string when used directly in SQL"))
  | some text => do
    match ← (findNextMacroStart tables text 0).mapError .scan with
    | none => .ok ()
    | some index => .error (fail ("Macro expansion in '" ++ filePath ++
        "' produced output containing unexpanded macro call '@" ++
        String.ofList (parseMacroName tables text index) ++
        "('. Compose macros in Python instead."))

/-- `_evaluate_macro_call`: the value and the index behind the call. -/
def evaluateMacroCall : ℕ → List Char → SourceLocation → ℕ → Bool →
    Except ExpansionError (V × ℕ)
  | 0, _, _, _, _ => .error .recursionError
  | depth + 1, sql, source, callStart, topLevel =>
    let name := String.ofList (parseMacroName tables sql callStart)
    let location := sqlLocation sql callStart source
    match runtime.macros.lookup name with
    | none =>
      let available := ", ".intercalate ((runtime.macros.map (·.1)).insertionSort (· ≤ ·))
      .error (.macroError { location, message := "Unknown macro '@" ++ name ++ "' in '" ++
        filePath ++
        "'. Available macros: " ++ (if available = "" then "none" else available) })
    | some loadedMacro =>
      let definition := (loadedMacro.filePath, loadedMacro.definitionLine)
      let fail message : ExpansionError := .macroError ⟨message, location, definition⟩
      let opening := skipWhitespace sql (macroNameEnd tables sql callStart)
      do
      let closing ← (findMatchingParen sql opening).mapError (.locate location definition)
      let argsSource := (sql.take closing).drop (opening + 1)
      let argsLocation := sqlLocation sql (opening + 1) source
      let arguments ← (parseMacroArguments tables runtime argsSource fun start =>
        evaluateMacroCall depth argsSource argsLocation start false).mapError
          (.locate location definition)
      let result ← (loadedMacro.call arguments).mapError fun
        | .macroError error => .macroError error
        | .typeError text => fail ("Macro '@" ++ name ++ "' in '" ++ filePath ++
            "' could not be called: " ++ text)
        | .other text => fail ("Macro '@" ++ name ++ "' in '" ++ filePath ++ "' failed: " ++ text)
      let _ ← (if topLevel then checkTopLevelResult tables runtime filePath name result fail
        else (runtime.validateNestedMacroResult result).mapError fun error =>
          .locate location definition (.macroError error))
      .ok (result, closing + 1)

def expandSqlBodyMacros (depth : ℕ) (sql : List Char) (source : SourceLocation) :
    Except ExpansionError (List Char) :=
  if '@' ∉ sql then .ok sql
  else
    (·.1) <$> spliceCalls tables sql (fun start _ => do
      let (result, nextIndex) ← evaluateMacroCall tables runtime filePath depth sql source
        start true
      .ok ((runtime.asText result).getD [], nextIndex, ())) sql.length 0 ()

end

/-- A macro call starts here: its `@` is code, and a name and a parenthesis are behind it. -/
structure MacroCallAt (tables : PythonTables) (sql : List Char) (index : ℕ) : Prop where
  code : CodeAt tables sql index
  sigil : sql[index]? = some '@'
  call : isMacroCallStart tables sql index = true

/-- A macro call with its arguments: behind the parenthesis that closes them it ends. -/
structure MacroCallSpan (tables : PythonTables) (sql : List Char) (start stop : ℕ) : Prop where
  callAt : MacroCallAt tables sql start
  closes : ∃ closing, stop = closing + 1 ∧
    MatchingParenthesis tables sql (skipWhitespace sql (macroNameEnd tables sql start)) closing

instance {tables : PythonTables} {sql : List Char} : DecidablePred (MacroCallAt tables sql) :=
  fun index => decidable_of_iff
    (CodeAt tables sql index ∧ sql[index]? = some '@' ∧ isMacroCallStart tables sql index = true)
    ⟨fun ⟨code, sigil, call⟩ => ⟨code, sigil, call⟩, fun h => ⟨h.code, h.sigil, h.call⟩⟩

section

variable {tables : PythonTables} {sql : List Char} {start index : ℕ} {target : Char}

/-- The first character of its kind that is code, or that there is none. -/
def FirstTarget (tables : PythonTables) (sql : List Char) (target : Char) (start : ℕ) :
    Option ℕ → Prop
  | none => ∀ index, start ≤ index → CodeAt tables sql index → sql[index]? ≠ some target
  | some index => start ≤ index ∧ CodeAt tables sql index ∧ sql[index]? = some target ∧
      CodeRead tables sql 0 (index + 1) ∧ ∀ between, start ≤ between → between < index →
        CodeAt tables sql between → sql[between]? ≠ some target

theorem findNextUnquotedCharacter_ok (hspace : pythonIsspace target = false)
    (hquote : isQuote target = false) (hread : CodeRead tables sql 0 start) {found : Option ℕ}
    (h : findNextUnquotedCharacter sql target start = .ok found) :
    FirstTarget tables sql target start found := by
  refine scanCode_induction (I := fun next _ => start ≤ next ∧ CodeRead tables sql 0 next ∧
      ∀ between, start ≤ between → between < next → CodeAt tables sql between →
        sql[between]? ≠ some target) (Q := FirstTarget tables sql target start)
    ?_ ?_ ?_ _ (by omega) ⟨le_rfl, hread, fun _ hle hlt => absurd hlt hle.not_gt⟩ h
  · rintro index _ next ⟨hstart, hindex, hnone⟩ - hskip
    refine ⟨hstart.trans (lt_of_skipNonCode hskip).le, hindex.skip hskip,
      fun between hbetween hlt hcode htarget => ?_⟩
    rcases Nat.lt_or_ge between index with hbefore | hafter
    · exact hnone between hbetween hbefore hcode htarget
    · obtain ⟨-, character, hcharacter, hopens⟩ :=
        isQuote_of_codeAt_skip hindex hskip hafter hlt hcode
      obtain rfl := Option.some.inj (hcharacter.symm.trans htarget)
      rw [hquote] at hopens
      cases hopens
  · rintro index _ character part ⟨hstart, hindex, hnone⟩ - hskip hcharacter hpart
    have hvisit := hindex.visit (codeStart_of_skipNonCode hskip) hcharacter
    split_ifs at hpart with htarget
    · cases hpart
      subst htarget
      exact ⟨hstart, codeAt_of_codeStart hindex (codeStart_of_skipNonCode hskip) hcharacter hspace,
        hcharacter, hvisit, hnone⟩
    · cases hpart
      refine ⟨Nat.lt_succ_self _, Nat.le_succ_of_le hstart, hvisit,
        fun between hbetween hlt hcode => ?_⟩
      rcases Nat.lt_or_ge between index with hbefore | hafter
      · exact hnone between hbetween hbefore hcode
      · obtain rfl : between = index := by omega
        rw [hcharacter]
        exact fun heq => htarget (Option.some.inj heq)
  · rintro stop _ result ⟨-, -, hnone⟩ hend hresult
    cases hresult
    intro index hindex hcode
    exact hnone index hindex (by have := hcode.lt_length; omega) hcode

/-- The first macro call, or that there is none. -/
def FirstCall (tables : PythonTables) (sql : List Char) (start : ℕ) : Option ℕ → Prop
  | none => ∀ index, start ≤ index → ¬ MacroCallAt tables sql index
  | some index => start ≤ index ∧ MacroCallAt tables sql index ∧
      ∀ between, start ≤ between → between < index → ¬ MacroCallAt tables sql between

theorem findMacroStart_ok (fuel : ℕ) : ∀ {start : ℕ} {found : Option ℕ},
    sql.length < start + fuel → CodeRead tables sql 0 start →
    findMacroStart tables sql fuel start = .ok found → FirstCall tables sql start found := by
  induction fuel with
  | zero =>
    intro start found hfuel hread h
    exact absurd hread.stop (by omega)
  | succ fuel ih =>
    intro start found hfuel hread h
    obtain ⟨candidate, hcandidate, h⟩ := bind_eq_ok.mp h
    have hfirst := findNextUnquotedCharacter_ok rfl rfl hread hcandidate
    cases candidate with
    | none =>
      cases h
      exact fun index hindex hcall => hfirst index hindex hcall.code hcall.sigil
    | some candidate =>
      obtain ⟨hle, hcode, hsigil, hread', hbefore⟩ := hfirst
      dsimp only at h
      split_ifs at h with hcall
      · cases h
        exact ⟨hle, ⟨hcode, hsigil, hcall⟩, fun between hbetween hlt hother =>
          hbefore between hbetween hlt hother.code hother.sigil⟩
      · -- an `@` that starts no call is passed over
        have hnone : ∀ between, start ≤ between → between < candidate + 1 →
            ¬ MacroCallAt tables sql between := by
          intro between hbetween hlt hother
          rcases Nat.lt_or_ge between candidate with hearlier | hlater
          · exact hbefore between hbetween hearlier hother.code hother.sigil
          · obtain rfl : between = candidate := by omega
            exact hcall hother.call
        have hrest := ih (by omega) hread' h
        cases found with
        | none =>
          intro index hindex hother
          rcases Nat.lt_or_ge index (candidate + 1) with hearlier | hlater
          · exact hnone index hindex hearlier hother
          · exact hrest index hlater hother
        | some found =>
          obtain ⟨hfound, hother, hbetween⟩ := hrest
          refine ⟨by omega, hother, fun between hstart hlt => ?_⟩
          rcases Nat.lt_or_ge between (candidate + 1) with hearlier | hlater
          · exact hnone between hstart hearlier
          · exact hbetween between hlater hlt

theorem findNextMacroStart_ok {found : Option ℕ} (hread : CodeRead tables sql 0 start)
    (h : findNextMacroStart tables sql start = .ok found) : FirstCall tables sql start found :=
  findMacroStart_ok _ (by have := hread.stop; omega) hread h

theorem MacroCallAt.opening (h : MacroCallAt tables sql start) :
    sql[skipWhitespace sql (macroNameEnd tables sql start)]? = some '(' ∧
      CodeRead tables sql 0 (skipWhitespace sql (macroNameEnd tables sql start) + 1) := by
  have hopening : sql[skipWhitespace sql (macroNameEnd tables sql start)]? = some '(' := by
    have hcall := h.call
    unfold isMacroCallStart at hcall
    split_ifs at hcall
    exact of_decide_eq_true hcall
  have hread : CodeRead tables sql 0 (start + 1) := by
    refine h.code.codeRead.visit ⟨h.code.line, h.code.block, fun character hcharacter => ?_⟩ h.sigil
    rw [head?_drop, h.sigil] at hcharacter
    cases hcharacter
    rfl
  have hname := hread.takeWhile (p := isIdentifierCharacter tables) fun character hcharacter _ =>
    codeStart_of_isIdentifierCharacter hcharacter
  have hspace : CodeRead tables sql 0 (skipWhitespace sql (macroNameEnd tables sql start)) :=
    hname.takeWhile (p := pythonIsspace) fun character hcharacter _ =>
      codeStart_of_isspace hcharacter
  refine ⟨hopening, hspace.visit ?_ hopening⟩
  rw [drop_eq_cons hopening]
  exact ⟨rfl, rfl, fun character hcharacter => by obtain rfl := Option.some.inj hcharacter; rfl⟩

theorem findMatchingParen_ok {opening closing : ℕ} (hread : CodeRead tables sql 0 (opening + 1))
    (h : findMatchingParen sql opening = .ok closing) :
    MatchingParenthesis tables sql opening closing ∧ CodeRead tables sql 0 (closing + 1) := by
  unfold findMatchingParen at h
  split_ifs at h
  rw [mapError_eq_ok] at h
  have houtcome := findMatchingParenthesis_outcome hread "Macro call"
  rw [h] at houtcome
  exact houtcome.symm

end

section

variable {tables : PythonTables} {sql text : List Char} {σ : Type} {state final : σ}
  {replace : ℕ → σ → Except ExpansionError (List Char × ℕ × σ)} {splices : List (Splice Char)}

variable (replace) in
/-- The calls at these places are replaced in turn. -/
def Replaced : σ → List (Splice Char) → σ → Prop
  | state, [], final => state = final
  | state, splice :: splices, final => ∃ middle,
      replace splice.start state = .ok (splice.insert, splice.stop, middle) ∧
        Replaced middle splices final

/-- The ranges are calls, and every call behind the cursor is in one of them. -/
structure CoversCalls (tables : PythonTables) (sql : List Char) (cursor : ℕ)
    (splices : List (Splice Char)) : Prop where
  spans : ∀ splice ∈ splices, MacroCallSpan tables sql splice.start splice.stop
  covers : ∀ index, cursor ≤ index → MacroCallAt tables sql index →
    ∃ splice ∈ splices, splice.start ≤ index ∧ index < splice.stop

variable {cursor : ℕ} {splice : Splice Char}

theorem CoversCalls.nil (hnone : ∀ index, cursor ≤ index → ¬ MacroCallAt tables sql index) :
    CoversCalls tables sql cursor [] :=
  ⟨by simp, fun index hindex hcall => absurd hcall (hnone index hindex)⟩

theorem CoversCalls.cons (hbefore : ∀ between, cursor ≤ between → between < splice.start →
      ¬ MacroCallAt tables sql between) (hspan : MacroCallSpan tables sql splice.start splice.stop)
    (h : CoversCalls tables sql splice.stop splices) :
    CoversCalls tables sql cursor (splice :: splices) where
  spans := forall_mem_cons.mpr ⟨hspan, h.spans⟩
  covers index hindex hcall := by
    by_cases hlt : index < splice.start
    · exact absurd hcall (hbefore index hindex hlt)
    · rcases Nat.lt_or_ge index splice.stop with hinside | hbehind
      · exact ⟨splice, mem_cons_self, Nat.le_of_not_lt hlt, hinside⟩
      · obtain ⟨other, hother, hrange⟩ := h.covers index hbehind hcall
        exact ⟨other, mem_cons_of_mem _ hother, hrange⟩

theorem CoversCalls.tail
    (h : CoversCalls tables sql cursor (splice :: splices)) (hle : cursor ≤ splice.stop) :
    CoversCalls tables sql splice.stop splices where
  spans := (forall_mem_cons.mp h.spans).2
  covers index hindex hcall := by
    obtain ⟨other, hother, hle', hlt⟩ := h.covers index (hle.trans hindex) hcall
    rcases mem_cons.mp hother with rfl | hother
    · omega
    · exact ⟨other, hother, hle', hlt⟩

variable {start stop length : ℕ} {splices' : List (Splice Char)}

theorem MacroCallSpan.lt (h : MacroCallSpan tables sql start stop) : start < stop := by
  obtain ⟨closing, rfl, hmatching⟩ := h.closes
  have hlt := hmatching.lt
  unfold skipWhitespace macroNameEnd at hlt
  omega

theorem MacroCallSpan.stop_unique {stop' : ℕ} (h : MacroCallSpan tables sql start stop)
    (h' : MacroCallSpan tables sql start stop') : stop = stop' := by
  obtain ⟨closing, rfl, hmatching⟩ := h.closes
  obtain ⟨closing', rfl, hmatching'⟩ := h'.closes
  rw [hmatching.unique hmatching']

/-- Of two coverings none begins before the other. -/
theorem CoversCalls.start_le {splice' : Splice Char}
    (h : CoversCalls tables sql cursor (splice :: splices))
    (hle : cursor ≤ splice.start) (h' : CoversCalls tables sql cursor (splice' :: splices'))
    (horder' : Splice.InOrder length cursor (splice' :: splices')) :
    splice'.start ≤ splice.start := by
  obtain ⟨hspan, -⟩ := forall_mem_cons.mp h.spans
  obtain ⟨other, hother, hstart, -⟩ := h'.covers splice.start hle hspan.callAt
  rcases mem_cons.mp hother with rfl | hother
  · exact hstart
  · have hstop := horder'.2.2.le_start other hother
    have hrange := horder'.2.1
    omega

theorem CoversCalls.ranges_unique (h : CoversCalls tables sql cursor splices)
    (horder : Splice.InOrder length cursor splices) (h' : CoversCalls tables sql cursor splices')
    (horder' : Splice.InOrder length cursor splices') :
    splices.map (fun splice => (splice.start, splice.stop)) =
      splices'.map (fun splice => (splice.start, splice.stop)) := by
  induction splices generalizing cursor splices' with
  | nil =>
    cases splices' with
    | nil => rfl
    | cons splice' splices' =>
      obtain ⟨hspan, -⟩ := forall_mem_cons.mp h'.spans
      obtain ⟨_, hnone, -⟩ := h.covers splice'.start horder'.1 hspan.callAt
      cases hnone
  | cons splice splices ih =>
    cases splices' with
    | nil =>
      obtain ⟨hspan, -⟩ := forall_mem_cons.mp h.spans
      obtain ⟨_, hnone, -⟩ := h'.covers splice.start horder.1 hspan.callAt
      cases hnone
    | cons splice' splices' =>
      have hstart : splice.start = splice'.start :=
        le_antisymm (h'.start_le horder'.1 h horder) (h.start_le horder.1 h' horder')
      obtain ⟨hspan, -⟩ := forall_mem_cons.mp h.spans
      obtain ⟨hspan', -⟩ := forall_mem_cons.mp h'.spans
      have hstop : splice.stop = splice'.stop := hspan.stop_unique (hstart ▸ hspan')
      have hrest := ih (h.tail (horder.1.trans horder.2.1)) horder.2.2
        (hstop ▸ h'.tail (horder'.1.trans horder'.2.1)) (hstop ▸ horder'.2.2)
      rw [map_cons, map_cons, hrest, hstart, hstop]

theorem spliceCalls_eq_ok
    (hreplace : ∀ {start state text next state'}, MacroCallAt tables sql start →
      replace start state = .ok (text, next, state') →
      MacroCallSpan tables sql start next ∧ CodeRead tables sql 0 next) {fuel : ℕ}
    (hfuel : sql.length ≤ cursor + fuel) (hread : CodeRead tables sql 0 cursor)
    (h : spliceCalls tables sql replace fuel cursor state = .ok (text, final)) :
    ∃ splices, Splice.InOrder sql.length cursor splices ∧
      text = Splice.forward sql cursor splices ∧ CoversCalls tables sql cursor splices ∧
        Replaced replace state splices final := by
  have hend : ∀ {cursor : ℕ}, sql.length ≤ cursor → CoversCalls tables sql cursor [] := by
    refine fun hend => .nil fun index hindex hcall => ?_
    have := hcall.code.lt_length
    omega
  induction fuel generalizing cursor state text with
  | zero =>
    obtain ⟨rfl, rfl⟩ := Prod.mk.inj (Except.ok.inj h)
    exact ⟨[], hread.stop, (drop_of_length_le hfuel).symm, hend hfuel, rfl⟩
  | succ fuel ih =>
    rw [spliceCalls] at h
    split_ifs at h with hlength
    · obtain ⟨rfl, rfl⟩ := Prod.mk.inj (Except.ok.inj h)
      exact ⟨[], hread.stop, (drop_of_length_le hlength).symm, hend hlength, rfl⟩
    · obtain ⟨found, hfound, h⟩ := bind_eq_ok.mp h
      rw [mapError_eq_ok] at hfound
      have hfirst := findNextMacroStart_ok hread hfound
      cases found with
      | none =>
        obtain ⟨rfl, rfl⟩ := Prod.mk.inj (Except.ok.inj h)
        exact ⟨[], hread.stop, rfl, .nil hfirst, rfl⟩
      | some start =>
        obtain ⟨hstart, hcall, hbefore⟩ := hfirst
        obtain ⟨⟨insert, next, middle⟩, hinsert, h⟩ := bind_eq_ok.mp h
        obtain ⟨⟨rest, final'⟩, hrest, h⟩ := bind_eq_ok.mp h
        obtain ⟨rfl, rfl⟩ := Prod.mk.inj (Except.ok.inj h)
        obtain ⟨hspan, hnext⟩ := hreplace hcall hinsert
        have hlt := hspan.lt
        obtain ⟨splices, horder, rfl, hcovers, hreplaced⟩ := ih (by omega) hnext hrest
        have hall : CoversCalls tables sql cursor (⟨start, next, insert⟩ :: splices) :=
          .cons hbefore hspan hcovers
        exact ⟨_ :: _, ⟨hstart, hlt.le, horder⟩, rfl, hall, middle, hinsert, hreplaced⟩

end

section

variable {V : Type} {tables : PythonTables} {runtime : MacroRuntime V} {filePath : String}
  {depth : ℕ} {sql : List Char} {source : SourceLocation} {start next : ℕ} {topLevel : Bool}
  {value : V}

theorem checkTopLevelResult_ok {name : String} {fail : String → ExpansionError}
    (h : checkTopLevelResult tables runtime filePath name value fail = .ok ()) :
    ∃ text, runtime.asText value = some text ∧ ∀ index, ¬ MacroCallAt tables text index := by
  unfold checkTopLevelResult at h
  cases htext : runtime.asText value with
  | none => simp [htext] at h
  | some text =>
    rw [htext] at h
    obtain ⟨found, hfound, h⟩ := bind_eq_ok.mp h
    rw [mapError_eq_ok] at hfound
    have hfirst := findNextMacroStart_ok (CodeRead.refl (Nat.zero_le text.length)) hfound
    cases found with
    | none => exact ⟨text, rfl, fun index => hfirst index (Nat.zero_le index)⟩
    | some index => cases h

theorem evaluateMacroCall_ok (hcall : MacroCallAt tables sql start)
    (h : evaluateMacroCall tables runtime filePath depth sql source start topLevel =
      .ok (value, next)) :
    (MacroCallSpan tables sql start next ∧ CodeRead tables sql 0 next) ∧
      (topLevel = true → ∃ text, runtime.asText value = some text ∧
        ∀ index, ¬ MacroCallAt tables text index) := by
  cases depth with
  | zero => cases h
  | succ depth =>
    rw [evaluateMacroCall] at h
    cases hdefined : runtime.macros.lookup (String.ofList (parseMacroName tables sql start)) with
    | none => simp [hdefined] at h
    | some loadedMacro =>
      rw [hdefined] at h
      obtain ⟨closing, hclosing, h⟩ := bind_eq_ok.mp h
      rw [mapError_eq_ok] at hclosing
      obtain ⟨hmatching, hread⟩ := findMatchingParen_ok hcall.opening.2 hclosing
      obtain ⟨arguments, -, h⟩ := bind_eq_ok.mp h
      obtain ⟨result, -, h⟩ := bind_eq_ok.mp h
      obtain ⟨_, hcheck, h⟩ := bind_eq_ok.mp h
      obtain ⟨rfl, rfl⟩ := Prod.mk.inj (Except.ok.inj h)
      refine ⟨⟨⟨hcall, closing, rfl, hmatching⟩, hread⟩, ?_⟩
      rintro rfl
      rw [if_pos rfl] at hcheck
      exact checkTopLevelResult_ok hcheck

/-- A range that is replaced by the text of its macro, in which there is no call. -/
structure ExpandedCall (tables : PythonTables) (sql : List Char)
    (evaluate : ℕ → Except ExpansionError (V × ℕ)) (asText : V → Option (List Char))
    (splice : Splice Char) : Prop where
  evaluated : ∃ value, evaluate splice.start = .ok (value, splice.stop) ∧
    asText value = some splice.insert
  expanded : ∀ index, ¬ MacroCallAt tables splice.insert index

/-- What an expansion returns is the body with every call replaced by the text of its macro. -/
theorem expandSqlBodyMacros_forward {text : List Char}
    (h : expandSqlBodyMacros tables runtime filePath depth sql source = .ok text) :
    ∃ splices, Splice.InOrder sql.length 0 splices ∧ text = Splice.forward sql 0 splices ∧
      CoversCalls tables sql 0 splices ∧
      ∀ splice ∈ splices, ExpandedCall tables sql (fun start =>
        evaluateMacroCall tables runtime filePath depth sql source start true) runtime.asText
          splice := by
  unfold expandSqlBodyMacros at h
  split_ifs at h with hsigil
  · obtain ⟨⟨_, final⟩, hsplice, rfl⟩ := map_eq_ok.mp h
    obtain ⟨splices, horder, htext, hcovers, hreplaced⟩ := spliceCalls_eq_ok
      (fun hcallAt hcall => by
        obtain ⟨⟨_, _⟩, hvalue, hcall⟩ := bind_eq_ok.mp hcall
        cases hcall
        exact (evaluateMacroCall_ok hcallAt hvalue).1) (Nat.le_add_left _ _)
        (CodeRead.refl (Nat.zero_le _)) hsplice
    refine ⟨splices, horder, htext, hcovers, ?_⟩
    have hspans := hcovers.spans
    clear h hsplice horder htext hcovers
    generalize () = state at hreplaced
    induction splices generalizing state with
    | nil => simp
    | cons splice splices ih =>
      obtain ⟨middle, hcall, hrest⟩ := hreplaced
      obtain ⟨hspan, hspans⟩ := forall_mem_cons.mp hspans
      obtain ⟨⟨value, _⟩, hvalue, hcall⟩ := bind_eq_ok.mp hcall
      obtain ⟨text, htext, hnone⟩ := (evaluateMacroCall_ok hspan.callAt hvalue).2 rfl
      simp only [htext, Option.getD_some, Except.ok.injEq, Prod.mk.injEq] at hcall
      obtain ⟨rfl, rfl, -⟩ := hcall
      rintro other (_ | ⟨_, hother⟩)
      · exact ⟨⟨value, hvalue, htext⟩, hnone⟩
      · exact ih hspans middle hrest other hother
  · cases h
    refine ⟨[], Nat.zero_le _, rfl, .nil fun index _ hcall => ?_, by simp⟩
    exact hsigil (mem_of_getElem? hcall.sigil)

/-- The placeholder of a nested call is not in the authored text, and stands for its value. -/
structure NestedCall (argsSource : List Char)
    (evaluate : ℕ → Except ExpansionError (V × ℕ)) (splice : Splice Char)
    (item : List Char × V) : Prop where
  evaluated : evaluate splice.start = .ok (item.2, splice.stop)
  insert : splice.insert = item.1
  free : ¬ item.1 <:+: argsSource

theorem Replaced.nestedCalls {evaluate : ℕ → Except ExpansionError (V × ℕ)} {index final : ℕ}
    {splices : List (Splice Char)} {values values' : List (List Char × V)}
    (hused : ∀ item ∈ values, ∃ used < index, item.1 = placeholder used)
    (hnodup : (values.map (·.1)).Nodup)
    (h : Replaced (replaceNestedCall sql evaluate) (index, values) splices (final, values')) :
    ∃ added, values' = values ++ added ∧
    List.Forall₂ (NestedCall sql evaluate) splices added ∧
      (values'.map (·.1)).Nodup := by
  induction splices generalizing index values with
  | nil =>
    obtain ⟨rfl, rfl⟩ := Prod.mk.inj h
    exact ⟨[], by simp, .nil, hnodup⟩
  | cons splice splices ih =>
    obtain ⟨middle, hcall, hrest⟩ := h
    obtain ⟨⟨value, next⟩, hvalue, hcall⟩ := bind_eq_ok.mp hcall
    simp only [Except.ok.injEq, Prod.mk.injEq] at hcall
    obtain ⟨hinsert, rfl, rfl⟩ := hcall
    obtain ⟨hle, hfree⟩ := Nat.find_spec (exists_newIndex sql index)
    have hused' : ∀ item ∈ values ++ [(placeholder (newIndex sql index), value)],
        ∃ used < newIndex sql index + 1, item.1 = placeholder used := by
      intro item hitem
      rcases mem_append.mp hitem with hitem | hitem
      · obtain ⟨used, hlt, hsame⟩ := hused item hitem
        exact ⟨used, (hlt.trans_le hle).trans (Nat.lt_succ_self _), hsame⟩
      · exact ⟨newIndex sql index, Nat.lt_succ_self _, by rw [mem_singleton.mp hitem]⟩
    have hnodup' : ((values ++ [(placeholder (newIndex sql index), value)]).map (·.1)).Nodup := by
      rw [map_append]
      refine hnodup.append (nodup_singleton _) (disjoint_singleton.mpr fun hmem => ?_)
      obtain ⟨item, hitem, heq⟩ := mem_map.mp hmem
      obtain ⟨used, hlt, hsame⟩ := hused item hitem
      have := placeholder_injective (hsame.symm.trans heq)
      exact absurd (hle.trans this.ge) (by omega)
    obtain ⟨added, rfl, hall, hadded⟩ := ih hused' hnodup' hrest
    refine ⟨(placeholder (newIndex sql index), value) :: added, by simp, ?_, hadded⟩
    exact .cons ⟨hvalue, hinsert.symm, hfree⟩ hall

/-- In rewritten arguments every call has a placeholder of its own. -/
theorem rewriteNestedMacroCalls_fresh {rewritten : List Char} {replacementIndex : ℕ}
    {placeholderValues : List (List Char × V)}
    (h : rewriteNestedMacroCalls tables sql (fun start => evaluateMacroCall tables runtime filePath
      depth sql source start false) = .ok (rewritten, replacementIndex, placeholderValues)) :
    ∃ splices, Splice.InOrder sql.length 0 splices ∧ rewritten = Splice.forward sql 0 splices ∧
      CoversCalls tables sql 0 splices ∧
      List.Forall₂ (NestedCall sql fun start => evaluateMacroCall tables runtime filePath
        depth sql source start false) splices placeholderValues ∧
      (placeholderValues.map (·.1)).Nodup := by
  obtain ⟨splices, horder, htext, hcovers, hreplaced⟩ := spliceCalls_eq_ok
    (fun hcallAt hcall => by
      obtain ⟨⟨_, _⟩, hvalue, hcall⟩ := bind_eq_ok.mp hcall
      cases hcall
      exact (evaluateMacroCall_ok hcallAt hvalue).1) (Nat.le_add_left _ _)
      (CodeRead.refl (Nat.zero_le _)) h
  obtain ⟨added, rfl, hadded⟩ := hreplaced.nestedCalls (by simp) (by simp)
  exact ⟨splices, horder, htext, hcovers, hadded⟩

end

/-! A macro that returns its first argument. -/

def echoRuntime : MacroRuntime (List Char) where
  macros := [("m", ⟨"macros.py", 1, fun arguments => .ok (arguments.1.headD ['1'])⟩)]
  asText := some
  validateNestedMacroResult _ := .ok ()
  parseArguments _ placeholderValues := .ok (placeholderValues.map (·.2), [])

theorem findMatchingParen_span {tables : PythonTables} {sql : List Char} {start closing : ℕ}
    (hcall : MacroCallAt tables sql start)
    (h : findMatchingParen sql (skipWhitespace sql (macroNameEnd tables sql start)) = .ok closing) :
    MacroCallSpan tables sql start (closing + 1) :=
  ⟨hcall, closing, rfl, (findMatchingParen_ok hcall.opening.2 h).1⟩

/-- Of a nested call the outer one is replaced. -/
theorem expandSqlBodyMacros_forward_echo : ∃ splices,
    splices.map (fun splice => (splice.start, splice.stop)) = [(7, 15)] ∧
    "SELECT 1".toList = Splice.forward "SELECT @m(@m())".toList 0 splices := by
  have h : expandSqlBodyMacros asciiTables echoRuntime "orders.sql" 9 "SELECT @m(@m())".toList
      ⟨1, 1⟩ = .ok "SELECT 1".toList := by
    decide +kernel
  obtain ⟨splices, horder, htext, hcovers, -⟩ := expandSqlBodyMacros_forward h
  have hranges : CoversCalls asciiTables "SELECT @m(@m())".toList 0 [⟨7, 15, ['1']⟩] := by
    refine ⟨?_, fun index _ hcall => ?_⟩
    · simp only [forall_mem_singleton]
      exact findMatchingParen_span (by decide +kernel) (by decide +kernel)
    · have hinside : ∀ index < 15, MacroCallAt asciiTables "SELECT @m(@m())".toList index →
          7 ≤ index := by
        decide +kernel
      have hlt : index < 15 := hcall.code.lt_length
      exact ⟨_, mem_singleton_self _, hinside index hlt hcall, hlt⟩
  exact ⟨splices, hcovers.ranges_unique horder hranges ⟨by decide, by decide, le_rfl⟩, htext⟩

/-- Both calls are replaced. -/
theorem rewriteNestedMacroCalls_fresh_echo : ∃ rewritten splices,
    (∃ rest, rewriteNestedMacroCalls asciiTables "@m() @m()".toList (fun start =>
      evaluateMacroCall asciiTables echoRuntime "orders.sql" 9 "@m() @m()".toList ⟨1, 1⟩ start
        false) = .ok (rewritten, rest)) ∧
    splices.map (fun splice => (splice.start, splice.stop)) = [(0, 4), (5, 9)] ∧
    rewritten = Splice.forward "@m() @m()".toList 0 splices := by
  have hok : (rewriteNestedMacroCalls asciiTables "@m() @m()".toList fun start =>
      evaluateMacroCall asciiTables echoRuntime "orders.sql" 9 "@m() @m()".toList ⟨1, 1⟩ start
        false).toOption.isSome = true := by
    decide +kernel
  have h := eq_ok_get hok
  obtain ⟨splices, horder, htext, hcovers, -⟩ := rewriteNestedMacroCalls_fresh h
  have hranges : CoversCalls asciiTables "@m() @m()".toList 0 [⟨0, 4, []⟩, ⟨5, 9, []⟩] := by
    refine ⟨?_, fun index _ hcall => ?_⟩
    · have hfirst : MacroCallSpan asciiTables "@m() @m()".toList 0 4 :=
        findMatchingParen_span (by decide +kernel) (by decide +kernel)
      have hsecond : MacroCallSpan asciiTables "@m() @m()".toList 5 9 :=
        findMatchingParen_span (by decide +kernel) (by decide +kernel)
      simpa using ⟨hfirst, hsecond⟩
    · have hinside : ∀ index < 9, MacroCallAt asciiTables "@m() @m()".toList index →
          index < 4 ∨ 5 ≤ index := by
        decide +kernel
      have hlt : index < 9 := hcall.code.lt_length
      rcases hinside index hlt hcall with hfirst | hsecond
      · exact ⟨_, mem_cons_self, Nat.zero_le _, hfirst⟩
      · exact ⟨_, mem_cons_of_mem _ (mem_singleton_self _), hsecond, hlt⟩
  exact ⟨_, splices, ⟨_, h⟩, hcovers.ranges_unique horder hranges
    ⟨by decide, by decide, by decide, by decide, le_rfl⟩, htext⟩

end SqlTide.Compiler
