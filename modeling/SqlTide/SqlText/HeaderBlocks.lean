import SqlTide.SqlText.BracketDepth

/-!
# Header blocks

A text is split at its headers `KEYWORD (...);`, each of which leads its line. A block is a header
and the body that goes on up to the next header.
-/

namespace SqlTide.SqlText

open Foundations List

structure SqlHeaderBlock where
  start : ℕ
  bodyStart : ℕ
  header : String
  body : String
  deriving DecidableEq, Repr

/-- Where a header starts, where the text in its parentheses starts, and where its body starts. -/
structure HeaderMarker where
  start : ℕ
  headerStart : ℕ
  bodyStart : ℕ

def linePrefixIsWhitespace (sql : List Char) (start : ℕ) : Bool :=
  ((sql.take start).rtakeWhile (· ≠ '\n')).all pythonIsspace

section
variable (tables : PythonTables)

def headerMarker (sql keyword : List Char) (start : ℕ) : ScanResult (Option HeaderMarker) :=
  if keyword.isPrefixOf (sql.drop start) = false ∨ linePrefixIsWhitespace sql start = false then
    .ok none
  else if (sql[start + keyword.length]?).any (isIdentifierCharacter tables) then .ok none
  else do
    let openIndex ← skipTrivia sql (start + keyword.length)
    if sql[openIndex]? ≠ some '(' then .ok none
    else
      let closeIndex ← findMatchingParenthesis sql openIndex (String.ofList keyword ++ " header")
      let semicolonIndex ← skipTrivia sql (closeIndex + 1)
      if sql[semicolonIndex]? ≠ some ';' then
        .error (.unlocated (String.ofList keyword ++ " header must end with a semicolon"))
      else .ok (some ⟨start, openIndex + 1, semicolonIndex + 1⟩)

/-- The first loop of `split_header_blocks`. -/
def headerMarkers (sql keyword : List Char) : ScanResult (List HeaderMarker) :=
  scanCode sql sql.length
    (fun index _ markers => do
      match ← headerMarker tables sql keyword index with
      | some marker => .ok (.goOn marker.bodyStart (markers ++ [marker]))
      | none => .ok (.goOn (index + 1) markers))
    .ok sql.length 0 []

/-- The second loop of `split_header_blocks`. -/
def headerBlocks (sql : List Char) : List HeaderMarker → ScanResult (List SqlHeaderBlock)
  | [] => .ok []
  | marker :: markers => do
    let nextStart := (markers.head?.map HeaderMarker.start).getD sql.length
    let closeIndex ← findMatchingParenthesis sql (marker.headerStart - 1) "SQL extension header"
    let blocks ← headerBlocks sql markers
    .ok ({ start := marker.start
           bodyStart := marker.bodyStart
           header := String.ofList ((sql.take closeIndex).drop marker.headerStart)
           body := String.ofList ((sql.take nextStart).drop marker.bodyStart) } :: blocks)

def splitHeaderBlocks (sql keyword : List Char) : ScanResult (List SqlHeaderBlock) := do
  headerBlocks sql (← headerMarkers tables sql keyword)

/-- Only white space comes before an index in its line. -/
def LeadsLine (sql : List Char) (start : ℕ) : Prop :=
  ∃ before line, sql.take start = before ++ line ∧
    (∀ character ∈ before.getLast?, character = '\n') ∧
    ∀ character ∈ line, pythonIsspace character = true

/-- A keyword of code that leads its line, and its opening parenthesis. -/
structure HeaderKeyword (sql keyword : List Char) (start openIndex : ℕ) : Prop where
  code : CodeAt tables sql start
  word : keyword <+: sql.drop start
  line : LeadsLine sql start
  bounded : ∀ character ∈ sql[start + keyword.length]?,
    isIdentifierCharacter tables character = false
  opens : FirstCode tables sql (start + keyword.length) openIndex
  parenthesis : sql[openIndex]? = some '('

/-- The matching parenthesis and the semicolon behind it. -/
structure ClosedHeader (sql : List Char) (openIndex closeIndex semicolonIndex : ℕ) : Prop where
  closing : MatchingParenthesis tables sql openIndex closeIndex
  ends : FirstCode tables sql (closeIndex + 1) semicolonIndex
  semicolon : sql[semicolonIndex]? = some ';'

/-- A block starts at a header and has its text. -/
def IsHeaderBlock (sql keyword : List Char) (block : SqlHeaderBlock) : Prop :=
  ∃ openIndex closeIndex semicolonIndex,
    HeaderKeyword tables sql keyword block.start openIndex ∧
      ClosedHeader tables sql openIndex closeIndex semicolonIndex ∧
      block.bodyStart = semicolonIndex + 1 ∧
      block.header = String.ofList ((sql.take closeIndex).drop (openIndex + 1))

/-- The blocks of a text: their headers, their order, their bodies and what they cover. Every
keyword is the start of a block or inside of its header. -/
structure HeaderBlocks (sql keyword : List Char) (blocks : List SqlHeaderBlock) : Prop where
  headers : ∀ block ∈ blocks, IsHeaderBlock tables sql keyword block
  ordered : blocks.IsChain fun block next => block.bodyStart ≤ next.start
  bodies : ∀ position block, blocks[position]? = some block →
    block.body = String.ofList ((sql.take
      ((blocks[position + 1]?.map SqlHeaderBlock.start).getD sql.length)).drop block.bodyStart)
  covered : ∀ first ∈ blocks.head?, sql.drop first.start =
    blocks.flatMap fun block => (sql.take block.bodyStart).drop block.start ++ block.body.toList
  complete : ∀ start openIndex, HeaderKeyword tables sql keyword start openIndex →
    ∃ block ∈ blocks, block.start ≤ start ∧ start < block.bodyStart

end

variable {tables : PythonTables} {sql keyword : List Char} {start index openIndex closeIndex : ℕ}

theorem linePrefixIsWhitespace_iff :
    linePrefixIsWhitespace sql start = true ↔ LeadsLine sql start := by
  constructor
  · intro h
    refine ⟨_, _, (rdropWhile_append_rtakeWhile (p := (· ≠ '\n'))).symm, ?_, all_eq_true.mp h⟩
    intro character hcharacter
    obtain ⟨hne, hlast⟩ := mem_getLast?_eq_getLast hcharacter
    have hnot := rdropWhile_last_not _ _ hne
    rw [hlast]
    simpa using hnot
  · rintro ⟨before, line, hsplit, hbefore, hline⟩
    apply all_eq_true.mpr
    intro character hcharacter
    rw [hsplit, rtakeWhile, mem_reverse, reverse_append, takeWhile_append] at hcharacter
    have hnone : before.reverse.takeWhile (· ≠ '\n') = [] := by
      cases hreverse : before.reverse with
      | nil => rfl
      | cons last rest =>
        have hlast := hbefore last (by rw [getLast?_eq_head?_reverse, hreverse]; rfl)
        simp [hlast]
    split_ifs at hcharacter
    · rw [hnone, append_nil, mem_reverse] at hcharacter
      exact hline character hcharacter
    · exact hline character (mem_reverse.mp (takeWhile_subset _ hcharacter))

theorem codeStart_parenthesis {rest : List Char} : CodeStart ('(' :: rest) :=
  ⟨rfl, rfl, fun _ h => Option.some.inj h ▸ rfl⟩

theorem codeStart_semicolon {rest : List Char} : CodeStart (';' :: rest) :=
  ⟨rfl, rfl, fun _ h => Option.some.inj h ▸ rfl⟩

/-- What `header_marker` comes to. -/
def MarkerOutcome (tables : PythonTables) (sql keyword : List Char) (start : ℕ) :
    ScanResult (Option HeaderMarker) → Prop
  | .ok none => ∀ openIndex, ¬ HeaderKeyword tables sql keyword start openIndex
  | .ok (some marker) => ∃ openIndex closeIndex semicolonIndex,
      HeaderKeyword tables sql keyword start openIndex ∧
        ClosedHeader tables sql openIndex closeIndex semicolonIndex ∧
        CodeRead tables sql 0 (openIndex + 1) ∧ CodeRead tables sql 0 (semicolonIndex + 1) ∧
        marker = ⟨start, openIndex + 1, semicolonIndex + 1⟩
  | .error _ => ∃ openIndex, HeaderKeyword tables sql keyword start openIndex ∧
      ∀ closeIndex semicolonIndex, ¬ ClosedHeader tables sql openIndex closeIndex semicolonIndex

theorem headerMarker_outcome (hkeyword : IsIdentifier tables keyword)
    (hclosed : lexemes tables sql ≠ none) (hread : CodeRead tables sql 0 start)
    (hstart : CodeStart (sql.drop start)) :
    MarkerOutcome tables sql keyword start (headerMarker tables sql keyword start) := by
  unfold headerMarker
  split_ifs with hleads hbounded
  · intro openIndex hheader
    rcases hleads with hother | hother
    · have hleading := isPrefixOf_iff_prefix.mpr hheader.word
      rw [hleading] at hother
      cases hother
    · rw [linePrefixIsWhitespace_iff.mpr hheader.line] at hother
      cases hother
  · intro openIndex hheader
    cases hcharacter : sql[start + keyword.length]? with
    | none => simp [hcharacter] at hbounded
    | some character =>
      rw [hcharacter, Option.any_some, hheader.bounded character hcharacter] at hbounded
      cases hbounded
  · obtain ⟨hword, hline⟩ := not_or.mp hleads
    obtain ⟨rest, hsplit⟩ := isPrefixOf_iff_prefix.mp (Bool.not_eq_false _ ▸ hword)
    have hkeywordEnd : CodeRead tables sql 0 (start + keyword.length) :=
      hread.run hsplit.symm fun c hc _ => codeStart_of_isIdentifierCharacter (hkeyword.all c hc)
    obtain ⟨openIndex, hopens, hopenRead, hopen⟩ := skipTrivia_firstCode hclosed hkeywordEnd
    have hheader : sql[openIndex]? = some '(' →
        HeaderKeyword tables sql keyword start openIndex := by
      intro hparenthesis
      obtain ⟨first, word, rfl, hfirst, -⟩ := hkeyword.exists_cons
      have hcharacter : sql[start]? = some first := by
        rw [← head?_drop, ← hsplit]
        rfl
      have hspace : pythonIsspace first = false := by
        cases hspace : pythonIsspace first with
        | false => rfl
        | true =>
          rw [not_isIdentifierStart_of_isspace hspace] at hfirst
          cases hfirst
      refine ⟨codeAt_of_codeStart hread hstart hcharacter hspace, ⟨rest, hsplit⟩,
        linePrefixIsWhitespace_iff.mp (by simpa using hline), ?_, hopen, hparenthesis⟩
      intro character hbound
      rw [Option.mem_def.mp hbound] at hbounded
      simpa using hbounded
    rw [hopens]
    show MarkerOutcome tables sql keyword start (if _ then _ else _)
    split_ifs with hparenthesis
    · intro openIndex' hheader'
      rw [hopen.unique hheader'.opens] at hparenthesis
      exact hparenthesis hheader'.parenthesis
    · have hparenthesis := not_not.mp hparenthesis
      have hopenStart : CodeStart (sql.drop openIndex) :=
        drop_eq_cons hparenthesis ▸ codeStart_parenthesis
      have hinside := hopenRead.visit hopenStart hparenthesis
      have hmatching := findMatchingParenthesis_outcome hinside (String.ofList keyword ++ " header")
      cases hfind : findMatchingParenthesis sql openIndex (String.ofList keyword ++ " header") with
      | error error =>
        rw [hfind] at hmatching
        exact ⟨openIndex, hheader hparenthesis, fun closeIndex _ h =>
          hmatching closeIndex h.closing⟩
      | ok closeIndex =>
        rw [hfind] at hmatching
        obtain ⟨hcloseRead, hclosing⟩ := hmatching
        obtain ⟨semicolonIndex, hends, hsemicolonRead, hsemicolon⟩ :=
          skipTrivia_firstCode hclosed hcloseRead
        show MarkerOutcome tables sql keyword start ((skipTrivia sql (closeIndex + 1)).bind _)
        rw [hends]
        show MarkerOutcome tables sql keyword start (if _ then _ else _)
        split_ifs with hcharacter
        · refine ⟨openIndex, hheader hparenthesis, fun closeIndex' semicolonIndex' h => ?_⟩
          obtain rfl := hclosing.unique h.closing
          rw [hsemicolon.unique h.ends] at hcharacter
          exact hcharacter h.semicolon
        · have hcharacter := not_not.mp hcharacter
          have hsemicolonStart : CodeStart (sql.drop semicolonIndex) :=
            drop_eq_cons hcharacter ▸ codeStart_semicolon
          exact ⟨openIndex, closeIndex, semicolonIndex, hheader hparenthesis,
            ⟨hclosing, hsemicolon, hcharacter⟩, hinside,
            hsemicolonRead.visit hsemicolonStart hcharacter, rfl⟩

/-- A marker has the indices of a header. -/
def IsHeaderMarker (tables : PythonTables) (sql keyword : List Char)
    (marker : HeaderMarker) : Prop :=
  ∃ openIndex closeIndex semicolonIndex,
    HeaderKeyword tables sql keyword marker.start openIndex ∧
      ClosedHeader tables sql openIndex closeIndex semicolonIndex ∧
      CodeRead tables sql 0 (openIndex + 1) ∧ marker.headerStart = openIndex + 1 ∧
      marker.bodyStart = semicolonIndex + 1

/-- The headers up to an index, in the order of the text. -/
structure MarkersBefore (tables : PythonTables) (sql keyword : List Char) (index : ℕ)
    (markers : List HeaderMarker) : Prop where
  headers : ∀ marker ∈ markers, IsHeaderMarker tables sql keyword marker
  ordered : markers.IsChain fun marker next => marker.bodyStart ≤ next.start
  before : ∀ marker ∈ markers, marker.bodyStart ≤ index
  complete : ∀ start openIndex, HeaderKeyword tables sql keyword start openIndex → start < index →
    ∃ marker ∈ markers, marker.start ≤ start ∧ start < marker.bodyStart

variable {markers : List HeaderMarker}

theorem MarkersBefore.goOn {next : ℕ} (h : MarkersBefore tables sql keyword index markers)
    (hle : index ≤ next) (hnone : ∀ start openIndex, index ≤ start → start < next →
      ¬ HeaderKeyword tables sql keyword start openIndex) :
    MarkersBefore tables sql keyword next markers where
  headers := h.headers
  ordered := h.ordered
  before marker hmarker := (h.before marker hmarker).trans hle
  complete start openIndex hheader hlt := by
    rcases Nat.lt_or_ge start index with hbefore | hafter
    · exact h.complete start openIndex hheader hbefore
    · exact absurd hheader (hnone start openIndex hafter hlt)

theorem MarkersBefore.push {semicolonIndex : ℕ} (h : MarkersBefore tables sql keyword index markers)
    (hheader : HeaderKeyword tables sql keyword index openIndex)
    (hclosed : ClosedHeader tables sql openIndex closeIndex semicolonIndex)
    (hread : CodeRead tables sql 0 (openIndex + 1)) :
    MarkersBefore tables sql keyword (semicolonIndex + 1)
      (markers ++ [⟨index, openIndex + 1, semicolonIndex + 1⟩]) where
  headers marker hmarker := by
    rcases mem_append.mp hmarker with hmarker | hmarker
    · exact h.headers marker hmarker
    · obtain rfl := mem_singleton.mp hmarker
      exact ⟨openIndex, closeIndex, semicolonIndex, hheader, hclosed, hread, rfl, rfl⟩
  ordered := by
    apply isChain_append.mpr
    refine ⟨h.ordered, isChain_singleton _, fun last hlast next hnext => ?_⟩
    cases hnext
    exact h.before last (mem_of_getLast? hlast)
  before marker hmarker := by
    have hopens := hheader.opens.le
    have hcloses := hclosed.closing.lt
    have hends := hclosed.ends.le
    rcases mem_append.mp hmarker with hmarker | hmarker
    · have := h.before marker hmarker
      omega
    · obtain rfl := mem_singleton.mp hmarker
      exact le_rfl
  complete start openIndex' hheader' hlt := by
    rcases Nat.lt_or_ge start index with hbefore | hafter
    · obtain ⟨marker, hmarker, hrange⟩ := h.complete start openIndex' hheader' hbefore
      exact ⟨marker, List.mem_append_left _ hmarker, hrange⟩
    · exact ⟨_, List.mem_append_right _ (mem_singleton_self _), hafter, hlt⟩

/-- What the first loop of `split_header_blocks` comes to. -/
def MarkersOutcome (tables : PythonTables) (sql keyword : List Char) :
    ScanResult (List HeaderMarker) → Prop
  | .ok markers => MarkersBefore tables sql keyword sql.length markers
  | .error _ => ∃ start openIndex, HeaderKeyword tables sql keyword start openIndex ∧
      ∀ closeIndex semicolonIndex, ¬ ClosedHeader tables sql openIndex closeIndex semicolonIndex

theorem headerMarkers_outcome (hkeyword : IsIdentifier tables keyword)
    (hclosed : lexemes tables sql ≠ none) :
    MarkersOutcome tables sql keyword (headerMarkers tables sql keyword) := by
  refine scanCode_outcome (I := fun index markers => CodeRead tables sql 0 index ∧
    MarkersBefore tables sql keyword index markers) hclosed ?_ ?_ ?_ ?_ _ ?_ ?_
  · intro index markers h
    exact h.1
  · rintro index markers next ⟨hread, hmarkers⟩ - hskip
    refine ⟨hread.skip hskip, hmarkers.goOn (lt_of_skipNonCode hskip).le ?_⟩
    -- a keyword does not begin with a quote
    intro start openIndex hle hlt hheader
    obtain ⟨-, character, hcharacter, hquote⟩ :=
      isQuote_of_codeAt_skip hread hskip hle hlt hheader.code
    obtain ⟨first, word, rfl, hfirst, -⟩ := hkeyword.exists_cons
    obtain ⟨rest, hrest⟩ := hheader.word
    have hsame : sql[start]? = some first := by
      rw [← head?_drop, ← hrest]
      rfl
    rw [hsame] at hcharacter
    cases hcharacter
    rw [not_isQuote_of_isIdentifierStart hfirst] at hquote
    cases hquote
  · rintro index markers character ⟨hread, hmarkers⟩ - hskip hcharacter
    have hstart := codeStart_of_skipNonCode hskip
    have houtcome := headerMarker_outcome hkeyword hclosed hread hstart
    cases hmarker : headerMarker tables sql keyword index with
    | error error =>
      rw [hmarker] at houtcome
      obtain ⟨openIndex, hheader⟩ := houtcome
      exact ⟨index, openIndex, hheader⟩
    | ok marker =>
      rw [hmarker] at houtcome
      cases marker with
      | none =>
        refine ⟨Nat.lt_succ_self index, hread.visit hstart hcharacter,
          hmarkers.goOn (Nat.le_succ index) fun start openIndex hle hlt => ?_⟩
        obtain rfl : start = index := by omega
        exact houtcome openIndex
      | some marker =>
        obtain ⟨openIndex, closeIndex, semicolonIndex, hheader, hends, hopen, hend, rfl⟩ := houtcome
        have hopens := hheader.opens.le
        have hcloses := hends.closing.lt
        have hafter := hends.ends.le
        exact ⟨by dsimp only; omega, hend, hmarkers.push hheader hends hopen⟩
  · rintro index markers ⟨hread, hmarkers⟩ hend
    have hstop := hread.stop
    obtain rfl : index = sql.length := by omega
    exact hmarkers
  · omega
  · refine ⟨CodeRead.refl (Nat.zero_le _), by simp, isChain_nil, by simp, ?_⟩
    intro start openIndex _ hlt
    exact absurd hlt (Nat.not_lt_zero start)

theorem drop_split {stop : ℕ} (hle : start ≤ index) (hlt : index ≤ stop) :
    (sql.take stop).drop start = (sql.take index).drop start ++ (sql.take stop).drop index := by
  have hsplit := List.take_append_drop (index - start) ((sql.take stop).drop start)
  rw [drop_drop, Nat.add_sub_cancel' hle, ← drop_take, take_take, Nat.min_eq_left hlt] at hsplit
  exact hsplit.symm

/-- The blocks that the second loop of `split_header_blocks` makes of the markers. -/
structure BlocksOf (tables : PythonTables) (sql keyword : List Char) (markers : List HeaderMarker)
    (blocks : List SqlHeaderBlock) : Prop where
  ranges : (blocks.map fun block => (block.start, block.bodyStart)) =
    markers.map fun marker => (marker.start, marker.bodyStart)
  headers : ∀ block ∈ blocks, IsHeaderBlock tables sql keyword block
  bodies : ∀ position block, blocks[position]? = some block →
    block.body = String.ofList ((sql.take
      ((blocks[position + 1]?.map SqlHeaderBlock.start).getD sql.length)).drop block.bodyStart)
  covered : ∀ first ∈ blocks.head?, sql.drop first.start =
    blocks.flatMap fun block => (sql.take block.bodyStart).drop block.start ++ block.body.toList

theorem BlocksOf.head_start {blocks : List SqlHeaderBlock}
    (h : BlocksOf tables sql keyword markers blocks) :
    markers.head?.map HeaderMarker.start = blocks.head?.map SqlHeaderBlock.start := by
  have hheads := congrArg (fun ranges => ranges.head?.map Prod.fst) h.ranges
  simpa [Function.comp_def] using hheads.symm

theorem BlocksOf.cons {marker : HeaderMarker} {blocks : List SqlHeaderBlock}
    {block : SqlHeaderBlock} (h : BlocksOf tables sql keyword markers blocks)
    (hordered : (marker :: markers).IsChain fun marker next => marker.bodyStart ≤ next.start)
    (hstart : block.start = marker.start) (hbodyStart : block.bodyStart = marker.bodyStart)
    (hheader : IsHeaderBlock tables sql keyword block)
    (hbody : block.body = String.ofList ((sql.take
      ((blocks.head?.map SqlHeaderBlock.start).getD sql.length)).drop block.bodyStart)) :
    BlocksOf tables sql keyword (marker :: markers) (block :: blocks) where
  ranges := by simp [h.ranges, hstart, hbodyStart]
  headers block' hblock := by
    rcases mem_cons.mp hblock with rfl | hblock
    · exact hheader
    · exact h.headers block' hblock
  bodies position block' hblock := by
    cases position with
    | zero =>
      cases hblock
      rw [getElem?_cons_succ, ← head?_eq_getElem?]
      exact hbody
    | succ position => exact h.bodies position block' hblock
  covered first hfirst := by
    cases hfirst
    obtain ⟨openIndex, closeIndex, semicolonIndex, hkeyword, hclosed, hend, -⟩ := hheader
    have hopens := hkeyword.opens.le
    have hcloses := hclosed.closing.lt
    have hafter := hclosed.ends.le
    have hlength := (List.getElem?_eq_some_iff.mp hclosed.semicolon).1
    rw [flatMap_cons, hbody, String.toList_ofList]
    cases hnext : blocks.head? with
    | none =>
      obtain rfl := head?_eq_none_iff.mp hnext
      rw [Option.map_none, Option.getD_none, flatMap_nil, append_nil,
        ← drop_split (by omega) (by omega), take_length]
    | some next =>
      have hle : block.bodyStart ≤ next.start := by
        cases markers with
        | nil =>
          have hstarts := h.head_start
          rw [hnext] at hstarts
          cases hstarts
        | cons next' markers =>
          have hstarts := h.head_start
          rw [hnext] at hstarts
          have hsame : next'.start = next.start := Option.some.inj hstarts
          rw [hbodyStart, ← hsame]
          exact (isChain_cons_cons.mp hordered).1
      have hstop : next.start ≤ sql.length := by
        obtain ⟨_, _, _, hkeyword', -⟩ := h.headers next (mem_of_mem_head? hnext)
        exact hkeyword'.code.lt_length.le
      have hall := @drop_split sql block.start next.start sql.length (by omega) hstop
      rw [take_length] at hall
      rw [← h.covered next hnext, Option.map_some, Option.getD_some, ← drop_split (by omega) hle]
      exact hall

/-- The second loop of `split_header_blocks` finds the parentheses of the first. -/
theorem headerBlocks_ok (markers : List HeaderMarker)
    (hheaders : ∀ marker ∈ markers, IsHeaderMarker tables sql keyword marker)
    (hordered : markers.IsChain fun marker next => marker.bodyStart ≤ next.start) :
    ∃ blocks, headerBlocks sql markers = .ok blocks ∧
      BlocksOf tables sql keyword markers blocks := by
  induction markers with
  | nil => exact ⟨[], rfl, rfl, by simp, by simp, by simp⟩
  | cons marker markers ih =>
    obtain ⟨openIndex, closeIndex, semicolonIndex, hheader, hends, hread, hopen, hbody⟩ :=
      hheaders marker mem_cons_self
    obtain ⟨blocks, hblocks, hof⟩ :=
      ih (fun m hm => hheaders m (mem_cons_of_mem _ hm)) hordered.tail
    have hmatching := findMatchingParenthesis_outcome hread "SQL extension header"
    have hfind : findMatchingParenthesis sql (marker.headerStart - 1) "SQL extension header" =
        .ok closeIndex := by
      rw [hopen, Nat.add_sub_cancel]
      cases hfind : findMatchingParenthesis sql openIndex "SQL extension header" with
      | error error =>
        rw [hfind] at hmatching
        exact absurd hends.closing (hmatching closeIndex)
      | ok closeIndex' =>
        rw [hfind] at hmatching
        rw [hmatching.2.unique hends.closing]
    have hrun : headerBlocks sql (marker :: markers) = .ok
        ({ start := marker.start
           bodyStart := marker.bodyStart
           header := String.ofList ((sql.take closeIndex).drop marker.headerStart)
           body := String.ofList ((sql.take
            ((markers.head?.map HeaderMarker.start).getD sql.length)).drop marker.bodyStart) } ::
          blocks) := by
      rw [headerBlocks, hfind, hblocks]
      rfl
    refine ⟨_, hrun, hof.cons hordered rfl rfl ?_ ?_⟩
    · exact ⟨openIndex, closeIndex, semicolonIndex, hheader, hends, hbody, by rw [hopen]⟩
    · rw [hof.head_start]

/-- What `split_header_blocks` comes to. -/
def SplitOutcome (tables : PythonTables) (sql keyword : List Char) :
    ScanResult (List SqlHeaderBlock) → Prop
  | .ok blocks => HeaderBlocks tables sql keyword blocks
  | .error _ => ∃ start openIndex, HeaderKeyword tables sql keyword start openIndex ∧
      ∀ closeIndex semicolonIndex, ¬ ClosedHeader tables sql openIndex closeIndex semicolonIndex

/-- A closed text is split at its headers, unless one of them lacks its parenthesis or its
semicolon. -/
theorem splitHeaderBlocks_blocks (hkeyword : IsIdentifier tables keyword)
    (hclosed : lexemes tables sql ≠ none) :
    SplitOutcome tables sql keyword (splitHeaderBlocks tables sql keyword) := by
  have houtcome := headerMarkers_outcome hkeyword hclosed
  unfold splitHeaderBlocks
  cases hmarkers : headerMarkers tables sql keyword with
  | error error =>
    rw [hmarkers] at houtcome
    exact houtcome
  | ok markers =>
    rw [hmarkers] at houtcome
    obtain ⟨blocks, hblocks, hof⟩ :=
      headerBlocks_ok markers houtcome.headers houtcome.ordered
    show SplitOutcome tables sql keyword (headerBlocks sql markers)
    rw [hblocks]
    refine ⟨hof.headers, ?_, hof.bodies, hof.covered, ?_⟩
    · have hchain : (markers.map fun marker => (marker.start, marker.bodyStart)).IsChain
          fun range next => range.2 ≤ next.1 := (isChain_map _).mpr houtcome.ordered
      rw [← hof.ranges] at hchain
      exact (isChain_map _).mp hchain
    · intro start openIndex hheader
      obtain ⟨marker, hmarker, hrange⟩ :=
        houtcome.complete start openIndex hheader hheader.code.lt_length
      have hmem : (marker.start, marker.bodyStart) ∈
          blocks.map fun block => (block.start, block.bodyStart) :=
        hof.ranges ▸ mem_map_of_mem hmarker
      obtain ⟨block, hblock, hsame⟩ := List.mem_map.mp hmem
      obtain ⟨hstart, hbody⟩ := Prod.mk.inj hsame
      exact ⟨block, hblock, by omega, by omega⟩

theorem splitHeaderBlocks_blocks_two :
    SplitOutcome asciiTables "MODEL (a 1);\nSELECT 1\nMODEL (b (2));".toList "MODEL".toList
      (splitHeaderBlocks asciiTables "MODEL (a 1);\nSELECT 1\nMODEL (b (2));".toList
        "MODEL".toList) :=
  splitHeaderBlocks_blocks ⟨⟨'M', rfl, rfl⟩, by simp; decide⟩ (by decide +kernel)

/-- A header inside of a parenthesis starts a block. -/
theorem not_outside_of_parentheses : ¬ ∀ sql : List Char, lexemes asciiTables sql ≠ none →
    ∀ blocks, splitHeaderBlocks asciiTables sql "MODEL".toList = .ok blocks →
      ∀ block ∈ blocks, parenthesisDepth asciiTables sql 0 block.start = 0 := by
  intro h
  have hdepth := h "(\nMODEL (a 1);\n)".toList (by decide +kernel) [⟨2, 14, "a 1", "\n)"⟩]
    (by decide +kernel) ⟨2, 14, "a 1", "\n)"⟩ (by simp)
  exact absurd hdepth (by decide +kernel)

end SqlTide.SqlText
