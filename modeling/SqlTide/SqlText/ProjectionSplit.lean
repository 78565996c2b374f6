import SqlTide.SqlText.ProjectionSpans

/-!
# The split of the outer list

The spans of a range that is split at its separators follow each other and cover the range with
them. The scan splits at the commas outside of parentheses of what it takes for the list: whether
that is the outer list, and these its commas, can be told from the text.
-/

namespace SqlTide.SqlText

open List

variable {tables : PythonTables} {sql : List Char} {start stop index : ℕ}

/-- The span of a range without the white space at its ends. -/
structure Trimmed (sql : List Char) (start stop : ℕ) (span : SourceSpan) : Prop where
  start_le : start ≤ span.start
  le : span.start ≤ span.stop
  le_stop : span.stop ≤ stop
  before : ∀ index, start ≤ index → index < span.start →
    ∃ character ∈ sql[index]?, pythonIsspace character = true
  after : ∀ index, span.stop ≤ index → index < stop →
    ∃ character ∈ sql[index]?, pythonIsspace character = true
  tight : span.start < span.stop →
    (∃ character ∈ sql[span.start]?, pythonIsspace character = false) ∧
    ∃ character ∈ sql[span.stop - 1]?, pythonIsspace character = false
  located : span = sourceSpan sql span.start span.stop

/-- The spans of a range that is split at its separators. -/
inductive Pieces (sql : List Char) (separator : ℕ → Prop) (stop : ℕ) : ℕ → List SourceSpan → Prop
  | last {start : ℕ} {span : SourceSpan} : start ≤ stop →
      (∀ index, start ≤ index → index < stop → ¬ separator index) →
      Trimmed sql start stop span → Pieces sql separator stop start [span]
  | cons {start index : ℕ} {span : SourceSpan} {spans : List SourceSpan} : start ≤ index →
      index < stop → separator index →
      (∀ between, start ≤ between → between < index → ¬ separator between) →
      Trimmed sql start index span → Pieces sql separator stop (index + 1) spans →
      Pieces sql separator stop start (span :: spans)

theorem mem_range_of_getElem? {piece before after : List Char}
    (hsql : sql = before ++ piece ++ after) (hle : before.length ≤ index)
    (hlt : index < before.length + piece.length) :
    ∃ character ∈ sql[index]?, character ∈ piece := by
  obtain ⟨offset, rfl⟩ := Nat.exists_eq_add_of_le hle
  have hoffset : offset < piece.length := by omega
  refine ⟨piece[offset], ?_, getElem_mem hoffset⟩
  rw [hsql, append_assoc, getElem?_append_right hle, Nat.add_sub_cancel_left,
    getElem?_append_left hoffset, getElem?_eq_getElem hoffset]
  rfl

theorem trimmedSpan_trimmed (hle : start ≤ stop) (hstop : stop ≤ sql.length) :
    Trimmed sql start stop (trimmedSpan sql start stop) := by
  -- the range is white space, what is kept, and white space
  obtain ⟨lead, hlead⟩ : ∃ lead, lead = ((sql.take stop).drop start).takeWhile pythonIsspace :=
    ⟨_, rfl⟩
  obtain ⟨kept, hkept⟩ : ∃ kept, kept =
      (((sql.take stop).drop start).dropWhile pythonIsspace).rdropWhile pythonIsspace := ⟨_, rfl⟩
  obtain ⟨trail, htrail⟩ : ∃ trail, trail =
      (((sql.take stop).drop start).dropWhile pythonIsspace).rtakeWhile pythonIsspace := ⟨_, rfl⟩
  have hrest : ((sql.take stop).drop start).dropWhile pythonIsspace = kept ++ trail := by
    rw [hkept, htrail, rdropWhile_append_rtakeWhile]
  have hrange : (sql.take stop).drop start = lead ++ (kept ++ trail) := by
    rw [← hrest, hlead, takeWhile_append_dropWhile]
  have hbefore : (sql.take start).length = start := by
    rw [length_take]
    omega
  have hsql : sql = sql.take start ++ (lead ++ (kept ++ trail)) ++ sql.drop stop := by
    have hsplit := take_append_drop start (sql.take stop)
    rw [take_take, Nat.min_eq_left hle, hrange] at hsplit
    rw [hsplit, take_append_drop]
  have hlength : start + (lead.length + (kept.length + trail.length)) = stop := by
    have hlength := congrArg List.length hrange
    rw [length_drop, length_take, length_append, length_append] at hlength
    omega
  have hdrop : (sql.take stop).drop (start + lead.length) = kept ++ trail := by
    rw [← drop_drop, hrange, drop_left]
  have hspan : trimmedSpan sql start stop =
      sourceSpan sql (start + lead.length) (start + lead.length + kept.length) := by
    have htrail' : ((kept ++ trail).rtakeWhile pythonIsspace).length = trail.length := by
      rw [← hrest, ← htrail]
    rw [trimmedSpan, ← hlead, hdrop, htrail']
    congr 1
    omega
  rw [hspan]
  refine ⟨Nat.le_add_right _ _, Nat.le_add_right _ _, ?_, ?_, ?_, ?_, rfl⟩
  · show start + lead.length + kept.length ≤ stop
    omega
  · intro index hstart hlt
    have hlt : index < start + lead.length := hlt
    have hsql' : sql = sql.take start ++ lead ++ (kept ++ trail ++ sql.drop stop) := by
      rw [append_assoc, ← append_assoc lead, ← append_assoc]
      exact hsql
    have hoffset : (sql.take start).length ≤ index := by omega
    obtain ⟨character, hcharacter, hmem⟩ := mem_range_of_getElem? hsql' hoffset (by omega)
    exact ⟨character, hcharacter, mem_takeWhile_imp (hlead ▸ hmem)⟩
  · intro index hstart hlt
    have hstart : start + lead.length + kept.length ≤ index := hstart
    have hsql' : sql = (sql.take start ++ (lead ++ kept)) ++ trail ++ sql.drop stop := by
      rw [append_assoc (sql.take start), append_assoc lead]
      exact hsql
    have hoffset : (sql.take start ++ (lead ++ kept)).length ≤ index := by
      simp only [length_append]
      omega
    obtain ⟨character, hcharacter, hmem⟩ := mem_range_of_getElem? hsql' hoffset
      (by simp only [length_append]; omega)
    exact ⟨character, hcharacter, mem_rtakeWhile_imp (htrail ▸ hmem)⟩
  · intro hlt
    have hlt : start + lead.length < start + lead.length + kept.length := hlt
    have hsql' : sql = (sql.take start ++ lead) ++ kept ++ (trail ++ sql.drop stop) := by
      rw [append_assoc, append_assoc, ← append_assoc kept, ← append_assoc lead, ← append_assoc]
      exact hsql
    have hne : kept ≠ [] := by
      rintro rfl
      simp at hlt
    have hget : ∀ offset, offset < kept.length →
        sql[start + lead.length + offset]? = kept[offset]? := by
      intro offset hoffset
      have hlead : (sql.take start ++ lead).length = start + lead.length := by
        rw [length_append, hbefore]
      rw [hsql', append_assoc, getElem?_append_right (by omega), hlead,
        Nat.add_sub_cancel_left, getElem?_append_left hoffset]
    constructor
    · obtain ⟨first, more, rfl⟩ := exists_cons_of_ne_nil hne
      refine ⟨first, hget 0 (by simp), ?_⟩
      have hhead := head?_dropWhile_not pythonIsspace ((sql.take stop).drop start)
      rw [hrest] at hhead
      simpa using hhead
    · have hlast := rdropWhile_last_not pythonIsspace _ (hkept ▸ hne)
      have hpositive := length_pos_of_ne_nil hne
      refine ⟨kept.getLast hne, ?_, ?_⟩
      · have hlast := hget (kept.length - 1) (by omega)
        rw [← Nat.add_sub_assoc (by omega), ← getLast?_eq_getElem?,
          getLast?_eq_some_getLast hne] at hlast
        exact hlast
      · simp only [← hkept] at hlast
        simpa using hlast

variable {separator separator' : ℕ → Prop} {spans : List SourceSpan}

section

variable (h : Pieces sql separator stop start spans)

include h

theorem Pieces.ne_nil : spans ≠ [] := by
  cases h <;> simp

theorem Pieces.start_le_head : ∀ span ∈ spans.head?, start ≤ span.start := by
  intro span hspan
  cases h with
  | last _ _ htrimmed =>
    cases hspan
    exact htrimmed.start_le
  | cons _ _ _ _ htrimmed =>
    cases hspan
    exact htrimmed.start_le

theorem Pieces.last_le_stop : ∀ span ∈ spans.getLast?, span.stop ≤ stop := by
  induction h with
  | last _ _ htrimmed =>
    intro span hspan
    rw [getLast?_singleton] at hspan
    cases hspan
    exact htrimmed.le_stop
  | cons _ _ _ _ _ hrest ih =>
    intro span hspan
    rw [getLast?_cons_of_ne_nil hrest.ne_nil] at hspan
    exact ih span hspan

/-- What is not white space is not before the first span. -/
theorem Pieces.head_le (hle : start ≤ index)
    (hspace : ¬ ∃ character ∈ sql[index]?, pythonIsspace character = true) :
    ∀ span ∈ spans.head?, span.start ≤ index := by
  intro span hspan
  cases h with
  | last _ _ htrimmed =>
    cases hspan
    by_contra hbefore
    exact hspace (htrimmed.before index hle (by omega))
  | cons _ _ _ _ htrimmed =>
    cases hspan
    by_contra hbefore
    exact hspace (htrimmed.before index hle (by omega))

theorem Pieces.start_le_last : ∀ span ∈ spans.getLast?, start ≤ span.stop := by
  induction h with
  | last _ _ htrimmed =>
    intro span hspan
    rw [getLast?_singleton] at hspan
    cases hspan
    exact htrimmed.start_le.trans htrimmed.le
  | cons hle _ _ _ _ hrest ih =>
    intro span hspan
    rw [getLast?_cons_of_ne_nil hrest.ne_nil] at hspan
    have := ih span hspan
    omega

theorem Pieces.lt_last (hle : start ≤ index)
    (hlt : index < stop) (hspace : ¬ ∃ character ∈ sql[index]?, pythonIsspace character = true)
    (hseparator : ¬ separator index) : ∀ span ∈ spans.getLast?, index < span.stop := by
  induction h with
  | last _ _ htrimmed =>
    intro span hspan
    rw [getLast?_singleton] at hspan
    cases hspan
    by_contra hafter
    exact hspace (htrimmed.after index (by omega) hlt)
  | @cons start comma span' spans' hstart hcomma hat _ _ hrest ih =>
    intro span hspan
    rw [getLast?_cons_of_ne_nil hrest.ne_nil] at hspan
    rcases Nat.lt_trichotomy index comma with hbefore | rfl | hafter
    · have := hrest.start_le_last span hspan
      omega
    · exact absurd hat hseparator
    · exact ih (by omega) span hspan

theorem Pieces.congr
    (hsame : ∀ index, start ≤ index → index < stop → (separator index ↔ separator' index)) :
    Pieces sql separator' stop start spans := by
  induction h with
  | last hle hnone htrimmed =>
    refine .last hle (fun index hstart hlt => ?_) htrimmed
    rw [← hsame index hstart hlt]
    exact hnone index hstart hlt
  | cons hle hlt hat hnone htrimmed _ ih =>
    refine .cons hle hlt ((hsame _ hle hlt).mp hat) (fun between hstart hbetween => ?_) htrimmed
      (ih fun between hstart hstop => hsame between (by omega) hstop)
    rw [← hsame between hstart (hbetween.trans hlt)]
    exact hnone between hstart hbetween

end

theorem Pieces.length_eq [DecidablePred separator] (h : Pieces sql separator stop start spans) :
    spans.length = ((Finset.Ico start stop).filter separator).card + 1 := by
  have hnone : ∀ {start stop : ℕ}, (∀ index, start ≤ index → index < stop → ¬ separator index) →
      ∑ index ∈ Finset.Ico start stop, (if separator index then 1 else 0) = 0 := by
    intro start stop hnone
    apply Finset.sum_eq_zero
    intro index hindex
    obtain ⟨hle, hlt⟩ := Finset.mem_Ico.mp hindex
    exact if_neg (hnone index hle hlt)
  rw [Finset.card_filter]
  induction h with
  | last _ hbefore _ => rw [hnone hbefore, length_singleton]
  | @cons start comma _ _ hle hlt hat hbefore _ _ ih =>
    rw [length_cons, ih, ← Finset.sum_Ico_consecutive _ (by omega : start ≤ comma + 1)
      (by omega),
      Finset.sum_Ico_succ_top hle, hnone hbefore, if_pos hat]
    omega

/-- A comma outside of all parentheses: square brackets are no brackets to the scan. -/
def ScannedComma (tables : PythonTables) (sql : List Char) (index : ℕ) : Prop :=
  CodeAt tables sql index ∧ sql[index]? = some ',' ∧ parenthesisDepth tables sql 0 index = 0

/-- A comma outside of all parentheses and square brackets. -/
def OuterComma (tables : PythonTables) (sql : List Char) (index : ℕ) : Prop :=
  CodeAt tables sql index ∧ sql[index]? = some ',' ∧ OutsideAt tables sql index

instance : DecidablePred (OuterComma tables sql) := fun _ => inferInstanceAs (Decidable (_ ∧ _))

theorem splitProjectionSpans_pieces (hclosed : lexemes tables sql ≠ none)
    (hread : CodeRead tables sql 0 start) (hdepth : parenthesisDepth tables sql 0 start = 0)
    (hle : start ≤ stop) (hstop : stop ≤ sql.length) :
    ∃ spans, splitProjectionSpans sql start stop = .ok spans ∧
      Pieces sql (ScannedComma tables sql) stop start spans := by
  refine scanCode_outcome (I := fun index (scan : ProjectionScan) => CodeRead tables sql 0 index ∧
      scan.projectionStart ≤ index ∧ scan.projectionStart ≤ stop ∧
      scan.depth = parenthesisDepth tables sql 0 index ∧
      (∀ between, scan.projectionStart ≤ between → between < index →
        ¬ ScannedComma tables sql between) ∧
      ∀ spans, Pieces sql (ScannedComma tables sql) stop scan.projectionStart spans →
        Pieces sql (ScannedComma tables sql) stop start (scan.spans ++ spans))
    (Q := fun result => ∃ spans, result = .ok spans ∧
      Pieces sql (ScannedComma tables sql) stop start spans) hclosed ?_ ?_ ?_ ?_ _ ?_ ?_
  · intro index scan h
    exact h.1
  · rintro index scan next ⟨hindex, hstart, hbound, hcount, hnone, hpieces⟩ - hskip
    have hlt := lt_of_skipNonCode hskip
    refine ⟨hindex.skip hskip, by omega, hbound, ?_, fun between hbetween hnext => ?_, hpieces⟩
    · rw [hcount]
      exact (depthBetween_of_skip hindex hskip rfl rfl hlt.le le_rfl).symm
    · rcases Nat.lt_or_ge between index with hbefore | hafter
      · exact hnone between hbetween hbefore
      · rintro ⟨hcode, hcomma, -⟩
        obtain ⟨-, character, hcharacter, hquote⟩ :=
          isQuote_of_codeAt_skip hindex hskip hafter hnext hcode
        rw [hcomma] at hcharacter
        cases hcharacter
        cases hquote
  · rintro index scan character ⟨hindex, hstart, hbound, hcount, hnone, hpieces⟩ hlt hskip
      hcharacter
    have hcode := codeStart_of_skipNonCode hskip
    have hread' := hindex.visit hcode hcharacter
    have hsucc : parenthesisDepth tables sql 0 (index + 1) =
        parenthesisDepth tables sql 0 index + bracketAt tables '(' ')' sql index :=
      depthBetween_succ
    rw [bracketAt_of_visit hindex hcode hcharacter rfl rfl] at hsucc
    -- the range grows by a character that is no separator
    have hgrow : ¬ ScannedComma tables sql index → ∀ between, scan.projectionStart ≤ between →
        between < index + 1 → ¬ ScannedComma tables sql between := by
      intro hother between hbetween hnext
      rcases Nat.lt_or_ge between index with hbefore | hafter
      · exact hnone between hbetween hbefore
      · obtain rfl : between = index := by omega
        exact hother
    split_ifs with hopen hclose hcomma
    · rw [if_pos hopen] at hsucc
      refine ⟨Nat.lt_succ_self _, hread', by dsimp only; omega, hbound, ?_, hgrow ?_, hpieces⟩
      · dsimp only
        omega
      · rintro ⟨-, hcomma, -⟩
        rw [hcharacter, hopen] at hcomma
        cases hcomma
    · rw [if_neg hopen, if_pos hclose] at hsucc
      refine ⟨Nat.lt_succ_self _, hread', by dsimp only; omega, hbound, ?_, hgrow ?_, hpieces⟩
      · dsimp only
        omega
      · rintro ⟨-, hcomma, -⟩
        rw [hcharacter, hclose] at hcomma
        cases hcomma
    · obtain ⟨rfl, hzero⟩ := hcomma
      rw [if_neg hopen, if_neg hclose] at hsucc
      have hat : ScannedComma tables sql index :=
        ⟨codeAt_of_codeStart hindex hcode hcharacter rfl, hcharacter, by rw [← hcount, hzero]⟩
      refine ⟨Nat.lt_succ_self _, hread', le_rfl, hlt, ?_,
        fun _ hle hlt => absurd hlt (Nat.not_lt.mpr hle), fun spans h => ?_⟩
      · dsimp only
        omega
      · have hcons := Pieces.cons hstart hlt hat hnone
          (trimmedSpan_trimmed hstart (hlt.le.trans hstop)) h
        have hall := hpieces _ hcons
        simpa using hall
    · rw [if_neg hopen, if_neg hclose] at hsucc
      refine ⟨Nat.lt_succ_self _, hread', by omega, hbound, by omega, hgrow ?_, hpieces⟩
      rintro ⟨-, hcomma', hzero⟩
      rw [hcharacter] at hcomma'
      exact hcomma ⟨Option.some.inj hcomma', by rw [hcount, hzero]⟩
  · rintro index scan ⟨hindex, hstart, hbound, -, hnone, hpieces⟩ hend
    refine ⟨_, rfl, hpieces _ (Pieces.last hbound (fun between hbetween hlt => ?_)
      (trimmedSpan_trimmed hbound hstop))⟩
    exact hnone between hbetween (by omega)
  · omega
  · exact ⟨hread, le_rfl, hle, hdepth.symm, fun _ hle hlt => absurd hlt (Nat.not_lt.mpr hle),
      fun _ h => h⟩

/-- The spans of the list are split at its outer commas. -/
def SplitsExactly (tables : PythonTables) (sql : List Char) (start stop : ℕ) :
    ScanResult (List SourceSpan) → Prop
  | .ok spans => Pieces sql (OuterComma tables sql) stop start spans
  | .error _ => False

/-- The list has a SELECT word directly before it and a FROM word or the end behind it. No such word
in it is outside of parentheses, no other list begins and ends before it, and no comma outside of
parentheses is inside of square brackets. -/
structure PlainList (tables : PythonTables) (sql : List Char) (start stop : ℕ) : Prop where
  select : ∃ index < start, start = index + selectKeyword.length ∧ SelectAt tables sql index
  ends : FromAt tables sql stop ∨ stop = sql.length
  keywords : ∀ index < stop, start ≤ index → SelectAt tables sql index ∨ FromAt tables sql index →
    parenthesisDepth tables sql 0 index ≠ 0
  before : ∀ between < start, FromAt tables sql between →
    parenthesisDepth tables sql 0 between = 0 → ∀ index < between, SelectAt tables sql index →
    parenthesisDepth tables sql 0 index ≠ 0
  commas : ∀ index < stop, start ≤ index → CodeAt tables sql index → sql[index]? = some ',' →
    parenthesisDepth tables sql 0 index = 0 → depthBetween tables '[' ']' sql 0 index = 0

theorem plainList_iff : PlainList tables sql start stop ↔
    (∃ index < start, start = index + selectKeyword.length ∧ SelectAt tables sql index) ∧
    (FromAt tables sql stop ∨ stop = sql.length) ∧
    (∀ index < stop, start ≤ index → SelectAt tables sql index ∨ FromAt tables sql index →
      parenthesisDepth tables sql 0 index ≠ 0) ∧
    (∀ between < start, FromAt tables sql between →
      parenthesisDepth tables sql 0 between = 0 → ∀ index < between, SelectAt tables sql index →
      parenthesisDepth tables sql 0 index ≠ 0) ∧
    ∀ index < stop, start ≤ index → CodeAt tables sql index → sql[index]? = some ',' →
      parenthesisDepth tables sql 0 index = 0 → depthBetween tables '[' ']' sql 0 index = 0 :=
  ⟨fun h => ⟨h.select, h.ends, h.keywords, h.before, h.commas⟩,
    fun ⟨select, ends, keywords, before, commas⟩ => ⟨select, ends, keywords, before, commas⟩⟩

set_option synthInstance.maxSize 512 in
instance : Decidable (PlainList tables sql start stop) := decidable_of_iff _ plainList_iff.symm

theorem selectAt_apart {select select' : ℕ} (h : SelectAt tables sql select)
    (hmatch : keywordMatch tables sql select' ≠ none) (hlt : select < select') :
    select + selectKeyword.length ≤ select' := by
  by_contra hinside
  exact hmatch (keywordMatch_inside h.2 hlt (by omega))

theorem SelectAt.ne_none (h : SelectAt tables sql index) :
    keywordMatch tables sql index ≠ none := by
  rw [h.2]
  simp

theorem FromAt.ne_none (h : FromAt tables sql index) : keywordMatch tables sql index ≠ none := by
  rw [h.2]
  simp

/-- A keyword is neither white space nor a separator. -/
theorem keyword_no_mark (h : keywordMatch tables sql index ≠ none) :
    (¬ ∃ character ∈ sql[index]?, pythonIsspace character = true) ∧
    ¬ OuterComma tables sql index := by
  obtain ⟨stop, hstop⟩ := Option.ne_none_iff_exists'.mp h
  obtain ⟨expected, character, hexpected, hcharacter, hfolds⟩ :=
    exists_letter hstop le_rfl (keywordMatch_bounds hstop).1
  constructor
  · rintro ⟨character', hcharacter', hspace⟩
    rw [hcharacter] at hcharacter'
    cases hcharacter'
    rw [not_isspace_of_foldsTo hexpected hfolds] at hspace
    cases hspace
  · rintro ⟨-, hcomma, -⟩
    rw [hcharacter] at hcomma
    exact ne_of_foldsTo hexpected hfolds ',' (by decide) (Option.some.inj hcomma)

theorem ScannedList.unique {start' stop' : ℕ} (h : ScannedList tables sql start stop)
    (h' : ScannedList tables sql start' stop') : start = start' ∧ stop = stop' := by
  have hstops : ∀ {start stop start' stop' : ℕ}, ScannedList tables sql start stop →
      ScannedList tables sql start' stop' → stop' ≤ sql.length → ¬ stop < stop' := by
    intro start stop start' stop' h h' hlength hlt
    rcases h.ends with ⟨hfrom, hzero⟩ | hend
    · obtain ⟨select, rfl, hselect, hdepth⟩ := h.select
      have hle := h.le
      have hlength : 0 < selectKeyword.length := by decide
      exact h'.first select stop (by omega) hlt hselect hdepth hfrom hzero
    · omega
  have hstarts : ∀ {start start' stop : ℕ}, ScannedList tables sql start stop →
      ScannedList tables sql start' stop → ¬ start < start' := by
    intro start start' stop h h' hlt
    obtain ⟨select, rfl, hselect, -⟩ := h.select
    obtain ⟨select', rfl, hselect', hdepth'⟩ := h'.select
    have hapart := selectAt_apart hselect hselect'.ne_none (by omega)
    have hle := h'.le
    have hlength : 0 < selectKeyword.length := by decide
    exact h.last select' hapart (by omega) hselect' hdepth'
  have hlength : ∀ {start stop : ℕ}, ScannedList tables sql start stop → stop ≤ sql.length := by
    intro start stop h
    rcases h.ends with ⟨hfrom, -⟩ | hend
    · exact hfrom.1.lt_length.le
    · omega
  have hstop : stop = stop' :=
    le_antisymm (Nat.le_of_not_lt (hstops h' h (hlength h)))
      (Nat.le_of_not_lt (hstops h h' (hlength h')))
  subst hstop
  exact ⟨le_antisymm (Nat.le_of_not_lt (hstarts h' h)) (Nat.le_of_not_lt (hstarts h h')), rfl⟩

theorem CodeAt.not_space (h : CodeAt tables sql index) :
    ¬ ∃ character ∈ sql[index]?, pythonIsspace character = true := by
  obtain ⟨character, hcharacter, hother⟩ := h.character
  rintro ⟨character', hcharacter', hspace⟩
  obtain rfl := Option.some.inj (hcharacter.symm.trans hcharacter')
  rw [hother] at hspace
  cases hspace

/-- A plain list is what the scan takes for the list. -/
theorem OuterList.scannedList (h : OuterList tables sql start stop)
    (hplain : PlainList tables sql start stop) : ScannedList tables sql start stop where
  le := h.le
  select := by
    obtain ⟨select, -, rfl, hat⟩ := hplain.select
    refine ⟨select, rfl, hat, ?_⟩
    rw [← h.outside.1]
    exact (depthBetween_of_keyword hat.2 (by decide) (by decide) (Nat.le_add_right _ _) le_rfl).symm
  last index hstart hlt hat := hplain.keywords index hlt hstart (Or.inl hat)
  first index between hlt hstop hat hdepth hfrom := by
    rcases Nat.lt_or_ge between start with hbefore | hafter
    · exact fun hzero => hplain.before between hbefore hfrom hzero index hlt hat hdepth
    · exact hplain.keywords between hstop hafter (Or.inr hfrom)
  ends := by
    rcases hplain.ends with hfrom | hend
    · have hother : stop ≠ sql.length := hfrom.1.lt_length.ne
      exact Or.inl ⟨hfrom, (h.ends.resolve_left hother).2.1.1⟩
    · exact Or.inr hend

section
variable {start' stop' : ℕ} {spans : List SourceSpan}

theorem Pieces.head_le_stop (h : Pieces sql separator stop start spans) :
    ∀ span ∈ spans.head?, span.start ≤ stop := by
  intro span hspan
  cases h with
  | last _ _ htrimmed =>
    cases hspan
    exact htrimmed.le.trans htrimmed.le_stop
  | cons _ hlt _ _ htrimmed _ =>
    cases hspan
    exact (htrimmed.le.trans htrimmed.le_stop).trans hlt.le

/-- What is found behind the beginning of the outer list is not what the spans cover. -/
theorem start_le_of_pieces (h' : ScannedList tables sql start' stop')
    (hpieces : Pieces sql (OuterComma tables sql) stop start spans)
    (hpieces' : Pieces sql (ScannedComma tables sql) stop' start' spans) : start' ≤ start := by
  by_contra hlt
  obtain ⟨select, rfl, hselect, -⟩ := h'.select
  have hlength : 0 < selectKeyword.length := by decide
  obtain ⟨span, hspan⟩ : ∃ span, span ∈ spans.head? := ⟨_, head?_eq_some_head hpieces.ne_nil⟩
  have hstart := hpieces'.start_le_head span hspan
  -- a letter of the word is in the range, or the range ends before it
  rcases Nat.lt_or_ge (max start select) stop with hinside | hbehind
  · obtain ⟨expected, character, hexpected, hcharacter, hfolds⟩ :=
      exists_letter hselect.2 (le_max_right start select) (by omega)
    have hle := hpieces.head_le (le_max_left start select) (by
      rintro ⟨character', hcharacter', hspace⟩
      obtain rfl := Option.some.inj (hcharacter.symm.trans hcharacter')
      rw [not_isspace_of_foldsTo hexpected hfolds] at hspace
      cases hspace) span hspan
    omega
  · have := hpieces.head_le_stop span hspan
    omega

theorem OuterList.start_eq_of_pieces (h : OuterList tables sql start stop)
    (h' : ScannedList tables sql start' stop')
    (hpieces : Pieces sql (OuterComma tables sql) stop start spans)
    (hpieces' : Pieces sql (ScannedComma tables sql) stop' start' spans) : start = start' := by
  have hle := start_le_of_pieces h' hpieces hpieces'
  by_contra hne
  obtain ⟨span, hspan⟩ : ∃ span, span ∈ spans.head? := ⟨_, head?_eq_some_head hpieces.ne_nil⟩
  have hstart := hpieces.start_le_head span hspan
  -- the character before the list is code and would be part of the first span
  have := hpieces'.head_le (by omega) h.behind.not_space span hspan
  omega

theorem OuterList.stop_eq_of_pieces (h : OuterList tables sql start stop)
    (h' : ScannedList tables sql start stop')
    (hpieces : Pieces sql (OuterComma tables sql) stop start spans)
    (hpieces' : Pieces sql (ScannedComma tables sql) stop' start spans) : stop = stop' := by
  have hle := h.le
  have hle' := h'.le
  obtain ⟨span, hspan⟩ : ∃ span, span ∈ spans.getLast? :=
    ⟨_, getLast?_eq_some_getLast hpieces.ne_nil⟩
  rcases Nat.lt_trichotomy stop stop' with hlt | heq | hlt
  · exfalso
    have hlength : stop' ≤ sql.length := by
      rcases h'.ends with ⟨hfrom, -⟩ | hend
      · exact hfrom.1.lt_length.le
      · exact hend.le
    obtain ⟨hcode, -, hcomma⟩ := h.ends.resolve_left (by omega)
    have := hpieces'.lt_last hle hlt hcode.not_space (fun hat => hcomma hat.2.1) span hspan
    have := hpieces.last_le_stop span hspan
    omega
  · exact heq
  · exfalso
    rcases h'.ends with ⟨hfrom, -⟩ | hend
    · have hmark := keyword_no_mark hfrom.ne_none
      have := hpieces.lt_last hle' hlt hmark.1 hmark.2 span hspan
      have := hpieces'.last_le_stop span hspan
      omega
    · rcases h.ends with hend' | ⟨hcode, -⟩
      · omega
      · have := hcode.lt_length
        omega

end

theorem OuterComma.scanned (h : OuterComma tables sql index) : ScannedComma tables sql index :=
  ⟨h.1, h.2.1, h.2.2.1⟩

/-- Where the spans are the same, so are the commas: there are as many of both. -/
theorem plainList_of_pieces (h : ScannedList tables sql start stop) {spans : List SourceSpan}
    (hpieces : Pieces sql (OuterComma tables sql) stop start spans)
    (hpieces' : Pieces sql (ScannedComma tables sql) stop start spans) :
    PlainList tables sql start stop where
  select := by
    obtain ⟨select, hstart, hselect, -⟩ := h.select
    have hlength : 0 < selectKeyword.length := by decide
    exact ⟨select, by omega, hstart, hselect⟩
  ends := h.ends.imp_left And.left
  keywords index hlt hstart hat hzero := by
    obtain ⟨select, rfl, hselect, hdepth⟩ := h.select
    have hlength : 0 < selectKeyword.length := by decide
    rcases hat with hat | hat
    · exact h.last index hstart hlt hat hzero
    · exact h.first select index (by omega) hlt hselect hdepth hat hzero
  before between hbetween hfrom hzero index hlt hat hdepth :=
    h.first index between hlt (hbetween.trans_le h.le) hat hdepth hfrom hzero
  commas index hlt hstart hcode hcomma hzero := by
    classical
    have hlength := hpieces.length_eq.symm.trans hpieces'.length_eq
    have hsubset : (Finset.Ico start stop).filter (OuterComma tables sql) ⊆
        (Finset.Ico start stop).filter (ScannedComma tables sql) :=
      Finset.monotone_filter_right _ fun _ _ houter => houter.scanned
    have hsame := Finset.eq_of_subset_of_card_le hsubset (by omega)
    have hmem : index ∈ (Finset.Ico start stop).filter (ScannedComma tables sql) :=
      Finset.mem_filter.mpr ⟨Finset.mem_Ico.mpr ⟨hstart, hlt⟩, hcode, hcomma, hzero⟩
    rw [← hsame] at hmem
    exact (Finset.mem_filter.mp hmem).2.2.2.2

/-- What is split is the list that the scan comes to. -/
theorem ScannedList.exists_pieces (h : ScannedList tables sql start stop)
    (hclosed : lexemes tables sql ≠ none) :
    ∃ spans, splitProjectionSpans sql start stop = .ok spans ∧
      Pieces sql (ScannedComma tables sql) stop start spans := by
  obtain ⟨select, rfl, hselect, hdepth⟩ := h.select
  have hzero : parenthesisDepth tables sql 0 (select + selectKeyword.length) = 0 := by
    rw [← hdepth]
    exact depthBetween_of_keyword hselect.2 (by decide) (by decide) (Nat.le_add_right _ _) le_rfl
  refine splitProjectionSpans_pieces hclosed (hselect.1.codeRead.keyword hselect.2) hzero h.le ?_
  rcases h.ends with ⟨hfrom, -⟩ | hend
  · exact hfrom.1.lt_length.le
  · exact hend.le

/-- The outer list of a text is split exactly when it is a plain one. -/
theorem outerProjectionSpans_exact_iff (hclosed : lexemes tables sql ≠ none)
    (hlist : OuterList tables sql start stop) :
    SplitsExactly tables sql start stop (outerProjectionSpans tables sql) ↔
      PlainList tables sql start stop := by
  have hscan : ListScan tables sql 0 none 0 :=
    ⟨CodeRead.refl (Nat.zero_le sql.length), depthBetween_self.symm,
      fun between hlt => absurd hlt (Nat.not_lt_zero between)⟩
  have houtcome := projectionListLoop_outcome hclosed sql.length (Nat.le_add_left _ _) hscan
  unfold outerProjectionSpans
  cases hloop : projectionListLoop tables sql sql.length 0 none 0 with
  | error error =>
    rw [hloop] at houtcome
    exact houtcome.elim
  | ok found =>
    obtain ⟨projectionStart, projectionEnd⟩ := found
    rw [hloop] at houtcome
    cases projectionStart with
    | none =>
      obtain ⟨select, -, hselect, hdepth⟩ := hlist.select
      exact absurd hdepth.1 (houtcome select hselect)
    | some projectionStart =>
      have hscanned : ScannedList tables sql projectionStart projectionEnd := houtcome
      obtain ⟨spans, hspans, hpieces⟩ := hscanned.exists_pieces hclosed
      show SplitsExactly tables sql start stop
        (splitProjectionSpans sql projectionStart projectionEnd) ↔ _
      rw [hspans]
      constructor
      · intro hexact
        obtain rfl := hlist.start_eq_of_pieces hscanned hexact hpieces
        obtain rfl := hlist.stop_eq_of_pieces hscanned hexact hpieces
        exact plainList_of_pieces hscanned hexact hpieces
      · intro hplain
        obtain ⟨rfl, rfl⟩ := (hlist.scannedList hplain).unique hscanned
        refine hpieces.congr fun index hstart hlt => ⟨fun ⟨hcode, hcomma, hzero⟩ => ?_,
          OuterComma.scanned⟩
        exact ⟨hcode, hcomma, hzero, hplain.commas index hlt hstart hcode hcomma hzero⟩

/-- A list that is split, and one that is not: the FROM of `IS DISTINCT FROM` is taken for its
end. -/
theorem outerProjectionSpans_exact_iff_two :
    SplitsExactly asciiTables "SELECT f(a, b) AS x, y FROM t".toList 6 23
        (outerProjectionSpans asciiTables "SELECT f(a, b) AS x, y FROM t".toList) ∧
    ¬ SplitsExactly asciiTables "SELECT a IS DISTINCT FROM b, c FROM t".toList 6 31
        (outerProjectionSpans asciiTables "SELECT a IS DISTINCT FROM b, c FROM t".toList) := by
  constructor
  · refine (outerProjectionSpans_exact_iff (by decide +kernel) ?_).mpr (by decide +kernel)
    exact ⟨by decide, ⟨0, by decide, by decide +kernel, by decide +kernel⟩, by decide +kernel,
      by decide +kernel, Or.inr (by decide +kernel)⟩
  · refine (outerProjectionSpans_exact_iff (by decide +kernel) ?_).not.mpr (by decide +kernel)
    exact ⟨by decide, ⟨0, by decide, by decide +kernel, by decide +kernel⟩, by decide +kernel,
      by decide +kernel, Or.inr (by decide +kernel)⟩

/-- Brackets are closed after they are opened, and all of them are. -/
def BracketsClosed (tables : PythonTables) (opening closing : Char) (sql : List Char) : Prop :=
  (∀ index < sql.length, 0 ≤ depthBetween tables opening closing sql 0 index) ∧
    depthBetween tables opening closing sql 0 sql.length = 0

instance {opening closing : Char} : Decidable (BracketsClosed tables opening closing sql) :=
  inferInstanceAs (Decidable (_ ∧ _))

/-- An array literal is split at its comma. -/
theorem not_splitsExactly_of_array : ¬ ∀ sql : List Char, lexemes asciiTables sql ≠ none →
    BracketsClosed asciiTables '(' ')' sql → BracketsClosed asciiTables '[' ']' sql →
    ∀ start stop, OuterList asciiTables sql start stop →
      SplitsExactly asciiTables sql start stop (outerProjectionSpans asciiTables sql) := by
  intro h
  have hexact := h "SELECT [1, 2] AS x FROM t".toList (by decide +kernel) (by decide +kernel)
    (by decide +kernel) 6 19 ⟨by decide, ⟨0, by decide, by decide +kernel, by decide +kernel⟩,
      by decide +kernel, by decide +kernel, Or.inr (by decide +kernel)⟩
  have hspans : outerProjectionSpans asciiTables "SELECT [1, 2] AS x FROM t".toList =
      .ok [⟨7, 9, 1, 8, 1, 10⟩, ⟨11, 18, 1, 12, 1, 19⟩] := by decide +kernel
  rw [hspans] at hexact
  have hlength := Pieces.length_eq hexact
  exact absurd hlength (by decide +kernel)

end SqlTide.SqlText
